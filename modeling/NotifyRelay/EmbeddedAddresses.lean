import NotifyRelay.Validators

/-! IPv6 addresses that embed an IPv4 address, and what blocking the one means for the
other. -/
namespace NotifyRelay

open IpNetwork

/-- How an RFC 6052 translator with a prefix of this length places the IPv4 address. -/
inductive TranslatorPrefix where
  | bits48
  | bits56
  | bits64
  | bits96

inductive Embedding where
  | mapped
  | compatible
  | siit
  | nat64
  | nat64Local (translator : TranslatorPrefix)
  | sixToFour
  | teredo

namespace Embedding

/-- The length of the range reserved for the form. -/
def prefixlen : Embedding → Nat
  | .mapped | .compatible | .siit | .nat64 => 96
  | .nat64Local _ => 48
  | .sixToFour => 16
  | .teredo => 32

/-- The bits of that range. -/
def range : (form : Embedding) → BitVec form.prefixlen
  | .mapped => 0xffff#96
  | .compatible => 0#96
  | .siit => 0xffff0000#96
  | .nat64 => 0x0064ff9b0000000000000000#96
  | .nat64Local _ => 0x0064ff9b0001#48
  | .sixToFour => 0x2002#16
  | .teredo => 0x20010000#32

/-- Where the IPv4 address is. The octet at bit 56 is left out by translators with a
short prefix, and Teredo flips the bits of the client. -/
def carries (a : BitVec 32) (ip : BitVec 128) : Embedding → Prop
  | .mapped | .compatible | .siit | .nat64 => ip.extractLsb' 0 32 = a
  | .nat64Local .bits48 =>
      ip.extractLsb' 64 16 = a.extractLsb' 16 16 ∧ ip.extractLsb' 40 16 = a.extractLsb' 0 16
  | .nat64Local .bits56 =>
      ip.extractLsb' 64 8 = a.extractLsb' 24 8 ∧ ip.extractLsb' 32 24 = a.extractLsb' 0 24
  | .nat64Local .bits64 => ip.extractLsb' 24 32 = a
  | .nat64Local .bits96 => ip.extractLsb' 0 32 = a
  | .sixToFour => ip.extractLsb' 80 32 = a
  | .teredo => ip.extractLsb' 64 32 = a ∨ ip.extractLsb' 0 32 = ~~~a

structure Embeds (form : Embedding) (a : BitVec 32) (ip : BitVec 128) : Prop where
  range : ip.extractLsb' (128 - form.prefixlen) form.prefixlen = form.range
  carries : form.carries a ip

end Embedding

theorem getLsbD_netmask (w n i : Nat) :
    (netmask w n).getLsbD i = (decide (i < w) && decide (w - n ≤ i)) := by
  unfold netmask
  simp only [BitVec.getLsbD_xor, BitVec.getLsbD_allOnes, BitVec.getLsbD_ushiftRight]
  by_cases hi : i < w <;> by_cases hn : w - n ≤ i <;> simp [hi, hn] <;> omega

namespace Network

variable {w : Nat} {network : Network w} {ip ip' : BitVec w}

/-- Membership depends on the bits of the prefix alone. -/
theorem contains_congr (h : ∀ i, w - network.prefixlen ≤ i → ip.getLsbD i = ip'.getLsbD i) :
    network.contains ip = network.contains ip' := by
  have hmasked : ip &&& netmask w network.prefixlen = ip' &&& netmask w network.prefixlen := by
    apply BitVec.eq_of_getLsbD_eq
    intro i hi
    rw [BitVec.getLsbD_and, BitVec.getLsbD_and, getLsbD_netmask]
    by_cases hn : w - network.prefixlen ≤ i
    · rw [h i hn]
    · simp [hn]
  unfold contains
  rw [hmasked]

theorem contains_self (network : Network w) : network.contains network.networkAddress = true := by
  unfold contains
  rw [network.masked, beq_self_eq_true]

end Network

/-- Equal in the first `n` bits. -/
theorem getLsbD_of_extract {ip ip' : BitVec 128} {n : Nat}
    (h : ip.extractLsb' (128 - n) n = ip'.extractLsb' (128 - n) n) {i : Nat}
    (hi : 128 - n ≤ i) : ip.getLsbD i = ip'.getLsbD i := by
  by_cases hlarge : 128 ≤ i
  · rw [BitVec.getLsbD_of_ge _ _ hlarge, BitVec.getLsbD_of_ge _ _ hlarge]
  · have hbit := congrArg (fun bits => bits.getLsbD (i - (128 - n))) h
    simp only [BitVec.getLsbD_extractLsb'] at hbit
    rw [show 128 - n + (i - (128 - n)) = i by omega] at hbit
    simpa [show i - (128 - n) < n by omega] using hbit

namespace IpNetwork

/-- The network is the whole range that starts with these bits. -/
def isRange {n : Nat} (range : BitVec n) : IpNetwork → Bool
  | .v4 _ => false
  | .v6 network =>
      network.prefixlen == n && network.networkAddress.extractLsb' (128 - n) n == range

theorem contained_of_range {networks : List IpNetwork} {n : Nat} {range : BitVec n}
    (h : networks.any (isRange range) = true) {ip : BitVec 128}
    (hip : ip.extractLsb' (128 - n) n = range) (scopeId : Option (List Char)) :
    contained networks (.v6 ip scopeId) = true := by
  obtain ⟨network, hmem, hrange⟩ := List.any_eq_true.mp h
  refine List.any_eq_true.mpr ⟨network, hmem, ?_⟩
  cases network with
  | v4 network => contradiction
  | v6 network =>
      unfold isRange at hrange
      rw [Bool.and_eq_true, beq_iff_eq, beq_iff_eq] at hrange
      obtain ⟨rfl, hbits⟩ := hrange
      rw [IpNetwork.contains, ← network.contains_self]
      exact Network.contains_congr fun i hi => getLsbD_of_extract (hip.trans hbits.symm) hi

/-- Every IPv6 network of the list is decided by the first `n` bits. -/
def decidedBy (n : Nat) : IpNetwork → Bool
  | .v4 _ => true
  | .v6 network => network.prefixlen ≤ n

theorem contained_congr {networks : List IpNetwork} {n : Nat}
    (h : networks.all (decidedBy n) = true) {ip ip' : BitVec 128}
    (hip : ip.extractLsb' (128 - n) n = ip'.extractLsb' (128 - n) n)
    (scopeId scopeId' : Option (List Char)) :
    contained networks (.v6 ip scopeId) = contained networks (.v6 ip' scopeId') := by
  have hnetwork : ∀ network ∈ networks,
      network.contains (.v6 ip scopeId) = network.contains (.v6 ip' scopeId') := by
    intro network hmem
    have hdecided := List.all_eq_true.mp h network hmem
    cases network with
    | v4 network => rfl
    | v6 network =>
        have hle : network.prefixlen ≤ n := by simpa [decidedBy] using hdecided
        exact Network.contains_congr fun i hi => getLsbD_of_extract hip (by omega)
  unfold contained
  rw [Bool.eq_iff_iff, List.any_eq_true, List.any_eq_true]
  exact exists_congr fun network => and_congr_right fun hmem => by rw [hnetwork network hmem]

end IpNetwork

namespace Embedding

open Validators

variable {form : Embedding} {a : BitVec 32} {ip : BitVec 128}

/-- All ranges but that of the mapped addresses are refused as a whole. -/
theorem tunnel_range (hform : form ≠ .mapped) :
    tunnelNetworks.any (isRange form.range) = true := by
  cases form with
  | mapped => contradiction
  | nat64Local =>
      change tunnelNetworks.any (isRange 0x0064ff9b0001#48) = true
      decide +kernel
  | _ => decide +kernel

theorem Embeds.tunnel (h : Embeds form a ip) (hform : form ≠ .mapped)
    (scopeId : Option (List Char)) : contained tunnelNetworks (.v6 ip scopeId) = true :=
  contained_of_range (tunnel_range hform) h.range scopeId

theorem Embeds.ipv4Mapped (h : Embeds .mapped a ip) : IpAddress.ipv4Mapped ip = some (.v4 a) := by
  have hhigh : ip >>> 32 = 0xffff := by
    have hrange : ip.extractLsb' 32 (128 - 32) = 0xffff#96 := h.range
    rw [BitVec.ushiftRight_eq_extractLsb'_of_lt (by decide), hrange]
    rfl
  have hlow : ip.setWidth 32 = a := by
    rw [BitVec.setWidth_eq_extractLsb' (by decide)]
    exact h.carries
  unfold IpAddress.ipv4Mapped
  rw [if_pos hhigh, hlow]

/-- No tunnel network has a mapped address. -/
theorem Embeds.not_tunnel (h : Embeds .mapped a ip) (scopeId : Option (List Char)) :
    contained tunnelNetworks (.v6 ip scopeId) = false := by
  have hsame : ip.extractLsb' (128 - 96) 96 = (0xffff00000000#128).extractLsb' (128 - 96) 96 :=
    h.range.trans rfl
  rw [contained_congr (by decide +kernel) hsame scopeId none]
  decide +kernel

/-- Some network of the setting has the IPv6 address. -/
def Listed (setting : NetworksSetting) (ip : IpAddress) : Prop :=
  ∃ networks, blockedNetworks setting = .ok networks ∧ contained networks ip = true

theorem blockedAddress_true {setting : NetworksSetting} {ip : IpAddress} :
    blockedAddress setting ip = .ok true ↔ ip.isGlobal = false ∨ ip.isMulticast = true ∨
      contained tunnelNetworks ip = true ∨ Listed setting ip := by
  unfold blockedAddress Listed
  split
  next hrange =>
    refine iff_of_true rfl ?_
    rcases Bool.or_eq_true _ _ ▸ hrange with hglobal | hmulticast
    · exact .inl (by simpa using hglobal)
    · exact .inr (.inl hmulticast)
  next hrange =>
    rw [Bool.or_eq_true, not_or] at hrange
    split
    next htunnel => exact iff_of_true rfl (.inr (.inr (.inl htunnel)))
    next htunnel =>
      have hglobal : ip.isGlobal = true := by simpa using hrange.1
      cases blockedNetworks setting <;> simp [Except.map, hglobal, hrange.2, htunnel]

theorem tunnel_v4 (a : BitVec 32) : contained tunnelNetworks (.v4 a) = false := by
  have hv6 : tunnelNetworks.all (fun network => network matches .v6 _) = true := by decide +kernel
  refine List.any_eq_false.mpr fun network hmem => ?_
  have hnetwork := List.all_eq_true.mp hv6 network hmem
  cases network with
  | v4 network => contradiction
  | v6 network => exact Bool.false_ne_true

/-- What blocks an IPv4 address. -/
theorem isBlockedIp_v4 {setting : NetworksSetting} {addr : String}
    (h : IpAddress.parse addr.toList = some (.v4 a)) :
    isBlockedIp setting addr = .ok true ↔ (IpAddress.v4 a).isGlobal = false ∨
      (IpAddress.v4 a).isMulticast = true ∨ Listed setting (.v4 a) := by
  unfold isBlockedIp
  rw [h]
  dsimp only
  rw [blockedAddress_true, tunnel_v4]
  simp

/-- What blocks a mapped address: the rules for the IPv4 address, and the IPv6 networks. -/
theorem Embeds.isBlockedIp_mapped (h : Embeds .mapped a ip) {setting : NetworksSetting}
    {addr : String} {scopeId : Option (List Char)}
    (haddr : IpAddress.parse addr.toList = some (.v6 ip scopeId)) :
    isBlockedIp setting addr = .ok true ↔ (IpAddress.v4 a).isGlobal = false ∨
      (IpAddress.v4 a).isMulticast = true ∨ Listed setting (.v6 ip scopeId) := by
  have hglobal : (IpAddress.v6 ip scopeId).isGlobal = (IpAddress.v4 a).isGlobal := by
    simp only [IpAddress.isGlobal, h.ipv4Mapped]
  have hmulticast : (IpAddress.v6 ip scopeId).isMulticast = (IpAddress.v4 a).isMulticast := by
    simp only [IpAddress.isMulticast, h.ipv4Mapped]
  unfold isBlockedIp
  rw [haddr]
  dsimp only
  rw [blockedAddress_true, hglobal, hmulticast, h.not_tunnel scopeId]
  simp

/-- All other spellings are blocked, whatever they embed. -/
theorem Embeds.isBlockedIp_tunnel (h : Embeds form a ip) (hform : form ≠ .mapped)
    (setting : NetworksSetting) {addr : String} {scopeId : Option (List Char)}
    (haddr : IpAddress.parse addr.toList = some (.v6 ip scopeId)) :
    isBlockedIp setting addr = .ok true := by
  unfold isBlockedIp
  rw [haddr]
  exact blockedAddress_true.mpr (.inr (.inr (.inl (h.tunnel hform scopeId))))

/-- Blocking an IPv4 address blocks a spelling of it, unless the spelling is the mapped one, the
address is a public one and only an IPv4 network of the setting has it. -/
theorem embedded_blocked {setting : NetworksSetting} {addr embedding : String}
    {scopeId : Option (List Char)} (haddr : IpAddress.parse addr.toList = some (.v4 a))
    (hembedding : IpAddress.parse embedding.toList = some (.v6 ip scopeId))
    (hembeds : Embeds form a ip) :
    (isBlockedIp setting addr = .ok true → isBlockedIp setting embedding = .ok true) ↔
      form ≠ .mapped ∨ (IpAddress.v4 a).isGlobal = false ∨ (IpAddress.v4 a).isMulticast = true ∨
        ¬Listed setting (.v4 a) ∨ Listed setting (.v6 ip scopeId) := by
  by_cases hform : form = .mapped
  · subst hform
    rw [isBlockedIp_v4 haddr, hembeds.isBlockedIp_mapped hembedding]
    constructor
    · intro h
      by_cases hlisted : Listed setting (.v4 a)
      · rcases h (.inr (.inr hlisted)) with hglobal | hmulticast | hlisted'
        · exact .inr (.inl hglobal)
        · exact .inr (.inr (.inl hmulticast))
        · exact .inr (.inr (.inr (.inr hlisted')))
      · exact .inr (.inr (.inr (.inl hlisted)))
    · rintro (hform | hglobal | hmulticast | hunlisted | hlisted) hblocked
      · exact absurd rfl hform
      · exact .inl hglobal
      · exact .inr (.inl hmulticast)
      · exact hblocked.imp_right fun h => h.imp_right fun hlisted => absurd hlisted hunlisted
      · exact .inr (.inr hlisted)
  · exact iff_of_true (fun _ => hembeds.isBlockedIp_tunnel hform setting hembedding) (.inl hform)

section Scenario

def blockedSetting : NetworksSetting := .list ["1.1.1.0/24"]

theorem parse_blocked : IpAddress.parse "1.1.1.1".toList = some (.v4 0x01010101#32) := by
  decide +kernel

theorem isBlockedIp_blocked : isBlockedIp blockedSetting "1.1.1.1" = .ok true := by
  decide +kernel

/-- The 6to4 spelling of a blocked address. -/
theorem embedded_blocked_sixToFour :
    isBlockedIp blockedSetting "1.1.1.1" = .ok true ∧
      isBlockedIp blockedSetting "2002:101:101::1" = .ok true := by
  have hembedding : IpAddress.parse "2002:101:101::1".toList =
      some (.v6 0x20020101010100000000000000000001#128 none) := by decide +kernel
  have hembeds : Embeds .sixToFour 0x01010101#32 0x20020101010100000000000000000001#128 :=
    ⟨rfl, rfl⟩
  exact ⟨isBlockedIp_blocked,
    (embedded_blocked parse_blocked hembedding hembeds).mpr (.inl nofun) isBlockedIp_blocked⟩

/-- The mapped spelling gets past the network of the setting. -/
theorem embedded_mapped_passes :
    isBlockedIp blockedSetting "1.1.1.1" = .ok true ∧
      IpAddress.parse "1.1.1.1".toList = some (.v4 0x01010101#32) ∧
      IpAddress.parse "::ffff:1.1.1.1".toList =
        some (.v6 0x0000000000000000ffff01010101#128 none) ∧
      Embeds .mapped 0x01010101#32 0x0000000000000000ffff01010101#128 ∧
      isBlockedIp blockedSetting "::ffff:1.1.1.1" = .ok false := by
  refine ⟨isBlockedIp_blocked, parse_blocked, ?_, ⟨rfl, rfl⟩, ?_⟩ <;> decide +kernel

end Scenario

end Embedding

end NotifyRelay
