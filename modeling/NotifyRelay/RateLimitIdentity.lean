import NotifyRelay.AddressText
import NotifyRelay.EmbeddedAddresses
import NotifyRelay.ApiKeys

/-! `RateLimitMiddleware._derive` in `apps/core/middleware.py`: which bucket a request takes from,
and what a client behind trusted proxies can do about it. Texts are lists of characters. -/
namespace NotifyRelay

open Text KeySecurity

structure RateLimitSettings where
  numProxies : Int := 0
  authPerMin : Int := 10
  authBurst : Int := 10
  defaultPerMin : Int := 100
  defaultBurst : Int := 200

structure ClientRequest where
  path : List Char
  forwardedFor : Option (List Char)
  remoteAddr : Option (List Char)
  apiKey : Option String

structure Derived where
  identity : String
  ratePerMin : Int
  burst : Int
  deriving DecidableEq

/-- `raw.split("%", 1)[0]`. -/
def beforeZone (raw : List Char) : List Char := raw.takeWhile (· != '%')

def bucketText : IpAddress → Option (List Char)
  | .v4 ip => some (IpAddress.v4 ip).text
  | .v6 ip _ =>
      match IpAddress.ipv4Mapped ip with
      | some mapped => some mapped.text
      | none => (Network.ofAddress? false ip 64).map Network.v6Text

def bucketAddress (raw : List Char) : Option (List Char) :=
  (IpAddress.parse (beforeZone raw)).bind bucketText

def forwardedChain (forwarded : List Char) : List (List Char) :=
  ((forwarded.splitOn ',').map strip).filter (· ≠ [])

/-- What `_client_ip` takes from `X-Forwarded-For`, if it takes anything. -/
def forwardedBucket (settings : RateLimitSettings) (request : ClientRequest) :
    Option (List Char) :=
  if 0 < settings.numProxies then
    let chain := forwardedChain (request.forwardedFor.getD [])
    if settings.numProxies ≤ chain.length then
      -- `chain[-hops]`
      chain[chain.length - settings.numProxies.toNat]?.bind bucketAddress
    else none
  else none

def remoteBucket (request : ClientRequest) : List Char :=
  let remote := request.remoteAddr.getD []
  match (bucketAddress remote).filter (· ≠ []) with
  | some bucket => bucket
  | none => if remote = [] then "unknown".toList else remote

def clientIp (settings : RateLimitSettings) (request : ClientRequest) : List Char :=
  (forwardedBucket settings request).getD (remoteBucket request)

namespace RateLimitMiddleware

def authPaths : List (List Char) := ["/api/v1/auth/".toList, "/admin/login/".toList]

def derive (settings : RateLimitSettings) (hashing : KeyHashing) (keys : ApiKeyTable)
    (request : ClientRequest) : Except KeyError (Option Derived) :=
  let ip := String.ofList (clientIp settings request)
  if authPaths.any (·.isPrefixOf request.path) then
    .ok (some ⟨"auth-ip:" ++ ip, settings.authPerMin, settings.authBurst⟩)
  else if !"/api/v1/".toList.isPrefixOf request.path then .ok none
  else
    (resolveApiKey hashing keys (.arriving request.apiKey)).map fun (apiKey, _) =>
      match apiKey with
      | some key => some ⟨"key:" ++ Nat.repr key.id, key.rateLimitPerMin, key.burst⟩
      | none => some ⟨"ip:" ++ ip, settings.defaultPerMin, settings.defaultBurst⟩

end RateLimitMiddleware

/-- What the trusted proxies append: `a_1`, from the one the client talks to, and so on. An
entry has the blanks that follow its comma. -/
structure Hops where
  first : List Char
  rest : List (List Char)
  comma_free : ∀ entry ∈ first :: rest, ',' ∉ entry
  not_blank : ∀ entry ∈ first :: rest, strip entry ≠ []

namespace Hops

def count (hops : Hops) : Nat := hops.rest.length + 1

def header (hops : Hops) (client : Option (List Char)) : List Char :=
  [','].intercalate (client.toList ++ hops.first :: hops.rest)

def address (hops : Hops) : Option IpAddress := IpAddress.parse (beforeZone (strip hops.first))

end Hops

structure ProxiedRequest where
  path : List Char
  remoteAddr : Option (List Char)
  client : Option (List Char)
  hops : Hops
  apiKey : Option String

def ProxiedRequest.request (proxied : ProxiedRequest) : ClientRequest :=
  ⟨proxied.path, some (proxied.hops.header proxied.client), proxied.remoteAddr, proxied.apiKey⟩

def Unverified (hashing : KeyHashing) (keys : ApiKeyTable) (apiKey : Option String) : Prop :=
  ∃ memo, resolveApiKey hashing keys (.arriving apiKey) = .ok (none, memo)

/-- What a bucket is for: one IPv4 address, or the /64 an IPv6 host owns. -/
inductive Client where
  | v4 (ip : BitVec 32)
  | v6 (block : BitVec 64)
  deriving DecidableEq

namespace IpAddress

/-- Without a zone id, and an IPv4-mapped address as the IPv4 address in it. -/
def folded : IpAddress → IpAddress
  | .v4 ip => .v4 ip
  | .v6 ip _ => (ipv4Mapped ip).getD (.v6 ip none)

def client (ip : IpAddress) : Client :=
  match ip.folded with
  | .v4 ip => .v4 ip
  | .v6 ip _ => .v6 (ip.extractLsb' 64 64)

end IpAddress

/-- What follows the first colon of an identity. -/
def Derived.addressPart (derived : Derived) : List Char :=
  (derived.identity.toList.dropWhile (· != ':')).tail

section Addresses

theorem masked_eq_iff (a b : BitVec 128) :
    a &&& netmask 128 64 = b &&& netmask 128 64 ↔ a.extractLsb' 64 64 = b.extractLsb' 64 64 := by
  constructor
  · intro h
    apply BitVec.eq_of_getLsbD_eq
    intro i hi
    have hbit := congrArg (fun ip => ip.getLsbD (64 + i)) h
    simp only [BitVec.getLsbD_and, getLsbD_netmask] at hbit
    simpa [hi, show 64 + i < 128 by omega] using hbit
  · intro h
    apply BitVec.eq_of_getLsbD_eq
    intro i hi
    rw [BitVec.getLsbD_and, BitVec.getLsbD_and, getLsbD_netmask]
    by_cases hn : 64 ≤ i
    · rw [getLsbD_of_extract (n := 64) h hn]
    · simp [hn]

theorem bucketText_cases (ip : IpAddress) :
    (∃ a, ip.client = .v4 a ∧ bucketText ip = some (IpAddress.v4Text a)) ∨
      ∃ (a : BitVec 128) (network : Network 128), ip.client = .v6 (a.extractLsb' 64 64) ∧
        network.networkAddress = a &&& netmask 128 64 ∧ network.prefixlen = 64 ∧
        bucketText ip = some network.v6Text := by
  cases ip with
  | v4 ip => exact .inl ⟨ip, rfl, rfl⟩
  | v6 ip scopeId =>
      unfold bucketText IpAddress.client IpAddress.folded
      dsimp only
      cases hmapped : IpAddress.ipv4Mapped ip with
      | none => exact .inr ⟨ip, ⟨ip &&& netmask 128 64, 64, _⟩, rfl, rfl, rfl, rfl⟩
      | some mapped =>
          unfold IpAddress.ipv4Mapped at hmapped
          split at hmapped
          next =>
            cases hmapped
            exact .inl ⟨_, rfl, rfl⟩
          next => contradiction

theorem bucketText_eq_iff (a b : IpAddress) :
    bucketText a = bucketText b ↔ a.client = b.client := by
  rcases bucketText_cases a with ⟨x, hx, htext⟩ | ⟨x, network, hx, haddress, hlen, htext⟩ <;>
    rcases bucketText_cases b with ⟨y, hy, htext'⟩ | ⟨y, network', hy, haddress', hlen', htext'⟩ <;>
    rw [hx, hy, htext, htext', Option.some_inj]
  · rw [Client.v4.injEq, IpAddress.v4Text_injective.eq_iff]
  · simp [IpAddress.v4Text_ne_v6Text]
  · simp [(IpAddress.v4Text_ne_v6Text _ _).symm]
  · rw [Client.v6.injEq, ← masked_eq_iff, ← haddress, ← haddress']
    refine ⟨Network.v6Text_inj (hlen.trans hlen'.symm), fun h => ?_⟩
    rw [Network.v6Text, Network.v6Text, h, hlen, hlen']

theorem bucketText_isSome (ip : IpAddress) : (bucketText ip).isSome = true := by
  rcases bucketText_cases ip with ⟨_, -, htext⟩ | ⟨_, _, -, -, -, htext⟩ <;>
    rw [htext, Option.isSome_some]

end Addresses

section Headers

variable (hops : Hops) (client : Option (List Char))

/-- The proxies' entries end the chain, whatever the client put before them. -/
theorem forwardedChain_header :
    ∃ spoofed, forwardedChain (hops.header client) =
      spoofed ++ (hops.first :: hops.rest).map strip := by
  have hsplit : ([','].intercalate (hops.first :: hops.rest)).splitOn ',' =
      hops.first :: hops.rest :=
    List.splitOn_intercalate ',' hops.comma_free (List.cons_ne_nil _ _)
  have hkept : ((hops.first :: hops.rest).map strip).filter (· ≠ []) =
      (hops.first :: hops.rest).map strip := by
    rw [List.filter_eq_self]
    intro text htext
    obtain ⟨entry, hentry, rfl⟩ := List.mem_map.mp htext
    exact decide_eq_true (hops.not_blank entry hentry)
  unfold forwardedChain Hops.header
  cases client with
  | none =>
      refine ⟨[], ?_⟩
      rw [Option.toList_none, List.nil_append, hsplit, hkept, List.nil_append]
  | some sent =>
      refine ⟨((sent.splitOn ',').map strip).filter (· ≠ []), ?_⟩
      rw [Option.toList_some, List.singleton_append, List.intercalate_cons_cons, List.append_assoc,
        List.singleton_append, List.splitOn_append_cons_self, hsplit, List.map_append,
        List.filter_append, hkept]

variable {settings : RateLimitSettings} {proxied : ProxiedRequest}

theorem forwardedBucket_request (h : settings.numProxies = proxied.hops.count) :
    forwardedBucket settings proxied.request = proxied.hops.address.bind bucketText := by
  obtain ⟨spoofed, hchain⟩ := forwardedChain_header proxied.hops proxied.client
  have hlength : (forwardedChain (proxied.hops.header proxied.client)).length =
      spoofed.length + proxied.hops.count := by
    rw [hchain, List.length_append, List.length_map, List.length_cons, Hops.count]
  unfold forwardedBucket
  rw [if_pos (by rw [h, Hops.count]; omega)]
  dsimp only [ProxiedRequest.request, Option.getD_some]
  rw [hlength, if_pos (by omega), h, Int.toNat_natCast, Nat.add_sub_cancel, hchain,
    List.getElem?_append_right le_rfl, Nat.sub_self]
  rfl

end Headers

section Derive

variable {settings : RateLimitSettings} {hashing : KeyHashing} {keys : ApiKeyTable}

open RateLimitMiddleware

/-- Without a key only the path and the client's address count. -/
theorem derive_congr {a b : ClientRequest} (hpath : a.path = b.path)
    (ha : Unverified hashing keys a.apiKey) (hb : Unverified hashing keys b.apiKey)
    (hip : clientIp settings a = clientIp settings b) :
    derive settings hashing keys a = derive settings hashing keys b := by
  obtain ⟨_, ha⟩ := ha
  obtain ⟨_, hb⟩ := hb
  unfold derive
  rw [ha, hb, hip, hpath]
  rfl

theorem derive_addressPart {request : ClientRequest} {derived : Derived}
    (h : derive settings hashing keys request = .ok (some derived))
    (hkey : Unverified hashing keys request.apiKey) :
    derived.addressPart = clientIp settings request := by
  obtain ⟨_, hkey⟩ := hkey
  unfold derive at h
  dsimp only at h
  split at h
  next =>
    cases h
    simp [Derived.addressPart]
  next =>
    split at h
    next => cases h
    next =>
      rw [hkey] at h
      cases h
      simp [Derived.addressPart]

theorem remoteBucket_congr {a b : ClientRequest} (h : a.remoteAddr = b.remoteAddr) :
    remoteBucket a = remoteBucket b := by
  unfold remoteBucket
  rw [h]

theorem clientIp_request {proxied : ProxiedRequest} (h : settings.numProxies = proxied.hops.count) :
    clientIp settings proxied.request =
      (proxied.hops.address.bind bucketText).getD (remoteBucket proxied.request) := by
  rw [clientIp, forwardedBucket_request h]

theorem clientIp_of_address {proxied : ProxiedRequest} {ip : IpAddress}
    (h : settings.numProxies = proxied.hops.count) (hip : proxied.hops.address = some ip) :
    bucketText ip = some (clientIp settings proxied.request) := by
  rw [clientIp_request h, hip, Option.bind_some]
  obtain ⟨text, htext⟩ := Option.isSome_iff_exists.mp (bucketText_isSome ip)
  rw [htext, Option.getD_some]

theorem clientIp_of_no_address {proxied : ProxiedRequest}
    (h : settings.numProxies = proxied.hops.count) (hip : proxied.hops.address = none) :
    clientIp settings proxied.request =
      clientIp settings { proxied.request with forwardedFor := none } := by
  have hpos : 0 < settings.numProxies := by
    rw [h, Hops.count]
    omega
  have hnone : forwardedBucket settings { proxied.request with forwardedFor := none } = none := by
    unfold forwardedBucket
    rw [if_pos hpos]
    exact if_neg (not_le.mpr hpos)
  rw [clientIp_request h, hip, clientIp, hnone]
  rfl

/-- Behind as many proxies as configured, a client without a key that verifies has no say in its
bucket. It is that of the IPv4 address or the /64 in the first proxy's entry, or that of the
remote address if there is none. -/
theorem bucket_not_chosen (a b : ProxiedRequest) (ha : settings.numProxies = a.hops.count)
    (hb : settings.numProxies = b.hops.count) (hakey : Unverified hashing keys a.apiKey)
    (hbkey : Unverified hashing keys b.apiKey) :
    (a.path = b.path → a.remoteAddr = b.remoteAddr → a.hops = b.hops →
      derive settings hashing keys a.request = derive settings hashing keys b.request) ∧
    (∀ ip ip', a.hops.address = some ip → b.hops.address = some ip' →
      ∀ derived derived', derive settings hashing keys a.request = .ok (some derived) →
        derive settings hashing keys b.request = .ok (some derived') →
          (derived.addressPart = derived'.addressPart ↔ ip.client = ip'.client)) ∧
    (a.hops.address = none →
      derive settings hashing keys a.request =
        derive settings hashing keys { a.request with forwardedFor := none }) := by
  refine ⟨fun hpath hremote hhops => ?_, ?_, fun hnone => ?_⟩
  · refine derive_congr hpath hakey hbkey ?_
    rw [clientIp_request ha, clientIp_request hb, hhops,
      remoteBucket_congr (a := a.request) (b := b.request) hremote]
  · intro ip ip' hip hip' derived derived' hderived hderived'
    rw [derive_addressPart hderived hakey, derive_addressPart hderived' hbkey, ← Option.some_inj,
      ← clientIp_of_address ha hip, ← clientIp_of_address hb hip', bucketText_eq_iff]
  · exact derive_congr (a := a.request) (b := { a.request with forwardedFor := none }) rfl hakey
      hakey (clientIp_of_no_address ha hnone)

end Derive

section Scenario

open RateLimitMiddleware

def behindOneProxy : RateLimitSettings := { numProxies := 1 }

def plainHashing : KeyHashing := ⟨"pepper", fun _ _ => ""⟩

def noKeys : ApiKeyTable := Table.empty

def login (client : String) (entry : List Char) (hcomma : ',' ∉ entry)
    (hblank : strip entry ≠ []) : ProxiedRequest where
  path := "/api/v1/auth/token/".toList
  remoteAddr := some "192.0.2.1".toList
  client := some client.toList
  hops :=
    { first := entry
      rest := []
      comma_free := List.forall_mem_singleton.mpr hcomma
      not_blank := List.forall_mem_singleton.mpr hblank }
  apiKey := some "nr_guess"

theorem bucket_not_chosen_one_host :
    ∃ a b : ProxiedRequest, ∃ derived derived', a.client ≠ b.client ∧
      derive behindOneProxy plainHashing noKeys a.request = .ok (some derived) ∧
      derive behindOneProxy plainHashing noKeys b.request = .ok (some derived') ∧
      derived.addressPart = derived'.addressPart := by
  have hkey : Unverified plainHashing noKeys (some "nr_guess") := ⟨_, rfl⟩
  let a := login "198.51.100.1" " 2001:db8:1:2::1".toList (by decide) (by decide)
  let b := login "a,, b" " 2001:db8:1:2:ffff::9%eth0".toList (by decide) (by decide)
  let derived : Derived := ⟨"auth-ip:2001:db8:1:2::/64", 10, 10⟩
  have hderived : derive behindOneProxy plainHashing noKeys a.request = .ok (some derived) := by
    decide +kernel
  have hderived' : derive behindOneProxy plainHashing noKeys b.request = .ok (some derived) := by
    decide +kernel
  have hip : a.hops.address = some (.v6 0x20010db8000100020000000000000001 none) := by
    decide +kernel
  have hip' : b.hops.address = some (.v6 0x20010db800010002ffff000000000009 none) := by
    decide +kernel
  refine ⟨a, b, derived, derived, by decide, hderived, hderived', ?_⟩
  exact ((bucket_not_chosen a b rfl rfl hkey hkey).2.1 _ _ hip hip' _ _ hderived hderived').mpr
    (by decide)

def loginRequest (forwarded : Option String) : ClientRequest :=
  ⟨"/api/v1/auth/token/".toList, forwarded.map String.toList, some "192.0.2.1".toList, none⟩

theorem bucket_chosen :
    derive behindOneProxy plainHashing noKeys (loginRequest (some "198.51.100.1,\u00a0")) ≠
      derive behindOneProxy plainHashing noKeys (loginRequest (some "198.51.100.2,\u00a0")) ∧
    IpAddress.parse "198.51.100.7%x".toList = none ∧
    derive behindOneProxy plainHashing noKeys (loginRequest (some "198.51.100.7%x")) ≠
      derive behindOneProxy plainHashing noKeys (loginRequest none) := by
  decide +kernel

end Scenario

end NotifyRelay
