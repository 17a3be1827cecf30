import NotifyRelay.IpAddress
import Mathlib.Data.List.Induction
import Mathlib.Logic.Function.Basic
import Mathlib.Tactic.Ring

/-! The texts `str` gives addresses and networks of `ipaddress`. No two addresses of one
version have the same text, and no two networks of one size. -/
namespace NotifyRelay

namespace Text

theorem digitValue_digitChar {n : Nat} (h : n < 16) : digitValue n.digitChar = n := by
  have hall : ∀ i : Fin 16, digitValue i.val.digitChar = i.val := by decide
  exact hall ⟨n, h⟩

theorem toInt_append_singleton (base : Nat) (text : List Char) (c : Char) :
    toInt base (text ++ [c]) = toInt base text * base + digitValue c := by
  simp [toInt]

/-- `int(text, 16)` reads back what `%x` writes. -/
theorem toInt_toDigits (n : Nat) : toInt 16 (Nat.toDigits 16 n) = n := by
  induction n using Nat.strongRecOn with
  | ind n ih =>
      by_cases hn : n < 16
      · rw [Nat.toDigits_of_lt_base hn]
        simpa [toInt] using digitValue_digitChar hn
      · have hdigit := digitValue_digitChar (Nat.mod_lt n (by decide : 16 > 0))
        rw [Nat.toDigits_of_base_le (by decide) (by omega), toInt_append_singleton,
          ih (n / 16) (by omega), hdigit]
        omega

theorem hexDigits_injective : Function.Injective (Nat.toDigits 16) :=
  Function.LeftInverse.injective toInt_toDigits

theorem digitChar_ne {n : Nat} (h : n < 16) : n.digitChar ≠ ':' ∧ n.digitChar ≠ '/' := by
  have hall : ∀ i : Fin 16, i.val.digitChar ≠ ':' ∧ i.val.digitChar ≠ '/' := by decide
  exact hall ⟨n, h⟩

theorem not_mem_hexDigits (n : Nat) : ':' ∉ Nat.toDigits 16 n ∧ '/' ∉ Nat.toDigits 16 n := by
  induction n using Nat.strongRecOn with
  | ind n ih =>
      by_cases hn : n < 16
      · obtain ⟨hcolon, hslash⟩ := digitChar_ne hn
        rw [Nat.toDigits_of_lt_base hn]
        simp [hcolon.symm, hslash.symm]
      · obtain ⟨hcolon, hslash⟩ := digitChar_ne (Nat.mod_lt n (by decide : 16 > 0))
        rw [Nat.toDigits_of_base_le (by decide) (by omega)]
        simp [ih (n / 16) (by omega), hcolon.symm, hslash.symm]

end Text

/-- A number's digits in a base, the most significant first: `to_bytes` and the slices of
`%032x`. -/
def bigEndian (base : Nat) : Nat → Nat → List Nat
  | 0, _ => []
  | n + 1, value => bigEndian base n (value / base) ++ [value % base]

@[simp] theorem length_bigEndian (base n value : Nat) : (bigEndian base n value).length = n := by
  induction n generalizing value with
  | zero => rfl
  | succ n ih => simp [bigEndian, ih]

/-- The fold with which the parser puts the digits together again. -/
theorem foldl_bigEndian {base n value : Nat} (h : value < base ^ n) :
    (bigEndian base n value).foldl (fun total digit => total * base + digit) 0 = value := by
  induction n generalizing value with
  | zero => simpa [bigEndian, eq_comm] using h
  | succ n ih =>
      have hhigh : value / base < base ^ n := by
        rw [pow_succ, Nat.mul_comm] at h
        exact Nat.div_lt_of_lt_mul h
      rw [bigEndian, List.foldl_append, ih hhigh]
      exact Nat.div_add_mod' value base

theorem bigEndian_injective {w n base : Nat} (h : 2 ^ w = base ^ n) :
    Function.Injective fun ip : BitVec w => bigEndian base n ip.toNat := by
  intro a b hab
  apply BitVec.eq_of_toNat_eq
  calc a.toNat = (bigEndian base n a.toNat).foldl (fun total digit => total * base + digit) 0 :=
        (foldl_bigEndian (h ▸ a.isLt)).symm
    _ = (bigEndian base n b.toNat).foldl (fun total digit => total * base + digit) 0 :=
        congrArg (List.foldl _ 0) hab
    _ = b.toNat := foldl_bigEndian (h ▸ b.isLt)

/-- A run of zero hextets. -/
structure ZeroRun where
  start : Nat
  length : Nat

/-- The longest run so far and the one that still goes on, as `_compress_hextets` counts. -/
structure ZeroScan where
  best : Option ZeroRun
  current : Option ZeroRun

namespace ZeroScan

/-- The run that one more zero makes. -/
def extended (scan : ZeroScan) (index : Nat) : ZeroRun :=
  match scan.current with
  | none => ⟨index, 1⟩
  | some run => ⟨run.start, run.length + 1⟩

def step (scan : ZeroScan) (index : Nat) (hextet : List Char) : ZeroScan :=
  if hextet = ['0'] then
    let run := scan.extended index
    if (scan.best.map ZeroRun.length).getD 0 < run.length then ⟨some run, some run⟩
    else ⟨scan.best, some run⟩
  else ⟨scan.best, none⟩

def run (hextets : List (List Char)) : ZeroScan :=
  hextets.zipIdx.foldl (fun scan entry => scan.step entry.2 entry.1) ⟨none, none⟩

end ZeroScan

/-- `_BaseV6._compress_hextets`. -/
def compressHextets (hextets : List (List Char)) : List (List Char) :=
  match (ZeroScan.run hextets).best with
  | none => hextets
  | some best =>
      if 1 < best.length then
        let stop := best.start + best.length
        -- for zeros at the end, then for zeros at the beginning of the address
        let padded := if stop = hextets.length then hextets ++ [[]] else hextets
        let spliced := padded.take best.start ++ [] :: padded.drop stop
        if best.start = 0 then [] :: spliced else spliced
      else hextets

namespace IpAddress

def octets (ip : BitVec 32) : List (List Char) :=
  (bigEndian 256 4 ip.toNat).map (Nat.toDigits 10)

/-- `_BaseV4._string_from_ip_int`. -/
def v4Text (ip : BitVec 32) : List Char := ['.'].intercalate (octets ip)

def words (ip : BitVec 128) : List (List Char) :=
  (bigEndian 65536 8 ip.toNat).map (Nat.toDigits 16)

/-- `_BaseV6._string_from_ip_int`. -/
def v6Text (ip : BitVec 128) : List Char := [':'].intercalate (compressHextets (words ip))

/-- `str(ip)`. -/
def text : IpAddress → List Char
  | .v4 ip => v4Text ip
  | .v6 ip scopeId =>
      match scopeId with
      | some (c :: scopeId) => v6Text ip ++ '%' :: c :: scopeId
      | _ => v6Text ip

end IpAddress

/-- `str(IPv6Network)`. -/
def Network.v6Text (network : Network 128) : List Char :=
  IpAddress.v6Text network.networkAddress ++ '/' :: Nat.toDigits 10 network.prefixlen

/-- `run` are consecutive zeros among these hextets. -/
def ZeroRun.Within (run : ZeroRun) (hextets : List (List Char)) : Prop :=
  ∃ before after, before.length = run.start ∧
    hextets = before ++ List.replicate run.length ['0'] ++ after

/-- `run` are the last of these hextets. -/
def ZeroRun.AtEnd (run : ZeroRun) (hextets : List (List Char)) : Prop :=
  ∃ before, before.length = run.start ∧ hextets = before ++ List.replicate run.length ['0']

structure ZeroScan.Sound (scan : ZeroScan) (hextets : List (List Char)) : Prop where
  best : ∀ run ∈ scan.best, run.Within hextets
  current : ∀ run ∈ scan.current, run.AtEnd hextets

theorem ZeroRun.AtEnd.within {run : ZeroRun} {hextets : List (List Char)}
    (h : run.AtEnd hextets) : run.Within hextets := by
  obtain ⟨before, hstart, rfl⟩ := h
  exact ⟨before, [], hstart, (List.append_nil _).symm⟩

theorem ZeroRun.Within.concat {run : ZeroRun} {hextets : List (List Char)}
    (h : run.Within hextets) (hextet : List Char) : run.Within (hextets ++ [hextet]) := by
  obtain ⟨before, after, hstart, rfl⟩ := h
  exact ⟨before, after ++ [hextet], hstart, List.append_assoc _ _ _⟩

namespace ZeroScan

variable {scan : ZeroScan} {hextets : List (List Char)}

theorem Sound.extended (h : scan.Sound hextets) :
    (scan.extended hextets.length).AtEnd (hextets ++ [['0']]) := by
  unfold ZeroScan.extended
  split
  next => exact ⟨hextets, rfl, rfl⟩
  next run hrun =>
    obtain ⟨before, hstart, hextets_eq⟩ := h.current run hrun
    refine ⟨before, hstart, ?_⟩
    rw [hextets_eq, List.replicate_succ', List.append_assoc]

theorem Sound.step (h : scan.Sound hextets) (hextet : List Char) :
    (scan.step hextets.length hextet).Sound (hextets ++ [hextet]) := by
  have hbest : ∀ run ∈ scan.best, run.Within (hextets ++ [hextet]) := fun run hrun =>
    (h.best run hrun).concat hextet
  unfold ZeroScan.step
  split
  next hzero =>
    subst hzero
    dsimp only
    split
    · refine ⟨?_, ?_⟩
      · rintro _ ⟨⟩
        exact h.extended.within
      · rintro _ ⟨⟩
        exact h.extended
    · refine ⟨hbest, ?_⟩
      rintro _ ⟨⟩
      exact h.extended
  next =>
    refine ⟨hbest, ?_⟩
    rintro _ ⟨⟩

theorem run_sound (hextets : List (List Char)) : (run hextets).Sound hextets := by
  induction hextets using List.reverseRecOn with
  | nil =>
      constructor
      · rintro _ ⟨⟩
      · rintro _ ⟨⟩
  | append_singleton hextets hextet ih =>
      unfold run
      rw [List.zipIdx_append, List.foldl_append, Nat.zero_add]
      exact ih.step hextet

end ZeroScan

/-- Either nothing goes, or a run of zeros gives way to `::`. -/
theorem compressHextets_cases (hextets : List (List Char)) :
    compressHextets hextets = hextets ∨
      ∃ before after n, hextets = before ++ List.replicate n ['0'] ++ after ∧
        compressHextets hextets =
          (if before = [] then [[]] else []) ++ before ++ [] :: after ++
            (if after = [] then [[]] else []) := by
  unfold compressHextets
  split
  next => exact .inl rfl
  next best hbest =>
    split
    next =>
      obtain ⟨before, after, hstart, hextets_eq⟩ :=
        (ZeroScan.run_sound hextets).best best hbest
      refine .inr ⟨before, after, best.length, hextets_eq, ?_⟩
      have hlength : (before ++ List.replicate best.length ['0']).length =
          best.start + best.length := by simp [hstart]
      have hstop : best.start + best.length = hextets.length ↔ after = [] := by
        rw [hextets_eq, List.length_append, hlength, left_eq_add, List.length_eq_zero_iff]
      have hhead : best.start = 0 ↔ before = [] := by rw [← hstart, List.length_eq_zero_iff]
      simp only [hstop, hhead]
      have hspliced : ∀ rest, (hextets ++ rest).take best.start ++
          [] :: (hextets ++ rest).drop (best.start + best.length) =
            before ++ [] :: (after ++ rest) := by
        intro rest
        rw [hextets_eq, ← hlength, List.append_assoc _ after, List.drop_left, List.append_assoc,
          ← hstart, List.take_left]
      have hpadded : (if after = [] then hextets ++ [[]] else hextets) =
          hextets ++ if after = [] then [[]] else [] := by
        split
        next => rfl
        next => rw [List.append_nil]
      rw [hpadded, hspliced]
      split
      next => simp
      next => simp
    next => exact .inl rfl

/-- What stands before the first and after the last empty text, with zeros in between. -/
def expandHextets (n : Nat) (hextets : List (List Char)) : List (List Char) :=
  if [] ∈ hextets then
    let before := hextets.takeWhile (· ≠ [])
    let after := (hextets.reverse.takeWhile (· ≠ [])).reverse
    before ++ List.replicate (n - before.length - after.length) ['0'] ++ after
  else hextets

theorem takeWhile_nonempty {hextets : List (List Char)} (h : ∀ hextet ∈ hextets, hextet ≠ [])
    (rest : List (List Char)) :
    (hextets ++ [] :: rest).takeWhile (· ≠ []) = hextets := by
  rw [List.takeWhile_append_of_pos (by simpa using h)]
  simp

theorem expandHextets_compressHextets {hextets : List (List Char)}
    (h : ∀ hextet ∈ hextets, hextet ≠ []) :
    expandHextets hextets.length (compressHextets hextets) = hextets := by
  rcases compressHextets_cases hextets with hsame | ⟨before, after, n, hextets_eq, hcompress⟩
  · rw [hsame, expandHextets, if_neg fun hmem => h [] hmem rfl]
  · have hbefore : ∀ hextet ∈ before, hextet ≠ [] := fun hextet hmem =>
      h hextet (by rw [hextets_eq]; simp [hmem])
    have hafter : ∀ hextet ∈ after.reverse, hextet ≠ [] := fun hextet hmem =>
      h hextet (by rw [hextets_eq]; simp [List.mem_reverse.mp hmem])
    have hleft : (compressHextets hextets).takeWhile (· ≠ []) = before := by
      rw [hcompress]
      by_cases hempty : before = []
      · simp [hempty]
      · rw [if_neg hempty, List.nil_append, List.append_assoc, List.cons_append,
          takeWhile_nonempty hbefore]
    have hright : (compressHextets hextets).reverse.takeWhile (· ≠ []) = after.reverse := by
      rw [hcompress]
      by_cases hempty : after = []
      · simp [hempty]
      · rw [if_neg hempty, List.append_nil, List.reverse_append, List.reverse_cons,
          List.append_assoc, List.singleton_append, takeWhile_nonempty hafter]
    have hmem : [] ∈ compressHextets hextets := by
      rw [hcompress]
      simp
    have hlength : hextets.length = before.length + n + after.length := by
      rw [hextets_eq]
      simp only [List.length_append, List.length_replicate]
    have hcount : hextets.length - before.length - after.length = n := by omega
    unfold expandHextets
    rw [if_pos hmem]
    dsimp only
    rw [hleft, hright, List.reverse_reverse, hcount, ← hextets_eq]

theorem mem_compressHextets {hextets : List (List Char)} {hextet : List Char}
    (h : hextet ∈ compressHextets hextets) : hextet = [] ∨ hextet ∈ hextets := by
  rcases compressHextets_cases hextets with hsame | ⟨before, after, n, hextets_eq, hcompress⟩
  · exact .inr (hsame ▸ h)
  · rw [hcompress] at h
    rw [hextets_eq]
    by_cases hbefore : before = [] <;> by_cases hafter : after = [] <;>
      simp [hbefore, hafter] at h ⊢ <;> tauto

theorem compressHextets_ne_nil {hextets : List (List Char)} (h : hextets ≠ []) :
    compressHextets hextets ≠ [] := by
  rcases compressHextets_cases hextets with hsame | ⟨before, after, n, -, hcompress⟩
  · rwa [hsame]
  · rw [hcompress]
    simp

namespace Text

theorem mem_intercalate {separator c : Char} {texts : List (List Char)}
    (h : c ∈ [separator].intercalate texts) : c = separator ∨ ∃ text ∈ texts, c ∈ text := by
  induction texts with
  | nil => contradiction
  | cons text texts ih =>
      cases texts with
      | nil => exact .inr ⟨text, List.mem_singleton_self _, by simpa using h⟩
      | cons next texts =>
          rw [List.intercalate_cons_cons, List.mem_append, List.mem_append] at h
          rcases h with (h | h) | h
          · exact .inr ⟨text, List.mem_cons_self, h⟩
          · exact .inl (List.mem_singleton.mp h)
          · refine (ih h).imp_right ?_
            rintro ⟨found, hfound, hc⟩
            exact ⟨found, List.mem_cons_of_mem _ hfound, hc⟩

theorem intercalate_inj {separator : Char} {xs ys : List (List Char)}
    (hxs : ∀ x ∈ xs, separator ∉ x) (hys : ∀ y ∈ ys, separator ∉ y) (hxs_ne : xs ≠ [])
    (hys_ne : ys ≠ []) (h : [separator].intercalate xs = [separator].intercalate ys) :
    xs = ys := by
  rw [← List.splitOn_intercalate separator hxs hxs_ne, h,
    List.splitOn_intercalate separator hys hys_ne]

end Text

namespace IpAddress

theorem not_mem_octets {ip : BitVec 32} {octet : List Char} (h : octet ∈ octets ip) {c : Char}
    (hc : c.isDigit = false) : c ∉ octet := by
  obtain ⟨n, -, rfl⟩ := List.mem_map.mp h
  intro hmem
  rw [Nat.isDigit_of_mem_toDigits (by decide) (by decide) hmem] at hc
  contradiction

theorem octets_ne_nil (ip : BitVec 32) : octets ip ≠ [] := by simp [octets, bigEndian]

theorem v4Text_injective : Function.Injective v4Text := by
  intro a b h
  have hoctets : octets a = octets b :=
    Text.intercalate_inj (fun _ h => not_mem_octets h rfl) (fun _ h => not_mem_octets h rfl)
      (octets_ne_nil a) (octets_ne_nil b) h
  exact bigEndian_injective (by decide)
    (List.map_injective_iff.mpr Text.digits_injective hoctets)

theorem not_mem_v4Text (ip : BitVec 32) : '/' ∉ v4Text ip := by
  intro hmem
  rcases Text.mem_intercalate hmem with hdot | ⟨octet, hoctet, hslash⟩
  · contradiction
  · exact not_mem_octets hoctet rfl hslash

theorem not_mem_words {ip : BitVec 128} {word : List Char} (h : word ∈ words ip) :
    word ≠ [] ∧ ':' ∉ word := by
  obtain ⟨n, -, rfl⟩ := List.mem_map.mp h
  exact ⟨Nat.toDigits_ne_nil, (Text.not_mem_hexDigits n).1⟩

theorem words_ne_nil (ip : BitVec 128) : words ip ≠ [] := by simp [words, bigEndian]

theorem not_mem_compressHextets_words {ip : BitVec 128} {word : List Char}
    (h : word ∈ compressHextets (words ip)) : ':' ∉ word := by
  rcases mem_compressHextets h with rfl | hmem
  · exact List.not_mem_nil
  · exact (not_mem_words hmem).2

theorem v6Text_injective : Function.Injective v6Text := by
  intro a b h
  have hcompressed : compressHextets (words a) = compressHextets (words b) :=
    Text.intercalate_inj (fun _ => not_mem_compressHextets_words)
      (fun _ => not_mem_compressHextets_words) (compressHextets_ne_nil (words_ne_nil a))
      (compressHextets_ne_nil (words_ne_nil b)) h
  have hlength : (words a).length = (words b).length := by simp [words]
  have hwords : words a = words b := by
    have hback : ∀ ip, expandHextets (words ip).length (compressHextets (words ip)) = words ip :=
      fun ip => expandHextets_compressHextets fun _ h => (not_mem_words h).1
    rw [← hback a, hcompressed, hlength, hback]
  exact bigEndian_injective (by decide)
    (List.map_injective_iff.mpr Text.hexDigits_injective hwords)

end IpAddress

theorem Network.v6Text_inj {a b : Network 128} (hlen : a.prefixlen = b.prefixlen)
    (h : a.v6Text = b.v6Text) : a.networkAddress = b.networkAddress := by
  unfold v6Text at h
  rw [hlen] at h
  exact IpAddress.v6Text_injective (List.append_cancel_right h)

/-- An IPv4 address and a network are never the same text. -/
theorem IpAddress.v4Text_ne_v6Text (ip : BitVec 32) (network : Network 128) :
    v4Text ip ≠ network.v6Text := by
  intro h
  apply not_mem_v4Text ip
  rw [h, Network.v6Text]
  simp

end NotifyRelay
