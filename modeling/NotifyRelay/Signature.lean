import NotifyRelay.Authentication
import NotifyRelay.Webhook
import Mathlib.Logic.Function.Basic

/-! `verify_signature`, the reference for receivers, and what a signature binds. The text that
is signed has a separator that the body may hold too, and the verifier takes any timestamp. -/
namespace NotifyRelay

namespace Security

open KeySecurity

/-- The exceptions that leave `verify_signature`. -/
inductive SignatureError where
  | unicodeEncodeError
  | compareDigest (error : KeyError)

/-- `verify_signature`. -/
def verifySignature (hexdigest : ByteArray → ByteArray → String) (body : ByteArray)
    (secret timestamp headerValue : String) : Except SignatureError Bool :=
  if !signaturePrefix.toList.isPrefixOf headerValue.toList then .ok false
  else
    match computeSignature hexdigest body secret timestamp with
    | none => .error .unicodeEncodeError
    | some signature => (compareDigest signature headerValue).mapError .compareDigest

/-- What is signed. -/
def signedText (timestamp : String) (body : ByteArray) : ByteArray :=
  timestamp.toUTF8 ++ ".".toUTF8 ++ body

theorem computeSignature_of_ascii {timestamp : String} (h : isAscii timestamp = true)
    (hexdigest : ByteArray → ByteArray → String) (body : ByteArray) (secret : String) :
    computeSignature hexdigest body secret timestamp =
      some (signaturePrefix ++ hexdigest secret.toUTF8 (signedText timestamp body)) :=
  if_pos h

theorem isAscii_append (a b : String) : isAscii (a ++ b) = (isAscii a && isAscii b) := by
  rw [isAscii, String.toList_append, List.all_append]
  rfl

theorem isPrefixOf_append (a b : String) : a.toList.isPrefixOf (a ++ b).toList = true := by
  rw [String.toList_append, List.isPrefixOf_iff_prefix]
  exact List.prefix_append _ _

theorem exists_append_of_isPrefixOf {a b : String}
    (h : a.toList.isPrefixOf b.toList = true) : ∃ text : String, b = a ++ text := by
  obtain ⟨rest, hrest⟩ := List.isPrefixOf_iff_prefix.mp h
  refine ⟨String.ofList rest, ?_⟩
  rw [← String.toList_inj, String.toList_append, String.toList_ofList, hrest]

theorem verifySignature_compares {timestamp : String} (h : isAscii timestamp = true)
    (hexdigest : ByteArray → ByteArray → String) (body : ByteArray) (secret text : String) :
    verifySignature hexdigest body secret timestamp (signaturePrefix ++ text) =
      (compareDigest (signaturePrefix ++ hexdigest secret.toUTF8 (signedText timestamp body))
        (signaturePrefix ++ text)).mapError .compareDigest := by
  unfold verifySignature
  rw [isPrefixOf_append, Bool.not_true, if_neg Bool.false_ne_true, computeSignature_of_ascii h]

theorem verifySignature_of_ascii {hexdigest : ByteArray → ByteArray → String} {secret : String}
    (hascii : ∀ text, isAscii (hexdigest secret.toUTF8 text) = true) {timestamp : String}
    (h : isAscii timestamp = true) (body text : ByteArray) :
    verifySignature hexdigest body secret timestamp
        (signaturePrefix ++ hexdigest secret.toUTF8 text) =
      .ok (hexdigest secret.toUTF8 (signedText timestamp body) ==
        hexdigest secret.toUTF8 text) := by
  have hfull : ∀ text, isAscii (signaturePrefix ++ hexdigest secret.toUTF8 text) = true :=
    fun text => by rw [isAscii_append, hascii, Bool.and_true]; decide
  rw [verifySignature_compares h, compareDigest, hfull, hfull, Bool.and_self, if_pos rfl]
  refine congrArg Except.ok ?_
  rw [Bool.eq_iff_iff, beq_iff_eq, beq_iff_eq, ← String.toList_inj, String.toList_append,
    String.toList_append, List.append_cancel_left_eq, String.toList_inj]

theorem verifySignature_of_not_ascii {timestamp : String} (h : isAscii timestamp = false)
    (hexdigest : ByteArray → ByteArray → String) (body : ByteArray) (secret text : String) :
    verifySignature hexdigest body secret timestamp (signaturePrefix ++ text) =
      .error .unicodeEncodeError := by
  have hcompute : computeSignature hexdigest body secret timestamp = none :=
    if_neg (by rw [isAscii] at h; rw [h]; exact Bool.false_ne_true)
  unfold verifySignature
  rw [isPrefixOf_append, Bool.not_true, if_neg Bool.false_ne_true, hcompute]

theorem verifySignature_of_no_scheme {header : String}
    (h : signaturePrefix.toList.isPrefixOf header.toList = false)
    (hexdigest : ByteArray → ByteArray → String) (body : ByteArray) (secret timestamp : String) :
    verifySignature hexdigest body secret timestamp header = .ok false :=
  if_pos (by rw [h]; rfl)

/-- Where the first part has no separator, two texts are the same only if the second one
begins with the first part. -/
theorem append_separator_eq {α : Type} {separator : α} {xs ys as bs : List α}
    (hfree : separator ∉ xs) :
    xs ++ separator :: as = ys ++ separator :: bs ↔
      (xs = ys ∧ as = bs) ∨ ∃ rest, ys = xs ++ separator :: rest ∧
        as = rest ++ separator :: bs := by
  constructor
  · intro h
    rcases List.append_eq_append_iff.mp h with ⟨middle, hys, hrest⟩ | ⟨middle, hxs, hrest⟩
    · cases middle with
      | nil =>
          refine .inl ⟨?_, (List.cons.inj hrest).2⟩
          rw [hys, List.append_nil]
      | cons c middle =>
          obtain ⟨rfl, hbody⟩ := List.cons.inj hrest
          exact .inr ⟨middle, hys, hbody⟩
    · cases middle with
      | nil =>
          refine .inl ⟨?_, (List.cons.inj hrest).2.symm⟩
          rw [hxs, List.append_nil]
      | cons c middle =>
          obtain ⟨rfl, -⟩ := List.cons.inj hrest
          exact absurd (hxs ▸ List.mem_append_right _ List.mem_cons_self) hfree
  · rintro (⟨rfl, rfl⟩ | ⟨rest, rfl, rfl⟩)
    · rfl
    · rw [List.append_assoc, List.cons_append]

def asciiByte (c : Char) : UInt8 := c.val.toUInt8

theorem toList_toUTF8 {text : String} (h : isAscii text = true) :
    text.toUTF8.data.toList = text.toList.map asciiByte := by
  have hchars : ∀ chars : List Char, (chars.all fun c => c.toNat < 128) = true →
      chars.flatMap String.utf8EncodeChar = chars.map asciiByte := by
    intro chars
    induction chars with
    | nil => exact fun _ => rfl
    | cons c rest ih =>
        intro hall
        rw [List.all_cons, Bool.and_eq_true, decide_eq_true_eq] at hall
        have hsize : c.utf8Size = 1 :=
          Char.utf8Size_eq_one_iff.mpr (UInt32.le_iff_toNat_le.mpr (Nat.le_of_lt_succ hall.1))
        rw [List.flatMap_cons, String.utf8EncodeChar_eq_singleton hsize, ih hall.2]
        rfl
  rw [← hchars _ h, String.toUTF8_eq_toByteArray, ← String.utf8Encode_toList, List.utf8Encode,
    List.toList_data_toByteArray]

theorem toList_signedText {timestamp : String} (h : isAscii timestamp = true) (body : ByteArray) :
    (signedText timestamp body).data.toList =
      timestamp.toList.map asciiByte ++ asciiByte '.' :: body.data.toList := by
  have hdot : ".".toUTF8.data.toList = [asciiByte '.'] := toList_toUTF8 (by decide)
  unfold signedText
  rw [ByteArray.data_append, ByteArray.data_append, Array.toList_append, Array.toList_append,
    toList_toUTF8 h, hdot, List.append_assoc, List.singleton_append]

theorem ext_toList {a b : ByteArray} (h : a.data.toList = b.data.toList) : a = b :=
  ByteArray.ext (Array.toList_inj.mp h)

theorem string_eq_of_asciiBytes {a b : String} (ha : isAscii a = true) (hb : isAscii b = true)
    (h : a.toList.map asciiByte = b.toList.map asciiByte) : a = b := by
  rw [← toList_toUTF8 ha, ← toList_toUTF8 hb] at h
  exact String.toByteArray_inj.mp (ext_toList h)

private theorem le_of_isDigit {c : Char} (h : c.isDigit = true) : 48 ≤ c.toNat ∧ c.toNat ≤ 57 := by
  rw [Char.isDigit, Bool.and_eq_true, decide_eq_true_eq, decide_eq_true_eq] at h
  exact h

theorem isAscii_of_digits {text : String} (h : text.toList.all Char.isDigit = true) :
    isAscii text = true := by
  refine List.all_eq_true.mpr fun c hc => decide_eq_true ?_
  have hdigit := le_of_isDigit (List.all_eq_true.mp h c hc)
  omega

theorem isAscii_of_lowerHex {text : String} (h : text.toList.all isLowerHex = true) :
    isAscii text = true := by
  refine List.all_eq_true.mpr fun c hc => decide_eq_true ?_
  have hhex := List.all_eq_true.mp h c hc
  rw [isLowerHex, Bool.or_eq_true, Bool.and_eq_true, decide_eq_true_eq, decide_eq_true_eq] at hhex
  rcases hhex with hdigit | ⟨-, hletter⟩
  · have hdigit := le_of_isDigit hdigit
    omega
  · have hle : c.toNat ≤ 'f'.toNat := Char.le_def.mp hletter
    exact Nat.lt_of_le_of_lt hle (by decide)

theorem separator_not_mem_digits {text : String} (h : text.toList.all Char.isDigit = true) :
    asciiByte '.' ∉ text.toList.map asciiByte := by
  intro hmem
  obtain ⟨c, hc, hbyte⟩ := List.mem_map.mp hmem
  have hdigit := le_of_isDigit (List.all_eq_true.mp h c hc)
  have hnat : c.toNat % 256 = 46 := congrArg UInt8.toNat hbyte
  omega

/-- The characters before and after the separator. -/
private theorem split_at_separator {timestamp timestamp' : String} {rest : List UInt8}
    (h : isAscii timestamp = true) (h' : isAscii timestamp' = true)
    (hbytes : timestamp'.toList.map asciiByte =
      timestamp.toList.map asciiByte ++ asciiByte '.' :: rest) :
    ∃ tail : String, timestamp' = timestamp ++ "." ++ tail ∧ rest = tail.toUTF8.data.toList := by
  obtain ⟨front, back, hsplit, hfront, hback⟩ := List.map_eq_append_iff.mp hbytes
  obtain ⟨c, tail, rfl, hc, rfl⟩ := List.map_eq_cons_iff.mp hback
  have hall := h'
  rw [isAscii, hsplit, List.all_append, List.all_cons, Bool.and_eq_true, Bool.and_eq_true] at hall
  have hsame : String.ofList front = timestamp :=
    string_eq_of_asciiBytes (by rw [isAscii, String.toList_ofList]; exact hall.1) h
      (by rw [String.toList_ofList, hfront])
  have hdot : String.ofList [c] = "." :=
    string_eq_of_asciiBytes (by rw [isAscii, String.toList_ofList, List.all_cons, hall.2.1]; rfl)
      (by decide) (by rw [String.toList_ofList]; exact congrArg (fun byte => [byte]) hc)
  refine ⟨String.ofList tail, ?_, ?_⟩
  · rw [← String.toList_inj, hsplit, ← hsame, ← hdot]
    simp
  · rw [toList_toUTF8 (by rw [isAscii, String.toList_ofList]; exact hall.2.2),
      String.toList_ofList]

/-- What is signed for a number and a body is signed for another timestamp too where the body
has a separator. -/
theorem signedText_eq_iff {timestamp timestamp' : String} {body body' : ByteArray}
    (hdigits : timestamp.toList.all Char.isDigit = true) (hascii : isAscii timestamp' = true) :
    signedText timestamp' body' = signedText timestamp body ↔
      (timestamp', body') = (timestamp, body) ∨
        ∃ rest : String, timestamp' = timestamp ++ "." ++ rest ∧
          body = rest.toUTF8 ++ ".".toUTF8 ++ body' := by
  have hown := isAscii_of_digits hdigits
  constructor
  · intro h
    have hbytes := congrArg (fun text => text.data.toList) h
    rw [toList_signedText hown, toList_signedText hascii, eq_comm,
      append_separator_eq (separator_not_mem_digits hdigits)] at hbytes
    rcases hbytes with ⟨htimestamp, hbody⟩ | ⟨rest, htimestamp, hbody⟩
    · exact .inl (Prod.ext (string_eq_of_asciiBytes hascii hown htimestamp.symm)
        (ext_toList hbody.symm))
    · obtain ⟨tail, htail, rfl⟩ := split_at_separator hown hascii htimestamp
      refine .inr ⟨tail, htail, ext_toList ?_⟩
      have hdot : ".".toUTF8.data.toList = [asciiByte '.'] := toList_toUTF8 (by decide)
      rw [hbody, ByteArray.data_append, ByteArray.data_append, Array.toList_append,
        Array.toList_append, hdot, List.append_assoc, List.singleton_append]
  · rintro (heq | ⟨rest, rfl, rfl⟩)
    · obtain ⟨rfl, rfl⟩ := Prod.mk.inj heq
      rfl
    · unfold signedText
      simp only [String.toUTF8_eq_toByteArray, String.toByteArray_append, ByteArray.append_assoc]

end Security

open Security KeySecurity

/-- `verify_signature` answers whether the header is the signature if and only if a header that
has the scheme, and then the timestamp too, are ASCII; else it raises. -/
theorem verifySignature_decides_iff {hexdigest : ByteArray → ByteArray → String}
    (hhex : ∀ key text, (hexdigest key text).toList.all isLowerHex = true)
    (body : ByteArray) (secret timestamp header : String) :
    verifySignature hexdigest body secret timestamp header =
        .ok (decide (isAscii timestamp = true ∧
          header = signaturePrefix ++ hexdigest secret.toUTF8 (signedText timestamp body))) ↔
      (signaturePrefix.toList.isPrefixOf header.toList = true →
        isAscii timestamp = true ∧ isAscii header = true) := by
  cases hstart : signaturePrefix.toList.isPrefixOf header.toList with
  | false =>
      refine iff_of_true ?_ fun h => Bool.noConfusion h
      rw [verifySignature_of_no_scheme hstart, eq_comm]
      refine congrArg Except.ok (decide_eq_false fun h => ?_)
      rw [h.2, isPrefixOf_append] at hstart
      contradiction
  | true =>
      obtain ⟨text, rfl⟩ := exists_append_of_isPrefixOf hstart
      rw [imp_iff_right rfl]
      cases htimestamp : isAscii timestamp with
      | false =>
          rw [verifySignature_of_not_ascii htimestamp]
          exact iff_of_false (fun herror => by contradiction) fun h => Bool.noConfusion h.1
      | true =>
          rw [verifySignature_compares htimestamp, compareDigest,
            isAscii_append _ (hexdigest _ _), isAscii_of_lowerHex (hhex _ _),
            Bool.and_true, show isAscii signaturePrefix = true by decide, Bool.true_and]
          cases hheader : isAscii (signaturePrefix ++ text) with
          | false =>
              exact iff_of_false (fun herror => by contradiction) fun h => Bool.noConfusion h.2
          | true =>
              refine iff_of_true (congrArg Except.ok ?_) ⟨rfl, rfl⟩
              rw [Bool.eq_iff_iff, beq_iff_eq, decide_eq_true_iff, and_iff_right rfl, eq_comm]

/-- HMAC-SHA256 under the key `k` for `1.2.x`. -/
def signedHex : String := "2aa8d0fdcb11a3321413a0f6fa48da836304c25bb08fb11e96627719c5f8ba5c"

theorem signedHex_lowerHex : signedHex.toList.all isLowerHex = true := by decide

theorem verifySignature_decides_sample :
    verifySignature (fun _ _ => signedHex) "2.x".toUTF8 "k" "1"
      (signaturePrefix ++ signedHex) = .ok true := by
  have hascii : isAscii (signaturePrefix ++ signedHex) = true := by
    rw [isAscii_append, isAscii_of_lowerHex signedHex_lowerHex]
    decide
  have hdecides := (verifySignature_decides_iff (fun _ _ => signedHex_lowerHex) "2.x".toUTF8 "k"
    "1" (signaturePrefix ++ signedHex)).mpr fun _ => ⟨by decide, hascii⟩
  exact hdecides.trans (congrArg Except.ok (decide_eq_true ⟨by decide, rfl⟩))

/-- A timestamp or a header that is not ASCII raises. -/
theorem verifySignature_raises :
    verifySignature (fun _ _ => signedHex) "2.x".toUTF8 "k" "é" "sha256=00" =
      .error .unicodeEncodeError ∧
    verifySignature (fun _ _ => signedHex) "2.x".toUTF8 "k" "1" "sha256=é" =
      .error (.compareDigest
        (.typeError "comparing strings with non-ASCII characters is not supported")) :=
  ⟨rfl, rfl⟩

/-- A signature is refused for another timestamp or body if and only if the timestamp is ASCII
and does not begin with the signed one, a separator and the start of the signed body. -/
theorem signature_binds_iff {hexdigest : ByteArray → ByteArray → String} {secret : String}
    (hinj : ∀ a b, hexdigest secret.toUTF8 a = hexdigest secret.toUTF8 b → a = b)
    (hascii : ∀ text, isAscii (hexdigest secret.toUTF8 text) = true)
    {timestamp timestamp' signature : String} {body body' : ByteArray}
    (hdigits : timestamp.toList.all Char.isDigit = true)
    (hsigned : computeSignature hexdigest body secret timestamp = some signature)
    (hother : (timestamp', body') ≠ (timestamp, body)) :
    verifySignature hexdigest body' secret timestamp' signature = .ok false ↔
      isAscii timestamp' = true ∧ ¬∃ rest : String, timestamp' = timestamp ++ "." ++ rest ∧
        body = rest.toUTF8 ++ ".".toUTF8 ++ body' := by
  rw [computeSignature_of_ascii (isAscii_of_digits hdigits)] at hsigned
  cases hsigned
  cases htimestamp : isAscii timestamp' with
  | false =>
      rw [verifySignature_of_not_ascii htimestamp]
      exact iff_of_false (fun herror => by contradiction) fun h => Bool.noConfusion h.1
  | true =>
      rw [verifySignature_of_ascii hascii htimestamp, and_iff_right rfl, Except.ok.injEq,
        beq_eq_false_iff_ne, not_iff_not]
      constructor
      · intro h
        exact ((signedText_eq_iff hdigits htimestamp).mp (hinj _ _ h)).resolve_left hother
      · intro h
        rw [(signedText_eq_iff hdigits htimestamp).mpr (.inr h)]

section Scenario

theorem update_injective {α β : Type} [DecidableEq α] {f : α → β} (hf : Function.Injective f)
    {a : α} {b : β} (hfresh : ∀ x, f x ≠ b) : Function.Injective (Function.update f a b) := by
  intro x y h
  rw [Function.update_apply, Function.update_apply] at h
  split at h
  next hx =>
    split at h
    next hy => rw [hx, hy]
    next => exact absurd h.symm (hfresh y)
  next =>
    split at h
    next => exact absurd h (hfresh x)
    next => exact hf h

/-- HMAC-SHA256 under the key `k` for `1.2.5` and `2.2.5`, and other texts for other bytes. -/
def digestOf : List Nat → String :=
  Function.update
    (Function.update (fun bytes => "x" ++ Nat.repr (Encodable.encode bytes)) [49, 46, 50, 46, 53]
      "602563c2318eb495f7d47095d1b6c70d25389f38fa836908aa5b17e3cdb8d750")
    [50, 46, 50, 46, 53] "d04369e2f06db4d56f35c5ee8821e7a0c6eb308f5f15f29adc23ede74cf825f7"

def signedDigest (text : ByteArray) : String := digestOf (text.data.toList.map UInt8.toNat)

theorem repr_ne {n : Nat} {digest : String} (h : digest.toList.head? ≠ some 'x') :
    "x" ++ Nat.repr n ≠ digest := by
  rintro rfl
  rw [String.toList_append] at h
  exact h rfl

theorem signedDigest_injective : Function.Injective signedDigest := by
  have hplain : Function.Injective fun bytes : List Nat =>
      "x" ++ Nat.repr (Encodable.encode bytes) :=
    fun _ _ h => Encodable.encode_injective (Text.append_repr_inj h)
  have hdigest : Function.Injective digestOf := by
    refine update_injective (update_injective hplain fun _ => repr_ne (by decide)) fun bytes => ?_
    rw [Function.update_apply]
    split
    · decide
    · exact repr_ne (by decide)
  intro a b h
  exact ext_toList (List.map_injective_iff.mpr (fun _ _ => UInt8.toNat_inj.mp) (hdigest h))

theorem signedDigest_ascii (text : ByteArray) : isAscii (signedDigest text) = true := by
  unfold signedDigest digestOf
  rw [Function.update_apply, Function.update_apply]
  split
  · decide
  · split
    · decide
    · rw [isAscii_append, Bool.and_eq_true]
      refine ⟨by decide, isAscii_of_digits ?_⟩
      rw [Nat.toList_repr]
      exact List.all_eq_true.mpr fun c hc =>
        Nat.isDigit_of_mem_toDigits (by decide) (by decide) hc

theorem signature_binds_iff_sample :
    verifySignature (fun _ => signedDigest) "2.5".toUTF8 "k" "2"
      "sha256=602563c2318eb495f7d47095d1b6c70d25389f38fa836908aa5b17e3cdb8d750" = .ok false := by
  have hsigned : computeSignature (fun _ => signedDigest) "2.5".toUTF8 "k" "1" =
      some "sha256=602563c2318eb495f7d47095d1b6c70d25389f38fa836908aa5b17e3cdb8d750" := rfl
  have hdigits : "1".toList.all Char.isDigit = true := by decide
  have hother : ("2", "2.5".toUTF8) ≠ ("1", "2.5".toUTF8) := fun h =>
    absurd (congrArg Prod.fst h) (by decide)
  have hbinds := @signature_binds_iff (fun _ => signedDigest) "k"
    (fun _ _ h => signedDigest_injective h) signedDigest_ascii "1" "2" _ _ _ hdigits hsigned hother
  refine hbinds.mpr ⟨by decide, ?_⟩
  rintro ⟨rest, h, -⟩
  rw [← String.toList_inj] at h
  simp at h

/-- The signature of body `2.5` at time `1` is taken for one of body `5` at time `1.2`. -/
theorem signature_moves :
    Function.Injective signedDigest ∧
    computeSignature (fun _ => signedDigest) "2.5".toUTF8 "k" "1" =
      some "sha256=602563c2318eb495f7d47095d1b6c70d25389f38fa836908aa5b17e3cdb8d750" ∧
    verifySignature (fun _ => signedDigest) "5".toUTF8 "k" "1.2"
      "sha256=602563c2318eb495f7d47095d1b6c70d25389f38fa836908aa5b17e3cdb8d750" = .ok true :=
  ⟨signedDigest_injective, rfl, rfl⟩

end Scenario

end NotifyRelay
