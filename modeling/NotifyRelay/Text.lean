/-! The methods of Python's `str` and `bytes` the relay uses, on the list of a text's
characters. -/
namespace NotifyRelay.Text

/-- `str.isspace` of one character. -/
def isSpace (c : Char) : Bool :=
  let n := c.toNat
  (9 ≤ n && n ≤ 13) || (28 ≤ n && n ≤ 32) || n == 0x85 || n == 0xa0 || n == 0x1680 ||
    (0x2000 ≤ n && n ≤ 0x200a) || n == 0x2028 || n == 0x2029 || n == 0x202f || n == 0x205f ||
    n == 0x3000

/-- `str.strip`, with the characters that go. -/
def stripBy (drop : Char → Bool) (text : List Char) : List Char :=
  ((text.dropWhile drop).reverse.dropWhile drop).reverse

def strip (text : List Char) : List Char := stripBy isSpace text

/-- `isascii() and isdigit()`. -/
def isDecimal (text : List Char) : Bool := !text.isEmpty && text.all Char.isDigit

/-- One of `0123456789ABCDEFabcdef`. -/
def isHexDigit (c : Char) : Bool :=
  c.isDigit || ('A' ≤ c && c ≤ 'F') || ('a' ≤ c && c ≤ 'f')

def digitValue (c : Char) : Nat :=
  if c.isDigit then c.toNat - 48
  else if c.isUpper then c.toNat - 55
  else c.toNat - 87

/-- `int(text, base)` on digits of that base. -/
def toInt (base : Nat) (text : List Char) : Nat :=
  text.foldl (fun n c => n * base + digitValue c) 0

theorem digits_injective : Function.Injective (Nat.toDigits 10) :=
  Function.LeftInverse.injective fun _ => Nat.ofDigitChars_ten_toDigits

theorem append_repr_inj {text : String} {a b : Nat}
    (h : text ++ Nat.repr a = text ++ Nat.repr b) : a = b := by
  refine digits_injective ?_
  rw [← String.toList_inj, String.toList_append, String.toList_append] at h
  rw [← Nat.toList_repr, ← Nat.toList_repr]
  exact List.append_cancel_left h

/-- A character of which some bytes are still to come, and the range of the next one. -/
structure Partial where
  value : Nat
  remaining : Nat
  low : Nat
  high : Nat

/-- What the first of several bytes says. -/
def leadByte (byte : Nat) : Option Partial :=
  if 0xc2 ≤ byte ∧ byte ≤ 0xdf then some ⟨byte - 0xc0, 1, 0x80, 0xbf⟩
  else if byte = 0xe0 then some ⟨0, 2, 0xa0, 0xbf⟩
  else if byte = 0xed then some ⟨0xd, 2, 0x80, 0x9f⟩
  else if 0xe1 ≤ byte ∧ byte ≤ 0xef then some ⟨byte - 0xe0, 2, 0x80, 0xbf⟩
  else if byte = 0xf0 then some ⟨0, 3, 0x90, 0xbf⟩
  else if 0xf1 ≤ byte ∧ byte ≤ 0xf3 then some ⟨byte - 0xf0, 3, 0x80, 0xbf⟩
  else if byte = 0xf4 then some ⟨4, 3, 0x80, 0x8f⟩
  else none

def replacementCharacter : Char := Char.ofNat 0xfffd

def decodeFirst (byte : Nat) : List Char × Option Partial :=
  if byte < 0x80 then ([Char.ofNat byte], none)
  else
    match leadByte byte with
    | some started => ([], some started)
    | none => ([replacementCharacter], none)

def decodeNext (started : Partial) (byte : Nat) : List Char × Option Partial :=
  if started.low ≤ byte ∧ byte ≤ started.high then
    let value := started.value * 64 + (byte - 0x80)
    if started.remaining ≤ 1 then ([Char.ofNat value], none)
    else ([], some ⟨value, started.remaining - 1, 0x80, 0xbf⟩)
  else
    -- what was read so far is given up, and the byte starts anew
    let (chars, rest) := decodeFirst byte
    (replacementCharacter :: chars, rest)

def decodeFrom : Option Partial → List UInt8 → List Char
  | none, [] => []
  | some _, [] => [replacementCharacter]
  | none, byte :: rest =>
      let (chars, started) := decodeFirst byte.toNat
      chars ++ decodeFrom started rest
  | some started, byte :: rest =>
      let (chars, started) := decodeNext started byte.toNat
      chars ++ decodeFrom started rest

/-- `bytes.decode("utf-8", "replace")`. -/
def decodeReplace (bytes : List UInt8) : String := String.ofList (decodeFrom none bytes)

example : decodeReplace [0x61, 0xc3, 0xa9, 0xe2, 0x82, 0x62, 0xff] = "aé\ufffdb\ufffd" := by decide

end NotifyRelay.Text
