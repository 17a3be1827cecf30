import Mathlib.Data.List.Basic

/-! The grammar of JSON texts, with the bare words as a parameter: `true`, `false` and `null`
in RFC 8259, and a few more where a decoder is lenient. What tells the two apart stands
outside the string literals. -/
namespace NotifyRelay.JsonText

def isWs (c : Char) : Bool := c == ' ' || c == '\t' || c == '\n' || c == '\r'

def Ws (text : List Char) : Prop := ∀ c ∈ text, isWs c = true

def Digits (text : List Char) : Prop := text ≠ [] ∧ ∀ c ∈ text, c.isDigit = true

/-- `int = zero / ( digit1-9 *DIGIT )`. -/
def IntPart (text : List Char) : Prop := text = ['0'] ∨ Digits text ∧ text.head? ≠ some '0'

def FracPart (text : List Char) : Prop :=
  text = [] ∨ ∃ digits, Digits digits ∧ text = '.' :: digits

def ExpPart (text : List Char) : Prop :=
  text = [] ∨ ∃ e sign digits, (e = 'e' ∨ e = 'E') ∧ sign ∈ [[], ['-'], ['+']] ∧ Digits digits ∧
    text = e :: (sign ++ digits)

/-- `number = [ minus ] int [ frac ] [ exp ]`. -/
def Number (text : List Char) : Prop :=
  ∃ minus int frac exp, minus ∈ [[], ['-']] ∧ IntPart int ∧ FracPart frac ∧ ExpPart exp ∧
    text = minus ++ (int ++ (frac ++ exp))

def isHex (c : Char) : Bool :=
  c.isDigit || ('A' ≤ c && c ≤ 'F') || ('a' ≤ c && c ≤ 'f')

/-- `*char`, what stands between the quotes of a string. -/
inductive Chars : List Char → Prop where
  | nil : Chars []
  | unescaped {c : Char} {rest : List Char} (hcontrol : 0x20 ≤ c.toNat) (hquote : c ≠ '\"')
      (hescape : c ≠ '\\') (hrest : Chars rest) : Chars (c :: rest)
  | escaped {c : Char} {rest : List Char}
      (hc : c ∈ ['\"', '\\', '/', 'b', 'f', 'n', 'r', 't']) (hrest : Chars rest) :
      Chars ('\\' :: c :: rest)
  | unicode {a b c d : Char} {rest : List Char}
      (hhex : ∀ digit ∈ [a, b, c, d], isHex digit = true) (hrest : Chars rest) :
      Chars ('\\' :: 'u' :: a :: b :: c :: d :: rest)

def Str (text : List Char) : Prop := ∃ chars, Chars chars ∧ text = '\"' :: (chars ++ ['\"'])

/-- The nonterminals above numbers and strings. An element is a value between white space. -/
inductive Symbol where
  | value
  | element
  | elements
  | member
  | members

inductive Derives (words : List (List Char)) : Symbol → List Char → Prop where
  | word {text : List Char} (h : text ∈ words) : Derives words .value text
  | number {text : List Char} (h : Number text) : Derives words .value text
  | str {text : List Char} (h : Str text) : Derives words .value text
  | emptyArray {ws : List Char} (h : Ws ws) : Derives words .value ('[' :: (ws ++ [']']))
  | array {items : List Char} (h : Derives words .elements items) :
      Derives words .value ('[' :: (items ++ [']']))
  | emptyObject {ws : List Char} (h : Ws ws) :
      Derives words .value ('\x7b' :: (ws ++ ['\x7d']))
  | object {members : List Char} (h : Derives words .members members) :
      Derives words .value ('\x7b' :: (members ++ ['\x7d']))
  | element {before value after : List Char} (hbefore : Ws before)
      (h : Derives words .value value) (hafter : Ws after) :
      Derives words .element (before ++ (value ++ after))
  | lastElement {item : List Char} (h : Derives words .element item) :
      Derives words .elements item
  | elements {item rest : List Char} (h : Derives words .element item)
      (hrest : Derives words .elements rest) : Derives words .elements (item ++ ',' :: rest)
  | member {before key after item : List Char} (hbefore : Ws before) (hkey : Str key)
      (hafter : Ws after) (h : Derives words .element item) :
      Derives words .member (before ++ (key ++ (after ++ ':' :: item)))
  | lastMember {item : List Char} (h : Derives words .member item) : Derives words .members item
  | members {item rest : List Char} (h : Derives words .member item)
      (hrest : Derives words .members rest) : Derives words .members (item ++ ',' :: rest)

/-- `JSON-text = ws value ws`. -/
def Text (words : List (List Char)) (text : List Char) : Prop := Derives words .element text

/-- A value without white space around it. -/
theorem Derives.bare {words : List (List Char)} {text : List Char}
    (h : Derives words .value text) : Derives words .element text := by
  have hspaced : Derives words .element ([] ++ (text ++ [])) := .element nofun h nofun
  simpa using hspaced

inductive Place where
  | bare
  | quoted
  | escaped

/-- The characters that are in no string literal. -/
def outside : Place → List Char → List Char
  | _, [] => []
  | .bare, c :: rest => if c = '\"' then outside .quoted rest else c :: outside .bare rest
  | .quoted, c :: rest =>
      if c = '\"' then outside .bare rest
      else if c = '\\' then outside .escaped rest
      else outside .quoted rest
  | .escaped, _ :: rest => outside .quoted rest

/-- A part of a text that leaves no string literal open. -/
def Segment (part : List Char) : Prop :=
  ∀ rest, outside .bare (part ++ rest) = outside .bare part ++ outside .bare rest

theorem outside_cons {c : Char} (h : c ≠ '\"') (rest : List Char) :
    outside .bare (c :: rest) = c :: outside .bare rest := by
  rw [outside, if_neg h]

theorem Segment.nil : Segment [] := fun _ => rfl

theorem Segment.cons {c : Char} {part : List Char} (hc : c ≠ '\"') (h : Segment part) :
    Segment (c :: part) := by
  intro rest
  rw [List.cons_append, outside_cons hc, outside_cons hc, h rest, List.cons_append]

theorem Segment.append {a b : List Char} (ha : Segment a) (hb : Segment b) :
    Segment (a ++ b) := by
  intro rest
  rw [List.append_assoc, ha, hb, ha, List.append_assoc]

theorem Segment.plain {part : List Char} (h : ∀ c ∈ part, c ≠ '\"') : Segment part := by
  induction part with
  | nil => exact .nil
  | cons c rest ih =>
      rw [List.forall_mem_cons] at h
      exact .cons h.1 (ih h.2)

theorem outside_plain {part : List Char} (h : ∀ c ∈ part, c ≠ '\"') :
    outside .bare part = part := by
  induction part with
  | nil => rfl
  | cons c rest ih =>
      rw [List.forall_mem_cons] at h
      rw [outside_cons h.1, ih h.2]

theorem isHex_ne {c : Char} (h : isHex c = true) : c ≠ '\"' ∧ c ≠ '\\' := by
  constructor <;> · rintro rfl; revert h; decide

/-- The quote that ends a string is the first one that is not escaped. -/
theorem outside_chars {chars : List Char} (h : Chars chars) (rest : List Char) :
    outside .quoted (chars ++ '\"' :: rest) = outside .bare rest := by
  induction h with
  | nil => rw [List.nil_append, outside, if_pos rfl]
  | unescaped _ hquote hescape _ ih =>
      rw [List.cons_append, outside, if_neg hquote, if_neg hescape, ih]
  | escaped _ _ ih =>
      rw [List.cons_append, outside, if_neg (by decide), if_pos rfl, List.cons_append, outside, ih]
  | @unicode a b c d _ hhex _ ih =>
      have hne : ∀ digit ∈ [a, b, c, d], digit ≠ '\"' ∧ digit ≠ '\\' := fun digit hmem =>
        isHex_ne (hhex digit hmem)
      simp only [List.forall_mem_cons] at hne
      obtain ⟨ha, hb, hc, hd, _⟩ := hne
      simp only [List.cons_append, outside, ha, hb, hc, hd, ih]
      simp

theorem outside_str {text : List Char} (h : Str text) (rest : List Char) :
    outside .bare (text ++ rest) = outside .bare rest := by
  obtain ⟨chars, hchars, rfl⟩ := h
  rw [List.cons_append, outside, if_pos rfl, List.append_assoc]
  exact outside_chars hchars rest

theorem Segment.str {text : List Char} (h : Str text) : Segment text := by
  intro rest
  have hself := outside_str h []
  rw [List.append_nil] at hself
  rw [outside_str h, hself]
  rfl

/-- A character that may stand outside strings and words. -/
def syntactic (c : Char) : Bool :=
  isWs c || c.isDigit ||
    ['-', '+', '.', 'e', 'E', '[', ']', '\x7b', '\x7d', ',', ':'].contains c

theorem syntactic_ne_quote {c : Char} (h : syntactic c = true) : c ≠ '\"' := by
  rintro rfl
  revert h
  decide

theorem syntactic_of_isWs {c : Char} (h : isWs c = true) : syntactic c = true := by
  simp [syntactic, h]

theorem syntactic_of_isDigit {c : Char} (h : c.isDigit = true) : syntactic c = true := by
  simp [syntactic, h]

theorem Number.syntactic {text : List Char} (h : Number text) :
    ∀ c ∈ text, syntactic c = true := by
  obtain ⟨minus, int, frac, exp, hminus, hint, hfrac, hexp, rfl⟩ := h
  have hdigits : ∀ digits, Digits digits → ∀ c ∈ digits, JsonText.syntactic c = true :=
    fun digits h c hc => syntactic_of_isDigit (h.2 c hc)
  simp only [List.forall_mem_append]
  refine ⟨?_, ?_, ?_, ?_⟩
  · simp only [List.mem_cons, List.not_mem_nil, or_false] at hminus
    rcases hminus with rfl | rfl
    · nofun
    · exact List.forall_mem_singleton.mpr (by decide)
  · rcases hint with rfl | ⟨h, _⟩
    · exact List.forall_mem_singleton.mpr (by decide)
    · exact hdigits int h
  · rcases hfrac with rfl | ⟨digits, h, rfl⟩
    · nofun
    · exact List.forall_mem_cons.mpr ⟨by decide, hdigits digits h⟩
  · rcases hexp with rfl | ⟨e, sign, digits, he, hsign, h, rfl⟩
    · nofun
    · rw [List.forall_mem_cons, List.forall_mem_append]
      simp only [List.mem_cons, List.not_mem_nil, or_false] at hsign
      refine ⟨?_, ?_, hdigits digits h⟩
      · rcases he with rfl | rfl <;> decide
      · rcases hsign with rfl | rfl | rfl
        · nofun
        · exact List.forall_mem_singleton.mpr (by decide)
        · exact List.forall_mem_singleton.mpr (by decide)

section Marking

variable {words extra : List (List Char)} {mark : Char → Bool}

/-- Every extra word has a marked character, and nothing else outside the strings has one. -/
structure Marking (words extra : List (List Char)) (mark : Char → Bool) : Prop where
  plain : ∀ word ∈ words ++ extra, ∀ c ∈ word, c ≠ '\"'
  words : ∀ word ∈ words, ∀ c ∈ word, mark c = false
  extra : ∀ word ∈ extra, ∃ c ∈ word, mark c = true
  other : ∀ c, syntactic c = true → mark c = false

/-- No marked character stands outside the strings. -/
def Clean (mark : Char → Bool) (text : List Char) : Prop :=
  ∀ c ∈ outside .bare text, mark c = false

theorem clean_append {a b : List Char} (h : Segment a) :
    Clean mark (a ++ b) ↔ Clean mark a ∧ Clean mark b := by
  unfold Clean
  rw [h b, List.forall_mem_append]

theorem clean_cons {c : Char} (h : c ≠ '\"') {rest : List Char} :
    Clean mark (c :: rest) ↔ mark c = false ∧ Clean mark rest := by
  unfold Clean
  rw [outside_cons h, List.forall_mem_cons]

theorem clean_plain {text : List Char} (h : ∀ c ∈ text, c ≠ '\"') :
    Clean mark text ↔ ∀ c ∈ text, mark c = false := by
  unfold Clean
  rw [outside_plain h]

theorem clean_str {text : List Char} (h : Str text) : Clean mark text := by
  have hself := outside_str h []
  rw [List.append_nil] at hself
  unfold Clean
  rw [hself]
  nofun

theorem Ws.segment {ws : List Char} (h : Ws ws) : Segment ws :=
  .plain fun c hc => syntactic_ne_quote (syntactic_of_isWs (h c hc))

theorem Number.segment {text : List Char} (h : Number text) : Segment text :=
  .plain fun c hc => syntactic_ne_quote (h.syntactic c hc)

theorem Derives.segment {symbol : Symbol} {text : List Char}
    (hplain : ∀ word ∈ words, ∀ c ∈ word, c ≠ '\"') (h : Derives words symbol text) :
    Segment text := by
  have hlast : ∀ c : Char, c ≠ '\"' → Segment [c] := fun c hc => .cons hc .nil
  induction h with
  | word h => exact .plain (hplain _ h)
  | number h => exact h.segment
  | str h => exact .str h
  | emptyArray h => exact .cons (by decide) (h.segment.append (hlast _ (by decide)))
  | array _ ih => exact .cons (by decide) (ih.append (hlast _ (by decide)))
  | emptyObject h => exact .cons (by decide) (h.segment.append (hlast _ (by decide)))
  | object _ ih => exact .cons (by decide) (ih.append (hlast _ (by decide)))
  | element hbefore _ hafter ih => exact hbefore.segment.append (ih.append hafter.segment)
  | lastElement _ ih => exact ih
  | elements _ _ ih ihrest => exact ih.append (.cons (by decide) ihrest)
  | member hbefore hkey hafter _ ih =>
      exact hbefore.segment.append
        ((Segment.str hkey).append (hafter.segment.append (.cons (by decide) ih)))
  | lastMember _ ih => exact ih
  | members _ _ ih ihrest => exact ih.append (.cons (by decide) ihrest)

namespace Marking

variable (m : Marking words extra mark)
include m

theorem segment {symbol : Symbol} {text : List Char} (h : Derives words symbol text) :
    Segment text :=
  h.segment fun word hword => m.plain word (List.mem_append_left _ hword)

theorem ws_clean {ws : List Char} (h : Ws ws) : Clean mark ws :=
  (clean_plain fun c hc => syntactic_ne_quote (syntactic_of_isWs (h c hc))).mpr fun c hc =>
    m.other c (syntactic_of_isWs (h c hc))

theorem number_clean {text : List Char} (h : Number text) : Clean mark text :=
  (clean_plain fun c hc => syntactic_ne_quote (h.syntactic c hc)).mpr fun c hc =>
    m.other c (h.syntactic c hc)

/-- `c` opens or separates. -/
theorem clean_after {c : Char} (h : syntactic c = true) {rest : List Char} :
    Clean mark (c :: rest) ↔ Clean mark rest := by
  rw [clean_cons (syntactic_ne_quote h)]
  exact and_iff_right (m.other c h)

/-- `c` closes. -/
theorem clean_before {c : Char} (h : syntactic c = true) {part : List Char}
    (hpart : Segment part) : Clean mark (part ++ [c]) ↔ Clean mark part := by
  rw [clean_append hpart, m.clean_after h]
  exact and_iff_left fun _ hc => nomatch hc

/-- Without the extra words nothing is marked. -/
theorem clean {symbol : Symbol} {text : List Char} (h : Derives words symbol text) :
    Clean mark text := by
  induction h with
  | word h =>
      exact (clean_plain (m.plain _ (List.mem_append_left _ h))).mpr (m.words _ h)
  | number h => exact m.number_clean h
  | str h => exact clean_str h
  | emptyArray h =>
      rw [m.clean_after (by decide), m.clean_before (by decide) h.segment]
      exact m.ws_clean h
  | array h ih =>
      rw [m.clean_after (by decide), m.clean_before (by decide) (m.segment h)]
      exact ih
  | emptyObject h =>
      rw [m.clean_after (by decide), m.clean_before (by decide) h.segment]
      exact m.ws_clean h
  | object h ih =>
      rw [m.clean_after (by decide), m.clean_before (by decide) (m.segment h)]
      exact ih
  | element hbefore h hafter ih =>
      rw [clean_append hbefore.segment, clean_append (m.segment h)]
      exact ⟨m.ws_clean hbefore, ih, m.ws_clean hafter⟩
  | lastElement _ ih => exact ih
  | elements h _ ih ihrest =>
      rw [clean_append (m.segment h), m.clean_after (by decide)]
      exact ⟨ih, ihrest⟩
  | member hbefore hkey hafter _ ih =>
      rw [clean_append hbefore.segment, clean_append (.str hkey), clean_append hafter.segment,
        m.clean_after (by decide)]
      exact ⟨m.ws_clean hbefore, clean_str hkey, m.ws_clean hafter, ih⟩
  | lastMember _ ih => exact ih
  | members h _ ih ihrest =>
      rw [clean_append (m.segment h), m.clean_after (by decide)]
      exact ⟨ih, ihrest⟩

/-- A text in which nothing is marked does without the extra words. -/
theorem narrow {symbol : Symbol} {text : List Char} (h : Derives (words ++ extra) symbol text)
    (hclean : Clean mark text) : Derives words symbol text := by
  have hsegment : ∀ {symbol text}, Derives (words ++ extra) symbol text → Segment text :=
    fun h => h.segment m.plain
  induction h with
  | word h =>
      rcases List.mem_append.mp h with hword | hextra
      · exact .word hword
      · obtain ⟨c, hc, hmarked⟩ := m.extra _ hextra
        have hunmarked := (clean_plain (m.plain _ h)).mp hclean c hc
        rw [hmarked] at hunmarked
        contradiction
  | number h => exact .number h
  | str h => exact .str h
  | emptyArray h => exact .emptyArray h
  | array h ih =>
      rw [m.clean_after (by decide), m.clean_before (by decide) (hsegment h)] at hclean
      exact .array (ih hclean)
  | emptyObject h => exact .emptyObject h
  | object h ih =>
      rw [m.clean_after (by decide), m.clean_before (by decide) (hsegment h)] at hclean
      exact .object (ih hclean)
  | element hbefore h hafter ih =>
      rw [clean_append hbefore.segment, clean_append (hsegment h)] at hclean
      exact .element hbefore (ih hclean.2.1) hafter
  | lastElement _ ih => exact .lastElement (ih hclean)
  | elements h _ ih ihrest =>
      rw [clean_append (hsegment h), m.clean_after (by decide)] at hclean
      exact .elements (ih hclean.1) (ihrest hclean.2)
  | member hbefore hkey hafter _ ih =>
      rw [clean_append hbefore.segment, clean_append (.str hkey), clean_append hafter.segment,
        m.clean_after (by decide)] at hclean
      exact .member hbefore hkey hafter (ih hclean.2.2.2)
  | lastMember _ ih => exact .lastMember (ih hclean)
  | members h _ ih ihrest =>
      rw [clean_append (hsegment h), m.clean_after (by decide)] at hclean
      exact .members (ih hclean.1) (ihrest hclean.2)

/-- A text of the wider grammar is one of the narrower if and only if no marked character
stands outside its strings. -/
theorem text_iff {text : List Char} (h : Text (words ++ extra) text) :
    Text words text ↔ Clean mark text :=
  ⟨fun h => m.clean h, fun hclean => m.narrow h hclean⟩

end Marking

end Marking

end NotifyRelay.JsonText
