import Mathlib

/-!
JSON as it is written (RFC 8259), seen as lexemes: strings, which may be replaced,
and the characters between them. Whether lexemes are a JSON text does not depend on
what the strings hold, and a string may hold any characters that spell themselves.
-/

namespace Authguard.JsonText

/-! Strings. -/

def hexValue (c : Char) : Option Nat :=
  if c.isDigit then some (c.toNat - '0'.toNat)
  else if 'a' ≤ c ∧ c ≤ 'f' then some (c.toNat - 'a'.toNat + 10)
  else if 'A' ≤ c ∧ c ≤ 'F' then some (c.toNat - 'A'.toNat + 10)
  else none

/-- Four hexadecimal digits. -/
inductive CodeUnit : List Char → Nat → Prop
  | digits {a b c d : Char} {va vb vc vd : Nat} (ha : hexValue a = some va)
      (hb : hexValue b = some vb) (hc : hexValue c = some vc) (hd : hexValue d = some vd) :
      CodeUnit [a, b, c, d] (16 ^ 3 * va + 16 ^ 2 * vb + 16 * vc + vd)

def shortEscapes : List (Char × Char) :=
  [('"', '"'), ('\\', '\\'), ('/', '/'), ('b', '\x08'), ('f', '\x0c'), ('n', '\n'), ('r', '\r'),
    ('t', '\t')]

/-- The characters that need no escape. -/
def isPlain (c : Char) : Bool := 0x20 ≤ c.toNat && c ≠ '"' && c ≠ '\\'

/-- How a character may be spelled in a string. -/
inductive Spelled : List Char → Char → Prop
  | plain {c : Char} (h : isPlain c = true) : Spelled [c] c
  | short {e c : Char} (h : (e, c) ∈ shortEscapes) : Spelled ['\\', e] c
  | unicode {digits : List Char} {n : Nat} (h : CodeUnit digits n) (hvalid : n.isValidChar) :
      Spelled ('\\' :: 'u' :: digits) (Char.ofNat n)
  | pair {high low : List Char} {n m : Nat} (hhigh : CodeUnit high n) (hlow : CodeUnit low m)
      (hn : 0xD800 ≤ n ∧ n < 0xDC00) (hm : 0xDC00 ≤ m ∧ m < 0xE000) :
      Spelled ('\\' :: 'u' :: high ++ '\\' :: 'u' :: low)
        (Char.ofNat (0x10000 + 0x400 * (n - 0xD800) + (m - 0xDC00)))

/-- The raw characters of a string, and its value. -/
def Literal (raw value : List Char) : Prop :=
  ∃ pieces, List.Forall₂ Spelled pieces value ∧ raw = pieces.flatten

/-! Texts. -/

inductive Lexeme
  | plain (c : Char)
  | key (raw : List Char)
  | value (raw : List Char)

def Lexeme.text : Lexeme → List Char
  | .plain c => [c]
  | .key raw | .value raw => '"' :: raw ++ ['"']

/-- Other raw characters in the place of a value. -/
def Lexeme.mapValue (f : List Char → List Char) : Lexeme → Lexeme
  | .plain c => .plain c
  | .key raw => .key raw
  | .value raw => .value (f raw)

def Digits (cs : List Char) : Prop := cs ≠ [] ∧ ∀ c ∈ cs, c.isDigit = true

/-- A number. -/
def IsNumber (cs : List Char) : Prop :=
  ∃ sign int frac exp, cs = sign ++ int ++ frac ++ exp ∧ sign ∈ [[], ['-']] ∧
    (Digits int ∧ (int.head? = some '0' → int = ['0'])) ∧
    (frac = [] ∨ ∃ ds, frac = '.' :: ds ∧ Digits ds) ∧
    (exp = [] ∨ ∃ e mark ds, exp = e :: mark ++ ds ∧ e ∈ ['e', 'E'] ∧
      mark ∈ [[], ['+'], ['-']] ∧ Digits ds)

/-- A number or a name. -/
def IsAtom (cs : List Char) : Prop :=
  cs ∈ ["true".toList, "false".toList, "null".toList] ∨ IsNumber cs

def Blank (ls : List Lexeme) : Prop :=
  ∀ l ∈ ls, ∃ c ∈ [' ', '\t', '\n', '\r'], l = .plain c

/-- What a part of a text is. -/
inductive Part
  | value
  | elements
  | members

/-- The lexemes are of that part. -/
inductive Reads : Part → List Lexeme → Prop
  | atom {cs : List Char} (h : IsAtom cs) : Reads .value (cs.map .plain)
  | string (raw : List Char) : Reads .value [.value raw]
  | emptyArray {blank : List Lexeme} (h : Blank blank) :
      Reads .value (.plain '[' :: blank ++ [.plain ']'])
  | array {ls : List Lexeme} (h : Reads .elements ls) :
      Reads .value (.plain '[' :: ls ++ [.plain ']'])
  | emptyObject {blank : List Lexeme} (h : Blank blank) :
      Reads .value (.plain '\x7b' :: blank ++ [.plain '\x7d'])
  | object {ls : List Lexeme} (h : Reads .members ls) :
      Reads .value (.plain '\x7b' :: ls ++ [.plain '\x7d'])
  | padded {before ls after : List Lexeme} (hbefore : Blank before) (h : Reads .value ls)
      (hafter : Blank after) : Reads .value (before ++ ls ++ after)
  | element {ls : List Lexeme} (h : Reads .value ls) : Reads .elements ls
  | moreElements {ls rest : List Lexeme} (h : Reads .value ls) (hrest : Reads .elements rest) :
      Reads .elements (ls ++ .plain ',' :: rest)
  | member {before after ls : List Lexeme} (key : List Char) (hbefore : Blank before)
      (hafter : Blank after) (h : Reads .value ls) :
      Reads .members (before ++ .key key :: after ++ .plain ':' :: ls)
  | moreMembers {ls rest : List Lexeme} (h : Reads .members ls) (hrest : Reads .members rest) :
      Reads .members (ls ++ .plain ',' :: rest)

/-- The text is these lexemes, and a JSON text. -/
structure IsText (text : List Char) (ls : List Lexeme) : Prop where
  text_eq : text = ls.flatMap Lexeme.text
  reads : Reads .value ls
  literals : ∀ l ∈ ls, ∀ raw, l = .key raw ∨ l = .value raw → ∃ value, Literal raw value

/-! Strings that are put together. -/

theorem Literal.nil : Literal [] [] := ⟨[], .nil, rfl⟩

theorem Literal.append {raw raw' value value' : List Char} (h : Literal raw value)
    (h' : Literal raw' value') : Literal (raw ++ raw') (value ++ value') := by
  obtain ⟨pieces, hpieces, rfl⟩ := h
  obtain ⟨pieces', hpieces', rfl⟩ := h'
  exact ⟨pieces ++ pieces', List.rel_append hpieces hpieces', List.flatten_append.symm⟩

/-- Plain characters spell themselves. -/
theorem literal_plain {cs : List Char} (h : ∀ c ∈ cs, isPlain c = true) : Literal cs cs := by
  induction cs with
  | nil => exact .nil
  | cons c cs ih =>
      rw [List.forall_mem_cons] at h
      exact Literal.append ⟨[[c]], .cons (.plain h.1) .nil, rfl⟩ (ih h.2)

theorem Spelled.pos {piece : List Char} {c : Char} (h : Spelled piece c) : 0 < piece.length := by
  cases h <;> simp

theorem length_le_flatten {pieces : List (List Char)} {value : List Char}
    (h : List.Forall₂ Spelled pieces value) : value.length ≤ pieces.flatten.length := by
  induction h with
  | nil => exact le_rfl
  | cons hpiece _ ih =>
      rw [List.length_cons, List.flatten_cons, List.length_append]
      have hpos := hpiece.pos
      omega

theorem plain_of_length {pieces : List (List Char)} {value : List Char}
    (h : List.Forall₂ Spelled pieces value) (hlength : pieces.flatten.length ≤ value.length) :
    ∀ c ∈ value, isPlain c = true := by
  induction h with
  | nil => nofun
  | @cons piece c pieces value hpiece hpieces ih =>
      have hrest := length_le_flatten hpieces
      have hpos := hpiece.pos
      rw [List.length_cons, List.flatten_cons, List.length_append] at hlength
      refine List.forall_mem_cons.mpr ⟨?_, ih (by omega)⟩
      -- What is longer than a character is an escape, and costs the length it has too much.
      cases hpiece with
      | plain hc => exact hc
      | short _ | unicode _ _ | pair _ _ _ _ =>
          simp only [List.length_append, List.length_cons] at hlength
          omega

/-- Only plain characters spell themselves. -/
theorem plain_of_literal {cs : List Char} (h : Literal cs cs) : ∀ c ∈ cs, isPlain c = true := by
  obtain ⟨pieces, hpieces, hcs⟩ := h
  exact plain_of_length hpieces (le_of_eq (congrArg List.length hcs.symm))

theorem hexValue_not_brace {c : Char} {n : Nat} (h : hexValue c = some n) :
    c ≠ '\x7b' ∧ c ≠ '\x7d' := by
  constructor <;> rintro rfl <;> cases h

theorem CodeUnit.not_brace {digits : List Char} {n : Nat} (h : CodeUnit digits n) :
    ∀ c ∈ digits, c ≠ '\x7b' ∧ c ≠ '\x7d' := by
  cases h with
  | digits ha hb hc hd =>
      simp only [List.forall_mem_cons]
      exact ⟨hexValue_not_brace ha, hexValue_not_brace hb, hexValue_not_brace hc,
        hexValue_not_brace hd, nofun⟩

/-- A brace stands for itself. -/
theorem Spelled.brace {piece : List Char} {c d : Char} (h : Spelled piece c)
    (hd : d = '\x7b' ∨ d = '\x7d') (hmem : d ∈ piece) : piece = [d] := by
  have hne : d ≠ '\\' ∧ d ≠ 'u' := by
    obtain rfl | rfl := hd <;> decide
  have hdigits : ∀ {digits : List Char} {n : Nat}, CodeUnit digits n → d ∉ digits := by
    intro digits n hunit hdigit
    obtain rfl | rfl := hd
    · exact (hunit.not_brace _ hdigit).1 rfl
    · exact (hunit.not_brace _ hdigit).2 rfl
  cases h with
  | plain _ => rw [List.mem_singleton.mp hmem]
  | @short e _ hshort =>
      simp only [List.mem_cons, List.not_mem_nil, or_false] at hmem
      obtain rfl := hmem.resolve_left hne.1
      obtain rfl | rfl := hd <;> simp [shortEscapes] at hshort
  | unicode hunit _ =>
      simp only [List.mem_cons, hne.1, hne.2, false_or] at hmem
      exact absurd hmem (hdigits hunit)
  | pair hhigh hlow _ _ =>
      simp only [List.mem_append, List.mem_cons, hne.1, hne.2, false_or] at hmem
      obtain hmem | hmem := hmem
      · exact absurd hmem (hdigits hhigh)
      · exact absurd hmem (hdigits hlow)

theorem Spelled.single {c d : Char} (h : Spelled [d] c) : c = d := by
  generalize hpiece : [d] = piece at h
  cases h with
  | plain _ => exact (List.cons.inj hpiece).1.symm
  | short _ | unicode _ _ | pair _ _ _ _ => simp at hpiece

/-- A string comes apart at a brace. -/
theorem Literal.split {raw value first rest : List Char} {d : Char} (h : Literal raw value)
    (hd : d = '\x7b' ∨ d = '\x7d') (heq : raw = first ++ d :: rest) :
    ∃ before after, Literal first before ∧ Literal (d :: rest) after ∧ value = before ++ after := by
  obtain ⟨pieces, hpieces, rfl⟩ := h
  induction hpieces generalizing first with
  | nil => simp at heq
  | @cons piece c pieces value hpiece hpieces ih =>
      cases first with
      | nil => exact ⟨[], _, .nil, ⟨_, .cons hpiece hpieces, heq.symm⟩, rfl⟩
      | cons f first =>
          rw [List.flatten_cons, List.append_eq_append_iff] at heq
          obtain ⟨tail, hfirst, hrest⟩ | ⟨tail, hpiece', hrest⟩ := heq
          · obtain ⟨before, after, hbefore, hafter, rfl⟩ := ih hrest
            refine ⟨c :: before, after, ?_, hafter, rfl⟩
            rw [hfirst]
            exact Literal.append ⟨[piece], .cons hpiece .nil, (List.append_nil _).symm⟩ hbefore
          · cases tail with
            | nil =>
                have hrest' : pieces.flatten = [] ++ d :: rest := hrest.symm
                obtain ⟨before, after, hbefore, hafter, rfl⟩ := ih hrest'
                refine ⟨c :: before, after, ?_, hafter, rfl⟩
                rw [List.append_nil] at hpiece'
                have hfirst := Literal.append ⟨[piece], .cons hpiece .nil, (List.append_nil _).symm⟩
                  hbefore
                rwa [List.append_nil, hpiece'] at hfirst
            | cons e tail =>
                obtain ⟨rfl, -⟩ := List.cons.inj hrest
                have hone := hpiece.brace hd (hpiece' ▸ by simp)
                rw [hone] at hpiece'
                simp at hpiece'

/-- What stands behind a brace. -/
theorem Literal.tail {rest value : List Char} {d : Char} (h : Literal (d :: rest) value)
    (hd : d = '\x7b' ∨ d = '\x7d') : ∃ after, value = d :: after ∧ Literal rest after := by
  obtain ⟨pieces, hpieces, heq⟩ := h
  cases hpieces with
  | nil => simp at heq
  | @cons piece c pieces value hpiece hpieces =>
      cases piece with
      | nil => exact absurd hpiece.pos (by simp)
      | cons e piece =>
          rw [List.flatten_cons, List.cons_append] at heq
          obtain ⟨rfl, hrest⟩ := List.cons.inj heq
          obtain ⟨-, rfl⟩ := List.cons.inj (hpiece.brace hd List.mem_cons_self)
          obtain rfl := hpiece.single
          exact ⟨value, rfl, pieces, hpieces, by rw [hrest, List.nil_append]⟩

/-! A string is read in one way, up to its closing quotation mark. -/

theorem CodeUnit.unique {digits : List Char} {n m : Nat} (h : CodeUnit digits n)
    (h' : CodeUnit digits m) : n = m := by
  cases h with
  | digits ha hb hc hd =>
      cases h' with
      | digits ha' hb' hc' hd' =>
          rw [ha, Option.some.injEq] at ha'
          rw [hb, Option.some.injEq] at hb'
          rw [hc, Option.some.injEq] at hc'
          rw [hd, Option.some.injEq] at hd'
          rw [ha', hb', hc', hd']

theorem CodeUnit.append_inj {digits digits' rest rest' : List Char} {n m : Nat}
    (h : CodeUnit digits n) (h' : CodeUnit digits' m) (heq : digits ++ rest = digits' ++ rest') :
    n = m ∧ digits = digits' ∧ rest = rest' := by
  have hlength : digits.length = digits'.length := by
    cases h
    cases h'
    rfl
  obtain ⟨rfl, hrest⟩ := List.append_inj heq hlength
  exact ⟨h.unique h', rfl, hrest⟩

theorem isPlain_ne {c : Char} (h : isPlain c = true) : c ≠ '"' ∧ c ≠ '\\' := by
  simp only [isPlain, Bool.and_eq_true, decide_eq_true_eq] at h
  exact ⟨h.1.2, h.2⟩

/-- An escape begins with a backslash, and no spelling with a quotation mark. -/
theorem Spelled.head {piece : List Char} {c : Char} (h : Spelled piece c) :
    (piece = [c] ∧ isPlain c = true) ∨ ∃ e rest, piece = '\\' :: e :: rest := by
  cases h with
  | plain hc => exact .inl ⟨rfl, hc⟩
  | short _ | unicode _ _ | pair _ _ _ _ => exact .inr ⟨_, _, rfl⟩

theorem Spelled.not_quote {piece rest rest' : List Char} {c : Char} (h : Spelled piece c) :
    piece ++ rest ≠ '"' :: rest' := by
  intro heq
  obtain ⟨rfl, hc⟩ | ⟨e, tail, rfl⟩ := h.head
  · exact (isPlain_ne hc).1 (List.cons.inj heq).1
  · exact absurd (List.cons.inj heq).1 (by decide)

theorem shortEscapes_unique {e c d : Char} (h : (e, c) ∈ shortEscapes)
    (h' : (e, d) ∈ shortEscapes) : c = d := by
  have hall : ∀ pair ∈ shortEscapes, ∀ other ∈ shortEscapes, pair.1 = other.1 → pair.2 = other.2 := by
    decide
  exact hall _ h _ h' rfl

theorem shortEscapes_not_unicode {c : Char} : ('u', c) ∉ shortEscapes := by
  have hall : ∀ pair ∈ shortEscapes, pair.1 ≠ 'u' := by decide
  exact fun h => hall _ h rfl

/-- Of two spellings neither begins with the other. -/
theorem Spelled.unique {piece piece' rest rest' : List Char} {c d : Char} (h : Spelled piece c)
    (h' : Spelled piece' d) (heq : piece ++ rest = piece' ++ rest') :
    c = d ∧ piece = piece' ∧ rest = rest' := by
  cases h with
  | plain hc =>
      obtain ⟨rfl, -⟩ | ⟨e, tail, rfl⟩ := h'.head
      · obtain ⟨rfl, rfl⟩ := List.cons.inj heq
        exact ⟨rfl, rfl, rfl⟩
      · exact absurd (List.cons.inj heq).1 (isPlain_ne hc).2
  | short hshort =>
      cases h' with
      | plain hd => exact absurd (List.cons.inj heq).1.symm (isPlain_ne hd).2
      | short hshort' =>
          simp only [List.cons_append, List.nil_append, List.cons.injEq, true_and] at heq
          obtain ⟨rfl, rfl⟩ := heq
          exact ⟨shortEscapes_unique hshort hshort', rfl, rfl⟩
      | unicode _ _ | pair _ _ _ _ =>
          simp only [List.cons_append, List.nil_append, List.cons.injEq, true_and] at heq
          obtain ⟨rfl, -⟩ := heq
          exact absurd hshort shortEscapes_not_unicode
  | unicode hunit hvalid =>
      cases h' with
      | plain hd => exact absurd (List.cons.inj heq).1.symm (isPlain_ne hd).2
      | short hshort =>
          simp only [List.cons_append, List.cons.injEq, true_and] at heq
          obtain ⟨rfl, -⟩ := heq
          exact absurd hshort shortEscapes_not_unicode
      | unicode hunit' _ =>
          simp only [List.cons_append, List.cons.injEq, true_and] at heq
          obtain ⟨rfl, rfl, rfl⟩ := hunit.append_inj hunit' heq
          exact ⟨rfl, rfl, rfl⟩
      | pair hhigh _ hsurrogate _ =>
          simp only [List.cons_append, List.append_assoc, List.cons.injEq, true_and] at heq
          obtain ⟨rfl, -⟩ := hunit.append_inj hhigh heq
          simp only [Nat.isValidChar] at hvalid
          omega
  | pair hhigh hlow hsurrogate _ =>
      cases h' with
      | plain hd => exact absurd (List.cons.inj heq).1.symm (isPlain_ne hd).2
      | short hshort =>
          simp only [List.cons_append, List.cons.injEq, true_and] at heq
          obtain ⟨rfl, -⟩ := heq
          exact absurd hshort shortEscapes_not_unicode
      | unicode hunit hvalid =>
          simp only [List.cons_append, List.append_assoc, List.cons.injEq, true_and] at heq
          obtain ⟨rfl, -⟩ := hhigh.append_inj hunit heq
          simp only [Nat.isValidChar] at hvalid
          omega
      | pair hhigh' hlow' _ _ =>
          simp only [List.cons_append, List.append_assoc, List.cons.injEq, true_and] at heq
          obtain ⟨rfl, rfl, hrest⟩ := hhigh.append_inj hhigh' heq
          simp only [List.cons.injEq, true_and] at hrest
          obtain ⟨rfl, rfl, rfl⟩ := hlow.append_inj hlow' hrest
          exact ⟨rfl, rfl, rfl⟩

/-- A string with a value begins with the spelling of its first character. -/
theorem Literal.uncons {raw value : List Char} {c : Char} (h : Literal raw (c :: value)) :
    ∃ piece rest, Spelled piece c ∧ raw = piece ++ rest ∧ Literal rest value := by
  obtain ⟨pieces, hpieces, rfl⟩ := h
  obtain ⟨piece, others, hpiece, hothers, rfl⟩ := List.forall₂_cons_right_iff.mp hpieces
  exact ⟨piece, others.flatten, hpiece, rfl, others, hothers, rfl⟩

/-- The closing quotation mark of a string is found in one place. -/
theorem Literal.closes {raw raw' value value' rest rest' : List Char} (h : Literal raw value)
    (h' : Literal raw' value') (heq : raw ++ '"' :: rest = raw' ++ '"' :: rest') :
    raw = raw' ∧ rest = rest' := by
  induction value generalizing raw raw' value' with
  | nil =>
      obtain ⟨pieces, hpieces, rfl⟩ := h
      obtain rfl := List.forall₂_nil_right_iff.mp hpieces
      cases value' with
      | nil =>
          obtain ⟨pieces', hpieces', rfl⟩ := h'
          obtain rfl := List.forall₂_nil_right_iff.mp hpieces'
          exact ⟨rfl, (List.cons.inj heq).2⟩
      | cons d value' =>
          obtain ⟨piece, tail, hpiece, rfl, -⟩ := h'.uncons
          rw [List.append_assoc] at heq
          exact absurd heq.symm hpiece.not_quote
  | cons c value ih =>
      obtain ⟨piece, tail, hpiece, rfl, htail⟩ := h.uncons
      rw [List.append_assoc] at heq
      cases value' with
      | nil =>
          obtain ⟨pieces', hpieces', rfl⟩ := h'
          obtain rfl := List.forall₂_nil_right_iff.mp hpieces'
          exact absurd heq hpiece.not_quote
      | cons d value' =>
          obtain ⟨piece', tail', hpiece', rfl, htail'⟩ := h'.uncons
          rw [List.append_assoc] at heq
          obtain ⟨rfl, rfl, hrest⟩ := hpiece.unique hpiece' heq
          obtain ⟨rfl, rfl⟩ := ih htail htail' hrest
          exact ⟨rfl, rfl⟩

/-- A string that is read like another one first begins as that one. -/
theorem Literal.strip {raw before first value rest rest' : List Char} (hbefore : Literal before first)
    (h : Literal raw (first ++ value)) (heq : raw ++ rest = before ++ rest') :
    ∃ raw', Literal raw' value ∧ raw' ++ rest = rest' := by
  induction first generalizing raw before with
  | nil =>
      obtain ⟨pieces, hpieces, rfl⟩ := hbefore
      obtain rfl := List.forall₂_nil_right_iff.mp hpieces
      exact ⟨raw, h, heq⟩
  | cons c first ih =>
      obtain ⟨piece, tail, hpiece, rfl, htail⟩ := hbefore.uncons
      obtain ⟨piece', tail', hpiece', rfl, htail'⟩ := Literal.uncons h
      rw [List.append_assoc, List.append_assoc] at heq
      exact ih htail htail' (hpiece'.unique hpiece heq).2.2

/-- A text that is read as itself, character by character, is plain up to its first backslash. -/
theorem Literal.plain_of_same {text raw value rest rest' : List Char} (hslash : '\\' ∉ text)
    (h : Literal raw (text ++ value)) (heq : raw ++ rest = text ++ rest') :
    ∀ c ∈ text, isPlain c = true := by
  induction text generalizing raw with
  | nil => nofun
  | cons c text ih =>
      rw [List.mem_cons, not_or] at hslash
      obtain ⟨piece, tail, hpiece, rfl, htail⟩ := Literal.uncons h
      rw [List.append_assoc] at heq
      obtain ⟨rfl, hc⟩ | ⟨e, others, rfl⟩ := hpiece.head
      · exact List.forall_mem_cons.mpr ⟨hc, ih hslash.2 htail (List.cons.inj heq).2⟩
      · exact absurd (List.cons.inj heq).1 hslash.1

/-- Without backslashes a string is its value. -/
theorem Literal.eq_of_unescaped {raw value : List Char} (h : Literal raw value)
    (hslash : '\\' ∉ raw) : value = raw := by
  induction value generalizing raw with
  | nil =>
      obtain ⟨pieces, hpieces, rfl⟩ := h
      obtain rfl := List.forall₂_nil_right_iff.mp hpieces
      rfl
  | cons c value ih =>
      obtain ⟨piece, tail, hpiece, rfl, htail⟩ := h.uncons
      rw [List.mem_append, not_or] at hslash
      obtain ⟨rfl, -⟩ | ⟨e, others, rfl⟩ := hpiece.head
      · rw [ih htail hslash.2, List.singleton_append]
      · exact absurd List.mem_cons_self hslash.1

/-- A quotation mark in a spelling is that of its escape. -/
theorem Spelled.quote {piece : List Char} {c : Char} (h : Spelled piece c) (hmem : '"' ∈ piece) :
    piece = ['\\', '"'] ∧ c = '"' := by
  have hdigits : ∀ {digits : List Char} {n : Nat}, CodeUnit digits n → '"' ∉ digits := by
    intro digits n hunit hdigit
    cases hunit with
    | digits ha hb hc hd =>
        simp only [List.mem_cons, List.not_mem_nil, or_false] at hdigit
        obtain rfl | rfl | rfl | rfl := hdigit
        · cases ha
        · cases hb
        · cases hc
        · cases hd
  cases h with
  | plain hc => exact absurd (List.mem_singleton.mp hmem).symm (isPlain_ne hc).1
  | short hshort =>
      have he := (List.mem_cons.mp hmem).resolve_left (by decide)
      obtain rfl := List.mem_singleton.mp he
      exact ⟨rfl, shortEscapes_unique hshort List.mem_cons_self⟩
  | unicode hunit _ =>
      simp only [List.mem_cons, hdigits hunit, or_false] at hmem
      exact absurd hmem (by decide)
  | pair hhigh hlow _ _ =>
      simp only [List.mem_append, List.mem_cons, hdigits hhigh, hdigits hlow, or_false] at hmem
      exact absurd hmem (by decide)

/-- The first quotation mark of a string is one of its value, further ahead there. -/
theorem Literal.first_quote {raw value : List Char} (h : Literal raw value) (hmem : '"' ∈ raw) :
    ∃ before after first rest, value = before ++ '"' :: after ∧ raw = first ++ '"' :: rest ∧
      '"' ∉ first ∧ before.length < first.length := by
  induction value generalizing raw with
  | nil =>
      obtain ⟨pieces, hpieces, rfl⟩ := h
      obtain rfl := List.forall₂_nil_right_iff.mp hpieces
      exact absurd hmem List.not_mem_nil
  | cons c value ih =>
      obtain ⟨piece, tail, hpiece, rfl, htail⟩ := h.uncons
      by_cases hquote : '"' ∈ piece
      · obtain ⟨rfl, rfl⟩ := hpiece.quote hquote
        exact ⟨[], value, ['\\'], tail, rfl, rfl, by decide, Nat.zero_lt_one⟩
      · obtain ⟨before, after, first, rest, rfl, rfl, hfirst, hlength⟩ :=
          ih htail ((List.mem_append.mp hmem).resolve_left hquote)
        refine ⟨c :: before, after, piece ++ first, rest, rfl, by simp, ?_, ?_⟩
        · rw [List.mem_append, not_or]
          exact ⟨hquote, hfirst⟩
        · have hpos := hpiece.pos
          rw [List.length_cons, List.length_append]
          omega

/-- A text between quotation marks that is read as itself is plain: read further than the
text, its first quotation mark would stand before itself. -/
theorem Literal.plain_of_self {text raw rest rest' : List Char} (h : Literal raw text)
    (heq : raw ++ '"' :: rest = text ++ '"' :: rest') : ∀ c ∈ text, isPlain c = true := by
  have hle : text.length ≤ raw.length := by
    obtain ⟨pieces, hpieces, rfl⟩ := h
    exact length_le_flatten hpieces
  rw [List.append_eq_append_iff] at heq
  obtain ⟨more, rfl, hmore⟩ | ⟨more, rfl, hmore⟩ := heq
  · -- the string is not longer than the text
    have hnil : more = [] := by
      rw [List.length_append] at hle
      exact List.length_eq_zero_iff.mp (by omega)
    subst hnil
    rw [List.append_nil] at h ⊢
    exact plain_of_literal h
  · cases more with
    | nil =>
        rw [List.append_nil] at h
        exact plain_of_literal h
    | cons c more =>
        obtain ⟨rfl, -⟩ := List.cons.inj hmore
        obtain ⟨before, after, first, tail, htext, hraw, hfirst, hlength⟩ :=
          h.first_quote (by simp)
        rw [htext, List.append_assoc, List.cons_append] at hraw
        refine absurd ?_ hfirst
        have hget := congrArg (·[before.length]?) hraw
        simp only [List.getElem?_append_right (le_refl _), Nat.sub_self,
          List.getElem?_append_left hlength] at hget
        exact List.mem_of_getElem? hget.symm

/-! Other values in the place of those of a text. -/

section
variable {f : List Char → List Char}

theorem Blank.mapValue {ls : List Lexeme} (h : Blank ls) : ls.map (Lexeme.mapValue f) = ls := by
  refine (List.map_congr_left fun l hl => ?_).trans (List.map_id ls)
  obtain ⟨c, -, rfl⟩ := h l hl
  rfl

/-- What is read does not depend on the values of the strings. -/
theorem Reads.mapValue {part : Part} {ls : List Lexeme} (h : Reads part ls) :
    Reads part (ls.map (Lexeme.mapValue f)) := by
  induction h with
  | atom h =>
      rw [List.map_map]
      exact .atom h
  | string raw => exact .string (f raw)
  | emptyArray h =>
      simp only [List.map_cons, List.map_append, List.map_nil, Lexeme.mapValue, h.mapValue]
      exact .emptyArray h
  | array _ ih =>
      simp only [List.map_cons, List.map_append, List.map_nil, Lexeme.mapValue]
      exact .array ih
  | emptyObject h =>
      simp only [List.map_cons, List.map_append, List.map_nil, Lexeme.mapValue, h.mapValue]
      exact .emptyObject h
  | object _ ih =>
      simp only [List.map_cons, List.map_append, List.map_nil, Lexeme.mapValue]
      exact .object ih
  | padded hbefore _ hafter ih =>
      rw [List.map_append, List.map_append, hbefore.mapValue, hafter.mapValue]
      exact .padded hbefore ih hafter
  | element _ ih => exact .element ih
  | moreElements _ _ ih ihrest =>
      rw [List.map_append, List.map_cons]
      exact .moreElements ih ihrest
  | member key hbefore hafter _ ih =>
      simp only [List.map_cons, List.map_append, Lexeme.mapValue, hbefore.mapValue, hafter.mapValue]
      exact .member key hbefore hafter ih
  | moreMembers _ _ ih ihrest =>
      rw [List.map_append, List.map_cons]
      exact .moreMembers ih ihrest

theorem IsText.mapValue {text : List Char} {ls : List Lexeme} (h : IsText text ls)
    (hvalues : ∀ raw, .value raw ∈ ls → ∃ value, Literal (f raw) value) :
    IsText ((ls.map (Lexeme.mapValue f)).flatMap Lexeme.text) (ls.map (Lexeme.mapValue f)) where
  text_eq := rfl
  reads := h.reads.mapValue
  literals := by
    intro l hl raw hraw
    obtain ⟨original, horiginal, rfl⟩ := List.mem_map.mp hl
    cases original with
    | plain c => simp [Lexeme.mapValue] at hraw
    | key other => exact h.literals _ horiginal raw hraw
    | value other =>
        obtain rfl : f other = raw := by simpa [Lexeme.mapValue] using hraw
        exact hvalues other horiginal

end

/-! Braces. -/

def brace : Lexeme := .plain '\x7b'

/-- No two opening braces stand side by side. -/
def Apart (ls : List Lexeme) : Prop := ls.IsChain fun l l' => ¬(l = brace ∧ l' = brace)

theorem apart_of_free {ls : List Lexeme} (h : brace ∉ ls) : Apart ls := by
  induction ls with
  | nil => exact .nil
  | cons l ls ih =>
      rw [List.mem_cons, not_or] at h
      exact (ih h.2).cons fun _ _ hboth => h.1 hboth.1.symm

theorem Apart.append {ls rest : List Lexeme} (h : Apart ls) (hrest : Apart rest)
    (hhead : rest.head? ≠ some brace) : Apart (ls ++ rest) :=
  List.isChain_append.mpr ⟨h, hrest, fun _ _ _ hmem hboth => hhead (hboth.2 ▸ hmem)⟩

theorem Apart.cons {l : Lexeme} {ls : List Lexeme} (h : Apart ls)
    (hhead : l = brace → ls.head? ≠ some brace) : Apart (l :: ls) :=
  List.IsChain.cons h fun _ hmem hboth => hhead hboth.1 (hboth.2 ▸ hmem)

theorem Apart.after_free {ls before : List Lexeme} (h : Apart ls) (hbefore : brace ∉ before) :
    Apart (before ++ ls) := by
  induction before with
  | nil => exact h
  | cons l before ih =>
      rw [List.mem_cons, not_or] at hbefore
      exact (ih hbefore.2).cons fun hl => absurd hl.symm hbefore.1

theorem Blank.free {ls : List Lexeme} (h : Blank ls) : brace ∉ ls := by
  intro hmem
  obtain ⟨c, hc, heq⟩ := h _ hmem
  obtain rfl : '\x7b' = c := Lexeme.plain.inj heq
  simp at hc

theorem head_ne_of_free {ls : List Lexeme} (h : brace ∉ ls) : ls.head? ≠ some brace :=
  fun hhead => h (List.mem_of_head? hhead)

theorem Digits.free {cs : List Char} (h : Digits cs) : '\x7b' ∉ cs := fun hmem => by
  cases h.2 _ hmem

theorem IsAtom.free {cs : List Char} (h : IsAtom cs) : '\x7b' ∉ cs := by
  obtain h | ⟨sign, int, frac, exp, rfl, hsign, hint, hfrac, hexp⟩ := h
  · fin_cases h <;> decide
  · have hsign' : '\x7b' ∉ sign := by fin_cases hsign <;> decide
    have hfrac' : '\x7b' ∉ frac := by
      obtain rfl | ⟨ds, rfl, hds⟩ := hfrac
      · exact List.not_mem_nil
      · simpa using hds.free
    have hexp' : '\x7b' ∉ exp := by
      obtain rfl | ⟨e, mark, ds, rfl, he, hmark, hds⟩ := hexp
      · exact List.not_mem_nil
      · have hmark' : '\x7b' ∉ mark := by fin_cases hmark <;> decide
        fin_cases he <;> simp [hmark', hds.free]
    simp [hsign', hint.1.free, hfrac', hexp']

theorem Reads.apart {part : Part} {ls : List Lexeme} (h : Reads part ls) :
    Apart ls ∧ (part = .members → ls.head? ≠ some brace) := by
  induction h with
  | atom h =>
      refine ⟨apart_of_free fun hmem => ?_, nofun⟩
      obtain ⟨c, hc, heq⟩ := List.mem_map.mp hmem
      exact h.free (Lexeme.plain.inj heq ▸ hc)
  | string raw => exact ⟨.singleton _, nofun⟩
  | emptyArray h =>
      refine ⟨apart_of_free ?_, nofun⟩
      rw [List.cons_append, List.mem_cons, List.mem_append, not_or, not_or]
      exact ⟨by simp [brace], h.free, by simp [brace]⟩
  | array _ ih =>
      exact ⟨(ih.1.append (.singleton _) (by simp [brace])).cons (by simp [brace]), nofun⟩
  | @emptyObject blank h =>
      have hfree : brace ∉ blank ++ [.plain '\x7d'] := by
        rw [List.mem_append, not_or]
        exact ⟨h.free, by simp [brace]⟩
      exact ⟨(apart_of_free hfree).cons fun _ => head_ne_of_free hfree, nofun⟩
  | @object ls _ ih =>
      refine ⟨(ih.1.append (.singleton _) (by simp [brace])).cons fun _ => ?_, nofun⟩
      cases ls with
      | nil => simp [brace]
      | cons l ls => exact ih.2 rfl
  | padded hbefore _ hafter ih =>
      exact ⟨(ih.1.after_free hbefore.free).append (apart_of_free hafter.free)
        (head_ne_of_free hafter.free), nofun⟩
  | element _ ih => exact ⟨ih.1, nofun⟩
  | moreElements _ _ ih ihrest => exact ⟨ih.1.append (ihrest.1.cons (by simp [brace])) (by simp [brace]), nofun⟩
  | @member before after ls key hbefore hafter _ ih =>
      have hfree : brace ∉ before ++ .key key :: after := by
        rw [List.mem_append, List.mem_cons, not_or, not_or]
        exact ⟨hbefore.free, by simp [brace], hafter.free⟩
      refine ⟨(ih.1.cons (by simp [brace])).after_free hfree, fun _ => ?_⟩
      rw [List.head?_append_of_ne_nil _ (by simp)]
      exact head_ne_of_free hfree
  | @moreMembers ls rest _ _ ih ihrest =>
      refine ⟨ih.1.append (ihrest.1.cons (by simp [brace])) (by simp [brace]), fun _ => ?_⟩
      cases ls with
      | nil => simp [brace]
      | cons l ls => exact ih.2 rfl

end Authguard.JsonText
