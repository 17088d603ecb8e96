import Authguard.Library.Pieces

/-!
Search filters of LDAP as they are written in RFC 4515. A text is related to the
filters it is made of, one after another. No text is written for two filters: the
parentheses end what they begin, because values have theirs escaped.
-/

namespace Authguard.LdapFilter

/-! Names (RFC 4512). -/

def isKeychar (c : Char) : Bool := c.isAlpha || c.isDigit || c = '-'

def isKeystring : List Char → Bool
  | [] => false
  | c :: cs => c.isAlpha && cs.all isKeychar

def isNumber (cs : List Char) : Bool :=
  cs ≠ [] && cs.all Char.isDigit && (cs = ['0'] || cs.head? ≠ some '0')

def isNumericoid (cs : List Char) : Bool :=
  2 ≤ (cs.splitOn '.').length && (cs.splitOn '.').all isNumber

def isOid (cs : List Char) : Bool := isKeystring cs || isNumericoid cs

def isOption (cs : List Char) : Bool := cs ≠ [] && cs.all isKeychar

/-- A type and its options. -/
def isAttributeDescription (cs : List Char) : Bool :=
  match cs.splitOn ';' with
  | [] => false
  | type :: options => isOid type && options.all isOption

/-! Values. -/

def hexDigit (c : Char) : Option Nat :=
  if c.isDigit then some (c.toNat - '0'.toNat)
  else if 'a' ≤ c ∧ c ≤ 'f' then some (c.toNat - 'a'.toNat + 10)
  else if 'A' ≤ c ∧ c ≤ 'F' then some (c.toNat - 'A'.toNat + 10)
  else none

/-- What stands in a value only where it is escaped. -/
def isReserved (c : Char) : Bool := c ∈ ['\x00', '(', ')', '*', '\\']

/-- The octets of an assertion value. -/
def decodeValue : List Char → Option (List UInt8)
  | [] => some []
  | '\\' :: high :: low :: rest =>
      (hexDigit high).bind fun high => (hexDigit low).bind fun low =>
        (decodeValue rest).map (UInt8.ofNat (16 * high + low) :: ·)
  | c :: rest =>
      if isReserved c then none
      else (decodeValue rest).map (String.utf8EncodeChar c ++ ·)

/-- The octets of a text. -/
def octets (text : String) : List UInt8 := text.toList.flatMap String.utf8EncodeChar

/-! Filters. -/

inductive Relation
  | equal
  | approx
  | greaterOrEqual
  | lessOrEqual
  deriving DecidableEq

def Relation.symbol : Relation → List Char
  | .equal => ['=']
  | .approx => ['~', '=']
  | .greaterOrEqual => ['>', '=']
  | .lessOrEqual => ['<', '=']

/-- What is asserted of an attribute; a first or last part that is absent is empty. -/
inductive Assertion
  | comparison (relation : Relation) (value : List UInt8)
  | present
  | substring (initial : List UInt8) (any : List (List UInt8)) (final : List UInt8)
  | extensible (dnAttributes : Bool) (rule : Option (List Char)) (value : List UInt8)
  deriving DecidableEq

/-- Only a matching rule can do without an attribute. -/
inductive Filter
  | and (filters : List Filter)
  | or (filters : List Filter)
  | not (filter : Filter)
  | item (attr : Option (List Char)) (assertion : Assertion)

/-- The mark that asks for the attributes of the name, too. -/
def isDnMark (name : List Char) : Bool := name.map Char.toLower = ['d', 'n']

/-- The names between an attribute and `:=`: a mark, and a matching rule. One name behind an
attribute is the mark, if it can be. -/
inductive ExtensibleNames (attr : Option (List Char)) :
    List (List Char) → Bool → Option (List Char) → Prop
  | bare : attr ≠ none → ExtensibleNames attr [] false none
  | marked {mark : List Char} : attr ≠ none → isDnMark mark →
      ExtensibleNames attr [mark] true none
  | ruled {rule : List Char} : isOid rule → (attr = none ∨ isDnMark rule = false) →
      ExtensibleNames attr [rule] false (some rule)
  | both {mark rule : List Char} : isDnMark mark → isOid rule →
      ExtensibleNames attr [mark, rule] true (some rule)

/-- What is written behind an attribute. -/
inductive WrittenAssertion (attr : Option (List Char)) : List Char → Assertion → Prop
  | comparison (relation : Relation) {text : List Char} {value : List UInt8} :
      attr ≠ none → decodeValue text = some value →
      WrittenAssertion attr (relation.symbol ++ text) (.comparison relation value)
  | present : attr ≠ none → WrittenAssertion attr ['=', '*'] .present
  | substring {initial final : List Char} {any : List (List Char)} {first last : List UInt8}
      {values : List (List UInt8)} :
      attr ≠ none → decodeValue initial = some first → decodeValue final = some last →
      List.Forall₂ (fun text value => decodeValue text = some value) any values →
      (initial = [] → any = [] → final ≠ []) →
      WrittenAssertion attr
        ('=' :: (initial ++ '*' :: (any.flatMap (· ++ ['*']) ++ final)))
        (.substring first values last)
  | extensible {names : List (List Char)} {dnAttributes : Bool} {rule : Option (List Char)}
      {text : List Char} {value : List UInt8} :
      ExtensibleNames attr names dnAttributes rule → decodeValue text = some value →
      WrittenAssertion attr (names.flatMap (':' :: ·) ++ ':' :: '=' :: text)
        (.extensible dnAttributes rule value)

/-- The text is the filters, one after another. -/
inductive Written : List Char → List Filter → Prop
  | nil : Written [] []
  | and {text rest : List Char} {children filters : List Filter} :
      Written text children → children ≠ [] → Written rest filters →
      Written ('(' :: '&' :: text ++ ')' :: rest) (.and children :: filters)
  | or {text rest : List Char} {children filters : List Filter} :
      Written text children → children ≠ [] → Written rest filters →
      Written ('(' :: '|' :: text ++ ')' :: rest) (.or children :: filters)
  | not {text rest : List Char} {child : Filter} {filters : List Filter} :
      Written text [child] → Written rest filters →
      Written ('(' :: '!' :: text ++ ')' :: rest) (.not child :: filters)
  | item {attr : Option (List Char)} {text rest : List Char} {assertion : Assertion}
      {filters : List Filter} :
      (∀ name, attr = some name → isAttributeDescription name = true) →
      WrittenAssertion attr text assertion → Written rest filters →
      Written ('(' :: (attr.getD [] ++ text) ++ ')' :: rest)
        (.item attr assertion :: filters)

/-! Values that are escaped. -/

/-- What a character is escaped as. -/
def EscapedAs (c : Char) (piece : List Char) : Prop :=
  if isReserved c then
    ∃ high low highValue lowValue, piece = ['\\', high, low] ∧ hexDigit high = some highValue ∧
      hexDigit low = some lowValue ∧ 16 * highValue + lowValue = c.toNat
  else
    piece = [c]

/-- Reserved characters are escaped, and no others. -/
def Escapes (escape : String → String) : Prop :=
  ∀ text, ∃ pieces, List.Forall₂ EscapedAs text.toList pieces ∧
    (escape text).toList = pieces.flatten

theorem decodeValue_plain {c : Char} (hc : isReserved c = false) (rest : List Char) :
    decodeValue (c :: rest) = (decodeValue rest).map (String.utf8EncodeChar c ++ ·) := by
  have hne : c ≠ '\\' := by
    rintro rfl
    exact absurd hc (by decide)
  rw [decodeValue.eq_def]
  split
  · rename_i h
    cases h
  · rename_i h
    cases h
    exact absurd rfl hne
  · rename_i h
    cases h
    rw [hc, if_neg Bool.false_ne_true]

theorem utf8_reserved {c : Char} (hc : isReserved c = true) :
    String.utf8EncodeChar c = [UInt8.ofNat c.toNat] := by
  simp only [isReserved, List.mem_cons, List.not_mem_nil, or_false, decide_eq_true_eq] at hc
  obtain rfl | rfl | rfl | rfl | rfl := hc <;> decide

theorem decodeValue_escaped {cs : List Char} {pieces : List (List Char)}
    (h : List.Forall₂ EscapedAs cs pieces) :
    decodeValue pieces.flatten = some (cs.flatMap String.utf8EncodeChar) := by
  induction h with
  | nil => rfl
  | @cons c piece cs pieces hpiece _ ih =>
      rw [EscapedAs] at hpiece
      split at hpiece
      · rename_i hreserved
        obtain ⟨high, low, highValue, lowValue, rfl, hhigh, hlow, hvalue⟩ := hpiece
        rw [List.flatten_cons, List.cons_append, List.cons_append, List.cons_append,
          List.nil_append, decodeValue, hhigh, hlow, Option.bind_some, Option.bind_some, ih, hvalue,
          List.flatMap_cons, utf8_reserved hreserved]
        rfl
      · rename_i hplain
        obtain rfl := hpiece
        rw [List.flatten_cons, List.singleton_append,
          decodeValue_plain (Bool.eq_false_iff.mpr hplain), ih]
        rfl

theorem Escapes.decode {escape : String → String} (h : Escapes escape) (text : String) :
    decodeValue (escape text).toList = some (octets text) := by
  obtain ⟨pieces, hpieces, hescaped⟩ := h text
  rw [hescaped]
  exact decodeValue_escaped hpieces

/-! Where the parts of a text end. -/

/-- Characters of one kind end at the first of another kind. -/
theorem run_unique {p : Char → Prop} {first other rest tail : List Char} {c d : Char}
    (hfirst : ∀ c ∈ first, p c) (hother : ∀ c ∈ other, p c) (hc : ¬p c) (hd : ¬p d)
    (h : first ++ c :: rest = other ++ d :: tail) : first = other ∧ c :: rest = d :: tail := by
  induction first generalizing other with
  | nil =>
      cases other with
      | nil => exact ⟨rfl, h⟩
      | cons o other =>
          obtain ⟨rfl, -⟩ := List.cons.inj h
          exact absurd (hother c List.mem_cons_self) hc
  | cons f first ih =>
      rw [List.forall_mem_cons] at hfirst
      cases other with
      | nil =>
          obtain ⟨rfl, -⟩ := List.cons.inj h
          exact absurd hfirst.1 hd
      | cons o other =>
          rw [List.forall_mem_cons] at hother
          obtain ⟨rfl, htails⟩ := List.cons.inj h
          obtain ⟨rfl, hrest⟩ := ih hfirst.2 hother.2 htails
          exact ⟨rfl, hrest⟩

theorem hexDigit_plain {c : Char} {value : Nat} (h : hexDigit c = some value) :
    isReserved c = false := by
  by_contra hreserved
  rw [Bool.not_eq_false, isReserved, decide_eq_true_eq] at hreserved
  simp only [List.mem_cons, List.not_mem_nil, or_false] at hreserved
  obtain rfl | rfl | rfl | rfl | rfl := hreserved <;> cases h

/-- A value has no parenthesis and no asterisk that is not escaped. -/
theorem decodeValue_free {text : List Char} {value : List UInt8}
    (h : decodeValue text = some value) : ∀ c ∈ text, c ≠ '(' ∧ c ≠ ')' ∧ c ≠ '*' := by
  have hplain : ∀ c, isReserved c = false → c ≠ '(' ∧ c ≠ ')' ∧ c ≠ '*' := by
    intro c hc
    refine ⟨?_, ?_, ?_⟩ <;> rintro rfl <;> exact absurd hc (by decide)
  fun_induction decodeValue text generalizing value with
  | case1 => nofun
  | case2 high low rest ih =>
      obtain ⟨highValue, hhigh, h⟩ := Option.bind_eq_some_iff.mp h
      obtain ⟨lowValue, hlow, h⟩ := Option.bind_eq_some_iff.mp h
      obtain ⟨tail, htail, -⟩ := Option.map_eq_some_iff.mp h
      simp only [List.forall_mem_cons]
      exact ⟨by decide, hplain _ (hexDigit_plain hhigh), hplain _ (hexDigit_plain hlow), ih htail⟩
  | case3 c rest hne hreserved => cases h
  | case4 c rest hne hreserved ih =>
      obtain ⟨tail, htail, -⟩ := Option.map_eq_some_iff.mp h
      exact List.forall_mem_cons.mpr ⟨hplain c (Bool.eq_false_iff.mpr hreserved), ih htail⟩

/-- What names are made of. -/
def IsNameChar (c : Char) : Prop := (isKeychar c || c = '.' || c = ';') = true

theorem nameChar_of_keychar {c : Char} (h : isKeychar c = true) : IsNameChar c := by
  rw [IsNameChar, h]
  rfl

theorem not_nameChar_colon : ¬IsNameChar ':' := Bool.false_ne_true

theorem isOid_chars {cs : List Char} (h : isOid cs = true) : cs ≠ [] ∧ ∀ c ∈ cs, IsNameChar c := by
  rw [isOid, Bool.or_eq_true] at h
  obtain h | h := h
  · cases cs with
    | nil => cases h
    | cons c cs =>
        rw [isKeystring, Bool.and_eq_true, List.all_eq_true] at h
        refine ⟨List.cons_ne_nil c cs, List.forall_mem_cons.mpr ⟨nameChar_of_keychar ?_, ?_⟩⟩
        · rw [isKeychar, h.1]
          rfl
        · exact fun c hc => nameChar_of_keychar (h.2 c hc)
  · rw [isNumericoid, Bool.and_eq_true, List.all_eq_true] at h
    obtain ⟨hlength, hnumbers⟩ := h
    refine ⟨?_, fun c hc => ?_⟩
    · rintro rfl
      exact absurd hlength (by decide)
    · by_cases hdot : c = '.'
      · rw [hdot]
        rfl
      · obtain ⟨piece, hpiece, hmem⟩ := (Pieces.mem_piece_iff '.').mpr ⟨hc, hdot⟩
        have hnumber := hnumbers piece hpiece
        rw [isNumber, Bool.and_eq_true, Bool.and_eq_true, List.all_eq_true] at hnumber
        refine nameChar_of_keychar ?_
        rw [isKeychar, hnumber.1.2 c hmem]
        simp

theorem isAttributeDescription_chars {cs : List Char} (h : isAttributeDescription cs = true) :
    cs ≠ [] ∧ ∀ c ∈ cs, IsNameChar c := by
  rw [isAttributeDescription] at h
  cases hpieces : cs.splitOn ';' with
  | nil => exact absurd hpieces (List.splitOn_ne_nil ';' cs)
  | cons type options =>
      simp only [hpieces, Bool.and_eq_true, List.all_eq_true] at h
      obtain ⟨htype, hoptions⟩ := h
      refine ⟨?_, fun c hc => ?_⟩
      · rintro rfl
        obtain ⟨rfl, -⟩ := List.cons.inj hpieces
        cases htype
      · by_cases hsemi : c = ';'
        · rw [hsemi]
          rfl
        · obtain ⟨piece, hpiece, hmem⟩ := (Pieces.mem_piece_iff ';').mpr ⟨hc, hsemi⟩
          rw [hpieces, List.mem_cons] at hpiece
          obtain rfl | hoption := hpiece
          · exact (isOid_chars htype).2 c hmem
          · have hchars := hoptions piece hoption
            rw [isOption, Bool.and_eq_true, List.all_eq_true] at hchars
            exact nameChar_of_keychar (hchars.2 c hmem)

theorem isDnMark_chars {cs : List Char} (h : isDnMark cs = true) :
    cs ≠ [] ∧ ∀ c ∈ cs, IsNameChar c := by
  rw [isDnMark, decide_eq_true_eq] at h
  refine ⟨?_, fun c hc => ?_⟩
  · rintro rfl
    cases h
  · have hlower : c.toLower ∈ ['d', 'n'] := h ▸ List.mem_map_of_mem hc
    refine nameChar_of_keychar ?_
    by_cases hupper : c.isUpper = true
    · rw [isKeychar, Char.isAlpha, hupper]
      simp
    · have hsame : c.toLower = c := by
        rw [Char.toLower, dif_neg]
        simpa [Char.isUpper] using hupper
      rw [hsame] at hlower
      simp only [List.mem_cons, List.not_mem_nil, or_false] at hlower
      obtain rfl | rfl := hlower <;> decide

theorem ExtensibleNames.chars {attr : Option (List Char)} {names : List (List Char)} {dn : Bool}
    {rule : Option (List Char)} (h : ExtensibleNames attr names dn rule) :
    ∀ name ∈ names, name ≠ [] ∧ ∀ c ∈ name, IsNameChar c := by
  cases h with
  | bare _ => nofun
  | marked _ hmark => simpa using isDnMark_chars hmark
  | ruled hrule _ => simpa using isOid_chars hrule
  | both hmark hrule =>
      simp only [List.forall_mem_cons]
      exact ⟨isDnMark_chars hmark, isOid_chars hrule, nofun⟩

/-! No text is written for two filters. -/

theorem ExtensibleNames.unique {attr : Option (List Char)} {names : List (List Char)}
    {dn dn' : Bool} {rule rule' : Option (List Char)} (h : ExtensibleNames attr names dn rule)
    (h' : ExtensibleNames attr names dn' rule') : dn = dn' ∧ rule = rule' := by
  cases h with
  | bare _ =>
      cases h'
      exact ⟨rfl, rfl⟩
  | marked hattr hmark =>
      cases h' with
      | marked _ _ => exact ⟨rfl, rfl⟩
      | ruled _ hother =>
          obtain hnone | hrule := hother
          · exact absurd hnone hattr
          · rw [hmark] at hrule
            cases hrule
  | ruled _ hother =>
      cases h' with
      | ruled _ _ => exact ⟨rfl, rfl⟩
      | marked hattr hmark =>
          obtain hnone | hrule := hother
          · exact absurd hnone hattr
          · rw [hmark] at hrule
            cases hrule
  | both _ _ =>
      cases h'
      exact ⟨rfl, rfl⟩

theorem names_colon (names : List (List Char)) (text : List Char) :
    ∃ tail, names.flatMap (':' :: ·) ++ ':' :: '=' :: text = ':' :: tail := by
  cases names with
  | nil => exact ⟨_, rfl⟩
  | cons name names => exact ⟨_, rfl⟩

theorem names_unique {names names' : List (List Char)} {text text' : List Char}
    (hnames : ∀ name ∈ names, name ≠ [] ∧ ∀ c ∈ name, IsNameChar c)
    (hnames' : ∀ name ∈ names', name ≠ [] ∧ ∀ c ∈ name, IsNameChar c)
    (h : names.flatMap (':' :: ·) ++ ':' :: '=' :: text =
      names'.flatMap (':' :: ·) ++ ':' :: '=' :: text') : names = names' ∧ text = text' := by
  have hstart : ∀ {name : List Char} {tail other : List Char}, name ≠ [] →
      (∀ c ∈ name, IsNameChar c) → '=' :: tail ≠ name ++ other := by
    rintro (_ | ⟨c, name⟩) tail other hne hchars heq
    · exact hne rfl
    · obtain ⟨rfl, -⟩ := List.cons.inj heq
      cases hchars '=' List.mem_cons_self
  induction names generalizing names' with
  | nil =>
      cases names' with
      | nil => exact ⟨rfl, (List.cons.inj (List.cons.inj h).2).2⟩
      | cons name names' =>
          rw [List.forall_mem_cons] at hnames'
          rw [List.flatMap_cons, List.append_assoc] at h
          exact absurd (List.cons.inj h).2 (hstart hnames'.1.1 hnames'.1.2)
  | cons name names ih =>
      rw [List.forall_mem_cons] at hnames
      rw [List.flatMap_cons, List.append_assoc] at h
      cases names' with
      | nil => exact absurd (List.cons.inj h).2.symm (hstart hnames.1.1 hnames.1.2)
      | cons name' names' =>
          rw [List.forall_mem_cons] at hnames'
          rw [List.flatMap_cons, List.append_assoc] at h
          obtain ⟨tail, htail⟩ := names_colon names text
          obtain ⟨tail', htail'⟩ := names_colon names' text'
          have hruns := (List.cons.inj h).2
          rw [htail, htail'] at hruns
          obtain ⟨rfl, hrest⟩ := run_unique hnames.1.2 hnames'.1.2 not_nameChar_colon
            not_nameChar_colon hruns
          rw [← htail, ← htail'] at hrest
          obtain ⟨rfl, rfl⟩ := ih hnames.2 hnames'.2 hrest
          exact ⟨rfl, rfl⟩

theorem parts_unique {any any' : List (List Char)} {final final' : List Char}
    (hany : ∀ part ∈ any, ∀ c ∈ part, c ≠ '*') (hany' : ∀ part ∈ any', ∀ c ∈ part, c ≠ '*')
    (hfinal : ∀ c ∈ final, c ≠ '*') (hother : ∀ c ∈ final', c ≠ '*')
    (h : any.flatMap (· ++ ['*']) ++ final = any'.flatMap (· ++ ['*']) ++ final') :
    any = any' ∧ final = final' := by
  have hexpand : ∀ (part : List Char) (parts : List (List Char)) (last : List Char),
      (part :: parts).flatMap (· ++ ['*']) ++ last =
        part ++ '*' :: (parts.flatMap (· ++ ['*']) ++ last) := by
    simp
  induction any generalizing any' with
  | nil =>
      cases any' with
      | nil => exact ⟨rfl, h⟩
      | cons part any' =>
          rw [hexpand, List.flatMap_nil, List.nil_append] at h
          exact absurd rfl (hfinal '*' (by simp [h]))
  | cons part any ih =>
      rw [hexpand] at h
      cases any' with
      | nil =>
          rw [List.flatMap_nil, List.nil_append] at h
          exact absurd rfl (hother '*' (by simp [← h]))
      | cons part' any' =>
          rw [hexpand] at h
          rw [List.forall_mem_cons] at hany hany'
          obtain ⟨rfl, hrest⟩ := run_unique hany.1 hany'.1 (not_not.mpr rfl) (not_not.mpr rfl) h
          obtain ⟨rfl, rfl⟩ := ih hany.2 hany'.2 (List.cons.inj hrest).2
          exact ⟨rfl, rfl⟩

section
variable {attr : Option (List Char)} {text text' : List Char} {assertion assertion' : Assertion}

theorem comparison_text {relation : Relation} {c : Char} {rest : List Char}
    (h : relation.symbol ++ text = c :: rest) :
    c ≠ ':' ∧ (c = '=' → relation = .equal ∧ text = rest) := by
  cases relation <;> obtain ⟨rfl, hrest⟩ := List.cons.inj h
  · exact ⟨by decide, fun _ => ⟨rfl, hrest⟩⟩
  all_goals exact ⟨by decide, fun heq => absurd heq (by decide)⟩

theorem symbol_unique {relation relation' : Relation}
    (h : relation.symbol ++ text = relation'.symbol ++ text') :
    relation = relation' ∧ text = text' := by
  cases relation <;> cases relation' <;> simp_all [Relation.symbol]

theorem values_unique {parts : List (List Char)} {values values' : List (List UInt8)}
    (h : List.Forall₂ (fun text value => decodeValue text = some value) parts values)
    (h' : List.Forall₂ (fun text value => decodeValue text = some value) parts values') :
    values = values' := by
  induction h generalizing values' with
  | nil =>
      cases h'
      rfl
  | cons hvalue _ ih =>
      cases h' with
      | cons hvalue' hvalues' =>
          rw [hvalue] at hvalue'
          rw [Option.some.inj hvalue', ih hvalues']

theorem parts_free {parts : List (List Char)} {values : List (List UInt8)}
    (h : List.Forall₂ (fun text value => decodeValue text = some value) parts values) :
    ∀ part ∈ parts, ∀ c ∈ part, c ≠ '(' ∧ c ≠ ')' ∧ c ≠ '*' := by
  induction h with
  | nil => nofun
  | cons hvalue _ ih => exact List.forall_mem_cons.mpr ⟨decodeValue_free hvalue, ih⟩

/-- A value has no asterisk, a presence and a substring do. -/
theorem comparison_unstarred {relation : Relation} {value : List UInt8} {rest : List Char}
    (hvalue : decodeValue text = some value) (hstar : '*' ∈ rest) :
    relation.symbol ++ text ≠ '=' :: rest := by
  intro h
  obtain ⟨-, rfl⟩ := (comparison_text h).2 rfl
  exact (decodeValue_free hvalue '*' hstar).2.2 rfl

theorem substring_not_present {initial final : List Char} {any : List (List Char)}
    {first : List UInt8} (hinitial : decodeValue initial = some first)
    (hsome : initial = [] → any = [] → final ≠ []) :
    ['*'] ≠ initial ++ '*' :: (any.flatMap (· ++ ['*']) ++ final) := by
  intro h
  obtain ⟨rfl, hrest⟩ := run_unique (p := (· ≠ '*')) (List.forall_mem_nil _)
    (fun c hc => (decodeValue_free hinitial c hc).2.2) (not_not.mpr rfl) (not_not.mpr rfl) h
  have hempty := List.append_eq_nil_iff.mp (List.cons.inj hrest).2.symm
  refine hsome rfl ?_ hempty.2
  cases any with
  | nil => rfl
  | cons part any => simp at hempty

theorem WrittenAssertion.unique (h : WrittenAssertion attr text assertion)
    (h' : WrittenAssertion attr text' assertion') (heq : text = text') : assertion = assertion' := by
  cases h with
  | comparison relation _ hvalue =>
      cases h' with
      | comparison relation' _ hvalue' =>
          obtain ⟨rfl, rfl⟩ := symbol_unique heq
          rw [hvalue] at hvalue'
          rw [Option.some.inj hvalue']
      | present _ => exact absurd heq (comparison_unstarred hvalue (by simp))
      | substring _ _ _ _ _ => exact absurd heq (comparison_unstarred hvalue (by simp))
      | extensible _ _ =>
          obtain ⟨tail, htail⟩ := names_colon _ _
          exact absurd rfl (comparison_text (heq.trans htail)).1
  | present _ =>
      cases h' with
      | comparison _ _ hvalue' => exact absurd heq.symm (comparison_unstarred hvalue' (by simp))
      | present _ => rfl
      | substring _ hinitial _ _ hsome =>
          exact absurd (List.cons.inj heq).2 (substring_not_present hinitial hsome)
      | extensible _ _ =>
          obtain ⟨tail, htail⟩ := names_colon _ _
          cases heq.trans htail
  | substring _ hinitial hfinal hany hsome =>
      cases h' with
      | comparison _ _ hvalue' => exact absurd heq.symm (comparison_unstarred hvalue' (by simp))
      | present _ =>
          exact absurd (List.cons.inj heq).2.symm (substring_not_present hinitial hsome)
      | substring _ hinitial' hfinal' hany' _ =>
          obtain ⟨rfl, hrest⟩ := run_unique (p := (· ≠ '*'))
            (fun c hc => (decodeValue_free hinitial c hc).2.2)
            (fun c hc => (decodeValue_free hinitial' c hc).2.2) (not_not.mpr rfl) (not_not.mpr rfl)
            (List.cons.inj heq).2
          obtain ⟨rfl, rfl⟩ := parts_unique (fun part hpart c hc => (parts_free hany part hpart c hc).2.2)
            (fun part hpart c hc => (parts_free hany' part hpart c hc).2.2)
            (fun c hc => (decodeValue_free hfinal c hc).2.2)
            (fun c hc => (decodeValue_free hfinal' c hc).2.2) (List.cons.inj hrest).2
          rw [hinitial] at hinitial'
          rw [hfinal] at hfinal'
          rw [Option.some.inj hinitial', Option.some.inj hfinal', values_unique hany hany']
      | extensible _ _ =>
          obtain ⟨tail, htail⟩ := names_colon _ _
          cases heq.trans htail
  | extensible hnames hvalue =>
      cases h' with
      | comparison _ _ hvalue' =>
          obtain ⟨tail, htail⟩ := names_colon _ _
          exact absurd rfl (comparison_text (heq.symm.trans htail)).1
      | present _ =>
          obtain ⟨tail, htail⟩ := names_colon _ _
          cases heq.symm.trans htail
      | substring _ _ _ _ _ =>
          obtain ⟨tail, htail⟩ := names_colon _ _
          cases heq.symm.trans htail
      | extensible hnames' hvalue' =>
          obtain ⟨rfl, rfl⟩ := names_unique hnames.chars hnames'.chars heq
          obtain ⟨rfl, rfl⟩ := hnames.unique hnames'
          rw [hvalue] at hvalue'
          rw [Option.some.inj hvalue']

theorem WrittenAssertion.starts (h : WrittenAssertion attr text assertion) :
    (attr = none → ∃ rest, text = ':' :: rest) ∧ ∃ c rest, text = c :: rest ∧ ¬IsNameChar c := by
  cases h with
  | comparison relation hattr _ =>
      refine ⟨fun hnone => absurd hnone hattr, ?_⟩
      cases relation <;> exact ⟨_, _, rfl, Bool.false_ne_true⟩
  | present hattr => exact ⟨fun hnone => absurd hnone hattr, '=', _, rfl, Bool.false_ne_true⟩
  | substring hattr _ _ _ _ =>
      exact ⟨fun hnone => absurd hnone hattr, '=', _, rfl, Bool.false_ne_true⟩
  | extensible _ _ =>
      obtain ⟨tail, htail⟩ := names_colon _ _
      exact ⟨fun _ => ⟨tail, htail⟩, ':', tail, htail, not_nameChar_colon⟩

theorem WrittenAssertion.free (h : WrittenAssertion attr text assertion) : ∀ c ∈ text, c ≠ ')' := by
  cases h with
  | comparison relation _ hvalue =>
      intro c hc
      obtain hsymbol | hc := List.mem_append.mp hc
      · rintro rfl
        cases relation <;> exact absurd hsymbol (by decide)
      · exact (decodeValue_free hvalue c hc).2.1
  | present _ => simp
  | substring _ hinitial hfinal hany _ =>
      have hparts := parts_free hany
      intro c hc
      simp only [List.mem_cons, List.mem_append, List.mem_flatMap, List.not_mem_nil, or_false] at hc
      obtain rfl | hc | rfl | ⟨part, hpart, hc | rfl⟩ | hc := hc
      · decide
      · exact (decodeValue_free hinitial c hc).2.1
      · decide
      · exact (hparts part hpart c hc).2.1
      · decide
      · exact (decodeValue_free hfinal c hc).2.1
  | extensible hnames hvalue =>
      intro c hc
      simp only [List.mem_cons, List.mem_append, List.mem_flatMap] at hc
      obtain ⟨name, hname, rfl | hc⟩ | rfl | rfl | hc := hc
      · decide
      · rintro rfl
        cases (hnames.chars name hname).2 ')' hc
      · decide
      · decide
      · exact (decodeValue_free hvalue c hc).2.1

/-- An item, with the attribute before its assertion. -/
def ItemText (attr : Option (List Char)) (assertion : Assertion) (text : List Char) : Prop :=
  ∃ asserted, (∀ name, attr = some name → isAttributeDescription name = true) ∧
    WrittenAssertion attr asserted assertion ∧ text = attr.getD [] ++ asserted

theorem ItemText.unique {attr' : Option (List Char)} (h : ItemText attr assertion text)
    (h' : ItemText attr' assertion' text) : attr = attr' ∧ assertion = assertion' := by
  obtain ⟨asserted, hname, hassertion, rfl⟩ := h
  obtain ⟨asserted', hname', hassertion', heq⟩ := h'
  have hchars : ∀ {attr : Option (List Char)},
      (∀ name, attr = some name → isAttributeDescription name = true) →
        ∀ c ∈ attr.getD [], IsNameChar c := by
    intro attr hname
    cases attr with
    | none => exact List.forall_mem_nil _
    | some name => exact (isAttributeDescription_chars (hname name rfl)).2
  obtain ⟨-, c, rest, rfl, hc⟩ := hassertion.starts
  obtain ⟨-, c', rest', rfl, hc'⟩ := hassertion'.starts
  obtain ⟨hattr, hrest⟩ := run_unique (hchars hname) (hchars hname') hc hc' heq
  have hsame : attr = attr' := by
    cases attr with
    | none =>
        cases attr' with
        | none => rfl
        | some name' =>
            exact absurd hattr.symm (isAttributeDescription_chars (hname' name' rfl)).1
    | some name =>
        cases attr' with
        | none => exact absurd hattr (isAttributeDescription_chars (hname name rfl)).1
        | some name' => exact congrArg some hattr
  subst hsame
  exact ⟨rfl, hassertion.unique hassertion' hrest⟩

theorem ItemText.starts (h : ItemText attr assertion text) :
    ∃ c rest, text = c :: rest ∧ (IsNameChar c ∨ c = ':') := by
  obtain ⟨asserted, hname, hassertion, rfl⟩ := h
  cases attr with
  | none =>
      obtain ⟨rest, rfl⟩ := hassertion.starts.1 rfl
      exact ⟨':', rest, rfl, .inr rfl⟩
  | some name =>
      obtain ⟨hne, hchars⟩ := isAttributeDescription_chars (hname name rfl)
      cases name with
      | nil => exact absurd rfl hne
      | cons c name => exact ⟨c, _, rfl, .inl (hchars c List.mem_cons_self)⟩

theorem ItemText.free (h : ItemText attr assertion text) : ∀ c ∈ text, c ≠ ')' := by
  obtain ⟨asserted, hname, hassertion, rfl⟩ := h
  intro c hc
  obtain hc | hc := List.mem_append.mp hc
  · cases attr with
    | none => cases hc
    | some name =>
        rintro rfl
        cases (isAttributeDescription_chars (hname name rfl)).2 ')' hc
  · exact hassertion.free c hc

end

/-- An item does not begin as the filters that are put together do. -/
theorem item_not_operator {attr : Option (List Char)} {assertion : Assertion}
    {text inner rest rest' : List Char} {operator : Char}
    (h : ItemText attr assertion text) (hoperator : operator ∈ ['&', '|', '!']) :
    text ++ ')' :: rest ≠ operator :: inner ++ ')' :: rest' := by
  intro heq
  obtain ⟨c, tail, rfl, hc⟩ := h.starts
  obtain ⟨rfl, -⟩ := List.cons.inj heq
  obtain hname | rfl := hc
  · simp only [List.mem_cons, List.not_mem_nil, or_false] at hoperator
    obtain rfl | rfl | rfl := hoperator <;> cases hname
  · exact absurd hoperator (by decide)

/-- What a pair of parentheses holds, before what follows it. -/
theorem enclosed_eq {inner inner' rest rest' tail tail' : List Char}
    (h : '(' :: inner ++ ')' :: rest ++ ')' :: tail =
      '(' :: inner' ++ ')' :: rest' ++ ')' :: tail') :
    inner ++ ')' :: (rest ++ ')' :: tail) = inner' ++ ')' :: (rest' ++ ')' :: tail') := by
  simpa using h

/-- Filters end where a parenthesis closes that none of them opened. -/
theorem Written.unique {text text' tail tail' : List Char} {filters filters' : List Filter}
    (h : Written text filters) (h' : Written text' filters')
    (heq : text ++ ')' :: tail = text' ++ ')' :: tail') :
    filters = filters' ∧ text = text' ∧ tail = tail' := by
  induction h generalizing text' filters' tail tail' with
  | nil =>
      cases h' with
      | nil => exact ⟨rfl, rfl, (List.cons.inj heq).2⟩
      | and _ _ _ | or _ _ _ | not _ _ | item _ _ _ => cases heq
  | and _ _ _ ihChildren ihRest =>
      cases h' with
      | nil => cases heq
      | and hchildren _ hrest =>
          obtain ⟨rfl, rfl, htails⟩ := ihChildren hchildren (List.cons.inj (enclosed_eq heq)).2
          obtain ⟨rfl, rfl, rfl⟩ := ihRest hrest htails
          exact ⟨rfl, rfl, rfl⟩
      | or _ _ _ | not _ _ => cases (List.cons.inj (enclosed_eq heq)).1
      | item hname hassertion _ =>
          exact absurd (enclosed_eq heq).symm
            (item_not_operator ⟨_, hname, hassertion, rfl⟩ (by decide))
  | or _ _ _ ihChildren ihRest =>
      cases h' with
      | nil => cases heq
      | or hchildren _ hrest =>
          obtain ⟨rfl, rfl, htails⟩ := ihChildren hchildren (List.cons.inj (enclosed_eq heq)).2
          obtain ⟨rfl, rfl, rfl⟩ := ihRest hrest htails
          exact ⟨rfl, rfl, rfl⟩
      | and _ _ _ | not _ _ => cases (List.cons.inj (enclosed_eq heq)).1
      | item hname hassertion _ =>
          exact absurd (enclosed_eq heq).symm
            (item_not_operator ⟨_, hname, hassertion, rfl⟩ (by decide))
  | not _ _ ihChild ihRest =>
      cases h' with
      | nil => cases heq
      | not hchild hrest =>
          obtain ⟨hsame, rfl, htails⟩ := ihChild hchild (List.cons.inj (enclosed_eq heq)).2
          obtain ⟨rfl, -⟩ := List.cons.inj hsame
          obtain ⟨rfl, rfl, rfl⟩ := ihRest hrest htails
          exact ⟨rfl, rfl, rfl⟩
      | and _ _ _ | or _ _ _ => cases (List.cons.inj (enclosed_eq heq)).1
      | item hname hassertion _ =>
          exact absurd (enclosed_eq heq).symm
            (item_not_operator ⟨_, hname, hassertion, rfl⟩ (by decide))
  | item hname hassertion _ ihRest =>
      have hitem : ItemText _ _ _ := ⟨_, hname, hassertion, rfl⟩
      cases h' with
      | nil => cases heq
      | and _ _ _ | or _ _ _ | not _ _ =>
          exact absurd (enclosed_eq heq) (item_not_operator hitem (by decide))
      | item hname' hassertion' hrest =>
          have hitem' : ItemText _ _ _ := ⟨_, hname', hassertion', rfl⟩
          obtain ⟨hsame, htails⟩ := run_unique (p := (· ≠ ')')) hitem.free hitem'.free
            (not_not.mpr rfl) (not_not.mpr rfl) (enclosed_eq heq)
          rw [hsame] at hitem
          obtain ⟨rfl, rfl⟩ := hitem.unique hitem'
          obtain ⟨rfl, rfl, rfl⟩ := ihRest hrest (List.cons.inj htails).2
          exact ⟨rfl, by rw [hsame], rfl⟩

/-- No text is written for two lists of filters. -/
theorem Written.determined {text : List Char} {filters filters' : List Filter}
    (h : Written text filters) (h' : Written text filters') : filters = filters' := by
  have hend : text ++ [')'] = text ++ [')'] := rfl
  exact (h.unique h' hend).1

/-- Filters that follow each other. -/
theorem Written.append {text text' : List Char} {filters filters' : List Filter}
    (h : Written text filters) (h' : Written text' filters') :
    Written (text ++ text') (filters ++ filters') := by
  induction h with
  | nil => exact h'
  | and hchildren hne _ _ ih => simpa using hchildren.and hne ih
  | or hchildren hne _ _ ih => simpa using hchildren.or hne ih
  | not hchild _ _ ih => simpa using hchild.not ih
  | item hname hassertion _ ih => simpa using Written.item hname hassertion ih

/-! The names a filter holds. -/

mutual
/-- The attributes that are named in a filter. -/
def Filter.names : Filter → List (List Char)
  | .and filters | .or filters => namesAll filters
  | .not filter => filter.names
  | .item attr _ => attr.toList

def Filter.namesAll : List Filter → List (List Char)
  | [] => []
  | filter :: filters => filter.names ++ namesAll filters
end

/-- Only attribute descriptions are written. -/
theorem Written.names_valid {text : List Char} {filters : List Filter} (h : Written text filters) :
    ∀ name ∈ Filter.namesAll filters, isAttributeDescription name = true := by
  induction h with
  | nil => nofun
  | and _ _ _ ihChildren ihRest | or _ _ _ ihChildren ihRest =>
      intro name hname
      obtain hname | hname := List.mem_append.mp hname
      · exact ihChildren name hname
      · exact ihRest name hname
  | not _ _ ihChild ihRest =>
      intro name hname
      obtain hname | hname := List.mem_append.mp hname
      · exact ihChild name (List.mem_append_left _ hname)
      · exact ihRest name hname
  | item hvalid _ _ ihRest =>
      intro name hname
      obtain hname | hname := List.mem_append.mp hname
      · exact hvalid name (Option.mem_toList.mp hname)
      · exact ihRest name hname

end Authguard.LdapFilter
