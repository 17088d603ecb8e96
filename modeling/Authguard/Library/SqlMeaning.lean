import Mathlib
import Authguard.Library.SqlText

/-!
Meaning of SQL conditions over rows with NULLs, and the rules that compose it.
`Means row level text params truth` says that the text has a reading of the given
precedence whose value on the row is `truth` once exactly `params` have been bound
to its placeholders, whatever parameters follow.
-/

namespace Authguard.Sql

/-- A missing value is NULL. -/
abbrev Row := String → Option String

/-- LIKE without an escape character: `%` stands for any text, `_` for one character. -/
def likeList : List Char → List Char → Bool
  | [], text => text.isEmpty
  | c :: pattern, text =>
      if c = '%' then text.tails.any fun suffix => likeList pattern suffix
      else match text with
        | [] => false
        | d :: text => (c == '_' || c == d) && likeList pattern text

def like (pattern text : String) : Bool := likeList pattern.toList text.toList

def kleeneNot : Option Bool → Option Bool := Option.map (!·)

def kleeneAnd : Option Bool → Option Bool → Option Bool
  | some false, _ | _, some false => some false
  | some true, some true => some true
  | _, _ => none

def kleeneOr : Option Bool → Option Bool → Option Bool
  | some true, _ | _, some true => some true
  | some false, some false => some false
  | _, _ => none

@[simp] theorem kleeneAnd_some (a b : Bool) :
    kleeneAnd (some a) (some b) = some (a && b) := by
  cases a <;> cases b <;> rfl

@[simp] theorem kleeneOr_some (a b : Bool) :
    kleeneOr (some a) (some b) = some (a || b) := by
  cases a <;> cases b <;> rfl

/-- Truth value and the parameters left over; `none` when a placeholder is unbound. -/
def Cond.eval (row : Row) : Cond → List String → Option (Option Bool × List String)
  | .numbers a b, params => some (some (a == b), params)
  | .equals _, [] | .like _, [] => none
  | .equals c, p :: params => some ((row c).map (· == p), params)
  | .like c, p :: params => some ((row c).map (Sql.like p), params)
  | .not c, params =>
      (c.eval row params).map fun r => (kleeneNot r.1, r.2)
  | .and c d, params =>
      (c.eval row params).bind fun r =>
        (d.eval row r.2).map fun q => (kleeneAnd r.1 q.1, q.2)
  | .or c d, params =>
      (c.eval row params).bind fun r =>
        (d.eval row r.2).map fun q => (kleeneOr r.1 q.1, q.2)

/-- The row is selected: the text is a condition, every parameter is bound to a
placeholder, and the value is TRUE rather than FALSE or NULL. -/
def satisfies (row : Row) (text : String) (params : List String) : Bool :=
  match read text with
  | none => false
  | some c => c.eval row params == some (some true, [])

/-- A name a lexer reads back as one identifier. -/
structure IsName (name : String) : Prop where
  plain : ∀ c ∈ name.toList, isSeparator c = false
  word : classify name.toList = .word name

theorem isName_of_check {name : String}
    (h : (name.toList.all (!isSeparator ·) && classify name.toList == .word name) = true) :
    IsName name := by
  rw [Bool.and_eq_true, beq_iff_eq, List.all_eq_true] at h
  refine ⟨?_, h.2⟩
  intro c hc
  simpa using h.1 c hc

theorem IsName.ne_nil {name : String} (h : IsName name) : name.toList ≠ [] := by
  intro hnil
  have := h.word
  simp [hnil, classify] at this

theorem lexFrom_separator (w xs ys : List Char) (c : Char) (hc : isSeparator c = true) :
    lexFrom w (xs ++ c :: ys) = lexFrom w xs ++ lexFrom [] (c :: ys) := by
  induction xs generalizing w with
  | nil =>
      simp only [List.nil_append, lexFrom]
      by_cases hs : c = ' '
      · simp [hs, flush]
      · cases ht : symbol c with
        | none => simp [isSeparator, hs, ht] at hc
        | some t => simp [hs, flush]
  | cons x xs ih =>
      simp only [List.cons_append, lexFrom]
      by_cases hs : x = ' '
      · simp [hs, ih, lexFrom]
      · cases ht : symbol x with
        | none => simp [hs, ih, lexFrom]
        | some t => simp [hs, ih, lexFrom]

theorem lexFrom_plain (w xs : List Char) (h : ∀ c ∈ xs, isSeparator c = false) :
    lexFrom w xs = flush (w ++ xs) := by
  induction xs generalizing w with
  | nil => simp [lexFrom]
  | cons x xs ih =>
      have hx := h x List.mem_cons_self
      simp only [isSeparator, Bool.or_eq_false_iff, beq_eq_false_iff_ne, ne_eq,
        Option.isSome_eq_false_iff, Option.isNone_iff_eq_none] at hx
      simp only [lexFrom, hx.1, hx.2, ite_false]
      rw [ih _ fun c hc => h c (List.mem_cons_of_mem _ hc)]
      simp

theorem IsName.lex {name : String} (h : IsName name) : Sql.lex name = [.word name] := by
  rw [Sql.lex, lexFrom_plain _ _ h.plain]
  simp [flush, h.ne_nil, h.word]

theorem lex_space (s t : String) : lex (s ++ " " ++ t) = lex s ++ lex t := by
  have hsep := lexFrom_separator [] s.toList t.toList ' ' (by decide)
  simpa [lex, lexFrom, flush] using hsep

/-- A word between two spaces is a token of its own. -/
theorem lex_between (s t keyword spaced : String)
    (hspaced : spaced.toList = ' ' :: keyword.toList ++ [' ']) :
    lex (s ++ spaced ++ t) = lex s ++ (lex keyword ++ lex t) := by
  have htext : s ++ spaced ++ t = s ++ " " ++ (keyword ++ " " ++ t) := by
    rw [← String.toList_inj]
    simp [hspaced]
  rw [htext, lex_space, lex_space]

theorem lex_paren (s : String) : lex ("(" ++ s ++ ")") = .lpar :: lex s ++ [.rpar] := by
  have hsep := lexFrom_separator [] s.toList [] ')' (by decide)
  simpa [lex, lexFrom, flush, symbol] using hsep

def Means (row : Row) (level : Level) (text : String) (params : List String)
    (truth : Bool) : Prop :=
  ∃ c, Reads level (lex text) c ∧
    ∀ more, c.eval row (params ++ more) = some (some truth, more)

namespace Means

variable {row : Row} {text other : String} {params more : List String} {truth truth' : Bool}

theorem satisfies_eq (h : Means row .disj text params truth) :
    satisfies row text params = truth := by
  obtain ⟨c, hr, he⟩ := h
  have he := he []
  rw [List.append_nil] at he
  simp only [satisfies, read_of_reads hr, he]
  cases truth <;> rfl

theorem equals {name value p : String} (hn : IsName name) (hv : row name = some value) :
    Means row .atom (name ++ " = ?") [p] (value == p) := by
  refine ⟨.equals name, ?_, fun more => by simp [Cond.eval, hv]⟩
  have htext : name ++ " = ?" = name ++ " " ++ "= ?" := by
    rw [← String.toList_inj]
    simp
  rw [htext, lex_space, hn.lex]
  exact .equals name

theorem like {name value p : String} (hn : IsName name) (hv : row name = some value) :
    Means row .atom (name ++ " LIKE ?") [p] (Sql.like p value) := by
  refine ⟨.like name, ?_, fun more => by simp [Cond.eval, hv]⟩
  have htext : name ++ " LIKE ?" = name ++ " " ++ "LIKE ?" := by
    rw [← String.toList_inj]
    simp
  rw [htext, lex_space, hn.lex]
  exact .like name

theorem never : Means row .atom "0=1" [] false :=
  ⟨.numbers 0 1, .numbers 0 1, fun more => by simp [Cond.eval]⟩

theorem always : Means row .atom "1=1" [] true :=
  ⟨.numbers 1 1, .numbers 1 1, fun more => by simp [Cond.eval]⟩

theorem paren (h : Means row .disj text params truth) :
    Means row .atom ("(" ++ text ++ ")") params truth := by
  obtain ⟨c, hr, he⟩ := h
  refine ⟨c, ?_, he⟩
  rw [lex_paren]
  exact .paren hr

theorem ofAtom (h : Means row .atom text params truth) :
    Means row .neg text params truth :=
  let ⟨c, hr, he⟩ := h
  ⟨c, .ofAtom hr, he⟩

theorem ofNeg (h : Means row .neg text params truth) :
    Means row .conj text params truth :=
  let ⟨c, hr, he⟩ := h
  ⟨c, .ofNeg hr, he⟩

theorem ofConj (h : Means row .conj text params truth) :
    Means row .disj text params truth :=
  let ⟨c, hr, he⟩ := h
  ⟨c, .ofConj hr, he⟩

theorem not (h : Means row .neg text params truth) :
    Means row .neg ("NOT " ++ text) params (!truth) := by
  obtain ⟨c, hr, he⟩ := h
  refine ⟨.not c, ?_, fun more => by simp [Cond.eval, he, kleeneNot]⟩
  have htext : "NOT " ++ text = "NOT" ++ " " ++ text := rfl
  rw [htext, lex_space]
  exact .not hr

theorem and (h : Means row .neg text params truth)
    (h' : Means row .conj other more truth') :
    Means row .conj (text ++ " AND " ++ other) (params ++ more) (truth && truth') := by
  obtain ⟨c, hr, he⟩ := h
  obtain ⟨d, hr', he'⟩ := h'
  refine ⟨.and c d, ?_, fun rest => by simp [Cond.eval, he, he']⟩
  rw [lex_between text other "AND" " AND " (by decide)]
  exact .and hr hr'

theorem or (h : Means row .conj text params truth)
    (h' : Means row .disj other more truth') :
    Means row .disj (text ++ " OR " ++ other) (params ++ more) (truth || truth') := by
  obtain ⟨c, hr, he⟩ := h
  obtain ⟨d, hr', he'⟩ := h'
  refine ⟨.or c d, ?_, fun rest => by simp [Cond.eval, he, he']⟩
  rw [lex_between text other "OR" " OR " (by decide)]
  exact .or hr hr'

end Means

/-- A list of clauses with the parameters of all of them, read as one conjunction. -/
inductive Clauses (row : Row) : List String → List String → Bool → Prop
  | nil : Clauses row [] [] true
  | cons {text params truth texts more truth'} : Means row .atom text params truth →
      Clauses row texts more truth' →
      Clauses row (text :: texts) (params ++ more) (truth && truth')

namespace Clauses

variable {row : Row} {texts : List String} {params : List String} {truth : Bool}

theorem snoc {text : String} {more : List String} {truth' : Bool}
    (h : Clauses row texts params truth) (hm : Means row .atom text more truth') :
    Clauses row (texts ++ [text]) (params ++ more) (truth && truth') := by
  induction h with
  | nil =>
      have hone := Clauses.cons hm .nil
      simpa using hone
  | cons hfirst _ ih =>
      have hrest := Clauses.cons hfirst ih
      simpa [List.append_assoc, Bool.and_assoc] using hrest

theorem join (h : Clauses row texts params truth) (hne : texts ≠ []) :
    Means row .conj (" AND ".intercalate texts) params truth := by
  induction h with
  | nil => exact absurd rfl hne
  | @cons text params truth texts more truth' hfirst _ ih =>
      cases texts with
      | nil =>
          rename_i hnil
          cases hnil
          simpa using hfirst.ofAtom.ofNeg
      | cons next texts =>
          rw [String.intercalate_cons_cons]
          exact Means.and hfirst.ofAtom (ih (by simp))

end Clauses

/-- Parenthesised alternatives joined with OR. -/
theorem Means.alternatives {α : Type} {row : Row} (text : α → String)
    (params : α → List String) (truth : α → Bool) (items : List α) (hne : items ≠ [])
    (h : ∀ a ∈ items, Means row .disj (text a) (params a) (truth a)) :
    Means row .disj (" OR ".intercalate (items.map fun a => "(" ++ text a ++ ")"))
      (items.flatMap params) (items.any truth) := by
  induction items with
  | nil => exact absurd rfl hne
  | cons a items ih =>
      have hfirst := (h a List.mem_cons_self).paren.ofAtom.ofNeg
      cases items with
      | nil => simpa using hfirst.ofConj
      | cons b items =>
          have hrest := ih (by simp) fun c hc => h c (List.mem_cons_of_mem _ hc)
          rw [List.map_cons, List.map_cons, String.intercalate_cons_cons]
          exact hfirst.or hrest

theorem Means.truth_of_always {row : Row} {params : List String} {truth : Bool}
    (h : Means row .disj "1=1" params truth) : truth = true ∧ params = [] := by
  obtain ⟨c, hr, he⟩ := h
  have hread : read "1=1" = some (.numbers 1 1) := by decide
  rw [read_of_reads hr, Option.some.injEq] at hread
  have hvalue := he []
  simp only [hread, Cond.eval, List.append_nil, Option.some.injEq, Prod.mk.injEq] at hvalue
  exact ⟨by simpa using hvalue.1.symm, hvalue.2⟩

/-! Placeholders of a text, whether or not it can be read. -/

def marks (text : String) : Nat := text.toList.count '?'

@[simp] theorem marks_append (s t : String) : marks (s ++ t) = marks s + marks t := by
  simp [marks]

theorem marks_intercalate (sep : String) (hsep : marks sep = 0) (texts : List String) :
    marks (sep.intercalate texts) = (texts.map marks).sum := by
  induction texts with
  | nil => rfl
  | cons text texts ih =>
      cases texts with
      | nil => simp
      | cons next texts =>
          rw [String.intercalate_cons_cons, marks_append, marks_append, hsep, ih]
          simp

theorem mem_tails_append (p t : List Char) : t ∈ (p ++ t).tails := by
  rw [List.mem_tails]
  exact List.suffix_append p t

/-- Every character of a pattern, special or not, matches itself. -/
theorem likeList_append (p pattern text : List Char) (h : likeList pattern text = true) :
    likeList (p ++ pattern) (p ++ text) = true := by
  induction p with
  | nil => exact h
  | cons c p ih =>
      simp only [List.cons_append, likeList]
      split
      · rw [List.any_eq_true]
        exact ⟨p ++ text, mem_tails_append [c] (p ++ text), ih⟩
      · simp [ih]

theorem likeList_percent (text : List Char) : likeList ['%'] text = true := by
  simp only [likeList, ite_true, List.any_eq_true]
  exact ⟨[], by simp [List.mem_tails], rfl⟩

end Authguard.Sql
