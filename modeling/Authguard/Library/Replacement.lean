import Mathlib

/-!
Replacing marks in a text, one mark after the other or all of them at once. A text is
read once into tokens, the occurrences of the marks and the items between them; the
marks after each other give what all at once give when, at each turn, the mark stands
only where the text as it was read has it.
-/

namespace Authguard.Replacement

variable {α : Type} [DecidableEq α]

/-- Every occurrence of the mark from the left, none overlapping the one before; the first
argument counts the items of an occurrence that are still to be passed over. -/
def replaceFrom (mark value : List α) : Nat → List α → List α
  | _, [] => []
  | skip + 1, _ :: items => replaceFrom mark value skip items
  | 0, item :: items =>
      if mark <+: item :: items then value ++ replaceFrom mark value (mark.length - 1) items
      else item :: replaceFrom mark value 0 items

def replaceAll (mark value : List α) (text : List α) : List α := replaceFrom mark value 0 text

inductive Token (α : Type)
  | item (a : α)
  | slot (mark : List α)
  deriving DecidableEq

/-- The first of the marks that stands at each place. -/
def scanFrom (marks : List (List α)) : Nat → List α → List (Token α)
  | _, [] => []
  | skip + 1, _ :: items => scanFrom marks skip items
  | 0, item :: items =>
      match marks.find? fun mark => decide (mark <+: item :: items) with
      | some mark => .slot mark :: scanFrom marks (mark.length - 1) items
      | none => .item item :: scanFrom marks 0 items

def scan (marks : List (List α)) (text : List α) : List (Token α) := scanFrom marks 0 text

/-- A slot whose mark is not in the table stays as it is. -/
def Token.fill (table : List (List α × List α)) : Token α → List α
  | .item a => [a]
  | .slot mark => (table.lookup mark).getD mark

def fill (table : List (List α × List α)) (tokens : List (Token α)) : List α :=
  tokens.flatMap (Token.fill table)

/-- All marks of the table at once. -/
def substitute (table : List (List α × List α)) (text : List α) : List α :=
  fill table (scan (table.map Prod.fst) text)

/-- The marks of the table one after the other. -/
def replaceEach (table : List (List α × List α)) (text : List α) : List α :=
  table.foldl (fun text entry => replaceAll entry.1 entry.2 text) text

/-! Occurrences. -/

section
variable {mark value : List α}

theorem replaceFrom_skip (skip : Nat) (text : List α) :
    replaceFrom mark value skip text = replaceAll mark value (text.drop skip) := by
  induction text generalizing skip with
  | nil =>
      cases skip with
      | zero => rfl
      | succ skip => rfl
  | cons item items ih =>
      cases skip with
      | zero => rfl
      | succ skip => rw [replaceFrom, ih, List.drop_succ_cons]

theorem replaceAll_mark (hmark : mark ≠ []) (rest : List α) :
    replaceAll mark value (mark ++ rest) = value ++ replaceAll mark value rest := by
  cases mark with
  | nil => exact absurd rfl hmark
  | cons first others =>
      rw [replaceAll, List.cons_append, replaceFrom, if_pos ⟨rest, rfl⟩, replaceFrom_skip,
        List.length_cons, Nat.add_sub_cancel, List.drop_left]

/-- Items at which no occurrence begins are copied. -/
theorem replaceAll_append {start rest : List α}
    (h : ∀ before after, start ++ rest = before ++ mark ++ after → start.length ≤ before.length) :
    replaceAll mark value (start ++ rest) = start ++ replaceAll mark value rest := by
  induction start with
  | nil => rfl
  | cons item items ih =>
      have hno : ¬mark <+: item :: (items ++ rest) := by
        rintro ⟨after, hafter⟩
        have hlength := h [] after (by rw [List.nil_append, hafter]; rfl)
        simp at hlength
      rw [List.cons_append, replaceAll, replaceFrom, if_neg hno, List.cons_append]
      congr 1
      refine ih fun before after hsplit => ?_
      have hlength := h (item :: before) after (by rw [List.cons_append, hsplit]; rfl)
      simpa using hlength

end

/-! Reading a text. -/

theorem scanFrom_skip (marks : List (List α)) (skip : Nat) (text : List α) :
    scanFrom marks skip text = scan marks (text.drop skip) := by
  induction text generalizing skip with
  | nil =>
      cases skip with
      | zero => rfl
      | succ skip => rfl
  | cons item items ih =>
      cases skip with
      | zero => rfl
      | succ skip => rw [scanFrom, ih, List.drop_succ_cons]

/-- The tokens are the text. -/
theorem fill_nil_scan {marks : List (List α)} (hmarks : ∀ mark ∈ marks, mark ≠ [])
    (text : List α) : fill [] (scan marks text) = text := by
  induction hn : text.length using Nat.strong_induction_on generalizing text with
  | _ n ih =>
      cases text with
      | nil => rfl
      | cons item items =>
          rw [scan, scanFrom]
          cases hfind : marks.find? fun mark => decide (mark <+: item :: items) with
          | none =>
              have hrest := ih items.length (by simp [← hn]) items rfl
              simp only [fill, List.flatMap_cons] at hrest ⊢
              rw [← scan, hrest]
              rfl
          | some mark =>
              have hbegins : mark <+: item :: items := by
                simpa using List.find?_some hfind
              have hne := hmarks mark (List.mem_of_find?_eq_some hfind)
              obtain ⟨rest, hrest⟩ := hbegins
              cases mark with
              | nil => exact absurd rfl hne
              | cons first others =>
                  rw [List.cons_append, List.cons.injEq] at hrest
                  obtain ⟨rfl, rfl⟩ := hrest
                  have hlater := ih rest.length (by simp [← hn]) rest rfl
                  simp only [fill, List.flatMap_cons] at hlater ⊢
                  rw [scanFrom_skip, List.length_cons, Nat.add_sub_cancel, List.drop_left, hlater]
                  rfl

/-! One mark after the other. -/

/-- The mark stands in the text only where the tokens have a slot for it. -/
def Own (table : List (List α × List α)) (mark : List α) (tokens : List (Token α))
    (text : List α) : Prop :=
  ∀ before after, text = before ++ mark ++ after →
    ∃ earlier later, tokens = earlier ++ .slot mark :: later ∧ fill table earlier = before

section
variable {table : List (List α × List α)} {mark value : List α} {tokens : List (Token α)}

theorem fill_cons (token : Token α) :
    fill table (token :: tokens) = token.fill table ++ fill table tokens := by
  rw [fill, List.flatMap_cons, fill]

theorem Own.tail {token : Token α} (hmark : mark ≠ [])
    (h : Own table mark (token :: tokens) (fill table (token :: tokens)))
    (hslot : token = .slot mark → token.fill table = mark) :
    Own table mark tokens (fill table tokens) := by
  intro before after hsplit
  obtain ⟨earlier, later, htokens, hbefore⟩ := h (token.fill table ++ before) after (by
    rw [fill_cons, hsplit]
    simp only [List.append_assoc])
  cases earlier with
  | nil =>
      obtain ⟨rfl, -⟩ := List.cons.inj htokens
      have hnil := (List.append_eq_nil_iff.mp hbefore.symm).1
      exact absurd ((hslot rfl).symm.trans hnil) hmark
  | cons head earlier =>
      obtain ⟨rfl, rfl⟩ := List.cons.inj htokens
      rw [fill_cons, List.append_cancel_left_eq] at hbefore
      exact ⟨earlier, later, rfl, hbefore⟩

/-- An occurrence that is a slot does not begin inside another token. -/
theorem Own.not_inside {token : Token α} (hne : token ≠ .slot mark)
    (h : Own table mark (token :: tokens) (fill table (token :: tokens))) (before after : List α)
    (hsplit : token.fill table ++ fill table tokens = before ++ mark ++ after) :
    (token.fill table).length ≤ before.length := by
  obtain ⟨earlier, later, htokens, rfl⟩ := h before after (by rw [fill_cons, hsplit])
  cases earlier with
  | nil =>
      obtain ⟨rfl, -⟩ := List.cons.inj htokens
      exact absurd rfl hne
  | cons head earlier =>
      obtain ⟨rfl, rfl⟩ := List.cons.inj htokens
      rw [fill_cons, List.length_append]
      omega

theorem Token.fill_concat_ne {token : Token α} (hne : token ≠ .slot mark) :
    token.fill (table ++ [(mark, value)]) = token.fill table := by
  cases token with
  | item a => rfl
  | slot other =>
      have hother : other ≠ mark := fun heq => hne (by rw [heq])
      have hbeq : (other == mark) = false := beq_eq_false_iff_ne.mpr hother
      simp [Token.fill, List.lookup_append, List.lookup_cons, hbeq]

theorem replaceAll_fill (hmark : mark ≠ []) (hnew : table.lookup mark = none)
    (h : Own table mark tokens (fill table tokens)) :
    replaceAll mark value (fill table tokens) = fill (table ++ [(mark, value)]) tokens := by
  induction tokens with
  | nil => rfl
  | cons token tokens ih =>
      have hslot : (Token.slot mark).fill table = mark := by
        simp [Token.fill, hnew]
      have hrest := ih (h.tail hmark fun heq => by rw [heq, hslot])
      rw [fill_cons, fill_cons]
      by_cases htoken : token = .slot mark
      · rw [htoken, hslot, replaceAll_mark hmark, hrest]
        simp [Token.fill, List.lookup_append, hnew]
      · rw [replaceAll_append (h.not_inside htoken), hrest, Token.fill_concat_ne htoken]

end

section
variable (table : List (List α × List α)) (text : List α)

/-- At each turn the mark stands only where the text, as it was read, has it. -/
def NeverRescans : Prop :=
  ∀ done mark value rest, table = done ++ (mark, value) :: rest →
    Own done mark (scan (table.map Prod.fst) text) (replaceEach done text)

/-- The same, said of the text with the marks before already filled in at once. -/
def Separate : Prop :=
  ∀ done mark value rest, table = done ++ (mark, value) :: rest →
    Own done mark (scan (table.map Prod.fst) text) (fill done (scan (table.map Prod.fst) text))

variable {table text} (hmarks : ∀ mark ∈ table.map Prod.fst, mark ≠ [])
  (hnodup : (table.map Prod.fst).Nodup)
include hmarks hnodup

/-- The texts of the two readings of a turn agree as long as the turns before were clean. -/
theorem replaceEach_eq_fill
    (h : ∀ done mark value rest, table = done ++ (mark, value) :: rest →
      replaceEach done text = fill done (scan (table.map Prod.fst) text) →
      Own done mark (scan (table.map Prod.fst) text) (fill done (scan (table.map Prod.fst) text)))
    {done rest : List (List α × List α)} (hsplit : table = done ++ rest) :
    replaceEach done text = fill done (scan (table.map Prod.fst) text) := by
  induction done using List.reverseRecOn generalizing rest with
  | nil => exact (fill_nil_scan hmarks text).symm
  | append_singleton done entry ih =>
      obtain ⟨mark, value⟩ := entry
      have hsplit' : table = done ++ (mark, value) :: rest := by
        rw [hsplit, List.append_assoc, List.singleton_append]
      have hdone := ih hsplit'
      have hmem : mark ∈ table.map Prod.fst := by
        rw [hsplit']
        simp
      have hnew : done.lookup mark = none := by
        rw [List.lookup_eq_none_iff]
        intro entry hentry
        rw [hsplit', List.map_append, List.nodup_append] at hnodup
        have hne := hnodup.2.2 entry.1 (List.mem_map_of_mem hentry) mark (by simp)
        simpa using hne.symm
      rw [replaceEach, List.foldl_append, List.foldl_cons, List.foldl_nil, ← replaceEach, hdone]
      exact replaceAll_fill (hmarks mark hmem) hnew (h done mark value rest hsplit' hdone)

theorem replaceEach_eq_substitute (h : Separate table text) :
    replaceEach table text = substitute table text :=
  replaceEach_eq_fill hmarks hnodup (fun done mark value rest hsplit _ => h done mark value rest hsplit)
    (List.append_nil table).symm

theorem neverRescans_iff : NeverRescans table text ↔ Separate table text := by
  constructor
  · intro h done mark value rest hsplit
    have hclean : ∀ done mark value rest, table = done ++ (mark, value) :: rest →
        replaceEach done text = fill done (scan (table.map Prod.fst) text) →
        Own done mark (scan (table.map Prod.fst) text)
          (fill done (scan (table.map Prod.fst) text)) := by
      intro done mark value rest hsplit heq
      rw [← heq]
      exact h done mark value rest hsplit
    exact hclean done mark value rest hsplit (replaceEach_eq_fill hmarks hnodup hclean hsplit)
  · intro h done mark value rest hsplit
    have hdone := replaceEach_eq_fill hmarks hnodup
      (fun done mark value rest hsplit _ => h done mark value rest hsplit) hsplit
    rw [hdone]
    exact h done mark value rest hsplit

end

end Authguard.Replacement
