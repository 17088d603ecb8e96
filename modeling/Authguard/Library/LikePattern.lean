import Mathlib

/-!
Patterns of `LIKE … ESCAPE '\'`. A text whose backslashes, percent signs and
underscores are escaped stands for itself alone, so that with a percent sign
behind it it stands for the texts it is a prefix of.
-/

namespace Authguard.LikePattern

/-- `%` stands for any text, `_` for one character, and what follows a backslash for itself. -/
def like : List Char → List Char → Bool
  | [], text => text.isEmpty
  | ['\\'], _ => false
  | '\\' :: c :: pattern, text =>
      match text with
      | [] => false
      | d :: text => c == d && like pattern text
  | '%' :: pattern, text => text.tails.any fun suffix => like pattern suffix
  | '_' :: pattern, text =>
      match text with
      | [] => false
      | _ :: text => like pattern text
  | c :: pattern, text =>
      match text with
      | [] => false
      | d :: text => c == d && like pattern text

/-- `str::replace` of a character. -/
def replaceChar (c : Char) (by' : List Char) (text : List Char) : List Char :=
  text.flatMap fun d => if d = c then by' else [d]

def escapeChar (c : Char) : List Char :=
  if c = '\\' ∨ c = '%' ∨ c = '_' then ['\\', c] else [c]

/-- The backslash goes first: the ones that the later replacements write stay single. -/
theorem replace_eq_escape (text : List Char) :
    replaceChar '_' ['\\', '_'] (replaceChar '%' ['\\', '%'] (replaceChar '\\' ['\\', '\\'] text)) =
      text.flatMap escapeChar := by
  simp only [replaceChar, List.flatMap_assoc]
  apply List.flatMap_congr
  intro c _
  by_cases hback : c = '\\'
  · subst hback
    rfl
  · by_cases hpercent : c = '%'
    · subst hpercent
      rfl
    · by_cases hunder : c = '_'
      · subst hunder
        rfl
      · simp [escapeChar, hback, hpercent, hunder]

theorem like_escapeChar (c : Char) (pattern text : List Char) :
    like (escapeChar c ++ pattern) text = true ↔
      ∃ rest, text = c :: rest ∧ like pattern rest = true := by
  have hliteral : like (escapeChar c ++ pattern) text =
      match text with
      | [] => false
      | d :: rest => c == d && like pattern rest := by
    rw [escapeChar]
    split
    · rw [List.cons_append, List.singleton_append]
      cases text with
      | nil | cons d rest => simp [like]
    · rename_i hplain
      simp only [not_or] at hplain
      obtain ⟨hback, hpercent, hunder⟩ := hplain
      rw [List.singleton_append, like.eq_def]
      split
      · rename_i h
        cases h
      · rename_i h
        cases h
        exact absurd rfl hback
      · rename_i h
        cases h
        exact absurd rfl hback
      · rename_i h
        cases h
        exact absurd rfl hpercent
      · rename_i h
        cases h
        exact absurd rfl hunder
      · rename_i h
        cases h
        rfl
  rw [hliteral]
  cases text with
  | nil => simp
  | cons d rest =>
      rw [Bool.and_eq_true, beq_iff_eq]
      constructor
      · rintro ⟨rfl, hrest⟩
        exact ⟨rest, rfl, hrest⟩
      · rintro ⟨rest', h, hrest⟩
        cases h
        exact ⟨rfl, hrest⟩

theorem like_percent (text : List Char) : like ['%'] text = true := by
  simp only [like, List.any_eq_true]
  exact ⟨[], (List.mem_tails [] text).mpr List.nil_suffix, rfl⟩

/-- An escaped text with a percent sign behind it. -/
theorem like_prefix (literal text : List Char) :
    like (literal.flatMap escapeChar ++ ['%']) text = true ↔ literal <+: text := by
  induction literal generalizing text with
  | nil =>
      rw [List.flatMap_nil, List.nil_append]
      exact iff_of_true (like_percent text) List.nil_prefix
  | cons c literal ih =>
      rw [List.flatMap_cons, List.append_assoc, like_escapeChar]
      constructor
      · rintro ⟨rest, rfl, hrest⟩
        exact List.cons_prefix_cons.mpr ⟨rfl, (ih rest).mp hrest⟩
      · intro h
        obtain ⟨tail, rfl⟩ := h
        exact ⟨literal ++ tail, rfl, (ih _).mpr (List.prefix_append literal tail)⟩

end Authguard.LikePattern
