import Authguard.Common.CustomDirectory

/-!
The templates of the custom connector. A template is read as tokens in double braces
and the text around them; rendering fills in the known tokens and copies the rest,
except that the text before an opening that is never closed is copied twice.
-/

namespace Authguard
open Text

/-! First occurrences. -/

/-- The text stands before the first occurrence of the mark. -/
def Leftmost (mark cs before after : List Char) : Prop :=
  cs = before ++ mark ++ after ∧ ∀ n < before.length, ¬mark <+: cs.drop n

theorem cutAt_some_iff {mark cs before after : List Char} (hmark : mark ≠ []) :
    cutAt mark cs = some (before, after) ↔ Leftmost mark cs before after := by
  simp only [Leftmost]
  induction cs generalizing before with
  | nil => simp [cutAt, hmark]
  | cons c cs ih =>
      simp only [cutAt]
      by_cases hbegins : mark.isPrefixOf (c :: cs) = true
      · rw [if_pos hbegins]
        have hmem := List.isPrefixOf_iff_prefix.mp hbegins
        constructor
        · intro h
          simp only [Option.some.injEq, Prod.mk.injEq] at h
          obtain ⟨rfl, rfl⟩ := h
          obtain ⟨rest, hrest⟩ := hmem
          refine ⟨?_, by simp⟩
          rw [← hrest, List.drop_left, List.nil_append]
        · rintro ⟨hsplit, hfirst⟩
          cases before with
          | nil => simp [hsplit]
          | cons d before => exact absurd hmem (hfirst 0 (by simp))
      · rw [if_neg hbegins, Option.map_eq_some_iff]
        have hno : ¬mark <+: c :: cs := fun h => hbegins (List.isPrefixOf_iff_prefix.mpr h)
        constructor
        · rintro ⟨⟨first, rest⟩, hcut, h⟩
          cases h
          obtain ⟨rfl, hfirst⟩ := ih.mp hcut
          refine ⟨rfl, fun n hn => ?_⟩
          cases n with
          | zero => exact hno
          | succ n => exact hfirst n (by simpa using hn)
        · rintro ⟨hsplit, hfirst⟩
          cases before with
          | nil => exact absurd ⟨after, by simpa using hsplit.symm⟩ hno
          | cons d before =>
              rw [List.cons_append, List.cons_append, List.cons.injEq] at hsplit
              obtain ⟨rfl, rfl⟩ := hsplit
              refine ⟨(before, after), ih.mpr ⟨rfl, fun n hn => ?_⟩, rfl⟩
              exact hfirst (n + 1) (by simpa using hn)

theorem cutAt_none_iff {mark cs : List Char} (hmark : mark ≠ []) :
    cutAt mark cs = none ↔ ¬mark <:+: cs := by
  induction cs with
  | nil => simp [cutAt, hmark]
  | cons c cs ih =>
      simp only [cutAt, List.infix_cons_iff, not_or, ← ih]
      split
      · rename_i hbegins
        simp [List.isPrefixOf_iff_prefix.mp hbegins]
      · rename_i hbegins
        rw [List.isPrefixOf_iff_prefix] at hbegins
        simp [hbegins]

/-! Tokens of a template. -/

def opening : List Char := "\x7b\x7b".toList

def closing : List Char := "\x7d\x7d".toList

/-- The tokens of a template from left to right, each with the text before it, and the text
behind the last one, in which no opening is closed. -/
inductive Tokenized : List Char → List (List Char × List Char) → List Char → Prop
  | text {cs : List Char}
      (h : ∀ before inside, Leftmost opening cs before inside → ¬closing <:+: inside) :
      Tokenized cs [] cs
  | token {cs before inside name after tail : List Char} {tokens : List (List Char × List Char)}
      (hopen : Leftmost opening cs before inside) (hclose : Leftmost closing inside name after)
      (hrest : Tokenized after tokens tail) :
      Tokenized cs ((before, name) :: tokens) tail

/-- A known name is replaced by its value, an unknown one is copied with its braces. -/
def fillToken (resolve : String → Option String) (name : List Char) : List Char :=
  match resolve (trim (String.ofList name)) with
  | some value => value.toList
  | none => opening ++ name ++ closing

def fillTokens (resolve : String → Option String) (tokens : List (List Char × List Char)) :
    List Char :=
  tokens.flatMap fun token => token.1 ++ fillToken resolve token.2

/-- The one-pass substitution. -/
def substituted (resolve : String → Option String) (tokens : List (List Char × List Char))
    (tail : List Char) : String :=
  String.ofList (fillTokens resolve tokens ++ tail)

/-- An opening that is not closed, with text before it. -/
def OpensLate (tail : List Char) : Prop :=
  ∃ before inside, before ≠ [] ∧ Leftmost opening tail before inside

section
variable {cs tail : List Char} {tokens : List (List Char × List Char)}

theorem opening_ne_nil : opening ≠ [] := by decide

theorem closing_ne_nil : closing ≠ [] := by decide

theorem Leftmost.length_lt {before inside name after : List Char}
    (hopen : Leftmost opening cs before inside) (hclose : Leftmost closing inside name after) :
    after.length < cs.length := by
  have hinside := congrArg List.length hclose.1
  have hcs := congrArg List.length hopen.1
  simp only [List.length_append] at hinside hcs
  have hlength : 0 < opening.length := by decide
  omega

theorem tokenized_total (cs : List Char) : ∃ tokens tail, Tokenized cs tokens tail := by
  induction hn : cs.length using Nat.strong_induction_on generalizing cs with
  | _ n ih =>
      cases hopen : cutAt opening cs with
      | none =>
          refine ⟨[], cs, .text fun before inside hleft => ?_⟩
          rw [← cutAt_some_iff opening_ne_nil, hopen] at hleft
          cases hleft
      | some cut =>
          obtain ⟨before, inside⟩ := cut
          have hleft := (cutAt_some_iff opening_ne_nil).mp hopen
          cases hclose : cutAt closing inside with
          | none =>
              refine ⟨[], cs, .text fun other otherInside hother => ?_⟩
              rw [← cutAt_some_iff opening_ne_nil, hopen] at hother
              cases hother
              exact (cutAt_none_iff closing_ne_nil).mp hclose
          | some cut =>
              obtain ⟨name, after⟩ := cut
              have hright := (cutAt_some_iff closing_ne_nil).mp hclose
              obtain ⟨tokens, tail, hrest⟩ := ih after.length (hn ▸ hleft.length_lt hright) after rfl
              exact ⟨(before, name) :: tokens, tail, .token hleft hright hrest⟩

/-! One turn of the loop. -/

section
variable (resolve : String → Option String) (fuel : Nat) {rest before inside name after : List Char}

theorem renderChars_unopened (hopen : cutAt opening rest = none) :
    renderChars resolve (fuel + 1) rest = rest := by
  rw [opening] at hopen
  simp only [renderChars, hopen]

theorem renderChars_unclosed (hopen : cutAt opening rest = some (before, inside))
    (hclose : cutAt closing inside = none) :
    renderChars resolve (fuel + 1) rest = before ++ rest := by
  rw [opening] at hopen
  rw [closing] at hclose
  simp only [renderChars, hopen, hclose]

theorem renderChars_token (hopen : cutAt opening rest = some (before, inside))
    (hclose : cutAt closing inside = some (name, after)) :
    renderChars resolve (fuel + 1) rest =
      before ++ fillToken resolve name ++ renderChars resolve fuel after := by
  rw [opening] at hopen
  rw [closing] at hclose
  simp only [renderChars, hopen, hclose, fillToken]
  cases resolve (trim (String.ofList name)) with
  | none => simp only [opening, closing, List.append_assoc]
  | some value => rfl

end

/-- What is written for the text behind the last token. -/
def renderedTail (tail : List Char) : List Char :=
  ((cutAt opening tail).elim [] Prod.fst) ++ tail

theorem renderChars_tokenized (resolve : String → Option String) (h : Tokenized cs tokens tail)
    {fuel : Nat} (hfuel : cs.length ≤ fuel) :
    renderChars resolve fuel cs = fillTokens resolve tokens ++ renderedTail tail := by
  induction h generalizing fuel with
  | @text cs hopen =>
      rw [fillTokens, List.flatMap_nil, List.nil_append, renderedTail]
      cases fuel with
      | zero =>
          rw [List.length_eq_zero_iff.mp (Nat.le_zero.mp hfuel)]
          rfl
      | succ fuel =>
          cases hcut : cutAt opening cs with
          | none => exact renderChars_unopened resolve fuel hcut
          | some cut =>
              obtain ⟨before, inside⟩ := cut
              have hclose := hopen before inside ((cutAt_some_iff opening_ne_nil).mp hcut)
              exact renderChars_unclosed resolve fuel hcut
                ((cutAt_none_iff closing_ne_nil).mpr hclose)
  | @token cs before inside name after tail tokens hopen hclose hrest ih =>
      have hlt := hopen.length_lt hclose
      cases fuel with
      | zero => omega
      | succ fuel =>
          rw [renderChars_token resolve fuel ((cutAt_some_iff opening_ne_nil).mpr hopen)
            ((cutAt_some_iff closing_ne_nil).mpr hclose), ih (by omega)]
          simp [fillTokens]

theorem renderedTail_eq_iff : renderedTail tail = tail ↔ ¬OpensLate tail := by
  rw [renderedTail, List.append_left_eq_self]
  cases hcut : cutAt opening tail with
  | none =>
      simp only [Option.elim_none, true_iff]
      rintro ⟨before, inside, -, hleft⟩
      rw [← cutAt_some_iff opening_ne_nil, hcut] at hleft
      cases hleft
  | some cut =>
      obtain ⟨before, inside⟩ := cut
      have hleft := (cutAt_some_iff opening_ne_nil).mp hcut
      simp only [Option.elim_some]
      constructor
      · rintro rfl ⟨other, otherInside, hne, hother⟩
        rw [← cutAt_some_iff opening_ne_nil, hcut] at hother
        cases hother
        exact hne rfl
      · intro hlate
        by_contra hne
        exact hlate ⟨before, inside, hne, hleft⟩

end

/-- Rendering is the one-pass substitution exactly when the text behind the last token does
not run into an opening that is never closed. -/
theorem render_one_pass_iff (template : String) (resolve : String → Option String) :
    (∃ tokens tail, Tokenized template.toList tokens tail) ∧
      ∀ tokens tail, Tokenized template.toList tokens tail →
        (render template resolve = substituted resolve tokens tail ↔ ¬OpensLate tail) := by
  refine ⟨tokenized_total template.toList, fun tokens tail h => ?_⟩
  rw [render, renderChars_tokenized resolve h le_rfl, substituted, String.ofList_inj,
    List.append_cancel_left_eq, renderedTail_eq_iff]

namespace SearchTemplate

theorem tail_unopened {before inside : List Char} :
    ¬Leftmost opening ";".toList before inside := by
  have hend : cutAt opening ";".toList = none := by decide
  rw [← cutAt_some_iff opening_ne_nil, hend]
  exact nofun

theorem tokenized :
    Tokenized "q=\x7b\x7b search \x7d\x7d;".toList [("q=".toList, " search ".toList)]
      ";".toList := by
  have hopen : cutAt opening "q=\x7b\x7b search \x7d\x7d;".toList =
      some ("q=".toList, " search \x7d\x7d;".toList) := by
    decide
  have hclose : cutAt closing " search \x7d\x7d;".toList =
      some (" search ".toList, ";".toList) := by
    decide
  refine .token ((cutAt_some_iff opening_ne_nil).mp hopen)
    ((cutAt_some_iff closing_ne_nil).mp hclose) (.text fun before inside hleft => ?_)
  exact absurd hleft tail_unopened

theorem closed_one_pass :
    render "q=\x7b\x7b search \x7d\x7d;" (fun name => if name = "search" then some "ann" else none) =
      substituted (fun name => if name = "search" then some "ann" else none)
        [("q=".toList, " search ".toList)] ";".toList := by
  refine ((render_one_pass_iff _ _).2 _ _ tokenized).mpr ?_
  rintro ⟨before, inside, -, hleft⟩
  exact tail_unopened hleft

/-- The text before an opening that is never closed comes out twice. -/
theorem unclosed_twice :
    render "user=\x7b\x7bsearch" (fun _ => none) = "user=user=\x7b\x7bsearch" ∧
      ∀ tokens tail, Tokenized "user=\x7b\x7bsearch".toList tokens tail →
        render "user=\x7b\x7bsearch" (fun _ => none) ≠ substituted (fun _ => none) tokens tail := by
  have hopen : cutAt opening "user=\x7b\x7bsearch".toList =
      some ("user=".toList, "search".toList) := by
    decide
  refine ⟨by decide, fun tokens tail h => ?_⟩
  cases h with
  | text => decide
  | token hleft hright hrest =>
      rw [← cutAt_some_iff opening_ne_nil, hopen] at hleft
      cases hleft
      have hend : cutAt closing "search".toList = none := by decide
      rw [← cutAt_some_iff closing_ne_nil, hend] at hright
      cases hright

end SearchTemplate

end Authguard
