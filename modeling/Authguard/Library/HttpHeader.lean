import Mathlib
import Authguard.Library.Text

/-!
Header names and values, and lists of headers under mutations. Names compare
without regard to case, so what a list holds under a name is what matters: a
removal empties it, an overwrite leaves the one value, and neither touches any
other name.
-/

namespace Authguard.HttpHeader
open Text

def lower (text : String) : String := String.ofList (text.toList.map Char.toLower)

/-- Characters of a token, in lower case. -/
def tokenChars : List Char := "!#$%&'*+-.^_`|~0123456789abcdefghijklmnopqrstuvwxyz".toList

def maxNameBytes : Nat := 65535

/-- The name in lower case, when it is one. -/
def name (text : String) : Option String :=
  let lowered := lower text
  if lowered ≠ "" ∧ lowered.utf8ByteSize ≤ maxNameBytes ∧
      lowered.toList.all tokenChars.contains = true then
    some lowered
  else none

/-- A value may hold any character but controls, the tab apart. -/
def isValue (text : String) : Bool :=
  text.toList.all fun c => (32 ≤ c.toNat && c.toNat != 127) || c == '\t'

/-- Visible ASCII. -/
def isText (text : String) : Bool :=
  text.toList.all fun c => (32 ≤ c.toNat && c.toNat < 127) || c == '\t'

theorem isValue_of_isText {text : String} (h : isText text = true) : isValue text = true := by
  simp only [isValue, isText, List.all_eq_true, Bool.or_eq_true, Bool.and_eq_true,
    decide_eq_true_eq, bne_iff_ne] at h ⊢
  intro c hc
  cases h c hc with
  | inl hvisible => exact .inl ⟨hvisible.1, by omega⟩
  | inr htab => exact .inr htab

theorem eqIgnoreAsciiCase_iff {first second : String} :
    eqIgnoreAsciiCase first second = true ↔ lower first = lower second := by
  rw [eqIgnoreAsciiCase, beq_iff_eq, lower, lower, ← String.toList_inj, String.toList_ofList,
    String.toList_ofList]

theorem name_eq_some {text normal : String} :
    name text = some normal ↔ lower text = normal ∧ (name normal).isSome ∧ lower normal = normal := by
  constructor
  · intro h
    have hlower : lower (lower text) = lower text := by
      rw [lower, lower, String.toList_ofList, List.map_map]
      congr 1
      apply List.map_congr_left
      intro c _
      exact Char.toLower_toLower_eq_toLower c
    have hvalid := h
    rw [name] at hvalid
    split at hvalid
    · cases hvalid
      refine ⟨rfl, ?_, hlower⟩
      rw [name, hlower, if_pos (by assumption)]
      rfl
    · cases hvalid
  · rintro ⟨rfl, hvalid, hlower⟩
    rw [name, hlower] at hvalid
    split at hvalid
    · rw [name, if_pos (by assumption)]
    · cases hvalid

/-! Lists of headers. -/

abbrev Headers := List (String × String)

/-- What a list of headers holds under a name. -/
def values (headers : Headers) (name : String) : List String :=
  (headers.filter fun entry => eqIgnoreAsciiCase entry.1 name).map (·.2)

def remove (headers : Headers) (name : String) : Headers :=
  headers.filter fun entry => !eqIgnoreAsciiCase entry.1 name

def overwrite (headers : Headers) (entry : String × String) : Headers :=
  remove headers entry.1 ++ [entry]

def mutate (removed : List String) (set : List (String × String)) (headers : Headers) : Headers :=
  set.foldl overwrite (removed.foldl remove headers)

theorem values_remove (headers : Headers) (name other : String) :
    values (remove headers name) other =
      if lower other = lower name then [] else values headers other := by
  simp only [values, remove, List.filter_filter]
  split
  · rename_i hsame
    rw [List.map_eq_nil_iff, List.filter_eq_nil_iff]
    intro entry _
    simp [eqIgnoreAsciiCase_iff, hsame]
  · rename_i hne
    congr 1
    apply List.filter_congr
    intro entry _
    rw [Bool.eq_iff_iff, Bool.and_eq_true, Bool.not_eq_true', Bool.eq_false_iff, ne_eq,
      eqIgnoreAsciiCase_iff, eqIgnoreAsciiCase_iff]
    exact and_iff_left_of_imp fun hentry hsame => hne (hentry ▸ hsame)

theorem values_overwrite (headers : Headers) (entry : String × String) (other : String) :
    values (overwrite headers entry) other =
      if lower other = lower entry.1 then [entry.2] else values headers other := by
  have happend : values (overwrite headers entry) other =
      values (remove headers entry.1) other ++ values [entry] other := by
    simp [values, overwrite]
  rw [happend, values_remove]
  split
  · rename_i hsame
    simp [values, eqIgnoreAsciiCase_iff.mpr hsame.symm]
  · rename_i hne
    have hno : eqIgnoreAsciiCase entry.1 other = false := by
      rw [Bool.eq_false_iff]
      exact fun h => hne (eqIgnoreAsciiCase_iff.mp h).symm
    simp [values, hno]

theorem values_removeAll (removed : List String) (headers : Headers) (other : String) :
    values (removed.foldl remove headers) other =
      if lower other ∈ removed.map lower then [] else values headers other := by
  induction removed generalizing headers with
  | nil => simp
  | cons name removed ih =>
      rw [List.foldl_cons, ih, values_remove]
      by_cases hname : lower other = lower name
      · simp [hname]
      · simp [hname]

end Authguard.HttpHeader
