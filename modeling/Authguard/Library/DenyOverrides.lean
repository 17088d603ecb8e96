import Mathlib

/-!
Deny-overrides combination of rules: something allows and nothing denies. The
combination depends on neither the order nor the representation of the rules.
-/

namespace Authguard.DenyOverrides

variable {α β : Type}

def Permits (allows denies : α → Prop) (rules : List α) : Prop :=
  (∃ rule ∈ rules, allows rule) ∧ ¬ ∃ rule ∈ rules, denies rule

variable {allows denies : α → Prop} {allows' denies' : β → Prop}

theorem permits_perm {rules rules' : List α} (h : rules.Perm rules') :
    Permits allows denies rules ↔ Permits allows denies rules' := by
  simp only [Permits, h.mem_iff]

theorem permits_congr {allows' denies' : α → Prop} {rules : List α}
    (hallow : ∀ rule ∈ rules, (allows rule ↔ allows' rule))
    (hdeny : ∀ rule ∈ rules, (denies rule ↔ denies' rule)) :
    Permits allows denies rules ↔ Permits allows' denies' rules := by
  have hexists : ∀ p q : α → Prop, (∀ rule ∈ rules, (p rule ↔ q rule)) →
      ((∃ rule ∈ rules, p rule) ↔ ∃ rule ∈ rules, q rule) := fun p q h =>
    exists_congr fun rule => and_congr_right fun hmem => h rule hmem
  simp only [Permits, hexists _ _ hallow, hexists _ _ hdeny]

theorem exists_forall₂ {related : α → β → Prop} {p : α → Prop} {q : β → Prop}
    (hiff : ∀ a b, related a b → (p a ↔ q b)) {rules : List α} {rules' : List β}
    (h : List.Forall₂ related rules rules') : (∃ a ∈ rules, p a) ↔ ∃ b ∈ rules', q b := by
  induction h with
  | nil => simp
  | cons hab _ ih => simp only [List.exists_mem_cons_iff, hiff _ _ hab, ih]

/-- Rules that correspond one by one, each allowing and denying alike, permit alike. -/
theorem permits_forall₂ {related : α → β → Prop}
    (hallow : ∀ a b, related a b → (allows a ↔ allows' b))
    (hdeny : ∀ a b, related a b → (denies a ↔ denies' b)) {rules : List α} {rules' : List β}
    (h : List.Forall₂ related rules rules') :
    Permits allows denies rules ↔ Permits allows' denies' rules' := by
  simp only [Permits, exists_forall₂ hallow h, exists_forall₂ hdeny h]

/-- Where the rules that allow only get fewer, nothing becomes permitted exactly when
losing denials never uncovers a rule that still allows. -/
theorem permits_narrows_iff {allows' denies' : α → Prop} {rules : List α}
    (hallow : ∀ rule ∈ rules, allows' rule → allows rule) :
    (¬Permits allows denies rules → ¬Permits allows' denies' rules) ↔
      ((∃ rule ∈ rules, allows' rule) → (∃ rule ∈ rules, denies rule) →
        ∃ rule ∈ rules, denies' rule) := by
  rw [not_imp_not]
  constructor
  · intro h hallowed hdenied
    by_contra hlost
    exact (h ⟨hallowed, hlost⟩).2 hdenied
  · rintro h ⟨⟨rule, hmem, hrule⟩, hlost⟩
    refine ⟨⟨rule, hmem, hallow rule hmem hrule⟩, ?_⟩
    intro hdenied
    exact hlost (h ⟨rule, hmem, hrule⟩ hdenied)

/-- Leaving out some of the rules changes nothing exactly when a denial is left out only where
another one is kept or nothing is allowed, and an allowance only where another one is kept or
something denies. -/
theorem permits_kept_iff {kept : α → Prop} {rules : List α} :
    (Permits allows denies rules ↔
      Permits (fun rule => allows rule ∧ kept rule) (fun rule => denies rule ∧ kept rule) rules) ↔
      ((∃ rule ∈ rules, denies rule ∧ ¬kept rule) → (∃ rule ∈ rules, allows rule ∧ kept rule) →
        ∃ rule ∈ rules, denies rule ∧ kept rule) ∧
      ((∃ rule ∈ rules, allows rule ∧ ¬kept rule) → (∃ rule ∈ rules, allows rule ∧ kept rule) ∨
        ∃ rule ∈ rules, denies rule) := by
  constructor
  · intro h
    constructor
    · rintro ⟨rule, hmem, hdenies, -⟩ hallowed
      by_contra hnone
      exact (h.mpr ⟨hallowed, hnone⟩).2 ⟨rule, hmem, hdenies⟩
    · rintro ⟨rule, hmem, hallows, -⟩
      by_contra hnone
      obtain ⟨hkept, hdenied⟩ := not_or.mp hnone
      exact hkept (h.mp ⟨⟨rule, hmem, hallows⟩, hdenied⟩).1
  · rintro ⟨hdenials, hallowances⟩
    constructor
    · rintro ⟨⟨rule, hmem, hallows⟩, hdenied⟩
      refine ⟨?_, fun ⟨other, hother, hdenies, _⟩ => hdenied ⟨other, hother, hdenies⟩⟩
      by_cases hkept : kept rule
      · exact ⟨rule, hmem, hallows, hkept⟩
      · exact (hallowances ⟨rule, hmem, hallows, hkept⟩).resolve_right hdenied
    · rintro ⟨⟨rule, hmem, hallows, hkept⟩, hnone⟩
      refine ⟨⟨rule, hmem, hallows⟩, ?_⟩
      rintro ⟨other, hother, hdenies⟩
      by_cases hother' : kept other
      · exact hnone ⟨other, hother, hdenies, hother'⟩
      · exact hnone (hdenials ⟨other, hother, hdenies, hother'⟩ ⟨rule, hmem, hallows, hkept⟩)

/-- Rules matter only through what they target: grouping them by target changes nothing. -/
theorem permits_targets {target : α → β} {inScope : α → Prop} {hits : β → Prop}
    {allowEffect denyEffect : α → Prop} {allowed denied : List β} {rules : List α}
    (hallowed : ∀ b, b ∈ allowed ↔ ∃ a ∈ rules, inScope a ∧ allowEffect a ∧ target a = b)
    (hdenied : ∀ b, b ∈ denied ↔ ∃ a ∈ rules, inScope a ∧ denyEffect a ∧ target a = b) :
    Permits (fun a => inScope a ∧ allowEffect a ∧ hits (target a))
        (fun a => inScope a ∧ denyEffect a ∧ hits (target a)) rules ↔
      (∃ b ∈ allowed, hits b) ∧ ¬ ∃ b ∈ denied, hits b := by
  have hgroup : ∀ (effect : α → Prop) (targets : List β),
      (∀ b, b ∈ targets ↔ ∃ a ∈ rules, inScope a ∧ effect a ∧ target a = b) →
      ((∃ a ∈ rules, inScope a ∧ effect a ∧ hits (target a)) ↔ ∃ b ∈ targets, hits b) := by
    intro effect targets htargets
    simp only [htargets]
    constructor
    · rintro ⟨a, ha, hscope, heffect, hhits⟩
      exact ⟨target a, ⟨a, ha, hscope, heffect, rfl⟩, hhits⟩
    · rintro ⟨_, ⟨a, ha, hscope, heffect, rfl⟩, hhits⟩
      exact ⟨a, ha, hscope, heffect, hhits⟩
  simp only [Permits, hgroup _ _ hallowed, hgroup _ _ hdenied]

/-! What changed, when the combination decides otherwise. -/

/-- Where something comes to be permitted, a rule that allows is new or one that denied is
gone. -/
theorem changed_of_permits {allows' denies' : α → Prop} {rules rules' : List α}
    (hbefore : ¬Permits allows denies rules) (hafter : Permits allows' denies' rules') :
    (∃ rule ∈ rules', allows' rule ∧ ¬(rule ∈ rules ∧ allows rule)) ∨
      ∃ rule ∈ rules, denies rule ∧ ¬(rule ∈ rules' ∧ denies' rule) := by
  obtain ⟨⟨rule, hmem, hallows⟩, hnone⟩ := hafter
  by_cases hold : rule ∈ rules ∧ allows rule
  · right
    by_contra hkept
    refine hbefore ⟨⟨rule, hold⟩, ?_⟩
    rintro ⟨other, hother, hdenies⟩
    exact hkept ⟨other, hother, hdenies, fun hlater => hnone ⟨other, hlater⟩⟩
  · exact .inl ⟨rule, hmem, hallows, hold⟩

/-- Where something ceases to be permitted, a rule that denies is new or one that allowed is
gone. -/
theorem changed_of_not_permits {allows' denies' : α → Prop} {rules rules' : List α}
    (hbefore : Permits allows denies rules) (hafter : ¬Permits allows' denies' rules') :
    (∃ rule ∈ rules', denies' rule ∧ ¬(rule ∈ rules ∧ denies rule)) ∨
      ∃ rule ∈ rules, allows rule ∧ ¬(rule ∈ rules' ∧ allows' rule) := by
  obtain ⟨⟨rule, hmem, hallows⟩, hnone⟩ := hbefore
  by_cases hkept : rule ∈ rules' ∧ allows' rule
  · left
    by_contra hsame
    refine hafter ⟨⟨rule, hkept⟩, ?_⟩
    rintro ⟨other, hother, hdenies⟩
    exact hsame ⟨other, hother, hdenies, fun hearlier => hnone ⟨other, hearlier⟩⟩
  · exact .inr ⟨rule, hmem, hallows, hkept⟩

end Authguard.DenyOverrides
