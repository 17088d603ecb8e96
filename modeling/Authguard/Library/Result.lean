import Mathlib

/-!
Fallible computations: sequencing, and collecting the results of a fallible
function over a list. `collect` stops at the first failure, as
`iter().map(f).collect::<Result<Vec<_>, _>>()` does.
-/

namespace Authguard.Result

variable {ε α β : Type}

theorem bind_ok_iff {step : Except ε α} {next : α → Except ε β} {result : β} :
    (step >>= next) = .ok result ↔ ∃ value, step = .ok value ∧ next value = .ok result := by
  constructor
  · intro h
    rcases step with failure | value
    · cases h
    · exact ⟨value, rfl, h⟩
  · rintro ⟨value, rfl, h⟩
    exact h

theorem mapError_ok {ε' : Type} {step : Except ε α} {g : ε → ε'} {result : α} :
    step.mapError g = .ok result ↔ step = .ok result := by
  cases step with
  | error failure => simp [Except.mapError]
  | ok value => simp [Except.mapError]

theorem map_ok_iff {step : Except ε α} {g : α → β} {result : β} :
    step.map g = .ok result ↔ ∃ value, step = .ok value ∧ g value = result := by
  cases step with
  | error failure => simp [Except.map]
  | ok value => simp [Except.map]

def collect (f : α → Except ε β) : List α → Except ε (List β)
  | [] => .ok []
  | a :: as => do
      let b ← f a
      let bs ← collect f as
      .ok (b :: bs)

theorem collect_eq_ok {f : α → Except ε β} {xs : List α} {ys : List β} :
    collect f xs = .ok ys ↔ List.Forall₂ (fun a b => f a = .ok b) xs ys := by
  induction xs generalizing ys with
  | nil => simp [collect, eq_comm]
  | cons a as ih =>
      simp only [collect, bind_ok_iff, ih, Except.ok.injEq, List.forall₂_cons_left_iff]
      constructor
      · rintro ⟨b, hb, bs, hbs, rfl⟩
        exact ⟨b, bs, hb, hbs, rfl⟩
      · rintro ⟨b, bs, hb, hbs, rfl⟩
        exact ⟨b, hb, bs, hbs, rfl⟩

theorem collect_ok_mem {f : α → Except ε β} {xs : List α} {ys : List β}
    (h : collect f xs = .ok ys) {b : β} (hb : b ∈ ys) : ∃ a ∈ xs, f a = .ok b := by
  have hall := collect_eq_ok.mp h
  clear h
  induction hall with
  | nil => simp at hb
  | cons hab _ ih =>
      rcases List.mem_cons.mp hb with rfl | hb
      · exact ⟨_, List.mem_cons_self, hab⟩
      · obtain ⟨a, ha, hf⟩ := ih hb
        exact ⟨a, List.mem_cons_of_mem _ ha, hf⟩

theorem collect_mem_ok {f : α → Except ε β} {xs : List α} {ys : List β}
    (h : collect f xs = .ok ys) {a : α} (ha : a ∈ xs) : ∃ b ∈ ys, f a = .ok b := by
  have hall := collect_eq_ok.mp h
  clear h
  induction hall with
  | nil => simp at ha
  | cons hab _ ih =>
      rcases List.mem_cons.mp ha with rfl | ha
      · exact ⟨_, List.mem_cons_self, hab⟩
      · obtain ⟨b, hb, hf⟩ := ih ha
        exact ⟨b, List.mem_cons_of_mem _ hb, hf⟩

theorem collect_total {f : α → Except ε β} (h : ∀ a, ∃ b, f a = .ok b)
    (xs : List α) : ∃ ys, collect f xs = .ok ys := by
  induction xs with
  | nil => exact ⟨[], rfl⟩
  | cons a as ih =>
      obtain ⟨b, hb⟩ := h a
      obtain ⟨bs, hbs⟩ := ih
      exact ⟨b :: bs, by simp only [collect, hb, hbs]; rfl⟩

/-- Order affects which failure is met first, never whether there is one. -/
theorem collect_perm {f : α → Except ε β} {xs xs' : List α} {ys : List β}
    (hp : xs.Perm xs') (h : collect f xs = .ok ys) :
    ∃ ys', collect f xs' = .ok ys' ∧ ys.Perm ys' := by
  obtain ⟨ys', hall, hperm⟩ := List.perm_comp_forall₂ hp.symm (collect_eq_ok.mp h)
  exact ⟨ys', collect_eq_ok.mpr hall, hperm.symm⟩

theorem collect_congr {f g : α → Except ε β} {xs : List α} (h : ∀ x ∈ xs, f x = g x) :
    collect f xs = collect g xs := by
  induction xs with
  | nil => rfl
  | cons x xs ih =>
      obtain ⟨hx, hxs⟩ := List.forall_mem_cons.mp h
      rw [collect, collect, hx, ih hxs]

theorem collect_none_iff {f : α → Except ε (Option β)} {xs : List α} :
    (∃ ys, collect f xs = .ok ys ∧ ys.filterMap id = []) ↔ ∀ x ∈ xs, f x = .ok none := by
  induction xs with
  | nil => simp [collect]
  | cons x xs ih =>
      simp only [collect, bind_ok_iff, Except.ok.injEq, List.forall_mem_cons, ← ih]
      constructor
      · rintro ⟨_, ⟨y, hy, ys, hys, rfl⟩, hnone⟩
        cases y with
        | none => exact ⟨hy, ys, hys, hnone⟩
        | some found => simp at hnone
      · rintro ⟨hx, ys, hys, hnone⟩
        exact ⟨none :: ys, ⟨none, hx, ys, hys, rfl⟩, hnone⟩

/-- Exactly one item is answered, and no item fails. -/
theorem collect_one_iff {f : α → Except ε (Option β)} {xs : List α} {b : β} :
    (∃ ys, collect f xs = .ok ys ∧ ys.filterMap id = [b]) ↔
      ∃ before x after, xs = before ++ x :: after ∧ f x = .ok (some b) ∧
        ∀ other ∈ before ++ after, f other = .ok none := by
  induction xs with
  | nil => simp [collect]
  | cons first xs ih =>
      simp only [collect, bind_ok_iff, Except.ok.injEq]
      constructor
      · rintro ⟨_, ⟨y, hy, ys, hys, rfl⟩, hone⟩
        cases y with
        | none =>
            obtain ⟨before, x, after, rfl, hx, hothers⟩ := ih.mp ⟨ys, hys, hone⟩
            exact ⟨first :: before, x, after, rfl, hx, List.forall_mem_cons.mpr ⟨hy, hothers⟩⟩
        | some found =>
            simp only [List.filterMap_cons, id_eq, List.cons.injEq] at hone
            obtain ⟨rfl, hnone⟩ := hone
            exact ⟨[], first, xs, rfl, hy, collect_none_iff.mp ⟨ys, hys, hnone⟩⟩
      · rintro ⟨before, x, after, hsplit, hx, hothers⟩
        cases before with
        | nil =>
            obtain ⟨rfl, rfl⟩ := List.cons.inj hsplit
            obtain ⟨ys, hys, hnone⟩ := collect_none_iff.mpr hothers
            exact ⟨some b :: ys, ⟨some b, hx, ys, hys, rfl⟩, by simpa using hnone⟩
        | cons head before =>
            obtain ⟨rfl, rfl⟩ := List.cons.inj hsplit
            obtain ⟨hfirst, hothers⟩ := List.forall_mem_cons.mp hothers
            obtain ⟨ys, hys, hone⟩ := ih.mpr ⟨before, x, after, rfl, hx, hothers⟩
            exact ⟨none :: ys, ⟨none, hfirst, ys, hys, rfl⟩, hone⟩

/-- A fold of fallible steps that each put one item puts all of them. -/
theorem foldlM_put {τ : Type} {step : τ → α → Except ε τ} (put : τ → List α → τ)
    (hnil : ∀ t, put t [] = t) (hcons : ∀ t a as, put (put t [a]) as = put t (a :: as))
    (hstep : ∀ t a t', step t a = .ok t' → t' = put t [a]) {items : List α} {t t' : τ}
    (h : items.foldlM step t = .ok t') : t' = put t items := by
  induction items generalizing t with
  | nil =>
      cases h
      exact (hnil _).symm
  | cons a items ih =>
      rw [List.foldlM_cons, bind_ok_iff] at h
      obtain ⟨next, hnext, h⟩ := h
      rw [ih h, hstep t a next hnext, hcons]

/-- Such a fold gets through exactly when every item is accepted after those before it. -/
theorem foldlM_put_iff {τ : Type} {step : τ → α → Except ε τ} {Accepts : τ → α → Prop}
    (put : τ → List α → τ) (hnil : ∀ t, put t [] = t)
    (hcons : ∀ t a as, put (put t [a]) as = put t (a :: as))
    (hstep : ∀ t a t', step t a = .ok t' ↔ Accepts t a ∧ t' = put t [a]) {items : List α} {t : τ} :
    (∃ t', items.foldlM step t = .ok t') ↔
      ∀ before a after, items = before ++ a :: after → Accepts (put t before) a := by
  induction items generalizing t with
  | nil => exact ⟨fun _ before a after h => by simp at h, fun _ => ⟨t, rfl⟩⟩
  | cons first items ih =>
      simp only [List.foldlM_cons, bind_ok_iff]
      constructor
      · rintro ⟨t', next, hnext, h⟩ before a after hsplit
        obtain ⟨haccepts, rfl⟩ := (hstep t first next).mp hnext
        cases before with
        | nil =>
            obtain ⟨rfl, rfl⟩ := List.cons.inj hsplit
            rw [hnil]
            exact haccepts
        | cons b before =>
            obtain ⟨rfl, hrest⟩ := List.cons.inj hsplit
            rw [← hcons]
            exact ih.mp ⟨t', h⟩ before a after hrest
      · intro h
        have hfirst := h [] first items rfl
        rw [hnil] at hfirst
        obtain ⟨t', ht'⟩ := ih.mpr fun before a after hrest => by
          rw [hcons]
          exact h (first :: before) a after (by rw [hrest, List.cons_append])
        exact ⟨t', put t [first], (hstep t first _).mpr ⟨hfirst, rfl⟩, ht'⟩

end Authguard.Result
