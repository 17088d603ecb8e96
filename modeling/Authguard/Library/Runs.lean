import Mathlib

/-!
Runs of a partial step function over a list of events. A condition on the state
before each step restricts runs; what every allowed step preserves holds in
every state an allowed run reaches.
-/

namespace Authguard.Runs

variable {σ ε : Type}

def run (step : σ → ε → Option σ) : σ → List ε → Option σ
  | state, [] => some state
  | state, event :: events => (step state event).bind fun next => run step next events

/-- The condition holds before every step of the run. -/
def Along (step : σ → ε → Option σ) (cond : σ → ε → Prop) : σ → List ε → Prop
  | _, [] => True
  | state, event :: events =>
      cond state event ∧ ∀ next, step state event = some next → Along step cond next events

variable {step : σ → ε → Option σ} {cond cond' : σ → ε → Prop}

theorem run_append (state : σ) (events more : List ε) :
    run step state (events ++ more) =
      (run step state events).bind fun next => run step next more := by
  induction events generalizing state with
  | nil => rfl
  | cons event events ih =>
      simp only [List.cons_append, run]
      cases step state event with
      | none => rfl
      | some next => exact ih next

theorem run_cons_eq_some {state final : σ} {event : ε} {events : List ε} :
    run step state (event :: events) = some final ↔
      ∃ next, step state event = some next ∧ run step next events = some final := by
  simp only [run, Option.bind_eq_some_iff]

theorem run_append_eq_some {state final : σ} {events more : List ε} :
    run step state (events ++ more) = some final ↔
      ∃ next, run step state events = some next ∧ run step next more = some final := by
  rw [run_append, Option.bind_eq_some_iff]

instance Along.decidable [∀ state event, Decidable (cond state event)] :
    ∀ (state : σ) (events : List ε), Decidable (Along step cond state events)
  | _, [] => isTrue trivial
  | state, event :: events =>
      match h : step state event with
      | none => decidable_of_iff (cond state event) (by simp [Along, h])
      | some next =>
          have := Along.decidable next events
          decidable_of_iff (cond state event ∧ Along step cond next events)
            (by simp [Along, h])

theorem Along.append {state : σ} {events more : List ε}
    (h : Along step cond state (events ++ more)) :
    Along step cond state events ∧
      ∀ next, run step state events = some next → Along step cond next more := by
  induction events generalizing state with
  | nil => exact ⟨trivial, fun next hrun => Option.some.inj hrun ▸ h⟩
  | cons event events ih =>
      obtain ⟨hcond, hrest⟩ := h
      refine ⟨⟨hcond, fun next hstep => (ih (hrest next hstep)).1⟩, ?_⟩
      intro final hrun
      obtain ⟨next, hstep, hrun⟩ := run_cons_eq_some.mp hrun
      exact (ih (hrest next hstep)).2 final hrun

theorem Along.imp (himp : ∀ state event, cond state event → cond' state event) {state : σ}
    {events : List ε} (h : Along step cond state events) : Along step cond' state events := by
  induction events generalizing state with
  | nil => trivial
  | cons event events ih => exact ⟨himp _ _ h.1, fun next hstep => ih (h.2 next hstep)⟩

theorem Along.and {state : σ} {events : List ε} (h : Along step cond state events)
    (h' : Along step cond' state events) :
    Along step (fun state event => cond state event ∧ cond' state event) state events := by
  induction events generalizing state with
  | nil => trivial
  | cons event events ih =>
      exact ⟨⟨h.1, h'.1⟩, fun next hstep => ih (h.2 next hstep) (h'.2 next hstep)⟩

theorem along_of_forall {p : ε → Prop} {events : List ε} (h : ∀ event ∈ events, p event)
    (state : σ) : Along step (fun _ event => p event) state events := by
  induction events generalizing state with
  | nil => trivial
  | cons event events ih =>
      exact ⟨h event List.mem_cons_self,
        fun next _ => ih (fun other hother => h other (List.mem_cons_of_mem _ hother)) next⟩

/-- What every allowed step preserves, an allowed run preserves. -/
theorem run_invariant (inv : σ → Prop)
    (hstep : ∀ state event next, inv state → cond state event →
      step state event = some next → inv next)
    {state final : σ} {events : List ε} (halong : Along step cond state events)
    (hrun : run step state events = some final) (h : inv state) : inv final := by
  induction events generalizing state with
  | nil => exact Option.some.inj hrun ▸ h
  | cons event events ih =>
      obtain ⟨next, hnext, hrun⟩ := run_cons_eq_some.mp hrun
      exact ih (halong.2 next hnext) hrun (hstep state event next h halong.1 hnext)

theorem run_invariant_of_step (inv : σ → Prop)
    (hstep : ∀ state event next, inv state → step state event = some next → inv next)
    {state final : σ} {events : List ε} (hrun : run step state events = some final)
    (h : inv state) : inv final := by
  have halong : Along step (fun _ _ => True) state events :=
    along_of_forall (p := fun _ => True) (fun _ _ => trivial) state
  exact run_invariant inv (fun state event next hinv _ => hstep state event next hinv) halong
    hrun h

theorem exists_run_of_any {p : σ → Prop} [DecidablePred p] {state : σ} {events : List ε}
    (h : (run step state events).any (fun final => decide (p final)) = true) :
    ∃ final, run step state events = some final ∧ p final := by
  simpa [Option.any_eq_true] using h

/-- As before, where the property may speak of the run so far. -/
theorem run_history_invariant {state : σ} (inv : List ε → σ → Prop)
    (hstep : ∀ past reached event next, run step state past = some reached → inv past reached →
      step reached event = some next → inv (past ++ [event]) next)
    {events : List ε} {final : σ} (hrun : run step state events = some final)
    (h : inv [] state) : inv events final := by
  induction events using List.reverseRecOn generalizing final with
  | nil => exact Option.some.inj hrun ▸ h
  | append_singleton past event ih =>
      obtain ⟨reached, hpast, hlast⟩ := run_append_eq_some.mp hrun
      obtain ⟨next, hnext, hend⟩ := run_cons_eq_some.mp hlast
      cases hend
      exact hstep past reached event final hpast (ih hpast) hnext

/-! The states a run passes. -/

/-- The property holds at some moment of the run. -/
def During (step : σ → ε → Option σ) (state : σ) (events : List ε) (p : σ → Prop) : Prop :=
  ∃ past moment, past <+: events ∧ run step state past = some moment ∧ p moment

theorem During.append {state : σ} {events : List ε} {p : σ → Prop}
    (h : During step state events p) (more : List ε) : During step state (events ++ more) p := by
  obtain ⟨past, moment, hpast, hrun, hp⟩ := h
  exact ⟨past, moment, hpast.trans (List.prefix_append events more), hrun, hp⟩

theorem during_now {state reached : σ} {events : List ε} {p : σ → Prop}
    (hrun : run step state events = some reached) (h : p reached) :
    During step state events p :=
  ⟨events, reached, List.prefix_refl events, hrun, h⟩

/-! The steps a run passes. -/

/-- The run takes the event in the first state and reaches the second. -/
def Passes (step : σ → ε → Option σ) (state : σ) (events : List ε) (event : ε)
    (before after : σ) : Prop :=
  ∃ past future, events = past ++ event :: future ∧ run step state past = some before ∧
    step before event = some after

theorem passes_cons {state next before after : σ} {event other : ε} {events : List ε}
    (hstep : step state event = some next)
    (h : Passes step next events other before after) :
    Passes step state (event :: events) other before after := by
  obtain ⟨past, future, hevents, hrun, hlast⟩ := h
  refine ⟨event :: past, future, by rw [hevents, List.cons_append], ?_, hlast⟩
  exact run_cons_eq_some.mpr ⟨next, hstep, hrun⟩

theorem along_of_passes {state final : σ} {events : List ε}
    (hrun : run step state events = some final)
    (h : ∀ event before after, Passes step state events event before after → cond before event) :
    Along step cond state events := by
  induction events generalizing state with
  | nil => trivial
  | cons event events ih =>
      obtain ⟨next, hnext, hrun⟩ := run_cons_eq_some.mp hrun
      refine ⟨h event state next ⟨[], events, rfl, rfl, hnext⟩, ?_⟩
      intro reached hreached
      rw [hnext, Option.some.injEq] at hreached
      subst hreached
      apply ih hrun
      intro other before after hpasses
      exact h other before after (passes_cons hnext hpasses)

/-- A property that is acquired in a run is acquired by one of its steps. -/
theorem exists_passes_of_change {p : σ → Prop} {state final : σ} {events : List ε}
    (hrun : run step state events = some final) (hbefore : ¬p state) (hafter : p final) :
    ∃ event before after, Passes step state events event before after ∧ ¬p before ∧ p after := by
  induction events generalizing state with
  | nil => exact absurd (Option.some.inj hrun ▸ hafter) hbefore
  | cons event events ih =>
      obtain ⟨next, hnext, hrun⟩ := run_cons_eq_some.mp hrun
      by_cases hp : p next
      · exact ⟨event, state, next, ⟨[], events, rfl, rfl, hnext⟩, hbefore, hp⟩
      · obtain ⟨other, before, after, hpasses, hchange⟩ := ih hrun hp
        exact ⟨other, before, after, passes_cons hnext hpasses, hchange⟩

/-- A step of a run splits it into the run before the step and the run after it. -/
theorem Passes.split {state before after final : σ} {events : List ε} {event : ε}
    (h : Passes step state events event before after)
    (hrun : run step state events = some final) :
    ∃ past future, events = past ++ event :: future ∧ run step state past = some before ∧
      step before event = some after ∧ run step after future = some final := by
  obtain ⟨past, future, hevents, hpast, hstep⟩ := h
  rw [hevents, run_append_eq_some] at hrun
  obtain ⟨reached, hreached, hrest⟩ := hrun
  rw [hpast, Option.some.injEq] at hreached
  rw [← hreached, run_cons_eq_some] at hrest
  obtain ⟨next, hnext, hfuture⟩ := hrest
  rw [hstep, Option.some.injEq] at hnext
  exact ⟨past, future, hevents, hpast, hstep, hnext ▸ hfuture⟩

/-- An item of a list that grew by one is an old item or the new one. -/
theorem getElem?_concat_cases {μ : Type} {items : List μ} {item other : μ} {i : Nat}
    (h : (items ++ [other])[i]? = some item) :
    (i < items.length ∧ items[i]? = some item ∧ (items ++ [other]).take i = items.take i) ∨
    (i = items.length ∧ item = other ∧ (items ++ [other]).take i = items) := by
  rw [List.getElem?_append] at h
  split at h
  · rename_i hlt
    exact .inl ⟨hlt, h, List.take_append_of_le_length hlt.le⟩
  · rename_i hge
    have hlt := (List.getElem?_eq_some_iff.mp h).1
    simp at hlt
    have hi : i = items.length := by omega
    refine .inr ⟨hi, List.mem_singleton.mp (List.mem_of_getElem? h), ?_⟩
    rw [hi, List.take_left]

end Authguard.Runs
