import Authguard.Library.Program

/-!
Programs that cannot tell two stores apart: whatever is chosen, their calls are
answered the same over both, and the stores stay related. Such a program has the
same results over both. Where the programs of a pool are alike over all related
stores, a run of the pool over one of them is a run over the other.
-/

namespace Authguard.Program

variable {κ : Type} {α : κ → Type} {ε β γ σ χ : Type}

section
variable (exec : (name : κ) → χ → σ → Option (α name × σ)) (R : σ → σ → Prop)

/-- The program does not tell the stores apart. -/
def Alike : Program κ α ε β → σ → σ → Prop
  | .ok _, store, other => R store other
  | .fail _, store, other => R store other
  | .call name next, store, other =>
      ∀ choice, (exec name choice store = none ∧ exec name choice other = none) ∨
        ∃ answer after after', exec name choice store = some (answer, after) ∧
          exec name choice other = some (answer, after') ∧ Alike (next answer) after after'

end

variable {exec : (name : κ) → χ → σ → Option (α name × σ)} {R : σ → σ → Prop}
  {program : Program κ α ε β} {store other last : σ} {result : Except ε β}

theorem Alike.bind {next : β → Program κ α ε γ} (h : Alike exec R program store other)
    (hnext : ∀ value later later', Executes exec program store (.ok value) later →
      R later later' → Alike exec R (next value) later later') :
    Alike exec R (program >>= next) store other := by
  induction program generalizing store other with
  | ok value => exact hnext value store other (.ok value store) h
  | fail error => exact h
  | call name answers ih =>
      intro choice
      obtain hnone | ⟨answer, after, after', hstore, hother, hrest⟩ := h choice
      · exact .inl hnone
      · refine .inr ⟨answer, after, after', hstore, hother, ih answer hrest ?_⟩
        exact fun value later later' hexecutes =>
          hnext value later later' (.call choice hstore hexecutes)

/-- A run over the first store is one over the other. -/
theorem Alike.executes (h : Alike exec R program store other)
    (hexecutes : Executes exec program store result last) :
    ∃ last', Executes exec program other result last' ∧ R last last' := by
  induction hexecutes generalizing other with
  | ok value store => exact ⟨other, .ok value other, h⟩
  | fail error store => exact ⟨other, .fail error other, h⟩
  | call choice hanswered _ ih =>
      obtain ⟨hnone, -⟩ | ⟨answer, after, after', hstore, hother, hrest⟩ := h choice
      · rw [hanswered] at hnone
        cases hnone
      · rw [hanswered, Option.some.injEq, Prod.mk.injEq] at hstore
        obtain ⟨rfl, rfl⟩ := hstore
        obtain ⟨last', hrun, hlast⟩ := ih hrest
        exact ⟨last', .call choice hother hrun, hlast⟩

theorem Alike.symm (h : Alike exec R program store other) :
    Alike exec (fun store other => R other store) program other store := by
  induction program generalizing store other with
  | ok value | fail error => exact h
  | call name next ih =>
      intro choice
      obtain ⟨hstore, hother⟩ | ⟨answer, after, after', hstore, hother, hrest⟩ := h choice
      · exact .inl ⟨hother, hstore⟩
      · exact .inr ⟨answer, after', after, hother, hstore, ih answer hrest⟩

/-- The program has the same results over both stores. -/
theorem Alike.result_iff (h : Alike exec R program store other) :
    (∃ last, Executes exec program store result last) ↔
      ∃ last, Executes exec program other result last := by
  constructor
  · rintro ⟨last, hexecutes⟩
    obtain ⟨last', hother, -⟩ := h.executes hexecutes
    exact ⟨last', hother⟩
  · rintro ⟨last, hexecutes⟩
    obtain ⟨last', hstore, -⟩ := h.symm.executes hexecutes
    exact ⟨last', hstore⟩

/-! Programs that go on alike over any related stores. -/

section
variable (exec : (name : κ) → χ → σ → Option (α name × σ)) (R : σ → σ → Prop)

/-- The answers may differ where the program does the same with them. -/
def Blind (q : β → Prop) : Program κ α ε β → Prop
  | .ok result => q result
  | .fail _ => True
  | .call name next =>
      ∀ choice store other, R store other →
        (exec name choice store = none ∧ exec name choice other = none) ∨
          ∃ answer answer' after after', exec name choice store = some (answer, after) ∧
            exec name choice other = some (answer', after') ∧ R after after' ∧
            next answer' = next answer ∧ Blind q (next answer)

/-- Related stores answer the call alike, and as the property has it. -/
def Equally (name : κ) (r : α name → Prop) : Prop :=
  ∀ choice store other, R store other →
    (exec name choice store = none ∧ exec name choice other = none) ∨
      ∃ answer after after', exec name choice store = some (answer, after) ∧
        exec name choice other = some (answer, after') ∧ R after after' ∧ r answer

end

section
variable {q : β → Prop}

theorem Blind.bind {q' : γ → Prop} {next : β → Program κ α ε γ} (h : program.Blind exec R q)
    (hnext : ∀ result, q result → (next result).Blind exec R q') :
    (program >>= next).Blind exec R q' := by
  induction program with
  | ok result => exact hnext result h
  | fail error => trivial
  | call name answers ih =>
      intro choice store other hR
      obtain hnone | ⟨answer, answer', after, after', hstore, hother, hafter, hsame, hrest⟩ :=
        h choice store other hR
      · exact .inl hnone
      · refine .inr ⟨answer, answer', after, after', hstore, hother, hafter, ?_, ih answer hrest⟩
        exact congrArg (fun program => Program.bind program next) hsame

theorem Equally.blind {name : κ} {r : α name → Prop} {next : α name → Program κ α ε β}
    (h : Equally exec R name r) (hnext : ∀ answer, r answer → (next answer).Blind exec R q) :
    (Program.call name next).Blind exec R q := by
  intro choice store other hR
  obtain hnone | ⟨answer, after, after', hstore, hother, hafter, hanswer⟩ := h choice store other hR
  · exact .inl hnone
  · exact .inr ⟨answer, answer, after, after', hstore, hother, hafter, rfl, hnext answer hanswer⟩

end

end Authguard.Program

namespace Authguard.Pool

variable {κ : Type} {α : κ → Type} {ε β ρ σ χ : Type} {program : ρ → Program κ α ε β}
  {exec : Nat → (name : κ) → χ → σ → Option (α name × σ)} {R : σ → σ → Prop}

/-- The tasks of both pools are the same, and what is left of each goes on alike. -/
structure Parallel (exec : Nat → (name : κ) → χ → σ → Option (α name × σ)) (R : σ → σ → Prop)
    (pool other : Pool κ α ε β ρ σ) : Prop where
  tasks : other.tasks = pool.tasks
  stores : R pool.store other.store
  blind : ∀ (task : Nat) request (rest : Program κ α ε β),
    pool.tasks[task]? = some (request, rest) → rest.Blind (exec task) R fun _ => True

theorem parallel_idle {store other : σ} (h : R store other) :
    Parallel exec R (idle store : Pool κ α ε β ρ σ) (idle other) where
  tasks := rfl
  stores := h
  blind task request rest htask := by simp [idle] at htask

theorem step_parallel {pool other next : Pool κ α ε β ρ σ} {event : PoolEvent ρ χ}
    (hprogram : ∀ request, event = .start request → ∀ task,
      (program request).Blind (exec task) R fun _ => True)
    (h : Parallel exec R pool other) (hstep : step program exec pool event = some next) :
    ∃ next', step program exec other event = some next' ∧ Parallel exec R next next' := by
  obtain ⟨request, rfl, hstore, htasks⟩ |
    ⟨task, choice, request, name, rest, answer, rfl, htask, hexec, htasks⟩ := step_cases hstep
  · refine ⟨⟨other.store, other.tasks ++ [(request, program request)]⟩, rfl, ?_, ?_, ?_⟩
    · rw [htasks, h.tasks]
    · rw [hstore]
      exact h.stores
    · intro task request' rest htask
      rw [htasks] at htask
      obtain ⟨-, hbefore, -⟩ | ⟨-, heq, -⟩ := Runs.getElem?_concat_cases htask
      · exact h.blind task request' rest hbefore
      · cases heq
        exact hprogram request rfl task
  · have hblind := h.blind task request (.call name rest) htask
    obtain ⟨hnone, -⟩ |
      ⟨answered, answered', after, after', hanswered, hother, hafter, hsame, hrest⟩ :=
        hblind choice pool.store other.store h.stores
    · rw [hnone] at hexec
      cases hexec
    · rw [hanswered, Option.some.injEq, Prod.mk.injEq] at hexec
      obtain ⟨rfl, rfl⟩ := hexec
      refine ⟨⟨after', other.tasks.set task (request, rest answered')⟩, ?_, ?_, hafter, ?_⟩
      · simp only [step, h.tasks, htask, hother, Option.map_some]
      · rw [htasks, h.tasks, hsame]
      · intro current request' rest' hcurrent
        rw [htasks, List.getElem?_set] at hcurrent
        split at hcurrent
        · rename_i heq
          subst heq
          split at hcurrent
          · cases hcurrent
            exact hrest
          · cases hcurrent
        · exact h.blind current request' rest' hcurrent

/-- A run over one of two related stores is a run over the other, with the same tasks. -/
theorem run_parallel {pool other final : Pool κ α ε β ρ σ} {events : List (PoolEvent ρ χ)}
    (hprogram : ∀ request, .start request ∈ events → ∀ task,
      (program request).Blind (exec task) R fun _ => True)
    (h : Parallel exec R pool other)
    (hrun : Runs.run (step program exec) pool events = some final) :
    ∃ final', Runs.run (step program exec) other events = some final' ∧
      Parallel exec R final final' := by
  induction events generalizing pool other with
  | nil =>
      cases hrun
      exact ⟨other, rfl, h⟩
  | cons event events ih =>
      obtain ⟨next, hnext, hrest⟩ := Runs.run_cons_eq_some.mp hrun
      obtain ⟨next', hnext', hparallel⟩ := step_parallel
        (fun request heq => hprogram request (heq ▸ List.mem_cons_self)) h hnext
      obtain ⟨final', hfinal, hend⟩ := ih
        (fun request hmem => hprogram request (List.mem_cons_of_mem event hmem)) hparallel hrest
      exact ⟨final', Runs.run_cons_eq_some.mpr ⟨next', hnext', hfinal⟩, hend⟩

end Authguard.Pool
