import Authguard.Library.Program

/-!
The calls a pool made, in the order it made them, with the store around each. A
program can be shown to make a call only after certain answers; in every run the
calls of each of its tasks are then preceded by such answers.
-/

namespace Authguard

variable {κ : Type} {α : κ → Type} {ε β γ ρ χ σ : Type}

/-! What a program has heard when it makes a call. -/

namespace Program

variable {p : List (Σ name, α name) → κ → Prop} {q : List (Σ name, α name) → β → Prop}

/-- Every call satisfies the first property of the answers so far, every result the second. -/
def Tracks (p : List (Σ name, α name) → κ → Prop) (q : List (Σ name, α name) → β → Prop) :
    List (Σ name, α name) → Program κ α ε β → Prop
  | heard, .ok result => q heard result
  | _, .fail _ => True
  | heard, .call name next => p heard name ∧
      ∀ answer, Tracks p q (heard ++ [⟨name, answer⟩]) (next answer)

theorem Tracks.bind {r : List (Σ name, α name) → γ → Prop} {heard : List (Σ name, α name)}
    {program : Program κ α ε β} {next : β → Program κ α ε γ} (h : program.Tracks p q heard)
    (hnext : ∀ later result, q later result → (next result).Tracks p r later) :
    (program >>= next).Tracks p r heard := by
  induction program generalizing heard with
  | ok result => exact hnext heard result h
  | fail error => trivial
  | call name answers ih => exact ⟨h.1, fun answer => ih answer (h.2 answer)⟩

theorem Tracks.imp {q' : List (Σ name, α name) → β → Prop} {heard : List (Σ name, α name)}
    {program : Program κ α ε β} (h : program.Tracks p q heard)
    (himp : ∀ later result, q later result → q' later result) : program.Tracks p q' heard := by
  induction program generalizing heard with
  | ok result => exact himp heard result h
  | fail error => trivial
  | call name answers ih => exact ⟨h.1, fun answer => ih answer (h.2 answer)⟩

/-- A program of which no call needs anything, while what was heard stays heard. -/
theorem Within.tracks {c : κ → Prop} {d : β → Prop} (keep : List (Σ name, α name) → Prop)
    {heard : List (Σ name, α name)} {program : Program κ α ε β} (h : program.Within c d)
    (hcalls : ∀ heard name, keep heard → c name → p heard name)
    (hkeep : ∀ heard entry, keep heard → keep (heard ++ [entry])) (hheard : keep heard) :
    program.Tracks p (fun later result => keep later ∧ d result) heard := by
  induction program generalizing heard with
  | ok result => exact ⟨hheard, h⟩
  | fail error => trivial
  | call name answers ih =>
      refine ⟨hcalls heard name hheard h.1, fun answer => ?_⟩
      exact ih answer (h.2 answer) (hkeep heard _ hheard)

end Program

/-! Lists that grow at the end. -/

section
variable {μ : Type}

/-- Every item stands in the relation to the items before it. -/
def Each (p : List μ → μ → Prop) (items : List μ) : Prop :=
  ∀ i item, items[i]? = some item → p (items.take i) item

theorem each_nil (p : List μ → μ → Prop) : Each p [] := by
  intro i item h
  simp at h

theorem Each.concat {p : List μ → μ → Prop} {items : List μ} {item : μ} (h : Each p items)
    (hitem : p items item) : Each p (items ++ [item]) := by
  intro i other hother
  obtain ⟨-, hold, htake⟩ | ⟨-, rfl, htake⟩ := Runs.getElem?_concat_cases hother
  · rw [htake]
    exact h i other hold
  · rw [htake]
    exact hitem

theorem Each.mem {p : List μ → μ → Prop} {items : List μ} (h : Each p items) {item : μ}
    (hitem : item ∈ items) : ∃ before, (∀ other ∈ before, other ∈ items) ∧ p before item := by
  obtain ⟨i, hi⟩ := List.mem_iff_getElem?.mp hitem
  exact ⟨items.take i, fun _ hother => List.mem_of_mem_take hother, h i item hi⟩

theorem Each.take {p : List μ → μ → Prop} {items : List μ} (h : Each p items) (n : Nat) :
    Each p (items.take n) := by
  intro i item hitem
  rw [List.getElem?_take] at hitem
  split at hitem
  · rename_i hlt
    rw [List.take_take, min_eq_left hlt.le]
    exact h i item hitem
  · cases hitem

end

/-! The history of a run. -/

/-- A call a task made, its answer, the store around it and what is left of the task. -/
structure Moment (κ : Type) (α : κ → Type) (ε β σ : Type) where
  task : Nat
  name : κ
  answer : α name
  before : σ
  after : σ
  rest : Program κ α ε β

def Moment.entry (moment : Moment κ α ε β σ) : Σ name, α name := ⟨moment.name, moment.answer⟩

/-- What a task has heard. -/
def heardBy (task : Nat) (history : List (Moment κ α ε β σ)) : List (Σ name, α name) :=
  (history.filter fun moment => moment.task = task).map Moment.entry

theorem mem_heardBy {task : Nat} {history : List (Moment κ α ε β σ)} {entry : Σ name, α name} :
    entry ∈ heardBy task history ↔
      ∃ moment ∈ history, moment.task = task ∧ moment.entry = entry := by
  simp only [heardBy, List.mem_map, List.mem_filter, decide_eq_true_eq, and_assoc]

theorem heardBy_mono {task : Nat} {past history : List (Moment κ α ε β σ)}
    (h : ∀ moment ∈ past, moment ∈ history) : heardBy task past ⊆ heardBy task history := by
  intro entry hentry
  obtain ⟨moment, hmoment, hrest⟩ := mem_heardBy.mp hentry
  exact mem_heardBy.mpr ⟨moment, h moment hmoment, hrest⟩

namespace Pool

section
variable (program : ρ → Program κ α ε β)
  (exec : Nat → (name : κ) → χ → σ → Option (α name × σ))

/-- The call of one event. -/
def moment (pool : Pool κ α ε β ρ σ) : PoolEvent ρ χ → Option (Moment κ α ε β σ)
  | .start _ => none
  | .resume task choice =>
      match pool.tasks[task]? with
      | some (_, .call name next) =>
          (exec task name choice pool.store).map fun (answer, after) =>
            { task, name, answer, before := pool.store, after, rest := next answer }
      | _ => none

def history : Pool κ α ε β ρ σ → List (PoolEvent ρ χ) → List (Moment κ α ε β σ)
  | _, [] => []
  | pool, event :: events =>
      (pool.moment exec event).toList ++
        match step program exec pool event with
        | none => []
        | some next => history next events

end

variable {program : ρ → Program κ α ε β}
  {exec : Nat → (name : κ) → χ → σ → Option (α name × σ)}

theorem history_append {pool reached : Pool κ α ε β ρ σ} {past : List (PoolEvent ρ χ)}
    (hrun : Runs.run (step program exec) pool past = some reached) (more : List (PoolEvent ρ χ)) :
    history program exec pool (past ++ more) =
      history program exec pool past ++ history program exec reached more := by
  induction past generalizing pool with
  | nil =>
      cases hrun
      rfl
  | cons event past ih =>
      obtain ⟨next, hnext, hrun⟩ := Runs.run_cons_eq_some.mp hrun
      simp only [List.cons_append, history, hnext, ih hrun, List.append_assoc]

theorem history_concat {pool reached next : Pool κ α ε β ρ σ} {past : List (PoolEvent ρ χ)}
    {event : PoolEvent ρ χ} (hrun : Runs.run (step program exec) pool past = some reached)
    (hstep : step program exec reached event = some next) :
    history program exec pool (past ++ [event]) =
      history program exec pool past ++ (reached.moment exec event).toList := by
  rw [history_append hrun]
  simp only [history, hstep, List.append_nil]

/-- A step starts a task, or is the call of one. -/
theorem moment_cases {pool next : Pool κ α ε β ρ σ} {event : PoolEvent ρ χ}
    (h : step program exec pool event = some next) :
    (∃ request, event = .start request ∧ pool.moment exec event = none ∧
      next.store = pool.store ∧ next.tasks = pool.tasks ++ [(request, program request)]) ∨
    ∃ moment request choice continuation, pool.moment exec event = some moment ∧
      pool.tasks[moment.task]? = some (request, .call moment.name continuation) ∧
      exec moment.task moment.name choice pool.store = some (moment.answer, next.store) ∧
      moment.before = pool.store ∧ moment.after = next.store ∧
      moment.rest = continuation moment.answer ∧
      next.tasks = pool.tasks.set moment.task (request, moment.rest) := by
  obtain ⟨request, rfl, hstore, htasks⟩ |
    ⟨task, choice, request, name, rest, answer, rfl, htask, hexec, htasks⟩ := step_cases h
  · exact .inl ⟨request, rfl, rfl, hstore, htasks⟩
  · refine .inr ⟨⟨task, name, answer, pool.store, next.store, rest answer⟩, request, choice, rest,
      ?_, htask, hexec, rfl, rfl, rfl, htasks⟩
    simp only [moment, htask, hexec]
    rfl

/-- An invariant of the history and the pool, started and carried on call by call. -/
theorem history_invariant {store : σ} (inv : List (Moment κ α ε β σ) → Pool κ α ε β ρ σ → Prop)
    (hidle : inv [] (idle store))
    (hstart : ∀ history pool next request, inv history pool → next.store = pool.store →
      next.tasks = pool.tasks ++ [(request, program request)] → inv history next)
    (hcall : ∀ history pool next moment request choice continuation, inv history pool →
      pool.tasks[moment.task]? = some (request, .call moment.name continuation) →
      exec moment.task moment.name choice pool.store = some (moment.answer, next.store) →
      moment.before = pool.store → moment.after = next.store →
      moment.rest = continuation moment.answer →
      next.tasks = pool.tasks.set moment.task (request, moment.rest) →
      inv (history ++ [moment]) next)
    {events : List (PoolEvent ρ χ)} {final : Pool κ α ε β ρ σ}
    (hrun : Runs.run (step program exec) (idle store) events = some final) :
    inv (history program exec (idle store) events) final := by
  refine Runs.run_history_invariant
    (fun events pool => inv (history program exec (idle store) events) pool) ?_ hrun hidle
  intro past reached event next hpast hinv hstep
  rw [history_concat hpast hstep]
  obtain ⟨request, -, hmoment, hstore, htasks⟩ |
    ⟨moment, request, choice, continuation, hmoment, htask, hexec, hbefore, hafter, hrest,
      htasks⟩ := moment_cases hstep
  · rw [hmoment, Option.toList_none, List.append_nil]
    exact hstart _ reached next request hinv hstore htasks
  · rw [hmoment, Option.toList_some]
    exact hcall _ reached next moment request choice continuation hinv htask hexec hbefore hafter
      hrest htasks

/-- The call has the answer of the store, and is made after what its program needs to have
heard. -/
structure Called (exec : Nat → (name : κ) → χ → σ → Option (α name × σ))
    (p : List (Σ name, α name) → κ → Prop) (past : List (Moment κ α ε β σ))
    (moment : Moment κ α ε β σ) : Prop where
  heard : p (heardBy moment.task past) moment.name
  answered : ∃ choice, exec moment.task moment.name choice moment.before =
    some (moment.answer, moment.after)

theorem Called.of_entry {exec : Nat → (name : κ) → χ → σ → Option (α name × σ)}
    {p : List (Σ name, α name) → κ → Prop} {past : List (Moment κ α ε β σ)}
    {moment : Moment κ α ε β σ} (h : Called exec p past moment) {name : κ} {answer : α name}
    (hentry : moment.entry = ⟨name, answer⟩) :
    ∃ choice, exec moment.task name choice moment.before = some (answer, moment.after) := by
  obtain ⟨task, called, given, before, after, rest⟩ := moment
  cases hentry
  exact h.answered

/-- What is left of every task needs no more than it has heard. -/
structure Tracked (exec : Nat → (name : κ) → χ → σ → Option (α name × σ))
    (p : List (Σ name, α name) → κ → Prop) (q : ρ → List (Σ name, α name) → β → Prop)
    (history : List (Moment κ α ε β σ)) (pool : Pool κ α ε β ρ σ) : Prop where
  called : Each (Called exec p) history
  known : ∀ moment ∈ history, moment.task < pool.tasks.length
  tracks : ∀ (task : Nat) (request : ρ) (rest : Program κ α ε β),
    pool.tasks[task]? = some (request, rest) → rest.Tracks p (q request) (heardBy task history)

theorem run_tracked {p : List (Σ name, α name) → κ → Prop}
    {q : ρ → List (Σ name, α name) → β → Prop}
    (hprogram : ∀ request, (program request).Tracks p (q request) []) {store : σ}
    {events : List (PoolEvent ρ χ)} {final : Pool κ α ε β ρ σ}
    (hrun : Runs.run (step program exec) (idle store) events = some final) :
    Tracked exec p q (history program exec (idle store) events) final := by
  refine history_invariant (Tracked exec p q) ?_ ?_ ?_ hrun
  · exact ⟨each_nil _, by simp, by simp [idle]⟩
  · rintro history pool next request ⟨heach, htasks, htracks⟩ - hnext
    refine ⟨heach, ?_, ?_⟩
    · intro moment hmoment
      rw [hnext, List.length_append]
      exact (htasks moment hmoment).trans_le (Nat.le_add_right _ _)
    · intro task other rest htask
      rw [hnext, List.getElem?_append] at htask
      split at htask
      · exact htracks task other rest htask
      · rename_i hnew
        cases List.mem_singleton.mp (List.mem_of_getElem? htask)
        -- a new task has heard nothing yet
        have hnone : heardBy task history = [] := by
          rw [heardBy, List.map_eq_nil_iff, List.filter_eq_nil_iff]
          intro moment hmoment hsame
          have hlt := htasks moment hmoment
          rw [of_decide_eq_true hsame] at hlt
          exact hnew hlt
        rw [hnone]
        exact hprogram request
  · rintro history pool next moment request choice continuation ⟨heach, htasks, htracks⟩ htask
      hexec hbefore hafter hrest hnext
    have htracked := htracks moment.task request _ htask
    refine ⟨heach.concat ⟨htracked.1, choice, by rw [hbefore, hafter]; exact hexec⟩, ?_, ?_⟩
    · intro other hother
      rw [hnext, List.length_set]
      obtain hold | hnew := List.mem_append.mp hother
      · exact htasks other hold
      · rw [List.mem_singleton.mp hnew]
        exact (List.getElem?_eq_some_iff.mp htask).1
    · intro task other rest hother
      rw [hnext, List.getElem?_set] at hother
      split at hother
      · rename_i hsame
        subst hsame
        split at hother
        · cases hother
          have hheard : heardBy moment.task (history ++ [moment]) =
              heardBy moment.task history ++ [moment.entry] := by
            simp [heardBy]
          rw [hheard, hrest]
          exact htracked.2 moment.answer
        · cases hother
      · rename_i hother'
        have hheard : heardBy task (history ++ [moment]) = heardBy task history := by
          simp [heardBy, hother']
        rw [hheard]
        exact htracks task other rest hother

end Pool

end Authguard
