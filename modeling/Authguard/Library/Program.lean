import Authguard.Library.Runs

/-!
Programs that touch a shared store only through calls, and pools of them: each
step of a pool lets one program make its next call, so a run of the pool is any
interleaving at the calls. What one program keeps, whatever the others do to the
store between its calls, is a property of that program alone; a pool of programs
that all keep the same relation keeps it in every run.
-/

namespace Authguard

/-- `α name` is what the call `name` answers. -/
inductive Program (κ : Type) (α : κ → Type) (ε β : Type)
  | ok (result : β)
  | fail (error : ε)
  | call (name : κ) (next : α name → Program κ α ε β)

namespace Program

variable {κ : Type} {α : κ → Type} {ε β γ : Type}

def bind : Program κ α ε β → (β → Program κ α ε γ) → Program κ α ε γ
  | .ok result, next => next result
  | .fail error, _ => .fail error
  | .call name answer, next => .call name fun value => (answer value).bind next

instance : Monad (Program κ α ε) where
  pure := .ok
  bind := bind

/-- The program over more calls, `into` naming its own among them. -/
def lift {κ' : Type} {α' : κ' → Type} {ε' : Type} (into : κ → κ')
    (answer : ∀ name, α' (into name) → α name) (error : ε → ε') :
    Program κ α ε β → Program κ' α' ε' β
  | .ok result => .ok result
  | .fail failure => .fail (error failure)
  | .call name next => .call (into name) fun value => (next (answer name value)).lift into answer error

/-- Every call the program can make satisfies the first property, every result the second. -/
def Within (p : κ → Prop) (q : β → Prop) : Program κ α ε β → Prop
  | .ok result => q result
  | .fail _ => True
  | .call name next => p name ∧ ∀ value, (next value).Within p q

section
variable {p : κ → Prop} {q : β → Prop}

theorem within_true (program : Program κ α ε β) :
    program.Within (fun _ => True) fun _ => True := by
  induction program with
  | ok result | fail error => trivial
  | call name next ih => exact ⟨trivial, ih⟩

theorem Within.imp {r : β → Prop} {program : Program κ α ε β} (h : program.Within p q)
    (himp : ∀ result, q result → r result) : program.Within p r := by
  induction program with
  | ok result => exact himp result h
  | fail error => trivial
  | call name next ih => exact ⟨h.1, fun value => ih value (h.2 value)⟩

theorem Within.bind {r : γ → Prop} {program : Program κ α ε β} {next : β → Program κ α ε γ}
    (h : program.Within p q) (hnext : ∀ result, q result → (next result).Within p r) :
    (program >>= next).Within p r := by
  induction program with
  | ok result => exact hnext result h
  | fail error => trivial
  | call name answer ih => exact ⟨h.1, fun value => ih value (h.2 value)⟩

theorem Within.lift {κ' : Type} {α' : κ' → Type} {ε' : Type} {into : κ → κ'}
    {answer : ∀ name, α' (into name) → α name} {error : ε → ε'} {p' : κ' → Prop}
    {program : Program κ α ε β} (h : program.Within p q) (hinto : ∀ name, p name → p' (into name)) :
    (program.lift into answer error).Within p' q := by
  induction program with
  | ok result => exact h
  | fail failure => trivial
  | call name next ih =>
      exact ⟨hinto name h.1, fun value => ih (answer name value) (h.2 (answer name value))⟩

end

/-- Every call the program can make has the first property, where the calls before are
answered as the second has it, and so has every result the third. -/
def Guarded (p : κ → Prop) (r : (name : κ) → α name → Prop) (q : β → Prop) :
    Program κ α ε β → Prop
  | .ok result => q result
  | .fail _ => True
  | .call name next => p name ∧ ∀ value, r name value → (next value).Guarded p r q

section
variable {p : κ → Prop} {r : (name : κ) → α name → Prop} {q : β → Prop}

theorem Guarded.imp {q' : β → Prop} {program : Program κ α ε β} (h : program.Guarded p r q)
    (himp : ∀ result, q result → q' result) : program.Guarded p r q' := by
  induction program with
  | ok result => exact himp result h
  | fail error => trivial
  | call name next ih => exact ⟨h.1, fun value hvalue => ih value (h.2 value hvalue)⟩

theorem Guarded.bind {q' : γ → Prop} {program : Program κ α ε β} {next : β → Program κ α ε γ}
    (h : program.Guarded p r q) (hnext : ∀ result, q result → (next result).Guarded p r q') :
    (program >>= next).Guarded p r q' := by
  induction program with
  | ok result => exact hnext result h
  | fail error => trivial
  | call name answer ih => exact ⟨h.1, fun value hvalue => ih value (h.2 value hvalue)⟩

end

def isDone : Program κ α ε β → Bool
  | .call _ _ => false
  | _ => true

@[simp] theorem pure_eq (result : β) : (pure result : Program κ α ε β) = .ok result := rfl

@[simp] theorem ok_bind (result : β) (next : β → Program κ α ε γ) :
    (Program.ok result >>= next : Program κ α ε γ) = next result := rfl

@[simp] theorem fail_bind (error : ε) (next : β → Program κ α ε γ) :
    (Program.fail error >>= next : Program κ α ε γ) = .fail error := rfl

@[simp] theorem call_bind (name : κ) (answer : α name → Program κ α ε β)
    (next : β → Program κ α ε γ) :
    (Program.call name answer >>= next : Program κ α ε γ) =
      .call name fun value => answer value >>= next := rfl

/-! Single runs of one program, whatever answers it gets. -/

/-- The program ends with the result when its calls are answered as in the trace. -/
inductive Traced : Program κ α ε β → List (Σ name, α name) → Except ε β → Prop
  | ok (result : β) : Traced (.ok result) [] (.ok result)
  | fail (error : ε) : Traced (.fail error) [] (.error error)
  | call {name : κ} {next : α name → Program κ α ε β} {answer : α name}
      {trace : List (Σ name, α name)} {result : Except ε β} (rest : Traced (next answer) trace result) :
      Traced (.call name next) (⟨name, answer⟩ :: trace) result

theorem Traced.of_bind {program : Program κ α ε β} {next : β → Program κ α ε γ}
    {trace : List (Σ name, α name)} {result : γ}
    (h : Traced (program >>= next) trace (.ok result)) :
    ∃ value first rest, trace = first ++ rest ∧ Traced program first (.ok value) ∧
      Traced (next value) rest (.ok result) := by
  induction program generalizing trace with
  | ok value => exact ⟨value, [], trace, rfl, .ok value, h⟩
  | fail error => cases h
  | call name answers ih =>
      cases h with
      | call hrest =>
          obtain ⟨value, first, rest, htrace, hprogram, hnext⟩ := ih _ hrest
          exact ⟨value, _ :: first, rest, by rw [htrace, List.cons_append], .call hprogram, hnext⟩

theorem Traced.within {p : κ → Prop} {q : β → Prop} {program : Program κ α ε β}
    {trace : List (Σ name, α name)} {result : β} (h : program.Within p q)
    (htraced : Traced program trace (.ok result)) : (∀ entry ∈ trace, p entry.1) ∧ q result := by
  induction program generalizing trace with
  | ok value =>
      cases htraced
      exact ⟨fun _ hentry => absurd hentry List.not_mem_nil, h⟩
  | fail error => cases htraced
  | call name next ih =>
      cases htraced with
      | call hrest =>
          obtain ⟨hcalls, hresult⟩ := ih _ (h.2 _) hrest
          exact ⟨List.forall_mem_cons.mpr ⟨h.1, hcalls⟩, hresult⟩

/-- The run in which every call of one name gets one answer. -/
def follow (answers : ∀ name, α name) : Program κ α ε β → List (Σ name, α name) × Except ε β
  | .ok result => ([], .ok result)
  | .fail error => ([], .error error)
  | .call name next =>
      let (trace, result) := (next (answers name)).follow answers
      (⟨name, answers name⟩ :: trace, result)

theorem traced_follow (answers : ∀ name, α name) (program : Program κ α ε β) :
    Traced program (program.follow answers).1 (program.follow answers).2 := by
  induction program with
  | ok result => exact .ok result
  | fail error => exact .fail error
  | call name next ih => exact .call (ih (answers name))

/-! Runs of one program that has the store to itself. -/

section
variable {σ χ : Type} (exec : (name : κ) → χ → σ → Option (α name × σ))

/-- Started on one store, the program ends with the result and leaves the other. -/
inductive Executes : Program κ α ε β → σ → Except ε β → σ → Prop
  | ok (result : β) (store : σ) : Executes (.ok result) store (.ok result) store
  | fail (error : ε) (store : σ) : Executes (.fail error) store (.error error) store
  | call {name : κ} {next : α name → Program κ α ε β} {store after last : σ} {answer : α name}
      {result : Except ε β} (choice : χ) (answered : exec name choice store = some (answer, after))
      (rest : Executes (next answer) after result last) :
      Executes (.call name next) store result last

variable {exec} {store last : σ}

theorem executes_bind {program : Program κ α ε β} {next : β → Program κ α ε γ} {result : γ} :
    Executes exec (program >>= next) store (.ok result) last ↔
      ∃ value middle, Executes exec program store (.ok value) middle ∧
        Executes exec (next value) middle (.ok result) last := by
  constructor
  · intro h
    induction program generalizing store with
    | ok value => exact ⟨value, store, .ok value store, h⟩
    | fail error => cases h
    | call name answers ih =>
        cases h with
        | call choice hanswered hrest =>
            obtain ⟨value, middle, hprogram, hnext⟩ := ih _ hrest
            exact ⟨value, middle, .call choice hanswered hprogram, hnext⟩
  · rintro ⟨value, middle, hprogram, hnext⟩
    induction program generalizing store with
    | ok value =>
        cases hprogram
        exact hnext
    | fail error => cases hprogram
    | call name answers ih =>
        cases hprogram with
        | call choice hanswered hrest => exact .call choice hanswered (ih _ hrest)

theorem executes_ok {value : β} {result : Except ε β} :
    Executes exec (.ok value) store result last ↔ result = .ok value ∧ last = store := by
  constructor
  · rintro ⟨⟩
    exact ⟨rfl, rfl⟩
  · rintro ⟨rfl, rfl⟩
    exact .ok value last

/-- The run in which every call is settled by one choice. -/
def evaluate (exec : (name : κ) → χ → σ → Option (α name × σ)) (choice : χ) :
    Program κ α ε β → σ → Option (Except ε β × σ)
  | .ok result, store => some (.ok result, store)
  | .fail error, store => some (.error error, store)
  | .call name next, store =>
      (exec name choice store).bind fun answered =>
        (next answered.1).evaluate exec choice answered.2

theorem executes_of_evaluate {choice : χ} {program : Program κ α ε β} {result : Except ε β}
    (h : program.evaluate exec choice store = some (result, last)) :
    Executes exec program store result last := by
  induction program generalizing store with
  | ok value =>
      cases h
      exact .ok value last
  | fail error =>
      cases h
      exact .fail error last
  | call name next ih =>
      obtain ⟨⟨answer, after⟩, hanswered, hrest⟩ := Option.bind_eq_some_iff.mp h
      exact .call choice hanswered (ih answer hrest)

/-- What follows a run that ended. -/
def continueWith (exec : (name : κ) → χ → σ → Option (α name × σ)) (choice : χ)
    (next : β → Program κ α ε γ) : Except ε β × σ → Option (Except ε γ × σ)
  | (.ok value, store) => (next value).evaluate exec choice store
  | (.error error, store) => some (.error error, store)

theorem evaluate_bind (exec : (name : κ) → χ → σ → Option (α name × σ)) (choice : χ)
    (program : Program κ α ε β) (next : β → Program κ α ε γ) (store : σ) :
    (program >>= next).evaluate exec choice store =
      (program.evaluate exec choice store).bind (continueWith exec choice next) := by
  induction program generalizing store with
  | ok value => rfl
  | fail error => rfl
  | call name answer ih =>
      rw [call_bind, evaluate, evaluate, Option.bind_assoc]
      exact Option.bind_congr fun answered _ => ih answered.1 answered.2

/-- A program over part of the store, run over the whole of it. -/
theorem evaluate_lift {κ' σ' χ' : Type} {α' : κ' → Type} {ε' : Type} (program : Program κ α ε β)
    (into : κ → κ') (answer : ∀ name, α' (into name) → α name) (error : ε → ε')
    (exec : (name : κ) → χ → σ → Option (α name × σ)) (choice : χ)
    (exec' : (name : κ') → χ' → σ' → Option (α' name × σ')) (choice' : χ')
    (get : σ' → σ) (put : σ' → σ → σ') (hget : ∀ whole part, get (put whole part) = part)
    (hput : ∀ whole part other, put (put whole part) other = put whole other)
    (hsame : ∀ whole, put whole (get whole) = whole)
    (hexec : ∀ name whole, (exec' (into name) choice' whole).map (Prod.map (answer name) id) =
      (exec name choice (get whole)).map (Prod.map id (put whole))) (whole : σ') :
    (program.lift into answer error).evaluate exec' choice' whole =
      (program.evaluate exec choice (get whole)).map (Prod.map (Except.mapError error) (put whole)) := by
  induction program generalizing whole with
  | ok result => exact congrArg (fun store => some (Except.ok result, store)) (hsame whole).symm
  | fail failure =>
      exact congrArg (fun store => some (Except.error (error failure), store)) (hsame whole).symm
  | call name next ih =>
      have hstep : ∀ answered : α' (into name) × σ',
          ((next (answer name answered.1)).lift into answer error).evaluate exec' choice'
              answered.2 =
            ((next (answer name answered.1)).evaluate exec choice (get answered.2)).map
              (Prod.map (Except.mapError error) (put answered.2)) :=
        fun answered => ih (answer name answered.1) answered.2
      calc
        _ = ((exec' (into name) choice' whole).map (Prod.map (answer name) id)).bind fun answered =>
              ((next answered.1).evaluate exec choice (get answered.2)).map
                (Prod.map (Except.mapError error) (put answered.2)) := by
            rw [Option.bind_map]
            exact Option.bind_congr fun answered _ => hstep answered
        _ = _ := by
            rw [hexec, Option.bind_map, evaluate, Option.map_bind]
            refine Option.bind_congr fun answered _ => ?_
            have hmaps : Prod.map (Except.mapError error) (put (put whole answered.2)) =
                (Prod.map (Except.mapError error) (put whole) :
                  Except ε β × σ → Except ε' β × σ') := by
              funext ended
              exact Prod.ext rfl (hput whole answered.2 ended.2)
            rw [Function.comp_apply, Prod.map_snd, hget, hmaps]
            rfl

end

/-! The relation a program keeps. `Step` says how the store answers a call. -/

section
variable {σ : Type} (Step : (name : κ) → σ → α name → σ → Prop) (Keeps : σ → σ → Prop)

/-- Every call of the program keeps the relation and a result meets the
postcondition, with the store moving along the relation between the calls. -/
def Meets (post : β → σ → Prop) : Program κ α ε β → σ → Prop
  | .ok result, store => ∀ later, Keeps store later → post result later
  | .fail _, _ => True
  | .call name next, store =>
      ∀ later, Keeps store later → ∀ answer after, Step name later answer after →
        Keeps later after ∧ Meets post (next answer) after

variable {Step Keeps} {post : β → σ → Prop}

theorem Meets.later [IsTrans σ Keeps] {program : Program κ α ε β} {store later : σ}
    (h : Meets Step Keeps post program store) (hlater : Keeps store later) :
    Meets Step Keeps post program later := by
  cases program with
  | ok result => exact fun last hlast => h last (trans_of Keeps hlater hlast)
  | fail error => trivial
  | call name next => exact fun last hlast => h last (trans_of Keeps hlater hlast)

theorem meets_ok {result : β} {store : σ} (h : ∀ later, Keeps store later → post result later) :
    Meets Step Keeps post (.ok result : Program κ α ε β) store := h

theorem meets_fail (error : ε) (store : σ) :
    Meets Step Keeps post (.fail error : Program κ α ε β) store := trivial

theorem Meets.imp {post' : β → σ → Prop} {program : Program κ α ε β} {store : σ}
    (h : Meets Step Keeps post program store)
    (himp : ∀ result last, post result last → post' result last) :
    Meets Step Keeps post' program store := by
  induction program generalizing store with
  | ok result => exact fun later hlater => himp result later (h later hlater)
  | fail error => trivial
  | call name next ih =>
      intro later hlater answer after hstep
      obtain ⟨hkeeps, hnext⟩ := h later hlater answer after hstep
      exact ⟨hkeeps, ih answer hnext⟩

/-- What the relation preserves still holds where the program ends. -/
theorem Meets.frame [IsTrans σ Keeps] {p : σ → Prop} {program : Program κ α ε β} {store : σ}
    (h : Meets Step Keeps post program store)
    (hstable : ∀ store later, Keeps store later → p store → p later) (hp : p store) :
    Meets Step Keeps (fun result last => post result last ∧ p last) program store := by
  induction program generalizing store with
  | ok result => exact fun later hlater => ⟨h later hlater, hstable store later hlater hp⟩
  | fail error => trivial
  | call name next ih =>
      intro later hlater answer after hstep
      obtain ⟨hkeeps, hnext⟩ := h later hlater answer after hstep
      exact ⟨hkeeps, ih answer hnext (hstable store after (trans_of Keeps hlater hkeeps) hp)⟩

theorem Meets.preserves [IsTrans σ Keeps] {p : σ → Prop} {program : Program κ α ε β} {store : σ}
    (h : Meets Step Keeps post program store)
    (hstable : ∀ store later, Keeps store later → p store → p later) (hp : p store) :
    Meets Step Keeps (fun _ last => p last) program store :=
  (h.frame hstable hp).imp fun _ _ hlast => hlast.2

/-- A program whose calls all keep the relation: its result is one it can return. -/
theorem Within.meets {p : κ → Prop} {q : β → Prop} {program : Program κ α ε β}
    (h : program.Within p q)
    (hkeeps : ∀ name store value after, p name → Step name store value after →
      Keeps store after) (store : σ) :
    Meets Step Keeps (fun result _ => q result) program store := by
  induction program generalizing store with
  | ok result => exact fun _ _ => h
  | fail error => trivial
  | call name next ih =>
      intro later _ value after hstep
      exact ⟨hkeeps name later value after h.1 hstep, ih value (h.2 value) after⟩

/-- A result is also one the program can return. -/
theorem Meets.within {p : κ → Prop} {q : β → Prop} {program : Program κ α ε β} {store : σ}
    (h : Meets Step Keeps post program store) (hwithin : program.Within p q) :
    Meets Step Keeps (fun result last => post result last ∧ q result) program store := by
  induction program generalizing store with
  | ok result => exact fun later hlater => ⟨h later hlater, hwithin⟩
  | fail error => trivial
  | call name next ih =>
      intro later hlater answer after hstep
      obtain ⟨hkeeps, hnext⟩ := h later hlater answer after hstep
      exact ⟨hkeeps, ih answer hnext (hwithin.2 answer)⟩

/-- A program over fewer calls, where its calls are answered as the store answers them. -/
theorem Meets.lift {κ' : Type} {α' : κ' → Type} {ε' : Type} {into : κ → κ'}
    {answer : ∀ name, α' (into name) → α name} {error : ε → ε'}
    {Step' : (name : κ') → σ → α' name → σ → Prop} {program : Program κ α ε β} {store : σ}
    (h : Meets (fun name store value after =>
      ∃ answered, answer name answered = value ∧ Step' (into name) store answered after)
      Keeps post program store) :
    Meets Step' Keeps post (program.lift into answer error) store := by
  induction program generalizing store with
  | ok result => exact h
  | fail failure => trivial
  | call name next ih =>
      intro later hlater answered after hstep
      obtain ⟨hkeeps, hnext⟩ := h later hlater (answer name answered) after ⟨answered, rfl, hstep⟩
      exact ⟨hkeeps, ih (answer name answered) hnext⟩

/-- What the relation preserves may be assumed of every store a call is made in. -/
theorem Meets.assuming [IsTrans σ Keeps] {p : σ → Prop} {program : Program κ α ε β} {store : σ}
    (h : Meets (fun name store value after => p store ∧ Step name store value after) Keeps post
      program store)
    (hstable : ∀ store later, Keeps store later → p store → p later) (hp : p store) :
    Meets Step Keeps post program store := by
  induction program generalizing store with
  | ok result => exact h
  | fail error => trivial
  | call name next ih =>
      intro later hlater answer after hstep
      have hlast := hstable store later hlater hp
      obtain ⟨hkeeps, hnext⟩ := h later hlater answer after ⟨hlast, hstep⟩
      exact ⟨hkeeps, ih answer hnext (hstable later after hkeeps hlast)⟩

/-- Sequencing: what follows is met in every store the first part may end in. -/
theorem Meets.bind [Std.Refl Keeps] {middle : β → σ → Prop} {post : γ → σ → Prop}
    {program : Program κ α ε β} {next : β → Program κ α ε γ} {store : σ}
    (h : Meets Step Keeps middle program store)
    (hnext : ∀ result store, middle result store → Meets Step Keeps post (next result) store) :
    Meets Step Keeps post (program >>= next) store := by
  induction program generalizing store with
  | ok result => exact hnext result store (h store (refl_of Keeps store))
  | fail error => trivial
  | call name answer ih =>
      intro later hlater value after hstep
      obtain ⟨hkeeps, hanswer⟩ := h later hlater value after hstep
      exact ⟨hkeeps, ih value hanswer⟩

end

end Program

/-! Pools. -/

section
variable {κ : Type} {α : κ → Type} {ε β ρ χ σ : Type}

/-- The store, and of every request started so far what is left of its program. -/
structure Pool (κ : Type) (α : κ → Type) (ε β ρ σ : Type) where
  store : σ
  tasks : List (ρ × Program κ α ε β)

inductive PoolEvent (ρ χ : Type)
  | start (request : ρ)
  /-- The task makes its next call; the choice settles what the call leaves open. -/
  | resume (task : Nat) (choice : χ)

namespace Pool

section
variable (program : ρ → Program κ α ε β)
  (exec : Nat → (name : κ) → χ → σ → Option (α name × σ))

/-- The store may tell which task makes a call. -/
def step (pool : Pool κ α ε β ρ σ) : PoolEvent ρ χ → Option (Pool κ α ε β ρ σ)
  | .start request => some { pool with tasks := pool.tasks ++ [(request, program request)] }
  | .resume task choice =>
      match pool.tasks[task]? with
      | some (request, .call name next) =>
          (exec task name choice pool.store).map fun (answer, store) =>
            { store, tasks := pool.tasks.set task (request, next answer) }
      | _ => none

/-- The event lets a task make the call. -/
def Calls (pool : Pool κ α ε β ρ σ) (event : PoolEvent ρ χ) (name : κ) : Prop :=
  ∃ task choice request next, event = .resume task choice ∧
    pool.tasks[task]? = some (request, .call name next)

end

/-- Before anything was started. -/
def idle (store : σ) : Pool κ α ε β ρ σ := ⟨store, []⟩

variable {program : ρ → Program κ α ε β}
  {exec : Nat → (name : κ) → χ → σ → Option (α name × σ)}

theorem step_cases {pool next : Pool κ α ε β ρ σ} {event : PoolEvent ρ χ}
    (h : step program exec pool event = some next) :
    (∃ request, event = .start request ∧ next.store = pool.store ∧
      next.tasks = pool.tasks ++ [(request, program request)]) ∨
    ∃ task choice request name rest answer, event = .resume task choice ∧
      pool.tasks[task]? = some (request, .call name rest) ∧
      exec task name choice pool.store = some (answer, next.store) ∧
      next.tasks = pool.tasks.set task (request, rest answer) := by
  cases event with
  | start request =>
      cases h
      exact .inl ⟨request, rfl, rfl, rfl⟩
  | resume task choice =>
      simp only [step] at h
      split at h
      · rename_i request name rest htask
        obtain ⟨⟨answer, store⟩, hexec, rfl⟩ := Option.map_eq_some_iff.mp h
        exact .inr ⟨task, choice, request, name, rest, answer, rfl, htask, hexec, rfl⟩
      · cases h

/-- What the task was started for. -/
def requestOf (pool : Pool κ α ε β ρ σ) (task : Nat) : Option ρ := (pool.tasks[task]?).map Prod.fst

theorem requestOf_step {pool next : Pool κ α ε β ρ σ} {event : PoolEvent ρ χ}
    (h : step program exec pool event = some next) {task : Nat} {request : ρ}
    (hrequest : pool.requestOf task = some request) : next.requestOf task = some request := by
  obtain ⟨⟨_, rest⟩, htask, rfl⟩ := Option.map_eq_some_iff.mp hrequest
  obtain ⟨other, -, -, htasks⟩ |
    ⟨resumed, choice, other, name, rest', answer, -, hresumed, -, htasks⟩ := step_cases h
  · rw [requestOf, htasks, List.getElem?_append_left (List.getElem?_eq_some_iff.mp htask).1, htask]
    rfl
  · rw [requestOf, htasks, List.getElem?_set]
    split
    · rename_i hsame
      subst hsame
      rw [htask] at hresumed
      cases hresumed
      rw [if_pos (List.getElem?_eq_some_iff.mp htask).1]
      rfl
    · rw [htask]
      rfl

theorem requestOf_started {store : σ} {events : List (PoolEvent ρ χ)}
    {final : Pool κ α ε β ρ σ} (hrun : Runs.run (step program exec) (idle store) events = some final)
    {task : Nat} {request : ρ} (hrequest : final.requestOf task = some request) :
    .start request ∈ events := by
  refine Runs.run_history_invariant
    (fun events pool => ∀ task request, pool.requestOf task = some request →
      PoolEvent.start request ∈ events) ?_ hrun ?_ task request hrequest
  · intro past reached event next _ hpast hstep task request hrequest
    obtain ⟨⟨_, rest⟩, htask, rfl⟩ := Option.map_eq_some_iff.mp hrequest
    obtain ⟨other, rfl, -, htasks⟩ |
      ⟨resumed, choice, other, name, rest', answer, -, hresumed, -, htasks⟩ := step_cases hstep
    · rw [htasks, List.getElem?_append] at htask
      split at htask
      · exact List.mem_append_left _ (hpast task _ (by rw [requestOf, htask]; rfl))
      · cases List.mem_singleton.mp (List.mem_of_getElem? htask)
        exact List.mem_append_right _ List.mem_cons_self
    · rw [htasks, List.getElem?_set] at htask
      split at htask
      · rename_i hsame
        subst hsame
        split at htask
        · cases htask
          exact List.mem_append_left _ (hpast resumed _ (by rw [requestOf, hresumed]; rfl))
        · cases htask
      · exact List.mem_append_left _ (hpast task _ (by rw [requestOf, htask]; rfl))
  · intro task request hidle
    simp [requestOf, idle] at hidle

theorem requestOf_run {pool final : Pool κ α ε β ρ σ} {events : List (PoolEvent ρ χ)}
    (hrun : Runs.run (step program exec) pool events = some final) {task : Nat} {request : ρ}
    (hrequest : pool.requestOf task = some request) : final.requestOf task = some request :=
  Runs.run_invariant_of_step (fun later => later.requestOf task = some request)
    (fun _ _ _ hlater hstep => requestOf_step hstep hlater) hrun hrequest

/-- Every task is started for the request it has at the end. -/
theorem along_requestOf {pool final : Pool κ α ε β ρ σ} {events : List (PoolEvent ρ χ)}
    (hrun : Runs.run (step program exec) pool events = some final) :
    Runs.Along (step program exec) (fun pool event => ∀ request, event = .start request →
      final.requestOf pool.tasks.length = some request) pool events := by
  refine Runs.along_of_passes hrun fun event before after hpasses => ?_
  rintro request rfl
  obtain ⟨past, future, -, -, hstep, hfuture⟩ := hpasses.split hrun
  cases hstep
  exact requestOf_run hfuture (by simp [requestOf])

section
variable (respond : (name : κ) → χ → σ → Option (α name × σ)) (Allowed : κ → σ → Prop)

/-- A call that is allowed in the store it is made in, and its answer. -/
def Answers (name : κ) (store : σ) (answer : α name) (after : σ) : Prop :=
  Allowed name store ∧ ∃ choice, respond name choice store = some (answer, after)

/-- Every call of the event is allowed. -/
def Allows (pool : Pool κ α ε β ρ σ) (event : PoolEvent ρ χ) : Prop :=
  ∀ name, pool.Calls event name → Allowed name pool.store

end

theorem allows_start {Allowed : κ → σ → Prop} (pool : Pool κ α ε β ρ σ) (request : ρ) :
    pool.Allows Allowed (.start request : PoolEvent ρ χ) := by
  rintro name ⟨task, choice, other, next, heq, -⟩
  cases heq

theorem allows_resume {Allowed : κ → σ → Prop} {pool : Pool κ α ε β ρ σ} {task : Nat}
    {request : ρ} {name : κ} {next : α name → Program κ α ε β} (choice : χ)
    (htask : pool.tasks[task]? = some (request, .call name next)) :
    pool.Allows Allowed (.resume task choice : PoolEvent ρ χ) ↔ Allowed name pool.store := by
  constructor
  · exact fun h => h name ⟨task, choice, request, next, rfl, htask⟩
  · rintro h other ⟨task', choice', request', next', heq, htask'⟩
    cases heq
    rw [htask] at htask'
    cases htask'
    exact h

/-- The call a task makes next. -/
def nextCall (pool : Pool κ α ε β ρ σ) (task : Nat) : Option κ :=
  match pool.tasks[task]? with
  | some (_, .call name _) => some name
  | _ => none

instance Allows.decidable {Allowed : κ → σ → Prop} [∀ name store, Decidable (Allowed name store)]
    (pool : Pool κ α ε β ρ σ) (event : PoolEvent ρ χ) : Decidable (pool.Allows Allowed event) :=
  match event with
  | .start request => isTrue (pool.allows_start request)
  | .resume task choice =>
      match h : pool.nextCall task with
      | none => isTrue (by
          rintro name ⟨task', choice', request, next, heq, htask⟩
          cases heq
          simp [nextCall, htask] at h)
      | some name => decidable_of_iff (Allowed name pool.store) (by
          simp only [nextCall] at h
          split at h
          · rename_i request called next htask
            cases h
            exact (allows_resume choice htask).symm
          · cases h)

section
variable {Allowed : κ → σ → Prop} {Keeps : σ → σ → Prop} {post : Nat → ρ → β → σ → Prop}

/-- Every task of the pool keeps the relation from here on. -/
def Meets (exec : Nat → (name : κ) → χ → σ → Option (α name × σ)) (Allowed : κ → σ → Prop)
    (Keeps : σ → σ → Prop) (post : Nat → ρ → β → σ → Prop) (pool : Pool κ α ε β ρ σ) : Prop :=
  ∀ task request rest, pool.tasks[task]? = some (request, rest) →
    Program.Meets (Answers (exec task) Allowed) Keeps (post task request) rest pool.store

theorem meets_idle (store : σ) :
    Meets exec Allowed Keeps post (idle store : Pool κ α ε β ρ σ) := by
  intro task request rest htask
  simp [idle] at htask

/-- A task that returned meets its postcondition. -/
theorem returned_meets [Std.Refl Keeps] {pool : Pool κ α ε β ρ σ}
    (h : Meets exec Allowed Keeps post pool) {task : Nat} {request : ρ} {result : β}
    (htask : pool.tasks[task]? = some (request, .ok result)) :
    post task request result pool.store :=
  h task request (.ok result) htask pool.store (refl_of Keeps pool.store)

variable [Std.Refl Keeps] [IsTrans σ Keeps]

/-- One step keeps the relation, and the tasks go on keeping it. -/
theorem step_meets {pool next : Pool κ α ε β ρ σ} {event : PoolEvent ρ χ}
    (hprogram : ∀ request, event = .start request → ∀ store,
      Program.Meets (Answers (exec pool.tasks.length) Allowed) Keeps
        (post pool.tasks.length request) (program request) store)
    (h : Meets exec Allowed Keeps post pool) (hallows : pool.Allows Allowed event)
    (hstep : step program exec pool event = some next) :
    Keeps pool.store next.store ∧ Meets exec Allowed Keeps post next := by
  obtain ⟨request, hevent, hstore, htasks⟩ |
    ⟨task, choice, request, name, rest, answer, rfl, htask, hexec, htasks⟩ := step_cases hstep
  · rw [hstore]
    refine ⟨refl_of Keeps pool.store, ?_⟩
    intro other request' rest hother
    rw [htasks] at hother
    rw [hstore]
    obtain ⟨-, hother, -⟩ | ⟨rfl, heq, -⟩ := Runs.getElem?_concat_cases hother
    · exact h other request' rest hother
    · cases heq
      exact hprogram request hevent pool.store
  · have hallowed := hallows name ⟨task, choice, request, rest, rfl, htask⟩
    obtain ⟨hkeeps, hrest⟩ := h task request (.call name rest) htask
      pool.store (refl_of Keeps pool.store) answer next.store ⟨hallowed, choice, hexec⟩
    refine ⟨hkeeps, ?_⟩
    intro other request' rest' hother
    rw [htasks, List.getElem?_set] at hother
    split at hother
    · rename_i hsame
      subst hsame
      split at hother
      · cases hother
        exact hrest
      · cases hother
    · exact (h other request' rest' hother).later hkeeps

/-- A run keeps the relation, and the tasks go on keeping it. -/
theorem run_meets_along {Started : Nat → ρ → Prop} {pool final : Pool κ α ε β ρ σ}
    {events : List (PoolEvent ρ χ)}
    (hprogram : ∀ task request, Started task request → ∀ store,
      Program.Meets (Answers (exec task) Allowed) Keeps (post task request) (program request)
        store)
    (h : Meets exec Allowed Keeps post pool)
    (hstarted : Runs.Along (step program exec) (fun pool event => ∀ request,
      event = .start request → Started pool.tasks.length request) pool events)
    (halong : Runs.Along (step program exec) (fun pool event => pool.Allows Allowed event) pool
      events)
    (hrun : Runs.run (step program exec) pool events = some final) :
    Keeps pool.store final.store ∧ Meets exec Allowed Keeps post final := by
  refine Runs.run_invariant
    (fun later => Keeps pool.store later.store ∧ Meets exec Allowed Keeps post later) ?_
    (halong.and hstarted) hrun ⟨refl_of Keeps pool.store, h⟩
  rintro later event next ⟨hlater, hmeets⟩ ⟨hallows, hstart⟩ hstep
  obtain ⟨hkeeps, hnext⟩ := step_meets
    (fun request hevent => hprogram later.tasks.length request (hstart request hevent))
    hmeets hallows hstep
  exact ⟨trans_of Keeps hlater hkeeps, hnext⟩

/-- Only the programs of the requests a run starts matter. -/
theorem run_meets {pool final : Pool κ α ε β ρ σ} {events : List (PoolEvent ρ χ)}
    (hprogram : ∀ request, .start request ∈ events → ∀ task store,
      Program.Meets (Answers (exec task) Allowed) Keeps (post task request) (program request)
        store)
    (h : Meets exec Allowed Keeps post pool)
    (halong : Runs.Along (step program exec) (fun pool event => pool.Allows Allowed event) pool
      events)
    (hrun : Runs.run (step program exec) pool events = some final) :
    Keeps pool.store final.store ∧ Meets exec Allowed Keeps post final := by
  have hevents : Runs.Along (step program exec) (fun _ event => event ∈ events) pool events :=
    Runs.along_of_forall (fun _ hevent => hevent) pool
  exact run_meets_along (fun task request hstart => hprogram request hstart task) h
    (hevents.imp fun _ _ hevent request heq => heq ▸ hevent) halong hrun

/-- The programs may rely on the requests their tasks are for. -/
theorem run_meets_of_requests {pool final : Pool κ α ε β ρ σ} {events : List (PoolEvent ρ χ)}
    (hallowed : ∀ name store, Allowed name store)
    (hprogram : ∀ task request, final.requestOf task = some request → ∀ store,
      Program.Meets (Answers (exec task) Allowed) Keeps (post task request) (program request)
        store)
    (h : Meets exec Allowed Keeps post pool)
    (hrun : Runs.run (step program exec) pool events = some final) :
    Keeps pool.store final.store ∧ Meets exec Allowed Keeps post final :=
  run_meets_along hprogram h (along_requestOf hrun)
    ((Runs.along_of_forall (fun _ _ => trivial) pool).imp
      fun pool _ _ name _ => hallowed name pool.store) hrun

/-- Where every call is allowed. -/
theorem run_meets_of_allowed {pool final : Pool κ α ε β ρ σ} {events : List (PoolEvent ρ χ)}
    (hallowed : ∀ name store, Allowed name store)
    (hprogram : ∀ request, .start request ∈ events → ∀ task store,
      Program.Meets (Answers (exec task) Allowed) Keeps (post task request) (program request)
        store)
    (h : Meets exec Allowed Keeps post pool)
    (hrun : Runs.run (step program exec) pool events = some final) :
    Keeps pool.store final.store ∧ Meets exec Allowed Keeps post final := by
  refine run_meets hprogram h ?_ hrun
  refine (Runs.along_of_forall (fun _ _ => trivial) pool).imp ?_
  exact fun pool _ _ name _ => hallowed name pool.store

end

/-! Invariants of the store that make its answers what the programs rely on. -/

section
variable {inv : σ → Prop} {p : κ → Prop} {r : (name : κ) → α name → Prop} {q : ρ → β → Prop}

/-- The store has the invariant, and what is left of every program is guarded. -/
def Guarded (inv : σ → Prop) (p : κ → Prop) (r : (name : κ) → α name → Prop) (q : ρ → β → Prop)
    (pool : Pool κ α ε β ρ σ) : Prop :=
  inv pool.store ∧ ∀ (task : Nat) request (rest : Program κ α ε β),
    pool.tasks[task]? = some (request, rest) → rest.Guarded p r (q request)

theorem step_guarded {pool next : Pool κ α ε β ρ σ} {event : PoolEvent ρ χ}
    (hprogram : ∀ request, event = .start request → (program request).Guarded p r (q request))
    (hexec : ∀ task name choice store answer after, inv store → p name →
      exec task name choice store = some (answer, after) → r name answer ∧ inv after)
    (h : pool.Guarded inv p r q) (hstep : step program exec pool event = some next) :
    next.Guarded inv p r q := by
  obtain ⟨hinv, htasks⟩ := h
  obtain ⟨request, hevent, hstore, hnext⟩ |
    ⟨task, choice, request, name, rest, answer, -, htask, hanswered, hnext⟩ := step_cases hstep
  · refine ⟨hstore ▸ hinv, ?_⟩
    intro other request' rest hother
    rw [hnext] at hother
    obtain ⟨-, hother, -⟩ | ⟨-, heq, -⟩ := Runs.getElem?_concat_cases hother
    · exact htasks other request' rest hother
    · cases heq
      exact hprogram request hevent
  · obtain ⟨hname, hrest⟩ := htasks task request (.call name rest) htask
    obtain ⟨hanswer, hafter⟩ :=
      hexec task name choice pool.store answer next.store hinv hname hanswered
    refine ⟨hafter, ?_⟩
    intro other request' rest' hother
    rw [hnext, List.getElem?_set] at hother
    split at hother
    · split at hother
      · cases hother
        exact hrest answer hanswer
      · cases hother
    · exact htasks other request' rest' hother

theorem run_guarded {pool final : Pool κ α ε β ρ σ} {events : List (PoolEvent ρ χ)}
    (hprogram : ∀ request, .start request ∈ events → (program request).Guarded p r (q request))
    (hexec : ∀ task name choice store answer after, inv store → p name →
      exec task name choice store = some (answer, after) → r name answer ∧ inv after)
    (h : pool.Guarded inv p r q)
    (hrun : Runs.run (step program exec) pool events = some final) :
    final.Guarded inv p r q := by
  refine Runs.run_invariant (fun later => later.Guarded inv p r q) ?_
    (Runs.along_of_forall (p := fun event => event ∈ events) (fun _ hevent => hevent) pool) hrun h
  intro later event next hlater hevent hstep
  exact step_guarded (fun request heq => hprogram request (heq ▸ hevent)) hexec hlater hstep

theorem guarded_idle {store : σ} (h : inv store) :
    (idle store : Pool κ α ε β ρ σ).Guarded inv p r q := by
  refine ⟨h, ?_⟩
  intro task request rest htask
  simp [idle] at htask

end

end Pool

end

end Authguard
