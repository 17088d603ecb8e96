import Mathlib

/-!
A bounded store of records with deadlines that gives up the record used longest ago.
Records stand in the order of their last use, the latest first. Beside it, the same
order kept by numbering the uses: the least number is then the record at the end.
-/

namespace Authguard.Recency

variable {κ ν : Type} [DecidableEq κ]

structure Record (κ ν : Type) where
  key : κ
  value : ν
  deadline : Nat

def live (now : Nat) (records : List (Record κ ν)) : List (Record κ ν) :=
  records.filter fun record => now < record.deadline

def forget (key : κ) (records : List (Record κ ν)) : List (Record κ ν) :=
  records.filter fun record => record.key ≠ key

/-- The live record that has to make room for a new key, if one has to. -/
def victim (capacity now : Nat) (key : κ) (records : List (Record κ ν)) : Option κ :=
  if key ∈ (live now records).map Record.key ∨ (live now records).length < capacity then none
  else (live now records).getLast?.map Record.key

def store (capacity now : Nat) (record : Record κ ν) (records : List (Record κ ν)) :
    List (Record κ ν) :=
  record :: forget record.key
    ((victim capacity now record.key records).elim records fun key => forget key records)

def load (now : Nat) (key : κ) (records : List (Record κ ν)) : Option ν × List (Record κ ν) :=
  match (live now records).find? fun record => record.key = key with
  | none => (none, records)
  | some record => (some record.value, record :: forget key records)

omit [DecidableEq κ] in
theorem live_live {now later : Nat} (h : now ≤ later) (records : List (Record κ ν)) :
    live later (live now records) = live later records := by
  rw [live, live, List.filter_filter]
  apply List.filter_congr
  intro record _
  rw [← Bool.decide_and, decide_eq_decide]
  omega

theorem live_forget (now : Nat) (key : κ) (records : List (Record κ ν)) :
    live now (forget key records) = forget key (live now records) := by
  rw [live, forget, List.filter_comm]
  rfl

theorem nodup_store_keys {records : List (Record κ ν)} (h : (records.map Record.key).Nodup)
    (record : Record κ ν) : ((record :: forget record.key records).map Record.key).Nodup := by
  rw [List.map_cons, List.nodup_cons]
  refine ⟨?_, (List.Sublist.map _ List.filter_sublist).nodup h⟩
  simp [forget]

theorem nodup_forget_keys {records : List (Record κ ν)} (h : (records.map Record.key).Nodup)
    (key : κ) : ((forget key records).map Record.key).Nodup :=
  (List.Sublist.map _ List.filter_sublist).nodup h

/-! Numbered uses. -/

/-- Later uses have greater numbers. -/
def Numbered {α : Type} (uses : List (α × Nat)) : Prop :=
  uses.Pairwise fun later earlier => earlier.2 < later.2

theorem Numbered.last_least {α : Type} {uses : List (α × Nat)} (h : Numbered uses)
    {use last : α × Nat} (huse : use ∈ uses) (hlast : uses.getLast? = some last)
    (hle : use.2 ≤ last.2) : use = last := by
  obtain ⟨init, rfl⟩ := List.getLast?_eq_some_iff.mp hlast
  rw [List.mem_append, List.mem_singleton] at huse
  obtain hinit | rfl := huse
  · have hlt := (List.pairwise_append.mp h).2.2 use hinit last List.mem_cons_self
    omega
  · rfl

end Authguard.Recency
