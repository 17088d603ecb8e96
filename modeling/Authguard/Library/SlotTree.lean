import Mathlib.Data.List.Perm.Basic
import Mathlib.Logic.Function.Basic

/-!
Trees that are written along paths. A mapping is what a path can tell of it: for
each name the key it is spelled with and the child under it, and the entries no
name reaches. A sequence is its length and the items, empty ones past the end.
Writes along paths that part commute, so a run of them does not depend on its order.
-/

namespace Authguard

open Function

inductive SlotTree (ν κ α τ β : Type)
  | empty
  | leaf (value : α)
  | sequence (length : Nat) (item : Nat → SlotTree ν κ α τ β)
  | mapping (spelling : ν → Option κ) (child : ν → SlotTree ν κ α τ β) (unreached : List β)
  | tagged (tag : τ) (tree : SlotTree ν κ α τ β)

namespace SlotTree

/-- A slot is found by its name; `fresh` is the key it gets when it is missing. -/
inductive Step (ν κ : Type)
  | slot (name : ν) (fresh : κ)
  | item (index : Nat)

variable {ν κ α τ β : Type}

abbrev Items (ν κ α τ β : Type) := Nat × (Nat → SlotTree ν κ α τ β)

abbrev Slots (ν κ α τ β : Type) := (ν → Option κ) × (ν → SlotTree ν κ α τ β) × List β

def items : SlotTree ν κ α τ β → Option (Items ν κ α τ β)
  | sequence length item => some (length, item)
  | tagged _ tree => tree.items
  | _ => none

def slots : SlotTree ν κ α τ β → Option (Slots ν κ α τ β)
  | mapping spelling child unreached => some (spelling, child, unreached)
  | tagged _ tree => tree.slots
  | _ => none

/-- Another tree under the same tags. -/
def retag : SlotTree ν κ α τ β → SlotTree ν κ α τ β → SlotTree ν κ α τ β
  | tagged tag tree, content => tagged tag (tree.retag content)
  | _, content => content

/-- What is no sequence is replaced with its tags. -/
def withItems (tree : SlotTree ν κ α τ β) (content : Items ν κ α τ β) : SlotTree ν κ α τ β :=
  match tree.items with
  | some _ => tree.retag (sequence content.1 content.2)
  | none => sequence content.1 content.2

def withSlots (tree : SlotTree ν κ α τ β) (content : Slots ν κ α τ β) : SlotTree ν κ α τ β :=
  match tree.slots with
  | some _ => tree.retag (mapping content.1 content.2.1 content.2.2)
  | none => mapping content.1 content.2.1 content.2.2

def itemsOrNone (tree : SlotTree ν κ α τ β) : Items ν κ α τ β :=
  tree.items.getD (0, fun _ => empty)

def slotsOrNone (tree : SlotTree ν κ α τ β) : Slots ν κ α τ β :=
  tree.slots.getD (fun _ => none, fun _ => empty, [])

/-- The child at an index is replaced, and the sequence reaches at least that far. -/
def setItem (index : Nat) (tree : SlotTree ν κ α τ β) (content : Items ν κ α τ β) :
    Items ν κ α τ β :=
  (max content.1 (index + 1), update content.2 index tree)

def setSlot [DecidableEq ν] (name : ν) (fresh : κ) (tree : SlotTree ν κ α τ β)
    (content : Slots ν κ α τ β) : Slots ν κ α τ β :=
  (update content.1 name (some ((content.1 name).getD fresh)),
    update content.2.1 name tree, content.2.2)

def put [DecidableEq ν] (tree : SlotTree ν κ α τ β) :
    List (Step ν κ) → SlotTree ν κ α τ β → SlotTree ν κ α τ β
  | [], value => value
  | .item index :: path, value =>
      tree.withItems
        (setItem index ((tree.itemsOrNone.2 index).put path value) tree.itemsOrNone)
  | .slot name fresh :: path, value =>
      tree.withSlots
        (setSlot name fresh ((tree.slotsOrNone.2.1 name).put path value) tree.slotsOrNone)

/-- Two paths that agree up to a step where they go to different places of one kind. -/
inductive Apart : List (Step ν κ) → List (Step ν κ) → Prop
  | slots {name name' : ν} (h : name ≠ name') (fresh fresh' : κ) (path path' : List (Step ν κ)) :
      Apart (.slot name fresh :: path) (.slot name' fresh' :: path')
  | items {index index' : Nat} (h : index ≠ index') (path path' : List (Step ν κ)) :
      Apart (.item index :: path) (.item index' :: path')
  | deeper {path path' : List (Step ν κ)} (step : Step ν κ) (h : Apart path path') :
      Apart (step :: path) (step :: path')

theorem Apart.symm {path path' : List (Step ν κ)} (h : Apart path path') : Apart path' path := by
  induction h with
  | slots h fresh fresh' path path' => exact .slots h.symm fresh' fresh path' path
  | items h path path' => exact .items h.symm path' path
  | deeper step _ ih => exact .deeper step ih

theorem items_retag {tree content : SlotTree ν κ α τ β} :
    (tree.retag content).items = content.items := by
  induction tree with
  | empty | leaf | sequence | mapping => rfl
  | tagged tag tree ih => simpa only [retag, items] using ih

theorem slots_retag {tree content : SlotTree ν κ α τ β} :
    (tree.retag content).slots = content.slots := by
  induction tree with
  | empty | leaf | sequence | mapping => rfl
  | tagged tag tree ih => simpa only [retag, slots] using ih

theorem retag_retag {tree content content' : SlotTree ν κ α τ β}
    (h : ∀ tag inner, content ≠ tagged tag inner) :
    (tree.retag content).retag content' = tree.retag content' := by
  induction tree with
  | empty | leaf | sequence | mapping =>
      cases content with
      | tagged tag inner => exact absurd rfl (h tag inner)
      | _ => rfl
  | tagged tag tree ih => simp only [retag, ih]

@[simp]
theorem itemsOrNone_withItems (tree : SlotTree ν κ α τ β) (content : Items ν κ α τ β) :
    (tree.withItems content).itemsOrNone = content := by
  unfold withItems itemsOrNone
  split
  · rw [items_retag]; rfl
  · rfl

@[simp]
theorem slotsOrNone_withSlots (tree : SlotTree ν κ α τ β)
    (content : Slots ν κ α τ β) :
    (tree.withSlots content).slotsOrNone = content := by
  unfold withSlots slotsOrNone
  split
  · rw [slots_retag]; rfl
  · rfl

@[simp]
theorem withItems_withItems (tree : SlotTree ν κ α τ β)
    (content content' : Items ν κ α τ β) :
    (tree.withItems content).withItems content' = tree.withItems content' := by
  cases h : tree.items with
  | none => simp [withItems, h, items, retag]
  | some found =>
      simp only [withItems, h, items_retag, items]
      exact retag_retag (by simp)

@[simp]
theorem withSlots_withSlots (tree : SlotTree ν κ α τ β)
    (content content' : Slots ν κ α τ β) :
    (tree.withSlots content).withSlots content' = tree.withSlots content' := by
  cases h : tree.slots with
  | none => simp [withSlots, h, slots, retag]
  | some found =>
      simp only [withSlots, h, slots_retag, slots]
      exact retag_retag (by simp)

theorem setItem_comm {i j : Nat} (h : i ≠ j) (tree tree' : SlotTree ν κ α τ β)
    (content : Items ν κ α τ β) :
    setItem j tree' (setItem i tree content) = setItem i tree (setItem j tree' content) := by
  simp only [setItem, update_comm h]
  congr 1
  omega

theorem setItem_setItem (i : Nat) (tree tree' : SlotTree ν κ α τ β)
    (content : Items ν κ α τ β) :
    setItem i tree' (setItem i tree content) = setItem i tree' content := by
  simp [setItem]

variable [DecidableEq ν]

theorem setSlot_comm {n m : ν} (h : n ≠ m) (fresh fresh' : κ) (tree tree' : SlotTree ν κ α τ β)
    (content : Slots ν κ α τ β) :
    setSlot m fresh' tree' (setSlot n fresh tree content) =
      setSlot n fresh tree (setSlot m fresh' tree' content) := by
  simp only [setSlot, update_of_ne h, update_of_ne h.symm, update_comm h]

theorem setSlot_setSlot (n : ν) (fresh : κ) (tree tree' : SlotTree ν κ α τ β)
    (content : Slots ν κ α τ β) :
    setSlot n fresh tree' (setSlot n fresh tree content) = setSlot n fresh tree' content := by
  simp [setSlot]

theorem put_comm {path path' : List (Step ν κ)} (h : Apart path path')
    (tree value value' : SlotTree ν κ α τ β) :
    (tree.put path value).put path' value' = (tree.put path' value').put path value := by
  induction h generalizing tree with
  | slots h fresh fresh' path path' =>
      simp only [put, slotsOrNone_withSlots, withSlots_withSlots]
      rw [setSlot_comm h]
      simp only [setSlot, update_of_ne h, update_of_ne h.symm]
  | items h path path' =>
      simp only [put, itemsOrNone_withItems, withItems_withItems]
      rw [setItem_comm h]
      simp only [setItem, update_of_ne h, update_of_ne h.symm]
  | deeper step h ih =>
      cases step with
      | slot name fresh =>
          simp only [put, slotsOrNone_withSlots, withSlots_withSlots, setSlot_setSlot]
          simp only [setSlot, update_self, ih]
      | item index =>
          simp only [put, itemsOrNone_withItems, withItems_withItems, setItem_setItem]
          simp only [setItem, update_self, ih]

def putAll (tree : SlotTree ν κ α τ β) (writes : List (List (Step ν κ) × SlotTree ν κ α τ β)) :
    SlotTree ν κ α τ β :=
  writes.foldl (fun tree write => tree.put write.1 write.2) tree

/-- Writes that are pairwise apart may be made in any order. -/
theorem putAll_perm {writes order : List (List (Step ν κ) × SlotTree ν κ α τ β)}
    (hperm : writes.Perm order) (hapart : writes.Pairwise fun a b => Apart a.1 b.1)
    (tree : SlotTree ν κ α τ β) : tree.putAll writes = tree.putAll order := by
  have hswaps : ∀ a ∈ writes, ∀ b ∈ writes, ∀ tree : SlotTree ν κ α τ β,
      (tree.put a.1 a.2).put b.1 b.2 = (tree.put b.1 b.2).put a.1 a.2 := by
    refine List.Pairwise.forall_of_forall_of_flip (fun a _ tree => rfl) ?_ ?_
    · exact hapart.imp fun h tree => put_comm h tree _ _
    · exact hapart.imp fun h tree => (put_comm h tree _ _).symm
  exact hperm.foldl_eq' hswaps tree

end SlotTree

end Authguard
