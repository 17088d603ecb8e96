import Mathlib.Data.List.Basic

/-!
YAML values. The entries of a mapping stand in the order they were added, with one
entry a key; two values are the same whatever the order of their entries.
-/

namespace Authguard

inductive YamlNumber
  | unsigned (value : Nat)
  | negative (value : Int)
  | float (bits : UInt64)
  deriving DecidableEq

inductive Yaml
  | null
  | bool (value : Bool)
  | number (value : YamlNumber)
  | string (value : String)
  | sequence (items : List Yaml)
  | mapping (entries : List (Yaml × Yaml))
  | tagged (tag : String) (value : Yaml)

namespace Yaml

mutual

def decEq : (value other : Yaml) → Decidable (value = other)
  | .null, other =>
      match other with
      | .null => isTrue rfl
      | .bool _ | .number _ | .string _ | .sequence _ | .mapping _ | .tagged _ _ => isFalse nofun
  | .bool a, other =>
      match other with
      | .bool b => decidable_of_iff (a = b) (by simp)
      | .null | .number _ | .string _ | .sequence _ | .mapping _ | .tagged _ _ => isFalse nofun
  | .number a, other =>
      match other with
      | .number b => decidable_of_iff (a = b) (by simp)
      | .null | .bool _ | .string _ | .sequence _ | .mapping _ | .tagged _ _ => isFalse nofun
  | .string a, other =>
      match other with
      | .string b => decidable_of_iff (a = b) (by simp)
      | .null | .bool _ | .number _ | .sequence _ | .mapping _ | .tagged _ _ => isFalse nofun
  | .sequence as, other =>
      match other with
      | .sequence bs =>
          have := decEqItems as bs
          decidable_of_iff (as = bs) (by simp)
      | .null | .bool _ | .number _ | .string _ | .mapping _ | .tagged _ _ => isFalse nofun
  | .mapping as, other =>
      match other with
      | .mapping bs =>
          have := decEqEntries as bs
          decidable_of_iff (as = bs) (by simp)
      | .null | .bool _ | .number _ | .string _ | .sequence _ | .tagged _ _ => isFalse nofun
  | .tagged s a, other =>
      match other with
      | .tagged t b =>
          have := decEq a b
          decidable_of_iff (s = t ∧ a = b) (by simp)
      | .null | .bool _ | .number _ | .string _ | .sequence _ | .mapping _ => isFalse nofun

def decEqItems : (items others : List Yaml) → Decidable (items = others)
  | [], [] => isTrue rfl
  | [], _ :: _ | _ :: _, [] => isFalse nofun
  | a :: as, b :: bs =>
      have := decEq a b
      have := decEqItems as bs
      decidable_of_iff (a = b ∧ as = bs) (by simp)

def decEqEntries : (entries others : List (Yaml × Yaml)) → Decidable (entries = others)
  | [], [] => isTrue rfl
  | [], _ :: _ | _ :: _, [] => isFalse nofun
  | (k, a) :: as, (l, b) :: bs =>
      have := decEq k l
      have := decEq a b
      have := decEqEntries as bs
      decidable_of_iff (k = l ∧ a = b ∧ as = bs) (by simp [and_assoc])

end

instance : DecidableEq Yaml := decEq

/-! What a value is under its tags. -/

def untag : Yaml → Yaml
  | .tagged _ value => value.untag
  | value => value

/-- Another value under the same tags. -/
def retag : Yaml → Yaml → Yaml
  | .tagged tag value, content => .tagged tag (value.retag content)
  | _, content => content

def isNull (value : Yaml) : Bool := value.untag = .null

def asStr (value : Yaml) : Option String :=
  match value.untag with
  | .string text => some text
  | _ => none

def asSequence (value : Yaml) : Option (List Yaml) :=
  match value.untag with
  | .sequence items => some items
  | _ => none

def asMapping (value : Yaml) : Option (List (Yaml × Yaml)) :=
  match value.untag with
  | .mapping entries => some entries
  | _ => none

def isSequence (value : Yaml) : Bool := value.asSequence.isSome

def isMapping (value : Yaml) : Bool := value.asMapping.isSome

/-! The entries of a mapping. -/

/-- `Mapping::get`. -/
def getEntry (key : Yaml) : List (Yaml × Yaml) → Option Yaml
  | [] => none
  | (k, value) :: entries => if k = key then some value else getEntry key entries

/-- `Mapping::insert`: the value of a known key is replaced where it is, a new key comes last. -/
def insertEntry (key value : Yaml) : List (Yaml × Yaml) → List (Yaml × Yaml)
  | [] => [(key, value)]
  | (k, v) :: entries =>
      if k = key then (k, value) :: entries else (k, v) :: insertEntry key value entries

theorem getEntry_insertEntry_self (key value : Yaml) (entries : List (Yaml × Yaml)) :
    getEntry key (insertEntry key value entries) = some value := by
  induction entries with
  | nil => simp [insertEntry, getEntry]
  | cons entry entries ih =>
      obtain ⟨k, v⟩ := entry
      by_cases h : k = key
      · simp [insertEntry, getEntry, h]
      · simp [insertEntry, getEntry, h, ih]

theorem getEntry_insertEntry_ne {key other : Yaml} (h : other ≠ key) (value : Yaml)
    (entries : List (Yaml × Yaml)) :
    getEntry other (insertEntry key value entries) = getEntry other entries := by
  induction entries with
  | nil => simp [insertEntry, getEntry, h.symm]
  | cons entry entries ih =>
      obtain ⟨k, v⟩ := entry
      by_cases hk : k = key
      · simp [insertEntry, getEntry, hk, h.symm]
      · simp [insertEntry, getEntry, hk, ih]

/-! Values that differ in the order of their entries at most. -/

mutual

inductive Same : Yaml → Yaml → Prop
  | refl (value : Yaml) : Same value value
  | sequence {items others : List Yaml} (h : SameItems items others) :
      Same (.sequence items) (.sequence others)
  | mapping {entries others : List (Yaml × Yaml)} (h : SameEntries entries others) :
      Same (.mapping entries) (.mapping others)
  | tagged (tag : String) {value other : Yaml} (h : Same value other) :
      Same (.tagged tag value) (.tagged tag other)

inductive SameItems : List Yaml → List Yaml → Prop
  | nil : SameItems [] []
  | cons {value other : Yaml} {items others : List Yaml} (h : Same value other)
      (hrest : SameItems items others) : SameItems (value :: items) (other :: others)

inductive SameEntries : List (Yaml × Yaml) → List (Yaml × Yaml) → Prop
  | nil : SameEntries [] []
  | cons (key : Yaml) {value other : Yaml} {entries others : List (Yaml × Yaml)}
      (h : Same value other) (hrest : SameEntries entries others) :
      SameEntries ((key, value) :: entries) ((key, other) :: others)
  | reorder {entries others reordered : List (Yaml × Yaml)} (h : SameEntries entries others)
      (hperm : others.Perm reordered) : SameEntries entries reordered

end

/-! Places in a value. -/

/-- A child is under a key of a mapping or at an index of a sequence. -/
inductive Place
  | key (key : Yaml)
  | item (index : Nat)
  deriving DecidableEq

def entries (value : Yaml) : List (Yaml × Yaml) := value.asMapping.getD []

def items (value : Yaml) : List Yaml := value.asSequence.getD []

def child (value : Yaml) : Place → Option Yaml
  | .key key => getEntry key value.entries
  | .item index => value.items[index]?

/-- The node at a location, where there is one. -/
def nodeAt (value : Yaml) : List Place → Option Yaml
  | [] => some value
  | place :: location => (value.child place).bind (·.nodeAt location)

/-- What is no mapping is replaced with its tags. -/
def withEntries (value : Yaml) (entries : List (Yaml × Yaml)) : Yaml :=
  (if value.isMapping then value else .mapping []).retag (.mapping entries)

def withItems (value : Yaml) (items : List Yaml) : Yaml :=
  (if value.isSequence then value else .sequence []).retag (.sequence items)

/-- A child is replaced or added; a sequence is filled up with nulls before it. -/
def putChild (value : Yaml) : Place → Yaml → Yaml
  | .key key, child => value.withEntries (insertEntry key child value.entries)
  | .item index, child =>
      value.withItems
        ((value.items ++ List.replicate (index + 1 - value.items.length) null).set index child)

theorem untag_retag (value content : Yaml) : (value.retag content).untag = content.untag := by
  fun_induction retag value content with
  | case1 content tag value ih => simpa only [untag] using ih
  | case2 => rfl

@[simp]
theorem entries_withEntries (value : Yaml) (entries : List (Yaml × Yaml)) :
    (value.withEntries entries).entries = entries := by
  simp [withEntries, Yaml.entries, asMapping, untag_retag, untag]

@[simp]
theorem items_withEntries (value : Yaml) (entries : List (Yaml × Yaml)) :
    (value.withEntries entries).items = [] := by
  simp [withEntries, items, asSequence, untag_retag, untag]

@[simp]
theorem items_withItems (value : Yaml) (items : List Yaml) :
    (value.withItems items).items = items := by
  simp [withItems, Yaml.items, asSequence, untag_retag, untag]

@[simp]
theorem entries_withItems (value : Yaml) (items : List Yaml) :
    (value.withItems items).entries = [] := by
  simp [withItems, entries, asMapping, untag_retag, untag]

theorem entries_orEmpty (value : Yaml) :
    (if value.isMapping then value else .mapping []).asMapping.getD [] = value.entries := by
  cases h : value.asMapping with
  | none =>
      have hempty : (Yaml.mapping []).asMapping = some [] := rfl
      simp [isMapping, entries, h, hempty]
  | some entries => simp [isMapping, Yaml.entries, h]

theorem items_orEmpty (value : Yaml) :
    (if value.isSequence then value else .sequence []).asSequence.getD [] = value.items := by
  cases h : value.asSequence with
  | none =>
      have hempty : (Yaml.sequence []).asSequence = some [] := rfl
      simp [isSequence, items, h, hempty]
  | some items => simp [isSequence, Yaml.items, h]

theorem child_null (place : Place) : child .null place = none := by
  cases place <;> rfl

theorem child_putChild_self (value : Yaml) (place : Place) (inner : Yaml) :
    (value.putChild place inner).child place = some inner := by
  cases place with
  | key key => simp [putChild, child, getEntry_insertEntry_self]
  | item index =>
      have hlt : index < value.items.length + (index + 1 - value.items.length) := by omega
      simp [putChild, child, hlt]

theorem child_putChild_key {key other : Yaml} (h : other ≠ key) (value inner : Yaml) :
    (value.putChild (.key key) inner).child (.key other) = value.child (.key other) := by
  simp [putChild, child, getEntry_insertEntry_ne h]

/-- Another item stays what it is, or is null where there was none before. -/
theorem child_putChild_item {index other : Nat} (h : other ≠ index) (value inner : Yaml) :
    (value.putChild (.item index) inner).child (.item other) =
      if other < index then some ((value.child (.item other)).getD .null)
      else value.child (.item other) := by
  simp only [putChild, child, items_withItems, List.getElem?_set_ne h.symm,
    List.getElem?_append, List.getElem?_replicate]
  by_cases hin : other < value.items.length
  · simp [hin]
  · have hnone : value.items[other]? = none := List.getElem?_eq_none (by omega)
    simp only [hin, ↓reduceIte, hnone, Option.getD_none]
    congr 1
    exact propext (by omega)

theorem child_item_putChild_key (value key inner : Yaml) (index : Nat) :
    (value.putChild (.key key) inner).child (.item index) = none := by
  simp [putChild, child]

theorem child_key_putChild_item (value key inner : Yaml) (index : Nat) :
    (value.putChild (.item index) inner).child (.key key) = none := by
  simp [putChild, child, getEntry]

end Yaml

end Authguard
