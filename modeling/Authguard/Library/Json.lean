import Authguard.Library.Result
import Authguard.Library.SortedMap

/-!
JSON values and the pieces a derived serializer is made of: an object lists the
fields it keeps, and a reader looks each field up, falling back to a default
where one is declared.
-/

namespace Authguard

/-- A number as it was read: its text, and its value where it is an unsigned integer. -/
structure JsonNumber where
  text : String
  asU64 : Option Nat
  deriving DecidableEq

inductive Json
  | null
  | bool (value : Bool)
  | number (value : JsonNumber)
  | string (value : String)
  | array (items : List Json)
  | object (fields : List (String × Json))

namespace Json
open Result

variable {α β : Type}

/-- A field that may be skipped when it is written. -/
def field (name : String) (skip : Bool) (value : Json) : List (String × Json) :=
  if skip then [] else [(name, value)]

def asObject : Json → Option (List (String × Json))
  | .object fields => some fields
  | _ => none

def toStr : Json → Option String
  | .string value => some value
  | _ => none

def ofNat (value : Nat) : Json := .number ⟨toString value, some value⟩

def toU64 : Json → Option Nat
  | .number value => value.asU64
  | _ => none

def toBool : Json → Option Bool
  | .bool value => some value
  | _ => none

def all (read : α → Option β) : List α → Option (List β)
  | [] => some []
  | item :: items => do
      let first ← read item
      let rest ← all read items
      some (first :: rest)

def toList (read : Json → Option α) : Json → Option (List α)
  | .array items => all read items
  | _ => none

/-- A field without a default. -/
def required (read : Json → Option α) (name : String) (fields : List (String × Json)) :
    Option α :=
  (fields.lookup name).bind read

/-- A field that takes a default when it is absent. -/
def withDefault (read : Json → Option α) (default : α) (name : String)
    (fields : List (String × Json)) : Option α :=
  match fields.lookup name with
  | none => some default
  | some value => read value

/-- An optional value: absent and `null` both read as `none`. -/
def toOption (read : Json → Option α) : Json → Option (Option α)
  | .null => some none
  | value => (read value).map some

def optionJson (write : α → Json) : Option α → Json
  | none => .null
  | some value => write value

def strings (values : List String) : Json := .array (values.map .string)

/-- Sets a field of an object, in place where it is there. -/
def setField (name : String) (value : Json) :
    List (String × Json) → List (String × Json)
  | [] => [(name, value)]
  | entry :: fields =>
      if entry.1 = name then (name, value) :: fields else entry :: setField name value fields

theorem setField_keys (name : String) (value : Json) (fields : List (String × Json)) :
    (setField name value fields).map Prod.fst =
      if name ∈ fields.map Prod.fst then fields.map Prod.fst
      else fields.map Prod.fst ++ [name] := by
  induction fields with
  | nil => rfl
  | cons first rest ih =>
      rw [setField]
      by_cases hname : first.1 = name
      · simp [hname]
      · have hne : name ≠ first.1 := fun h => hname h.symm
        rw [if_neg hname, List.map_cons, ih]
        by_cases hmem : name ∈ rest.map Prod.fst
        · simp [hmem]
        · simp [hmem, hne]

theorem nodup_setField (name : String) (value : Json) {fields : List (String × Json)}
    (h : (fields.map Prod.fst).Nodup) : ((setField name value fields).map Prod.fst).Nodup := by
  rw [setField_keys]
  split
  · exact h
  · rename_i hname
    exact List.nodup_append.mpr ⟨h, List.nodup_singleton name, fun key hkey _ hother heq =>
      hname (List.mem_singleton.mp hother ▸ heq ▸ hkey)⟩

theorem lookup_setField (name : String) (value : Json) (fields : List (String × Json))
    (other : String) :
    (setField name value fields).lookup other =
      if other = name then some value else fields.lookup other := by
  induction fields with
  | nil =>
      by_cases h : other = name
      · simp [setField, h]
      · simp [setField, List.lookup, beq_eq_false_iff_ne.mpr h, h]
  | cons first rest ih =>
      rw [setField]
      by_cases hname : first.1 = name
      · by_cases h : other = name
        · simp [hname, h]
        · have hfirst : (other == first.1) = false := by
            rw [hname]
            exact beq_eq_false_iff_ne.mpr h
          rw [if_pos hname, if_neg h, List.lookup_cons, List.lookup_cons, hfirst,
            beq_eq_false_iff_ne.mpr h]
      · rw [if_neg hname, List.lookup_cons, List.lookup_cons, ih]
        by_cases h : other = name
        · have hfirst : (name == first.1) = false := by
            rw [beq_eq_false_iff_ne]
            exact fun heq => hname heq.symm
          simp [h, hfirst]
        · simp [h]

theorem all_map (read : β → Option α) (write : α → β) (h : ∀ a, read (write a) = some a)
    (items : List α) : all read (items.map write) = some items := by
  induction items with
  | nil => rfl
  | cons item items ih => simp [all, h, ih]

theorem toList_map (read : Json → Option α) (write : α → Json)
    (h : ∀ a, read (write a) = some a) (items : List α) :
    toList read (.array (items.map write)) = some items :=
  all_map read write h items

theorem toList_strings (values : List String) : toList toStr (strings values) = some values :=
  toList_map toStr .string (fun _ => rfl) values

/-! Reading one field of a written object: other fields are passed over. -/

section
variable (read : Json → Option α) (default : α) {name other : String} (skip : Bool)
  (value : Json) (fields : List (String × Json))

@[simp] theorem required_field_ne (h : other ≠ name) :
    required read name (field other skip value ++ fields) = required read name fields := by
  have hne : (name == other) = false := by simpa using h.symm
  cases skip <;> simp [required, field, List.lookup, hne]

@[simp] theorem required_field :
    required read name (field name false value ++ fields) = read value := by
  simp [required, field]

@[simp] theorem withDefault_nil : withDefault read default name [] = some default := rfl

@[simp] theorem withDefault_field_ne (h : other ≠ name) :
    withDefault read default name (field other skip value ++ fields) =
      withDefault read default name fields := by
  have hne : (name == other) = false := by simpa using h.symm
  cases skip <;> simp [withDefault, field, List.lookup, hne]

@[simp] theorem withDefault_field :
    withDefault read default name (field name skip value ++ fields) =
      if skip then withDefault read default name fields else read value := by
  cases skip <;> simp [withDefault, field]

end

/-- A value that is skipped only when it is the default is read back. -/
theorem read_skipped {read : Json → Option α} {default value : α} {skip : Bool} {json : Json}
    (hskip : skip = true → default = value) (hread : read json = some value) :
    (if skip then some default else read json) = some value := by
  cases skip with
  | true => simp [hskip rfl]
  | false => simp [hread]

theorem read_skipped_option (read : Json → Option α) (write : α → Json) (value : Option α)
    (hread : ∀ a, toOption read (write a) = some (some a)) :
    (if value.isNone then some none else toOption read (optionJson write value)) =
      some value := by
  cases value with
  | none => rfl
  | some a => simp [optionJson, hread]

section
variable {α : Type} {fields : List (String × Json)} (h : (fields.map Prod.fst).Nodup)
  (read : Json → Option α) (default : α) (name : String)
include h

theorem required_ofList :
    required read name (SortedMap.ofList fields).entries = required read name fields := by
  rw [required, required, ← SortedMap.get_ofList h name, SortedMap.get]

theorem withDefault_ofList :
    withDefault read default name (SortedMap.ofList fields).entries =
      withDefault read default name fields := by
  rw [withDefault, withDefault, ← SortedMap.get_ofList h name, SortedMap.get]

end

theorem withDefault_absent {α : Type} (read : Json → Option α) (default : α) {name : String}
    {fields : List (String × Json)} (h : fields.lookup name = none) :
    withDefault read default name fields = some default := by
  rw [withDefault, h]

theorem toOption_string (value : String) :
    toOption toStr (.string value) = some (some value) := rfl

theorem toOption_bool (value : Bool) :
    toOption Json.toBool (.bool value) = some (some value) := rfl

theorem read_optional {α : Type} {read : Json → Option α} {write : α → Json}
    (hread : ∀ a, toOption read (write a) = some (some a)) (value : Option α) :
    (if value = none then some none else toOption read (optionJson write value)) =
      some value := by
  cases value with
  | none => rfl
  | some a => exact hread a

theorem read_items {α : Type} {read : Json → Option α} {write : α → Json}
    (hread : ∀ a, read (write a) = some a) (items : List α) :
    (if items = [] then some [] else toList read (.array (items.map write))) = some items := by
  cases items with
  | nil => rfl
  | cons item items => exact toList_map read write hread (item :: items)

theorem field_keys (name : String) (skip : Bool) (value : Json) :
    ((field name skip value).map Prod.fst).Sublist [name] := by
  cases skip with
  | true => exact List.nil_sublist _
  | false => exact List.Sublist.refl _

theorem lookup_field_ne {name other : String} (h : name ≠ other) (skip : Bool) (value : Json)
    (fields : List (String × Json)) :
    (field other skip value ++ fields).lookup name = fields.lookup name := by
  have hne : (name == other) = false := beq_eq_false_iff_ne.mpr h
  cases skip with
  | true => rfl
  | false => simp [field, List.lookup_cons, hne]

end Json

end Authguard
