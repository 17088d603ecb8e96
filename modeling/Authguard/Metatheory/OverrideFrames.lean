import Authguard.Common.EnvironmentOverrides

/-!
What one override touches: the nodes on its path, what is below it and the nulls a
sequence is filled up with. Overrides whose paths part in the same kind of step keep
out of each other's way, so after a run of them every path reads back its value.
-/

namespace Authguard

open Text Yaml

/-! Where a path leads. -/

def placeOf (value : Yaml) : ConfigPathSegment → Place
  | .key segment => .key (keyFor segment value.entries)
  | .index index => .item index

/-- The location of a path in a tree, keys resolved as an override resolves them. -/
def locationOf (value : Yaml) : List ConfigPathSegment → List Place
  | [] => []
  | segment :: path =>
      placeOf value segment ::
        locationOf ((value.child (placeOf value segment)).getD .null) path

/-- A step by key meets a mapping, one by index a sequence; null becomes either. -/
def AcceptsStep (value : Yaml) : ConfigPathSegment → Prop
  | .key _ => value.isMapping ∨ value.isNull
  | .index _ => value.isSequence ∨ value.isNull

/-- Every existing node that a path steps from accepts the step. -/
def Fits (value : Yaml) : List ConfigPathSegment → Prop
  | [] => True
  | segment :: path =>
      AcceptsStep value segment ∧
        ∀ child, value.child (placeOf value segment) = some child → Fits child path

/-! One override. -/

theorem isAlphanum_toLower (c : Char) : c.toLower.isAlphanum = c.isAlphanum := by
  by_cases h : c.isUpper
  · have halpha : c.isAlpha = true := by simp [Char.isAlpha, h]
    simp [Char.isAlphanum, halpha]
  · rw [Char.toLower_eq_of_not_isUpper h]

theorem normalizedPropertyName_toAsciiLowercase (segment : String) :
    normalizedPropertyName (toAsciiLowercase segment) = normalizedPropertyName segment := by
  simp [normalizedPropertyName, toAsciiLowercase, List.filter_map, Function.comp_def,
    isAlphanum_toLower]

theorem propertyOf_keyFor (segment : String) (entries : List (Yaml × Yaml)) :
    propertyOf (keyFor segment entries) = some (normalizedPropertyName segment) := by
  unfold keyFor
  cases h : findKey (normalizedPropertyName segment) entries with
  | none =>
      simp [propertyOf, Yaml.asStr, Yaml.untag, normalizedPropertyName_toAsciiLowercase]
  | some key =>
      have hfound := List.find?_some h
      simpa using hfound

theorem keyFor_ne {segment other : String} (entries : List (Yaml × Yaml))
    (h : normalizedPropertyName segment ≠ normalizedPropertyName other) :
    keyFor segment entries ≠ keyFor other entries := by
  intro heq
  have hproperty := congrArg propertyOf heq
  rw [propertyOf_keyFor, propertyOf_keyFor] at hproperty
  exact h (Option.some.inj hproperty)

theorem findKey_cons (property : String) (entry : Yaml × Yaml) (entries : List (Yaml × Yaml)) :
    findKey property (entry :: entries) =
      if propertyOf entry.1 = some property then some entry.1 else findKey property entries := by
  by_cases h : propertyOf entry.1 = some property <;> simp [findKey, h]

/-- A value under another property's key leaves the keys of this one alone. -/
theorem findKey_insertEntry_of_ne {property : String} {key : Yaml}
    (h : propertyOf key ≠ some property) (child : Yaml) (entries : List (Yaml × Yaml)) :
    findKey property (insertEntry key child entries) = findKey property entries := by
  induction entries with
  | nil => simp [insertEntry, findKey, h]
  | cons entry entries ih =>
      simp only [insertEntry]
      split
      · simp only [findKey_cons]
      · simp only [findKey_cons, ih]

/-- The key a property is put under is the first of the property from then on. -/
theorem findKey_insertEntry_keyFor (segment : String) (child : Yaml)
    (entries : List (Yaml × Yaml)) :
    findKey (normalizedPropertyName segment)
        (insertEntry (keyFor segment entries) child entries) =
      some (keyFor segment entries) := by
  have hkey := propertyOf_keyFor segment entries
  induction entries with
  | nil => simp [insertEntry, findKey, hkey]
  | cons entry entries ih =>
      by_cases hfirst : propertyOf entry.1 = some (normalizedPropertyName segment)
      · have hfor : keyFor segment (entry :: entries) = entry.1 := by
          simp [keyFor, findKey_cons, hfirst]
        simp [hfor, insertEntry, findKey_cons, hfirst]
      · have hfor : keyFor segment (entry :: entries) = keyFor segment entries := by
          simp [keyFor, findKey_cons, hfirst]
        rw [hfor] at hkey ⊢
        have hne : entry.1 ≠ keyFor segment entries := fun heq => hfirst (heq ▸ hkey)
        simp [insertEntry, hne, findKey_cons, hfirst, ih hkey]

theorem keyFor_insertEntry {segment other : String} {entries : List (Yaml × Yaml)}
    (h : segment = other ∨ normalizedPropertyName segment ≠ normalizedPropertyName other)
    (child : Yaml) :
    keyFor other (insertEntry (keyFor segment entries) child entries) = keyFor other entries := by
  cases h with
  | inl heq =>
      subst heq
      rw [keyFor, findKey_insertEntry_keyFor, Option.getD_some]
  | inr hne =>
      have hproperty : propertyOf (keyFor segment entries) ≠ some (normalizedPropertyName other) := by
        rw [propertyOf_keyFor]
        exact fun heq => hne (Option.some.inj heq)
      simp only [keyFor] at hproperty ⊢
      rw [findKey_insertEntry_of_ne hproperty]

theorem setYamlPath_cons (value : Yaml) (segment : ConfigPathSegment)
    (path : List ConfigPathSegment) (leaf : Yaml) :
    setYamlPath value (segment :: path) leaf =
      value.putChild (placeOf value segment)
        (setYamlPath ((value.child (placeOf value segment)).getD .null) path leaf) := by
  cases segment with
  | index index =>
      have hfilled : ((value.items ++
          List.replicate (index + 1 - value.items.length) .null)[index]?).getD .null =
            (value.items[index]?).getD .null := by
        by_cases hin : index < value.items.length
        · simp [hin]
        · have hlt : index - value.items.length < index + 1 - value.items.length := by omega
          simp [List.getElem?_append, hin, hlt]
      simp only [setYamlPath, items_orEmpty, hfilled, placeOf, putChild, child, withItems]
  | key segment =>
      simp only [setYamlPath, entries_orEmpty, placeOf, putChild, child, withEntries]
      cases path with
      | nil => simp [setYamlPath]
      | cons => simp

theorem placeOf_putChild (value child : Yaml) (segment : ConfigPathSegment) :
    placeOf (value.putChild (placeOf value segment) child) segment = placeOf value segment := by
  cases segment with
  | index index => rfl
  | key segment => simp [placeOf, putChild, keyFor_insertEntry]

/-- A path leads to the same place after its override, and the value is there. -/
theorem locationOf_setYamlPath (value : Yaml) (path : List ConfigPathSegment) (leaf : Yaml) :
    locationOf (setYamlPath value path leaf) path = locationOf value path := by
  induction path generalizing value with
  | nil => rfl
  | cons segment path ih =>
      simp only [setYamlPath_cons, locationOf, placeOf_putChild, child_putChild_self,
        Option.getD_some, ih]

theorem nodeAt_setYamlPath (value : Yaml) (path : List ConfigPathSegment) (leaf : Yaml) :
    (setYamlPath value path leaf).nodeAt (locationOf value path) = some leaf := by
  induction path generalizing value with
  | nil => rfl
  | cons segment path ih =>
      simp only [setYamlPath_cons, locationOf, nodeAt, child_putChild_self, Option.bind_some, ih]

theorem Fits.null (path : List ConfigPathSegment) : Fits .null path := by
  cases path with
  | nil => trivial
  | cons segment path =>
      refine ⟨?_, ?_⟩
      · cases segment <;> exact .inr rfl
      · simp [child_null]

theorem Fits.child {value : Yaml} {segment : ConfigPathSegment} {path : List ConfigPathSegment}
    (h : Fits value (segment :: path)) :
    Fits ((value.child (placeOf value segment)).getD .null) path := by
  cases hchild : value.child (placeOf value segment) with
  | none => exact .null path
  | some child => exact h.2 child hchild

theorem AcceptsStep.putChild (value child : Yaml) (segment : ConfigPathSegment) :
    AcceptsStep (value.putChild (placeOf value segment) child) segment := by
  cases segment with
  | key segment =>
      exact .inl (by simp [placeOf, Yaml.putChild, isMapping, withEntries, asMapping, untag_retag, untag])
  | index index =>
      exact .inl (by simp [placeOf, Yaml.putChild, isSequence, withItems, asSequence, untag_retag, untag])

theorem AcceptsStep.no_items {value : Yaml} {segment : String} (h : AcceptsStep value (.key segment)) :
    value.items = [] := by
  unfold AcceptsStep isMapping asMapping isNull at h
  unfold items asSequence
  cases hvalue : value.untag <;> simp_all

theorem AcceptsStep.no_entries {value : Yaml} {index : Nat} (h : AcceptsStep value (.index index)) :
    value.entries = [] := by
  unfold AcceptsStep isSequence asSequence isNull at h
  unfold entries asMapping
  cases hvalue : value.untag <;> simp_all

/-! What an override leaves alone. -/

/-- A null that a sequence on the way to the target is filled up with. -/
def Padding (location target : List Place) : Prop :=
  ∃ front index later rest, target = front ++ .item later :: rest ∧
    location = front ++ [.item index] ∧ index < later

/-- Not on the way to the target, not below it and not created as padding for it. -/
structure Untouched (root : Yaml) (location target : List Place) : Prop where
  off : ¬location <+: target
  outside : ¬target <+: location
  existed : Padding location target → root.nodeAt location ≠ none

theorem nodeAt_null {location : List Place} (h : location ≠ []) :
    Yaml.null.nodeAt location = none := by
  cases location with
  | nil => exact absurd rfl h
  | cons place location => simp [nodeAt, child_null]

theorem nodeAt_getD_null {value : Yaml} {place : Place} {location : List Place}
    (h : location ≠ []) :
    ((value.child place).getD .null).nodeAt location = value.nodeAt (place :: location) := by
  cases hchild : value.child place with
  | none => simp [nodeAt, hchild, nodeAt_null h]
  | some child => simp [nodeAt, hchild]

theorem Padding.cons {location target : List Place} (h : Padding location target) (place : Place) :
    Padding (place :: location) (place :: target) := by
  obtain ⟨front, index, later, rest, rfl, rfl, hlt⟩ := h
  exact ⟨place :: front, index, later, rest, rfl, rfl, hlt⟩

/-- Below the place a path goes through, what it leaves alone of the child. -/
theorem Untouched.below {root : Yaml} {place : Place} {location target : List Place}
    (h : Untouched root (place :: location) (place :: target)) :
    location ≠ [] ∧ Untouched ((root.child place).getD .null) location target := by
  have hne : location ≠ [] := by
    rintro rfl
    exact h.off (by simp)
  refine ⟨hne, fun hoff => h.off (by simpa using hoff), fun hout => h.outside (by simpa using hout),
    fun hpadding => ?_⟩
  rw [nodeAt_getD_null hne]
  exact h.existed (hpadding.cons place)

/-- Beside the place a path goes through, nothing changes. -/
theorem child_putChild_of_ne {value : Yaml} {segment : ConfigPathSegment} {place : Place}
    (haccepts : AcceptsStep value segment) (hne : place ≠ placeOf value segment) (child : Yaml) :
    (value.putChild (placeOf value segment) child).child place = value.child place ∨
      ∃ index later, place = .item index ∧ placeOf value segment = .item later ∧ index < later ∧
        value.child place = none ∧
        (value.putChild (placeOf value segment) child).child place = some .null := by
  cases segment with
  | key segment =>
      left
      cases place with
      | key key => exact child_putChild_key (fun heq => hne (congrArg Place.key heq)) value child
      | item index =>
          rw [placeOf, child_item_putChild_key]
          simp [Yaml.child, haccepts.no_items]
  | index later =>
      cases place with
      | key key =>
          left
          rw [placeOf, child_key_putChild_item]
          simp [Yaml.child, haccepts.no_entries, getEntry]
      | item index =>
          have hindex : index ≠ later := fun heq => hne (heq ▸ rfl)
          rw [placeOf, child_putChild_item hindex]
          cases hchild : value.child (.item index) with
          | some found => simp
          | none =>
              by_cases hlt : index < later
              · exact .inr ⟨index, later, rfl, rfl, hlt, rfl, by simp [hlt]⟩
              · simp [hlt]

/-- The frame of one override. -/
theorem nodeAt_setYamlPath_of_untouched {value : Yaml} {path : List ConfigPathSegment}
    {location : List Place} (hfits : Fits value path)
    (h : Untouched value location (locationOf value path)) (leaf : Yaml) :
    (setYamlPath value path leaf).nodeAt location = value.nodeAt location := by
  induction path generalizing value location with
  | nil => exact absurd List.nil_prefix h.outside
  | cons segment path ih =>
      cases location with
      | nil => exact absurd List.nil_prefix h.off
      | cons place location =>
          rw [setYamlPath_cons]
          by_cases hplace : place = placeOf value segment
          · subst hplace
            obtain ⟨hne, hbelow⟩ := h.below
            calc ((value.putChild (placeOf value segment) _).nodeAt (placeOf value segment :: location))
                = (setYamlPath ((value.child (placeOf value segment)).getD .null) path leaf).nodeAt
                    location := by simp [nodeAt, child_putChild_self]
              _ = ((value.child (placeOf value segment)).getD .null).nodeAt location :=
                    ih hfits.child hbelow
              _ = value.nodeAt (placeOf value segment :: location) := nodeAt_getD_null hne
          · cases child_putChild_of_ne hfits.1 hplace
              (setYamlPath ((value.child (placeOf value segment)).getD .null) path leaf) with
            | inl hsame => simp only [nodeAt, hsame]
            | inr hpadded =>
                obtain ⟨index, later, rfl, htarget, hlt, hnone, hnull⟩ := hpadded
                simp only [nodeAt, hnull, hnone, Option.bind_some, Option.bind_none]
                refine nodeAt_null fun hempty => ?_
                subst hempty
                have hpadding : Padding [.item index] (locationOf value (segment :: path)) := by
                  rw [locationOf, htarget]
                  exact ⟨[], index, later, _, rfl, rfl, hlt⟩
                exact h.existed hpadding (by simp [nodeAt, hnone])

/-! Paths that part. -/

/-- Two paths that are one up to a step of the same kind to different places. -/
inductive Parted : List ConfigPathSegment → List ConfigPathSegment → Prop
  | keys {segment other : String}
      (h : normalizedPropertyName segment ≠ normalizedPropertyName other)
      (path path' : List ConfigPathSegment) : Parted (.key segment :: path) (.key other :: path')
  | indices {index other : Nat} (h : index ≠ other) (path path' : List ConfigPathSegment) :
      Parted (.index index :: path) (.index other :: path')
  | deeper (segment : ConfigPathSegment) {path path' : List ConfigPathSegment}
      (h : Parted path path') : Parted (segment :: path) (segment :: path')

theorem Parted.symm {path path' : List ConfigPathSegment} (h : Parted path path') :
    Parted path' path := by
  induction h with
  | keys h path path' => exact .keys h.symm path' path
  | indices h path path' => exact .indices h.symm path' path
  | deeper segment _ ih => exact .deeper segment ih

/-- Neither of two parted paths leads to a place on the other. -/
theorem Parted.leads_elsewhere {path path' : List ConfigPathSegment} (h : Parted path path')
    (value : Yaml) : ¬locationOf value path <+: locationOf value path' := by
  induction h generalizing value with
  | keys h path path' =>
      intro hle
      have hhead := (List.cons_prefix_cons.mp hle).1
      exact keyFor_ne value.entries h (Place.key.inj hhead)
  | indices h path path' =>
      intro hle
      exact h (Place.item.inj (List.cons_prefix_cons.mp hle).1)
  | deeper segment _ ih =>
      intro hle
      exact ih _ (List.cons_prefix_cons.mp hle).2

theorem getD_child_putChild_item {index other : Nat} (h : other ≠ index) (value child : Yaml) :
    ((value.putChild (.item index) child).child (.item other)).getD .null =
      (value.child (.item other)).getD .null := by
  rw [child_putChild_item h]
  split
  · rfl
  · rfl

theorem placeOf_putChild_of_ne {segment other : String}
    (h : normalizedPropertyName segment ≠ normalizedPropertyName other) (value child : Yaml) :
    placeOf (value.putChild (placeOf value (.key segment)) child) (.key other) =
      placeOf value (.key other) := by
  simp [placeOf, putChild, keyFor_insertEntry (.inr h)]

theorem child_putChild_keyFor {segment other : String}
    (h : normalizedPropertyName segment ≠ normalizedPropertyName other) (value child : Yaml) :
    (value.putChild (placeOf value (.key segment)) child).child (placeOf value (.key other)) =
      value.child (placeOf value (.key other)) :=
  child_putChild_key (keyFor_ne value.entries h.symm) value child

theorem Parted.locationOf_setYamlPath {path path' : List ConfigPathSegment}
    (h : Parted path path') (value leaf : Yaml) :
    locationOf (setYamlPath value path leaf) path' = locationOf value path' := by
  induction h generalizing value with
  | keys h path path' =>
      simp only [setYamlPath_cons, locationOf, placeOf_putChild_of_ne h, child_putChild_keyFor h]
  | indices h path path' =>
      simp only [setYamlPath_cons, locationOf, placeOf, getD_child_putChild_item h.symm]
  | deeper segment _ ih =>
      simp only [setYamlPath_cons, locationOf, placeOf_putChild, child_putChild_self,
        Option.getD_some, ih]

theorem Parted.fits {path path' : List ConfigPathSegment} (h : Parted path path') {value : Yaml}
    (hfits : Fits value path') (leaf : Yaml) : Fits (setYamlPath value path leaf) path' := by
  induction h generalizing value with
  | @keys segment other h path path' =>
      rw [setYamlPath_cons]
      refine ⟨AcceptsStep.putChild value _ (.key segment), fun child hchild => ?_⟩
      rw [placeOf_putChild_of_ne h, child_putChild_keyFor h] at hchild
      exact hfits.2 child hchild
  | @indices index other h path path' =>
      rw [setYamlPath_cons]
      refine ⟨AcceptsStep.putChild value _ (.index index), fun child hchild => ?_⟩
      have hsame := getD_child_putChild_item h.symm value
        (setYamlPath ((value.child (placeOf value (.index index))).getD .null) path leaf)
      simp only [placeOf] at hchild hsame
      rw [hchild, Option.getD_some] at hsame
      rw [hsame]
      exact hfits.child
  | deeper segment _ ih =>
      rw [setYamlPath_cons]
      refine ⟨AcceptsStep.putChild value _ segment, fun child hchild => ?_⟩
      rw [placeOf_putChild, child_putChild_self, Option.some.injEq] at hchild
      subst hchild
      exact ih hfits.child

/-- A place another override leaves alone is as little touched by the next one. -/
theorem Untouched.setYamlPath {value : Yaml} {path path' : List ConfigPathSegment}
    {location : List Place} (hparted : Parted path path') (hfits : Fits value path)
    (h : Untouched value location (locationOf value path))
    (h' : Untouched value location (locationOf value path')) (leaf : Yaml) :
    Untouched (setYamlPath value path leaf) location
      (locationOf (setYamlPath value path leaf) path') := by
  rw [hparted.locationOf_setYamlPath]
  refine ⟨h'.off, h'.outside, fun hpadding => ?_⟩
  rw [nodeAt_setYamlPath_of_untouched hfits h]
  exact h'.existed hpadding

/-! A run of overrides. -/

def setYamlPaths (root : Yaml) (overrides : List (List ConfigPathSegment × Yaml)) : Yaml :=
  overrides.foldl (fun root entry => setYamlPath root entry.1 entry.2) root

theorem setYamlPaths_cons (root : Yaml) (entry : List ConfigPathSegment × Yaml)
    (overrides : List (List ConfigPathSegment × Yaml)) :
    setYamlPaths root (entry :: overrides) =
      setYamlPaths (setYamlPath root entry.1 entry.2) overrides := rfl

theorem locationOf_setYamlPaths {root : Yaml} {path : List ConfigPathSegment}
    {overrides : List (List ConfigPathSegment × Yaml)}
    (h : ∀ entry ∈ overrides, Parted entry.1 path) :
    locationOf (setYamlPaths root overrides) path = locationOf root path := by
  induction overrides generalizing root with
  | nil => rfl
  | cons entry overrides ih =>
      rw [List.forall_mem_cons] at h
      calc locationOf (setYamlPaths (setYamlPath root entry.1 entry.2) overrides) path
          = locationOf (setYamlPath root entry.1 entry.2) path := ih h.2
        _ = locationOf root path := h.1.locationOf_setYamlPath root entry.2

theorem nodeAt_setYamlPaths_of_untouched {root : Yaml} {location : List Place}
    {overrides : List (List ConfigPathSegment × Yaml)}
    (hparted : overrides.Pairwise fun a b => Parted a.1 b.1)
    (hfits : ∀ entry ∈ overrides, Fits root entry.1)
    (h : ∀ entry ∈ overrides, Untouched root location (locationOf root entry.1)) :
    (setYamlPaths root overrides).nodeAt location = root.nodeAt location := by
  induction overrides generalizing root with
  | nil => rfl
  | cons entry overrides ih =>
      rw [List.pairwise_cons] at hparted
      rw [List.forall_mem_cons] at hfits h
      have hrest := ih hparted.2
        (fun other hother => (hparted.1 other hother).fits (hfits.2 other hother) entry.2)
        (fun other hother =>
          h.1.setYamlPath (hparted.1 other hother) hfits.1 (h.2 other hother) entry.2)
      calc (setYamlPaths (setYamlPath root entry.1 entry.2) overrides).nodeAt location
          = (setYamlPath root entry.1 entry.2).nodeAt location := hrest
        _ = root.nodeAt location := nodeAt_setYamlPath_of_untouched hfits.1 h.1 entry.2

/-- What a path leads to stays there while parted ones are overridden. -/
theorem nodeAt_setYamlPaths_of_parted {root leaf : Yaml} {path : List ConfigPathSegment}
    {overrides : List (List ConfigPathSegment × Yaml)}
    (hparted : overrides.Pairwise fun a b => Parted a.1 b.1)
    (hfits : ∀ entry ∈ overrides, Fits root entry.1)
    (hpath : ∀ entry ∈ overrides, Parted path entry.1)
    (hleaf : root.nodeAt (locationOf root path) = some leaf) :
    (setYamlPaths root overrides).nodeAt (locationOf (setYamlPaths root overrides) path) =
      some leaf := by
  have huntouched : ∀ entry ∈ overrides,
      Untouched root (locationOf root path) (locationOf root entry.1) := fun entry hentry =>
    ⟨(hpath entry hentry).leads_elsewhere root, (hpath entry hentry).symm.leads_elsewhere root,
      fun _ => by simp [hleaf]⟩
  rw [locationOf_setYamlPaths fun entry hentry => (hpath entry hentry).symm,
    nodeAt_setYamlPaths_of_untouched hparted hfits huntouched, hleaf]

/-- After the run every path leads to its value. -/
theorem nodeAt_setYamlPaths {root : Yaml} {overrides : List (List ConfigPathSegment × Yaml)}
    (hparted : overrides.Pairwise fun a b => Parted a.1 b.1)
    (hfits : ∀ entry ∈ overrides, Fits root entry.1) {entry : List ConfigPathSegment × Yaml}
    (hentry : entry ∈ overrides) :
    (setYamlPaths root overrides).nodeAt (locationOf (setYamlPaths root overrides) entry.1) =
      some entry.2 := by
  induction overrides generalizing root with
  | nil => exact absurd hentry List.not_mem_nil
  | cons first overrides ih =>
      rw [List.pairwise_cons] at hparted
      rw [List.forall_mem_cons] at hfits
      have hstill : ∀ other ∈ overrides, Fits (setYamlPath root first.1 first.2) other.1 :=
        fun other hother => (hparted.1 other hother).fits (hfits.2 other hother) first.2
      cases List.mem_cons.mp hentry with
      | inr hmem => exact ih hparted.2 hstill hmem
      | inl heq =>
          subst heq
          rw [setYamlPaths_cons]
          refine nodeAt_setYamlPaths_of_parted hparted.2 hstill hparted.1 ?_
          rw [locationOf_setYamlPath, nodeAt_setYamlPath]

end Authguard
