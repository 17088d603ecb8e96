import Authguard.Library.SlotTree
import Authguard.Metatheory.OverrideFrames

/-!
The order of the overrides. A tree is seen as an override sees it: of a mapping the
first key of each property with the child under it, and the entries no override can
reach. An override is a write to that view, and trees of one view are the same up to
the order of their entries; so independent overrides may come in any order.
-/

namespace Authguard

open Yaml

/-! The view of an override. -/

/-- Entries whose key is no text, or comes after another key of its property. -/
def shadowed (seen : List String) : List (Yaml × Yaml) → List (Yaml × Yaml)
  | [] => []
  | entry :: entries =>
      match propertyOf entry.1 with
      | none => entry :: shadowed seen entries
      | some property =>
          if property ∈ seen then entry :: shadowed seen entries
          else shadowed (property :: seen) entries

abbrev OverrideTree := SlotTree String Yaml Yaml String (Yaml × Yaml)

mutual

def viewOf : Yaml → OverrideTree
  | .null => .empty
  | .bool value => .leaf (.bool value)
  | .number value => .leaf (.number value)
  | .string value => .leaf (.string value)
  | .sequence items => .sequence items.length (itemView items)
  | .mapping entries =>
      .mapping (fun property => findKey property entries) (entryView entries) (shadowed [] entries)
  | .tagged tag value => .tagged tag (viewOf value)

def itemView : List Yaml → Nat → OverrideTree
  | [], _ => .empty
  | item :: _, 0 => viewOf item
  | _ :: items, index + 1 => itemView items index

/-- The child of the first key of a property. -/
def entryView : List (Yaml × Yaml) → String → OverrideTree
  | [], _ => .empty
  | (key, value) :: entries, property =>
      if propertyOf key = some property then viewOf value else entryView entries property

end

def stepOf : ConfigPathSegment → SlotTree.Step String Yaml
  | .key segment =>
      .slot (normalizedPropertyName segment) (.string (Text.toAsciiLowercase segment))
  | .index index => .item index

theorem Parted.apart {path path' : List ConfigPathSegment} (h : Parted path path') :
    SlotTree.Apart (path.map stepOf) (path'.map stepOf) := by
  induction h with
  | keys h path path' => exact .slots h _ _ _ _
  | indices h path path' => exact .items h _ _
  | deeper segment _ ih => exact .deeper (stepOf segment) ih

/-! An override is a write to the view. -/

theorem viewOf_retag (value content : Yaml) :
    viewOf (value.retag content) = (viewOf value).retag (viewOf content) := by
  fun_induction retag value content with
  | case1 content tag value ih => simp only [viewOf, SlotTree.retag, ih]
  | case2 value content hvalue =>
      cases value with
      | tagged tag inner => exact absurd rfl (hvalue tag inner)
      | _ => simp only [viewOf, SlotTree.retag]

theorem itemView_eq (items : List Yaml) (index : Nat) :
    itemView items index = viewOf (items[index]?.getD .null) := by
  induction items generalizing index with
  | nil => simp [itemView, viewOf]
  | cons item items ih =>
      cases index with
      | zero => simp [itemView]
      | succ index => simp [itemView, ih]

/-- The child a path goes on from is the one in its property's slot. -/
theorem entryView_eq (segment : String) (entries : List (Yaml × Yaml)) :
    entryView entries (normalizedPropertyName segment) =
      viewOf ((getEntry (keyFor segment entries) entries).getD .null) := by
  induction entries with
  | nil => simp [entryView, getEntry, viewOf]
  | cons entry entries ih =>
      obtain ⟨key, value⟩ := entry
      by_cases hfirst : propertyOf key = some (normalizedPropertyName segment)
      · simp [entryView, hfirst, keyFor, findKey_cons, getEntry]
      · have hfor : keyFor segment ((key, value) :: entries) = keyFor segment entries := by
          simp [keyFor, findKey_cons, hfirst]
        have hne : key ≠ keyFor segment entries := fun heq =>
          hfirst (heq ▸ propertyOf_keyFor segment entries)
        rw [hfor]
        simp only [entryView, hfirst, ↓reduceIte, getEntry, hne, ih]

theorem items_viewOf (value : Yaml) :
    (viewOf value).items = value.asSequence.map fun items => (items.length, itemView items) := by
  induction value using Yaml.untag.induct with
  | case1 tag value ih => simpa only [viewOf, SlotTree.items, asSequence, untag] using ih
  | case2 value hvalue =>
      cases value with
      | tagged tag inner => exact absurd rfl (hvalue tag inner)
      | _ => simp [viewOf, SlotTree.items, asSequence, untag]

theorem slots_viewOf (value : Yaml) :
    (viewOf value).slots = value.asMapping.map fun entries =>
      (fun property => findKey property entries, entryView entries, shadowed [] entries) := by
  induction value using Yaml.untag.induct with
  | case1 tag value ih => simpa only [viewOf, SlotTree.slots, asMapping, untag] using ih
  | case2 value hvalue =>
      cases value with
      | tagged tag inner => exact absurd rfl (hvalue tag inner)
      | _ => simp [viewOf, SlotTree.slots, asMapping, untag]

theorem itemsOrNone_viewOf (value : Yaml) :
    (viewOf value).itemsOrNone = (value.items.length, itemView value.items) := by
  rw [SlotTree.itemsOrNone, items_viewOf, Yaml.items]
  cases value.asSequence with
  | none => simp [itemView]
  | some items => rfl

theorem slotsOrNone_viewOf (value : Yaml) :
    (viewOf value).slotsOrNone =
      (fun property => findKey property value.entries, entryView value.entries,
        shadowed [] value.entries) := by
  rw [SlotTree.slotsOrNone, slots_viewOf, Yaml.entries]
  cases value.asMapping with
  | none => simp [findKey, entryView, shadowed]
  | some entries => rfl

theorem viewOf_withItems (value : Yaml) (items : List Yaml) :
    viewOf (value.withItems items) = (viewOf value).withItems (items.length, itemView items) := by
  rw [withItems, viewOf_retag, SlotTree.withItems, items_viewOf, isSequence]
  cases value.asSequence with
  | none => simp [viewOf, SlotTree.retag]
  | some found => simp [viewOf]

theorem viewOf_withEntries (value : Yaml) (entries : List (Yaml × Yaml)) :
    viewOf (value.withEntries entries) =
      (viewOf value).withSlots
        (fun property => findKey property entries, entryView entries, shadowed [] entries) := by
  rw [withEntries, viewOf_retag, SlotTree.withSlots, slots_viewOf, isMapping]
  cases value.asMapping with
  | none => simp [viewOf, SlotTree.retag]
  | some found => simp [viewOf]

theorem itemView_setItem (items : List Yaml) (index : Nat) (child : Yaml) :
    (((items ++ List.replicate (index + 1 - items.length) Yaml.null).set index child).length,
        itemView ((items ++ List.replicate (index + 1 - items.length) Yaml.null).set index child)) =
      SlotTree.setItem index (viewOf child) (items.length, itemView items) := by
  refine Prod.ext ?_ (funext fun other => ?_)
  · simp only [List.length_set, List.length_append, List.length_replicate, SlotTree.setItem]
    omega
  simp only [SlotTree.setItem, Function.update_apply, itemView_eq]
  by_cases hother : other = index
  · subst hother
    have hlt : other < items.length + (other + 1 - items.length) := by omega
    simp [hlt]
  · rw [List.getElem?_set_ne (Ne.symm hother)]
    by_cases hin : other < items.length
    · simp [hother, List.getElem?_append, hin]
    · by_cases hpad : other - items.length < index + 1 - items.length <;>
        simp [hother, List.getElem?_append, hin, hpad]

theorem shadowed_insertEntry {segment : String} {seen : List String}
    (hseen : normalizedPropertyName segment ∉ seen) (child : Yaml) (entries : List (Yaml × Yaml)) :
    shadowed seen (insertEntry (keyFor segment entries) child entries) = shadowed seen entries := by
  have hkey := propertyOf_keyFor segment entries
  induction entries generalizing seen with
  | nil => simp [insertEntry, shadowed, hkey, hseen]
  | cons entry entries ih =>
      by_cases hfirst : propertyOf entry.1 = some (normalizedPropertyName segment)
      · have hfor : keyFor segment (entry :: entries) = entry.1 := by
          simp [keyFor, findKey_cons, hfirst]
        simp [hfor, insertEntry, shadowed, hfirst, hseen]
      · have hfor : keyFor segment (entry :: entries) = keyFor segment entries := by
          simp [keyFor, findKey_cons, hfirst]
        rw [hfor] at hkey ⊢
        have hne : entry.1 ≠ keyFor segment entries := fun heq => hfirst (heq ▸ hkey)
        simp only [insertEntry, hne, ↓reduceIte, shadowed]
        cases hproperty : propertyOf entry.1 with
        | none => simp only [ih hseen hkey]
        | some property =>
            have hdiffers : normalizedPropertyName segment ≠ property := fun heq =>
              hfirst (by rw [hproperty, heq])
            have hfree : normalizedPropertyName segment ∉ property :: seen := by
              simp [hdiffers, hseen]
            simp only [ih hseen hkey, ih hfree hkey]

theorem entryView_insertEntry (segment : String) (child : Yaml) (entries : List (Yaml × Yaml)) :
    entryView (insertEntry (keyFor segment entries) child entries) =
      Function.update (entryView entries) (normalizedPropertyName segment) (viewOf child) := by
  have hkey := propertyOf_keyFor segment entries
  funext property
  rw [Function.update_apply]
  induction entries with
  | nil =>
      by_cases h : property = normalizedPropertyName segment
      · simp [insertEntry, entryView, hkey, h]
      · simp [insertEntry, entryView, hkey, h, Ne.symm h]
  | cons entry entries ih =>
      obtain ⟨key, value⟩ := entry
      by_cases hfirst : propertyOf key = some (normalizedPropertyName segment)
      · have hfor : keyFor segment ((key, value) :: entries) = key := by
          simp [keyFor, findKey_cons, hfirst]
        by_cases h : property = normalizedPropertyName segment
        · simp [hfor, insertEntry, entryView, hfirst, h]
        · simp [hfor, insertEntry, entryView, hfirst, h, Ne.symm h]
      · have hfor : keyFor segment ((key, value) :: entries) = keyFor segment entries := by
          simp [keyFor, findKey_cons, hfirst]
        rw [hfor] at hkey ⊢
        have hne : key ≠ keyFor segment entries := fun heq => hfirst (heq ▸ hkey)
        simp only [insertEntry, hne, ↓reduceIte, entryView, ih hkey]
        by_cases h : propertyOf key = some property
        · have hdiffers : property ≠ normalizedPropertyName segment := fun heq =>
            hfirst (heq ▸ h)
          simp [h, hdiffers]
        · simp [h]

theorem findKey_insertEntry (segment : String) (child : Yaml) (entries : List (Yaml × Yaml)) :
    (fun property => findKey property (insertEntry (keyFor segment entries) child entries)) =
      Function.update (fun property => findKey property entries) (normalizedPropertyName segment)
        (some (keyFor segment entries)) := by
  funext property
  rw [Function.update_apply]
  by_cases h : property = normalizedPropertyName segment
  · simp only [h, ↓reduceIte, findKey_insertEntry_keyFor]
  · rw [if_neg h, findKey_insertEntry_of_ne]
    rw [propertyOf_keyFor]
    exact fun heq => h (Option.some.inj heq).symm

theorem viewOf_setYamlPath (value : Yaml) (path : List ConfigPathSegment) (leaf : Yaml) :
    viewOf (setYamlPath value path leaf) = (viewOf value).put (path.map stepOf) (viewOf leaf) := by
  induction path generalizing value with
  | nil => rfl
  | cons segment path ih =>
      rw [setYamlPath_cons, List.map_cons]
      cases segment with
      | index index =>
          simp only [placeOf, putChild, child, stepOf, SlotTree.put]
          rw [viewOf_withItems, itemView_setItem, ih]
          simp only [itemsOrNone_viewOf, itemView_eq]
      | key segment =>
          simp only [placeOf, putChild, child, stepOf, SlotTree.put]
          rw [viewOf_withEntries, shadowed_insertEntry List.not_mem_nil, entryView_insertEntry,
            findKey_insertEntry, ih]
          simp only [SlotTree.setSlot, slotsOrNone_viewOf, entryView_eq, keyFor]

theorem viewOf_setYamlPaths (root : Yaml) (overrides : List (List ConfigPathSegment × Yaml)) :
    viewOf (setYamlPaths root overrides) =
      (viewOf root).putAll (overrides.map fun entry => (entry.1.map stepOf, viewOf entry.2)) := by
  induction overrides generalizing root with
  | nil => rfl
  | cons entry overrides ih =>
      rw [setYamlPaths_cons, ih, viewOf_setYamlPath]
      rfl

/-- In any order, parted overrides leave one view. -/
theorem viewOf_setYamlPaths_perm {root : Yaml}
    {overrides order : List (List ConfigPathSegment × Yaml)} (hperm : overrides.Perm order)
    (hparted : overrides.Pairwise fun a b => Parted a.1 b.1) :
    viewOf (setYamlPaths root overrides) = viewOf (setYamlPaths root order) := by
  rw [viewOf_setYamlPaths, viewOf_setYamlPaths]
  refine SlotTree.putAll_perm (hperm.map _) ?_ (viewOf root)
  rw [List.pairwise_map]
  exact hparted.imp Parted.apart

/-! Trees of one view are the same. -/

/-- The first entry of each property that was not seen before. -/
def reached (seen : List String) : List (Yaml × Yaml) → List (Yaml × Yaml)
  | [] => []
  | entry :: entries =>
      match propertyOf entry.1 with
      | none => reached seen entries
      | some property =>
          if property ∈ seen then reached seen entries
          else entry :: reached (property :: seen) entries

theorem perm_reached_shadowed (seen : List String) (entries : List (Yaml × Yaml)) :
    entries.Perm (reached seen entries ++ shadowed seen entries) := by
  induction entries generalizing seen with
  | nil => exact .nil
  | cons entry entries ih =>
      cases hproperty : propertyOf entry.1 with
      | none =>
          simp only [reached, shadowed, hproperty]
          exact ((ih seen).cons entry).trans List.perm_middle.symm
      | some property =>
          by_cases hseen : property ∈ seen
          · simp only [reached, shadowed, hproperty, hseen, ↓reduceIte]
            exact ((ih seen).cons entry).trans List.perm_middle.symm
          · simp only [reached, shadowed, hproperty, hseen, ↓reduceIte, List.cons_append]
            exact (ih (property :: seen)).cons entry

def viewedEntry (entry : Yaml × Yaml) : Yaml × OverrideTree := (entry.1, viewOf entry.2)

theorem mem_reached {seen : List String} {entries : List (Yaml × Yaml)}
    {found : Yaml × OverrideTree} :
    found ∈ (reached seen entries).map viewedEntry ↔
      ∃ property, property ∉ seen ∧ findKey property entries = some found.1 ∧
        entryView entries property = found.2 := by
  induction entries generalizing seen with
  | nil => simp [reached, findKey]
  | cons entry entries ih =>
      obtain ⟨key, value⟩ := entry
      cases hproperty : propertyOf key with
      | none => simp only [reached, hproperty, ih, findKey_cons, entryView, reduceCtorEq, ↓reduceIte]
      | some first =>
          by_cases hseen : first ∈ seen
          · simp only [reached, hproperty, hseen, ↓reduceIte, ih, findKey_cons, entryView]
            refine exists_congr fun property => and_congr_right fun hfree => ?_
            have hne : first ≠ property := fun heq => hfree (heq ▸ hseen)
            simp [hne]
          · simp only [reached, hproperty, hseen, ↓reduceIte, List.map_cons, List.mem_cons, ih,
              findKey_cons, entryView, not_or]
            constructor
            · rintro (rfl | ⟨property, ⟨hne, hfree⟩, hkey, hview⟩)
              · exact ⟨first, hseen, by simp [viewedEntry], by simp [viewedEntry]⟩
              · have hother : first ≠ property := fun heq => hne heq.symm
                exact ⟨property, hfree, by simp [hother, hkey], by simp [hother, hview]⟩
            · rintro ⟨property, hfree, hkey, hview⟩
              by_cases heq : first = property
              · subst heq
                simp only [↓reduceIte, Option.some.injEq] at hkey hview
                exact .inl (Prod.ext hkey.symm hview.symm)
              · simp only [Option.some.injEq, heq, ↓reduceIte] at hkey hview
                exact .inr ⟨property, ⟨Ne.symm heq, hfree⟩, hkey, hview⟩

theorem nodup_reached (seen : List String) (entries : List (Yaml × Yaml)) :
    ((reached seen entries).map viewedEntry).Nodup := by
  induction entries generalizing seen with
  | nil => exact List.nodup_nil
  | cons entry entries ih =>
      cases hproperty : propertyOf entry.1 with
      | none => simpa only [reached, hproperty] using ih seen
      | some property =>
          by_cases hseen : property ∈ seen
          · simpa only [reached, hproperty, hseen, ↓reduceIte] using ih seen
          · simp only [reached, hproperty, hseen, ↓reduceIte, List.map_cons, List.nodup_cons]
            refine ⟨fun hmem => ?_, ih (property :: seen)⟩
            -- another entry of this property would have been seen
            obtain ⟨other, hfree, hkey, _⟩ := mem_reached.mp hmem
            have hother := List.find?_some hkey
            simp only [viewedEntry, hproperty, Option.some.injEq, decide_eq_true_eq] at hother
            exact hfree (hother ▸ List.mem_cons_self)

/-- Entries of one view are the same entries in some order. -/
theorem perm_entries_of_view {entries others : List (Yaml × Yaml)}
    (hkeys : ∀ property, findKey property entries = findKey property others)
    (hviews : entryView entries = entryView others)
    (hshadowed : shadowed [] entries = shadowed [] others) :
    (entries.map viewedEntry).Perm (others.map viewedEntry) := by
  have hreached : ((reached [] entries).map viewedEntry).Perm ((reached [] others).map viewedEntry) := by
    rw [List.perm_ext_iff_of_nodup (nodup_reached [] entries) (nodup_reached [] others)]
    intro found
    simp only [mem_reached, hkeys, hviews]
  refine ((perm_reached_shadowed [] entries).map viewedEntry).trans
    (.trans ?_ ((perm_reached_shadowed [] others).map viewedEntry).symm)
  rw [List.map_append, List.map_append, hshadowed]
  exact hreached.append_right _

mutual

theorem same_of_view : (value other : Yaml) → viewOf value = viewOf other → Same value other
  | .null, other, h => by
      cases other <;> simp_all [viewOf, Same.refl]
  | .bool value, other, h => by
      cases other <;> simp_all [viewOf, Same.refl]
  | .number value, other, h => by
      cases other <;> simp_all [viewOf, Same.refl]
  | .string value, other, h => by
      cases other <;> simp_all [viewOf, Same.refl]
  | .sequence items, other, h => by
      cases other with
      | sequence others =>
          simp only [viewOf, SlotTree.sequence.injEq] at h
          exact .sequence (sameItems_of_view items others h.1 h.2)
      | _ => simp [viewOf] at h
  | .mapping entries, other, h => by
      cases other with
      | mapping others =>
          simp only [viewOf, SlotTree.mapping.injEq, funext_iff] at h
          have hperm := perm_entries_of_view h.1 (funext h.2.1) h.2.2
          obtain ⟨ordered, hordered, hreorder⟩ :=
            List.perm_comp_forall₂ (r := fun view entry => view = viewedEntry entry) hperm
              (List.forall₂_map_left_iff.mpr (List.forall₂_same.mpr fun _ _ => rfl))
          exact .mapping ((sameEntries_of_view entries ordered
            (List.forall₂_map_left_iff.mp hordered)).reorder hreorder)
      | _ => simp [viewOf] at h
  | .tagged tag value, other, h => by
      cases other with
      | tagged tag' inner =>
          simp only [viewOf, SlotTree.tagged.injEq] at h
          rw [h.1]
          exact .tagged tag' (same_of_view value inner h.2)
      | _ => simp [viewOf] at h

theorem sameItems_of_view : (items others : List Yaml) → items.length = others.length →
    itemView items = itemView others → SameItems items others
  | [], [], _, _ => .nil
  | item :: items, other :: others, hlength, h =>
      .cons (same_of_view item other (congrFun h 0))
        (sameItems_of_view items others (Nat.succ.inj hlength)
          (funext fun index => congrFun h (index + 1)))

theorem sameEntries_of_view : (entries others : List (Yaml × Yaml)) →
    List.Forall₂ (fun a b => viewedEntry a = viewedEntry b) entries others → SameEntries entries others
  | [], _, h => by
      cases h
      exact .nil
  | (key, value) :: entries, _, h => by
      cases h with
      | @cons _ other _ others hfirst hrest =>
          obtain ⟨key', inner⟩ := other
          simp only [viewedEntry, Prod.mk.injEq] at hfirst
          rw [← hfirst.1]
          exact .cons key (same_of_view value inner hfirst.2)
            (sameEntries_of_view entries others hrest)

end

/-! Independent overrides. -/

/-- The same step to a reader of properties: the same index, or keys of one property. -/
def SameStep : ConfigPathSegment → ConfigPathSegment → Prop
  | .key a, .key b => normalizedPropertyName a = normalizedPropertyName b
  | .index i, .index j => i = j
  | _, _ => False

def SameKind : ConfigPathSegment → ConfigPathSegment → Prop
  | .key _, .key _ | .index _, .index _ => True
  | _, _ => False

/-- Neither path starts with the other; what they share is spelled alike, and is
followed by steps of one kind. -/
structure IndependentPaths (p q : List ConfigPathSegment) : Prop where
  not_below : ∀ front back, p = front ++ back → ¬List.Forall₂ SameStep front q
  not_above : ∀ front back, q = front ++ back → ¬List.Forall₂ SameStep p front
  spelled : ∀ front front' back back', p = front ++ back → q = front' ++ back' →
    List.Forall₂ SameStep front front' → front = front'
  kinds : ∀ front front' a b back back', p = front ++ a :: back → q = front' ++ b :: back' →
    List.Forall₂ SameStep front front' → SameKind a b

theorem SameStep.refl (segment : ConfigPathSegment) : SameStep segment segment := by
  cases segment <;> rfl

theorem IndependentPaths.tail {segment : ConfigPathSegment} {p q : List ConfigPathSegment}
    (h : IndependentPaths (segment :: p) (segment :: q)) : IndependentPaths p q where
  not_below front back hp hsame :=
    h.not_below (segment :: front) back (by rw [hp]; rfl) (.cons (.refl segment) hsame)
  not_above front back hq hsame :=
    h.not_above (segment :: front) back (by rw [hq]; rfl) (.cons (.refl segment) hsame)
  spelled front front' back back' hp hq hsame :=
    (List.cons.inj (h.spelled (segment :: front) (segment :: front') back back' (by rw [hp]; rfl)
      (by rw [hq]; rfl) (.cons (.refl segment) hsame))).2
  kinds front front' a b back back' hp hq hsame :=
    h.kinds (segment :: front) (segment :: front') a b back back' (by rw [hp]; rfl)
      (by rw [hq]; rfl) (.cons (.refl segment) hsame)

theorem IndependentPaths.parted {p q : List ConfigPathSegment} (h : IndependentPaths p q) :
    Parted p q := by
  induction p generalizing q with
  | nil => exact absurd .nil (h.not_above [] q rfl)
  | cons a p ih =>
      cases q with
      | nil => exact absurd .nil (h.not_below [] (a :: p) rfl)
      | cons b q =>
          by_cases hsame : SameStep a b
          · have heq := h.spelled [a] [b] p q rfl rfl (.cons hsame .nil)
            obtain rfl := List.singleton_inj.mp heq
            exact .deeper a (ih h.tail)
          · have hkind := h.kinds [] [] a b p q rfl rfl .nil
            cases a with
            | key a =>
                cases b with
                | key b => exact .keys hsame p q
                | index j => exact hkind.elim
            | index i =>
                cases b with
                | key b => exact hkind.elim
                | index j => exact .indices hsame p q

theorem SameStep.symm {a b : ConfigPathSegment} (h : SameStep a b) : SameStep b a := by
  cases a <;> cases b <;> first | exact Eq.symm h | exact h

theorem Parted.not_same_front {p q front back : List ConfigPathSegment} (h : Parted p q)
    (hp : p = front ++ back) : ¬List.Forall₂ SameStep front q := by
  induction h generalizing front back with
  | keys h path path' =>
      rintro (_ | ⟨hstep, hrest⟩)
      obtain rfl := (List.cons.inj hp).1
      exact h hstep
  | indices h path path' =>
      rintro (_ | ⟨hstep, hrest⟩)
      obtain rfl := (List.cons.inj hp).1
      exact h hstep
  | deeper segment _ ih =>
      rintro (_ | ⟨hstep, hrest⟩)
      exact ih (List.cons.inj hp).2 hrest

theorem Parted.spelled {p q front front' back back' : List ConfigPathSegment} (h : Parted p q)
    (hp : p = front ++ back) (hq : q = front' ++ back')
    (hsame : List.Forall₂ SameStep front front') : front = front' := by
  induction h generalizing front front' with
  | keys h path path' =>
      cases hsame with
      | nil => rfl
      | cons hstep hrest =>
          obtain rfl := (List.cons.inj hp).1
          obtain rfl := (List.cons.inj hq).1
          exact absurd hstep h
  | indices h path path' =>
      cases hsame with
      | nil => rfl
      | cons hstep hrest =>
          obtain rfl := (List.cons.inj hp).1
          obtain rfl := (List.cons.inj hq).1
          exact absurd hstep h
  | deeper segment _ ih =>
      cases hsame with
      | nil => rfl
      | cons hstep hrest =>
          obtain rfl := (List.cons.inj hp).1
          obtain rfl := (List.cons.inj hq).1
          rw [ih (List.cons.inj hp).2 (List.cons.inj hq).2 hrest]

theorem Parted.kinds {p q front front' back back' : List ConfigPathSegment}
    {a b : ConfigPathSegment} (h : Parted p q) (hp : p = front ++ a :: back)
    (hq : q = front' ++ b :: back') (hsame : List.Forall₂ SameStep front front') :
    SameKind a b := by
  induction h generalizing front front' with
  | keys h path path' =>
      cases hsame with
      | nil =>
          obtain rfl := (List.cons.inj hp).1
          obtain rfl := (List.cons.inj hq).1
          trivial
      | cons hstep hrest =>
          obtain rfl := (List.cons.inj hp).1
          obtain rfl := (List.cons.inj hq).1
          exact absurd hstep h
  | indices h path path' =>
      cases hsame with
      | nil =>
          obtain rfl := (List.cons.inj hp).1
          obtain rfl := (List.cons.inj hq).1
          trivial
      | cons hstep hrest =>
          obtain rfl := (List.cons.inj hp).1
          obtain rfl := (List.cons.inj hq).1
          exact absurd hstep h
  | deeper segment _ ih =>
      cases hsame with
      | nil =>
          obtain rfl := (List.cons.inj hp).1
          obtain rfl := (List.cons.inj hq).1
          cases segment <;> trivial
      | cons hstep hrest => exact ih (List.cons.inj hp).2 (List.cons.inj hq).2 hrest

theorem Parted.independent {p q : List ConfigPathSegment} (h : Parted p q) :
    IndependentPaths p q where
  not_below _ _ hp := h.not_same_front hp
  not_above _ _ hq hsame := h.symm.not_same_front hq (hsame.flip.imp fun _ _ => SameStep.symm)
  spelled _ _ _ _ := h.spelled
  kinds _ _ _ _ _ _ := h.kinds

/-- The variable overrides the path. -/
def Overrides (name : String) (path : List ConfigPathSegment) : Prop :=
  isOverride name = true ∧ overridePath name = .ok path

/-- Entries whose paths can be read and are independent of each other, and step through
the existing nodes by the kind of step these accept. -/
structure IndependentEntries (root : Yaml) (entries : List (String × String)) : Prop where
  parsed : ∀ entry ∈ entries, isOverride entry.1 = true →
    ∃ path, overridePath entry.1 = .ok path
  independent : entries.Pairwise fun a b =>
    ∀ p q, Overrides a.1 p → Overrides b.1 q → IndependentPaths p q
  fits : ∀ entry ∈ entries, ∀ path, Overrides entry.1 path → Fits root path

section Entries

variable (parseYaml : String → Option Yaml)

def pathOf (name : String) : List ConfigPathSegment := (overridePath name).toOption.getD []

/-- The overrides in the order of the environment. -/
def overridesOf (entries : List (String × String)) : List (List ConfigPathSegment × Yaml) :=
  (entries.filter fun entry => isOverride entry.1).map fun entry =>
    (pathOf entry.1, overrideValue parseYaml entry.2)

variable {parseYaml}

theorem Overrides.pathOf_eq {name : String} {path : List ConfigPathSegment}
    (h : Overrides name path) : pathOf name = path := by
  simp [pathOf, h.2, Except.toOption]

theorem overrides_pathOf {name : String} (hname : isOverride name = true)
    (h : ∃ path, overridePath name = .ok path) : Overrides name (pathOf name) := by
  obtain ⟨path, hpath⟩ := h
  refine ⟨hname, ?_⟩
  simp [pathOf, hpath, Except.toOption]

theorem applyEnvironmentEntries_ok {entries : List (String × String)}
    (h : ∀ entry ∈ entries, isOverride entry.1 = true → ∃ path, overridePath entry.1 = .ok path)
    (root : Yaml) :
    applyEnvironmentEntries parseYaml root entries =
      .ok (setYamlPaths root (overridesOf parseYaml entries)) := by
  unfold applyEnvironmentEntries overridesOf
  have hfiltered : ∀ entry ∈ entries.filter (fun entry => isOverride entry.1),
      Overrides entry.1 (pathOf entry.1) := fun entry hentry =>
    have hmem := List.mem_filter.mp hentry
    overrides_pathOf hmem.2 (h entry hmem.1 hmem.2)
  generalize entries.filter (fun entry => isOverride entry.1) = overrides at hfiltered
  induction overrides generalizing root with
  | nil => rfl
  | cons entry overrides ih =>
      rw [List.forall_mem_cons] at hfiltered
      rw [List.foldlM_cons, List.map_cons, setYamlPaths_cons]
      simp only [applyEntry, hfiltered.1.2]
      exact ih _ hfiltered.2

theorem IndependentEntries.parted (parseYaml : String → Option Yaml) {root : Yaml}
    {entries : List (String × String)}
    (h : IndependentEntries root entries) :
    (overridesOf parseYaml entries).Pairwise fun a b => Parted a.1 b.1 := by
  rw [overridesOf, List.pairwise_map]
  have hoverrides : ∀ entry ∈ entries.filter (fun entry => isOverride entry.1),
      Overrides entry.1 (pathOf entry.1) := fun entry hentry =>
    have hmem := List.mem_filter.mp hentry
    overrides_pathOf hmem.2 (h.parsed entry hmem.1 hmem.2)
  have hfiltered := h.independent.filter (fun entry => isOverride entry.1)
  refine hfiltered.imp_of_mem fun ha hb hpaths => ?_
  dsimp only
  exact (hpaths _ _ (hoverrides _ ha) (hoverrides _ hb)).parted

theorem mem_overridesOf {entries : List (String × String)}
    (h : ∀ entry ∈ entries, isOverride entry.1 = true → ∃ path, overridePath entry.1 = .ok path)
    {found : List ConfigPathSegment × Yaml} :
    found ∈ overridesOf parseYaml entries ↔
      ∃ entry ∈ entries, Overrides entry.1 found.1 ∧ overrideValue parseYaml entry.2 = found.2 := by
  simp only [overridesOf, List.mem_map, List.mem_filter]
  constructor
  · rintro ⟨entry, ⟨hmem, hname⟩, rfl⟩
    refine ⟨entry, hmem, ?_, rfl⟩
    dsimp only
    exact overrides_pathOf hname (h entry hmem hname)
  · rintro ⟨entry, hmem, hoverrides, hvalue⟩
    refine ⟨entry, ⟨hmem, hoverrides.1⟩, ?_⟩
    rw [hoverrides.pathOf_eq, hvalue]

/-- Independent overrides come in any order, take effect and touch nothing else. -/
theorem independent_overrides_commute (parseYaml : String → Option Yaml) {root : Yaml}
    {entries : List (String × String)} (h : IndependentEntries root entries) :
    ∃ result, applyEnvironmentEntries parseYaml root entries = .ok result ∧
      (∀ order, order.Perm entries →
        ∃ other, applyEnvironmentEntries parseYaml root order = .ok other ∧ Same result other) ∧
      (∀ entry ∈ entries, ∀ path, Overrides entry.1 path →
        result.nodeAt (locationOf result path) = some (overrideValue parseYaml entry.2)) ∧
      ∀ location,
        (∀ entry ∈ entries, ∀ path, Overrides entry.1 path →
          Untouched root location (locationOf root path)) →
        result.nodeAt location = root.nodeAt location := by
  have hparted := h.parted parseYaml
  have hfits : ∀ entry ∈ overridesOf parseYaml entries, Fits root entry.1 := by
    intro found hfound
    obtain ⟨entry, hentry, hoverrides, _⟩ := (mem_overridesOf h.parsed).mp hfound
    exact h.fits entry hentry found.1 hoverrides
  refine ⟨_, applyEnvironmentEntries_ok h.parsed root, ?_, ?_, ?_⟩
  · intro order hperm
    have hparsed : ∀ entry ∈ order, isOverride entry.1 = true →
        ∃ path, overridePath entry.1 = .ok path :=
      fun entry hentry => h.parsed entry (hperm.mem_iff.mp hentry)
    have hoverrides : (overridesOf parseYaml entries).Perm (overridesOf parseYaml order) :=
      (hperm.symm.filter _).map _
    exact ⟨_, applyEnvironmentEntries_ok hparsed root,
      same_of_view _ _ (viewOf_setYamlPaths_perm hoverrides hparted)⟩
  · intro entry hentry path hpath
    have hmem : (path, overrideValue parseYaml entry.2) ∈ overridesOf parseYaml entries :=
      (mem_overridesOf h.parsed).mpr ⟨entry, hentry, hpath, rfl⟩
    exact nodeAt_setYamlPaths hparted hfits hmem
  · intro location huntouched
    refine nodeAt_setYamlPaths_of_untouched hparted hfits fun found hfound => ?_
    obtain ⟨entry, hentry, hoverrides, _⟩ := (mem_overridesOf h.parsed).mp hfound
    exact huntouched entry hentry found.1 hoverrides

end Entries

/-! A port that is set, a list that is started and a variable that is no override. -/

namespace Deployed

def server : Yaml := .mapping [(.string "port", .null)]

def root : Yaml := .mapping [(.string "server", server)]

def entries : List (String × String) :=
  [("AUTHGUARD__SERVER__PORT", "8180"), ("AUTHGUARD__SERVER__HOSTS[1]", "a"), ("PATH", "/bin")]

def parseYaml (text : String) : Option Yaml :=
  if text = "8180" then some (.number (.unsigned 8180)) else some (.string text)

theorem port {path : List ConfigPathSegment} (h : Overrides "AUTHGUARD__SERVER__PORT" path) :
    path = [.key "SERVER", .key "PORT"] := by
  have hpath : overridePath "AUTHGUARD__SERVER__PORT" = .ok [.key "SERVER", .key "PORT"] := by
    decide +kernel
  exact Except.ok.inj (h.2.symm.trans hpath)

theorem hosts {path : List ConfigPathSegment} (h : Overrides "AUTHGUARD__SERVER__HOSTS[1]" path) :
    path = [.key "SERVER", .key "HOSTS", .index 1] := by
  have hpath : overridePath "AUTHGUARD__SERVER__HOSTS[1]" =
      .ok [.key "SERVER", .key "HOSTS", .index 1] := by
    decide +kernel
  exact Except.ok.inj (h.2.symm.trans hpath)

theorem other {path : List ConfigPathSegment} (h : Overrides "PATH" path) : False :=
  absurd h.1 (by decide +kernel)

theorem server_fits {path : List ConfigPathSegment} (h : Fits server path) :
    Fits root (.key "SERVER" :: path) := by
  refine ⟨.inl (by decide +kernel), fun child hchild => ?_⟩
  have hserver : root.child (placeOf root (.key "SERVER")) = some server := by decide +kernel
  obtain rfl := Option.some.inj (hserver.symm.trans hchild)
  exact h

theorem independentEntries : IndependentEntries root entries where
  parsed := by
    simp only [entries, List.forall_mem_cons]
    exact ⟨fun _ => ⟨[.key "SERVER", .key "PORT"], by decide +kernel⟩,
      fun _ => ⟨[.key "SERVER", .key "HOSTS", .index 1], by decide +kernel⟩,
      fun h => absurd h (by decide +kernel), by simp⟩
  independent := by
    simp only [entries, List.pairwise_cons, List.forall_mem_cons]
    refine ⟨⟨fun p q hp hq => ?_, fun _ _ _ hq => (other hq).elim, by simp⟩,
      ⟨fun _ _ _ hq => (other hq).elim, by simp⟩, by simp⟩
    rw [port hp, hosts hq]
    exact (Parted.deeper _ (.keys (by decide) _ _)).independent
  fits := by
    simp only [entries, List.forall_mem_cons]
    refine ⟨fun path h => ?_, fun path h => ?_, fun path h => (other h).elim, by simp⟩
    · rw [port h]
      exact server_fits ⟨.inl (by decide +kernel), fun _ _ => trivial⟩
    · rw [hosts h]
      refine server_fits ⟨.inl (by decide +kernel), fun child hchild => ?_⟩
      have hnone : server.child (placeOf server (.key "HOSTS")) = none := by decide +kernel
      exact absurd (hnone.symm.trans hchild) (Option.some_ne_none child).symm

theorem overrides_commute :
    ∃ result, applyEnvironmentEntries parseYaml root entries = .ok result ∧
      (∀ order, order.Perm entries →
        ∃ other, applyEnvironmentEntries parseYaml root order = .ok other ∧ Same result other) ∧
      (∀ entry ∈ entries, ∀ path, Overrides entry.1 path →
        result.nodeAt (locationOf result path) = some (overrideValue parseYaml entry.2)) ∧
      ∀ location,
        (∀ entry ∈ entries, ∀ path, Overrides entry.1 path →
          Untouched root location (locationOf root path)) →
        result.nodeAt location = root.nodeAt location :=
  independent_overrides_commute parseYaml independentEntries

end Deployed

end Authguard
