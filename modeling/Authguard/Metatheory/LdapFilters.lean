import Authguard.Authz.LdapDirectory
import Authguard.Library.LdapFilter
import Authguard.Library.Result

/-!
The filters the LDAP connector sends. They are put together from the filter of the
settings, from names of attributes and from the text of a caller; the text is
escaped, the names are checked when the connector is made.
-/

namespace Authguard
open Text LdapFilter

/-- An attribute contains the text. -/
def containing (text name : String) : Filter :=
  .item (some name.toList) (.substring [] [octets text] [])

/-- An attribute is the text. -/
def equalTo (text name : String) : Filter :=
  .item (some name.toList) (.comparison .equal (octets text))

/-- The text is this filter, and no other. -/
def WrittenFor (text : String) (filter : Filter) : Prop :=
  ∀ other, Written text.toList [other] ↔ other = filter

namespace LdapObjectMapping

section
variable {mapping : LdapObjectMapping} {client : LdapClient} {object : Filter}

theorem candidates_eq (names : List String) (escaped out : String) :
    (names.foldl (fun out name => out ++ "(" ++ name ++ "=*" ++ escaped ++ "*)") out).toList =
      out.toList ++ names.flatMap fun name =>
        '(' :: (name.toList ++ '=' :: '*' :: (escaped.toList ++ ['*'])) ++ [')'] := by
  induction names generalizing out with
  | nil => exact (List.append_nil _).symm
  | cons name names ih =>
      rw [List.foldl_cons, ih, List.flatMap_cons]
      simp [String.toList_append]

theorem candidates_written (text : String) (hescape : Escapes client.ldapEscape)
    {names : List String} (hnames : ∀ name ∈ names, isAttributeDescription name.toList = true) :
    Written (names.flatMap fun name =>
        '(' :: (name.toList ++ '=' :: '*' :: ((client.ldapEscape text).toList ++ ['*'])) ++ [')'])
      (names.map (containing text)) := by
  induction names with
  | nil => exact .nil
  | cons name names ih =>
      rw [List.forall_mem_cons] at hnames
      rw [List.flatMap_cons, List.map_cons]
      have hvalid : ∀ other, some name.toList = some other → isAttributeDescription other = true := by
        rintro other ⟨⟩
        exact hnames.1
      have hassertion : WrittenAssertion (some name.toList)
          ('=' :: '*' :: ((client.ldapEscape text).toList ++ ['*']))
          (.substring [] [octets text] []) := by
        have hwritten : WrittenAssertion (some name.toList)
            ('=' :: ([] ++ '*' :: ([(client.ldapEscape text).toList].flatMap (· ++ ['*']) ++ [])))
            (.substring [] [octets text] []) :=
          .substring nofun rfl rfl (.cons (hescape.decode text) .nil) nofun
        simpa using hwritten
      have hitem := Written.item hvalid hassertion (ih hnames.2)
      simpa [containing] using hitem

theorem searchFilter_written {text : String} (hescape : Escapes client.ldapEscape)
    (hobject : Written mapping.objectFilter.toList [object])
    (hsome : mapping.searchAttributes ≠ [])
    (hnames : ∀ name ∈ mapping.searchAttributes, isAttributeDescription name.toList = true) :
    Written (mapping.searchFilter client text).toList
      [.and [object, .or (mapping.searchAttributes.map (containing (trim text)))]] := by
  have hor := Written.or (candidates_written (trim text) hescape hnames)
    (by simpa using hsome) .nil
  have hand := Written.and (hobject.append hor) (by simp) .nil
  rw [searchFilter]
  simp only [String.toList_append, candidates_eq]
  simpa using hand

theorem exactFilter_written {externalId : String} (hescape : Escapes client.ldapEscape)
    (hobject : Written mapping.objectFilter.toList [object])
    (hname : isAttributeDescription mapping.idAttribute.toList = true) :
    Written (mapping.exactFilter client externalId).toList
      [.and [object, equalTo externalId mapping.idAttribute]] := by
  have hvalid : ∀ other, some mapping.idAttribute.toList = some other →
      isAttributeDescription other = true := by
    rintro other ⟨⟩
    exact hname
  have hassertion : WrittenAssertion (some mapping.idAttribute.toList)
      (Relation.equal.symbol ++ (client.ldapEscape externalId).toList)
      (.comparison .equal (octets externalId)) :=
    .comparison .equal nofun (hescape.decode externalId)
  have hand := Written.and (hobject.append (.item hvalid hassertion .nil)) (by simp) .nil
  rw [exactFilter]
  simp only [String.toList_append]
  simpa [Relation.symbol, equalTo] using hand

end

end LdapObjectMapping

theorem writtenFor_of_written {text : String} {filter : Filter} (h : Written text.toList [filter]) :
    WrittenFor text filter := by
  intro other
  constructor
  · intro hother
    exact (List.cons.inj (hother.determined h)).1
  · rintro rfl
    exact h

theorem names_containing (text : String) (names : List String) :
    Filter.namesAll (names.map (containing text)) = names.map String.toList := by
  induction names with
  | nil => rfl
  | cons name names ih =>
      rw [List.map_cons, List.map_cons, Filter.namesAll, ih]
      rfl

/-- What the settings are checked for. -/
theorem validateMapping_ok {parseFilter : String → Bool} {kind : String}
    {mapping : LdapObjectMapping}
    (h : LdapPrincipalDiscovery.validateMapping parseFilter kind mapping = .ok ()) :
    parseFilter mapping.objectFilter = true ∧ mapping.searchAttributes ≠ [] := by
  obtain ⟨⟨⟩, -, h⟩ := Result.bind_ok_iff.mp h
  split at h
  · cases h
  · rename_i hparse
    obtain ⟨⟨⟩, -, h⟩ := Result.bind_ok_iff.mp h
    split at h
    · cases h
    · rename_i hcount
      exact ⟨by simpa using hparse, fun hnone => hcount (.inl hnone)⟩

/-- For every text and every identifier, the filters are the ones that are meant exactly when
the names they hold are attribute descriptions. -/
theorem filters_read_iff {parseFilter : String → Bool} {kind : String}
    {mapping : LdapObjectMapping} {client : LdapClient}
    (hescape : Escapes client.ldapEscape)
    (hparse : ∀ text, parseFilter text = true ↔ ∃ filter, Written text.toList [filter])
    (hvalid : LdapPrincipalDiscovery.validateMapping parseFilter kind mapping = .ok ())
    (text externalId : String) :
    (∃ object, WrittenFor mapping.objectFilter object ∧
      WrittenFor (mapping.searchFilter client text)
        (.and [object, .or (mapping.searchAttributes.map (containing (trim text)))]) ∧
      WrittenFor (mapping.exactFilter client externalId)
        (.and [object, equalTo externalId mapping.idAttribute])) ↔
      ∀ name ∈ mapping.idAttribute :: mapping.searchAttributes,
        isAttributeDescription name.toList = true := by
  obtain ⟨hobject, hsome⟩ := validateMapping_ok hvalid
  obtain ⟨object, hobject⟩ := (hparse _).mp hobject
  rw [List.forall_mem_cons]
  constructor
  · rintro ⟨other, -, hsearch, hexact⟩
    have hsearched := ((hsearch _).mpr rfl).names_valid
    have hasked := ((hexact _).mpr rfl).names_valid
    refine ⟨hasked _ ?_, fun name hname => hsearched _ ?_⟩
    · simp [Filter.namesAll, Filter.names, equalTo]
    · have hmem := List.mem_map_of_mem (f := String.toList) hname
      rw [← names_containing (trim text)] at hmem
      simp [Filter.namesAll, Filter.names, hmem]
  · rintro ⟨hid, hnames⟩
    exact ⟨object, writtenFor_of_written hobject,
      writtenFor_of_written (mapping.searchFilter_written hescape hobject hsome hnames),
      writtenFor_of_written (mapping.exactFilter_written hescape hobject hid)⟩

/-! Settings. -/

namespace Office

def escapeReserved (c : Char) : List Char :=
  if c = '\x00' then ['\\', '0', '0']
  else if c = '(' then ['\\', '2', '8']
  else if c = ')' then ['\\', '2', '9']
  else if c = '*' then ['\\', '2', 'a']
  else if c = '\\' then ['\\', '5', 'c']
  else [c]

def client : LdapClient where
  ldapEscape text := String.ofList (text.toList.flatMap escapeReserved)
  search _ := .ok ⟨[], []⟩

theorem escapedAs (c : Char) : EscapedAs c (escapeReserved c) := by
  rw [EscapedAs]
  split
  · rename_i h
    simp only [isReserved, List.mem_cons, List.not_mem_nil, or_false, decide_eq_true_eq] at h
    obtain rfl | rfl | rfl | rfl | rfl := h
    · exact ⟨'0', '0', 0, 0, rfl, by decide, by decide, by decide⟩
    · exact ⟨'2', '8', 2, 8, rfl, by decide, by decide, by decide⟩
    · exact ⟨'2', '9', 2, 9, rfl, by decide, by decide, by decide⟩
    · exact ⟨'2', 'a', 2, 10, rfl, by decide, by decide, by decide⟩
    · exact ⟨'5', 'c', 5, 12, rfl, by decide, by decide, by decide⟩
  · rename_i h
    simp only [isReserved, List.mem_cons, List.not_mem_nil, or_false, decide_eq_true_eq,
      not_or] at h
    simp [escapeReserved, h]

theorem escapes : Escapes client.ldapEscape := by
  refine fun text => ⟨text.toList.map escapeReserved, ?_, ?_⟩
  · exact List.forall₂_map_right_iff.mpr (List.forall₂_same.mpr fun c _ => escapedAs c)
  · rw [client, String.toList_ofList, List.flatMap_def]

/-- A reader of exactly the filters of RFC 4515. -/
noncomputable def accepts (text : String) : Bool :=
  @decide (∃ filter, Written text.toList [filter]) (Classical.propDecidable _)

theorem accepts_iff (text : String) : accepts text = true ↔ ∃ filter, Written text.toList [filter] :=
  @decide_eq_true_iff _ (Classical.propDecidable _)

theorem any_name : Written "(cn=*)".toList [.item (some "cn".toList) .present] := by
  have hvalid : ∀ name, some "cn".toList = some name → isAttributeDescription name = true := by
    rintro name ⟨⟩
    decide
  exact .item hvalid (.present nofun) .nil

/-- Whoever has a name, with the attribute that is searched. -/
def people (name : String) : LdapObjectMapping :=
  ⟨"", "(cn=*)", "uid", "cn", none, none, none, [name]⟩

theorem valid (name : String) (h : LdapPrincipalDiscovery.validateAttribute "user" name = .ok ())
    (hone : (sortDedup [toAsciiLowercase name]).length = 1) :
    LdapPrincipalDiscovery.validateMapping accepts "user" (people name) = .ok () := by
  have hreads : accepts (people name).objectFilter = true :=
    (accepts_iff "(cn=*)").mpr ⟨_, any_name⟩
  have hnames : (["uid", "cn", name].forM (LdapPrincipalDiscovery.validateAttribute "user")) =
      .ok () := by
    refine Result.bind_ok_iff.mpr ⟨(), by decide +kernel, ?_⟩
    refine Result.bind_ok_iff.mpr ⟨(), by decide +kernel, ?_⟩
    exact Result.bind_ok_iff.mpr ⟨(), h, rfl⟩
  refine Result.bind_ok_iff.mpr ⟨(), rfl, ?_⟩
  rw [hreads, Bool.not_true, if_neg Bool.false_ne_true]
  refine Result.bind_ok_iff.mpr ⟨(), hnames, ?_⟩
  rw [if_neg (by simp [people]), if_neg]
  exact not_not.mpr hone

theorem name_searched :
    ∃ object, WrittenFor (people "cn").objectFilter object ∧
      WrittenFor ((people "cn").searchFilter client " a*b ")
        (.and [object, .or [containing "a*b" "cn"]]) ∧
      WrittenFor ((people "cn").exactFilter client "x)(y")
        (.and [object, equalTo "x)(y" "uid"]) :=
  (filters_read_iff escapes accepts_iff (valid "cn" (by decide +kernel) (by decide +kernel))
    " a*b " "x)(y").mpr (by decide +kernel)

/-- A hyphen is accepted as a name, and the filter of a search is not the one that is meant. -/
theorem hyphen_accepted :
    LdapPrincipalDiscovery.validateMapping accepts "user" (people "-") = .ok () ∧
      (people "-").searchFilter client "ada" = "(&(cn=*)(|(-=*ada*)))" ∧
      ∀ object, ¬WrittenFor ((people "-").searchFilter client "ada")
        (.and [object, .or [containing "ada" "-"]]) := by
  refine ⟨valid "-" (by decide +kernel) (by decide +kernel), by decide +kernel, fun object h => ?_⟩
  have hnames := ((h _).mpr rfl).names_valid "-".toList
    (by simp [Filter.namesAll, Filter.names, containing])
  exact absurd hnames (by decide)

end Office

end Authguard
