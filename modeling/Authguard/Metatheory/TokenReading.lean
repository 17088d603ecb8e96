import Authguard.Metatheory.WireFormat

/-!
Reading a token back. An object that writes an identity, in any order of its
fields, is read as that identity with the synthetic claim `mfa` on top, unless the
claims it lists are too large. The size is checked before `mfa` is added.
-/

namespace Authguard
open Text Result

/-- The bytes of scalar claims, as the reader counts them. -/
def claimBytes (claims : List (String × String)) : Nat :=
  (claims.map fun entry => entry.1.utf8ByteSize + entry.2.utf8ByteSize).sum

theorem claimBytes_perm {claims claims' : List (String × String)} (h : claims.Perm claims') :
    claimBytes claims = claimBytes claims' :=
  (h.map _).sum_eq

/-! Scalar claims of an object. -/

theorem scalarClaims_cons (entry : String × Json) (object : List (String × Json)) :
    scalarClaims (entry :: object) =
      if isBoundaryClaim entry.1 then scalarClaims object
      else ((scalarClaim entry.2).map fun value => (entry.1, value)).toList ++
        scalarClaims object := by
  cases hname : isBoundaryClaim entry.1 with
  | true => simp [scalarClaims, hname]
  | false =>
      cases hvalue : scalarClaim entry.2 with
      | none => simp [scalarClaims, hname, hvalue]
      | some value => simp [scalarClaims, hname, hvalue]

theorem scalarClaims_keys (object : List (String × Json)) :
    ((scalarClaims object).map Prod.fst).Sublist (object.map Prod.fst) := by
  induction object with
  | nil => exact .slnil
  | cons entry object ih =>
      rw [scalarClaims_cons]
      split
      · exact ih.cons _
      · cases scalarClaim entry.2 with
        | none => exact ih.cons _
        | some value => exact ih.cons_cons _

theorem lookup_scalarClaims {object : List (String × Json)} (h : (object.map Prod.fst).Nodup)
    (name : String) :
    (scalarClaims object).lookup name =
      if isBoundaryClaim name then none else (object.lookup name).bind scalarClaim := by
  induction object with
  | nil => simp [scalarClaims]
  | cons entry object ih =>
      rw [List.map_cons, List.nodup_cons] at h
      have hrest := ih h.2
      rw [scalarClaims_cons, SortedMap.lookup_cons_ite]
      by_cases hname : name = entry.1
      · -- the name does not occur again
        have hfresh : (scalarClaims object).lookup entry.1 = none := by
          rw [List.lookup_eq_none_iff]
          intro other hother
          rw [bne_iff_ne]
          intro heq
          have hmem := List.mem_map_of_mem (f := Prod.fst) hother
          exact h.1 ((scalarClaims_keys object).subset (heq ▸ hmem))
        subst hname
        cases hboundary : isBoundaryClaim entry.1 with
        | true => simpa using hfresh
        | false =>
            cases hvalue : scalarClaim entry.2 with
            | none => simpa [hvalue] using hfresh
            | some value => simp [hvalue]
      · rw [if_neg hname, ← hrest]
        split
        · rfl
        · cases scalarClaim entry.2 with
          | none => rfl
          | some value =>
              rw [Option.map_some, Option.toList_some, List.singleton_append,
                SortedMap.lookup_cons_ite, if_neg hname]

/-! Identities. -/

/-- What the reader makes sure of, apart from the size of the claims. -/
structure AuthenticatedPrincipalContext.Admissible (identity : AuthenticatedPrincipalContext) :
    Prop where
  principalId : validateCanonical identity.principalId = true
  groupCount : identity.stableGroupIds.length ≤ maxGroups
  groupBytes : (identity.stableGroupIds.map String.utf8ByteSize).sum ≤ maxGroupBytes
  groupNames : identity.stableGroupIds.all validateCanonical = true
  groupOrder : identity.stableGroupIds.Pairwise (· < ·)
  boundary : ∀ name, isBoundaryClaim name = true → identity.trustedClaims.get name = none

/-- The object holds the identity, next to fields the reader passes over. -/
structure WritesIdentity (object : List (String × Json))
    (identity : AuthenticatedPrincipalContext) : Prop where
  nodup : (object.map Prod.fst).Nodup
  principalId : object.lookup "principal_id" = some (.string identity.principalId)
  kind : object.lookup "principal_kind" = some (.string identity.kind.asStr)
  groups : object.lookup "authguard_group_ids" = some (.strings identity.stableGroupIds)
  acr : object.lookup "acr" = identity.acr.map .string
  amr : object.lookup "amr" = some (.strings identity.amr)
  claims : ∀ name, isBoundaryClaim name = false →
    (object.lookup name).bind scalarClaim = identity.trustedClaims.get name

theorem WritesIdentity.perm {object object' : List (String × Json)}
    {identity : AuthenticatedPrincipalContext} (h : WritesIdentity object identity)
    (hperm : object'.Perm object) : WritesIdentity object' identity := by
  have hnodup : (object'.map Prod.fst).Nodup := (hperm.map Prod.fst).nodup_iff.mpr h.nodup
  have hlookup := SortedMap.lookup_perm hperm hnodup
  refine ⟨hnodup, ?_, ?_, ?_, ?_, ?_, ?_⟩
  · rw [hlookup, h.principalId]
  · rw [hlookup, h.kind]
  · rw [hlookup, h.groups]
  · rw [hlookup, h.acr]
  · rw [hlookup, h.amr]
  · intro name hname
    rw [hlookup, h.claims name hname]

theorem parsePrincipalKind_asStr (kind : PrincipalKind) :
    parsePrincipalKind kind.asStr = some kind := by
  cases kind <;> rfl

theorem readGroups_strings {groups : List String} (hcount : groups.length ≤ maxGroups)
    (hbytes : (groups.map String.utf8ByteSize).sum ≤ maxGroupBytes)
    (hnames : groups.all validateCanonical = true) :
    readGroups (some (.strings groups)) = .ok (sortDedup groups) := by
  have hread : Json.all Json.toStr (groups.map Json.string) = some groups :=
    Json.all_map Json.toStr Json.string (fun _ => rfl) groups
  have hlimits : ¬(maxGroups < groups.length ∨
      maxGroupBytes < (groups.map String.utf8ByteSize).sum) := by
    rw [not_or, not_lt, not_lt]
    exact ⟨hcount, hbytes⟩
  simp only [readGroups, Json.strings, hread]
  change (if _ then _ else _) = _
  rw [if_neg hlimits, if_pos hnames]

theorem readStringArray_strings (values : List String) :
    readStringArray (some (.strings values)) = .ok values := by
  have hread : Json.all Json.toStr (values.map Json.string) = some values :=
    Json.all_map Json.toStr Json.string (fun _ => rfl) values
  simp only [readStringArray, Json.strings, hread]

/-- The reader on an object that writes an identity. -/
theorem WritesIdentity.fromClaims_eq {object : List (String × Json)}
    {identity : AuthenticatedPrincipalContext} (h : WritesIdentity object identity)
    (hadmissible : identity.Admissible) :
    AuthenticatedPrincipalContext.fromClaims object "principal_id" "principal_kind"
        "authguard_group_ids" =
      if maxScalarClaimBytes < claimBytes identity.trustedClaims.entries then .error .tooLarge
      else .ok { identity with
        trustedClaims :=
          identity.trustedClaims.insert "mfa" (toString (identity.amr.contains "mfa")) } := by
  have hkeys : ((scalarClaims object).map Prod.fst).Nodup := (scalarClaims_keys object).nodup h.nodup
  have hclaims : SortedMap.ofList (scalarClaims object) = identity.trustedClaims := by
    apply SortedMap.ext_get
    intro name
    rw [SortedMap.get_ofList hkeys, lookup_scalarClaims h.nodup]
    cases hname : isBoundaryClaim name with
    | true => exact (hadmissible.boundary name hname).symm
    | false => exact h.claims name hname
  have hbytes : claimBytes (scalarClaims object) = claimBytes identity.trustedClaims.entries :=
    hclaims ▸ (claimBytes_perm (SortedMap.ofList_perm hkeys)).symm
  have hgroups : readGroups (object.lookup "authguard_group_ids") = .ok identity.stableGroupIds := by
    rw [h.groups, readGroups_strings hadmissible.groupCount hadmissible.groupBytes
      hadmissible.groupNames, sortDedup_eq_self hadmissible.groupOrder]
  have hacr : (object.lookup "acr").bind Json.toStr = identity.acr := by
    rw [h.acr]
    cases identity.acr <;> rfl
  have hamr : readStringArray (object.lookup "amr") = .ok identity.amr := by
    rw [h.amr, readStringArray_strings]
  rw [claimBytes] at hbytes
  simp only [AuthenticatedPrincipalContext.fromClaims, h.principalId, h.kind, hgroups, hacr, hamr,
    Option.bind_some, Json.toStr, parsePrincipalKind_asStr, hadmissible.principalId, hclaims,
    Bool.not_true, Bool.false_eq_true, if_false, hbytes]
  rfl

theorem readGroups_cases (value : Option Json) :
    (∃ failure, readGroups value = .error failure) ∨
      ∃ values : List String, readGroups value =
        if maxGroups < values.length ∨ maxGroupBytes < (values.map String.utf8ByteSize).sum then
          .error .tooLarge
        else if values.all validateCanonical then .ok (sortDedup values)
        else .error .invalidGroups := by
  unfold readGroups
  split
  · exact .inr ⟨[], rfl⟩
  · exact .inr ⟨[], rfl⟩
  · exact .inr ⟨[_], rfl⟩
  · cases Json.all Json.toStr _ with
    | none => exact .inl ⟨_, rfl⟩
    | some values => exact .inr ⟨values, rfl⟩
  · exact .inl ⟨_, rfl⟩

theorem readGroups_ok {value : Option Json} {groups : List String}
    (h : readGroups value = .ok groups) :
    groups.length ≤ maxGroups ∧ (groups.map String.utf8ByteSize).sum ≤ maxGroupBytes ∧
      groups.all validateCanonical = true ∧ groups.Pairwise (· < ·) := by
  obtain ⟨failure, hfailure⟩ | ⟨values, hvalues⟩ := readGroups_cases value
  · rw [hfailure] at h
    cases h
  rw [h, eq_comm] at hvalues
  by_cases hlimits : maxGroups < values.length ∨
      maxGroupBytes < (values.map String.utf8ByteSize).sum
  · rw [if_pos hlimits] at hvalues
    cases hvalues
  · rw [if_neg hlimits] at hvalues
    rw [not_or, not_lt, not_lt] at hlimits
    by_cases hnames : values.all validateCanonical = true
    · rw [if_pos hnames, Except.ok.injEq] at hvalues
      subst hvalues
      refine ⟨(sortDedup_length_le values).trans hlimits.1,
        (sortDedup_sum_le String.utf8ByteSize values).trans hlimits.2, ?_,
        sortDedup_strictly values⟩
      rw [List.all_eq_true] at hnames ⊢
      exact fun group hgroup => hnames group (mem_sortDedup.mp hgroup)
    · rw [if_neg hnames] at hvalues
      cases hvalues

theorem get_scalarClaims_boundary {object : List (String × Json)} {name : String}
    (h : isBoundaryClaim name = true) :
    (SortedMap.ofList (scalarClaims object)).get name = none := by
  have hnot : ∀ entry ∈ scalarClaims object, entry.1 ≠ name := by
    intro entry hentry heq
    obtain ⟨field, hfield, hvalue⟩ := List.mem_filterMap.mp hentry
    obtain ⟨value, -, rfl⟩ := Option.map_eq_some_iff.mp hvalue
    have hfree := (List.mem_filter.mp hfield).2
    rw [show field.1 = name from heq, h] at hfree
    cases hfree
  exact SortedMap.get_ofList_of_not_mem hnot

/-- What every context the reader returns satisfies. -/
theorem fromClaims_admissible {object : List (String × Json)}
    {principalIdClaim kindClaim groupsClaim : String} {identity : AuthenticatedPrincipalContext}
    (h : AuthenticatedPrincipalContext.fromClaims object principalIdClaim kindClaim groupsClaim =
      .ok identity) :
    identity.Admissible ∧
      identity.trustedClaims.get "mfa" = some (toString (identity.amr.contains "mfa")) := by
  unfold AuthenticatedPrincipalContext.fromClaims at h
  split at h
  · cases h
  rename_i principalId hprincipal
  by_cases hcanonical : validateCanonical principalId = true
  · rw [if_neg (by simp [hcanonical])] at h
    split at h
    · cases h
    rename_i kind hkind
    obtain ⟨groups, hgroups, h⟩ := bind_ok_iff.mp h
    dsimp only at h
    split at h
    · cases h
    obtain ⟨amr, hamr, h⟩ := bind_ok_iff.mp h
    cases h
    obtain ⟨hcount, hbytes, hnames, horder⟩ := readGroups_ok hgroups
    refine ⟨⟨hcanonical, hcount, hbytes, hnames, horder, ?_⟩, ?_⟩
    · intro name hname
      have hmfa : name ≠ "mfa" := by
        rintro rfl
        revert hname
        decide
      rw [SortedMap.get_insert, if_neg hmfa, get_scalarClaims_boundary hname]
    · rw [SortedMap.get_insert, if_pos rfl]
  · rw [if_pos (by simpa using hcanonical)] at h
    cases h

/-! Tokens. -/

section
variable [Wire]

/-- The object in the payload of a token. -/
def jwtClaims (token : String) : Option (List (String × Json)) :=
  match splitChar '.' token with
  | [_, encoded, _] =>
      ((decodeBase64Url encoded).bind Wire.fromSlice).bind Json.asObject
  | _ => none

theorem fromVerifiedJwt_admissible {token : String} {identity : AuthenticatedPrincipalContext}
    (h : AuthenticatedPrincipalContext.fromVerifiedJwt token = .ok identity) :
    identity.Admissible ∧
      identity.trustedClaims.get "mfa" = some (toString (identity.amr.contains "mfa")) := by
  unfold AuthenticatedPrincipalContext.fromVerifiedJwt
    AuthenticatedPrincipalContext.fromVerifiedJwtWithClaims at h
  split at h
  · split at h
    · cases h
    · split at h
      · cases h
      · split at h
        · cases h
        · exact fromClaims_admissible h
  · cases h

variable [Keys]

theorem splitChar_signJwt (hwire : Wire.Standard) (key : JwtSigningKey) (payload : List UInt8) :
    splitChar '.' (signJwt key payload) =
      [jwtHeader, Wire.encodeNoPad payload,
        Wire.encodeNoPad (Keys.rsa key (jwtHeader ++ "." ++ Wire.encodeNoPad payload))] := by
  have hfree : ∀ bytes, '.' ∉ (Wire.encodeNoPad bytes).toList := by
    intro bytes hdot
    rw [hwire.encode] at hdot
    exact Base64Url.isDigit_ne_dot (Base64Url.isDigit_of_mem_encode hdot) rfl
  have hsplit := splitChar_intercalate '.' [jwtHeader, Wire.encodeNoPad payload,
    Wire.encodeNoPad (Keys.rsa key (jwtHeader ++ "." ++ Wire.encodeNoPad payload))] (by simp) (by
      intro piece hpiece
      simp only [List.mem_cons, List.not_mem_nil, or_false] at hpiece
      obtain rfl | rfl | rfl := hpiece
      · decide
      · exact hfree _
      · exact hfree _)
  have hjoin : (String.singleton '.').intercalate [jwtHeader, Wire.encodeNoPad payload,
      Wire.encodeNoPad (Keys.rsa key (jwtHeader ++ "." ++ Wire.encodeNoPad payload))] =
      signJwt key payload := rfl
  rwa [hjoin] at hsplit

variable {key : JwtSigningKey} {payload : List UInt8} {object : List (String × Json)}

theorem jwtClaims_signJwt (hwire : Wire.Standard)
    (hread : Wire.fromSlice payload = some (.object object)) :
    jwtClaims (signJwt key payload) = some object := by
  have hdecode : decodeBase64Url (Wire.encodeNoPad payload) = some payload := by
    rw [decodeBase64Url, hwire.encode, hwire.decode, Base64Url.decode_encode, Option.some_or]
  rw [jwtClaims, splitChar_signJwt hwire]
  simp only [hdecode, Option.bind_some, hread, Json.asObject]

/-- A signed object is read as it was written. -/
theorem fromVerifiedJwtWithClaims_signJwt (hwire : Wire.Standard) (hne : payload ≠ [])
    (hread : Wire.fromSlice payload = some (.object object))
    (principalIdClaim kindClaim groupsClaim : String) :
    AuthenticatedPrincipalContext.fromVerifiedJwtWithClaims (signJwt key payload) principalIdClaim
        kindClaim groupsClaim =
      AuthenticatedPrincipalContext.fromClaims object principalIdClaim kindClaim groupsClaim := by
  have hencoded : Wire.encodeNoPad payload ≠ "" := by
    rw [hwire.encode]
    exact Base64Url.encode_ne_empty hne
  have hdecode : decodeBase64Url (Wire.encodeNoPad payload) = some payload := by
    rw [decodeBase64Url, hwire.encode, hwire.decode, Base64Url.decode_encode, Option.some_or]
  rw [AuthenticatedPrincipalContext.fromVerifiedJwtWithClaims, splitChar_signJwt hwire]
  simp only [if_neg hencoded, hdecode, hread, Option.bind_some, Json.asObject]

/-- A signed object that writes an identity, read back. -/
theorem fromVerifiedJwt_signJwt (hwire : Wire.Standard) (hne : payload ≠ [])
    (hread : Wire.fromSlice payload = some (.object object)) :
    AuthenticatedPrincipalContext.fromVerifiedJwt (signJwt key payload) =
      AuthenticatedPrincipalContext.fromClaims object "principal_id" "principal_kind"
        "authguard_group_ids" :=
  fromVerifiedJwtWithClaims_signJwt hwire hne hread _ _ _

end

/-! The crates on a few documents. -/

namespace Documents

def ascii (text : String) : List UInt8 := text.toList.map fun c => c.toNat.toUInt8

def quoted (text : String) : String := "\"" ++ text ++ "\""

theorem utf8ByteSize_replicate (n : Nat) :
    (String.ofList (List.replicate n 'x')).utf8ByteSize = n := by
  rw [String.utf8ByteSize_ofList]
  induction n with
  | zero => rfl
  | succ n ih =>
      rw [List.replicate_succ, String.utf8Len_cons, ih]
      rfl

/-- Texts without characters to escape, and arrays of them. -/
def printValue : Json → String
  | .bool value => toString value
  | .number value => value.text
  | .string value => quoted value
  | .array items => "[" ++ ",".intercalate (items.map fun item =>
      quoted (item.toStr.getD "")) ++ "]"
  | _ => "null"

def print (fields : List (String × Json)) : String :=
  "\x7b" ++ ",".intercalate (fields.map fun field => quoted field.1 ++ ":" ++ printValue field.2) ++
    "\x7d"

theorem mem_intersperse {α : Type} {separator x : α} {xs : List α} (h : x ∈ xs) :
    x ∈ xs.intersperse separator := by
  fun_induction List.intersperse separator xs with
  | case1 => exact h
  | case2 y => exact h
  | case3 y z zs ih =>
      rw [List.mem_cons, List.mem_cons]
      exact (List.mem_cons.mp h).imp_right fun hrest => .inr (ih hrest)

theorem length_le_intercalate {separator text : String} {texts : List String} (h : text ∈ texts) :
    text.length ≤ (separator.intercalate texts).length := by
  rw [← String.length_toList, ← String.length_toList, String.toList_intercalate]
  exact (List.sublist_flatten_of_mem (mem_intersperse (List.mem_map_of_mem h))).length_le

theorem length_le_printValue {items : List Json} {text : String} (h : .string text ∈ items) :
    text.length ≤ (printValue (.array items)).length := by
  have hquoted : quoted text ∈ items.map fun item => quoted (item.toStr.getD "") :=
    List.mem_map.mpr ⟨.string text, h, rfl⟩
  have hlength := @length_le_intercalate "," _ _ hquoted
  simp only [printValue, quoted, String.length_append] at hlength ⊢
  omega

/-- A document is at least as long as its values. -/
theorem length_le_print {fields : List (String × Json)} {name : String} {value : Json}
    (h : (name, value) ∈ fields) : (printValue value).length ≤ (ascii (print fields)).length := by
  have hfield : quoted name ++ ":" ++ printValue value ∈
      fields.map fun field => quoted field.1 ++ ":" ++ printValue field.2 :=
    List.mem_map.mpr ⟨(name, value), h, rfl⟩
  have hlength := @length_le_intercalate "," _ _ hfield
  rw [ascii, List.length_map, String.length_toList]
  simp only [print, String.length_append] at hlength ⊢
  omega

theorem length_intercalate_le (texts : List String) :
    (",".intercalate texts).length ≤ (texts.map fun text => text.length + 1).sum := by
  induction texts with
  | nil => simp
  | cons text texts ih =>
      cases texts with
      | nil => simp
      | cons next texts =>
          have hcomma : ",".length = 1 := rfl
          rw [String.intercalate_cons_cons, String.length_append, String.length_append,
            List.map_cons, List.sum_cons]
          omega

/-- A document is at most as long as its names and values with the marks around them. -/
theorem length_print_le (fields : List (String × Json)) :
    (ascii (print fields)).length ≤
      2 + (fields.map fun field => field.1.length + (printValue field.2).length + 4).sum := by
  have hfields := length_intercalate_le
    (fields.map fun field => quoted field.1 ++ ":" ++ printValue field.2)
  have hmarks : "\"".length = 1 ∧ ":".length = 1 ∧ "\x7b".length = 1 ∧ "\x7d".length = 1 := by
    decide
  have hsum : (fields.map ((fun text => text.length + 1) ∘ fun field =>
      quoted field.1 ++ ":" ++ printValue field.2)).sum =
      (fields.map fun field => field.1.length + (printValue field.2).length + 4).sum := by
    congr 2
    funext field
    simp only [Function.comp_apply, quoted, String.length_append, hmarks]
    omega
  rw [List.map_map, hsum] at hfields
  rw [ascii, List.length_map, String.length_toList, print, String.length_append,
    String.length_append, hmarks.2.2.1, hmarks.2.2.2]
  omega

/-- `serde_json` answers on the given documents only. -/
@[reducible]
def wire (documents : List (List (String × Json))) : Wire where
  headerName := HttpHeader.name
  headerValue := HttpHeader.isValue
  isText := HttpHeader.isText
  decodeNoPad := Base64Url.decode
  decodePadded _ := none
  encodeNoPad := Base64Url.encode
  fromSlice bytes := (documents.find? fun fields => ascii (print fields) == bytes).map .object
  toVec json := match json with
    | .object fields => .ok (ascii (print fields))
    | _ => .error "not an object"

theorem wire_standard (documents : List (List (String × Json))) :
    @Wire.Standard (wire documents) :=
  @Wire.Standard.mk (wire documents) (fun _ => rfl) (fun _ => rfl) (fun _ => rfl) (fun _ => rfl)
    fun _ => rfl

theorem ascii_print_ne_nil (fields : List (String × Json)) : ascii (print fields) ≠ [] := by
  simp [ascii, print]

theorem wire_fromSlice (documents : List (List (String × Json))) (bytes : List UInt8) :
    @Wire.fromSlice (wire documents) bytes =
      (documents.find? fun fields => ascii (print fields) == bytes).map .object :=
  rfl

theorem wire_fromSlice_first (fields : List (String × Json))
    (documents : List (List (String × Json))) :
    @Wire.fromSlice (wire (fields :: documents)) (ascii (print fields)) =
      some (.object fields) := by
  simp [wire_fromSlice]

theorem wire_keepsObject {documents : List (List (String × Json))} {fields : List (String × Json)}
    (h : documents.find? (fun other => ascii (print other) == ascii (print fields)) =
      some fields) : @Wire.KeepsObject (wire documents) fields :=
  ⟨ascii (print fields), fields, rfl, ascii_print_ne_nil fields,
    by rw [wire_fromSlice, h, Option.map_some], .refl fields⟩

end Documents

end Authguard
