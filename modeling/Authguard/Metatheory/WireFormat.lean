import Authguard.Library.Base64Url
import Authguard.Library.HttpHeader
import Authguard.Authz.Check

/-!
The crates behind the wire format: which header names and values the `http`
crate accepts, and the Base64URL engine of the `base64` crate. Of `serde_json` it
is only assumed, where it matters, that an object survives being written and read
back, up to the order of its fields.
-/

namespace Authguard
open Text

section
variable [Wire]

structure Wire.Standard : Prop where
  headerName : ∀ text, Wire.headerName text = HttpHeader.name text
  headerValue : ∀ text, Wire.headerValue text = HttpHeader.isValue text
  isText : ∀ text, Wire.isText text = HttpHeader.isText text
  encode : ∀ bytes, Wire.encodeNoPad bytes = Base64Url.encode bytes
  decode : ∀ text, Wire.decodeNoPad text = Base64Url.decode text

/-- Writing the object and reading it back keeps its fields. -/
def Wire.KeepsObject (fields : List (String × Json)) : Prop :=
  ∃ bytes read, Wire.toVec (.object fields) = .ok bytes ∧ bytes ≠ [] ∧
    Wire.fromSlice bytes = some (.object read) ∧ read.Perm fields

/-! Header maps. -/

omit [Wire] in
theorem lookup_headerInsert (name value other : String) (headers : HeaderMap) :
    (HeaderMap.insert name value headers).lookup other =
      if other = name then some value else headers.lookup other := by
  induction headers with
  | nil => exact SortedMap.lookup_cons_ite (name, value) [] other
  | cons first rest ih =>
      simp only [HeaderMap.insert]
      split
      · rename_i hname
        rw [SortedMap.lookup_cons_ite, SortedMap.lookup_cons_ite, hname]
        by_cases h : other = name
        · simp [h]
        · simp [h]
      · rename_i hname
        rw [SortedMap.lookup_cons_ite, SortedMap.lookup_cons_ite, ih]
        by_cases h : other = name
        · simp [h, Ne.symm hname]
        · simp [h]

/-- The last acceptable value of a name wins. -/
theorem lookup_headerMap (headers : List (String × String)) (normal : String) :
    (headerMap headers).lookup normal =
      (((headers.filter fun entry => Wire.headerName entry.1 = some normal).map (·.2)).filter
        Wire.headerValue).getLast? := by
  induction headers using List.reverseRecOn with
  | nil => rfl
  | append_singleton headers last ih =>
      rw [headerMap, List.foldl_append, List.foldl_cons, List.foldl_nil, ← headerMap,
        List.filter_append, List.map_append, List.filter_append]
      cases hname : Wire.headerName last.1 with
      | none => simp [hname, ih]
      | some name =>
          cases hvalue : Wire.headerValue last.2 with
          | false =>
              by_cases hsame : name = normal
              · simp [hname, hvalue, hsame, ih]
              · simp [hname, hsame, ih]
          | true =>
              by_cases hsame : name = normal
              · simp [hname, hvalue, hsame, lookup_headerInsert]
              · simp [hname, hsame, lookup_headerInsert, Ne.symm hsame, ih]

theorem headerMap_get (hwire : Wire.Standard) (headers : List (String × String))
    (name : String) :
    (headerMap headers).get name =
      if (HttpHeader.name name).isSome then
        ((HttpHeader.values headers name).filter HttpHeader.isValue).getLast?
      else none := by
  rw [HeaderMap.get, hwire.headerName]
  cases hname : HttpHeader.name name with
  | none => rfl
  | some normal =>
      obtain ⟨rfl, hvalid⟩ := HttpHeader.name_eq_some.mp hname
      simp only [Option.bind_some, Option.isSome_some, if_true, lookup_headerMap, funext hwire.headerValue]
      congr 3
      apply List.filter_congr
      intro entry _
      rw [Bool.eq_iff_iff, decide_eq_true_eq, hwire.headerName, HttpHeader.name_eq_some,
        HttpHeader.eqIgnoreAsciiCase_iff]
      exact and_iff_left hvalid

/-- A header all of whose values are text reads as the last of them. -/
theorem headerMap_text (hwire : Wire.Standard) {headers : List (String × String)}
    {name : String} (hname : (HttpHeader.name name).isSome = true) :
    (headerMap headers).text name =
      (((HttpHeader.values headers name).filter HttpHeader.isValue).getLast?).filter
        HttpHeader.isText := by
  rw [HeaderMap.text, headerMap_get hwire, if_pos hname, funext hwire.isText]

/-! Tokens. -/

/-- Base64URL digits and dots. -/
def IsCompact (text : String) : Prop :=
  ∀ c ∈ text.toList, Base64Url.isDigit c = true ∨ c = '.'

omit [Wire] in
theorem IsCompact.append {first second : String} (h : IsCompact first) (h' : IsCompact second) :
    IsCompact (first ++ second) := by
  intro c hc
  rw [String.toList_append, List.mem_append] at hc
  exact hc.elim (h c) (h' c)

omit [Wire] in
theorem isCompact_dot : IsCompact "." := by
  intro c hc
  rw [show ".".toList = ['.'] from rfl, List.mem_singleton] at hc
  exact .inr hc

theorem isCompact_encode (hwire : Wire.Standard) (bytes : List UInt8) :
    IsCompact (Wire.encodeNoPad bytes) := by
  intro c hc
  rw [hwire.encode] at hc
  exact .inl (Base64Url.isDigit_of_mem_encode hc)

omit [Wire] in
theorem isCompact_jwtHeader : IsCompact jwtHeader := by
  have hdigits : jwtHeader.toList.all Base64Url.isDigit = true := by decide
  intro c hc
  exact .inl (List.all_eq_true.mp hdigits c hc)

omit [Wire] in
theorem IsCompact.bounds {text : String} (h : IsCompact text) {c : Char} (hc : c ∈ text.toList) :
    45 ≤ c.toNat ∧ c.toNat ≤ 122 := by
  obtain hdigit | rfl := h c hc
  · exact Base64Url.isDigit_bounds hdigit
  · decide

omit [Wire] in
theorem IsCompact.isText {text : String} (h : IsCompact text) :
    HttpHeader.isText text = true := by
  simp only [HttpHeader.isText, List.all_eq_true, Bool.or_eq_true, Bool.and_eq_true,
    decide_eq_true_eq]
  intro c hc
  have hbounds := h.bounds hc
  exact .inl ⟨by omega, by omega⟩

omit [Wire] in
theorem IsCompact.trim_eq {text : String} (h : IsCompact text) : trim text = text := by
  apply trim_eq_self
  intro c hc
  have hbounds := h.bounds hc
  rw [Bool.eq_false_iff]
  intro hspace
  simp only [isWhitespace, Bool.or_eq_true, Bool.and_eq_true, decide_eq_true_eq, beq_iff_eq]
    at hspace
  omega

variable [Keys]

theorem isCompact_signJwt (hwire : Wire.Standard) (key : JwtSigningKey) (payload : List UInt8) :
    IsCompact (signJwt key payload) :=
  (((isCompact_jwtHeader.append isCompact_dot).append (isCompact_encode hwire payload)).append
    isCompact_dot).append (isCompact_encode hwire _)

theorem signJwt_ne_empty (key : JwtSigningKey) (payload : List UInt8) :
    signJwt key payload ≠ "" := by
  intro h
  have hlength := congrArg (fun text => text.toList.length) h
  simp [signJwt] at hlength

omit [Wire] [Keys] in
theorem bearerValue_bearer {token : String} (hcompact : IsCompact token) (hne : token ≠ "") :
    bearerValue ("Bearer " ++ token) = some token := by
  have hsplit : splitOnce ' ' ("Bearer " ++ token) = some ("Bearer", token) :=
    @splitOnce_append ' ' "Bearer" token (by decide)
  have hscheme : eqIgnoreAsciiCase "Bearer" "bearer" = true := by decide
  simp [bearerValue, hsplit, hscheme, hcompact.trim_eq, hne]

end

end Authguard
