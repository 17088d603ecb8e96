import Authguard.Library.Text

/-!
Web addresses as the URL standard reads them, for the scheme `https`: tabs and
line breaks are dropped, a backslash is a slash, and the dot segments of the path
are removed. The host parser, the percent-encoding and the other schemes are taken
from outside. What is written for a path is read as that path again, unless it
begins with two slashes.
-/

namespace Authguard

structure Url where
  scheme : String
  username : String
  password : Option String
  host : Option String
  port : Option Nat
  path : String
  query : Option String
  fragment : Option String
  deriving DecidableEq

inductive UrlComponent
  | userinfo
  | path
  | query
  | fragment

class UrlParts where
  /-- The host parser on the host of a special address, with its serialization. -/
  host : List Char → Option String
  encode : UrlComponent → Char → List Char
  /-- Addresses of every other scheme. -/
  other : String → Option Url

namespace Url
open Text

/-! Characters. -/

def isSlash (c : Char) : Bool := c = '/' || c = '\\'

/-- A C0 control or a space. -/
def isTrimmed (c : Char) : Bool := c.toNat ≤ 0x20

/-- A tab or a line break. -/
def isDropped (c : Char) : Bool := c = '\t' || c = '\n' || c = '\r'

def isDelimiter (c : Char) : Bool := isSlash c || c = '?' || c = '#'

/-- Printable ASCII without the space. -/
def isPlain (c : Char) : Bool := 0x21 ≤ c.toNat && c.toNat ≤ 0x7E

/-- The text the parser runs on. -/
def prepare (text : String) : List Char :=
  ((text.toList.dropWhile isTrimmed).rdropWhile isTrimmed).filter fun c => !isDropped c

/-- What stands before and behind the first `c`. -/
def cut (c : Char) (cs : List Char) : List Char × Option (List Char) :=
  match cs.dropWhile (· ≠ c) with
  | [] => (cs, none)
  | _ :: rest => (cs.takeWhile (· ≠ c), some rest)

/-! Paths. -/

def slash (c : Char) : Char := if c = '\\' then '/' else c

def dropSlash : List Char → List Char
  | [] => []
  | c :: cs => if c = '/' then cs else c :: cs

def segments (path : List Char) : List (List Char) := (dropSlash (path.map slash)).splitOn '/'

def isSingleDot (segment : List Char) : Bool :=
  String.ofList (segment.map Char.toLower) ∈ [".", "%2e"]

def isDoubleDot (segment : List Char) : Bool :=
  String.ofList (segment.map Char.toLower) ∈ ["..", ".%2e", "%2e.", "%2e%2e"]

/-- The path state: the segments read so far, and those to come. -/
def resolveSegments (done : List (List Char)) : List (List Char) → List (List Char)
  | [] => done
  | segment :: rest =>
      let last := if rest.isEmpty then [[]] else []
      if isDoubleDot segment then resolveSegments (done.dropLast ++ last) rest
      else if isSingleDot segment then resolveSegments (done ++ last) rest
      else resolveSegments (done ++ [segment]) rest

def normalPath [UrlParts] (path : List Char) : List (List Char) :=
  resolveSegments [] ((segments path).map fun segment => segment.flatMap (UrlParts.encode .path))

def renderPath (segments : List (List Char)) : String :=
  String.ofList ('/' :: ['/'].intercalate segments)

/-! Authorities. -/

/-- A colon outside brackets. -/
def splitPort (inside : Bool) : List Char → List Char × Option (List Char)
  | [] => ([], none)
  | c :: cs =>
      if c = ':' ∧ !inside then
        ([], some cs)
      else
        let inside := if c = '[' then true else if c = ']' then false else inside
        let (host, port) := splitPort inside cs
        (c :: host, port)

def digitsValue (digits : List Char) : Nat := digits.foldl (fun n c => n * 10 + (c.toNat - 48)) 0

/-- The port; none where it is left out or the default one. -/
def parsePort (port : List Char) : Option (Option Nat) :=
  if !port.all Char.isDigit then none
  else if port = [] then some none
  else if 65535 < digitsValue port then none
  else if digitsValue port = 443 then some none
  else some (some (digitsValue port))

/-- The text before the last `@`, and what follows it. -/
def splitUserinfo (authority : List Char) : List Char × List Char :=
  match cut '@' authority.reverse with
  | (_, none) => ([], authority)
  | (host, some userinfo) => (userinfo.reverse, host.reverse)

def parseAuthority [UrlParts] (authority : List Char) : Option Url := do
  let (userinfo, hostPort) := splitUserinfo authority
  let (username, password) := cut ':' userinfo
  let (host, port) := splitPort false hostPort
  if host = [] then
    none
  else do
    let host ← UrlParts.host host
    let port ← parsePort (port.getD [])
    let encode := fun cs : List Char => String.ofList (cs.flatMap (UrlParts.encode .userinfo))
    some
      { scheme := "https"
        username := encode username
        password := (password.filter (· ≠ [])).map encode
        host := some host
        port
        path := "/"
        query := none
        fragment := none }

/-! Addresses. -/

def isSchemeChar (c : Char) : Bool := c.isAlphanum || c = '+' || c = '-' || c = '.'

/-- The scheme in lower case, and what follows its colon. -/
def splitScheme (cs : List Char) : Option (String × List Char) :=
  match cs.takeWhile isSchemeChar, cs.dropWhile isSchemeChar with
  | first :: name, ':' :: rest =>
      if first.isAlpha then some (String.ofList ((first :: name).map Char.toLower), rest) else none
  | _, _ => none

/-- The address with the path, query and fragment. -/
def withTail [UrlParts] (url : Url) (cs : List Char) : Url :=
  let (cs, fragment) := cut '#' cs
  let (path, query) := cut '?' cs
  { url with
    path := renderPath (normalPath path)
    query := query.map fun cs => String.ofList (cs.flatMap (UrlParts.encode .query))
    fragment := fragment.map fun cs => String.ofList (cs.flatMap (UrlParts.encode .fragment)) }

/-- What follows the scheme `https`, and a reference that begins with two slashes. -/
def parseHttps [UrlParts] (cs : List Char) : Option Url := do
  let cs := cs.dropWhile isSlash
  let url ← parseAuthority (cs.takeWhile fun c => !isDelimiter c)
  some (url.withTail (cs.dropWhile fun c => !isDelimiter c))

def parse [UrlParts] (text : String) : Option Url :=
  match splitScheme (prepare text) with
  | none => none
  | some (scheme, rest) => if scheme = "https" then parseHttps rest else UrlParts.other text

/-- A reference that begins with a slash, read against an address. -/
def resolveRooted [UrlParts] (base : Url) (text : String) : Option Url :=
  match prepare text with
  | first :: rest =>
      if !isSlash first then none
      else if rest.head?.any isSlash then parseHttps rest
      else some (base.withTail (first :: rest))
  | [] => none

/-- The path an address names, as it is written, or a reference that begins with a slash. -/
def pathText (text : String) : List Char :=
  let cs := prepare text
  let tail :=
    if cs.head?.any isSlash then cs
    else
      match splitScheme cs with
      | none => []
      | some (_, rest) => (rest.dropWhile isSlash).dropWhile fun c => !isDelimiter c
  (cut '?' (cut '#' tail).1).1

end Url

/-- What is relied on of the standard's other parts: an encoded character stays as it is, and
so does a serialized host. -/
structure UrlParts.Standard [UrlParts] : Prop where
  encoded : ∀ component c, ∀ d ∈ encode component c, encode component d = [d]
  plain : ∀ component c, ∀ d ∈ encode component c, Url.isPlain d
  delimiter : ∀ component c, ∀ d ∈ encode component c, Url.isDelimiter d → d = c
  host_again : ∀ text serialized, host text = some serialized →
    host serialized.toList = some serialized
  host_lower : ∀ text serialized, host text = some serialized →
    String.ofList (serialized.toList.map Char.toLower) = serialized
  host_filled : ∀ text serialized, host text = some serialized → serialized.toList ≠ []
  host_plain : ∀ text serialized, host text = some serialized → ∀ c ∈ serialized.toList,
    Url.isPlain c && !Url.isDelimiter c && c ≠ '@'
  host_port : ∀ text serialized, host text = some serialized →
    Url.splitPort false serialized.toList = (serialized.toList, none)
  other_scheme : ∀ text url, other text = some url → url.scheme ≠ "https"

namespace Url

/-! Cutting. -/

theorem cut_of_not_mem {c : Char} {cs : List Char} (h : c ∉ cs) : cut c cs = (cs, none) := by
  have hdrop : cs.dropWhile (· ≠ c) = [] := by
    rw [List.dropWhile_eq_nil_iff]
    intro d hd
    exact decide_eq_true fun heq => h (heq ▸ hd)
  rw [cut, hdrop]

theorem cut_append {c : Char} {before : List Char} (h : c ∉ before) (tail : List Char) :
    cut c (before ++ tail) = (before ++ (cut c tail).1, (cut c tail).2) := by
  have hbefore : ∀ d ∈ before, decide (d ≠ c) = true := fun d hd =>
    decide_eq_true fun heq => h (heq ▸ hd)
  rw [cut, cut, List.dropWhile_append_of_pos hbefore, List.takeWhile_append_of_pos hbefore]
  cases tail.dropWhile (· ≠ c) with
  | nil | cons d rest => rfl

theorem cut_cons_self (c : Char) (tail : List Char) : cut c (c :: tail) = ([], some tail) := by
  simp [cut]

theorem not_mem_cut (c : Char) (cs : List Char) : c ∉ (cut c cs).1 := by
  rw [cut]
  split
  · rename_i hdrop
    intro hmem
    simpa using List.dropWhile_eq_nil_iff.mp hdrop c hmem
  · intro hmem
    simpa using List.mem_takeWhile_imp hmem

theorem mem_of_mem_cut {c d : Char} {cs : List Char} (h : d ∈ (cut c cs).1) : d ∈ cs := by
  rw [cut] at h
  split at h
  · exact h
  · exact (List.takeWhile_prefix _).subset h

/-! Preparation. -/

theorem not_trimmed_of_plain {c : Char} (h : isPlain c = true) : isTrimmed c = false := by
  simp only [isPlain, Bool.and_eq_true, decide_eq_true_eq] at h
  simp only [isTrimmed, decide_eq_false_iff_not]
  omega

theorem not_dropped_of_plain {c : Char} (h : isPlain c = true) : isDropped c = false := by
  have htrimmed := not_trimmed_of_plain h
  rw [Bool.eq_false_iff]
  intro hdropped
  simp only [isDropped, Bool.or_eq_true, decide_eq_true_eq] at hdropped
  obtain (rfl | rfl) | rfl := hdropped
  · cases htrimmed
  · cases htrimmed
  · cases htrimmed

/-- What preparation leaves of a text behind a plain one. -/
def prepareTail (cs : List Char) : List Char :=
  (cs.rdropWhile isTrimmed).filter fun c => !isDropped c

theorem rdropWhile_append {p : Char → Bool} {before : List Char}
    (h : ∀ c ∈ before, p c = false) (tail : List Char) :
    (before ++ tail).rdropWhile p = before ++ tail.rdropWhile p := by
  induction tail using List.reverseRecOn with
  | nil =>
      rw [List.append_nil, List.rdropWhile_nil, List.append_nil, List.rdropWhile_eq_self_iff]
      intro hl
      rw [h _ (List.getLast_mem hl)]
      exact Bool.false_ne_true
  | append_singleton tail last ih =>
      rw [← List.append_assoc, List.rdropWhile_concat, List.rdropWhile_concat, ih]
      split
      · rfl
      · rw [List.append_assoc]

theorem prepare_append {before : List Char} (hne : before ≠ []) (h : ∀ c ∈ before, isPlain c)
    (tail : List Char) :
    prepare (String.ofList (before ++ tail)) = before ++ prepareTail tail := by
  obtain ⟨first, rest, rfl⟩ := List.exists_cons_of_ne_nil hne
  have hdrop : (first :: rest ++ tail).dropWhile isTrimmed = first :: rest ++ tail := by
    rw [List.cons_append, List.dropWhile_cons_of_neg]
    rw [not_trimmed_of_plain (h first List.mem_cons_self)]
    exact Bool.false_ne_true
  rw [prepare, String.toList_ofList, hdrop,
    rdropWhile_append fun c hc => not_trimmed_of_plain (h c hc), List.filter_append,
    List.filter_eq_self.mpr fun c hc => by rw [not_dropped_of_plain (h c hc)]; rfl]
  rfl

/-! Segments. -/

theorem slash_eq_self {c : Char} (h : c ≠ '\\') : slash c = c := if_neg h

theorem mem_dropSlash {c : Char} {cs : List Char} (h : c ∈ dropSlash cs) : c ∈ cs := by
  cases cs with
  | nil => exact h
  | cons first rest =>
      rw [dropSlash] at h
      split at h
      · exact List.mem_cons_of_mem _ h
      · exact h

theorem mem_segment {path segment : List Char} (h : segment ∈ segments path) {c : Char}
    (hc : c ∈ segment) : c ∈ path ∧ isSlash c = false := by
  have hne : c ≠ '/' := fun heq => Pieces.piece_free '/' h (heq ▸ hc)
  have hmem := ((Pieces.mem_piece_iff '/').mp ⟨segment, h, hc⟩).1
  obtain ⟨d, hd, rfl⟩ := List.mem_map.mp (mem_dropSlash hmem)
  have hback : d ≠ '\\' := fun heq => hne (by rw [heq]; rfl)
  rw [slash_eq_self hback] at hne ⊢
  exact ⟨hd, by simp [isSlash, hne, hback]⟩

/-- What is kept of a path. -/
theorem resolveSegments_all {P : List Char → Prop} (hempty : P []) {done rest : List (List Char)}
    (hdone : ∀ segment ∈ done, P segment)
    (hrest : ∀ segment ∈ rest, isDoubleDot segment = false → isSingleDot segment = false →
      P segment) : ∀ segment ∈ resolveSegments done rest, P segment := by
  induction rest generalizing done with
  | nil => exact hdone
  | cons first rest ih =>
      have hlast : ∀ segment ∈ (if rest.isEmpty then [[]] else []), P segment := by
        intro segment hsegment
        split at hsegment
        · rwa [List.mem_singleton.mp hsegment]
        · cases hsegment
      have hothers := fun segment hsegment => hrest segment (List.mem_cons_of_mem _ hsegment)
      rw [resolveSegments]
      split
      · have hshorter : ∀ segment ∈ done.dropLast, P segment := fun segment hsegment =>
          hdone segment (List.mem_of_mem_dropLast hsegment)
        exact ih (List.forall_mem_append.mpr ⟨hshorter, hlast⟩) hothers
      · split
        · exact ih (List.forall_mem_append.mpr ⟨hdone, hlast⟩) hothers
        · rename_i hdouble hsingle
          refine ih (List.forall_mem_append.mpr ⟨hdone, ?_⟩) hothers
          rw [List.forall_mem_singleton]
          exact hrest first List.mem_cons_self (Bool.eq_false_iff.mpr hdouble)
            (Bool.eq_false_iff.mpr hsingle)

theorem resolveSegments_ne_nil {rest : List (List Char)} (h : rest ≠ [])
    (done : List (List Char)) : resolveSegments done rest ≠ [] := by
  induction rest generalizing done with
  | nil => exact absurd rfl h
  | cons first rest ih =>
      cases rest with
      | nil =>
          rw [resolveSegments]
          split
          · simp [resolveSegments]
          · split
            · simp [resolveSegments]
            · simp [resolveSegments]
      | cons next rest =>
          have hrest := fun done => ih (List.cons_ne_nil next rest) done
          rw [resolveSegments]
          split
          · exact hrest _
          · split
            · exact hrest _
            · exact hrest _

/-- A path without dot segments stays as it is. -/
theorem resolveSegments_plain {rest : List (List Char)}
    (h : ∀ segment ∈ rest, isDoubleDot segment = false ∧ isSingleDot segment = false)
    (done : List (List Char)) : resolveSegments done rest = done ++ rest := by
  induction rest generalizing done with
  | nil => rw [resolveSegments, List.append_nil]
  | cons first rest ih =>
      obtain ⟨⟨hdouble, hsingle⟩, hrest⟩ := List.forall_mem_cons.mp h
      rw [resolveSegments, hdouble, hsingle, if_neg Bool.false_ne_true,
        if_neg Bool.false_ne_true, ih hrest, List.append_assoc, List.singleton_append]

/-! Normal paths. -/

section
variable [UrlParts]

/-- A segment that is read as it is written. -/
structure NormalSegment (segment : List Char) : Prop where
  kept : ∀ c ∈ segment, UrlParts.encode .path c = [c] ∧ isPlain c ∧ isDelimiter c = false
  notDouble : isDoubleDot segment = false
  notSingle : isSingleDot segment = false

theorem normalSegment_nil : NormalSegment [] := ⟨fun _ h => absurd h List.not_mem_nil, by decide,
  by decide⟩

theorem normalPath_ne_nil (path : List Char) : normalPath path ≠ [] :=
  resolveSegments_ne_nil (by simp [segments]) []

theorem normalPath_normal (hstandard : UrlParts.Standard) {path : List Char}
    (h : ∀ c ∈ path, c ≠ '?' ∧ c ≠ '#') : ∀ segment ∈ normalPath path, NormalSegment segment := by
  refine resolveSegments_all normalSegment_nil (fun _ h => absurd h List.not_mem_nil) ?_
  intro encoded hencoded hdouble hsingle
  obtain ⟨segment, hsegment, rfl⟩ := List.mem_map.mp hencoded
  refine ⟨fun d hd => ?_, hdouble, hsingle⟩
  obtain ⟨c, hc, hd⟩ := List.mem_flatMap.mp hd
  refine ⟨hstandard.encoded .path c d hd, hstandard.plain .path c d hd, ?_⟩
  rw [Bool.eq_false_iff]
  intro hdelimiter
  obtain rfl := hstandard.delimiter .path c d hd hdelimiter
  obtain ⟨hpath, hslash⟩ := mem_segment hsegment hc
  simp [isDelimiter, hslash, h d hpath] at hdelimiter

theorem flatMap_normal {segment : List Char} (h : NormalSegment segment) :
    segment.flatMap (UrlParts.encode .path) = segment := by
  have hkept := fun c hc => (h.kept c hc).1
  clear h
  induction segment with
  | nil => rfl
  | cons c segment ih =>
      obtain ⟨hc, hsegment⟩ := List.forall_mem_cons.mp hkept
      rw [List.flatMap_cons, hc, ih hsegment, List.singleton_append]

omit [UrlParts] in
theorem mem_renderPath {segments : List (List Char)} {c : Char}
    (h : c ∈ (renderPath segments).toList) : c = '/' ∨ ∃ segment ∈ segments, c ∈ segment := by
  rw [renderPath, String.toList_ofList, List.mem_cons] at h
  obtain rfl | h := h
  · exact .inl rfl
  · induction segments with
    | nil => cases h
    | cons segment rest ih =>
        cases rest with
        | nil => exact .inr ⟨segment, List.mem_cons_self, by simpa using h⟩
        | cons next rest =>
            rw [List.intercalate_cons_of_ne_nil (by simp), List.mem_append, List.mem_append] at h
            obtain (h | h) | h := h
            · exact .inr ⟨segment, List.mem_cons_self, h⟩
            · exact .inl (List.mem_singleton.mp h)
            · obtain rfl | ⟨other, hother, hc⟩ := ih h
              · exact .inl rfl
              · exact .inr ⟨other, List.mem_cons_of_mem _ hother, hc⟩

variable {path : List (List Char)} (hnormal : ∀ segment ∈ path, NormalSegment segment)
include hnormal

theorem renderPath_plain {c : Char} (h : c ∈ (renderPath path).toList) :
    isPlain c = true ∧ c ≠ '\\' ∧ c ≠ '?' ∧ c ≠ '#' := by
  obtain rfl | ⟨segment, hsegment, hc⟩ := mem_renderPath h
  · decide
  · obtain ⟨-, hplain, hdelimiter⟩ := (hnormal segment hsegment).kept c hc
    simp only [isDelimiter, isSlash, Bool.or_eq_false_iff, decide_eq_false_iff_not] at hdelimiter
    exact ⟨hplain, hdelimiter.1.1.2, hdelimiter.1.2, hdelimiter.2⟩

/-- What is written for a path is read as that path. -/
theorem normalPath_renderPath (hne : path ≠ []) : normalPath (renderPath path).toList = path := by
  have hslash : (renderPath path).toList.map slash = (renderPath path).toList := by
    refine (List.map_congr_left fun c hc => ?_).trans (List.map_id _)
    exact slash_eq_self (renderPath_plain hnormal hc).2.1
  have hsegments : segments (renderPath path).toList = path := by
    rw [segments, hslash, renderPath, String.toList_ofList, dropSlash, if_pos rfl]
    refine List.splitOn_intercalate '/' (fun segment hsegment hmem => ?_) hne
    have hdelimiter := ((hnormal segment hsegment).kept '/' hmem).2.2
    cases hdelimiter
  have hencoded : path.map (fun segment => segment.flatMap (UrlParts.encode .path)) = path :=
    (List.map_congr_left fun segment hsegment => flatMap_normal (hnormal segment hsegment)).trans
      (List.map_id _)
  rw [normalPath, hsegments, hencoded, resolveSegments_plain, List.nil_append]
  exact fun segment hsegment =>
    ⟨(hnormal segment hsegment).notDouble, (hnormal segment hsegment).notSingle⟩

end

/-- The path begins with an empty segment before another one. -/
def BeginsEmpty (path : List (List Char)) : Prop := ∃ next more, path = [] :: next :: more

section
variable [UrlParts] {path : List (List Char)}

/-- Such a path is written with two slashes, and no other. -/
theorem second_slash_iff (hnormal : ∀ segment ∈ path, NormalSegment segment)
    {tail : List Char} (htail : tail.head?.any isSlash = false) :
    ((['/'].intercalate path) ++ tail).head?.any isSlash = true ↔ BeginsEmpty path := by
  rcases path with _ | ⟨first, _ | ⟨next, more⟩⟩
  · refine iff_of_false ?_ fun ⟨_, _, h⟩ => nomatch h
    simp [htail]
  · refine iff_of_false ?_ fun ⟨_, _, h⟩ => nomatch h
    rw [List.intercalate_singleton]
    cases first with
    | nil => simp [htail]
    | cons c first =>
        have hdelimiter := ((hnormal _ List.mem_cons_self).kept c List.mem_cons_self).2.2
        simp only [isDelimiter, Bool.or_eq_false_iff] at hdelimiter
        simp [hdelimiter.1.1]
  · rw [List.intercalate_cons_of_ne_nil (by simp)]
    cases first with
    | nil => exact iff_of_true rfl ⟨next, more, rfl⟩
    | cons c first =>
        have hdelimiter := ((hnormal _ List.mem_cons_self).kept c List.mem_cons_self).2.2
        simp only [isDelimiter, Bool.or_eq_false_iff] at hdelimiter
        refine iff_of_false ?_ fun ⟨_, _, h⟩ => nomatch h
        simp [hdelimiter.1.1]

theorem withTail_path (base : Url) (cs : List Char) :
    (base.withTail cs).path = renderPath (normalPath (cut '?' (cut '#' cs).1).1) := rfl

theorem withTail_scheme (base : Url) (cs : List Char) : (base.withTail cs).scheme = base.scheme :=
  rfl

theorem withTail_host (base : Url) (cs : List Char) : (base.withTail cs).host = base.host := rfl

theorem withTail_port (base : Url) (cs : List Char) : (base.withTail cs).port = base.port := rfl

/-- Followed from an address of its own, a written path leads to that path. -/
theorem withTail_renderPath (hnormal : ∀ segment ∈ path, NormalSegment segment) (hne : path ≠ [])
    (base : Url) {tail : List Char} (htail : tail = [] ∨ ∃ query, tail = '?' :: query) :
    (base.withTail ((renderPath path).toList ++ tail)).path = renderPath path := by
  have hhash : '#' ∉ (renderPath path).toList := fun h => (renderPath_plain hnormal h).2.2.2 rfl
  have hquestion : '?' ∉ (renderPath path).toList := fun h =>
    (renderPath_plain hnormal h).2.2.1 rfl
  rw [withTail_path, cut_append hhash, cut_append hquestion]
  obtain rfl | ⟨query, rfl⟩ := htail
  · rw [cut_of_not_mem List.not_mem_nil, cut_of_not_mem List.not_mem_nil, List.append_nil,
      normalPath_renderPath hnormal hne]
  · have hcut : cut '#' ('?' :: query) = ('?' :: (cut '#' query).1, (cut '#' query).2) :=
      cut_append (by decide : '#' ∉ ['?']) query
    rw [hcut, cut_cons_self, List.append_nil, normalPath_renderPath hnormal hne]

omit [UrlParts] in
theorem prepareTail_query (query : List Char) :
    ∃ rest, prepareTail ('?' :: query) = '?' :: rest := by
  refine ⟨prepareTail query, ?_⟩
  have hquestion : ('?' :: query).rdropWhile isTrimmed = '?' :: query.rdropWhile isTrimmed :=
    rdropWhile_append (List.forall_mem_singleton.mpr rfl) query
  have hkept : isDropped '?' = false := rfl
  rw [prepareTail, hquestion, List.filter_cons_of_pos (by rw [hkept]; rfl), prepareTail]

theorem resolveRooted_of_prepare {text : String} {rest : List Char}
    (hprepare : prepare text = '/' :: rest) (h : ¬rest.head?.any isSlash = true) (base : Url) :
    base.resolveRooted text = some (base.withTail ('/' :: rest)) := by
  have hslash : isSlash '/' = true := rfl
  rw [resolveRooted, hprepare]
  simp only [hslash, Bool.not_true, if_neg Bool.false_ne_true, if_neg h]

/-- A browser on an address of the origin follows a written path to that path there, where it
does not take it for another host. -/
theorem resolveRooted_renderPath (hnormal : ∀ segment ∈ path, NormalSegment segment)
    (hne : path ≠ []) (hsingle : ¬BeginsEmpty path) (base : Url) {tail : List Char}
    (htail : tail = [] ∨ ∃ query, tail = '?' :: query) :
    ∃ url, base.resolveRooted (String.ofList ((renderPath path).toList ++ tail)) = some url ∧
      url.path = renderPath path ∧ url.scheme = base.scheme ∧ url.host = base.host ∧
      url.port = base.port := by
  have hplain : ∀ c ∈ (renderPath path).toList, isPlain c = true :=
    fun c hc => (renderPath_plain hnormal hc).1
  have hrooted : ∃ tail', prepare (String.ofList ((renderPath path).toList ++ tail)) =
      '/' :: (['/'].intercalate path ++ tail') ∧
        (tail' = [] ∨ ∃ query, tail' = '?' :: query) := by
    refine ⟨prepareTail tail, ?_, ?_⟩
    · rw [prepare_append (by simp [renderPath]) hplain, renderPath, String.toList_ofList,
        List.cons_append]
    · obtain rfl | ⟨query, rfl⟩ := htail
      · exact .inl rfl
      · exact .inr (prepareTail_query query)
  obtain ⟨tail', hprepare, htail'⟩ := hrooted
  have hhead : tail'.head?.any isSlash = false := by
    obtain rfl | ⟨query, rfl⟩ := htail'
    · rfl
    · rfl
  have hother : ¬((['/'].intercalate path ++ tail').head?.any isSlash = true) := by
    rwa [second_slash_iff hnormal hhead]
  have htext : '/' :: (['/'].intercalate path ++ tail') = (renderPath path).toList ++ tail' := by
    rw [renderPath, String.toList_ofList, List.cons_append]
  have hfollowed := resolveRooted_of_prepare hprepare hother base
  rw [htext] at hfollowed
  exact ⟨_, hfollowed, withTail_renderPath hnormal hne base htail', withTail_scheme _ _,
    withTail_host _ _, withTail_port _ _⟩

/-! Addresses of `https`. -/

/-- An `https` address is its authority with what follows it. -/
theorem parse_https (hstandard : UrlParts.Standard) {text : String} {url : Url}
    (h : parse text = some url) (hscheme : url.scheme = "https") :
    ∃ rest, splitScheme (prepare text) = some ("https", rest) ∧ parseHttps rest = some url := by
  rw [parse] at h
  split at h
  · cases h
  · rename_i scheme rest hsplit
    split at h
    · rename_i heq
      exact ⟨rest, heq ▸ hsplit, h⟩
    · exact absurd hscheme (hstandard.other_scheme text url h)

theorem parseAuthority_some {authority : List Char} {url : Url}
    (h : parseAuthority authority = some url) :
    url.scheme = "https" ∧ ∃ text host, UrlParts.host text = some host ∧ url.host = some host := by
  simp only [parseAuthority] at h
  split at h
  · cases h
  · obtain ⟨host, hhost, h⟩ := Option.bind_eq_some_iff.mp h
    obtain ⟨port, -, h⟩ := Option.bind_eq_some_iff.mp h
    cases h
    exact ⟨rfl, _, host, hhost, rfl⟩

theorem parseHttps_some {rest : List Char} {url : Url} (h : parseHttps rest = some url) :
    ∃ authority, parseAuthority ((rest.dropWhile isSlash).takeWhile fun c => !isDelimiter c) =
        some authority ∧
      url = authority.withTail ((rest.dropWhile isSlash).dropWhile fun c => !isDelimiter c) := by
  obtain ⟨authority, hauthority, h⟩ := Option.bind_eq_some_iff.mp h
  exact ⟨authority, hauthority, (Option.some.inj h).symm⟩

theorem parse_https_host (hstandard : UrlParts.Standard) {text : String} {url : Url}
    (h : parse text = some url) (hscheme : url.scheme = "https") :
    ∃ cs host, UrlParts.host cs = some host ∧ url.host = some host := by
  obtain ⟨rest, -, hrest⟩ := parse_https hstandard h hscheme
  obtain ⟨authority, hauthority, rfl⟩ := parseHttps_some hrest
  rw [withTail_host]
  exact (parseAuthority_some hauthority).2

omit [UrlParts] in
theorem pathText_free {text : String} {c : Char} (h : c ∈ pathText text) : c ≠ '?' ∧ c ≠ '#' := by
  constructor
  · rintro rfl
    exact not_mem_cut '?' _ h
  · rintro rfl
    exact not_mem_cut '#' _ (mem_of_mem_cut h)

omit [UrlParts] in
theorem head_of_splitScheme {cs rest : List Char} {scheme : String}
    (h : splitScheme cs = some (scheme, rest)) : ¬cs.head?.any isSlash = true := by
  rw [splitScheme] at h
  split at h
  · rename_i first name rest' htake hdrop
    cases cs with
    | nil => cases htake
    | cons c cs =>
        rw [List.takeWhile_cons] at htake
        split at htake
        · rename_i hscheme
          intro hslash
          simp only [List.head?_cons, Option.any_some, isSlash, Bool.or_eq_true,
            decide_eq_true_eq] at hslash
          obtain rfl | rfl := hslash
          · exact absurd hscheme (by decide)
          · exact absurd hscheme (by decide)
        · cases htake
  · cases h

/-- The path of an `https` address. -/
theorem parse_https_path (hstandard : UrlParts.Standard) {text : String} {url : Url}
    (h : parse text = some url) (hscheme : url.scheme = "https") :
    url.path = renderPath (normalPath (pathText text)) := by
  obtain ⟨rest, hsplit, hrest⟩ := parse_https hstandard h hscheme
  obtain ⟨authority, -, rfl⟩ := parseHttps_some hrest
  rw [withTail_path, pathText, if_neg (head_of_splitScheme hsplit), hsplit]

/-! A reference behind the serialized host. -/

def httpsPrefix : List Char := ['h', 't', 't', 'p', 's', ':', '/', '/']

omit [UrlParts] in
theorem splitScheme_https (rest : List Char) :
    splitScheme (httpsPrefix ++ rest) = some ("https", '/' :: '/' :: rest) := rfl

omit [UrlParts] in
theorem prepare_rooted {reference : String} {rest : List Char}
    (hreference : reference.toList = '/' :: rest) :
    prepare reference = '/' :: prepareTail rest ∧
      prepareTail reference.toList = '/' :: prepareTail rest := by
  have hslash : ('/' :: rest).rdropWhile isTrimmed = '/' :: rest.rdropWhile isTrimmed :=
    rdropWhile_append (List.forall_mem_singleton.mpr rfl) rest
  have htail : prepareTail ('/' :: rest) = '/' :: prepareTail rest := by
    have hkept : isDropped '/' = false := rfl
    rw [prepareTail, hslash, List.filter_cons_of_pos (by rw [hkept]; rfl), prepareTail]
  have hprepare : prepare (String.ofList (['/'] ++ rest)) = ['/'] ++ prepareTail rest :=
    prepare_append (List.cons_ne_nil _ _) (List.forall_mem_singleton.mpr rfl) rest
  constructor
  · have htext : reference = String.ofList ('/' :: rest) := by
      rw [← hreference, String.ofList_toList]
    rw [htext]
    exact hprepare
  · rw [hreference, htail]

theorem parseAuthority_host (hstandard : UrlParts.Standard) {text : List Char} {host : String}
    (hhost : UrlParts.host text = some host) :
    ∃ url, parseAuthority host.toList = some url ∧ url.scheme = "https" ∧ url.host = some host ∧
      url.port = none := by
  have huserinfo : '@' ∉ host.toList.reverse := by
    intro hmem
    have hplain := hstandard.host_plain text host hhost '@' (List.mem_reverse.mp hmem)
    simp at hplain
  have hsplit : splitUserinfo host.toList = ([], host.toList) := by
    rw [splitUserinfo, cut_of_not_mem huserinfo]
  rw [parseAuthority, hsplit]
  dsimp only
  rw [hstandard.host_port text host hhost]
  dsimp only
  rw [if_neg (hstandard.host_filled text host hhost), hstandard.host_again text host hhost]
  exact ⟨_, rfl, rfl, rfl, rfl⟩

theorem parse_rooted (hstandard : UrlParts.Standard) {text : List Char} {host : String}
    (hhost : UrlParts.host text = some host) {reference : String} {rest : List Char}
    (hreference : reference.toList = '/' :: rest) :
    ∃ url, parse ("https://" ++ host ++ reference) = some url ∧ url.scheme = "https" ∧
      url.host = some host ∧ url.port = none ∧
      url.path = renderPath (normalPath (pathText reference)) := by
  obtain ⟨hprepare, htail⟩ := prepare_rooted hreference
  obtain ⟨authority, hauthority, hscheme, hsame, hport⟩ := parseAuthority_host hstandard hhost
  have hplain := hstandard.host_plain text host hhost
  have hbefore : ∀ c ∈ httpsPrefix ++ host.toList, isPlain c = true := by
    refine List.forall_mem_append.mpr ⟨by simp [httpsPrefix, isPlain], fun c hc => ?_⟩
    exact (Bool.and_eq_true_iff.mp (Bool.and_eq_true_iff.mp (hplain c hc)).1).1
  have hkept : ∀ c ∈ host.toList, (!isDelimiter c) = true := fun c hc =>
    (Bool.and_eq_true_iff.mp (Bool.and_eq_true_iff.mp (hplain c hc)).1).2
  have htext : "https://" ++ host ++ reference =
      String.ofList ((httpsPrefix ++ host.toList) ++ reference.toList) := by
    have hbegins : httpsPrefix = "https://".toList := rfl
    rw [hbegins, ← String.toList_append, ← String.toList_append, String.ofList_toList]
  have hsplit : splitScheme (prepare ("https://" ++ host ++ reference)) =
      some ("https", '/' :: '/' :: (host.toList ++ '/' :: prepareTail rest)) := by
    rw [htext, prepare_append (by simp [httpsPrefix]) hbefore, htail, List.append_assoc,
      splitScheme_https]
  have hslashes : ('/' :: '/' :: (host.toList ++ '/' :: prepareTail rest)).dropWhile isSlash =
      host.toList ++ '/' :: prepareTail rest := by
    obtain ⟨first, more, hhead⟩ :=
      List.exists_cons_of_ne_nil (hstandard.host_filled text host hhost)
    have hfirst : isSlash first = false := by
      have hdelimiter := hkept first (by rw [hhead]; exact List.mem_cons_self)
      simp only [isDelimiter, Bool.not_eq_true', Bool.or_eq_false_iff] at hdelimiter
      exact hdelimiter.1.1
    have hslash : isSlash '/' = true := rfl
    rw [hhead, List.dropWhile_cons_of_pos hslash, List.dropWhile_cons_of_pos hslash,
      List.cons_append, List.dropWhile_cons_of_neg (by rw [hfirst]; exact Bool.false_ne_true)]
  have htake : ('/' :: prepareTail rest).takeWhile (fun c => !isDelimiter c) = [] :=
    List.takeWhile_cons_of_neg (by decide)
  have hdrop : ('/' :: prepareTail rest).dropWhile (fun c => !isDelimiter c) =
      '/' :: prepareTail rest :=
    List.dropWhile_cons_of_neg (by decide)
  have hhttps : parseHttps ('/' :: '/' :: (host.toList ++ '/' :: prepareTail rest)) =
      some (authority.withTail ('/' :: prepareTail rest)) := by
    rw [parseHttps, hslashes, List.takeWhile_append_of_pos hkept,
      List.dropWhile_append_of_pos hkept, htake, hdrop, List.append_nil, hauthority]
    rfl
  refine ⟨authority.withTail ('/' :: prepareTail rest), ?_, (withTail_scheme _ _).trans hscheme,
    (withTail_host _ _).trans hsame, (withTail_port _ _).trans hport, ?_⟩
  · rw [parse, hsplit]
    exact hhttps
  · have hrooted : ('/' :: prepareTail rest).head?.any isSlash = true := rfl
    rw [withTail_path, pathText, hprepare, if_pos hrooted]

end

end Url

end Authguard
