import Authguard.Metatheory.AdapterAgreement

/-!
Which texts the four pattern parsers accept. Rust, Go and Python accept exactly the
printed forms of well-formed patterns. Java splits the path without a limit, so it
also accepts a printed form with slashes behind it and reads it as if they were not
there.
-/

namespace Authguard
open Text Result

/-! Well-formed patterns and their printed forms. -/

structure URNPattern.WellFormed (urn : URNPattern) : Prop where
  fields : ∀ field ∈ [urn.partition, urn.service, urn.region, urn.tenant],
    Adapter.invalidSegment field = false ∧ ':' ∉ field.toList
  nonempty : urn.path ≠ []
  segments : ∀ segment ∈ urn.path, segment ≠ "" ∧ ':' ∉ segment.toList ∧ '/' ∉ segment.toList
  path : AcceptedPath urn.path

def URNPattern.display (urn : URNPattern) : String :=
  urnText urn.partition urn.service urn.region urn.tenant ("/".intercalate urn.path)

def slashes (n : Nat) : String := String.ofList (List.replicate n '/')

/-- What the compilers of the adapters take a text segment for. -/
def readSegment (segment : String) : SegmentPattern :=
  if segment = "*" then .any else .exact segment

def readPathSegment (segment : String) : PathPattern :=
  if segment = "*" then .any else if segment = "**" then .globStar else .exact segment

def URNPattern.read (urn : URNPattern) : UrnPattern where
  partition := readSegment urn.partition
  service := readSegment urn.service
  region := readSegment urn.region
  tenant := readSegment urn.tenant
  path := urn.path.map readPathSegment

section
variable {urn : URNPattern}

/-- The parts between the colons, for any path text. -/
theorem URNPattern.WellFormed.split (h : urn.WellFormed) (path : String) :
    splitN 7 ':' (urnText urn.partition urn.service urn.region urn.tenant path) =
      ["urn", "iam", urn.partition, urn.service, urn.region, urn.tenant, path] := by
  apply splitN_intercalate ':' ["urn", "iam", urn.partition, urn.service, urn.region, urn.tenant]
  intro piece hpiece
  rw [List.mem_cons, List.mem_cons] at hpiece
  obtain rfl | rfl | hfield := hpiece
  · decide
  · decide
  · exact (h.fields piece hfield).2

theorem URNPattern.WellFormed.path_colon (h : urn.WellFormed) :
    ':' ∉ ("/".intercalate urn.path).toList := by
  intro hcolon
  obtain ⟨segment, hmem, hsegment⟩ := (mem_intercalate (by decide)).mp hcolon
  exact (h.segments segment hmem).2.1 hsegment

theorem URNPattern.WellFormed.splitChar (h : urn.WellFormed) :
    splitChar '/' ("/".intercalate urn.path) = urn.path :=
  splitChar_intercalate '/' urn.path h.nonempty fun segment hmem => (h.segments segment hmem).2.2

theorem URNPattern.WellFormed.filled (h : urn.WellFormed) : urn.path.any (· == "") = false := by
  rw [List.any_eq_false]
  intro segment hmem
  simpa using (h.segments segment hmem).1

theorem segmentPattern_parse_valid {field : String} (h : Adapter.invalidSegment field = false) :
    SegmentPattern.parse field = .ok (readSegment field) := by
  simp only [Adapter.invalidSegment, Bool.or_eq_false_iff, beq_eq_false_iff_ne,
    Bool.and_eq_false_imp, bne_eq_false_iff_eq] at h
  obtain ⟨hne, hstar⟩ := h
  rw [SegmentPattern.parse, if_neg hne, readSegment]
  by_cases hany : field = "*"
  · rw [if_pos hany, if_pos hany]
  · have hplain : ¬(field = "**" ∨ contains '*' field = true) := by
      rintro (rfl | hcontains)
      · exact hany (hstar (by decide))
      · exact hany (hstar hcontains)
    rw [if_neg hany, if_neg hany, if_neg hplain]

theorem parsePathSegments_read {segments : List String} (h : AcceptedPath segments) :
    parsePathSegments segments = .ok (segments.map readPathSegment) := by
  induction segments with
  | nil => rfl
  | cons segment rest ih =>
      obtain ⟨hlast, hpartial, hrest⟩ := h
      have hsegment : parsePathSegment segment rest.isEmpty = .ok (readPathSegment segment) := by
        rw [parsePathSegment, readPathSegment]
        by_cases hany : segment = "*"
        · rw [if_pos hany, if_pos hany]
        · rw [if_neg hany, if_neg hany]
          by_cases hglob : segment = "**"
          · rw [if_pos hglob, if_pos hglob, List.isEmpty_iff.mpr (hlast hglob), if_pos rfl]
          · have hplain : contains '*' segment = false := by
              simpa [Adapter.partialWildcard, hany, hglob] using hpartial
            rw [if_neg hglob, if_neg hglob, hplain, if_neg Bool.false_ne_true]
      rw [parsePathSegments, hsegment, ih hrest]
      rfl

/-- Rust accepts the printed form of a well-formed pattern. -/
theorem URNPattern.WellFormed.fromStr (h : urn.WellFormed) :
    UrnPattern.fromStr urn.display = .ok urn.read := by
  have hcolon : contains ':' ("/".intercalate urn.path) = false := by
    simpa [contains] using h.path_colon
  have hparts : splitUrn urn.display = .ok
      { partition := urn.partition, service := urn.service, region := urn.region
        tenant := urn.tenant, path := "/".intercalate urn.path } := by
    simp [splitUrn, URNPattern.display, h.split, hcolon]
  have hne : "/".intercalate urn.path ≠ "" := by
    intro hempty
    have hsplit := h.splitChar
    rw [hempty] at hsplit
    have hmem : "" ∈ urn.path := by
      rw [← hsplit]
      decide
    exact (h.segments "" hmem).1 rfl
  have hpath : parsePathPattern ("/".intercalate urn.path) =
      .ok (urn.path.map readPathSegment) := by
    simp only [parsePathPattern, splitPath, if_neg hne, h.splitChar, h.filled]
    exact parsePathSegments_read h.path
  have hfields := fun field hmem => segmentPattern_parse_valid (h.fields field hmem).1
  simp only [List.mem_cons, List.not_mem_nil, or_false, forall_eq_or_imp, forall_eq] at hfields
  obtain ⟨hpartition, hservice, hregion, htenant⟩ := hfields
  rw [UrnPattern.fromStr, hparts]
  simp only [bind, Except.bind, hpartition, hservice, hregion, htenant, hpath]
  rfl

end

/-! What each adapter accepts. -/

section
variable {raw : String} {urn : URNPattern}

/-- The checks on everything but the path segments, which the adapters share. -/
structure Framed (raw : String) (urn : URNPattern) (path : String) : Prop where
  split : splitN 7 ':' raw =
    ["urn", "iam", urn.partition, urn.service, urn.region, urn.tenant, path]
  colon : contains ':' path = false
  fields : [urn.partition, urn.service, urn.region, urn.tenant].any Adapter.invalidSegment = false

theorem Framed.text {path : String} (h : Framed raw urn path) :
    raw = urnText urn.partition urn.service urn.region urn.tenant path := by
  rw [← intercalate_splitN ':' 6 raw, h.split]
  rfl

/-- The path text begins with the printed segments. -/
theorem Framed.wellFormed {path rest : String} (h : Framed raw urn path)
    (htext : path = "/".intercalate urn.path ++ rest) (hnonempty : urn.path ≠ [])
    (hfilled : urn.path.any (· == "") = false)
    (hslash : ∀ segment ∈ urn.path, '/' ∉ segment.toList) (hpath : AcceptedPath urn.path) :
    urn.WellFormed where
  fields field hfield := by
    refine ⟨by simpa using List.any_eq_false.mp h.fields field hfield, ?_⟩
    have hsplit : splitN 7 ':' raw =
        ["urn", "iam", urn.partition, urn.service, urn.region, urn.tenant] ++ [path] := h.split
    exact splitN_init_free ':' hsplit field (by simpa using .inr (.inr (by simpa using hfield)))
  nonempty := hnonempty
  segments segment hmem := by
    refine ⟨by simpa using List.any_eq_false.mp hfilled segment hmem, ?_, hslash segment hmem⟩
    intro hcolon
    have hmem : ':' ∈ path.toList := by
      rw [htext, String.toList_append, List.mem_append]
      exact .inl ((mem_intercalate (by decide)).mpr ⟨segment, hmem, hcolon⟩)
    have hfree := h.colon
    rw [contains, List.contains_iff_mem.mpr hmem] at hfree
    cases hfree
  path := hpath

theorem go_checkPath_ok {raw : String} {segments : List String}
    (h : Go.checkPath raw segments = .ok ()) :
    segments.any (· == "") = false ∧ AcceptedPath segments := by
  induction segments with
  | nil => exact ⟨rfl, trivial⟩
  | cons segment rest ih =>
      rw [Go.checkPath] at h
      split at h
      · cases h
      · rename_i hempty
        split at h
        · cases h
        · rename_i hplace
          split at h
          · cases h
          · rename_i hpartial
            obtain ⟨hfilled, hrest⟩ := ih h
            refine ⟨by simp [hempty, hfilled], ?_, by simpa using hpartial, hrest⟩
            intro hglob
            by_contra hmore
            exact hplace ⟨hglob, hmore⟩

theorem checkWildcards_ok {misplaced : String} {segments : List String}
    (h : Adapter.checkWildcards misplaced segments = .ok ()) : AcceptedPath segments := by
  induction segments with
  | nil => trivial
  | cons segment rest ih =>
      rw [Adapter.checkWildcards] at h
      split at h
      · cases h
      · rename_i hplace
        split at h
        · cases h
        · rename_i hpartial
          refine ⟨?_, by simpa using hpartial, ih h⟩
          intro hglob
          by_contra hmore
          exact hplace ⟨hglob, hmore⟩

theorem go_parse_ok (h : Go.parseURNPattern raw = .ok urn) :
    ∃ path, Framed raw urn path ∧ splitChar '/' path = urn.path ∧
      urn.path.any (· == "") = false ∧ AcceptedPath urn.path := by
  simp only [Go.parseURNPattern] at h
  split at h
  · rename_i scheme nid partition service region tenant path hpieces
    split at h
    · cases h
    · rename_i hform
      split at h
      · cases h
      · rename_i hfields
        simp only [not_or, ne_eq, not_not, Bool.not_eq_true] at hform
        simp only [bind_ok_iff, Except.ok.injEq] at h
        obtain ⟨_, hcheck, rfl⟩ := h
        obtain ⟨hfilled, haccepted⟩ := go_checkPath_ok hcheck
        refine ⟨path, ⟨?_, hform.2.2.2, by simpa using hfields⟩, rfl, hfilled, haccepted⟩
        rw [hpieces, hform.1, hform.2.1]
  · cases h

theorem python_parse_ok (h : Python.parseUrnPattern raw = .ok urn) :
    ∃ path, Framed raw urn path ∧ splitChar '/' path = urn.path ∧
      urn.path.any (· == "") = false ∧ AcceptedPath urn.path := by
  simp only [Python.parseUrnPattern] at h
  split at h
  · rename_i scheme nid partition service region tenant path hpieces
    split at h
    · cases h
    · rename_i hform
      split at h
      · cases h
      · rename_i hfields
        split at h
        · cases h
        · rename_i hempty
          simp only [not_or, ne_eq, not_not, Bool.not_eq_true] at hform hempty
          simp only [bind_ok_iff, Except.ok.injEq] at h
          obtain ⟨_, hcheck, rfl⟩ := h
          refine ⟨path, ⟨?_, hform.2.2, by simpa using hfields⟩, rfl, hempty.2,
            checkWildcards_ok hcheck⟩
          rw [hpieces, hform.1, hform.2.1]
  · cases h

theorem java_parse_ok (h : Java.parseUrnPattern raw = .ok urn) :
    ∃ path, Framed raw urn path ∧ Java.split '/' path = urn.path ∧ urn.path ≠ [] ∧
      urn.path.any (· == "") = false ∧ AcceptedPath urn.path := by
  simp only [Java.parseUrnPattern] at h
  split at h
  · rename_i scheme nid partition service region tenant path hpieces
    split at h
    · cases h
    · rename_i hform
      split at h
      · cases h
      · rename_i hfields
        split at h
        · cases h
        · rename_i hempty
          simp only [not_or, ne_eq, not_not, Bool.not_eq_true] at hform hempty
          simp only [bind_ok_iff, Except.ok.injEq] at h
          obtain ⟨_, hcheck, rfl⟩ := h
          refine ⟨path, ⟨?_, hform.2.2, by simpa using hfields⟩, rfl, hempty.1, hempty.2,
            checkWildcards_ok hcheck⟩
          rw [hpieces, hform.1, hform.2.1]
  · cases h

end

/-! Slashes behind the path. -/

theorem intercalate_concat_empty {pieces : List String} (h : pieces ≠ []) :
    "/".intercalate (pieces ++ [""]) = "/".intercalate pieces ++ "/" := by
  rw [← String.toList_inj, String.toList_append, String.toList_intercalate,
    String.toList_intercalate]
  induction pieces with
  | nil => exact absurd rfl h
  | cons piece rest ih =>
      cases rest with
      | nil => simp
      | cons next rest =>
          have hrest := ih (by simp)
          rw [List.cons_append, List.map_cons, List.map_cons,
            List.intercalate_cons_of_ne_nil (by simp), List.intercalate_cons_of_ne_nil (by simp),
            hrest]
          simp

theorem intercalate_slashes {pieces : List String} (h : pieces ≠ []) (n : Nat) :
    "/".intercalate (pieces ++ List.replicate n "") = "/".intercalate pieces ++ slashes n := by
  induction n with
  | zero => simp [slashes]
  | succ n ih =>
      have hmore : slashes (n + 1) = slashes n ++ "/" := by
        rw [← String.toList_inj]
        simp [slashes, List.replicate_succ']
      rw [List.replicate_succ', ← List.append_assoc, intercalate_concat_empty (by simp [h]), ih,
        hmore, String.append_assoc]

theorem java_split_eq (c : Char) (text : String) :
    ∃ n, splitChar c text = Java.split c text ++ List.replicate n "" := by
  rw [Java.split]
  split
  · have hparts : (splitChar c text).rdropWhile (· == "") ++
        (splitChar c text).rtakeWhile (· == "") = splitChar c text :=
      List.rdropWhile_append_rtakeWhile
    refine ⟨((splitChar c text).rtakeWhile (· == "")).length, hparts.symm.trans ?_⟩
    congr 1
    apply List.eq_replicate_of_mem
    intro piece hpiece
    simpa using List.mem_rtakeWhile_imp hpiece
  · rename_i hfree
    refine ⟨0, ?_⟩
    rw [splitChar_of_free hfree, List.replicate_zero, List.append_nil]

theorem rdropWhile_empty {pieces : List String} (h : ∀ piece ∈ pieces, piece ≠ "") (n : Nat) :
    (pieces ++ List.replicate n "").rdropWhile (· == "") = pieces := by
  induction n with
  | zero =>
      rw [List.replicate_zero, List.append_nil, List.rdropWhile_eq_self_iff]
      intro hlast
      simpa using h _ (List.getLast_mem hlast)
  | succ n ih =>
      rw [List.replicate_succ', ← List.append_assoc, List.rdropWhile_concat_pos _ _ _ (by simp)]
      exact ih

theorem java_split_slashes {pieces : List String} (hne : pieces ≠ [])
    (hpieces : ∀ piece ∈ pieces, piece ≠ "" ∧ '/' ∉ piece.toList) (n : Nat) :
    Java.split '/' ("/".intercalate pieces ++ slashes n) = pieces := by
  have hsplit : splitChar '/' ("/".intercalate pieces ++ slashes n) =
      pieces ++ List.replicate n "" := by
    rw [← intercalate_slashes hne]
    apply splitChar_intercalate '/' _ (by simp [hne])
    intro piece hpiece
    cases List.mem_append.mp hpiece with
    | inl hmem => exact (hpieces piece hmem).2
    | inr hmem => simp [List.eq_of_mem_replicate hmem]
  rw [Java.split]
  split
  · rw [hsplit]
    exact rdropWhile_empty (fun piece hmem => (hpieces piece hmem).1) n
  · rename_i hfree
    rw [splitChar_of_free hfree] at hsplit
    cases pieces with
    | nil => exact absurd rfl hne
    | cons piece rest =>
        rw [List.cons_append, List.cons.injEq] at hsplit
        rw [hsplit.1, (List.append_eq_nil_iff.mp hsplit.2.symm).1]

/-! The readers compared. -/

section
variable {raw : String} {urn : URNPattern}

theorem display_slashes (urn : URNPattern) (n : Nat) :
    urn.display ++ slashes n = urnText urn.partition urn.service urn.region urn.tenant
      ("/".intercalate urn.path ++ slashes n) := by
  rw [← String.toList_inj]
  simp [URNPattern.display, urnText, String.toList_intercalate]

/-- The path of Go and Python: every piece between the slashes is kept. -/
theorem Framed.reads {path : String} (h : Framed raw urn path) (hsplit : splitChar '/' path = urn.path)
    (hfilled : urn.path.any (· == "") = false) (haccepted : AcceptedPath urn.path) :
    urn.WellFormed ∧ raw = urn.display := by
  have hpath : path = "/".intercalate urn.path := by
    rw [← hsplit]
    exact (intercalate_splitChar '/' path).symm
  refine ⟨h.wellFormed (hpath.trans String.append_empty.symm) ?_ hfilled ?_ haccepted, ?_⟩
  · rw [← hsplit]
    exact splitChar_ne_nil '/' path
  · rw [← hsplit]
    exact fun segment hmem => splitChar_piece_free '/' path segment hmem
  · rw [h.text, hpath]
    rfl

theorem go_reads (h : Go.parseURNPattern raw = .ok urn) :
    urn.WellFormed ∧ raw = urn.display := by
  obtain ⟨path, hframed, hsplit, hfilled, haccepted⟩ := go_parse_ok h
  exact hframed.reads hsplit hfilled haccepted

theorem python_reads (h : Python.parseUrnPattern raw = .ok urn) :
    urn.WellFormed ∧ raw = urn.display := by
  obtain ⟨path, hframed, hsplit, hfilled, haccepted⟩ := python_parse_ok h
  exact hframed.reads hsplit hfilled haccepted

/-- Java reads what stands before the slashes. -/
theorem java_reads (h : Java.parseUrnPattern raw = .ok urn) :
    urn.WellFormed ∧ ∃ n, raw = urn.display ++ slashes n := by
  obtain ⟨path, hframed, hsplit, hne, hfilled, haccepted⟩ := java_parse_ok h
  obtain ⟨n, hpieces⟩ := java_split_eq '/' path
  rw [hsplit] at hpieces
  have hpath : path = "/".intercalate urn.path ++ slashes n := by
    rw [← intercalate_slashes hne, ← hpieces]
    exact (intercalate_splitChar '/' path).symm
  refine ⟨hframed.wellFormed hpath hne hfilled ?_ haccepted, n, ?_⟩
  · intro segment hmem
    apply splitChar_piece_free '/' path segment
    rw [hpieces]
    exact List.mem_append_left _ hmem
  · rw [display_slashes, ← hpath]
    exact hframed.text

theorem URNPattern.WellFormed.java (h : urn.WellFormed) (n : Nat) :
    Java.parseUrnPattern (urn.display ++ slashes n) = .ok urn := by
  have hcolon : contains ':' ("/".intercalate urn.path ++ slashes n) = false := by
    rw [contains, Bool.eq_false_iff, ne_eq, List.contains_iff_mem, String.toList_append,
      List.mem_append, not_or]
    exact ⟨h.path_colon, by simp [slashes]⟩
  have hform : ¬("urn" ≠ "urn" ∨ "iam" ≠ "iam" ∨
      contains ':' ("/".intercalate urn.path ++ slashes n) = true) := by
    simp [hcolon]
  have hfields : [urn.partition, urn.service, urn.region, urn.tenant].any
      Adapter.invalidSegment = false := by
    rw [List.any_eq_false]
    intro field hfield
    simp [(h.fields field hfield).1]
  have hjava := java_split_slashes h.nonempty
    (fun segment hmem => ⟨(h.segments segment hmem).1, (h.segments segment hmem).2.2⟩) n
  have hpieces : ¬(urn.path = [] ∨ urn.path.any (· == "") = true) := by
    simp [h.nonempty, h.filled]
  rw [display_slashes]
  simp only [Java.parseUrnPattern, h.split, if_neg hform, hfields, Bool.false_eq_true, if_false,
    hjava, if_neg hpieces, checkWildcards_accepted h.path]
  rfl

/-- Java would read both sides as one pattern. -/
theorem URNPattern.WellFormed.display_ne (h : urn.WellFormed) {urn' : URNPattern}
    (h' : urn'.WellFormed) (n : Nat) : urn.display ≠ urn'.display ++ slashes (n + 1) := by
  intro heq
  have hread : Java.parseUrnPattern urn.display = .ok urn := by
    have hnone : urn.display ++ slashes 0 = urn.display := String.append_empty
    rw [← hnone]
    exact h.java 0
  have hread' := h'.java (n + 1)
  rw [← heq, hread, Except.ok.injEq] at hread'
  have hlength := congrArg String.length heq
  rw [hread'] at hlength
  simp [slashes] at hlength

theorem readSegment_display {pattern : SegmentPattern} (h : pattern ≠ .exact "*") :
    readSegment pattern.display = pattern := by
  cases pattern with
  | any => rfl
  | exact value =>
      have hvalue : value ≠ "*" := fun heq => h (by rw [heq])
      rw [SegmentPattern.display, readSegment, if_neg hvalue]

theorem read_text {pattern : UrnPattern} (h : pattern.Plain) : pattern.text.read = pattern := by
  have hfields := fun field hmem => readSegment_display (h.fields field hmem)
  simp only [List.mem_cons, List.not_mem_nil, or_false, forall_eq_or_imp, forall_eq] at hfields
  obtain ⟨hpartition, hservice, hregion, htenant⟩ := hfields
  have hpath : (pattern.path.map PathPattern.display).map readPathSegment = pattern.path := by
    rw [List.map_map]
    refine (List.map_congr_left ?_).trans (List.map_id _)
    intro segment hsegment
    cases segment with
    | any => rfl
    | globStar => rfl
    | exact value =>
        have hvalue := h.path value hsegment
        simp [PathPattern.display, readPathSegment, hvalue.1, hvalue.2]
  simp only [UrnPattern.text, URNPattern.read, hpartition, hservice, hregion, htenant, hpath]

end

/-- Each adapter rejects the text, or reads the pattern that Rust reads. -/
structure ParsersAgree (raw : String) : Prop where
  go : (Go.parseURNPattern raw).toOption.map URNPattern.read = (UrnPattern.fromStr raw).toOption
  java : (Java.parseUrnPattern raw).toOption.map URNPattern.read =
    (UrnPattern.fromStr raw).toOption
  python : (Python.parseUrnPattern raw).toOption.map URNPattern.read =
    (UrnPattern.fromStr raw).toOption

/-- A well-formed pattern with slashes behind it. -/
def TrailingSlash (raw : String) : Prop :=
  ∃ (urn : URNPattern) (n : Nat), urn.WellFormed ∧ raw = urn.display ++ slashes (n + 1)

section
variable {raw : String}

theorem parsersAgree_accepted {pattern : UrnPattern} (h : UrnPattern.fromStr raw = .ok pattern) :
    ParsersAgree raw := by
  have haccepted := UrnPattern.fromStr_accepted h
  have hread := read_text haccepted.plain
  refine ⟨?_, ?_, ?_⟩
  · rw [haccepted.go, h]
    exact congrArg some hread
  · rw [haccepted.java, h]
    exact congrArg some hread
  · rw [haccepted.python, h]
    exact congrArg some hread

theorem fromStr_reads {pattern : UrnPattern} (h : UrnPattern.fromStr raw = .ok pattern) :
    ∃ urn : URNPattern, urn.WellFormed ∧ raw = urn.display :=
  ⟨pattern.text, go_reads (UrnPattern.fromStr_accepted h).go⟩

theorem TrailingSlash.disagree (h : TrailingSlash raw) : ¬ParsersAgree raw := by
  obtain ⟨urn, n, hwell, rfl⟩ := h
  intro hagree
  have hjava := hagree.java
  rw [hwell.java (n + 1)] at hjava
  cases hrust : UrnPattern.fromStr (urn.display ++ slashes (n + 1)) with
  | error failure =>
      rw [hrust] at hjava
      cases hjava
  | ok pattern =>
      obtain ⟨urn', hwell', heq⟩ := fromStr_reads hrust
      exact hwell'.display_ne hwell n heq.symm

/-- What Rust rejects, Go and Python reject, and Java reads at most before slashes. -/
theorem parsersAgree_rejected {failure : UrnError} (h : UrnPattern.fromStr raw = .error failure)
    (hslash : ¬TrailingSlash raw) : ParsersAgree raw := by
  have hprinted : ∀ urn : URNPattern, urn.WellFormed → raw ≠ urn.display := by
    rintro urn hwell rfl
    rw [hwell.fromStr] at h
    cases h
  have hnone : ∀ step : Except String URNPattern, (∀ urn, step ≠ .ok urn) →
      step.toOption.map URNPattern.read = (UrnPattern.fromStr raw).toOption := by
    intro step hstep
    rw [h]
    cases step with
    | error message => rfl
    | ok urn => exact absurd rfl (hstep urn)
  refine ⟨hnone _ ?_, hnone _ ?_, hnone _ ?_⟩
  · intro urn hgo
    obtain ⟨hwell, heq⟩ := go_reads hgo
    exact hprinted urn hwell heq
  · intro urn hjava
    obtain ⟨hwell, n, heq⟩ := java_reads hjava
    cases n with
    | zero => exact hprinted urn hwell (heq.trans String.append_empty)
    | succ n => exact hslash ⟨urn, n, hwell, heq⟩
  · intro urn hpython
    obtain ⟨hwell, heq⟩ := python_reads hpython
    exact hprinted urn hwell heq

end

theorem parsers_agree_iff (raw : String) : ParsersAgree raw ↔ ¬TrailingSlash raw := by
  constructor
  · intro hagree hslash
    exact hslash.disagree hagree
  · intro hslash
    cases hrust : UrnPattern.fromStr raw with
    | error failure => exact parsersAgree_rejected hrust hslash
    | ok pattern => exact parsersAgree_accepted hrust

/-- Java alone accepts the text, as `bucket`. -/
theorem bucketSlash_disagree : ¬ParsersAgree "urn:iam:*:storage:*:acme:bucket/" := by
  intro hagree
  have hjava := hagree.java
  revert hjava
  decide +kernel

end Authguard
