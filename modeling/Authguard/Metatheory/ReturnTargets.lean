import Authguard.Authn.ApplicationRoute
import Authguard.Metatheory.TokenResigning

/-!
Where a browser goes that a login sends back to its `return_to`. The answer is
the path of the address that was checked, and a path of two slashes in front is
another host to a browser.
-/

namespace Authguard
open Text

section
variable [UrlParts]

/-! What is asked of an answer, and of a `return_to`. -/

/-- The address of the page that asks, for the `Host` header it is asked under. -/
def ApplicationResolver.origin (resolver : ApplicationResolver) : Option Url :=
  resolver.host.bind fun value => Url.parse ("https://" ++ value)

/-- A browser follows the text to an address of its own origin that the application lists. -/
structure StaysInside (application : ApplicationProperties) (origin : Url) (s : String) :
    Prop where
  rooted : ∃ rest, s.toList = '/' :: rest ∧ rest.head?.any Url.isSlash = false
  followed : ∃ url, origin.resolveRooted s = some url ∧ url.scheme = origin.scheme ∧
    url.host = origin.host ∧ url.port = origin.port ∧ matchesReturnUri application url = true

def isRooted (returnTo : String) : Bool := returnTo.toList.head? = some '/'

/-- The port a `return_to` names. -/
def namedPort (returnTo : String) : Option Nat :=
  if isRooted returnTo then none else (Url.parse returnTo).bind Url.port

def namedPath (returnTo : String) : List (List Char) := Url.normalPath (Url.pathText returnTo)

/-- No empty segment is left in front of the path when its dot segments are gone, and the port
is that of the page or the page's port is listed as well. -/
structure NamesPage (application : ApplicationProperties) (origin : Url) (returnTo : String) :
    Prop where
  path : ¬Url.BeginsEmpty (namedPath returnTo)
  port : namedPort returnTo = origin.port ∨ matchesReturnUri application
    { origin with path := Url.renderPath (namedPath returnTo) } = true

/-! What the checks compare. -/

/-- The parts of an address that are compared with `return_uris`. -/
structure SamePage (url other : Url) : Prop where
  scheme : url.scheme = other.scheme
  host : url.host = other.host
  port : url.port = other.port
  path : url.path = other.path

theorem SamePage.matches_eq {url other : Url} (h : SamePage url other)
    (application : ApplicationProperties) :
    matchesReturnUri application url = matchesReturnUri application other := by
  have hknown : url.portOrKnownDefault = other.portOrKnownDefault := by
    rw [Url.portOrKnownDefault, Url.portOrKnownDefault, h.port, h.scheme]
  have hconfigured : matchesConfigured url = matchesConfigured other := by
    funext configured
    simp only [matchesConfigured, h.scheme, h.host, h.path, hknown]
  rw [matchesReturnUri, matchesReturnUri, hconfigured]

variable (hstandard : UrlParts.Standard)
include hstandard

omit hstandard in
theorem parse_prefix_scheme {value : String} {url : Url}
    (h : Url.parse ("https://" ++ value) = some url) : url.scheme = "https" := by
  have hsplit : Url.splitScheme (Url.prepare ("https://" ++ value)) =
      some ("https", '/' :: '/' :: Url.prepareTail value.toList) := by
    have htext : "https://" ++ value = String.ofList (Url.httpsPrefix ++ value.toList) := by
      have hbegins : Url.httpsPrefix = "https://".toList := rfl
      rw [hbegins, ← String.toList_append, String.ofList_toList]
    rw [htext, Url.prepare_append (by simp [Url.httpsPrefix])
      (by simp [Url.httpsPrefix, Url.isPlain]), Url.splitScheme_https]
  rw [Url.parse, hsplit] at h
  obtain ⟨authority, hauthority, rfl⟩ := Url.parseHttps_some h
  rw [Url.withTail_scheme]
  exact (Url.parseAuthority_some hauthority).1

/-- A `Host` header that is accepted names the host of the origin. -/
theorem requestHost_origin [Wire] {resolver : ApplicationResolver} {host : String}
    (h : resolver.requestHost = .ok (some host)) :
    ∃ origin cs, resolver.origin = some origin ∧ origin.scheme = "https" ∧
      origin.host = some host ∧ UrlParts.host cs = some host := by
  rw [ApplicationResolver.requestHost] at h
  split at h
  · cases h
  · rename_i value hvalue
    split at h
    · cases h
    · split at h
      · cases h
      · split at h
        · cases h
        · rename_i parsed hparsed
          split at h
          · cases h
          · split at h
            · cases h
            · rename_i named hnamed
              cases h
              have hscheme := parse_prefix_scheme hparsed
              obtain ⟨cs, serialized, hhost, hsame⟩ :=
                Url.parse_https_host hstandard hparsed hscheme
              obtain rfl : named = serialized := Option.some.inj (hnamed.symm.trans hsame)
              have hlower : toAsciiLowercase named = named :=
                hstandard.host_lower cs named hhost
              rw [hlower]
              refine ⟨parsed, cs, ?_, hscheme, hnamed, hhost⟩
              rw [ApplicationResolver.origin, hvalue, Option.bind_some, hparsed]

/-- The candidate of a destination that begins with a slash. -/
theorem rootedCandidate_ok {host destination : String} {cs : List Char} {candidate : Url}
    (hhost : UrlParts.host cs = some host) (hrooted : isRooted destination = true)
    (h : ApplicationResolver.rootedCandidate host destination = .ok candidate) :
    candidate.scheme = "https" ∧ candidate.host = some host ∧
      candidate.port = namedPort destination ∧
      candidate.path = Url.renderPath (namedPath destination) := by
  obtain ⟨rest, hrest⟩ : ∃ rest, destination.toList = '/' :: rest := by
    have hhead := of_decide_eq_true hrooted
    obtain ⟨first, rest, hcons⟩ := List.exists_cons_of_ne_nil
      (fun hnil : destination.toList = [] => by rw [hnil] at hhead; cases hhead)
    rw [hcons] at hhead
    exact ⟨rest, by rw [hcons, Option.some.inj hhead]⟩
  obtain ⟨url, hparse, hscheme, hsame, hport, hpath⟩ := Url.parse_rooted hstandard hhost hrest
  rw [ApplicationResolver.rootedCandidate, hparse] at h
  split at h
  · cases h
  · cases h
    exact ⟨hscheme, hsame, by rw [hport, namedPort, if_pos hrooted], hpath⟩

/-- The candidate of any other destination. -/
theorem absoluteCandidate_ok {application : Option ResolvedApplication} {host destination : String}
    {candidate : Url} (hrooted : ¬isRooted destination = true)
    (h : ApplicationResolver.absoluteCandidate application host destination = .ok candidate) :
    candidate.scheme = "https" ∧ candidate.host = some host ∧
      candidate.port = namedPort destination ∧
      candidate.path = Url.renderPath (namedPath destination) := by
  rw [ApplicationResolver.absoluteCandidate.eq_def] at h
  split at h
  · cases h
  · split at h
    · cases h
    · rename_i parsed hparsed
      split at h
      · cases h
      · rename_i hchecked
        split at h
        · cases h
        · cases h
          have hscheme : candidate.scheme = "https" := by
            by_contra hother
            exact hchecked (.inl hother)
          have hhost : candidate.host = some host := by
            by_contra hother
            exact hchecked (.inr (.inl hother))
          refine ⟨hscheme, hhost, ?_, Url.parse_https_path hstandard hparsed hscheme⟩
          rw [namedPort, if_neg hrooted, hparsed, Option.bind_some]

omit hstandard in
/-- What an accepted `return_to` went through. -/
theorem validateReturnTo_ok [Wire] {resolver : ApplicationResolver} {returnTo s : String}
    (h : resolver.validateReturnTo returnTo = .ok s) (hs : s ≠ "") :
    ∃ host application candidate, resolver.requestHost = .ok (some host) ∧
      resolver.resolve = .ok (some application) ∧
      ApplicationResolver.destinationCandidate (some application) host returnTo = .ok candidate ∧
      matchesReturnUri application.properties candidate = true ∧
      s = candidate.path ++ (candidate.query.map ("?" ++ ·)).getD "" := by
  rw [ApplicationResolver.validateReturnTo, ApplicationResolver.validateDestination] at h
  split at h
  · cases h
    exact absurd rfl hs
  · obtain ⟨host, hhost, h⟩ := Result.bind_ok_iff.mp h
    obtain ⟨application, happlication, h⟩ := Result.bind_ok_iff.mp h
    split at h
    · cases h
    · rename_i hrequired
      obtain ⟨candidate, hcandidate, h⟩ := Result.bind_ok_iff.mp h
      cases application with
      | none => exact absurd ⟨rfl, rfl⟩ hrequired
      | some application =>
          split at h
          · cases h
          · rename_i hmatches
            cases h
            refine ⟨host, application, candidate, ?_, happlication, hcandidate, ?_, rfl⟩
            · rw [ApplicationResolver.requiredHost] at hhost
              split at hhost
              · cases hhost
              · cases hhost
              · rename_i hrequest
                cases hhost
                exact hrequest
            · simpa using hmatches

theorem destinationCandidate_ok {application : Option ResolvedApplication}
    {host destination : String} {cs : List Char} {candidate : Url}
    (hhost : UrlParts.host cs = some host)
    (h : ApplicationResolver.destinationCandidate application host destination = .ok candidate) :
    candidate.scheme = "https" ∧ candidate.host = some host ∧
      candidate.port = namedPort destination ∧
      candidate.path = Url.renderPath (namedPath destination) := by
  rw [ApplicationResolver.destinationCandidate] at h
  split at h
  · rename_i hrooted
    exact rootedCandidate_ok hstandard hhost (decide_eq_true hrooted) h
  · rename_i hrooted
    exact absoluteCandidate_ok hstandard (fun h => hrooted (of_decide_eq_true h)) h

omit hstandard in
/-- An answer is followed to the page of its path, unless the path has two slashes in front. -/
theorem staysInside_iff {path : List (List Char)}
    (hnormal : ∀ segment ∈ path, Url.NormalSegment segment) (hne : path ≠ [])
    {tail : List Char} (htail : tail = [] ∨ ∃ query, tail = '?' :: query)
    (application : ApplicationProperties) (origin : Url) :
    StaysInside application origin (String.ofList ((Url.renderPath path).toList ++ tail)) ↔
      ¬Url.BeginsEmpty path ∧
        matchesReturnUri application { origin with path := Url.renderPath path } = true := by
  have hwritten : (String.ofList ((Url.renderPath path).toList ++ tail)).toList =
      '/' :: (['/'].intercalate path ++ tail) := by
    rw [String.toList_ofList, Url.renderPath, String.toList_ofList, List.cons_append]
  have hend : tail.head?.any Url.isSlash = false := by
    obtain rfl | ⟨query, rfl⟩ := htail
    · rfl
    · rfl
  have hsecond := Url.second_slash_iff hnormal hend
  constructor
  · intro h
    obtain ⟨rest, hrest, hplain⟩ := h.rooted
    obtain ⟨-, hsame⟩ := List.cons.inj (hwritten.symm.trans hrest)
    have hpath : ¬Url.BeginsEmpty path := by
      rw [← hsecond, hsame, hplain]
      exact Bool.false_ne_true
    obtain ⟨url, hurl, hscheme, hhost, hport, hmatches⟩ := h.followed
    obtain ⟨followed, hfollowed, hfpath, -⟩ :=
      Url.resolveRooted_renderPath hnormal hne hpath origin htail
    obtain hurls : url = followed := Option.some.inj (hurl.symm.trans hfollowed)
    have hupath : url.path = Url.renderPath path := by rw [hurls, hfpath]
    have hpage : SamePage url { origin with path := Url.renderPath path } :=
      ⟨hscheme, hhost, hport, hupath⟩
    exact ⟨hpath, by rw [← hpage.matches_eq, hmatches]⟩
  · rintro ⟨hpath, hlisted⟩
    obtain ⟨url, hurl, hupath, hscheme, hhost, hport⟩ :=
      Url.resolveRooted_renderPath hnormal hne hpath origin htail
    have hpage : SamePage url { origin with path := Url.renderPath path } :=
      ⟨hscheme, hhost, hport, hupath⟩
    have hplain : (['/'].intercalate path ++ tail).head?.any Url.isSlash = false := by
      rw [← Bool.not_eq_true, hsecond]
      exact hpath
    have hmatches : matchesReturnUri application url = true := by
      rw [hpage.matches_eq, hlisted]
    constructor
    · exact ⟨['/'].intercalate path ++ tail, hwritten, hplain⟩
    · exact ⟨url, hurl, hscheme, hhost, hport, hmatches⟩

omit [UrlParts] hstandard in
/-- The answer is the path of the address that was checked with its query. -/
theorem answer_eq (url : Url) : ∃ tail : List Char,
    url.path ++ (url.query.map ("?" ++ ·)).getD "" = String.ofList (url.path.toList ++ tail) ∧
      (tail = [] ∨ ∃ query, tail = '?' :: query) := by
  cases url.query with
  | none => exact ⟨[], by simp, .inl rfl⟩
  | some query =>
      refine ⟨'?' :: query.toList, ?_, .inr ⟨query.toList, rfl⟩⟩
      have hquery : String.ofList ('?' :: query.toList) = "?" ++ query := by
        rw [← String.ofList_toList (s := "?" ++ query), String.toList_append]
        rfl
      rw [String.ofList_append, String.ofList_toList, hquery]
      rfl

/-- A browser stays at an address the application lists exactly where the `return_to` names a
page of the application under the path and the port of the page. -/
theorem return_to_inside_iff [Wire] (resolver : ApplicationResolver) {returnTo s : String}
    (h : resolver.validateReturnTo returnTo = .ok s) (hs : s ≠ "") :
    ∃ origin application, resolver.origin = some origin ∧
      resolver.resolve = .ok (some application) ∧
      (StaysInside application.properties origin s ↔
        NamesPage application.properties origin returnTo) := by
  obtain ⟨host, application, candidate, hhost, hresolve, hcandidate, hmatches, rfl⟩ :=
    validateReturnTo_ok h hs
  obtain ⟨origin, cs, horigin, hscheme, hsame, hserialized⟩ := requestHost_origin hstandard hhost
  obtain ⟨hcscheme, hchost, hcport, hcpath⟩ :=
    destinationCandidate_ok hstandard hserialized hcandidate
  have hnormal : ∀ segment ∈ namedPath returnTo, Url.NormalSegment segment :=
    Url.normalPath_normal hstandard fun c hc => Url.pathText_free hc
  have hne : namedPath returnTo ≠ [] := Url.normalPath_ne_nil _
  obtain ⟨tail, htext, htail⟩ := answer_eq candidate
  refine ⟨origin, application, horigin, hresolve, ?_⟩
  rw [htext, hcpath, staysInside_iff hnormal hne htail]
  constructor
  · rintro ⟨hpath, hlisted⟩
    exact ⟨hpath, .inr hlisted⟩
  · rintro ⟨hpath, hport⟩
    refine ⟨hpath, ?_⟩
    obtain hport | hlisted := hport
    · have hpage : SamePage { origin with path := Url.renderPath (namedPath returnTo) }
          candidate :=
        ⟨by rw [hscheme, hcscheme], by rw [hsame, hchost], by rw [← hport, hcport], hcpath.symm⟩
      rw [hpage.matches_eq, hmatches]
    · exact hlisted

end

/-! A page of an application, and an address whose path is another host. -/

namespace ReturnLink

def isHostChar (c : Char) : Bool := c.isLower || c.isDigit || c = '.' || c = '-'

/-- Hosts of names in lower case, with no address of another scheme. -/
@[reducible]
def parts : UrlParts where
  host := fun cs => if cs ≠ [] ∧ cs.all isHostChar then some (String.ofList cs) else none
  encode := fun _ c => if Url.isPlain c then [c] else ['%', '2', '0']
  other := fun _ => none

theorem encode_cases {component : UrlComponent} {c d : Char}
    (h : d ∈ parts.encode component c) :
    Url.isPlain d = true ∧ (Url.isDelimiter d = true → d = c) := by
  change d ∈ (if Url.isPlain c then [c] else ['%', '2', '0']) at h
  split at h
  · rename_i hplain
    rw [List.mem_singleton] at h
    exact ⟨h ▸ hplain, fun _ => h⟩
  · simp only [List.mem_cons, List.not_mem_nil, or_false] at h
    obtain rfl | rfl | rfl := h
    · exact ⟨rfl, fun hdelimiter => nomatch hdelimiter⟩
    · exact ⟨rfl, fun hdelimiter => nomatch hdelimiter⟩
    · exact ⟨rfl, fun hdelimiter => nomatch hdelimiter⟩

theorem host_some {cs : List Char} {serialized : String}
    (h : parts.host cs = some serialized) :
    serialized = String.ofList cs ∧ cs ≠ [] ∧ ∀ c ∈ cs, isHostChar c = true := by
  change (if cs ≠ [] ∧ cs.all isHostChar then some (String.ofList cs) else none) =
    some serialized at h
  split at h
  · rename_i hchars
    exact ⟨(Option.some.inj h).symm, hchars.1, List.all_eq_true.mp hchars.2⟩
  · cases h

theorem isHostChar_iff {c : Char} : isHostChar c = true ↔
    (97 ≤ c.toNat ∧ c.toNat ≤ 122) ∨ (48 ≤ c.toNat ∧ c.toNat ≤ 57) ∨ c.toNat = 46 ∨
      c.toNat = 45 := by
  simp only [isHostChar, Bool.or_eq_true, decide_eq_true_eq, Char.isLower, Char.isDigit,
    Bool.and_eq_true, ge_iff_le, UInt32.le_iff_toNat_le, Char.ext_iff, ← UInt32.toNat_inj]
  simp only [Char.toNat]
  constructor
  · rintro (((h | h) | h) | h)
    · exact .inl h
    · exact .inr (.inl h)
    · exact .inr (.inr (.inl h))
    · exact .inr (.inr (.inr h))
  · rintro (h | h | h | h)
    · exact .inl (.inl (.inl h))
    · exact .inl (.inl (.inr h))
    · exact .inl (.inr h)
    · exact .inr h

theorem hostChar_spelling {c : Char} (h : isHostChar c = true) :
    c.toLower = c ∧ Url.isPlain c = true ∧ Url.isDelimiter c = false ∧ c ≠ '@' ∧ c ≠ ':' ∧
      c ≠ '[' ∧ c ≠ ']' := by
  have hcode := isHostChar_iff.mp h
  have hne : ∀ d : Char, ¬(97 ≤ d.toNat ∧ d.toNat ≤ 122 ∨ 48 ≤ d.toNat ∧ d.toNat ≤ 57 ∨
      d.toNat = 46 ∨ d.toNat = 45) → c ≠ d := fun d hd heq => hd (heq ▸ hcode)
  refine ⟨?_, ?_, ?_, hne _ (by decide), hne _ (by decide), hne _ (by decide), hne _ (by decide)⟩
  · rw [Char.toLower, dif_neg]
    rintro ⟨hlow, hhigh⟩
    simp only [ge_iff_le, UInt32.le_iff_toNat_le] at hlow hhigh
    change 65 ≤ c.toNat at hlow
    change c.toNat ≤ 90 at hhigh
    omega
  · simp only [Url.isPlain, Bool.and_eq_true, decide_eq_true_eq]
    omega
  · simp [Url.isDelimiter, Url.isSlash, hne '/' (by decide), hne '\\' (by decide),
      hne '?' (by decide), hne '#' (by decide)]

theorem splitPort_host {cs : List Char} (h : ∀ c ∈ cs, isHostChar c = true) :
    Url.splitPort false cs = (cs, none) := by
  induction cs with
  | nil => rfl
  | cons c cs ih =>
      obtain ⟨-, -, -, -, hcolon, hopen, hclose⟩ := hostChar_spelling (h c List.mem_cons_self)
      rw [Url.splitPort, if_neg fun hc => hcolon hc.1]
      simp only [if_neg hopen, if_neg hclose, ih fun d hd => h d (List.mem_cons_of_mem _ hd)]

theorem standard : @UrlParts.Standard parts := by
  apply @UrlParts.Standard.mk parts
  case encoded =>
    intro component c d hd
    exact if_pos (encode_cases hd).1
  case plain =>
    intro component c d hd
    exact (encode_cases hd).1
  case delimiter =>
    intro component c d hd
    exact (encode_cases hd).2
  case host_again =>
    intro text serialized h
    obtain ⟨rfl, -, -⟩ := host_some h
    rw [String.toList_ofList, h]
  case host_lower =>
    intro text serialized h
    obtain ⟨rfl, -, hchars⟩ := host_some h
    rw [String.toList_ofList]
    refine congrArg String.ofList ((List.map_congr_left fun c hc => ?_).trans (List.map_id text))
    exact (hostChar_spelling (hchars c hc)).1
  case host_filled =>
    intro text serialized h
    obtain ⟨rfl, hne, -⟩ := host_some h
    rwa [String.toList_ofList]
  case host_plain =>
    intro text serialized h c hc
    obtain ⟨rfl, -, hchars⟩ := host_some h
    rw [String.toList_ofList] at hc
    obtain ⟨-, hplain, hdelimiter, hat, -⟩ := hostChar_spelling (hchars c hc)
    simp [hplain, hdelimiter, hat]
  case host_port =>
    intro text serialized h
    obtain ⟨rfl, -, hchars⟩ := host_some h
    rw [String.toList_ofList, splitPort_host hchars]
  case other_scheme =>
    intro text url h
    cases h

def properties : ApplicationProperties where
  hosts := ["app.example.com"]
  displayName := "Workflows"
  logo := "/logo.svg"
  theme := none
  returnUris := ["https://app.example.com/**"]

def resolver : ApplicationResolver where
  applications := SortedMap.empty.insert "workflows" properties
  host := some "app.example.com"

def host : Url where
  scheme := "https"
  username := ""
  password := none
  host := some "app.example.com"
  port := none
  path := "/"
  query := none
  fragment := none

theorem origin_eq : @ApplicationResolver.origin parts resolver = some host := by
  decide +kernel

def page : String := "https://app.example.com/workflows/./123?tab=run"

theorem page_accepted :
    @ApplicationResolver.validateReturnTo parts (Documents.wire []) resolver page =
      .ok "/workflows/123?tab=run" := by
  decide +kernel

theorem page_named (application : ApplicationProperties) :
    @NamesPage parts application host page := by
  have hfirst : (@namedPath parts page).head? = some "workflows".toList := by decide +kernel
  have hport : @namedPort parts page = host.port := by decide +kernel
  refine @NamesPage.mk parts application host page ?_ (.inl hport)
  rintro ⟨next, more, hpath⟩
  rw [hpath] at hfirst
  cases hfirst

theorem page_stays_inside : ∃ application,
    @ApplicationResolver.resolve parts (Documents.wire []) resolver = .ok (some application) ∧
      @StaysInside parts application.properties host "/workflows/123?tab=run" := by
  obtain ⟨origin, application, horigin, hresolve, hinside⟩ :=
    @return_to_inside_iff parts standard (Documents.wire []) resolver _ _ page_accepted (by decide)
  obtain rfl : host = origin := Option.some.inj (origin_eq.symm.trans horigin)
  exact ⟨application, hresolve, hinside.mpr (page_named application.properties)⟩

/-- The path of an address of the application is taken by a browser for another host. -/
theorem path_read_as_host :
    @ApplicationResolver.validateReturnTo parts (Documents.wire []) resolver
        "https://app.example.com//evil.example/login" = .ok "//evil.example/login" ∧
      (@Url.resolveRooted parts host "//evil.example/login").bind Url.host =
        some "evil.example" ∧
      ∀ application, ¬@StaysInside parts application host "//evil.example/login" := by
  refine ⟨by decide +kernel, by decide +kernel, fun application h => ?_⟩
  obtain ⟨rest, hrest, hplain⟩ := @StaysInside.rooted parts _ _ _ h
  obtain ⟨-, rfl⟩ := List.cons.inj (hrest : '/' :: "/evil.example/login".toList = _)
  cases hplain

end ReturnLink

end Authguard
