import Mathlib.Tactic
import Mes.Js.Text

/-!
`OriginAllowedGuard`, which protects the routes of the refresh cookie, and the `origin`
function of CORS in `main.ts`. Both read the allow-list from `CORS_ALLOWED_ORIGINS` on
their own. `Listed` says what is on it.
-/

namespace Mes

open Js

def REFRESH_CSRF_ALLOWED_ORIGINS_FALLBACK : List JsString :=
  [text "http://localhost:5173", text "http://localhost:5174"]

def XHR_REQUESTED_WITH : JsString := text "XMLHttpRequest"

def COMMA : UInt16 := unit ','

/-- The literal that a sandboxed frame sends. -/
def NULL_ORIGIN : JsString := text "null"

/-- The parts of a URL that make its origin, with the delimiter of the scheme. -/
structure Url where
  protocol : JsString
  host : JsString
  deriving DecidableEq

/-- `new URL(text)`, `none` where it throws. Without a base the empty text is no URL. -/
structure UrlParser where
  parse : JsString → Option Url
  empty : parse [] = none

/-- The headers that the guard reads. -/
structure OriginHeaders where
  origin : Option JsString
  referer : Option JsString
  xRequestedWith : Option JsString
  deriving DecidableEq

/-- 403, with the cause that goes to the log. -/
structure RefreshCsrfError where
  cause : JsString
  deriving DecidableEq

namespace RefreshCsrfError

def httpStatus : Nat := 403

def code : String := "REFRESH_CSRF_REJECTED"

def message : String := "Request origin is not permitted."

end RefreshCsrfError

/-- A header that is absent or empty. -/
def isBlankHeader (header : Option JsString) : Bool :=
  (header.getD []).isEmpty

namespace OriginAllowedGuard

/-- The set that the constructor makes. -/
def allowedOrigins (raw : Option JsString) : List JsString :=
  let parsed := (((raw.getD []).splitOn COMMA).map trim).filter fun o => decide (0 < o.length)
  if 0 < parsed.length then parsed else REFRESH_CSRF_ALLOWED_ORIGINS_FALLBACK

def assertXhrHeader (headers : OriginHeaders) : Except RefreshCsrfError Unit :=
  if headers.xRequestedWith ≠ some XHR_REQUESTED_WITH then
    .error ⟨text "X-Requested-With header missing or not XMLHttpRequest"⟩
  else .ok ()

def extractOriginFromReferer (urls : UrlParser) (referer : JsString) : Option JsString :=
  (urls.parse referer).map fun url => url.protocol ++ text "//" ++ url.host

def assertOriginOrReferer (urls : UrlParser) (allowed : List JsString)
    (headers : OriginHeaders) : Except RefreshCsrfError Unit :=
  if headers.origin = some NULL_ORIGIN then
    .error ⟨text "Origin: null — sandboxed iframe or file:// source rejected"⟩
  else if isBlankHeader headers.origin && isBlankHeader headers.referer then
    .error ⟨text "Both Origin and Referer are absent"⟩
  else
    let origin := headers.origin.getD []
    if !isBlankHeader headers.origin then
      if origin ∉ allowed then .error ⟨text "Origin not in allow-list: " ++ origin⟩
      else .ok ()
    else
      let referer := headers.referer.getD []
      let refused := RefreshCsrfError.mk (text "Referer origin not in allow-list: " ++ referer)
      match extractOriginFromReferer urls referer with
      | none => .error refused
      | some refererOrigin =>
          if refererOrigin = [] ∨ refererOrigin ∉ allowed then .error refused else .ok ()

def canActivate (urls : UrlParser) (raw : Option JsString) (headers : OriginHeaders) :
    Except RefreshCsrfError Unit := do
  assertXhrHeader headers
  assertOriginOrReferer urls (allowedOrigins raw) headers

end OriginAllowedGuard

namespace Cors

def allowedSet (raw : Option JsString) : List JsString :=
  let corsOrigins :=
    (((raw.getD []).splitOn COMMA).map trim).filter fun origin => decide (0 < origin.length)
  if 0 < corsOrigins.length then corsOrigins else REFRESH_CSRF_ALLOWED_ORIGINS_FALLBACK

/-- The `origin` function. -/
def allows (raw : Option JsString) (requestOrigin : Option JsString) : Bool :=
  !isBlankHeader requestOrigin && (allowedSet raw).contains (requestOrigin.getD [])

/-- `Access-Control-Allow-Origin`: the origin of the request, where it is allowed. -/
def echoed (raw : Option JsString) (requestOrigin : Option JsString) : Option JsString :=
  if allows raw requestOrigin then requestOrigin else none

end Cors

namespace Cors

/-! ### The allow-list -/

/-- The entries of the setting, without the white space around them. -/
def entries (raw : Option JsString) : List JsString :=
  ((raw.getD []).splitOn COMMA).map trim

/-- An origin is on the list: an entry that is not blank, or one of the fallback where
all entries are. -/
def Listed (raw : Option JsString) (origin : JsString) : Prop :=
  (origin ∈ entries raw ∧ origin ≠ []) ∨
    ((∀ entry ∈ entries raw, entry = []) ∧ origin ∈ REFRESH_CSRF_ALLOWED_ORIGINS_FALLBACK)

instance (raw : Option JsString) (origin : JsString) : Decidable (Listed raw origin) :=
  inferInstanceAs (Decidable (_ ∨ _))

theorem mem_allowedOrigins (raw : Option JsString) (origin : JsString) :
    origin ∈ OriginAllowedGuard.allowedOrigins raw ↔ Listed raw origin := by
  let parsed := (entries raw).filter fun o => decide (0 < o.length)
  show origin ∈ (if 0 < parsed.length then parsed else REFRESH_CSRF_ALLOWED_ORIGINS_FALLBACK) ↔ _
  have hparsed (entry : JsString) : entry ∈ parsed ↔ entry ∈ entries raw ∧ entry ≠ [] := by
    rw [List.mem_filter, decide_eq_true_eq, List.length_pos_iff]
  by_cases hblank : ∀ entry ∈ entries raw, entry = []
  · have hempty : parsed = [] := by
      apply List.eq_nil_iff_forall_not_mem.mpr
      intro entry hentry
      obtain ⟨hmem, hne⟩ := (hparsed entry).mp hentry
      exact hne (hblank entry hmem)
    rw [hempty, if_neg (by simp)]
    constructor
    · exact fun hmem => Or.inr ⟨hblank, hmem⟩
    · rintro (⟨hmem, hne⟩ | ⟨-, hmem⟩)
      · exact absurd (hblank origin hmem) hne
      · exact hmem
  · obtain ⟨entry, hentry, hne⟩ : ∃ entry ∈ entries raw, entry ≠ [] := by
      simpa using hblank
    rw [if_pos (List.length_pos_of_mem ((hparsed entry).mpr ⟨hentry, hne⟩)), hparsed]
    constructor
    · exact fun hlisted => Or.inl hlisted
    · rintro (hlisted | ⟨hall, -⟩)
      · exact hlisted
      · exact absurd hall hblank

theorem mem_allowedSet (raw : Option JsString) (origin : JsString) :
    origin ∈ allowedSet raw ↔ Listed raw origin :=
  mem_allowedOrigins raw origin

/-- CORS echoes the listed origins. -/
theorem echoed_iff (raw : Option JsString) (origin : JsString) :
    echoed raw (some origin) = some origin ↔ origin ≠ [] ∧ Listed raw origin := by
  have hallows : allows raw (some origin) = true ↔ origin ≠ [] ∧ Listed raw origin := by
    simp only [allows, isBlankHeader, Option.getD_some, Bool.and_eq_true, Bool.not_eq_true',
      List.isEmpty_eq_false_iff, List.contains_iff_mem, mem_allowedSet]
  rw [← hallows, echoed]
  constructor
  · intro hecho
    by_contra hdenied
    rw [if_neg hdenied] at hecho
    exact absurd hecho (by simp)
  · exact fun hallowed => if_pos hallowed

end Cors

namespace OriginAllowedGuard

open Cors

/-- What an accepted request carries. -/
structure Permitted (urls : UrlParser) (raw : Option JsString) (headers : OriginHeaders) :
    Prop where
  xhr : headers.xRequestedWith = some XHR_REQUESTED_WITH
  source :
    (∃ origin, headers.origin = some origin ∧ origin ≠ [] ∧ origin ≠ NULL_ORIGIN ∧
      Listed raw origin) ∨
    ((headers.origin = none ∨ headers.origin = some []) ∧
      ∃ referer url, headers.referer = some referer ∧ urls.parse referer = some url ∧
        Listed raw (url.protocol ++ text "//" ++ url.host))

theorem canActivate_iff_parts (urls : UrlParser) (raw : Option JsString)
    (headers : OriginHeaders) :
    canActivate urls raw headers = .ok () ↔
      headers.xRequestedWith = some XHR_REQUESTED_WITH ∧
        assertOriginOrReferer urls (allowedOrigins raw) headers = .ok () := by
  unfold canActivate assertXhrHeader
  by_cases hxhr : headers.xRequestedWith = some XHR_REQUESTED_WITH
  · rw [if_neg (not_not_intro hxhr)]
    exact (and_iff_right hxhr).symm
  · rw [if_pos hxhr]
    constructor
    · exact fun hok => absurd hok (by simp [bind, Except.bind])
    · exact fun hok => absurd hok.1 hxhr

/-- A non-empty `Origin` decides alone. -/
theorem assertOrigin_iff (urls : UrlParser) (raw : Option JsString) {headers : OriginHeaders}
    {origin : JsString} (horigin : headers.origin = some origin) (hne : origin ≠ []) :
    assertOriginOrReferer urls (allowedOrigins raw) headers = .ok () ↔
      origin ≠ NULL_ORIGIN ∧ Listed raw origin := by
  have hpresent : isBlankHeader headers.origin = false := by
    rw [horigin]
    exact List.isEmpty_eq_false_iff.mpr hne
  unfold assertOriginOrReferer
  rw [hpresent, horigin, ← mem_allowedOrigins]
  by_cases hnull : origin = NULL_ORIGIN
  · simp [hnull]
  · simp [hnull]

/-- Without an `Origin` the `Referer` decides. -/
theorem assertReferer_iff (urls : UrlParser) (raw : Option JsString) {headers : OriginHeaders}
    (horigin : headers.origin = none ∨ headers.origin = some []) :
    assertOriginOrReferer urls (allowedOrigins raw) headers = .ok () ↔
      ∃ referer url, headers.referer = some referer ∧ urls.parse referer = some url ∧
        Listed raw (url.protocol ++ text "//" ++ url.host) := by
  have hblank : isBlankHeader headers.origin = true := by
    rcases horigin with hnone | hempty
    · rw [hnone]
      rfl
    · rw [hempty]
      rfl
  have hnull : headers.origin ≠ some NULL_ORIGIN := by
    rcases horigin with hnone | hempty
    · simp [hnone]
    · rw [hempty]
      decide
  unfold assertOriginOrReferer extractOriginFromReferer
  rw [if_neg hnull, hblank]
  cases hreferer : headers.referer with
  | none => simp [isBlankHeader]
  | some referer =>
      cases referer with
      | nil => simp [isBlankHeader, urls.empty]
      | cons c referer =>
          cases hparse : urls.parse (c :: referer) with
          | none => simp [isBlankHeader, hparse]
          | some url => simp [isBlankHeader, hparse, ← mem_allowedOrigins, text, units16]

theorem canActivate_iff (urls : UrlParser) (raw : Option JsString) (headers : OriginHeaders) :
    canActivate urls raw headers = .ok () ↔ Permitted urls raw headers := by
  rw [canActivate_iff_parts]
  by_cases horigin : headers.origin = none ∨ headers.origin = some []
  · rw [assertReferer_iff urls raw horigin]
    constructor
    · exact fun ⟨hxhr, hreferer⟩ => ⟨hxhr, Or.inr ⟨horigin, hreferer⟩⟩
    · rintro ⟨hxhr, ⟨origin, heq, hne, -, -⟩ | ⟨-, hreferer⟩⟩
      · rcases horigin with hnone | hempty
        · rw [hnone] at heq
          cases heq
        · rw [hempty] at heq
          exact absurd (Option.some.inj heq).symm hne
      · exact ⟨hxhr, hreferer⟩
  · rw [not_or] at horigin
    obtain ⟨origin, heq⟩ := Option.ne_none_iff_exists'.mp horigin.1
    have hne : origin ≠ [] := by
      rintro rfl
      exact horigin.2 heq
    rw [assertOrigin_iff urls raw heq hne]
    constructor
    · exact fun ⟨hxhr, hnull, hlisted⟩ => ⟨hxhr, Or.inl ⟨origin, heq, hne, hnull, hlisted⟩⟩
    · rintro ⟨hxhr, ⟨origin', heq', -, hnull, hlisted⟩ | ⟨hnone | hempty, -⟩⟩
      · obtain rfl := Option.some.inj (heq.symm.trans heq')
        exact ⟨hxhr, hnull, hlisted⟩
      · exact absurd hnone horigin.1
      · exact absurd hempty horigin.2

/-- The guard accepts an `Origin`, whatever the `Referer`. -/
def AcceptsOrigin (urls : UrlParser) (raw : Option JsString) (origin : JsString) : Prop :=
  ∀ referer, canActivate urls raw
    { origin := some origin, referer := referer, xRequestedWith := some XHR_REQUESTED_WITH } =
      .ok ()

theorem acceptsOrigin_iff (urls : UrlParser) (raw : Option JsString) (origin : JsString) :
    AcceptsOrigin urls raw origin ↔ origin ≠ [] ∧ origin ≠ NULL_ORIGIN ∧ Listed raw origin := by
  constructor
  · intro haccepts
    obtain ⟨-, ⟨origin', heq, haccepted⟩ | ⟨-, referer, url, hnone, -⟩⟩ :=
      (canActivate_iff urls raw _).mp (haccepts none)
    · obtain rfl := Option.some.inj heq
      exact haccepted
    · cases hnone
  · intro haccepted referer
    exact (canActivate_iff urls raw _).mpr ⟨rfl, Or.inl ⟨origin, rfl, haccepted⟩⟩

/-- The guard decides by the allow-list, a `Referer` does not rescue an `Origin` that is
not on it, and apart from `null` it accepts the origins that CORS echoes. -/
theorem guard_matches_cors (urls : UrlParser) (raw : Option JsString) :
    (∀ headers, canActivate urls raw headers = .ok () ↔ Permitted urls raw headers) ∧
    (∀ headers origin, headers.origin = some origin → origin ≠ [] → ¬ Listed raw origin →
      ∃ error, canActivate urls raw headers = .error error) ∧
    {origin | AcceptsOrigin urls raw origin} =
      {origin | echoed raw (some origin) = some origin} \ {NULL_ORIGIN} := by
  refine ⟨canActivate_iff urls raw, ?_, ?_⟩
  · intro headers origin heq hne hout
    cases hguard : canActivate urls raw headers with
    | error error => exact ⟨error, rfl⟩
    | ok =>
        obtain ⟨-, hparts⟩ := (canActivate_iff_parts urls raw headers).mp hguard
        exact absurd ((assertOrigin_iff urls raw heq hne).mp hparts).2 hout
  · ext origin
    rw [Set.mem_sdiff, Set.mem_ofPred_eq, Set.mem_ofPred_eq, Set.mem_singleton_iff,
      acceptsOrigin_iff, echoed_iff]
    tauto

/-- A reader of the addresses of one site. -/
def sampleUrls : UrlParser where
  parse := fun referer =>
    if referer = text "https://mes.example/courses" then
      some { protocol := text "https:", host := text "mes.example" }
    else none
  empty := by decide

/-- Another site with a `Referer` of this one, and a setting with white space. -/
theorem guard_matches_cors_unlisted :
    ∃ error, canActivate sampleUrls (some (text " https://mes.example ,"))
      { origin := some (text "https://mes.example.org")
        referer := some (text "https://mes.example/courses")
        xRequestedWith := some XHR_REQUESTED_WITH } = .error error :=
  (guard_matches_cors sampleUrls (some (text " https://mes.example ,"))).2.1 _
    (text "https://mes.example.org") rfl (by decide) (by decide +kernel)

end OriginAllowedGuard

end Mes
