import Mes.Js.Objects
import Mes.Js.Uri

/-!
The hash router of the client: `matchRoute`, and the route table of `App`. A pattern
decodes the segments at its parameters with `decodeURIComponent`, which fails on a
malformed escape, and nothing catches the error.
-/

namespace Mes.Web

open Js

namespace Router

def SLASH : UInt16 := unit '/'
def COLON : UInt16 := unit ':'
def HASH : UInt16 := unit '#'

/-- `readPath`, of `window.location.hash`. -/
def readPath (hash : JsString) : JsString :=
  let raw := if hash.head? = some HASH then hash.drop 1 else hash
  if raw.length = 0 then text "/" else raw

/-- `path.split('/').filter(Boolean)`. -/
def segments (path : JsString) : List JsString :=
  (path.splitOn SLASH).filter fun segment => !segment.isEmpty

/-- The segment of a pattern is a parameter, `:name`. -/
def isParam (patternPart : JsString) : Bool :=
  patternPart.head? == some COLON

def paramName (patternPart : JsString) : JsString :=
  patternPart.drop 1

/-- The own properties of `params`. -/
abbrev Params := JsString → Option JsString

/-- `params[name] = value`. The setter of `__proto__` ignores a string. -/
def Params.assign (params : Params) (name value : JsString) : Params :=
  if name = Json.PROTO then params
  else fun other => if other = name then some value else params other

/-- What `decodeURIComponent` throws. -/
inductive URIError where
  | malformed
  deriving DecidableEq, Repr

/-- The loop over the segments. -/
def matchSegments (params : Params) :
    List (JsString × JsString) → Except URIError (Option Params)
  | [] => .ok (some params)
  | (patternPart, pathPart) :: rest =>
      if isParam patternPart then
        match decodeURIComponent pathPart with
        | none => .error .malformed
        | some value => matchSegments (params.assign (paramName patternPart) value) rest
      else if patternPart ≠ pathPart then .ok none
      else matchSegments params rest

def matchRoute (pattern path : JsString) : Except URIError (Option Params) :=
  let patternParts := segments pattern
  let pathParts := segments path
  if patternParts.length ≠ pathParts.length then .ok none
  else matchSegments (fun _ => none) (patternParts.zip pathParts)

/-! ### The route table -/

def CHECKOUT : JsString := text "/checkout/:courseId"
def COURSE : JsString := text "/courses/:id"
def ONBOARD : JsString := text "/onboard/:token"
def LMS_LESSON : JsString := text "/lms/lessons/:lessonId"
def LMS_COURSE : JsString := text "/lms/courses/:id"

/-- The patterns of `renderRoute`, in the order in which they are tried. -/
def patterns : List JsString :=
  [CHECKOUT, COURSE, ONBOARD, LMS_LESSON, LMS_COURSE]

/-- The pages, with the parameters they are given. -/
inductive RoutedPage where
  | checkoutSuccessPage
  | checkoutPage (courseId : Option JsString)
  | courseDetailPage (courseId : Option JsString)
  | coursesPage
  | onboardPage (token : Option JsString)
  | lmsLessonPage (lessonId : Option JsString)
  | lmsCourseDetailPage (courseId : Option JsString)
  | lmsPage
  | loginPage
  | signupPage
  deriving DecidableEq, Repr

def renderRoute (path : JsString) : Except URIError RoutedPage := do
  let checkoutMatch ← matchRoute CHECKOUT path
  if path = text "/checkout/success" then pure .checkoutSuccessPage else
  match checkoutMatch with
  | some params => pure (.checkoutPage (params (text "courseId")))
  | none => do
  let courseDetailMatch ← matchRoute COURSE path
  match courseDetailMatch with
  | some params => pure (.courseDetailPage (params (text "id")))
  | none => do
  if path = text "/courses" then pure .coursesPage else
  let onboardMatch ← matchRoute ONBOARD path
  match onboardMatch with
  | some params => pure (.onboardPage (params (text "token")))
  | none => do
  let lmsLessonMatch ← matchRoute LMS_LESSON path
  match lmsLessonMatch with
  | some params => pure (.lmsLessonPage (params (text "lessonId")))
  | none => do
  let lmsCourseMatch ← matchRoute LMS_COURSE path
  match lmsCourseMatch with
  | some params => pure (.lmsCourseDetailPage (params (text "id")))
  | none =>
  if path = text "/lms" then pure .lmsPage
  else if path = text "/login" then pure .loginPage
  else if path = text "/signup" then pure .signupPage
  else pure .coursesPage

/-! ### Matching -/

theorem isParam_iff (patternPart : JsString) :
    isParam patternPart = true ↔ ∃ name, patternPart = COLON :: name := by
  unfold isParam
  cases patternPart with
  | nil => simp
  | cons c name => simp

theorem matchSegments_literals (params : Params) (rest : List (JsString × JsString)) :
    ∀ literals heads : List JsString, (∀ l ∈ literals, isParam l = false) →
      literals.length = heads.length →
      matchSegments params (literals.zip heads ++ rest) =
        if literals = heads then matchSegments params rest else .ok none := by
  intro literals
  induction literals with
  | nil =>
      intro heads _ hlength
      obtain rfl := List.length_eq_zero_iff.mp hlength.symm
      rfl
  | cons l literals ih =>
      intro heads hliterals hlength
      obtain ⟨hl, hrest⟩ := List.forall_mem_cons.mp hliterals
      cases heads with
      | nil => simp at hlength
      | cons head heads =>
          have hnext := ih heads hrest (by simpa using hlength)
          rw [List.zip_cons_cons, List.cons_append, matchSegments, hl,
            if_neg Bool.false_ne_true, hnext]
          by_cases heq : l = head
          · simp [heq]
          · simp [heq]

/-- A pattern of literal segments and one parameter after them. -/
structure Pattern (pattern : JsString) (literals : List JsString) (name : JsString) : Prop where
  shape : segments pattern = literals ++ [COLON :: name]
  plain : ∀ l ∈ literals, isParam l = false
  proper : name ≠ Json.PROTO

/-- What the parameter of a pattern decides. -/
def decodeParam (name part : JsString) : Except URIError (Option Params) :=
  match decodeURIComponent part with
  | none => .error .malformed
  | some value => .ok (some fun other => if other = name then some value else none)

section OneParameter

variable {pattern name path : JsString} {literals : List JsString}

theorem matchRoute_eq (hpattern : Pattern pattern literals name) {part : JsString}
    (hpath : segments path = literals ++ [part]) :
    matchRoute pattern path = decodeParam name part := by
  have hzip : (segments pattern).zip (segments path) =
      literals.zip literals ++ [(COLON :: name, part)] := by
    rw [hpattern.shape, hpath, List.zip_append rfl]
    rfl
  have hlength : (segments pattern).length = (segments path).length := by
    rw [hpattern.shape, hpath, List.length_append, List.length_append]
    rfl
  have hparam : isParam (COLON :: name) = true := (isParam_iff _).mpr ⟨name, rfl⟩
  simp only [matchRoute]
  rw [if_neg (not_not_intro hlength), hzip,
    matchSegments_literals _ _ _ _ hpattern.plain rfl, if_pos rfl, matchSegments, if_pos hparam]
  unfold decodeParam
  cases decodeURIComponent part with
  | none => rfl
  | some value =>
      simp only [matchSegments, Params.assign, paramName, List.drop_succ_cons, List.drop_zero]
      rw [if_neg hpattern.proper]

theorem matchRoute_none (hpattern : Pattern pattern literals name)
    (hpath : ∀ part, segments path ≠ literals ++ [part]) : matchRoute pattern path = .ok none := by
  simp only [matchRoute]
  by_cases hlength : (segments pattern).length = (segments path).length
  · rw [if_neg (not_not_intro hlength)]
    have hcount : (segments path).length = literals.length + 1 := by
      rw [← hlength, hpattern.shape, List.length_append]
      rfl
    obtain ⟨heads, part, hsplit⟩ : ∃ heads part, segments path = heads ++ [part] := by
      have hne : segments path ≠ [] := List.ne_nil_of_length_eq_add_one hcount
      exact ⟨_, _, (List.dropLast_concat_getLast hne).symm⟩
    have hheads : literals.length = heads.length := by
      rw [hsplit, List.length_append] at hcount
      exact (Nat.add_right_cancel hcount).symm
    have hdiffer : literals ≠ heads := by
      rintro rfl
      exact hpath part hsplit
    rw [hpattern.shape, hsplit, List.zip_append hheads,
      matchSegments_literals _ _ _ _ hpattern.plain hheads, if_neg hdiffer]
  · rw [if_pos hlength]

end OneParameter

/-! ### Dispatch -/

/-- The segment of a path that is at the parameter of a pattern. -/
def parameterPart (pattern path : JsString) : Option JsString :=
  if (segments path).dropLast = (segments pattern).dropLast then (segments path).getLast?
  else none

/-- No pattern of the table meets a malformed escape at its parameter. -/
def Decodable (path : JsString) : Prop :=
  ∀ pattern ∈ patterns, ∀ part ∈ parameterPart pattern path,
    (decodeURIComponent part).isSome = true

/-- The parameters are the decoded segments. -/
def DecodedBy (pattern path : JsString) (params : Params) : Prop :=
  ∀ p ∈ (segments pattern).zip (segments path), isParam p.1 = true →
    params (paramName p.1) = decodeURIComponent p.2

/-- A segment at a parameter is malformed. -/
def Malformed (pattern path : JsString) : Prop :=
  (segments pattern).length = (segments path).length ∧
    ∃ p ∈ (segments pattern).zip (segments path),
      isParam p.1 = true ∧ decodeURIComponent p.2 = none

/-- Every pattern is decided on the path, without a match or with the decoded parameters,
a malformed segment is no match, and a page is rendered. -/
structure Dispatches (path : JsString) : Prop where
  decided : ∀ pattern ∈ patterns, matchRoute pattern path = .ok none ∨
    ∃ params, matchRoute pattern path = .ok (some params) ∧ DecodedBy pattern path params
  refused : ∀ pattern ∈ patterns, Malformed pattern path → matchRoute pattern path = .ok none
  rendered : ∃ page, renderRoute path = .ok page

theorem checkout_pattern : Pattern CHECKOUT [text "checkout"] (text "courseId") :=
  ⟨by decide, by decide, by decide⟩

theorem course_pattern : Pattern COURSE [text "courses"] (text "id") :=
  ⟨by decide, by decide, by decide⟩

theorem onboard_pattern : Pattern ONBOARD [text "onboard"] (text "token") :=
  ⟨by decide, by decide, by decide⟩

theorem lmsLesson_pattern :
    Pattern LMS_LESSON [text "lms", text "lessons"] (text "lessonId") :=
  ⟨by decide, by decide, by decide⟩

theorem lmsCourse_pattern : Pattern LMS_COURSE [text "lms", text "courses"] (text "id") :=
  ⟨by decide, by decide, by decide⟩

theorem patterns_shape : ∀ pattern ∈ patterns,
    ∃ literals name, Pattern pattern literals name := by
  intro pattern hmem
  simp only [patterns, List.mem_cons, List.not_mem_nil, or_false] at hmem
  rcases hmem with rfl | rfl | rfl | rfl | rfl
  · exact ⟨_, _, checkout_pattern⟩
  · exact ⟨_, _, course_pattern⟩
  · exact ⟨_, _, onboard_pattern⟩
  · exact ⟨_, _, lmsLesson_pattern⟩
  · exact ⟨_, _, lmsCourse_pattern⟩

theorem Pattern.parameterPart_iff {pattern name path part : JsString} {literals : List JsString}
    (hpattern : Pattern pattern literals name) :
    parameterPart pattern path = some part ↔ segments path = literals ++ [part] := by
  have hinit : (segments pattern).dropLast = literals := by
    rw [hpattern.shape, List.dropLast_concat]
  unfold parameterPart
  rw [hinit]
  constructor
  · intro hpart
    split at hpart
    · rename_i hdrop
      have hlast := List.dropLast_append_getLast? part hpart
      rw [← hlast, hdrop]
    · exact absurd hpart (by simp)
  · intro hpath
    rw [hpath, List.dropLast_concat, if_pos rfl, List.getLast?_concat]

/-- A pattern that does not throw is decided as it should be. -/
theorem matchRoute_decided {pattern path : JsString} (hmem : pattern ∈ patterns)
    (hdecodable : Decodable path) :
    (matchRoute pattern path = .ok none ∨
      ∃ params, matchRoute pattern path = .ok (some params) ∧ DecodedBy pattern path params) ∧
    (Malformed pattern path → matchRoute pattern path = .ok none) := by
  obtain ⟨literals, name, hpattern⟩ := patterns_shape pattern hmem
  by_cases hpath : ∃ part, segments path = literals ++ [part]
  · obtain ⟨part, hpath⟩ := hpath
    have hsome := hdecodable pattern hmem part
      (hpattern.parameterPart_iff.mpr hpath)
    obtain ⟨value, hvalue⟩ := Option.isSome_iff_exists.mp hsome
    have hzip : ∀ p ∈ (segments pattern).zip (segments path), isParam p.1 = true →
        p = (COLON :: name, part) := by
      intro p hp hparam
      rw [hpattern.shape, hpath, List.zip_append rfl] at hp
      rcases List.mem_append.mp hp with hp | hp
      · have hplain := hpattern.plain p.1 (List.of_mem_zip hp).1
        rw [hparam] at hplain
        exact absurd hplain (by decide)
      · simpa using hp
    constructor
    · refine Or.inr ⟨_, (matchRoute_eq hpattern hpath).trans (by rw [decodeParam, hvalue]), ?_⟩
      intro p hp hparam
      obtain rfl := hzip p hp hparam
      simp only [paramName, List.drop_succ_cons, List.drop_zero, if_true]
      exact hvalue.symm
    · rintro ⟨-, p, hp, hparam, hbad⟩
      obtain rfl := hzip p hp hparam
      rw [hvalue] at hbad
      exact absurd hbad (by simp)
  · have hnone := matchRoute_none hpattern (not_exists.mp hpath)
    exact ⟨Or.inl hnone, fun _ => hnone⟩

/-- A pattern throws at a malformed parameter, and there only. -/
theorem matchRoute_throws {pattern path part : JsString} (hmem : pattern ∈ patterns)
    (hpart : parameterPart pattern path = some part) (hbad : decodeURIComponent part = none) :
    matchRoute pattern path = .error .malformed := by
  obtain ⟨literals, name, hpattern⟩ := patterns_shape pattern hmem
  have hpath := hpattern.parameterPart_iff.mp hpart
  rw [matchRoute_eq hpattern hpath, decodeParam, hbad]

theorem renderRoute_of_decided {path : JsString}
    (hdecided : ∀ pattern ∈ patterns, ∃ result, matchRoute pattern path = .ok result) :
    ∃ page, renderRoute path = .ok page := by
  obtain ⟨checkout, hcheckout⟩ := hdecided CHECKOUT (by decide)
  obtain ⟨course, hcourse⟩ := hdecided COURSE (by decide)
  obtain ⟨onboard, honboard⟩ := hdecided ONBOARD (by decide)
  obtain ⟨lesson, hlesson⟩ := hdecided LMS_LESSON (by decide)
  obtain ⟨lms, hlms⟩ := hdecided LMS_COURSE (by decide)
  unfold renderRoute
  simp only [hcheckout, hcourse, honboard, hlesson, hlms, bind, Except.bind, pure, Except.pure]
  repeat' split
  all_goals exact ⟨_, rfl⟩

theorem decided_of_decodable {path : JsString} (hdecodable : Decodable path) :
    ∀ pattern ∈ patterns, ∃ result, matchRoute pattern path = .ok result := by
  intro pattern hmem
  rcases (matchRoute_decided hmem hdecodable).1 with hnone | ⟨params, hsome, -⟩
  · exact ⟨none, hnone⟩
  · exact ⟨some params, hsome⟩

/-- Only one pattern can have its parameter at the last segment. -/
theorem matchRoute_other {pattern name path part : JsString} {literals others : List JsString}
    (hpattern : Pattern pattern literals name) (hpath : segments path = others ++ [part])
    (hdiffer : literals ≠ others) : matchRoute pattern path = .ok none := by
  apply matchRoute_none hpattern
  intro part' hpath'
  rw [hpath] at hpath'
  exact hdiffer (List.append_inj_left' hpath' rfl).symm

/-- A page is rendered exactly when no pattern meets a malformed escape. -/
theorem rendered_iff (path : JsString) :
    (∃ page, renderRoute path = .ok page) ↔ Decodable path := by
  constructor
  · rintro ⟨page, hpage⟩ pattern hmem part hpart
    by_contra hbad
    rw [Bool.not_eq_true, Option.isSome_eq_false_iff, Option.isNone_iff_eq_none] at hbad
    have hthrows := matchRoute_throws hmem hpart hbad
    have hsuccess {literals : List JsString} (hpath : segments path = literals ++ [part]) :
        path ≠ text "/checkout/success" := by
      rintro rfl
      have hlast := congrArg List.getLast? hpath
      rw [List.getLast?_concat] at hlast
      obtain rfl : text "success" = part := Option.some.inj hlast
      exact absurd hbad (by decide +kernel)
    have hcourses {literals : List JsString} (hpath : segments path = literals ++ [part])
        (hne : literals ≠ []) : path ≠ text "/courses" := by
      rintro rfl
      have hinit := congrArg List.dropLast hpath
      rw [List.dropLast_concat] at hinit
      exact hne hinit.symm
    simp only [patterns, List.mem_cons, List.not_mem_nil, or_false] at hmem
    rcases hmem with rfl | rfl | rfl | rfl | rfl
    · simp [renderRoute, hthrows, bind, Except.bind] at hpage
    · have hpath := course_pattern.parameterPart_iff.mp hpart
      have hcheckout := matchRoute_other checkout_pattern hpath (by decide)
      simp [renderRoute, hthrows, hcheckout, hsuccess hpath, bind, Except.bind] at hpage
    · have hpath := onboard_pattern.parameterPart_iff.mp hpart
      have hcheckout := matchRoute_other checkout_pattern hpath (by decide)
      have hcourse := matchRoute_other course_pattern hpath (by decide)
      simp [renderRoute, hthrows, hcheckout, hcourse, hsuccess hpath,
        hcourses hpath (by decide), bind, Except.bind] at hpage
    · have hpath := lmsLesson_pattern.parameterPart_iff.mp hpart
      have hcheckout := matchRoute_other checkout_pattern hpath (by decide)
      have hcourse := matchRoute_other course_pattern hpath (by decide)
      have honboard := matchRoute_other onboard_pattern hpath (by decide)
      simp [renderRoute, hthrows, hcheckout, hcourse, honboard, hsuccess hpath,
        hcourses hpath (by decide), bind, Except.bind] at hpage
    · have hpath := lmsCourse_pattern.parameterPart_iff.mp hpart
      have hcheckout := matchRoute_other checkout_pattern hpath (by decide)
      have hcourse := matchRoute_other course_pattern hpath (by decide)
      have honboard := matchRoute_other onboard_pattern hpath (by decide)
      have hlesson := matchRoute_other lmsLesson_pattern hpath (by decide)
      simp [renderRoute, hthrows, hcheckout, hcourse, honboard, hlesson, hsuccess hpath,
        hcourses hpath (by decide), bind, Except.bind] at hpage
  · intro hdecodable
    exact renderRoute_of_decided (decided_of_decodable hdecodable)

/-- The router accepts a path exactly when no pattern meets a malformed escape at its
parameter. -/
theorem dispatches_iff (hash : JsString) :
    Dispatches (readPath hash) ↔ Decodable (readPath hash) := by
  constructor
  · intro hdispatches
    exact (rendered_iff _).mp hdispatches.rendered
  · intro hdecodable
    exact ⟨fun pattern hmem => (matchRoute_decided hmem hdecodable).1,
      fun pattern hmem => (matchRoute_decided hmem hdecodable).2,
      (rendered_iff _).mpr hdecodable⟩

/-- An address with a stray percent sign: no page is rendered. -/
theorem stray_percent_throws :
    ¬ Dispatches (readPath (text "#/courses/100%")) := by
  rintro ⟨-, -, page, hpage⟩
  have hthrows : renderRoute (readPath (text "#/courses/100%")) = .error .malformed := by
    decide +kernel
  rw [hthrows] at hpage
  exact absurd hpage (by simp)

end Router

end Mes.Web
