import Mes.Backend
import Mes.Web.Router

/-!
Paths built from a pattern of the router, and the links of invitations, which are such
paths. A value is put in with `encodeURIComponent`, so it has no separator, and the
matcher reads it back.
-/

namespace Mes.Web.Router

open Js

/-! ### Segments -/

theorem not_mem_of_mem_splitOn {s : JsString} {c : UInt16} :
    ∀ segment ∈ s.splitOn c, c ∉ segment := by
  induction s with
  | nil => simp
  | cons d s ih =>
      intro segment hmem
      rw [List.splitOn_cons_eq_if_modifyHead] at hmem
      split at hmem
      · rcases List.mem_cons.mp hmem with rfl | hmem
        · simp
        · exact ih segment hmem
      · rename_i hdiffer
        cases hsplit : s.splitOn c with
        | nil => exact absurd hsplit (List.splitOn_ne_nil c s)
        | cons first rest =>
            rw [hsplit, List.modifyHead_cons] at hmem
            rcases List.mem_cons.mp hmem with rfl | hmem
            · have hfirst := ih first (hsplit ▸ List.mem_cons_self)
              rw [List.mem_cons, not_or]
              exact ⟨fun heq => hdiffer (beq_iff_eq.mpr heq.symm), hfirst⟩
            · exact ih segment (hsplit ▸ List.mem_cons_of_mem first hmem)

theorem slash_not_mem {encoded : JsString}
    (hencoded : ∀ c ∈ encoded, c = PERCENT ∨ isUnescaped c = true) : SLASH ∉ encoded := by
  intro hmem
  rcases hencoded SLASH hmem with heq | hplain
  · exact absurd heq (by decide)
  · exact absurd hplain (by decide)

/-! ### Building -/

/-- A segment of a path: the value of a parameter, or the literal. -/
def fillSegment (values : JsString → JsString) (patternPart : JsString) : Option JsString :=
  if isParam patternPart then encodeURIComponent (values (paramName patternPart))
  else some patternPart

/-- The pattern with its parameters replaced by the encoded values. -/
def buildPath (pattern : JsString) (values : JsString → JsString) : Option JsString :=
  ((pattern.splitOn SLASH).mapM (fillSegment values)).map [SLASH].intercalate

/-- The names of the parameters of a pattern. -/
def paramNames (pattern : JsString) : List JsString :=
  ((segments pattern).filter isParam).map paramName

/-- Every parameter has a value that is a well-formed string, and not empty. -/
structure Fills (pattern : JsString) (values : JsString → JsString) : Prop where
  proper : Json.PROTO ∉ paramNames pattern
  wellFormed : ∀ name ∈ paramNames pattern, WellFormed (values name)
  nonempty : ∀ name ∈ paramNames pattern, values name ≠ []

/-- The assignment of the values to the parameters of a pattern. -/
def assignment (pattern : JsString) (values : JsString → JsString) : Params :=
  fun name => if name ∈ paramNames pattern then some (values name) else none

/-- What a segment of the pattern became in the path. -/
structure Filled (values : JsString → JsString) (patternPart pathPart : JsString) : Prop where
  filled : fillSegment values patternPart = some pathPart
  whole : SLASH ∉ pathPart
  sameEmpty : pathPart.isEmpty = patternPart.isEmpty
  literal : isParam patternPart = false → pathPart = patternPart
  decoded : isParam patternPart = true →
    decodeURIComponent pathPart = some (values (paramName patternPart))

theorem mem_paramNames {pattern patternPart : JsString}
    (hmem : patternPart ∈ pattern.splitOn SLASH) (hparam : isParam patternPart = true) :
    paramName patternPart ∈ paramNames pattern := by
  have hsegment : patternPart ∈ segments pattern := by
    obtain ⟨name, rfl⟩ := (isParam_iff patternPart).mp hparam
    exact List.mem_filter.mpr ⟨hmem, rfl⟩
  exact List.mem_map.mpr ⟨patternPart, List.mem_filter.mpr ⟨hsegment, hparam⟩, rfl⟩

theorem Fills.segment {pattern patternPart : JsString} {values : JsString → JsString}
    (hvalues : Fills pattern values) (hmem : patternPart ∈ pattern.splitOn SLASH) :
    ∃ pathPart, Filled values patternPart pathPart := by
  cases hparam : isParam patternPart with
  | false =>
      refine ⟨patternPart, ?_, not_mem_of_mem_splitOn patternPart hmem, rfl, fun _ => rfl, ?_⟩
      · rw [fillSegment, hparam, if_neg Bool.false_ne_true]
      · intro hdiffer
        rw [hparam] at hdiffer
        exact absurd hdiffer Bool.false_ne_true
  | true =>
      have hname := mem_paramNames hmem hparam
      obtain ⟨encoded, hencoded, hdecoded, hunits, hnonempty⟩ :=
        encodeURIComponent_of_wellFormed (hvalues.wellFormed _ hname)
      have hne := hnonempty (hvalues.nonempty _ hname)
      refine ⟨encoded, ?_, slash_not_mem hunits, ?_, ?_, fun _ => hdecoded⟩
      · rw [fillSegment, if_pos hparam]
        exact hencoded
      · obtain ⟨name, rfl⟩ := (isParam_iff patternPart).mp hparam
        rw [List.isEmpty_eq_false_iff.mpr hne]
        rfl
      · intro hdiffer
        rw [hparam] at hdiffer
        exact absurd hdiffer.symm Bool.false_ne_true

theorem mapM_fillSegment {values : JsString → JsString} :
    ∀ parts : List JsString, (∀ p ∈ parts, ∃ q, Filled values p q) →
      ∃ filled, parts.mapM (fillSegment values) = some filled ∧
        List.Forall₂ (Filled values) parts filled := by
  intro parts
  induction parts with
  | nil => exact fun _ => ⟨[], rfl, .nil⟩
  | cons p parts ih =>
      intro hparts
      obtain ⟨hfirst, hrest⟩ := List.forall_mem_cons.mp hparts
      obtain ⟨q, hq⟩ := hfirst
      obtain ⟨filled, hfilled, hpairs⟩ := ih hrest
      refine ⟨q :: filled, ?_, .cons hq hpairs⟩
      rw [List.mapM_cons, hq.filled, hfilled]
      rfl

theorem Filled.whole_of_mem {values : JsString → JsString} {parts filled : List JsString}
    (hpairs : List.Forall₂ (Filled values) parts filled) : ∀ q ∈ filled, SLASH ∉ q := by
  induction hpairs with
  | nil => simp
  | cons hpair _ ih => exact List.forall_mem_cons.mpr ⟨hpair.whole, ih⟩

theorem Filled.nonempty {values : JsString → JsString} {parts filled : List JsString}
    (hpairs : List.Forall₂ (Filled values) parts filled) :
    List.Forall₂ (Filled values) (parts.filter fun p => !p.isEmpty)
      (filled.filter fun q => !q.isEmpty) := by
  induction hpairs with
  | nil => exact .nil
  | @cons p q parts filled hpair _ ih =>
      rw [List.filter_cons, List.filter_cons, hpair.sameEmpty]
      cases p.isEmpty with
      | true => exact ih
      | false => exact .cons hpair ih

/-- The matcher assigns the values, and goes through. -/
theorem matchSegments_filled {values : JsString → JsString} {parts filled : List JsString}
    (hpairs : List.Forall₂ (Filled values) parts filled) (params : Params)
    (hproper : Json.PROTO ∉ (parts.filter isParam).map paramName) :
    matchSegments params (parts.zip filled) =
      .ok (some fun name =>
        if name ∈ (parts.filter isParam).map paramName then some (values name)
        else params name) := by
  induction hpairs generalizing params with
  | nil => simp [matchSegments]
  | @cons p q parts filled hpair _ ih =>
      rw [List.zip_cons_cons, matchSegments]
      cases hparam : isParam p with
      | false =>
          have hskip : (p :: parts).filter isParam = parts.filter isParam :=
            List.filter_cons_of_neg (by simp [hparam])
          rw [hskip] at hproper ⊢
          rw [if_neg Bool.false_ne_true, hpair.literal hparam, if_neg (not_not_intro rfl)]
          exact ih params hproper
      | true =>
          have htake : (p :: parts).filter isParam = p :: parts.filter isParam :=
            List.filter_cons_of_pos hparam
          rw [htake, List.map_cons, List.mem_cons, not_or] at hproper
          rw [htake, List.map_cons, if_pos rfl, hpair.decoded hparam]
          refine (ih _ hproper.2).trans (congrArg (fun f => Except.ok (some f)) (funext ?_))
          intro name
          rw [Params.assign, if_neg (Ne.symm hproper.1)]
          by_cases hname : name = paramName p
          · simp [hname]
          · simp only [List.mem_cons, hname, false_or, if_false]

/-- The path built from a pattern is matched by it, and gives the values back. -/
theorem Fills.matched {pattern : JsString} {values : JsString → JsString}
    (hvalues : Fills pattern values) :
    ∃ path, buildPath pattern values = some path ∧
      matchRoute pattern path = .ok (some (assignment pattern values)) := by
  obtain ⟨filled, hfilled, hpairs⟩ :=
    mapM_fillSegment (pattern.splitOn SLASH) fun p hp => hvalues.segment hp
  have hwhole := Filled.whole_of_mem hpairs
  have hne : filled ≠ [] := by
    rintro rfl
    cases hsplit : pattern.splitOn SLASH with
    | nil => exact List.splitOn_ne_nil SLASH pattern hsplit
    | cons first rest =>
        rw [hsplit] at hpairs
        cases hpairs
  have hsegments : segments ([SLASH].intercalate filled) = filled.filter fun q => !q.isEmpty := by
    rw [segments, List.splitOn_intercalate SLASH hwhole hne]
  have hnonempty : List.Forall₂ (Filled values) (segments pattern)
      (filled.filter fun q => !q.isEmpty) := Filled.nonempty hpairs
  refine ⟨[SLASH].intercalate filled, by rw [buildPath, hfilled, Option.map_some], ?_⟩
  simp only [matchRoute]
  rw [hsegments, if_neg (not_not_intro hnonempty.length_eq)]
  exact matchSegments_filled hnonempty _ hvalues.proper

/-- Different values give different paths. -/
theorem Fills.inj {pattern path : JsString} {values values' : JsString → JsString}
    (hvalues : Fills pattern values) (hvalues' : Fills pattern values')
    (hpath : buildPath pattern values = some path)
    (hpath' : buildPath pattern values' = some path) :
    ∀ name ∈ paramNames pattern, values name = values' name := by
  intro name hname
  obtain ⟨built, hbuilt, hmatched⟩ := hvalues.matched
  obtain ⟨built', hbuilt', hmatched'⟩ := hvalues'.matched
  obtain rfl := Option.some.inj (hbuilt.symm.trans hpath)
  obtain rfl := Option.some.inj (hbuilt'.symm.trans hpath')
  have hsame : assignment pattern values = assignment pattern values' :=
    Option.some.inj (Except.ok.inj (hmatched.symm.trans hmatched'))
  have hat := congrFun hsame name
  simp only [assignment, if_pos hname] at hat
  exact Option.some.inj hat

/-! ### Links of invitations -/

def DEFAULT_INVITATION_BASE_URL : String := "http://localhost:5173/#/onboard"

/-- `location.hash` at an address whose fragment has no character that a browser
escapes. -/
def locationHash (url : JsString) : JsString :=
  let fragment := url.dropWhile (· ≠ HASH)
  if fragment.length ≤ 1 then [] else fragment

/-- An address of the client's `/onboard` route, without its parameter. -/
def OnboardBase (base : String) : Prop :=
  ∃ origin fragment, text base = origin ++ HASH :: fragment ∧ HASH ∉ origin ∧
    segments fragment = [text "onboard"] ∧
    ∀ c ∈ fragment, c = SLASH ∨ isUnescaped c = true

/-- `encodeURIComponent` of the backend is that of the language. -/
def Encodes (rt : Runtime) : Prop :=
  ∀ s : String, encodeURIComponent (text s) = some (text (rt.encodeURIComponent s))

theorem default_onboardBase : OnboardBase DEFAULT_INVITATION_BASE_URL :=
  ⟨text "http://localhost:5173/", text "/onboard", by decide +kernel, by decide +kernel,
    by decide +kernel, forall_mem_of_all (by decide)⟩

theorem segments_append (s t : JsString) :
    segments (s ++ SLASH :: t) = segments s ++ segments t := by
  unfold segments
  rw [List.splitOn_append_cons_self, List.filter_append]

theorem segments_whole {s : JsString} (hwhole : SLASH ∉ s) (hne : s ≠ []) : segments s = [s] := by
  unfold segments
  rw [List.splitOn_eq_singleton hwhole]
  exact List.filter_cons_of_pos (by simpa using hne)

/-- What follows the `#` is the path. -/
theorem readPath_locationHash {origin fragment : JsString} (horigin : HASH ∉ origin)
    (hne : fragment ≠ []) :
    readPath (locationHash (origin ++ HASH :: fragment)) = fragment := by
  have hdrop : (origin ++ HASH :: fragment).dropWhile (· ≠ HASH) = HASH :: fragment := by
    rw [List.dropWhile_append_of_pos]
    · simp
    · intro c hc
      exact decide_eq_true fun heq => horigin (heq ▸ hc)
  have hlength : 0 < fragment.length := List.length_pos_iff.mpr hne
  simp only [locationHash]
  rw [hdrop, if_neg (by rw [List.length_cons]; omega)]
  have hhead : (HASH :: fragment).head? = some HASH := rfl
  simp only [readPath]
  rw [if_pos hhead, List.drop_succ_cons, List.drop_zero, if_neg (by omega)]

theorem renderRoute_onboard {path part token : JsString}
    (hpath : segments path = [text "onboard", part])
    (htoken : decodeURIComponent part = some token) :
    renderRoute path = .ok (.onboardPage (some token)) := by
  have hsplit : segments path = [text "onboard"] ++ [part] := hpath
  have hcheckout := matchRoute_other checkout_pattern hsplit (by decide)
  have hcourse := matchRoute_other course_pattern hsplit (by decide)
  have honboard := matchRoute_eq onboard_pattern hsplit
  have hsuccess : path ≠ text "/checkout/success" := by
    rintro rfl
    have hhead : (segments _).head? = some (text "onboard") := congrArg List.head? hpath
    exact absurd hhead (by decide)
  have hcourses : path ≠ text "/courses" := by
    rintro rfl
    have hhead : (segments _).head? = some (text "onboard") := congrArg List.head? hpath
    exact absurd hhead (by decide)
  rw [decodeParam, htoken] at honboard
  simp [renderRoute, hcheckout, hcourse, honboard, hsuccess, hcourses, bind, Except.bind, pure,
    Except.pure]

/-- The link of an invitation leads to the page of its token. -/
theorem invitation_link {rt : Runtime} (hencodes : Encodes rt)
    (hbase : OnboardBase rt.invitationBaseUrl) {token : String} (htoken : token ≠ "") :
    renderRoute (readPath (locationHash (text (InvitationsService.buildInvitationUrl rt token)))) =
      .ok (.onboardPage (some (text token))) := by
  obtain ⟨origin, fragment, hurl, horigin, hfragment, -⟩ := hbase
  obtain ⟨encoded, hencoded, hdecoded, hunits, hnonempty⟩ :=
    encodeURIComponent_of_wellFormed (wellFormed_text token)
  have hcomponent : text (rt.encodeURIComponent token) = encoded :=
    Option.some.inj ((hencodes token).symm.trans hencoded)
  have hlink : text (InvitationsService.buildInvitationUrl rt token) =
      origin ++ HASH :: (fragment ++ SLASH :: encoded) := by
    unfold InvitationsService.buildInvitationUrl
    rw [text_append, text_append, hurl, hcomponent, List.append_assoc, List.append_assoc]
    rfl
  have hpart : segments encoded = [encoded] :=
    segments_whole (slash_not_mem hunits) (hnonempty (text_ne_nil htoken))
  rw [hlink, readPath_locationHash horigin (by simp)]
  apply renderRoute_onboard _ hdecoded
  rw [segments_append, hfragment, hpart]
  rfl

/-- A path is read back as the values that were put into its pattern, different values
give different paths, and a link of an invitation leads to the page of its token. -/
theorem route_round_trip :
    (∀ pattern values, Fills pattern values →
      ∃ path, buildPath pattern values = some path ∧
        matchRoute pattern path = .ok (some (assignment pattern values))) ∧
    (∀ pattern values values' path, Fills pattern values → Fills pattern values' →
      buildPath pattern values = some path → buildPath pattern values' = some path →
      ∀ name ∈ paramNames pattern, values name = values' name) ∧
    OnboardBase DEFAULT_INVITATION_BASE_URL ∧
    ∀ rt : Runtime, Encodes rt → OnboardBase rt.invitationBaseUrl →
      ∀ token : String, token ≠ "" →
        renderRoute
            (readPath (locationHash (text (InvitationsService.buildInvitationUrl rt token)))) =
          .ok (.onboardPage (some (text token))) :=
  ⟨fun _ _ hvalues => hvalues.matched,
    fun _ _ _ _ hvalues hvalues' hpath hpath' => hvalues.inj hvalues' hpath hpath',
    default_onboardBase,
    fun _ hencodes hbase _ htoken => invitation_link hencodes hbase htoken⟩

/-- A backend with the default address. -/
def linkRuntime : Runtime :=
  { sampleRuntime with
    encodeURIComponent := fun s => decode (s.toList.flatMap encodeChar)
    invitationBaseUrl := DEFAULT_INVITATION_BASE_URL }

theorem linkRuntime_encodes : Encodes linkRuntime := by
  intro s
  have hplain : ∀ c ∈ s.toList.flatMap encodeChar, isSurrogate c = false := by
    intro c hc
    obtain ⟨char, -, hmem⟩ := List.mem_flatMap.mp hc
    rcases mem_encodeChar hmem with rfl | hunescaped
    · decide
    · by_contra hsurrogate
      rw [isUnescaped_surrogate (Bool.eq_true_of_not_eq_false hsurrogate)] at hunescaped
      exact absurd hunescaped (by decide)
  have hwell := (whole_of_units hplain).wellFormed
  show encodeURIComponent (s.toList.flatMap units16) =
    some (text (decode (s.toList.flatMap encodeChar)))
  rw [encodeURIComponent_flatMap, decode, text, String.toList_ofList, hwell]

/-- A lesson whose name has a separator and a letter outside ASCII, and the link of a
token. -/
theorem route_round_trip_lesson :
    (∃ path, buildPath LMS_LESSON (fun _ => text "1/é%") = some path ∧
      matchRoute LMS_LESSON path =
        .ok (some (assignment LMS_LESSON fun _ => text "1/é%"))) ∧
    renderRoute
        (readPath (locationHash
          (text (InvitationsService.buildInvitationUrl linkRuntime "tok-en_1")))) =
      .ok (.onboardPage (some (text "tok-en_1"))) := by
  refine ⟨route_round_trip.1 LMS_LESSON _ ⟨by decide, ?_, ?_⟩,
    route_round_trip.2.2.2 linkRuntime linkRuntime_encodes default_onboardBase _ (by decide)⟩
  · exact fun _ _ => wellFormed_text _
  · exact fun _ _ => text_ne_nil (by decide)

end Mes.Web.Router
