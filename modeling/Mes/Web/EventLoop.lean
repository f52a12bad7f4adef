import Mes.Web.ApiClient

/-!
What one event does to the calls and the refreshes of a tab, whatever it does to
the store and the pages. `Moves` lists the cases with what the server has
promised about the answer; the invariants of runs are read off it.
-/

namespace Mes.Web.Spa

open Transact

section Projections

variable (w : Spa)

@[simp] theorem dropTokenAndRedirect_calls : w.dropTokenAndRedirect.calls = w.calls := rfl

@[simp] theorem dropTokenAndRedirect_refreshes :
    w.dropTokenAndRedirect.refreshes = w.refreshes := rfl

@[simp] theorem dropTokenAndRedirect_inFlightRefresh :
    w.dropTokenAndRedirect.inFlightRefresh = w.inFlightRefresh := rfl

@[simp] theorem attemptSilentRefresh_store (startedAt : Nat) :
    (w.attemptSilentRefresh startedAt).2.store = w.store := by
  unfold attemptSilentRefresh
  split <;> rfl

/-- Everything but the cookie is as it was before the cookie of an answer is set. -/
theorem receiveCookie_eq (endpoint : Endpoint) (result : FetchResult) :
    ∃ cookie, w.receiveCookie endpoint result = { w with cookie := cookie } := by
  unfold receiveCookie
  split
  · exact ⟨_, rfl⟩
  · exact ⟨_, rfl⟩
  · exact ⟨w.cookie, rfl⟩

theorem receiveSession_eq (session : Option Nat) (result : RefreshResult) :
    ∃ cookie, w.receiveSession session result = { w with cookie := cookie } := by
  unfold receiveSession
  split
  · exact ⟨_, rfl⟩
  · exact ⟨w.cookie, rfl⟩

end Projections

section Answers

variable {roleOf : Nat → UserRole} {w w' : Spa}

/-- The two ways in which an answer to a call is received. -/
theorem answerCall_eq_some {i : Nat} {result : FetchResult}
    (hstep : w.answerCall roleOf i result = some w') :
    ∃ c, w.calls[i]? = some c ∧
      (c.phase = .fetching ∧ serves roleOf c.endpoint c.token result = true ∧
          w' = (w.receiveCookie c.endpoint result).onFirstResponse i c result ∨
        ∃ newToken, c.phase = .retrying newToken ∧
          serves roleOf c.endpoint (some newToken) result = true ∧
          w' = (w.receiveCookie c.endpoint result).onRetryResponse i c result) := by
  unfold answerCall at hstep
  split at hstep
  · cases hstep
  · rename_i c hget
    refine ⟨c, hget, ?_⟩
    split at hstep
    · rename_i hphase
      split at hstep
      · rename_i hserves
        exact Or.inl ⟨hphase, hserves, (Option.some.inj hstep).symm⟩
      · cases hstep
    · rename_i newToken hphase
      split at hstep
      · rename_i hserves
        exact Or.inr ⟨newToken, hphase, hserves, (Option.some.inj hstep).symm⟩
      · cases hstep
    · cases hstep

theorem answerRefresh_eq_some {r : Nat} {result : RefreshResult}
    (hstep : w.answerRefresh roleOf r result = some w') :
    ∃ x, w.refreshes[r]? = some x ∧ x.phase = .fetching ∧
      servesRefresh roleOf x.session result = true ∧
      w' = (w.receiveSession x.session result).onRefreshResponse r x result := by
  unfold answerRefresh at hstep
  split at hstep
  · cases hstep
  · rename_i x hget
    split at hstep
    · rename_i hcan
      exact ⟨x, hget, hcan.1, hcan.2, (Option.some.inj hstep).symm⟩
    · cases hstep

theorem finishRefresh_eq_some {r : Nat} (hstep : w.finishRefresh r = some w') :
    ∃ x out, w.refreshes[r]? = some x ∧ x.phase = .settled out ∧
      w' = w.onRefreshFinally r x out := by
  unfold finishRefresh at hstep
  split at hstep
  · cases hstep
  · rename_i x hget
    split at hstep
    · rename_i out hphase
      exact ⟨x, out, hget, hphase, (Option.some.inj hstep).symm⟩
    · cases hstep

theorem resumeCall_eq_some {i : Nat} (hstep : w.resumeCall i = some w') :
    ∃ c r x out, w.calls[i]? = some c ∧ c.phase = .awaiting r ∧ w.refreshes[r]? = some x ∧
      x.phase = .done out ∧ w' = w.onRefreshed i c out := by
  unfold resumeCall at hstep
  split at hstep
  · cases hstep
  · rename_i c hget
    split at hstep
    · rename_i r hphase
      split at hstep
      · rename_i out hdone
        obtain ⟨x, hrefresh, hx⟩ := Option.map_eq_some_iff.mp hdone
        exact ⟨c, r, x, out, hget, hphase, hrefresh, hx, (Option.some.inj hstep).symm⟩
      · cases hstep
    · cases hstep

end Answers

section Store

variable {roleOf : Nat → UserRole} {w w' : Spa}

/-- Whether the answer to a call drops the token. -/
def drops : CallPhase → FetchResult → Bool
  | .fetching, .error status code => status == 401 && code != AUTH_TOKEN_EXPIRED
  | .retrying _, .error status _ => status == 401
  | _, _ => false

theorem onFirstResponse_store (cookie : Option Nat) (i : Nat) (c : Call) (result : FetchResult) :
    ({ w with cookie := cookie }.onFirstResponse i c result).store =
      if drops .fetching result = true then w.store.clear else w.store := by
  cases result with
  | ok body => rfl
  | failed => rfl
  | error status code =>
      by_cases hstatus : status = 401
      · by_cases hcode : code = AUTH_TOKEN_EXPIRED
        · simp [onFirstResponse, hstatus, hcode, drops, updateCall]
        · simp [onFirstResponse, hstatus, hcode, drops, updateCall, dropTokenAndRedirect]
      · simp [onFirstResponse, hstatus, drops, updateCall]

theorem onRetryResponse_store (cookie : Option Nat) (i : Nat) (c : Call)
    (newToken : AccessToken) (result : FetchResult) :
    ({ w with cookie := cookie }.onRetryResponse i c result).store =
      if drops (.retrying newToken) result = true then w.store.clear else w.store := by
  cases result with
  | ok body => rfl
  | failed => rfl
  | error status code =>
      by_cases hstatus : status = 401
      · simp [onRetryResponse, hstatus, drops, updateCall, dropTokenAndRedirect]
      · simp [onRetryResponse, hstatus, drops, updateCall]

/-- What the answer to a call does to the store. -/
theorem answerCall_store {i : Nat} {result : FetchResult}
    (hstep : w.answerCall roleOf i result = some w') :
    ∃ c, w.calls[i]? = some c ∧
      w'.store = if drops c.phase result = true then w.store.clear else w.store := by
  obtain ⟨c, hget, ⟨hphase, -, rfl⟩ | ⟨newToken, hphase, -, rfl⟩⟩ := answerCall_eq_some hstep
  · obtain ⟨cookie, hcookie⟩ := w.receiveCookie_eq c.endpoint result
    refine ⟨c, hget, ?_⟩
    rw [hcookie, hphase]
    exact onFirstResponse_store cookie i c result
  · obtain ⟨cookie, hcookie⟩ := w.receiveCookie_eq c.endpoint result
    refine ⟨c, hget, ?_⟩
    rw [hcookie, hphase]
    exact onRetryResponse_store cookie i c newToken result

/-- What the answer to a refresh makes of the store. -/
def afterRefresh (store : AuthStore) : RefreshResult → AuthStore
  | .ok accessToken => if store.isLoggingOut = true then store else store.setToken accessToken
  | .error _ => store.clear
  | .failed => store

theorem answerRefresh_store {r : Nat} {result : RefreshResult}
    (hstep : w.answerRefresh roleOf r result = some w') :
    w'.store = afterRefresh w.store result := by
  obtain ⟨x, -, -, -, rfl⟩ := answerRefresh_eq_some hstep
  obtain ⟨cookie, hcookie⟩ := w.receiveSession_eq x.session result
  rw [hcookie]
  cases result with
  | failed => rfl
  | error status => rfl
  | ok accessToken =>
      simp only [onRefreshResponse, afterRefresh]
      split <;> rfl

theorem finishRefresh_store {r : Nat} (hstep : w.finishRefresh r = some w') :
    w'.store = w.store := by
  obtain ⟨x, out, -, -, rfl⟩ := finishRefresh_eq_some hstep
  rfl

theorem resumeCall_store {i : Nat} (hstep : w.resumeCall i = some w') : w'.store = w.store := by
  obtain ⟨c, r, x, out, -, -, -, -, rfl⟩ := resumeCall_eq_some hstep
  cases out with
  | token newToken =>
      simp only [onRefreshed]
      split <;> rfl
  | apiError status code => rfl
  | rejected => rfl

/-- What a page puts into the store when it goes on. -/
def adopted (w : Spa) (page : Nat) : Option AuthState :=
  match w.pages[page]? with
  | some (.profile call accessToken) =>
      match w.settlement call with
      | some (.resolved (.profile user)) => some
          { accessToken := accessToken
            userId := user.userId
            role := user.role
            email := user.email }
      | _ => none
  | some (.redeem call studentEmail) =>
      match w.settlement call with
      | some (.resolved (.token accessToken)) => some
          { accessToken := accessToken
            userId := accessToken.sub
            role := accessToken.role
            email := studentEmail }
      | _ => none
  | _ => none

theorem resumePage_store {page : Nat} (hstep : w.resumePage page = some w') :
    w'.store = ((w.adopted page).map AuthStore.setState).getD w.store := by
  unfold resumePage at hstep
  split at hstep
  · rename_i call hpage
    obtain ⟨out, hout, rfl⟩ := Option.map_eq_some_iff.mp hstep
    simp only [adopted, hpage]
    unfold onSignIn
    split <;> rfl
  · rename_i call accessToken hpage
    obtain ⟨out, hout, rfl⟩ := Option.map_eq_some_iff.mp hstep
    simp only [adopted, hpage, hout, onProfile]
    cases out with
    | resolved body => cases body <;> rfl
    | apiError status code => rfl
    | rejected => rfl
  · rename_i call studentEmail hpage
    obtain ⟨out, hout, rfl⟩ := Option.map_eq_some_iff.mp hstep
    simp only [adopted, hpage, hout, onRedeem]
    cases out with
    | resolved body => cases body <;> rfl
    | apiError status code => rfl
    | rejected => rfl
  · cases hstep

end Store

/-- How a promise settles with an answer that starts no refresh. -/
def settled : FetchResult → Settlement
  | .ok body => .resolved body
  | .error status code => .apiError status code
  | .failed => .rejected

/-- Events of fetches and of the promises that wait for them. -/
def isNetwork : SpaEvent → Bool
  | .response _ _ => true
  | .refreshResponse _ _ => true
  | .refreshFinally _ => true
  | .resume _ => true
  | _ => false

/-- What `step` does to calls and refreshes, event by event. -/
inductive Moves (roleOf : Nat → UserRole) (w : Spa) : SpaEvent → Spa → Prop
  | started (e : SpaEvent) (w' : Spa) (endpoint : Endpoint) (token : Option AccessToken)
      (hother : isNetwork e = false)
      (hcalls : w'.calls =
        w.calls ++ [{ endpoint := endpoint, token := token, startedAt := w.epoch }])
      (hrefreshes : w'.refreshes = w.refreshes)
      (hflight : w'.inFlightRefresh = w.inFlightRefresh) : Moves roleOf w e w'
  | elsewhere (e : SpaEvent) (w' : Spa) (hother : isNetwork e = false)
      (hcalls : w'.calls = w.calls)
      (hrefreshes : w'.refreshes = w.refreshes)
      (hflight : w'.inFlightRefresh = w.inFlightRefresh) : Moves roleOf w e w'
  /-- The first response, other than an expired token. -/
  | answered (i : Nat) (c : Call) (result : FetchResult) (w' : Spa)
      (hget : w.calls[i]? = some c) (hphase : c.phase = .fetching)
      (hserves : serves roleOf c.endpoint c.token result = true)
      (hresult : result.isExpired = false)
      (hcalls : w'.calls = w.calls.set i
        { c with firstResult := some result, phase := .settled (settled result) })
      (hrefreshes : w'.refreshes = w.refreshes)
      (hflight : w'.inFlightRefresh = w.inFlightRefresh) :
      Moves roleOf w (.response i result) w'
  /-- An expired token; the call waits for the refresh in flight. -/
  | joined (i : Nat) (c : Call) (result : FetchResult) (r : Nat) (w' : Spa)
      (hget : w.calls[i]? = some c) (hphase : c.phase = .fetching)
      (hresult : result.isExpired = true) (hsome : w.inFlightRefresh = some r)
      (hcalls : w'.calls = w.calls.set i
        { c with firstResult := some result, phase := .awaiting r, awaited := c.awaited ++ [r] })
      (hrefreshes : w'.refreshes = w.refreshes)
      (hflight : w'.inFlightRefresh = w.inFlightRefresh) :
      Moves roleOf w (.response i result) w'
  /-- An expired token; the call starts a refresh. -/
  | launched (i : Nat) (c : Call) (result : FetchResult) (w' : Spa)
      (hget : w.calls[i]? = some c) (hphase : c.phase = .fetching)
      (hresult : result.isExpired = true) (hnone : w.inFlightRefresh = none)
      (hcalls : w'.calls = w.calls.set i
        { c with
          firstResult := some result
          phase := .awaiting w.refreshes.length
          awaited := c.awaited ++ [w.refreshes.length] })
      (hrefreshes : w'.refreshes =
        w.refreshes ++ [{ session := w.cookie, startedAt := c.startedAt }])
      (hflight : w'.inFlightRefresh = some w.refreshes.length) :
      Moves roleOf w (.response i result) w'
  | retried (i : Nat) (c : Call) (newToken : AccessToken) (result : FetchResult) (w' : Spa)
      (hget : w.calls[i]? = some c) (hphase : c.phase = .retrying newToken)
      (hserves : serves roleOf c.endpoint (some newToken) result = true)
      (hcalls : w'.calls = w.calls.set i { c with phase := .settled (settled result) })
      (hrefreshes : w'.refreshes = w.refreshes)
      (hflight : w'.inFlightRefresh = w.inFlightRefresh) :
      Moves roleOf w (.response i result) w'
  /-- The promise of a refresh settles. -/
  | responded (r : Nat) (x : Refresh) (result : RefreshResult) (out : RefreshOutcome) (w' : Spa)
      (hget : w.refreshes[r]? = some x) (hphase : x.phase = .fetching)
      (htoken : ∀ token, out = .token token →
        x.session = some token.sub ∧ issued roleOf token = true)
      (hcalls : w'.calls = w.calls)
      (hrefreshes : w'.refreshes = w.refreshes.set r { x with phase := .settled out })
      (hflight : w'.inFlightRefresh = w.inFlightRefresh) :
      Moves roleOf w (.refreshResponse r result) w'
  | released (r : Nat) (x : Refresh) (out : RefreshOutcome) (w' : Spa)
      (hget : w.refreshes[r]? = some x) (hphase : x.phase = .settled out)
      (hcalls : w'.calls = w.calls)
      (hrefreshes : w'.refreshes = w.refreshes.set r { x with phase := .done out })
      (hflight : w'.inFlightRefresh = none) : Moves roleOf w (.refreshFinally r) w'
  /-- A call that waited gives up. -/
  | refused (i : Nat) (c : Call) (r : Nat) (x : Refresh) (out : RefreshOutcome)
      (final : Settlement) (w' : Spa)
      (hget : w.calls[i]? = some c) (hphase : c.phase = .awaiting r)
      (hrefresh : w.refreshes[r]? = some x) (hdone : x.phase = .done out)
      (hfinal : ∀ body, final ≠ .resolved body)
      (hcalls : w'.calls = w.calls.set i { c with seen := some out, phase := .settled final })
      (hrefreshes : w'.refreshes = w.refreshes)
      (hflight : w'.inFlightRefresh = w.inFlightRefresh) : Moves roleOf w (.resume i) w'
  /-- A call that waited sends its request again. -/
  | resent (i : Nat) (c : Call) (r : Nat) (x : Refresh) (newToken : AccessToken) (w' : Spa)
      (hget : w.calls[i]? = some c) (hphase : c.phase = .awaiting r)
      (hrefresh : w.refreshes[r]? = some x) (hdone : x.phase = .done (.token newToken))
      (hflag : w.store.isLoggingOut = false)
      (hcalls : w'.calls = w.calls.set i
        { c with
          seen := some (.token newToken)
          phase := .retrying newToken
          sends := c.sends ++ [some newToken] })
      (hrefreshes : w'.refreshes = w.refreshes)
      (hflight : w'.inFlightRefresh = w.inFlightRefresh) : Moves roleOf w (.resume i) w'

section Handlers

variable {roleOf : Nat → UserRole} (w : Spa)

theorem receiveCookie_of_expired {endpoint : Endpoint} {result : FetchResult}
    (hexpired : result.isExpired = true) : w.receiveCookie endpoint result = w := by
  cases result with
  | ok body => cases hexpired
  | error status code => cases endpoint <;> rfl
  | failed => cases hexpired

theorem onFirstResponse_answered (i : Nat) (c : Call) {result : FetchResult}
    (hresult : result.isExpired = false) :
    ∃ store, w.onFirstResponse i c result = { w with store := store }.updateCall i
      { c with firstResult := some result, phase := .settled (settled result) } := by
  cases result with
  | failed => exact ⟨w.store, rfl⟩
  | ok body => exact ⟨w.store, rfl⟩
  | error status code =>
      by_cases hstatus : status = 401
      · have hcode : code ≠ AUTH_TOKEN_EXPIRED := by
          rintro rfl
          simp [FetchResult.isExpired, hstatus] at hresult
        refine ⟨w.store.clear, ?_⟩
        simp [onFirstResponse, hstatus, hcode, settled, dropTokenAndRedirect]
      · refine ⟨w.store, ?_⟩
        simp [onFirstResponse, hstatus, settled]

theorem onFirstResponse_expired (i : Nat) (c : Call) {result : FetchResult}
    (hresult : result.isExpired = true) :
    w.onFirstResponse i c result =
      (w.attemptSilentRefresh c.startedAt).2.updateCall i
        { c with
          firstResult := some result
          phase := .awaiting (w.attemptSilentRefresh c.startedAt).1
          awaited := c.awaited ++ [(w.attemptSilentRefresh c.startedAt).1] } := by
  cases result with
  | failed => cases hresult
  | ok body => cases hresult
  | error status code =>
      simp only [FetchResult.isExpired, Bool.and_eq_true, beq_iff_eq] at hresult
      simp [onFirstResponse, hresult.1, hresult.2]

theorem onRetryResponse_eq (i : Nat) (c : Call) (result : FetchResult) :
    ∃ store, w.onRetryResponse i c result = { w with store := store }.updateCall i
      { c with phase := .settled (settled result) } := by
  cases result with
  | failed => exact ⟨w.store, rfl⟩
  | ok body => exact ⟨w.store, rfl⟩
  | error status code =>
      by_cases hstatus : status = 401
      · refine ⟨w.store.clear, ?_⟩
        simp [onRetryResponse, hstatus, settled, dropTokenAndRedirect]
      · refine ⟨w.store, ?_⟩
        simp [onRetryResponse, hstatus, settled]

theorem answerCall_moves {w : Spa} {i : Nat} {result : FetchResult} {w' : Spa}
    (hstep : w.answerCall roleOf i result = some w') :
    Moves roleOf w (.response i result) w' := by
  obtain ⟨c, hget, ⟨hphase, hserves, rfl⟩ | ⟨newToken, hphase, hserves, rfl⟩⟩ :=
    answerCall_eq_some hstep
  · cases hresult : result.isExpired with
    | false =>
        obtain ⟨cookie, hcookie⟩ := w.receiveCookie_eq c.endpoint result
        obtain ⟨store, hanswer⟩ :=
          { w with cookie := cookie }.onFirstResponse_answered i c hresult
        rw [hcookie, hanswer]
        exact .answered i c result _ hget hphase hserves hresult rfl rfl rfl
    | true =>
        rw [w.receiveCookie_of_expired hresult, w.onFirstResponse_expired i c hresult]
        cases hflight : w.inFlightRefresh with
        | some r =>
            simp only [attemptSilentRefresh, hflight]
            exact .joined i c result r _ hget hphase hresult hflight rfl rfl rfl
        | none =>
            simp only [attemptSilentRefresh, hflight]
            exact .launched i c result _ hget hphase hresult hflight rfl rfl rfl
  · obtain ⟨cookie, hcookie⟩ := w.receiveCookie_eq c.endpoint result
    obtain ⟨store, hanswer⟩ := { w with cookie := cookie }.onRetryResponse_eq i c result
    rw [hcookie, hanswer]
    exact .retried i c newToken result _ hget hphase hserves rfl rfl rfl

theorem answerRefresh_moves {w : Spa} {r : Nat} {result : RefreshResult} {w' : Spa}
    (hstep : w.answerRefresh roleOf r result = some w') :
    Moves roleOf w (.refreshResponse r result) w' := by
  obtain ⟨x, hget, hphase, hserves, rfl⟩ := answerRefresh_eq_some hstep
  obtain ⟨cookie, hcookie⟩ := w.receiveSession_eq x.session result
  rw [hcookie]
  cases result with
  | failed =>
      exact .responded r x .failed .rejected _ hget hphase (fun _ h => by cases h) rfl rfl rfl
  | error status =>
      exact .responded r x (.error status) (.apiError status "REFRESH_FAILED") _ hget hphase
        (fun _ h => by cases h) rfl rfl rfl
  | ok accessToken =>
      simp only [servesRefresh, Bool.and_eq_true, beq_iff_eq] at hserves
      cases hflag : w.store.isLoggingOut with
      | true =>
          simp only [onRefreshResponse, hflag, if_true]
          exact .responded r x (.ok accessToken) (.apiError 401 "LOGOUT_IN_PROGRESS") _ hget
            hphase (fun _ h => by cases h) rfl rfl rfl
      | false =>
          simp only [onRefreshResponse, hflag, Bool.false_eq_true, if_false]
          have htoken : ∀ token, RefreshOutcome.token accessToken = .token token →
              x.session = some token.sub ∧ issued roleOf token = true := by
            intro token htoken
            cases htoken
            exact hserves
          exact .responded r x (.ok accessToken) (.token accessToken) _ hget hphase htoken
            rfl rfl rfl

theorem finishRefresh_moves {w : Spa} {r : Nat} {w' : Spa}
    (hstep : w.finishRefresh r = some w') : Moves roleOf w (.refreshFinally r) w' := by
  obtain ⟨x, out, hget, hphase, rfl⟩ := finishRefresh_eq_some hstep
  exact .released r x out _ hget hphase rfl rfl rfl

theorem resumeCall_moves {w : Spa} {i : Nat} {w' : Spa} (hstep : w.resumeCall i = some w') :
    Moves roleOf w (.resume i) w' := by
  obtain ⟨c, r, x, out, hget, hphase, hrefresh, hdone, rfl⟩ := resumeCall_eq_some hstep
  cases out with
  | token newToken =>
      cases hflag : w.store.isLoggingOut with
      | true =>
          simp only [onRefreshed, hflag, if_true]
          exact .refused i c r x (.token newToken) (.apiError 401 AUTH_TOKEN_EXPIRED) _ hget hphase
            hrefresh hdone (fun _ h => by cases h) rfl rfl rfl
      | false =>
          simp only [onRefreshed, hflag, Bool.false_eq_true, if_false]
          exact .resent i c r x newToken _ hget hphase hrefresh hdone hflag rfl rfl rfl
  | apiError status code =>
      exact .refused i c r x (.apiError status code) (.apiError status code) _ hget hphase hrefresh
        hdone (fun _ h => by cases h) rfl rfl rfl
  | rejected =>
      exact .refused i c r x .rejected (.apiError 401 AUTH_TOKEN_EXPIRED) _ hget hphase hrefresh
        hdone (fun _ h => by cases h) rfl rfl rfl

theorem onSignIn_moves {e : SpaEvent} (hother : isNetwork e = false) (page : Nat)
    (out : Settlement) : Moves roleOf w e (w.onSignIn page out) := by
  unfold onSignIn
  split
  · rename_i accessToken
    exact .started e _ .me (some accessToken) hother rfl rfl rfl
  · exact .elsewhere e _ hother rfl rfl rfl

theorem onProfile_moves {e : SpaEvent} (hother : isNetwork e = false) (page : Nat)
    (accessToken : AccessToken) (out : Settlement) :
    Moves roleOf w e (w.onProfile page accessToken out) := by
  unfold onProfile
  split
  · exact .elsewhere e _ hother rfl rfl rfl
  · exact .elsewhere e _ hother rfl rfl rfl

theorem onRedeem_moves {e : SpaEvent} (hother : isNetwork e = false) (page : Nat)
    (studentEmail : String) (out : Settlement) :
    Moves roleOf w e (w.onRedeem page studentEmail out) := by
  unfold onRedeem
  split
  · exact .elsewhere e _ hother rfl rfl rfl
  · exact .elsewhere e _ hother rfl rfl rfl

theorem resumePage_moves {w : Spa} {page : Nat} {w' : Spa}
    (hstep : w.resumePage page = some w') : Moves roleOf w (.pageResume page) w' := by
  unfold resumePage at hstep
  split at hstep
  · obtain ⟨out, -, rfl⟩ := Option.map_eq_some_iff.mp hstep
    exact w.onSignIn_moves rfl page out
  · obtain ⟨out, -, rfl⟩ := Option.map_eq_some_iff.mp hstep
    exact w.onProfile_moves rfl page _ out
  · obtain ⟨out, -, rfl⟩ := Option.map_eq_some_iff.mp hstep
    exact w.onRedeem_moves rfl page _ out
  · cases hstep

theorem onBootRefresh_moves {e : SpaEvent} (hother : isNetwork e = false)
    (cookie : Option Nat) (result : RefreshResult) :
    Moves roleOf w e ({ w with cookie := cookie }.onBootRefresh result) := by
  cases result with
  | ok accessToken => exact .elsewhere e _ hother rfl rfl rfl
  | error status => exact .elsewhere e _ hother rfl rfl rfl
  | failed => exact .elsewhere e _ hother rfl rfl rfl

theorem onBootProfile_moves {e : SpaEvent} (hother : isNetwork e = false)
    (result : FetchResult) :
    Moves roleOf w e (w.onBootProfile result) := by
  unfold onBootProfile
  split
  · exact .elsewhere e _ hother rfl rfl rfl
  · exact .elsewhere e _ hother rfl rfl rfl

theorem mountedStep_moves {w : Spa} {e : SpaEvent} {w' : Spa}
    (hstep : w.mountedStep roleOf e = some w') : Moves roleOf w e w' := by
  cases e with
  | request path token =>
      simp only [mountedStep] at hstep
      split at hstep
      · obtain rfl := Option.some.inj hstep
        exact .started _ _ (.other path) token rfl rfl rfl rfl
      · cases hstep
  | response i result => exact answerCall_moves hstep
  | refreshResponse r result => exact answerRefresh_moves hstep
  | refreshFinally r => exact finishRefresh_moves hstep
  | resume i => exact resumeCall_moves hstep
  | submitLogin =>
      obtain rfl := Option.some.inj hstep
      exact .started _ _ .login none rfl rfl rfl rfl
  | submitSignup =>
      obtain rfl := Option.some.inj hstep
      exact .started _ _ .signup none rfl rfl rfl rfl
  | submitRedeem studentEmail =>
      obtain rfl := Option.some.inj hstep
      exact .started _ _ .redeem none rfl rfl rfl rfl
  | pageResume page => exact resumePage_moves hstep
  | logoutClick =>
      obtain rfl := Option.some.inj hstep
      exact .elsewhere _ _ rfl rfl rfl rfl
  | logoutFinally =>
      simp only [mountedStep] at hstep
      split at hstep
      · obtain rfl := Option.some.inj hstep
        exact .elsewhere _ _ rfl rfl rfl rfl
      · cases hstep
  | cookieChange cookie =>
      obtain rfl := Option.some.inj hstep
      exact .elsewhere _ _ rfl rfl rfl rfl
  | bootRefresh result => cases hstep
  | bootProfile result => cases hstep

theorem bootStep_moves {w : Spa} {e : SpaEvent} {w' : Spa}
    (hstep : w.bootStep roleOf e = some w') : Moves roleOf w e w' := by
  cases e with
  | cookieChange cookie =>
      obtain rfl := Option.some.inj hstep
      exact .elsewhere _ _ rfl rfl rfl rfl
  | bootRefresh result =>
      simp only [bootStep] at hstep
      split at hstep
      · rename_i session hboot
        split at hstep
        · obtain rfl := Option.some.inj hstep
          obtain ⟨cookie, hcookie⟩ := w.receiveSession_eq session result
          rw [hcookie]
          exact w.onBootRefresh_moves rfl cookie result
        · cases hstep
      · cases hstep
  | bootProfile result =>
      simp only [bootStep] at hstep
      split at hstep
      · split at hstep
        · obtain rfl := Option.some.inj hstep
          exact w.onBootProfile_moves rfl result
        · cases hstep
      · cases hstep
  | _ => cases hstep

theorem step_moves {w : Spa} {e : SpaEvent} {w' : Spa} (hstep : step roleOf w e = some w') :
    Moves roleOf w e w' := by
  unfold step at hstep
  split at hstep
  · exact mountedStep_moves hstep
  · exact bootStep_moves hstep

/-- What only pages, the boot sequence and logouts change. -/
structure SameTab (w w' : Spa) : Prop where
  pages : w'.pages = w.pages
  boot : w'.boot = w.boot
  logouts : w'.logouts = w.logouts
  epoch : w'.epoch = w.epoch

theorem onFirstResponse_sameTab (cookie : Option Nat) (i : Nat) (c : Call)
    (result : FetchResult) :
    SameTab w ({ w with cookie := cookie }.onFirstResponse i c result) := by
  cases hresult : result.isExpired with
  | false =>
      obtain ⟨store, hanswer⟩ :=
        { w with cookie := cookie }.onFirstResponse_answered i c hresult
      rw [hanswer]
      exact ⟨rfl, rfl, rfl, rfl⟩
  | true =>
      rw [onFirstResponse_expired _ i c hresult]
      unfold attemptSilentRefresh
      split
      · exact ⟨rfl, rfl, rfl, rfl⟩
      · exact ⟨rfl, rfl, rfl, rfl⟩

theorem onRetryResponse_sameTab (cookie : Option Nat) (i : Nat) (c : Call)
    (result : FetchResult) :
    SameTab w ({ w with cookie := cookie }.onRetryResponse i c result) := by
  obtain ⟨store, hanswer⟩ := { w with cookie := cookie }.onRetryResponse_eq i c result
  rw [hanswer]
  exact ⟨rfl, rfl, rfl, rfl⟩

theorem onRefreshResponse_sameTab (cookie : Option Nat) (r : Nat) (x : Refresh)
    (result : RefreshResult) :
    SameTab w ({ w with cookie := cookie }.onRefreshResponse r x result) := by
  cases result with
  | ok accessToken =>
      simp only [onRefreshResponse]
      split
      · exact ⟨rfl, rfl, rfl, rfl⟩
      · exact ⟨rfl, rfl, rfl, rfl⟩
  | error status => exact ⟨rfl, rfl, rfl, rfl⟩
  | failed => exact ⟨rfl, rfl, rfl, rfl⟩

theorem onRefreshed_sameTab (i : Nat) (c : Call) (out : RefreshOutcome) :
    SameTab w (w.onRefreshed i c out) := by
  cases out with
  | token newToken =>
      simp only [onRefreshed]
      split
      · exact ⟨rfl, rfl, rfl, rfl⟩
      · exact ⟨rfl, rfl, rfl, rfl⟩
  | apiError status code => exact ⟨rfl, rfl, rfl, rfl⟩
  | rejected => exact ⟨rfl, rfl, rfl, rfl⟩

end Handlers

section Mounted

variable {roleOf : Nat → UserRole} {w w' : Spa}

theorem answerCall_sameTab {i : Nat} {result : FetchResult}
    (hstep : w.answerCall roleOf i result = some w') : SameTab w w' := by
  obtain ⟨c, -, ⟨-, -, rfl⟩ | ⟨-, -, -, rfl⟩⟩ := answerCall_eq_some hstep
  · obtain ⟨cookie, hcookie⟩ := w.receiveCookie_eq c.endpoint result
    rw [hcookie]
    exact w.onFirstResponse_sameTab cookie i c result
  · obtain ⟨cookie, hcookie⟩ := w.receiveCookie_eq c.endpoint result
    rw [hcookie]
    exact w.onRetryResponse_sameTab cookie i c result

theorem answerRefresh_sameTab {r : Nat} {result : RefreshResult}
    (hstep : w.answerRefresh roleOf r result = some w') : SameTab w w' := by
  obtain ⟨x, -, -, -, rfl⟩ := answerRefresh_eq_some hstep
  obtain ⟨cookie, hcookie⟩ := w.receiveSession_eq x.session result
  rw [hcookie]
  exact w.onRefreshResponse_sameTab cookie r x result

theorem finishRefresh_sameTab {r : Nat} (hstep : w.finishRefresh r = some w') :
    SameTab w w' := by
  obtain ⟨x, out, -, -, rfl⟩ := finishRefresh_eq_some hstep
  exact ⟨rfl, rfl, rfl, rfl⟩

theorem resumeCall_sameTab {i : Nat} (hstep : w.resumeCall i = some w') : SameTab w w' := by
  obtain ⟨c, r, x, out, -, -, -, -, rfl⟩ := resumeCall_eq_some hstep
  exact w.onRefreshed_sameTab i c out

theorem resumePage_boot {page : Nat} (hstep : w.resumePage page = some w') :
    w'.boot = w.boot := by
  unfold resumePage at hstep
  split at hstep
  · obtain ⟨out, -, rfl⟩ := Option.map_eq_some_iff.mp hstep
    unfold onSignIn
    split <;> rfl
  · obtain ⟨out, -, rfl⟩ := Option.map_eq_some_iff.mp hstep
    unfold onProfile
    split <;> rfl
  · obtain ⟨out, -, rfl⟩ := Option.map_eq_some_iff.mp hstep
    unfold onRedeem
    split <;> rfl
  · cases hstep

theorem mountedStep_boot {e : SpaEvent} (hstep : w.mountedStep roleOf e = some w') :
    w'.boot = w.boot := by
  cases e with
  | request path token =>
      simp only [mountedStep] at hstep
      split at hstep
      · rw [← Option.some.inj hstep]
        rfl
      · cases hstep
  | response i result => exact (answerCall_sameTab hstep).boot
  | refreshResponse r result => exact (answerRefresh_sameTab hstep).boot
  | refreshFinally r => exact (finishRefresh_sameTab hstep).boot
  | resume i => exact (resumeCall_sameTab hstep).boot
  | pageResume page => exact resumePage_boot hstep
  | logoutFinally =>
      simp only [mountedStep] at hstep
      split at hstep
      · rw [← Option.some.inj hstep]
        rfl
      · cases hstep
  | bootRefresh result => cases hstep
  | bootProfile result => cases hstep
  | _ =>
      obtain rfl := Option.some.inj hstep
      rfl

theorem bootStep_calls {e : SpaEvent} (hstep : w.bootStep roleOf e = some w') :
    w'.calls = w.calls := by
  cases e with
  | cookieChange cookie =>
      rw [← Option.some.inj hstep]
  | bootRefresh result =>
      simp only [bootStep] at hstep
      split at hstep
      · rename_i session hboot
        split at hstep
        · obtain ⟨cookie, hcookie⟩ := w.receiveSession_eq session result
          rw [← Option.some.inj hstep, hcookie]
          cases result <;> rfl
        · cases hstep
      · cases hstep
  | bootProfile result =>
      simp only [bootStep] at hstep
      split at hstep
      · split at hstep
        · rw [← Option.some.inj hstep]
          unfold onBootProfile
          split <;> rfl
        · cases hstep
      · cases hstep
  | _ => cases hstep

end Mounted

section Sample

/-- User 1 is a parent, user 2 a student. -/
def sampleRoleOf (user : Nat) : UserRole :=
  if user = 2 then .student else .parent

def sampleToken (user serial : Nat) : AccessToken where
  sub := user
  role := sampleRoleOf user
  serial := serial

/-- A reload with the session of user 1 restores the session. -/
def sampleBoot : List SpaEvent :=
  [.bootRefresh (.ok (sampleToken 1 0)),
    .bootProfile (.ok (.profile { userId := 1, role := .parent, email := "parent@mes.test" }))]

end Sample

end Mes.Web.Spa
