import Mes.Web.EventLoop

/-!
One call of `apiRequest`, with every way in which its fetches can end. On the
event loop a fetch that fails and a response whose text is no JSON look alike;
here they are kept apart, and the router is watched. The call is cut at its
awaits. Each piece finds the store that the rest of the tab has left to it, so
`apiRequest` takes the store of each piece as an argument. The pieces are those of
the event loop.

A refresh that fails otherwise than with an HTTP error neither drops the token
nor redirects, and a 401 whose text is no JSON does not even reject with an
`ApiError`.
-/

namespace Mes.Web

/-- The JSON value of a response: what a page makes of it, and its member `code`
if it is an object that has one. -/
structure ParsedBody where
  value : Body
  code : Option String
  deriving DecidableEq, Repr

/-- How a fetch ends. The text of a response may be no JSON. -/
inductive HttpOutcome where
  | failed
  | response (status : Nat) (body : Option ParsedBody)
  deriving DecidableEq, Repr

/-- The JSON value of the answer to a refresh: `null`, or its member `accessToken`. -/
inductive RefreshBody where
  | null
  | value (accessToken : Option AccessToken)
  deriving DecidableEq, Repr

inductive RefreshHttp where
  | failed
  | response (status : Nat) (body : Option RefreshBody)
  deriving DecidableEq, Repr

/-- `response.ok`. -/
def isOk (status : Nat) : Bool :=
  decide (200 ≤ status ∧ status < 300)

/-- The code of `buildErrorBody`. -/
def buildErrorBody (parsed : ParsedBody) : String :=
  parsed.code.getD "UNKNOWN_ERROR"

/-- What a piece of a call leaves behind: the store, and whether the router was sent
to the login page. -/
structure Tab where
  store : AuthStore
  redirected : Bool := false
  deriving DecidableEq

def dropTokenAndRedirect (store : AuthStore) : Tab where
  store := store.clear
  redirected := true

/-- How the promise of a refresh settles. -/
inductive Renewal where
  | token (accessToken : Option AccessToken)
  | apiError (status : Nat) (code : String)
  | rejected
  deriving DecidableEq, Repr

/-- `apiRequest` after its first response; without a settlement it goes on to the
silent refresh. -/
def onResponse (store : AuthStore) : HttpOutcome → Tab × Option Settlement
  | .failed => ({ store := store }, some .rejected)
  | .response _ none => ({ store := store }, some .rejected)
  | .response status (some parsed) =>
      if isOk status then ({ store := store }, some (.resolved parsed.value))
      else
        let errorBody := buildErrorBody parsed
        if status = 401 then
          if errorBody ≠ AUTH_TOKEN_EXPIRED then
            (dropTokenAndRedirect store, some (.apiError status errorBody))
          else ({ store := store }, none)
        else ({ store := store }, some (.apiError status errorBody))

/-- The `then` handler of `attemptSilentRefresh`. -/
def silentRefresh (store : AuthStore) : RefreshHttp → Tab × Renewal
  | .failed => ({ store := store }, .rejected)
  | .response status body =>
      if isOk status = false then
        (dropTokenAndRedirect store, .apiError status "REFRESH_FAILED")
      else
        match body with
        | none => ({ store := store }, .rejected)
        | some body =>
            if store.isLoggingOut then
              ({ store := store }, .apiError 401 "LOGOUT_IN_PROGRESS")
            else
              match body with
              | .null => ({ store := store }, .rejected)
              | .value accessToken =>
                  ({ store := .rebuildState accessToken store.storedUser store.isLoggingOut },
                    .token accessToken)

/-- `apiRequest` after the refresh; without a settlement it sends the retry. -/
def onRenewal (store : AuthStore) : Renewal → Option Settlement
  | .token _ =>
      if store.isLoggingOut then some (.apiError 401 AUTH_TOKEN_EXPIRED) else none
  | .apiError status code => some (.apiError status code)
  | .rejected => some (.apiError 401 AUTH_TOKEN_EXPIRED)

def executeRequestNoInterception (store : AuthStore) : HttpOutcome → Tab × Settlement
  | .failed => ({ store := store }, .rejected)
  | .response _ none => ({ store := store }, .rejected)
  | .response status (some parsed) =>
      if isOk status then ({ store := store }, .resolved parsed.value)
      else
        let tab := if status = 401 then dropTokenAndRedirect store else { store := store }
        (tab, .apiError status (buildErrorBody parsed))

/-- The stores that the pieces of a call find. -/
structure Stores where
  first : AuthStore
  refresh : AuthStore
  retry : AuthStore

/-- A call that has settled. -/
structure Done where
  settlement : Settlement
  tab : Tab
  retried : Bool
  deriving DecidableEq

/-- A whole call. The promise reactions of a refresh run without a task in
between, so the call goes on in the store that the refresh has left. -/
def apiRequest (stores : Stores) (first : HttpOutcome) (refresh : RefreshHttp)
    (retry : HttpOutcome) : Done :=
  match onResponse stores.first first with
  | (tab, some out) => { settlement := out, tab := tab, retried := false }
  | (_, none) =>
      let (tab, renewal) := silentRefresh stores.refresh refresh
      match onRenewal tab.store renewal with
      | some out => { settlement := out, tab := tab, retried := false }
      | none =>
          let (tab, out) := executeRequestNoInterception stores.retry retry
          { settlement := out, tab := tab, retried := true }

/-! ### The pieces on the event loop -/

/-- An outcome as the event loop sees it. -/
def HttpOutcome.decode : HttpOutcome → FetchResult
  | .failed => .failed
  | .response _ none => .failed
  | .response status (some parsed) =>
      if isOk status then .ok parsed.value else .error status (buildErrorBody parsed)

/-- The same for a refresh. The event loop knows no body without a token. -/
def RefreshHttp.decode : RefreshHttp → Option RefreshResult
  | .failed => some .failed
  | .response status body =>
      if isOk status = false then some (.error status)
      else
        match body with
        | none => some .failed
        | some (.value (some accessToken)) => some (.ok accessToken)
        | _ => none

namespace Spa

variable {w : Spa} {i r : Nat} {c : Call} {x : Refresh}

theorem onFirstResponse_piece (f : HttpOutcome) :
    (w.onFirstResponse i c f.decode).store = (onResponse w.store f).1.store ∧
      ∀ out, (onResponse w.store f).2 = some out →
        (w.onFirstResponse i c f.decode).calls =
          w.calls.set i { c with firstResult := some f.decode, phase := .settled out } := by
  cases f with
  | failed => simp [HttpOutcome.decode, onFirstResponse, onResponse, updateCall]
  | response status body =>
      cases body with
      | none => simp [HttpOutcome.decode, onFirstResponse, onResponse, updateCall]
      | some parsed =>
          simp only [HttpOutcome.decode, onResponse]
          cases isOk status with
          | true => simp [onFirstResponse, updateCall]
          | false =>
              by_cases hstatus : status = 401
              · by_cases hcode : buildErrorBody parsed = AUTH_TOKEN_EXPIRED
                · simp [onFirstResponse, hstatus, hcode, updateCall]
                · simp [onFirstResponse, hstatus, hcode, updateCall, Web.dropTokenAndRedirect,
                    Spa.dropTokenAndRedirect]
              · simp [onFirstResponse, hstatus, updateCall]

theorem onRetryResponse_piece (f : HttpOutcome) :
    (w.onRetryResponse i c f.decode).store =
        (executeRequestNoInterception w.store f).1.store ∧
      (w.onRetryResponse i c f.decode).calls = w.calls.set i
        { c with phase := .settled (executeRequestNoInterception w.store f).2 } := by
  cases f with
  | failed => exact ⟨rfl, rfl⟩
  | response status body =>
      cases body with
      | none => exact ⟨rfl, rfl⟩
      | some parsed =>
          simp only [HttpOutcome.decode, executeRequestNoInterception]
          cases isOk status with
          | true => exact ⟨rfl, rfl⟩
          | false =>
              by_cases hstatus : status = 401
              · simp [onRetryResponse, hstatus, updateCall, Web.dropTokenAndRedirect,
                  Spa.dropTokenAndRedirect]
              · simp [onRetryResponse, hstatus, updateCall]

/-- The outcome of a refresh as the event loop sees it. -/
def renewed : Renewal → Option RefreshOutcome
  | .token (some accessToken) => some (.token accessToken)
  | .token none => none
  | .apiError status code => some (.apiError status code)
  | .rejected => some .rejected

theorem onRefreshResponse_piece {f : RefreshHttp} {result : RefreshResult}
    (hdecode : f.decode = some result) :
    (w.onRefreshResponse r x result).store = (silentRefresh w.store f).1.store ∧
      ∃ out, renewed (silentRefresh w.store f).2 = some out ∧
        (w.onRefreshResponse r x result).refreshes =
          w.refreshes.set r { x with phase := .settled out } := by
  cases f with
  | failed =>
      rw [← Option.some.inj hdecode]
      exact ⟨rfl, _, rfl, rfl⟩
  | response status body =>
      simp only [RefreshHttp.decode] at hdecode
      simp only [silentRefresh]
      cases hok : isOk status with
      | false =>
          rw [hok, if_pos rfl] at hdecode
          rw [← Option.some.inj hdecode, if_pos rfl]
          exact ⟨rfl, _, rfl, rfl⟩
      | true =>
          rw [hok, if_neg (by simp)] at hdecode
          rw [if_neg (by simp)]
          match body, hdecode with
          | none, hdecode =>
              rw [← Option.some.inj hdecode]
              exact ⟨rfl, _, rfl, rfl⟩
          | some (.value (some accessToken)), hdecode =>
              rw [← Option.some.inj hdecode]
              simp only [onRefreshResponse]
              split
              · exact ⟨rfl, _, rfl, rfl⟩
              · exact ⟨rfl, _, rfl, rfl⟩

theorem onRefreshed_piece {renewal : Renewal} {out : RefreshOutcome}
    (hout : renewed renewal = some out) :
    (w.onRefreshed i c out).store = w.store ∧
      ∀ done, onRenewal w.store renewal = some done →
        (w.onRefreshed i c out).calls =
          w.calls.set i { c with seen := some out, phase := .settled done } := by
  match renewal, hout with
  | .token (some accessToken), hout =>
      rw [← Option.some.inj hout]
      simp only [onRenewal, onRefreshed]
      cases w.store.isLoggingOut with
      | true => simp [updateCall]
      | false => simp [updateCall]
  | .apiError status code, hout =>
      rw [← Option.some.inj hout]
      simp [onRenewal, onRefreshed, updateCall]
  | .rejected, hout =>
      rw [← Option.some.inj hout]
      simp [onRenewal, onRefreshed, updateCall]

end Spa

/-! ### The rule for a 401 -/

def HttpOutcome.status : HttpOutcome → Option Nat
  | .failed => none
  | .response status _ => some status

/-- A 401 whose text is no JSON. -/
def HttpOutcome.unreadable401 : HttpOutcome → Bool
  | .response status none => status == 401
  | _ => false

/-- The answer that starts a silent refresh. -/
def HttpOutcome.isExpired (f : HttpOutcome) : Bool :=
  f.decode.isExpired

/-- An HTTP error, a network failure, or a body from which no token can be read. -/
def RefreshHttp.fails : RefreshHttp → Bool
  | .failed => true
  | .response status (some (.value _)) => !isOk status
  | .response _ _ => true

def RefreshHttp.httpError : RefreshHttp → Bool
  | .failed => false
  | .response status _ => !isOk status

/-- The call rejects with an `ApiError`, and unless a logout is in progress there is
no token left and the router was sent to the login page. -/
def Done.SignsOut (done : Done) : Prop :=
  (∃ status code, done.settlement = .apiError status code) ∧
    (done.tab.store.isLoggingOut = true ∨
      done.tab.store.memoryToken = none ∧ done.tab.redirected = true)

/-- The rule that a call has to follow. -/
structure Follows401Rule (stores : Stores) (first : HttpOutcome) (refresh : RefreshHttp)
    (retry : HttpOutcome) : Prop where
  unauthorised : first.status = some 401 → first.isExpired = false →
    (apiRequest stores first refresh retry).SignsOut
  refreshFailed : first.isExpired = true → refresh.fails = true →
    (apiRequest stores first refresh retry).SignsOut
  retryUnauthorised : (apiRequest stores first refresh retry).retried = true →
    retry.status = some 401 → (apiRequest stores first refresh retry).SignsOut
  otherError : ∀ status, first.status = some status → isOk status = false → status ≠ 401 →
    (apiRequest stores first refresh retry).retried = false ∧
      (apiRequest stores first refresh retry).tab = { store := stores.first }

/-- The responses to which the rule is applied can be read, and a refresh that fails
does so with an HTTP error. -/
structure FailsLoudly (stores : Stores) (first : HttpOutcome) (refresh : RefreshHttp)
    (retry : HttpOutcome) : Prop where
  readable : first.unreadable401 = false
  httpError : first.isExpired = true → refresh.fails = true →
    refresh.httpError = true ∨ stores.refresh.isLoggingOut = true
  readableRetry : first.isExpired = true → refresh.fails = false →
    stores.refresh.isLoggingOut = false → retry.unreadable401 = false

section Rule

variable {stores : Stores} {refresh : RefreshHttp} {retry : HttpOutcome}

theorem isOk_401 : isOk 401 = false := by decide

theorem onResponse_401 {store : AuthStore} {parsed : ParsedBody}
    (hcode : buildErrorBody parsed ≠ AUTH_TOKEN_EXPIRED) :
    onResponse store (.response 401 (some parsed)) =
      (dropTokenAndRedirect store, some (.apiError 401 (buildErrorBody parsed))) := by
  simp [onResponse, isOk_401, hcode]

/-- A response that starts no refresh. -/
theorem apiRequest_settled (stores : Stores) (refresh : RefreshHttp) (retry : HttpOutcome)
    {first : HttpOutcome} (hnot : first.isExpired = false) :
    ∃ out, (onResponse stores.first first).2 = some out ∧
      apiRequest stores first refresh retry =
        { settlement := out, tab := (onResponse stores.first first).1, retried := false } := by
  have hsome : ∃ out, (onResponse stores.first first).2 = some out := by
    cases first with
    | failed => exact ⟨_, rfl⟩
    | response status body =>
        cases body with
        | none => exact ⟨_, rfl⟩
        | some parsed =>
            simp only [onResponse]
            simp only [HttpOutcome.isExpired, HttpOutcome.decode] at hnot
            cases hok : isOk status with
            | true => exact ⟨_, rfl⟩
            | false =>
                rw [hok] at hnot
                by_cases hstatus : status = 401
                · have hcode : buildErrorBody parsed ≠ AUTH_TOKEN_EXPIRED := by
                    simpa [FetchResult.isExpired, hstatus] using hnot
                  simp [hstatus, hcode]
                · simp [hstatus]
  obtain ⟨out, hout⟩ := hsome
  refine ⟨out, hout, ?_⟩
  unfold apiRequest
  rw [show onResponse stores.first first = ((onResponse stores.first first).1, some out) from
    Prod.ext rfl hout]

theorem onResponse_expired {first : HttpOutcome} (hexpired : first.isExpired = true) :
    onResponse stores.first first = ({ store := stores.first }, none) := by
  match first, hexpired with
  | .response status (some parsed), hexpired =>
      simp only [HttpOutcome.isExpired, HttpOutcome.decode] at hexpired
      cases hok : isOk status with
      | true =>
          rw [hok] at hexpired
          cases hexpired
      | false =>
          rw [hok] at hexpired
          obtain ⟨hstatus, hcode⟩ : status = 401 ∧ buildErrorBody parsed = AUTH_TOKEN_EXPIRED := by
            simpa [FetchResult.isExpired] using hexpired
          subst hstatus
          simp [onResponse, hok, hcode]

/-- A first 401 that starts no refresh signs out exactly when it can be read. -/
theorem unauthorised_iff {first : HttpOutcome} (hstatus : first.status = some 401)
    (hnot : first.isExpired = false) :
    (apiRequest stores first refresh retry).SignsOut ↔ first.unreadable401 = false := by
  obtain ⟨out, hout, hdone⟩ :=
    apiRequest_settled stores refresh retry hnot
  rw [hdone]
  match first, hstatus with
  | .response _ none, rfl =>
      simp only [onResponse, Option.some.injEq] at hout
      subst hout
      simp [Done.SignsOut, HttpOutcome.unreadable401]
  | .response _ (some parsed), rfl =>
      have hcode : buildErrorBody parsed ≠ AUTH_TOKEN_EXPIRED := by
        simpa [HttpOutcome.isExpired, HttpOutcome.decode, isOk_401, FetchResult.isExpired]
          using hnot
      rw [onResponse_401 hcode] at hout ⊢
      rw [← Option.some.inj hout]
      simp [Done.SignsOut, HttpOutcome.unreadable401, dropTokenAndRedirect, AuthStore.clear,
        AuthStore.rebuildState]

/-- What a call goes on to after an expired token. -/
theorem apiRequest_expired {first : HttpOutcome} (hexpired : first.isExpired = true) :
    apiRequest stores first refresh retry =
      match onRenewal (silentRefresh stores.refresh refresh).1.store
        (silentRefresh stores.refresh refresh).2 with
      | some out =>
          { settlement := out, tab := (silentRefresh stores.refresh refresh).1, retried := false }
      | none =>
          { settlement := (executeRequestNoInterception stores.retry retry).2
            tab := (executeRequestNoInterception stores.retry retry).1
            retried := true } := by
  unfold apiRequest
  rw [onResponse_expired hexpired]

/-- A refresh that fails signs out exactly when it fails with an HTTP error, or during
a logout. -/
theorem refreshFailed_iff {first : HttpOutcome} (hexpired : first.isExpired = true)
    (hfails : refresh.fails = true) :
    (apiRequest stores first refresh retry).SignsOut ↔
      refresh.httpError = true ∨ stores.refresh.isLoggingOut = true := by
  rw [apiRequest_expired hexpired]
  match refresh, hfails with
  | .failed, _ => simp [silentRefresh, onRenewal, Done.SignsOut, RefreshHttp.httpError]
  | .response status body, hfails =>
      cases hok : isOk status with
      | false =>
          simp [silentRefresh, hok, onRenewal, Done.SignsOut, RefreshHttp.httpError,
            dropTokenAndRedirect, AuthStore.clear, AuthStore.rebuildState]
      | true =>
          match body, hfails with
          | none, _ =>
              simp [silentRefresh, hok, onRenewal, Done.SignsOut, RefreshHttp.httpError]
          | some .null, _ =>
              cases hflag : stores.refresh.isLoggingOut with
              | true =>
                  simp [silentRefresh, hok, hflag, onRenewal, Done.SignsOut]
              | false =>
                  simp [silentRefresh, hok, hflag, onRenewal, Done.SignsOut,
                    RefreshHttp.httpError]
          | some (.value _), hfails => simp [RefreshHttp.fails, hok] at hfails

/-- After a refresh that gives a token, the request is sent again unless a logout is in
progress. -/
theorem apiRequest_renewed (stores : Stores) (retry : HttpOutcome) {first : HttpOutcome}
    (hexpired : first.isExpired = true)
    (hgiven : refresh.fails = false) :
    (apiRequest stores first refresh retry).retried = !stores.refresh.isLoggingOut ∧
      (stores.refresh.isLoggingOut = false → apiRequest stores first refresh retry =
        { settlement := (executeRequestNoInterception stores.retry retry).2
          tab := (executeRequestNoInterception stores.retry retry).1
          retried := true }) := by
  rw [apiRequest_expired hexpired]
  match refresh, hgiven with
  | .response status (some (.value accessToken)), hgiven =>
      have hok : isOk status = true := by simpa [RefreshHttp.fails] using hgiven
      cases hflag : stores.refresh.isLoggingOut with
      | true => simp [silentRefresh, hok, hflag, onRenewal]
      | false => simp [silentRefresh, hok, hflag, onRenewal, AuthStore.rebuildState]

/-- A refresh that fails is never followed by a retry. -/
theorem not_retried_of_fails {first : HttpOutcome} (hexpired : first.isExpired = true)
    (hfails : refresh.fails = true) :
    (apiRequest stores first refresh retry).retried = false := by
  rw [apiRequest_expired hexpired]
  match refresh, hfails with
  | .failed, _ => rfl
  | .response status body, hfails =>
      cases hok : isOk status with
      | false => simp [silentRefresh, hok, onRenewal]
      | true =>
          match body, hfails with
          | none, _ => simp [silentRefresh, hok, onRenewal]
          | some .null, _ =>
              cases hflag : stores.refresh.isLoggingOut with
              | true => simp [silentRefresh, hok, hflag, onRenewal]
              | false => simp [silentRefresh, hok, hflag, onRenewal]
          | some (.value _), hfails => simp [RefreshHttp.fails, hok] at hfails

/-- A retry that is answered 401 signs out exactly when the answer can be read. -/
theorem retryUnauthorised_iff {store : AuthStore} (hstatus : retry.status = some 401) :
    Done.SignsOut { settlement := (executeRequestNoInterception store retry).2
                    tab := (executeRequestNoInterception store retry).1
                    retried := true } ↔ retry.unreadable401 = false := by
  match retry, hstatus with
  | .response _ none, rfl =>
      simp [executeRequestNoInterception, Done.SignsOut, HttpOutcome.unreadable401]
  | .response _ (some parsed), rfl =>
      simp [executeRequestNoInterception, isOk_401, Done.SignsOut, HttpOutcome.unreadable401,
        dropTokenAndRedirect, AuthStore.clear, AuthStore.rebuildState]

theorem HttpOutcome.status_of_unreadable {f : HttpOutcome} (hunreadable : f.unreadable401 = true) :
    f.status = some 401 ∧ f.isExpired = false := by
  match f, hunreadable with
  | .response status none, hunreadable =>
      have hstatus : status = 401 := by simpa [HttpOutcome.unreadable401] using hunreadable
      subst hstatus
      exact ⟨rfl, rfl⟩

/-- Any other error is passed on, and nothing else happens. -/
theorem otherError_kept {first : HttpOutcome} {status : Nat} (hstatus : first.status = some status)
    (hok : isOk status = false) (hother : status ≠ 401) :
    (apiRequest stores first refresh retry).retried = false ∧
      (apiRequest stores first refresh retry).tab = { store := stores.first } := by
  match first, hstatus with
  | .response _ none, rfl => exact ⟨rfl, rfl⟩
  | .response _ (some parsed), rfl => simp [apiRequest, onResponse, hok, hother]

/-- A call follows the rule for a 401 exactly when its failures can be read and its
refresh, if it fails, fails with an HTTP error or during a logout. -/
theorem follows401Rule_iff (stores : Stores) (first : HttpOutcome) (refresh : RefreshHttp)
    (retry : HttpOutcome) :
    Follows401Rule stores first refresh retry ↔ FailsLoudly stores first refresh retry := by
  constructor
  · intro hrule
    constructor
    · by_contra hunreadable
      obtain ⟨hstatus, hnot⟩ :=
        HttpOutcome.status_of_unreadable (Bool.eq_true_of_not_eq_false hunreadable)
      exact hunreadable ((unauthorised_iff hstatus hnot).mp (hrule.unauthorised hstatus hnot))
    · intro hexpired hfails
      exact (refreshFailed_iff hexpired hfails).mp (hrule.refreshFailed hexpired hfails)
    · intro hexpired hgiven hflag
      by_contra hunreadable
      obtain ⟨hstatus, -⟩ :=
        HttpOutcome.status_of_unreadable (Bool.eq_true_of_not_eq_false hunreadable)
      obtain ⟨hretried, hdone⟩ :=
        apiRequest_renewed stores retry hexpired hgiven
      have hsigns := hrule.retryUnauthorised (by rw [hretried, hflag]; rfl) hstatus
      rw [hdone hflag] at hsigns
      exact hunreadable ((retryUnauthorised_iff hstatus).mp hsigns)
  · intro hloud
    constructor
    · intro hstatus hnot
      exact (unauthorised_iff hstatus hnot).mpr hloud.readable
    · intro hexpired hfails
      exact (refreshFailed_iff hexpired hfails).mpr (hloud.httpError hexpired hfails)
    · intro hretried hstatus
      have hexpired : first.isExpired = true := by
        by_contra hnot
        obtain ⟨out, -, hdone⟩ := apiRequest_settled stores refresh retry
          (Bool.eq_false_of_not_eq_true hnot)
        rw [hdone] at hretried
        cases hretried
      have hgiven : refresh.fails = false := by
        by_contra hfails
        rw [not_retried_of_fails hexpired (Bool.eq_true_of_not_eq_false hfails)] at hretried
        cases hretried
      obtain ⟨hsent, hdone⟩ :=
        apiRequest_renewed stores retry hexpired hgiven
      have hflag : stores.refresh.isLoggingOut = false := by
        rw [hsent] at hretried
        simpa using hretried
      rw [hdone hflag]
      exact (retryUnauthorised_iff hstatus).mpr (hloud.readableRetry hexpired hgiven hflag)
    · intro status hstatus hok hother
      exact otherError_kept hstatus hok hother

/-- A session whose token has expired, and a refresh that does not reach the server. -/
theorem refresh_unreachable : ∃ stores first refresh retry,
    first.isExpired = true ∧ refresh.fails = true ∧
      stores.refresh.isLoggingOut = false ∧
      ¬ Follows401Rule stores first refresh retry := by
  let signedIn := AuthStore.initial.setToken { sub := 0, role := .parent, serial := 0 }
  refine ⟨⟨signedIn, signedIn, signedIn⟩,
    .response 401 (some { value := .data, code := some AUTH_TOKEN_EXPIRED }), .failed, .failed,
    by decide, rfl, rfl, fun hrule => ?_⟩
  obtain ⟨-, hflag | ⟨hnone, -⟩⟩ := hrule.refreshFailed (by decide) rfl
  · revert hflag
    decide
  · revert hnone
    decide

end Rule

end Mes.Web
