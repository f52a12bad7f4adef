import Mes.Web.AuthStore
import Mes.Transact.Machine

/-!
`apiClient` on the event loop of one browser tab, with the pages that call it.
A handler runs to its next await in one piece; between two pieces anything else
may run. An `apiRequest` waits for its fetch, then perhaps for the shared silent
refresh and for the fetch of its retry. The promise of a refresh settles in its
`then` handler, and only the `finally` after it clears `inFlightRefresh` and
releases the calls that wait, each of which resumes in a piece of its own.

The reading of a body is part of the response: nothing happens between the two
that reads or writes anything. The router is left out. `roleOf` is the role that
the server has on record for a user; a response that the server cannot give is
no event. For proofs a call remembers how many logouts had ended when it
started, a refresh when the call that started it did, and a call what it has
sent and seen.
-/

namespace Mes.Web

/-- What a request is for, as far as a page continues with its answer. -/
inductive Endpoint where
  | login
  | signup
  | me
  | redeem
  | other (path : String)
  deriving DecidableEq, Repr

inductive Body where
  | token (accessToken : AccessToken)
  | profile (user : StoredUser)
  | data
  deriving DecidableEq, Repr

/-- A response with its parsed body, or a fetch or a parse that failed. The code
of an error is that of `buildErrorBody`. -/
inductive FetchResult where
  | ok (body : Body)
  | error (status : Nat) (code : String)
  | failed
  deriving DecidableEq, Repr

def AUTH_TOKEN_EXPIRED : String := "AUTH_TOKEN_EXPIRED"

/-- The only answer that starts a silent refresh. -/
def FetchResult.isExpired : FetchResult → Bool
  | .error status code => status == 401 && code == AUTH_TOKEN_EXPIRED
  | _ => false

/-- How the promise of an `apiRequest` settles: `rejected` with an error that is
no `ApiError`. -/
inductive Settlement where
  | resolved (body : Body)
  | apiError (status : Nat) (code : String)
  | rejected
  deriving DecidableEq, Repr

inductive RefreshResult where
  | ok (accessToken : AccessToken)
  | error (status : Nat)
  | failed
  deriving DecidableEq, Repr

/-- How the promise of a refresh settles. -/
inductive RefreshOutcome where
  | token (accessToken : AccessToken)
  | apiError (status : Nat) (code : String)
  | rejected
  deriving DecidableEq, Repr

inductive CallPhase where
  | fetching
  | awaiting (refresh : Nat)
  | retrying (newToken : AccessToken)
  | settled (out : Settlement)
  deriving DecidableEq, Repr

structure Call where
  endpoint : Endpoint
  token : Option AccessToken
  startedAt : Nat
  phase : CallPhase := .fetching
  sends : List (Option AccessToken) := [token]
  firstResult : Option FetchResult := none
  awaited : List Nat := []
  seen : Option RefreshOutcome := none
  deriving DecidableEq, Repr

inductive RefreshPhase where
  | fetching
  | settled (out : RefreshOutcome)
  | done (out : RefreshOutcome)
  deriving DecidableEq, Repr

/-- `session` is the user of the refresh cookie that the request was sent with. -/
structure Refresh where
  session : Option Nat
  startedAt : Nat
  phase : RefreshPhase := .fetching
  deriving DecidableEq, Repr

/-- A form that has been submitted, by what it waits for. -/
inductive Page where
  | signIn (call : Nat)
  | profile (call : Nat) (accessToken : AccessToken)
  | redeem (call : Nat) (studentEmail : String)
  | finished
  deriving DecidableEq, Repr

inductive Boot where
  | refreshing (session : Option Nat)
  | loadingProfile (accessToken : AccessToken)
  | ready
  deriving DecidableEq, Repr

structure Spa where
  store : AuthStore := .initial
  inFlightRefresh : Option Nat := none
  calls : List Call := []
  refreshes : List Refresh := []
  pages : List Page := []
  boot : Boot
  /-- The user of the browser's refresh cookie. -/
  cookie : Option Nat
  /-- Logouts under way. -/
  logouts : Nat := 0
  /-- Logouts whose `finally` block has run. -/
  epoch : Nat := 0
  deriving DecidableEq

inductive SpaEvent where
  /-- A page that is mounted calls `apiRequest`. -/
  | request (path : String) (token : Option AccessToken)
  /-- The answer to the fetch that a call waits for, the first or the retry's. -/
  | response (call : Nat) (result : FetchResult)
  | refreshResponse (refresh : Nat) (result : RefreshResult)
  | refreshFinally (refresh : Nat)
  | resume (call : Nat)
  | submitLogin
  | submitSignup
  | submitRedeem (studentEmail : String)
  | pageResume (page : Nat)
  | logoutClick
  | logoutFinally
  /-- Another tab, or the server's answer to a logout, changes the cookie. -/
  | cookieChange (cookie : Option Nat)
  | bootRefresh (result : RefreshResult)
  | bootProfile (result : FetchResult)
  deriving DecidableEq, Repr

namespace Spa

variable (w : Spa)

/-- The page has just been loaded; the boot sequence has sent its refresh. -/
def load (cookie : Option Nat) : Spa where
  boot := .refreshing cookie
  cookie := cookie

def updateCall (i : Nat) (c : Call) : Spa :=
  { w with calls := w.calls.set i c }

def updateRefresh (r : Nat) (x : Refresh) : Spa :=
  { w with refreshes := w.refreshes.set r x }

def updatePage (i : Nat) (page : Page) : Spa :=
  { w with pages := w.pages.set i page }

/-- `apiRequest` up to its first await. -/
def startCall (endpoint : Endpoint) (token : Option AccessToken) : Spa :=
  { w with calls := w.calls ++ [{ endpoint := endpoint, token := token, startedAt := w.epoch }] }

def dropTokenAndRedirect : Spa :=
  { w with store := w.store.clear }

/-- The refresh to wait for: the one in flight, or a new one. -/
def attemptSilentRefresh (startedAt : Nat) : Nat × Spa :=
  match w.inFlightRefresh with
  | some r => (r, w)
  | none =>
      (w.refreshes.length,
        { w with
          inFlightRefresh := some w.refreshes.length
          refreshes := w.refreshes ++ [{ session := w.cookie, startedAt := startedAt }] })

/-- `apiRequest` after its first response. -/
def onFirstResponse (i : Nat) (c : Call) (result : FetchResult) : Spa :=
  let c := { c with firstResult := some result }
  match result with
  | .failed => w.updateCall i { c with phase := .settled .rejected }
  | .ok body => w.updateCall i { c with phase := .settled (.resolved body) }
  | .error status code =>
      if status = 401 then
        if code ≠ AUTH_TOKEN_EXPIRED then
          w.dropTokenAndRedirect.updateCall i
            { c with phase := .settled (.apiError status code) }
        else
          let (r, w') := w.attemptSilentRefresh c.startedAt
          w'.updateCall i { c with phase := .awaiting r, awaited := c.awaited ++ [r] }
      else w.updateCall i { c with phase := .settled (.apiError status code) }

/-- `apiRequest` after the refresh it waited for. -/
def onRefreshed (i : Nat) (c : Call) (out : RefreshOutcome) : Spa :=
  let c := { c with seen := some out }
  match out with
  | .token newToken =>
      if w.store.isLoggingOut then
        w.updateCall i { c with phase := .settled (.apiError 401 AUTH_TOKEN_EXPIRED) }
      else
        w.updateCall i
          { c with phase := .retrying newToken, sends := c.sends ++ [some newToken] }
  | .apiError status code =>
      w.updateCall i { c with phase := .settled (.apiError status code) }
  | .rejected =>
      w.updateCall i { c with phase := .settled (.apiError 401 AUTH_TOKEN_EXPIRED) }

/-- `executeRequestNoInterception` after its response. -/
def onRetryResponse (i : Nat) (c : Call) (result : FetchResult) : Spa :=
  match result with
  | .failed => w.updateCall i { c with phase := .settled .rejected }
  | .ok body => w.updateCall i { c with phase := .settled (.resolved body) }
  | .error status code =>
      let w' := if status = 401 then w.dropTokenAndRedirect else w
      w'.updateCall i { c with phase := .settled (.apiError status code) }

/-- The `then` handler of `attemptSilentRefresh`. -/
def onRefreshResponse (r : Nat) (x : Refresh) (result : RefreshResult) : Spa :=
  match result with
  | .failed => w.updateRefresh r { x with phase := .settled .rejected }
  | .error status =>
      w.dropTokenAndRedirect.updateRefresh r
        { x with phase := .settled (.apiError status "REFRESH_FAILED") }
  | .ok accessToken =>
      if w.store.isLoggingOut then
        w.updateRefresh r { x with phase := .settled (.apiError 401 "LOGOUT_IN_PROGRESS") }
      else
        { w with store := w.store.setToken accessToken }.updateRefresh r
          { x with phase := .settled (.token accessToken) }

/-- The `finally` handler of `attemptSilentRefresh`. -/
def onRefreshFinally (r : Nat) (x : Refresh) (out : RefreshOutcome) : Spa :=
  { w with inFlightRefresh := none }.updateRefresh r { x with phase := .done out }

/-- `onSubmit` of the login and signup pages after an await. -/
def onSignIn (page : Nat) (out : Settlement) : Spa :=
  match out with
  | .resolved (.token accessToken) =>
      (w.startCall .me (some accessToken)).updatePage page
        (.profile w.calls.length accessToken)
  | _ => w.updatePage page .finished

def onProfile (page : Nat) (accessToken : AccessToken) (out : Settlement) : Spa :=
  match out with
  | .resolved (.profile user) =>
      let next : AuthState :=
        { accessToken := accessToken
          userId := user.userId
          role := user.role
          email := user.email }
      { w with store := AuthStore.setState next }.updatePage page .finished
  | _ => w.updatePage page .finished

/-- `onRedeemSuccess`: the user's data are the claims of the token. -/
def onRedeem (page : Nat) (studentEmail : String) (out : Settlement) : Spa :=
  match out with
  | .resolved (.token accessToken) =>
      let next : AuthState :=
        { accessToken := accessToken
          userId := accessToken.sub
          role := accessToken.role
          email := studentEmail }
      { w with store := AuthStore.setState next }.updatePage page .finished
  | _ => w.updatePage page .finished

def submit (endpoint : Endpoint) (page : Nat → Page) : Spa :=
  { w.startCall endpoint none with pages := w.pages ++ [page w.calls.length] }

/-- `handleLogout` up to its network call. -/
def onLogoutClick : Spa :=
  { w with store := w.store.setIsLoggingOut true, logouts := w.logouts + 1 }

/-- The `finally` block of `handleLogout`. -/
def onLogoutFinally : Spa :=
  { w with
    store := w.store.clear.setIsLoggingOut false
    logouts := w.logouts - 1
    epoch := w.epoch + 1 }

/-- A login or a signup sets the refresh cookie, a redemption does not. -/
def receiveCookie (endpoint : Endpoint) (result : FetchResult) : Spa :=
  match endpoint, result with
  | .login, .ok (.token accessToken) => { w with cookie := some accessToken.sub }
  | .signup, .ok (.token accessToken) => { w with cookie := some accessToken.sub }
  | _, _ => w

/-- A refresh sets the cookie to the successor of the session it was sent with. -/
def receiveSession (session : Option Nat) (result : RefreshResult) : Spa :=
  match result with
  | .ok _ => { w with cookie := session }
  | _ => w

/-- The boot sequence after its refresh. -/
def onBootRefresh (result : RefreshResult) : Spa :=
  match result with
  | .failed => { w with store := w.store.clear, boot := .ready }
  | .error _ => { w with boot := .ready }
  | .ok accessToken =>
      { w with store := w.store.setToken accessToken, boot := .loadingProfile accessToken }

def onBootProfile (result : FetchResult) : Spa :=
  match result with
  | .ok (.profile user) => { w with store := w.store.setUser user, boot := .ready }
  | _ => { w with store := w.store.clear, boot := .ready }

section Server

variable (roleOf : Nat → UserRole)

/-- A token that the server has issued. -/
def issued (token : AccessToken) : Bool :=
  token.role == roleOf token.sub

/-- Whether the server can give this answer to a request sent with `token`. -/
def serves (endpoint : Endpoint) (token : Option AccessToken) : FetchResult → Bool
  | .ok (.token accessToken) =>
      (endpoint == .login || endpoint == .signup || endpoint == .redeem) &&
        issued roleOf accessToken
  | .ok (.profile user) =>
      endpoint == .me && token.any (fun t => user.userId == t.sub) &&
        user.role == roleOf user.userId
  | .ok .data => !(endpoint == .login || endpoint == .signup || endpoint == .redeem ||
      endpoint == .me)
  | _ => true

/-- A refresh answers for the session of the cookie it was sent with. -/
def servesRefresh (session : Option Nat) : RefreshResult → Bool
  | .ok accessToken => session == some accessToken.sub && issued roleOf accessToken
  | _ => true

/-- The answer to the fetch that a call waits for. -/
def answerCall (i : Nat) (result : FetchResult) : Option Spa :=
  match w.calls[i]? with
  | none => none
  | some c =>
      match c.phase with
      | .fetching =>
          if serves roleOf c.endpoint c.token result then
            some ((w.receiveCookie c.endpoint result).onFirstResponse i c result)
          else none
      | .retrying newToken =>
          if serves roleOf c.endpoint (some newToken) result then
            some ((w.receiveCookie c.endpoint result).onRetryResponse i c result)
          else none
      | _ => none

def answerRefresh (r : Nat) (result : RefreshResult) : Option Spa :=
  match w.refreshes[r]? with
  | none => none
  | some x =>
      if x.phase = .fetching ∧ servesRefresh roleOf x.session result then
        some ((w.receiveSession x.session result).onRefreshResponse r x result)
      else none

end Server

def finishRefresh (r : Nat) : Option Spa :=
  match w.refreshes[r]? with
  | none => none
  | some x =>
      match x.phase with
      | .settled out => some (w.onRefreshFinally r x out)
      | _ => none

def resumeCall (i : Nat) : Option Spa :=
  match w.calls[i]? with
  | none => none
  | some c =>
      match c.phase with
      | .awaiting r =>
          match (w.refreshes[r]?).map Refresh.phase with
          | some (.done out) => some (w.onRefreshed i c out)
          | _ => none
      | _ => none

/-- How a call has settled, if it has. -/
def settlement (call : Nat) : Option Settlement :=
  match (w.calls[call]?).map Call.phase with
  | some (.settled out) => some out
  | _ => none

def resumePage (page : Nat) : Option Spa :=
  match w.pages[page]? with
  | some (.signIn call) => (w.settlement call).map (w.onSignIn page)
  | some (.profile call accessToken) =>
      (w.settlement call).map (w.onProfile page accessToken)
  | some (.redeem call studentEmail) =>
      (w.settlement call).map (w.onRedeem page studentEmail)
  | _ => none

section Steps

variable (roleOf : Nat → UserRole)

/-- The events once the application is mounted. -/
def mountedStep : SpaEvent → Option Spa
  | .request path token =>
      if token.all (issued roleOf) then some (w.startCall (.other path) token) else none
  | .response i result => w.answerCall roleOf i result
  | .refreshResponse r result => w.answerRefresh roleOf r result
  | .refreshFinally r => w.finishRefresh r
  | .resume i => w.resumeCall i
  | .submitLogin => some (w.submit .login .signIn)
  | .submitSignup => some (w.submit .signup .signIn)
  | .submitRedeem studentEmail =>
      some (w.submit .redeem fun call => .redeem call studentEmail)
  | .pageResume page => w.resumePage page
  | .logoutClick => some w.onLogoutClick
  | .logoutFinally => if 0 < w.logouts then some w.onLogoutFinally else none
  | .cookieChange cookie => some { w with cookie := cookie }
  | .bootRefresh _ => none
  | .bootProfile _ => none

/-- The events of the boot sequence and of other tabs. -/
def bootStep : SpaEvent → Option Spa
  | .cookieChange cookie => some { w with cookie := cookie }
  | .bootRefresh result =>
      match w.boot with
      | .refreshing session =>
          if servesRefresh roleOf session result then
            some ((w.receiveSession session result).onBootRefresh result)
          else none
      | _ => none
  | .bootProfile result =>
      match w.boot with
      | .loadingProfile accessToken =>
          if serves roleOf .me (some accessToken) result then some (w.onBootProfile result)
          else none
      | _ => none
  | _ => none

def step (w : Spa) (e : SpaEvent) : Option Spa :=
  if w.boot = .ready then w.mountedStep roleOf e else w.bootStep roleOf e

end Steps

end Spa

end Mes.Web
