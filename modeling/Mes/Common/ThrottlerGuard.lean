import Mes.Backend

/-!
The global throttler guard: which bucket a request is counted in. The two guard
classes are translated as they stand; passport and the storage of the throttler
are not part of the repository, so the verification of a token is a parameter
and the throttler appears only through the limit that it respects.

Guards run in the order of their registration, and `request.user` is what an
earlier guard has left there. The throttler comes first.
-/

namespace Mes

/-- The value of a header or of a cookie. -/
inductive HeaderValue where
  | one (text : String)
  | many (texts : List String)
  deriving DecidableEq, Repr

inductive Route where
  | signup
  | login
  | refresh
  | logout
  | other (path : String) (isPublic : Bool)
  deriving DecidableEq, Repr

/-- What the guards read of a request. `ip` is the address that the framework
takes from the trusted proxy. -/
structure HttpRequest where
  route : Route
  cookies : List (String × HeaderValue) := []
  headers : List (String × HeaderValue) := []
  ip : Option String
  authorization : Option String := none
  deriving DecidableEq, Repr

structure AuthenticatedUser where
  id : Nat
  role : UserRole
  deriving DecidableEq, Repr

def THROTTLE_DEFAULT_LIMIT : Nat := 60

def THROTTLE_LOGIN_LIMIT : Nat := 5

def REFRESH_COOKIE_NAME : String := "mes_rt"

def Route.isPublic : Route → Bool
  | .signup | .login | .refresh | .logout => true
  | .other _ isPublic => isPublic

/-- The limit of the throttler named `default`. -/
def Route.limit : Route → Nat
  | .login => THROTTLE_LOGIN_LIMIT
  | _ => THROTTLE_DEFAULT_LIMIT

def lookup (name : String) (entries : List (String × HeaderValue)) : Option HeaderValue :=
  (entries.find? fun entry => entry.1 == name).map Prod.snd

/-- `text.split(',')[0]`. -/
def beforeComma (text : String) : String :=
  String.ofList (text.toList.takeWhile fun c => c != ',')

namespace ProxyAwareThrottlerGuard

/-- The first `X-Forwarded-For` hop, when it is not blank. -/
def forwardedHop (rt : Runtime) (req : HttpRequest) : Option String :=
  let firstHop :=
    match lookup "x-forwarded-for" req.headers with
    | none => none
    | some (.many texts) => texts.head?
    | some (.one text) => if text = "" then none else some (beforeComma text)
  (firstHop.map rt.trim).filter fun hop => hop != ""

def getTracker (rt : Runtime) (user : Option AuthenticatedUser) (req : HttpRequest) :
    String :=
  match user with
  | some user => "user:" ++ toString user.id
  | none =>
      match forwardedHop rt req with
      | some hop => hop
      | none => req.ip.getD "unknown"

end ProxyAwareThrottlerGuard

namespace CookieAwareThrottlerGuard

/-- The refresh cookie, when it is a text that is not empty. -/
def sessionCookie (req : HttpRequest) : Option String :=
  match lookup REFRESH_COOKIE_NAME req.cookies with
  | some (.one text) => if text = "" then none else some text
  | _ => none

def getTracker (rt : Runtime) (user : Option AuthenticatedUser) (req : HttpRequest) :
    String :=
  match sessionCookie req with
  | some rawCookie => "cookie:" ++ rawCookie
  | none => ProxyAwareThrottlerGuard.getTracker rt user req

end CookieAwareThrottlerGuard

inductive AppGuard where
  | throttler
  | jwtAuth
  | roles
  deriving DecidableEq, Repr

/-- The `APP_GUARD` providers of `AppModule`, in the order of registration. -/
def APP_GUARDS : List AppGuard := [.throttler, .jwtAuth, .roles]

section Guards

variable (rt : Runtime) (verify : String → Option AuthenticatedUser)

/-- The user of a valid access token. -/
def authenticated (req : HttpRequest) : Option AuthenticatedUser :=
  req.authorization.bind verify

/-- `request.user` after a guard has let the request pass. -/
def AppGuard.attach (req : HttpRequest) (user : Option AuthenticatedUser) :
    AppGuard → Option AuthenticatedUser
  | .jwtAuth => if req.route.isPublic then user else authenticated verify req
  | _ => user

/-- `request.user` when the throttler's turn comes. -/
def userAtThrottler (req : HttpRequest) :
    List AppGuard → Option AuthenticatedUser → Option AuthenticatedUser
  | [], user => user
  | .throttler :: _, user => user
  | guard :: rest, user =>
      userAtThrottler req rest (AppGuard.attach verify req user guard)

/-- The bucket that the global throttler guard counts a request in. -/
def tracker (req : HttpRequest) : String :=
  CookieAwareThrottlerGuard.getTracker rt (userAtThrottler verify req APP_GUARDS none) req

/-- The bucket that belongs to a request: that of its authenticated user, else
that of the address of its client. -/
def rightful (req : HttpRequest) : String :=
  match authenticated verify req with
  | some user => "user:" ++ toString user.id
  | none => req.ip.getD "unknown"

/-- Nothing that the client made up decides the bucket. -/
def Untampered (req : HttpRequest) : Prop :=
  CookieAwareThrottlerGuard.sessionCookie req = none ∧
    (ProxyAwareThrottlerGuard.forwardedHop rt req = some (rightful verify req) ∨
      ProxyAwareThrottlerGuard.forwardedHop rt req = none ∧
        authenticated verify req = none)

/-- A request with the throttler's verdict on it. -/
structure Hit where
  request : HttpRequest
  admitted : Bool

/-- In one window the throttler admits at most `limit` requests of a route for
each bucket. -/
def RespectsLimit (window : List Hit) : Prop :=
  ∀ (bucket : String) (route : Route),
    (window.filter fun hit => hit.admitted && decide (hit.request.route = route) &&
      (tracker rt verify hit.request == bucket)).length ≤ route.limit

/-- The login attempts of a window that passed the guard. -/
def admittedLogins (window : List Hit) : List Hit :=
  window.filter fun hit => hit.admitted && decide (hit.request.route = .login)

end Guards

section Trackers

variable {rt : Runtime} {verify : String → Option AuthenticatedUser}

/-- No guard has authenticated anybody before the throttler. -/
theorem userAtThrottler_appGuards (req : HttpRequest) :
    userAtThrottler verify req APP_GUARDS none = none := rfl

theorem tracker_of_cookie {req : HttpRequest} {rawCookie : String}
    (hcookie : CookieAwareThrottlerGuard.sessionCookie req = some rawCookie) :
    tracker rt verify req = "cookie:" ++ rawCookie := by
  simp only [tracker, CookieAwareThrottlerGuard.getTracker, hcookie]

/-- Without a cookie the first hop decides, whoever is authenticated. -/
theorem tracker_of_no_cookie {req : HttpRequest}
    (hcookie : CookieAwareThrottlerGuard.sessionCookie req = none) :
    tracker rt verify req =
      (ProxyAwareThrottlerGuard.forwardedHop rt req).getD (req.ip.getD "unknown") := by
  simp only [tracker, CookieAwareThrottlerGuard.getTracker, hcookie,
    userAtThrottler_appGuards, ProxyAwareThrottlerGuard.getTracker]
  cases ProxyAwareThrottlerGuard.forwardedHop rt req <;> rfl

theorem rightful_of_user {req : HttpRequest} {user : AuthenticatedUser}
    (huser : authenticated verify req = some user) :
    rightful verify req = "user:" ++ toString user.id := by
  simp only [rightful, huser]

theorem rightful_of_nobody {req : HttpRequest} (hnobody : authenticated verify req = none) :
    rightful verify req = req.ip.getD "unknown" := by
  simp only [rightful, hnobody]

/-- The text of an address begins neither as a cookie's bucket nor as a user's. -/
def AddressText (text : String) : Prop :=
  ∀ rest, text ≠ "cookie:" ++ rest ∧ text ≠ "user:" ++ rest

theorem cookie_not_rightful {req : HttpRequest} (haddress : AddressText (req.ip.getD "unknown"))
    (rawCookie : String) : "cookie:" ++ rawCookie ≠ rightful verify req := by
  cases huser : authenticated verify req with
  | none =>
      rw [rightful_of_nobody huser]
      exact fun heq => (haddress rawCookie).1 heq.symm
  | some user =>
      rw [rightful_of_user huser]
      intro heq
      have hchars := congrArg String.toList heq
      simp at hchars

/-- A request is counted in its rightful bucket exactly when nothing that the
client made up decides. -/
theorem tracker_rightful_iff {req : HttpRequest}
    (haddress : AddressText (req.ip.getD "unknown")) :
    tracker rt verify req = rightful verify req ↔ Untampered rt verify req := by
  cases hcookie : CookieAwareThrottlerGuard.sessionCookie req with
  | some rawCookie =>
      rw [tracker_of_cookie hcookie]
      constructor
      · exact fun heq => absurd heq (cookie_not_rightful haddress rawCookie)
      · rintro ⟨hnone, -⟩
        rw [hcookie] at hnone
        cases hnone
  | none =>
      rw [tracker_of_no_cookie hcookie, Untampered]
      cases hhop : ProxyAwareThrottlerGuard.forwardedHop rt req with
      | some hop => simp [hcookie]
      | none =>
          cases huser : authenticated verify req with
          | none => simp [hcookie, rightful_of_nobody huser]
          | some user =>
              have hother : req.ip.getD "unknown" ≠ "user:" ++ toString user.id :=
                (haddress _).2
              simpa [hcookie, rightful_of_user huser] using hother

/-- Where all logins of a window are counted in one bucket, the limit of that
bucket is a limit on the logins. -/
theorem admittedLogins_le {window : List Hit} {bucket : String}
    (hlimit : RespectsLimit rt verify window)
    (hbucket : ∀ hit ∈ window, hit.request.route = .login →
      tracker rt verify hit.request = bucket) :
    (admittedLogins window).length ≤ THROTTLE_LOGIN_LIMIT := by
  have hsame : admittedLogins window = window.filter fun hit =>
      hit.admitted && decide (hit.request.route = .login) &&
        (tracker rt verify hit.request == bucket) := by
    apply List.filter_congr
    intro hit hmem
    by_cases hlogin : hit.request.route = .login
    · simp [hbucket hit hmem hlogin]
    · simp [hlogin]
  rw [hsame]
  exact hlimit bucket .login

/-- Of the requests that one client sends in one window: each is counted in its
rightful bucket exactly when its cookie and its first hop leave the choice to the
guard. In a window of such requests a user has one bucket, and no more logins
pass than the limit allows. -/
theorem throttle_bucket_iff {window : List Hit} {client : String}
    (haddress : AddressText client)
    (hclient : ∀ hit ∈ window, hit.request.ip = some client)
    (hlimit : RespectsLimit rt verify window) :
    ((∀ hit ∈ window, tracker rt verify hit.request = rightful verify hit.request) ↔
      ∀ hit ∈ window, Untampered rt verify hit.request) ∧
    ((∀ hit ∈ window, Untampered rt verify hit.request) →
      (∀ hit ∈ window, ∀ hit' ∈ window,
        authenticated verify hit.request = authenticated verify hit'.request →
          tracker rt verify hit.request = tracker rt verify hit'.request) ∧
      ((∀ hit ∈ window, hit.request.route = .login →
          authenticated verify hit.request = none) →
        (admittedLogins window).length ≤ THROTTLE_LOGIN_LIMIT)) := by
  have hiff (hit : Hit) (hmem : hit ∈ window) :
      tracker rt verify hit.request = rightful verify hit.request ↔
        Untampered rt verify hit.request := by
    apply tracker_rightful_iff
    rw [hclient hit hmem]
    exact haddress
  refine ⟨forall₂_congr hiff, fun huntampered => ⟨?_, ?_⟩⟩
  · intro hit hmem hit' hmem' hsame
    rw [(hiff hit hmem).mpr (huntampered hit hmem),
      (hiff hit' hmem').mpr (huntampered hit' hmem'), rightful, rightful, hsame,
      hclient hit hmem, hclient hit' hmem']
  · intro hnobody
    refine admittedLogins_le hlimit (show ∀ hit ∈ window, hit.request.route = .login →
      tracker rt verify hit.request = client from fun hit hmem hlogin => ?_)
    rw [(hiff hit hmem).mpr (huntampered hit hmem),
      rightful_of_nobody (hnobody hit hmem hlogin), hclient hit hmem]
    rfl

/-- A throttler that counts each request in a bucket of its own admits them all. -/
theorem respectsLimit_of_nodup {window : List Hit}
    (hnodup : (window.map fun hit => tracker rt verify hit.request).Nodup) :
    RespectsLimit rt verify window := by
  intro bucket route
  have hcount : (window.filter fun hit => tracker rt verify hit.request == bucket).length ≤ 1 := by
    have honce := List.nodup_iff_count_le_one.mp hnodup bucket
    rw [List.count_eq_countP, List.countP_map, List.countP_eq_length_filter] at honce
    exact honce
  have hsub : (window.filter fun hit => hit.admitted && decide (hit.request.route = route) &&
      (tracker rt verify hit.request == bucket)).length ≤
        (window.filter fun hit => tracker rt verify hit.request == bucket).length := by
    apply List.Sublist.length_le
    apply List.monotone_filter_right
    intro hit hhit
    simp only [Bool.and_eq_true] at hhit
    exact hhit.2
  have hpositive : 1 ≤ route.limit := by
    cases route <;> simp [Route.limit, THROTTLE_LOGIN_LIMIT, THROTTLE_DEFAULT_LIMIT]
  exact (hsub.trans hcount).trans hpositive

end Trackers

/-! ### Requests of one client -/

def sampleVerify (authorization : String) : Option AuthenticatedUser :=
  if authorization = "Bearer T" then some { id := 7, role := .parent } else none

/-- A login with a cookie that the client made up. -/
def loginWith (cookie : String) : Hit where
  request :=
    { route := .login
      cookies := [(REFRESH_COOKIE_NAME, .one cookie)]
      ip := some "10.0.0.1" }
  admitted := true

/-- A request of user 7, with a hop that the client made up. -/
def purchaseVia (hop : String) : HttpRequest where
  route := .other "/purchases" false
  headers := [("x-forwarded-for", .one hop)]
  ip := some "10.0.0.1"
  authorization := some "Bearer T"

/-- A login with neither cookie nor hop. -/
def plainLogin : Hit where
  request := { route := .login, ip := some "10.0.0.1" }
  admitted := true

theorem addressText_sample : AddressText "10.0.0.1" := by
  intro rest
  constructor
  · intro heq
    have hchars := congrArg String.toList heq
    simp at hchars
  · intro heq
    have hchars := congrArg String.toList heq
    simp at hchars

theorem sample_throttle_bucket :
    (admittedLogins [plainLogin, plainLogin]).length ≤ THROTTLE_LOGIN_LIMIT := by
  have hlimit : RespectsLimit sampleRuntime sampleVerify [plainLogin, plainLogin] := by
    intro bucket route
    apply (List.length_filter_le _ _).trans
    cases route <;> simp [Route.limit, THROTTLE_LOGIN_LIMIT, THROTTLE_DEFAULT_LIMIT]
  have hplain : ∀ hit ∈ [plainLogin, plainLogin], hit.request.ip = some "10.0.0.1" ∧
      Untampered sampleRuntime sampleVerify hit.request ∧
        authenticated sampleVerify hit.request = none := by
    intro hit hmem
    have hhit : hit = plainLogin := by simpa using hmem
    subst hhit
    exact ⟨rfl, ⟨rfl, Or.inr ⟨rfl, rfl⟩⟩, rfl⟩
  obtain ⟨-, hlaw⟩ := throttle_bucket_iff addressText_sample
    (fun hit hmem => (hplain hit hmem).1) hlimit
  exact (hlaw fun hit hmem => (hplain hit hmem).2.1).2
    fun hit hmem _ => (hplain hit hmem).2.2

/-- Six logins of one client pass in one window, each with a cookie of its own,
and one user's requests are counted in two buckets. -/
theorem throttle_bucket_chosen :
    (∃ window : List Hit, RespectsLimit sampleRuntime sampleVerify window ∧
      (∀ hit ∈ window, hit.request.route = .login ∧ hit.request.ip = some "10.0.0.1") ∧
        THROTTLE_LOGIN_LIMIT < (admittedLogins window).length) ∧
      (authenticated sampleVerify (purchaseVia "1.1.1.1") =
          authenticated sampleVerify (purchaseVia "2.2.2.2") ∧
        tracker sampleRuntime sampleVerify (purchaseVia "1.1.1.1") ≠
          tracker sampleRuntime sampleVerify (purchaseVia "2.2.2.2")) := by
  refine ⟨⟨["1", "2", "3", "4", "5", "6"].map loginWith, ?_, ?_, by decide⟩, rfl, by decide⟩
  · apply respectsLimit_of_nodup
    decide
  · intro hit hmem
    obtain ⟨cookie, -, rfl⟩ := List.mem_map.mp hmem
    exact ⟨rfl, rfl⟩

end Mes
