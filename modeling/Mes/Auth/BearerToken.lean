import Mathlib.Data.List.Infix
import Mes.Js.Json

/-!
Who may pass with which `Authorization` header, and what the others are told. The routes
of the API are behind `JwtAuthGuard`, which reads the class of the error that passport
reports. Bull Board is mounted outside the guards, behind a middleware that reads the
header itself, and its errors get their code in `HttpExceptionFilter`, from the message.

The libraries are parameters: the bearer token that `passport-jwt` takes from a header,
and what `jsonwebtoken` says of a token under HS256.
-/

namespace Mes

open Js

/-- What a verified token says, as far as it is read. -/
structure TokenClaims where
  sub : Option Json
  role : Option Json

inductive TokenVerdict where
  | verified (claims : TokenClaims)
  | tokenExpiredError
  | notBeforeError
  | jsonWebTokenError (message : String)

/-- `ExtractJwt.fromAuthHeaderAsBearerToken` and `verify`. -/
structure JwtLibrary where
  bearerToken : Option JsString → Option JsString
  verify : JsString → TokenVerdict
  absent : bearerToken none = none

/-- The name and the message of an error. -/
structure ErrorInfo where
  name : String
  message : String
  deriving DecidableEq, Repr

inductive AuthErrorCode where
  | missingToken
  | invalidToken
  | tokenExpired
  | forbiddenRole
  deriving DecidableEq, Repr

@[simp]
def AuthErrorCode.text : AuthErrorCode → String
  | .missingToken => "AUTH_MISSING_TOKEN"
  | .invalidToken => "AUTH_INVALID_TOKEN"
  | .tokenExpired => "AUTH_TOKEN_EXPIRED"
  | .forbiddenRole => "AUTH_FORBIDDEN_ROLE"

/-- What the two paths throw. -/
inductive AuthException where
  | unauthorizedError (code : AuthErrorCode)
  | unauthorizedException (message : String)
  | forbiddenException (message : String)
  deriving DecidableEq, Repr

structure AuthErrorResponse where
  httpStatus : Nat
  code : String
  message : String
  deriving DecidableEq, Repr

namespace HttpExceptionFilter

/-- `UnauthorizedError`'s messages. -/
def messageByCode : AuthErrorCode → String
  | .missingToken => "Authentication required."
  | .invalidToken => "Authentication token is invalid."
  | .tokenExpired => "Authentication token has expired."
  | .forbiddenRole => "You do not have permission to access this resource."

/-- `message.includes(part)`. -/
def includes (message : List Char) (part : String) : Bool :=
  decide (part.toList <:+: message)

/-- The code of an `UnauthorizedException`, by its message, which is plain ASCII here. -/
def pickAuthCode (message : String) : AuthErrorCode :=
  let message := message.toList.map Char.toLower
  if includes message "expired" then .tokenExpired
  else if includes message "no auth token" || includes message "missing" then .missingToken
  else .invalidToken

def normalise : AuthException → AuthErrorResponse
  | .unauthorizedError code =>
      { httpStatus := 401, code := code.text, message := messageByCode code }
  | .unauthorizedException message =>
      { httpStatus := 401
        code := (pickAuthCode message).text
        message := "Authentication required." }
  | .forbiddenException _ =>
      { httpStatus := 403
        code := AuthErrorCode.forbiddenRole.text
        message := "You do not have permission to access this resource." }

end HttpExceptionFilter

namespace JwtStrategy

/-- The user that `validate` makes of the claims, `none` where it throws. -/
def validate (claims : TokenClaims) : Option TokenClaims :=
  match claims.sub, claims.role with
  | some (.number _), some (.string role) =>
      if role ∈ [text "PARENT", text "STUDENT", text "ADMIN"] then some claims else none
  | _, _ => none

/-- What passport hands to the guard: the user, or what is known of the failure. An
exception of `validate` comes without it. -/
def authenticate (lib : JwtLibrary) (header : Option JsString) :
    Option TokenClaims × Option ErrorInfo :=
  match lib.bearerToken header with
  | none => (none, some { name := "Error", message := "No auth token" })
  | some token =>
      match lib.verify token with
      | .verified claims => (validate claims, none)
      | .tokenExpiredError =>
          (none, some { name := "TokenExpiredError", message := "jwt expired" })
      | .notBeforeError => (none, some { name := "NotBeforeError", message := "jwt not active" })
      | .jsonWebTokenError message => (none, some { name := "JsonWebTokenError", message })

end JwtStrategy

namespace JwtAuthGuard

def handleRequest (user : Option TokenClaims) (info : Option ErrorInfo) :
    Except AuthException TokenClaims :=
  match user with
  | some user => .ok user
  | none =>
      let infoName := info.map ErrorInfo.name
      if infoName = some "TokenExpiredError" then .error (.unauthorizedError .tokenExpired)
      else if infoName = some "JsonWebTokenError" ∨ infoName = some "NotBeforeError" then
        .error (.unauthorizedError .invalidToken)
      else if infoName = some "Error" ∨ infoName = none then
        if info.map ErrorInfo.message = some "No auth token" then
          .error (.unauthorizedError .missingToken)
        else .error (.unauthorizedError .invalidToken)
      else .error (.unauthorizedError .invalidToken)

def canActivate (lib : JwtLibrary) (header : Option JsString) :
    Except AuthException TokenClaims :=
  let (user, info) := JwtStrategy.authenticate lib header
  handleRequest user info

end JwtAuthGuard

def BEARER_PREFIX : JsString := text "Bearer "

namespace BullBoardAuthMiddleware

/-- The header starts with the prefix. -/
def hasPrefix (header : Option JsString) : Bool :=
  match header with
  | none => false
  | some authHeader => BEARER_PREFIX.isPrefixOf authHeader

/-- The token that the middleware cuts off. -/
def sliced (header : Option JsString) : JsString :=
  (header.getD []).drop BEARER_PREFIX.length

/-- `payload.role` is the role of an administrator. -/
def isAdmin (claims : TokenClaims) : Bool :=
  match claims.role with
  | some (.string role) => role == text "ADMIN"
  | _ => false

def use (lib : JwtLibrary) (header : Option JsString) : Except AuthException Unit :=
  if !hasPrefix header then
    .error (.unauthorizedException "Missing or malformed Authorization header")
  else
    match lib.verify (sliced header) with
    | .verified claims =>
        if isAdmin claims then .ok () else .error (.forbiddenException "Admin role required")
    | _ => .error (.unauthorizedException "Invalid or expired token")

end BullBoardAuthMiddleware

/-- A protected route is behind the guard or, under `/admin/queues`, behind the
middleware. -/
inductive ProtectedRoute where
  | guarded
  | bullBoard
  deriving DecidableEq, Repr

/-- The error response to a request with this header, `none` if it is let through. -/
def authError (lib : JwtLibrary) (route : ProtectedRoute) (header : Option JsString) :
    Option AuthErrorResponse :=
  match route with
  | .guarded =>
      match JwtAuthGuard.canActivate lib header with
      | .ok _ => none
      | .error exception => some (HttpExceptionFilter.normalise exception)
  | .bullBoard =>
      match BullBoardAuthMiddleware.use lib header with
      | .ok _ => none
      | .error exception => some (HttpExceptionFilter.normalise exception)

/-! ### What the codes say -/

def TokenVerdict.isVerified : TokenVerdict → Bool
  | .verified _ => true
  | _ => false

def TokenVerdict.isExpired : TokenVerdict → Bool
  | .tokenExpiredError => true
  | _ => false

/-- The library refuses the token, and not because it is expired. -/
def TokenVerdict.isBad (verdict : TokenVerdict) : Bool :=
  !verdict.isVerified && !verdict.isExpired

section Codes

variable {lib : JwtLibrary} {header : Option JsString}

/-- The code of the response to a request. -/
def authCode (lib : JwtLibrary) (route : ProtectedRoute) (header : Option JsString) :
    Option String :=
  (authError lib route header).map AuthErrorResponse.code

theorem guarded_absent (hnone : lib.bearerToken header = none) :
    authCode lib .guarded header = some AuthErrorCode.missingToken.text := by
  simp only [authCode, authError, JwtAuthGuard.canActivate, JwtStrategy.authenticate, hnone]
  rfl

theorem guarded_expired {token : JsString} (htoken : lib.bearerToken header = some token)
    (hexpired : (lib.verify token).isExpired = true) :
    authCode lib .guarded header = some AuthErrorCode.tokenExpired.text := by
  simp only [authCode, authError, JwtAuthGuard.canActivate, JwtStrategy.authenticate, htoken]
  cases hverify : lib.verify token with
  | tokenExpiredError => rfl
  | verified claims => simp [hverify, TokenVerdict.isExpired] at hexpired
  | notBeforeError => simp [hverify, TokenVerdict.isExpired] at hexpired
  | jsonWebTokenError message => simp [hverify, TokenVerdict.isExpired] at hexpired

theorem guarded_bad {token : JsString} (htoken : lib.bearerToken header = some token)
    (hbad : (lib.verify token).isBad = true) :
    authCode lib .guarded header = some AuthErrorCode.invalidToken.text := by
  simp only [authCode, authError, JwtAuthGuard.canActivate, JwtStrategy.authenticate, htoken]
  cases hverify : lib.verify token with
  | tokenExpiredError => simp [hverify, TokenVerdict.isBad, TokenVerdict.isExpired] at hbad
  | verified claims => simp [hverify, TokenVerdict.isBad, TokenVerdict.isVerified] at hbad
  | notBeforeError => rfl
  | jsonWebTokenError message => rfl

/-- Claims of the wrong form are an invalid token. -/
theorem guarded_verified {token : JsString} (htoken : lib.bearerToken header = some token)
    (hverified : (lib.verify token).isVerified = true) :
    authCode lib .guarded header = none ∨
      authCode lib .guarded header = some AuthErrorCode.invalidToken.text := by
  simp only [authCode, authError, JwtAuthGuard.canActivate, JwtStrategy.authenticate, htoken]
  cases hverify : lib.verify token with
  | verified claims =>
      dsimp only
      cases JwtStrategy.validate claims with
      | none => exact Or.inr rfl
      | some user => exact Or.inl rfl
  | tokenExpiredError => simp [hverify, TokenVerdict.isVerified] at hverified
  | notBeforeError => simp [hverify, TokenVerdict.isVerified] at hverified
  | jsonWebTokenError message => simp [hverify, TokenVerdict.isVerified] at hverified

/-- The text of the first message has `missing` in it. -/
theorem bullBoard_missing (hbearer : BullBoardAuthMiddleware.hasPrefix header = false) :
    authCode lib .bullBoard header = some AuthErrorCode.missingToken.text := by
  have hcode : HttpExceptionFilter.pickAuthCode "Missing or malformed Authorization header" =
      .missingToken := by
    decide
  simp only [authCode, authError, BullBoardAuthMiddleware.use, hbearer]
  exact congrArg (fun code => some code.text) hcode

/-- The text of the second has `expired`, whatever is wrong with the token. -/
theorem bullBoard_refused (hbearer : BullBoardAuthMiddleware.hasPrefix header = true)
    (hrefused : (lib.verify (BullBoardAuthMiddleware.sliced header)).isVerified = false) :
    authCode lib .bullBoard header = some AuthErrorCode.tokenExpired.text := by
  have hcode : HttpExceptionFilter.pickAuthCode "Invalid or expired token" = .tokenExpired := by
    decide
  simp only [authCode, authError, BullBoardAuthMiddleware.use, hbearer]
  cases hverify : lib.verify (BullBoardAuthMiddleware.sliced header) with
  | verified claims => simp [hverify, TokenVerdict.isVerified] at hrefused
  | tokenExpiredError => exact congrArg (fun code => some code.text) hcode
  | notBeforeError => exact congrArg (fun code => some code.text) hcode
  | jsonWebTokenError message => exact congrArg (fun code => some code.text) hcode

theorem bullBoard_verified (hbearer : BullBoardAuthMiddleware.hasPrefix header = true)
    (hverified : (lib.verify (BullBoardAuthMiddleware.sliced header)).isVerified = true) :
    authCode lib .bullBoard header = none ∨
      authCode lib .bullBoard header = some AuthErrorCode.forbiddenRole.text := by
  simp only [authCode, authError, BullBoardAuthMiddleware.use, hbearer]
  cases hverify : lib.verify (BullBoardAuthMiddleware.sliced header) with
  | verified claims =>
      simp only [Bool.not_true, Bool.false_eq_true, if_false]
      cases BullBoardAuthMiddleware.isAdmin claims with
      | true => exact Or.inl rfl
      | false => exact Or.inr rfl
  | tokenExpiredError => simp [hverify, TokenVerdict.isVerified] at hverified
  | notBeforeError => simp [hverify, TokenVerdict.isVerified] at hverified
  | jsonWebTokenError message => simp [hverify, TokenVerdict.isVerified] at hverified

end Codes

/-- The code of the response says what is wrong with the token of the header. -/
structure TellsToken (lib : JwtLibrary) (route : ProtectedRoute) (header : Option JsString) :
    Prop where
  expired : authCode lib route header = some AuthErrorCode.tokenExpired.text ↔
    ∃ token, lib.bearerToken header = some token ∧ (lib.verify token).isExpired = true
  missing : header = none → authCode lib route header = some AuthErrorCode.missingToken.text
  invalid : ∀ token, lib.bearerToken header = some token → (lib.verify token).isBad = true →
    authCode lib route header = some AuthErrorCode.invalidToken.text

theorem TokenVerdict.cases (verdict : TokenVerdict) :
    verdict.isVerified = true ∧ verdict.isExpired = false ∧ verdict.isBad = false ∨
      verdict.isVerified = false ∧ verdict.isExpired = true ∧ verdict.isBad = false ∨
      verdict.isVerified = false ∧ verdict.isExpired = false ∧ verdict.isBad = true := by
  cases verdict with
  | verified claims => exact Or.inl ⟨rfl, rfl, rfl⟩
  | tokenExpiredError => exact Or.inr (Or.inl ⟨rfl, rfl, rfl⟩)
  | notBeforeError => exact Or.inr (Or.inr ⟨rfl, rfl, rfl⟩)
  | jsonWebTokenError message => exact Or.inr (Or.inr ⟨rfl, rfl, rfl⟩)

/-- The guard tells for every header. -/
theorem guarded_tells (lib : JwtLibrary) (header : Option JsString) :
    TellsToken lib .guarded header := by
  cases htoken : lib.bearerToken header with
  | none =>
      have hcode := guarded_absent htoken
      refine ⟨?_, fun _ => hcode, ?_⟩
      · simp [hcode, htoken]
      · intro token hother
        rw [htoken] at hother
        cases hother
  | some token =>
      have hmissing : header ≠ none := by
        rintro rfl
        rw [lib.absent] at htoken
        cases htoken
      rcases (lib.verify token).cases with ⟨hverified, hexpired, hbad⟩ | ⟨-, hexpired, hbad⟩ |
        ⟨-, hexpired, hbad⟩
      · rcases guarded_verified htoken hverified with hcode | hcode
        · exact ⟨by simp [hcode, htoken, hexpired], fun hnone => absurd hnone hmissing,
            by simp [htoken, hbad]⟩
        · exact ⟨by simp [hcode, htoken, hexpired], fun hnone => absurd hnone hmissing,
            by simp [htoken, hbad]⟩
      · have hcode := guarded_expired htoken hexpired
        exact ⟨by simp [hcode, htoken, hexpired], fun hnone => absurd hnone hmissing,
          by simp [htoken, hbad]⟩
      · have hcode := guarded_bad htoken hbad
        exact ⟨by simp [hcode, htoken, hexpired], fun hnone => absurd hnone hmissing,
          by simp [hcode]⟩

/-- The bearer token of the header, if there is one, is verified. -/
def NothingWrong (lib : JwtLibrary) (header : Option JsString) : Prop :=
  ∀ token, lib.bearerToken header = some token → (lib.verify token).isVerified = true

/-- The bearer token of the header is only expired. -/
def OnlyExpired (lib : JwtLibrary) (header : Option JsString) : Prop :=
  ∃ token, lib.bearerToken header = some token ∧ (lib.verify token).isExpired = true

/-- Where the middleware finds no token, or a good one, nothing is wrong with the bearer
token; where it refuses one, the bearer token is only expired. -/
def MiddlewareAgrees (lib : JwtLibrary) (header : Option JsString) : Prop :=
  if BullBoardAuthMiddleware.hasPrefix header = true ∧
      (lib.verify (BullBoardAuthMiddleware.sliced header)).isVerified = false then
    OnlyExpired lib header
  else NothingWrong lib header

/-- A code for no expired token tells if nothing is wrong. -/
theorem nothingWrong_iff {lib : JwtLibrary} {route : ProtectedRoute} {header : Option JsString}
    (hexpired : authCode lib route header ≠ some AuthErrorCode.tokenExpired.text)
    (hinvalid : authCode lib route header ≠ some AuthErrorCode.invalidToken.text)
    (hmissing : header = none → authCode lib route header = some AuthErrorCode.missingToken.text) :
    TellsToken lib route header ↔ NothingWrong lib header := by
  constructor
  · intro htells token htoken
    rcases (lib.verify token).cases with ⟨hverified, -, -⟩ | ⟨-, hexp, -⟩ | ⟨-, -, hbad⟩
    · exact hverified
    · exact absurd (htells.expired.mpr ⟨token, htoken, hexp⟩) hexpired
    · exact absurd (htells.invalid token htoken hbad) hinvalid
  · intro hgood
    refine ⟨⟨fun hcode => absurd hcode hexpired, ?_⟩, hmissing, ?_⟩
    · rintro ⟨token, htoken, hexp⟩
      rcases (lib.verify token).cases with ⟨-, hother, -⟩ | ⟨hother, -, -⟩ | ⟨hother, -, -⟩
      · simp [hexp] at hother
      · simp [hgood token htoken] at hother
      · simp [hgood token htoken] at hother
    · intro token htoken hbad
      rcases (lib.verify token).cases with ⟨-, -, hother⟩ | ⟨hother, -, -⟩ | ⟨hother, -, -⟩
      · simp [hbad] at hother
      · simp [hgood token htoken] at hother
      · simp [hgood token htoken] at hother

theorem bullBoard_tells_iff (lib : JwtLibrary) (header : Option JsString) :
    TellsToken lib .bullBoard header ↔ MiddlewareAgrees lib header := by
  unfold MiddlewareAgrees
  cases hbearer : BullBoardAuthMiddleware.hasPrefix header with
  | false =>
      have hcode := @bullBoard_missing lib header hbearer
      rw [if_neg (by simp)]
      exact nothingWrong_iff (by simp [hcode]) (by simp [hcode]) fun _ => hcode
  | true =>
      have hmissing : header ≠ none := by
        rintro rfl
        cases hbearer
      cases hverified : (lib.verify (BullBoardAuthMiddleware.sliced header)).isVerified with
      | true =>
          rw [if_neg (by simp)]
          rcases bullBoard_verified hbearer hverified with hcode | hcode
          · exact nothingWrong_iff (by simp [hcode]) (by simp [hcode])
              fun hnone => absurd hnone hmissing
          · exact nothingWrong_iff (by simp [hcode]) (by simp [hcode])
              fun hnone => absurd hnone hmissing
      | false =>
          have hcode := bullBoard_refused hbearer hverified
          rw [if_pos ⟨rfl, rfl⟩]
          constructor
          · exact fun htells => htells.expired.mp hcode
          · intro hexpired
            refine ⟨iff_of_true hcode hexpired, fun hnone => absurd hnone hmissing, ?_⟩
            obtain ⟨token, htoken, hexp⟩ := hexpired
            intro other hother hbad
            obtain rfl := Option.some.inj (htoken.symm.trans hother)
            simp [TokenVerdict.isBad, hexp] at hbad

/-- The codes tell on every route behind the guard, and on Bull Board where the
middleware agrees. -/
theorem tellsToken_iff (lib : JwtLibrary) (route : ProtectedRoute) (header : Option JsString) :
    TellsToken lib route header ↔ (route = .bullBoard → MiddlewareAgrees lib header) := by
  cases route with
  | guarded => simp [guarded_tells]
  | bullBoard => simp [bullBoard_tells_iff]

/-- A library that knows no token. -/
def sampleJwtLibrary : JwtLibrary where
  bearerToken := fun header =>
    (header.filter fun h => BEARER_PREFIX.isPrefixOf h).map fun h =>
      h.drop BEARER_PREFIX.length
  verify := fun _ => .jsonWebTokenError "jwt malformed"
  absent := rfl

/-- Bull Board calls a forged token expired. -/
theorem forged_token_expired :
    ¬ TellsToken sampleJwtLibrary .bullBoard (some (text "Bearer forged")) := by
  intro htells
  have hcode : authCode sampleJwtLibrary .bullBoard (some (text "Bearer forged")) =
      some AuthErrorCode.tokenExpired.text := by
    decide
  obtain ⟨token, -, hexpired⟩ := htells.expired.mp hcode
  cases hexpired

end Mes
