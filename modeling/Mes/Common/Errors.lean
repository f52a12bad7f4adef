import Mes.Transact.Store

/-!
The error classes of the backend that the modelled services throw, with the
status, code, message and details each of them puts into the error envelope.
`cause` and the stack are diagnostics and are left out. `AppError` adds what can
surface beside a domain error: a refused statement that nobody translated, and
an exception of the password library.
-/

namespace Mes

open Transact

inductive RefreshErrorCode where
  | invalid
  | expired
  | reused
  deriving DecidableEq, Repr

inductive UnauthorizedCode where
  | invalidToken
  | invalidCredentials
  deriving DecidableEq, Repr

inductive DomainError where
  | courseNotFound (courseId : Nat)
  | dataIntegrity (message : String) (details : List (String × Nat))
  | duplicatePurchaseForStudent
  | enrolmentAlreadyExists
  | forbidden
  | idempotencyBodyMismatch
  | idempotencyKeyRequired
  | idempotencyKeyReused
  | invitationAlreadyRedeemed
  | invitationEmailConflict
  | invitationExpired
  | invitationNotFound
  | lessonNotFound (lessonId : Nat)
  | notEnrolled (details : List (String × Nat))
  | purchaseNotFound
  | refreshToken (code : RefreshErrorCode)
  | unauthorized (code : UnauthorizedCode)
  | userEmailTaken
  | validationFailed (fields : List (String × List String))
  deriving DecidableEq

/-- The values that occur in the details of an error. -/
inductive Detail where
  | number (n : Nat)
  | messages (texts : List String)
  deriving DecidableEq, Repr

def RefreshErrorCode.text : RefreshErrorCode → String
  | .invalid => "REFRESH_TOKEN_INVALID"
  | .expired => "REFRESH_TOKEN_EXPIRED"
  | .reused => "REFRESH_TOKEN_REUSED"

def RefreshErrorCode.message : RefreshErrorCode → String
  | .invalid => "Refresh token is invalid."
  | .expired => "Refresh token has expired."
  | .reused => "Refresh token has already been used."

def UnauthorizedCode.text : UnauthorizedCode → String
  | .invalidToken => "AUTH_INVALID_TOKEN"
  | .invalidCredentials => "AUTH_INVALID_CREDENTIALS"

def UnauthorizedCode.message : UnauthorizedCode → String
  | .invalidToken => "Authentication token is invalid."
  | .invalidCredentials => "Invalid email or password."

namespace DomainError

def httpStatus : DomainError → Nat
  | courseNotFound _ | lessonNotFound _ => 404
  | dataIntegrity _ _ => 500
  | duplicatePurchaseForStudent | enrolmentAlreadyExists | idempotencyBodyMismatch
  | idempotencyKeyReused | userEmailTaken => 409
  | forbidden | notEnrolled _ => 403
  | idempotencyKeyRequired | validationFailed _ => 400
  | invitationAlreadyRedeemed | invitationEmailConflict | invitationExpired
  | invitationNotFound | purchaseNotFound => 410
  | refreshToken _ | unauthorized _ => 401

def code : DomainError → String
  | courseNotFound _ => "COURSE_NOT_FOUND"
  | dataIntegrity _ _ => "DATA_INTEGRITY_VIOLATION"
  | duplicatePurchaseForStudent => "PURCHASE_ALREADY_EXISTS_FOR_STUDENT"
  | enrolmentAlreadyExists => "ENROLMENT_ALREADY_EXISTS"
  | forbidden => "AUTH_FORBIDDEN_ROLE"
  | idempotencyBodyMismatch => "IDEMPOTENCY_BODY_MISMATCH"
  | idempotencyKeyRequired => "IDEMPOTENCY_KEY_REQUIRED"
  | idempotencyKeyReused => "IDEMPOTENCY_KEY_REUSED"
  | invitationAlreadyRedeemed => "INVITATION_ALREADY_REDEEMED"
  | invitationEmailConflict => "INVITATION_EMAIL_CONFLICT"
  | invitationExpired => "INVITATION_EXPIRED"
  | invitationNotFound => "INVITATION_NOT_FOUND"
  | lessonNotFound _ => "LESSON_NOT_FOUND"
  | notEnrolled _ => "NOT_ENROLLED"
  | purchaseNotFound => "PURCHASE_NOT_FOUND"
  | refreshToken c => c.text
  | unauthorized c => c.text
  | userEmailTaken => "USER_EMAIL_TAKEN"
  | validationFailed _ => "VALIDATION_FAILED"

def message : DomainError → String
  | courseNotFound _ => "Course not found."
  | dataIntegrity text _ => text
  | duplicatePurchaseForStudent =>
      "You have already purchased this course for this student."
  | enrolmentAlreadyExists => "Student is already enrolled in this course."
  | forbidden => "You do not have permission to access this resource."
  | idempotencyBodyMismatch => "This idempotency key was used with a different " ++
      "request body. Pick a new key and do not retry."
  | idempotencyKeyRequired => "Idempotency-Key header is required."
  | idempotencyKeyReused =>
      "This idempotency key is currently being processed. Please retry shortly."
  | invitationAlreadyRedeemed => "This invitation link has already been used."
  | invitationEmailConflict | invitationNotFound =>
      "This invitation link is invalid or has already been used."
  | invitationExpired => "This invitation link has expired."
  | lessonNotFound _ => "Lesson not found."
  | notEnrolled _ => "You are not enrolled in this course."
  | purchaseNotFound => "The associated purchase could not be found."
  | refreshToken c => c.message
  | unauthorized c => c.message
  | userEmailTaken => "An account with this email already exists."
  | validationFailed _ => "Request validation failed."

def details : DomainError → List (String × Detail)
  | courseNotFound courseId => [("courseId", .number courseId)]
  | lessonNotFound lessonId => [("lessonId", .number lessonId)]
  | dataIntegrity _ pairs | notEnrolled pairs =>
      pairs.map fun entry => (entry.1, .number entry.2)
  | validationFailed fields => fields.map fun entry => (entry.1, .messages entry.2)
  | _ => []

end DomainError

/-- What a request can end with besides its response. -/
inductive AppError where
  | domain (error : DomainError)
  | queryFailed (error : SqlError)
  | verifyThrew
  deriving DecidableEq

/-- `HttpExceptionFilter` answers 500 to everything that is not a domain error. -/
def AppError.httpStatus : AppError → Nat
  | .domain e => e.httpStatus
  | .queryFailed _ | .verifyThrew => 500

def AppError.code : AppError → String
  | .domain e => e.code
  | .queryFailed _ | .verifyThrew => "INTERNAL_ERROR"

def AppError.message : AppError → String
  | .domain e => e.message
  | .queryFailed _ | .verifyThrew => "Something went wrong."

end Mes
