import Mes.Common.Errors

/-!
The tables of the backend and the rows its services read and write. Row
identifiers are the integer keys that the database generates; the identifier of
a lesson is a number here too. Columns that no modelled function uses
(`updated_at` everywhere, `created_at` of users, courses, invitations,
idempotency keys and enrolments) are left out.

`Runtime` collects what the services take from their libraries and settings:
hashing, string functions of the language, the validation of a request body,
and what the column types `inet` and `date` accept. Nothing is assumed about
these functions beyond the fields of the structure.
-/

namespace Mes

open Transact

def MS_PER_DAY : Time := 24 * 60 * 60 * 1000

/-- The validated body of `POST /purchases`. -/
structure CreatePurchaseDto where
  courseId : Nat
  studentEmail : String
  deriving DecidableEq, Repr

structure Runtime where
  sha256 : String → String
  argon2Hash : (plain salt : String) → String
  /-- `none` stands for the exception on a malformed hash. -/
  argon2Verify : (digest plain : String) → Option Bool
  argon2NeedsRehash : String → Bool
  trim : String → String
  toLowerCase : String → String
  encodeURIComponent : String → String
  toISOString : Time → String
  isInet : String → Bool
  isDate : String → Bool
  /-- The canonical text of the JSON value in a request body. -/
  canonicaliseBody : String → String
  /-- What the validation pipe makes of a request body. -/
  createPurchaseDto : String → Option CreatePurchaseDto
  invitationBaseUrl : String
  jwtExpiresInSeconds : Nat
  normalise_empty : toLowerCase (trim "") = ""

/-- `email.trim().toLowerCase()`. -/
def Runtime.normaliseEmail (rt : Runtime) (email : String) : String :=
  rt.toLowerCase (rt.trim email)

inductive UserRole where
  | parent
  | student
  | admin
  deriving DecidableEq, Repr

inductive CourseSubject where
  | maths
  | english
  | science
  deriving DecidableEq, Repr

inductive PurchaseStatus where
  | completed
  deriving DecidableEq, Repr

inductive InvitationStatus where
  | issued
  | redeemed
  | expired
  deriving DecidableEq, Repr

structure User where
  email : String
  passwordHash : String
  role : UserRole
  firstName : Option String
  lastName : Option String
  dateOfBirth : Option String
  deriving DecidableEq, Repr

structure Course where
  subject : CourseSubject
  yearFrom : Nat
  yearTo : Nat
  title : String
  pricePence : Nat
  deriving DecidableEq, Repr

structure Lesson where
  courseId : Nat
  title : String
  body : String
  orderIndex : Nat
  createdAt : Time
  deriving DecidableEq, Repr

structure Purchase where
  parentUserId : Nat
  courseId : Nat
  status : PurchaseStatus
  amountPence : Nat
  idempotencyKey : String
  createdAt : Time
  deriving DecidableEq, Repr

structure Invitation where
  purchaseId : Nat
  tokenHash : String
  studentEmail : String
  status : InvitationStatus
  expiresAt : Time
  redeemedAt : Option Time
  emailSentAt : Option Time
  deriving DecidableEq, Repr

/-- The stored response of `POST /purchases`. -/
structure ReplayBody where
  purchaseId : Nat
  invitationId : Nat
  deriving DecidableEq, Repr

structure IdempotencyKey where
  key : String
  userId : Nat
  endpoint : String
  requestHash : String
  responseStatus : Nat
  responseBody : ReplayBody
  deriving DecidableEq, Repr

structure Enrolment where
  studentUserId : Nat
  courseId : Nat
  sourceInvitationId : Option Nat
  deriving DecidableEq, Repr

structure RefreshToken where
  userId : Nat
  familyId : String
  tokenHash : String
  issuedAt : Time
  expiresAt : Time
  revokedAt : Option Time
  replacedById : Option Nat
  userAgent : Option String
  ip : Option String
  deriving DecidableEq, Repr

inductive Tbl where
  | users
  | courses
  | lessons
  | purchases
  | invitations
  | idempotencyKeys
  | enrolments
  | refreshTokens
  deriving DecidableEq, Repr

@[reducible] def Tbl.Row : Tbl → Type
  | .users => User
  | .courses => Course
  | .lessons => Lesson
  | .purchases => Purchase
  | .invitations => Invitation
  | .idempotencyKeys => IdempotencyKey
  | .enrolments => Enrolment
  | .refreshTokens => RefreshToken

/-- The unique indexes of the migrations. -/
def Tbl.clash : (t : Tbl) → t.Row → t.Row → Bool
  | .users, a, b => a.email == b.email
  | .courses, a, b =>
      a.subject == b.subject && a.yearFrom == b.yearFrom && a.yearTo == b.yearTo
  | .lessons, a, b => a.courseId == b.courseId && a.orderIndex == b.orderIndex
  | .purchases, a, b =>
      a.parentUserId == b.parentUserId && a.idempotencyKey == b.idempotencyKey
  | .invitations, a, b => a.tokenHash == b.tokenHash
  | .idempotencyKeys, a, b =>
      a.userId == b.userId && a.endpoint == b.endpoint && a.key == b.key
  | .enrolments, a, b =>
      a.studentUserId == b.studentUserId && a.courseId == b.courseId
  | .refreshTokens, a, b => a.tokenHash == b.tokenHash

theorem Tbl.clash_symm (t : Tbl) (a b : t.Row) : t.clash a b = t.clash b a := by
  cases t <;> simp only [clash, Bool.beq_comm]

/-- The foreign keys of the migrations. `idempotency_keys` has none. -/
def Tbl.refs : (t : Tbl) → t.Row → List (Tbl × Nat)
  | .users, _ => []
  | .courses, _ => []
  | .lessons, r => [(.courses, r.courseId)]
  | .purchases, r => [(.users, r.parentUserId), (.courses, r.courseId)]
  | .invitations, r => [(.purchases, r.purchaseId)]
  | .idempotencyKeys, _ => []
  | .enrolments, r =>
      [(.users, r.studentUserId), (.courses, r.courseId)] ++
        (r.sourceInvitationId.map fun id => (Tbl.invitations, id)).toList
  | .refreshTokens, r =>
      (.users, r.userId) :: (r.replacedById.map fun id => (Tbl.refreshTokens, id)).toList

/-- What `VARCHAR(80)` accepts: the text types have no null character. -/
def nameFits (name : String) : Bool :=
  decide (name.length ≤ 80) && !name.toList.contains (Char.ofNat 0)

/-- What the column types accept. Hashes and generated values always fit, and the other
texts of a request have no null character: a header has none, and an email neither. -/
def Tbl.admits (rt : Runtime) : (t : Tbl) → t.Row → Bool
  | .users, r =>
      decide (r.email.length ≤ 255) && decide (r.passwordHash.length ≤ 255) &&
        r.firstName.all nameFits && r.lastName.all nameFits && r.dateOfBirth.all rt.isDate
  | .courses, _ => true
  | .lessons, _ => true
  | .purchases, r => decide (r.idempotencyKey.length ≤ 64)
  | .invitations, r => decide (r.studentEmail.length ≤ 255)
  | .idempotencyKeys, r => decide (r.key.length ≤ 64)
  | .enrolments, _ => true
  | .refreshTokens, r => r.ip.all rt.isInet

/-- The database of the backend. -/
abbrev schema (rt : Runtime) : Schema where
  Tbl := Tbl
  Row := Tbl.Row
  clash := Tbl.clash
  clash_symm := Tbl.clash_symm
  refs := Tbl.refs
  admits := Tbl.admits rt

end Mes
