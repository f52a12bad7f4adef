import Mes.Auth.AuthService

/-!
`InvitationsService`: issuing an invitation inside the purchase transaction, and
redeeming one. The user lookup of a redemption runs on the pool, outside the
transaction that has just marked the invitation. A duplicate enrolment of an
existing student is swallowed as in the source: the insert has already aborted
the transaction by then, and the program goes on to commit.
-/

namespace Mes

open Transact

namespace InvitationsService

def INVITATION_EXPIRY_DAYS : Nat := 14

variable {rt : Runtime}

def hashToken (rt : Runtime) (plaintext : String) : String :=
  rt.sha256 plaintext

def computeExpiryDate (now : Time) : Time :=
  now + INVITATION_EXPIRY_DAYS * MS_PER_DAY

def buildInvitationUrl (rt : Runtime) (plaintextToken : String) : String :=
  rt.invitationBaseUrl ++ "/" ++ rt.encodeURIComponent plaintextToken

structure Issued where
  entity : Entity .invitations
  plaintextToken : String
  invitationUrl : String

def issueWithinTransaction (purchaseId : Nat) (studentEmail : String) :
    Method rt Issued := do
  let plaintextToken ← randomBytes
  let (now, _) ← turn
  let entity ← InvitationsRepository.insertWithinTransaction
    { purchaseId := purchaseId
      tokenHash := hashToken rt plaintextToken
      studentEmail := studentEmail
      status := .issued
      expiresAt := computeExpiryDate now
      redeemedAt := none
      emailSentAt := none }
  pure
    { entity := entity
      plaintextToken := plaintextToken
      invitationUrl := buildInvitationUrl rt plaintextToken }

def toResponseWithPlaintext (rt : Runtime) (entity : Entity .invitations)
    (plaintextToken : String) : InvitationResponse where
  id := entity.1
  studentEmail := entity.2.studentEmail
  status := entity.2.status
  expiresAt := rt.toISOString entity.2.expiresAt
  url := buildInvitationUrl rt plaintextToken

/-- The conditional update, and on a miss the reason for it. -/
def resolveOrThrow (tokenHash : String) : Method rt (Entity .invitations) := do
  match ← InvitationsRepository.atomicRedeem tokenHash with
  | some redeemed => pure redeemed
  | none =>
      match ← InvitationsRepository.findByTokenHash tokenHash with
      | none => throwDomain .invitationNotFound
      | some existing =>
          if existing.2.status = .redeemed then throwDomain .invitationAlreadyRedeemed
          else throwDomain .invitationExpired

/-- A field counts as missing when it is absent or empty. -/
def isMissing (value : Option String) : Bool :=
  value.getD "" == ""

def missingFields (params : RedeemInvitationDto) : List (String × List String) :=
  (if isMissing params.firstName then
    [("firstName", ["firstName is required to create a new account"])] else []) ++
  (if isMissing params.lastName then
    [("lastName", ["lastName is required to create a new account"])] else []) ++
  (if isMissing params.dateOfBirth then
    [("dateOfBirth", ["dateOfBirth is required to create a new account"])] else [])

def insertStudentUser (params : RedeemInvitationDto) (email passwordHash : String) :
    Method rt (Entity .users) :=
  (UsersRepository.insertUserWithinTransaction
    { email := email
      passwordHash := passwordHash
      role := .student
      firstName := params.firstName
      lastName := params.lastName
      dateOfBirth := params.dateOfBirth }).attempt fun error =>
    match error with
    | .queryFailed .uniqueViolation => throwDomain .invitationEmailConflict
    | _ => .throw error

/-- An invitation from `atomicRedeem` has no `purchase` loaded. -/
def resolveCourseId (invitation : Entity .invitations) : Method rt Nat :=
  InvitationsRepository.findCourseIdByPurchaseId invitation.2.purchaseId

/-- An exception of `argon2.verify` counts as a mismatch. -/
def passwordMatches (rt : Runtime) (user : Entity .users) (password : String) : Bool :=
  (rt.argon2Verify user.2.passwordHash password).getD false

/-- The enrolment of an existing student; a duplicate is taken for success. -/
def enrolExisting (student : Entity .users) (courseId invitationId : Nat) :
    Method rt Unit :=
  Prog.attempt (do
    let _ ← EnrolmentsRepository.insertWithinTransaction
      { studentUserId := student.1
        courseId := courseId
        sourceInvitationId := some invitationId }
    pure ()) fun error =>
      match error with
      | .domain .enrolmentAlreadyExists => .ret ()
      | _ => .throw error

def redeemForExistingUser (invitation : Entity .invitations)
    (existingUser : Entity .users) (password : String) :
    Method rt (Entity .users) :=
  if existingUser.2.role ≠ .student then throwDomain .invitationEmailConflict
  else if passwordMatches rt existingUser password = false then
    throwDomain .invitationEmailConflict
  else do
    let courseId ← resolveCourseId invitation
    enrolExisting existingUser courseId invitation.1
    pure existingUser

def redeemForNewUser (invitation : Entity .invitations) (params : RedeemInvitationDto) :
    Method rt (Entity .users) :=
  if missingFields params ≠ [] then
    throwDomain (.validationFailed (missingFields params))
  else do
    let passwordHash ← AuthService.hashPassword params.password
    let newUser ← insertStudentUser params invitation.2.studentEmail passwordHash
    let courseId ← resolveCourseId invitation
    let _ ← EnrolmentsRepository.insertWithinTransaction
      { studentUserId := newUser.1
        courseId := courseId
        sourceInvitationId := some invitation.1 }
    pure newUser

def redeemInTransaction (params : RedeemInvitationDto) :
    Method rt (Entity .users) := do
  let invitation ← resolveOrThrow (hashToken rt params.token)
  match ← UsersRepository.findByEmail invitation.2.studentEmail with
  | some existingUser => redeemForExistingUser invitation existingUser params.password
  | none => redeemForNewUser invitation params

def redeem (dto : RedeemInvitationDto) : Method rt AuthTokenResponse := do
  let user ← Sql.transaction (redeemInTransaction dto)
  pure (AuthService.issueToken rt user)

structure InvitationMetaResponse where
  courseTitle : String
  parentEmail : String
  studentEmail : String
  expiresAt : String
  status : InvitationStatus
  hasExistingStudentAccount : Bool
  deriving DecidableEq, Repr

/-- The preview of an invitation, redeemed or not. -/
def getMetaByToken (token : String) : Method rt InvitationMetaResponse := do
  match ← InvitationsRepository.findByTokenHashWithRelations (hashToken rt token) with
  | none => throwDomain .invitationNotFound
  | some found =>
      match found.purchase, found.course, found.parent with
      | some _, some course, some parent =>
          let existingUser ← UsersRepository.findByEmail found.invitation.2.studentEmail
          pure
            { courseTitle := course.2.title
              parentEmail := parent.2.email
              studentEmail := found.invitation.2.studentEmail
              expiresAt := rt.toISOString found.invitation.2.expiresAt
              status := found.invitation.2.status
              hasExistingStudentAccount := existingUser.any fun user => user.2.role == .student }
      | _, _, _ => throwDomain .invitationNotFound

end InvitationsService

end Mes
