import Mes.Server

/-!
The repositories. Each query is the statement it sends: a read on the pool or on
the caller's transaction, an insert, or a sweep with its `WHERE` clause. A row is
returned with its generated identifier. Where a query may match several rows and
asks for one, the first in insertion order is taken; the unique indexes make the
choice irrelevant in the queries below.

`save` outside a transaction opens one of its own, and so does an `UPDATE` on the
pool.
-/

namespace Mes

open Transact

variable {rt : Runtime}

/-- A row with its identifier. -/
abbrev Entity (t : Tbl) := Nat × t.Row

namespace BaseRepository

def findAll (t : Tbl) (where_ : Nat → t.Row → Bool) : Method rt (List (Entity t)) := do
  let s ← Sql.read .pool
  pure ((s.rows t).filter fun row => where_ row.1 row.2)

def findOne (t : Tbl) (where_ : Nat → t.Row → Bool) :
    Method rt (Option (Entity t)) := do
  let s ← Sql.read .pool
  pure ((s.rows t).find? fun row => where_ row.1 row.2)

/-- `manager.save` inside the caller's transaction. -/
def save (t : Tbl) (row : Time → t.Row) : Method rt (Entity t) :=
  Sql.insert (σ := schema rt) t row

/-- `repository.save` outside any transaction. -/
def create (t : Tbl) (row : Time → t.Row) : Method rt (Entity t) :=
  Sql.transaction (save t row)

end BaseRepository

namespace UsersRepository

/-- The `@BeforeInsert` hook of `UserEntity`. -/
def normaliseEmail (rt : Runtime) (user : User) : User :=
  if user.email = "" then user else { user with email := rt.normaliseEmail user.email }

def findById (userId : Nat) : Method rt (Option (Entity .users)) :=
  BaseRepository.findOne .users fun id _ => id == userId

def findByEmail (email : String) : Method rt (Option (Entity .users)) :=
  BaseRepository.findOne .users fun _ user => user.email == rt.normaliseEmail email

def insertUser (input : User) : Method rt (Entity .users) :=
  BaseRepository.create .users fun _ => normaliseEmail rt input

def insertUserWithinTransaction (input : User) : Method rt (Entity .users) :=
  BaseRepository.save .users fun _ => normaliseEmail rt input

def setPasswordHash (rt : Runtime) (passwordHash : String) :
    Change (schema rt) Tbl.users :=
  Change.modify (fun user : User => { user with passwordHash := passwordHash })
    fun _ _ => rfl

def updatePasswordHash (userId : Nat) (passwordHash : String) : Method rt Unit :=
  Sql.transaction do
    let s ← Sql.read .manager
    let ids := ((s.rows Tbl.users).filter fun row => row.1 == userId).map Prod.fst
    let _ ← Sql.touchEach (σ := schema rt) Tbl.users (fun _ _ => true)
      (fun _ => setPasswordHash rt passwordHash) [] ids
    pure ()

end UsersRepository

namespace RefreshTokensRepository

structure InsertRefreshTokenValues where
  userId : Nat
  familyId : String
  tokenHash : String
  expiresAt : Time
  userAgent : Option String
  ip : Option String

def findByTokenHash (hash : String) : Method rt (Option (Entity .refreshTokens)) :=
  BaseRepository.findOne .refreshTokens fun _ row => row.tokenHash == hash

/-- `SELECT ... FOR UPDATE` on the row with this hash. -/
def selectForUpdate (hash : String) : Method rt (Option (Entity .refreshTokens)) := do
  let rows ← Sql.sweep (σ := schema rt) Tbl.refreshTokens
    (fun _ row => row.tokenHash == hash) fun _ => Change.keep
  pure rows.head?

def insertNew (values : InsertRefreshTokenValues) :
    Method rt (Entity .refreshTokens) :=
  BaseRepository.save .refreshTokens fun now =>
    { userId := values.userId
      familyId := values.familyId
      tokenHash := values.tokenHash
      issuedAt := now
      expiresAt := values.expiresAt
      revokedAt := none
      replacedById := none
      userAgent := values.userAgent
      ip := values.ip }

/-- `SET revoked_at = NOW()`, with the successor's id after a rotation. -/
def revoke (rt : Runtime) (now : Time) (replacedById : Option Nat) :
    Change (schema rt) Tbl.refreshTokens :=
  Change.modify (fun row : RefreshToken =>
    { row with
      revokedAt := some now
      replacedById := replacedById.orElse fun _ => row.replacedById })
    fun _ _ => rfl

/-- An `UPDATE ... WHERE id = $1 AND revoked_at IS NULL`. -/
def revokeById (id : Nat) (replacedById : Option Nat) : Method rt Nat := do
  let s ← Sql.read .manager
  let ids := ((s.rows Tbl.refreshTokens).filter fun row =>
    row.1 == id && row.2.revokedAt.isNone).map Prod.fst
  let rows ← Sql.touchEach (σ := schema rt) Tbl.refreshTokens
    (fun _ row => row.revokedAt.isNone) (fun now => revoke rt now replacedById) [] ids
  pure rows.length

def revokeRow (id replacedById : Nat) : Method rt Nat :=
  revokeById id (some replacedById)

def revokeRowForLogout (id : Nat) : Method rt Nat :=
  revokeById id none

/-- Revoke every active token of a family in the caller's transaction. -/
def revokeFamily (familyId : String) : Method rt Nat := do
  let rows ← Sql.sweep (σ := schema rt) Tbl.refreshTokens
    (fun _ row => row.familyId == familyId && row.revokedAt.isNone)
    fun now => revoke rt now none
  pure rows.length

/-- `ON DELETE SET NULL` of `replaced_by_id`. -/
def clearReplacedBy (rt : Runtime) : Change (schema rt) Tbl.refreshTokens :=
  Change.modify (fun row : RefreshToken => { row with replacedById := none })
    fun _ _ => rfl

/-- A `DELETE`, followed by the action of the self-referencing foreign key for
each deleted row. -/
def deleteWhere (where_ : Time → RefreshToken → Bool) : Method rt Nat := do
  let rows ← Sql.sweep (σ := schema rt) Tbl.refreshTokens where_ fun _ => Change.delete
  let _ ← Sql.sweep (σ := schema rt) Tbl.refreshTokens
    (fun _ row => row.replacedById.any fun id => (rows.map Prod.fst).contains id)
    fun _ => clearReplacedBy rt
  pure rows.length

def expiredBefore (graceDays : Nat) (now : Time) (row : RefreshToken) : Bool :=
  decide (row.expiresAt + graceDays * MS_PER_DAY < now)

def revokedBefore (forensicDays : Nat) (now : Time) (row : RefreshToken) : Bool :=
  row.revokedAt.any fun revokedAt => decide (revokedAt + forensicDays * MS_PER_DAY < now)

def deleteExpiredAndStaleRevoked (graceDays forensicDays : Nat) :
    Method rt (Nat × Nat) :=
  Sql.transaction do
    let deletedExpired ← deleteWhere (expiredBefore graceDays)
    let deletedRevoked ← deleteWhere (revokedBefore forensicDays)
    pure (deletedExpired, deletedRevoked)

def countPastForensicWindow (thresholdDays : Nat) : Method rt Nat := do
  let s ← Sql.read .pool
  pure ((s.rows Tbl.refreshTokens).filter fun row =>
    revokedBefore thresholdDays s.now row.2).length

end RefreshTokensRepository

namespace CoursesRepository

def findById (courseId : Nat) : Method rt (Option (Entity .courses)) :=
  BaseRepository.findOne .courses fun id _ => id == courseId

end CoursesRepository

namespace PurchasesRepository

def insertWithinTransaction (input : Time → Purchase) : Method rt (Entity .purchases) :=
  BaseRepository.save .purchases input

/-- Newest first. -/
def listByParent (parentUserId : Nat) : Method rt (List (Entity .purchases)) := do
  let rows ← BaseRepository.findAll .purchases fun _ row =>
    row.parentUserId == parentUserId
  pure (rows.insertionSort fun a b => b.2.createdAt ≤ a.2.createdAt)

/-- Purchases joined with their invitations, in one query. -/
def existsCompletedForParentCourseAndStudent (parentUserId courseId : Nat)
    (studentEmail : String) : Method rt Bool := do
  let s ← Sql.read .pool
  pure ((s.rows Tbl.purchases).any fun p =>
    (s.rows Tbl.invitations).any fun i =>
      i.2.purchaseId == p.1 && p.2.parentUserId == parentUserId &&
        p.2.courseId == courseId && p.2.status == .completed &&
        i.2.studentEmail == rt.normaliseEmail studentEmail)

end PurchasesRepository

namespace InvitationsRepository

/-- The `@BeforeInsert` hook of `InvitationEntity`. -/
def normaliseEmail (rt : Runtime) (invitation : Invitation) : Invitation :=
  if invitation.studentEmail = "" then invitation
  else { invitation with studentEmail := rt.normaliseEmail invitation.studentEmail }

def insertWithinTransaction (input : Invitation) : Method rt (Entity .invitations) :=
  BaseRepository.save .invitations fun _ => normaliseEmail rt input

/-- `SET status = 'REDEEMED', redeemed_at = now()`. -/
def markRedeemed (now : Time) (row : Invitation) : Invitation :=
  { row with status := .redeemed, redeemedAt := some now }

def redeemable (tokenHash : String) (now : Time) (row : Invitation) : Bool :=
  row.tokenHash == tokenHash && row.status == .issued && decide (now < row.expiresAt)

/-- `UPDATE ... RETURNING *`: the rows as they are after the change. -/
def atomicRedeem (tokenHash : String) : Method rt (Option (Entity .invitations)) := do
  let s ← Sql.read .manager
  let rows ← Sql.touchEach (σ := schema rt) Tbl.invitations (redeemable tokenHash)
    (fun now => Change.modify (markRedeemed now) fun _ _ => rfl) []
    (Sql.matching s Tbl.invitations (redeemable tokenHash))
  pure (rows.head?.map fun row => (row.1, markRedeemed s.now row.2))

def findByTokenHash (tokenHash : String) : Method rt (Option (Entity .invitations)) :=
  BaseRepository.findOne .invitations fun _ row => row.tokenHash == tokenHash

def findById (invitationId : Nat) : Method rt (Option (Entity .invitations)) :=
  BaseRepository.findOne .invitations fun id _ => id == invitationId

/-- `SET email_sent_at = now()`. -/
def setEmailSentAt (now : Time) (row : Invitation) : Invitation :=
  { row with emailSentAt := some now }

/-- An `UPDATE ... WHERE invitation_id = $1 AND email_sent_at IS NULL`. -/
def markEmailSent (invitationId : Nat) : Method rt Nat :=
  Sql.transaction do
    let s ← Sql.read .manager
    let ids := ((s.rows Tbl.invitations).filter fun row =>
      row.1 == invitationId && row.2.emailSentAt.isNone).map Prod.fst
    let rows ← Sql.touchEach (σ := schema rt) Tbl.invitations
      (fun _ row => row.emailSentAt.isNone)
      (fun now => Change.modify (setEmailSentAt now) fun _ _ => rfl) [] ids
    pure rows.length

/-- An invitation with its purchase, and that with its course and its parent. -/
structure WithRelations where
  invitation : Entity .invitations
  purchase : Option (Entity .purchases)
  course : Option (Entity .courses)
  parent : Option (Entity .users)

/-- One query with left joins on the purchase, and on its course and its parent. -/
def findByTokenHashWithRelations (tokenHash : String) : Method rt (Option WithRelations) := do
  let s ← Sql.read .pool
  pure (((s.rows Tbl.invitations).find? fun row => row.2.tokenHash == tokenHash).map fun row =>
    let purchase := (s.rows Tbl.purchases).find? fun p => p.1 == row.2.purchaseId
    { invitation := row
      purchase := purchase
      course := purchase.bind fun p =>
        (s.rows Tbl.courses).find? fun c => c.1 == p.2.courseId
      parent := purchase.bind fun p =>
        (s.rows Tbl.users).find? fun u => u.1 == p.2.parentUserId })

def findManyByPurchaseIds (purchaseIds : List Nat) :
    Method rt (List (Entity .invitations)) :=
  if purchaseIds.isEmpty then .ret []
  else BaseRepository.findAll .invitations fun _ row => purchaseIds.contains row.purchaseId

def findCourseIdByPurchaseId (purchaseId : Nat) : Method rt Nat := do
  let s ← Sql.read .manager
  match (s.rows Tbl.purchases).find? fun row => row.1 == purchaseId with
  | none => throwDomain .purchaseNotFound
  | some row => pure row.2.courseId

end InvitationsRepository

namespace IdempotencyKeysRepository

def findReplay (userId : Nat) (endpoint key : String) :
    Method rt (Option (Entity .idempotencyKeys)) :=
  BaseRepository.findOne .idempotencyKeys fun _ row =>
    row.userId == userId && row.endpoint == endpoint && row.key == key

def insertWithinTransaction (input : IdempotencyKey) :
    Method rt (Entity .idempotencyKeys) :=
  BaseRepository.save .idempotencyKeys fun _ => input

end IdempotencyKeysRepository

namespace EnrolmentsRepository

/-- One query with a left join on `courses`, by course. An enrolment without its course is
left out. -/
def findCoursesForStudent (studentUserId : Nat) : Method rt (List (Entity .courses)) := do
  let s ← Sql.read .pool
  let enrolments := ((s.rows Tbl.enrolments).filter fun row =>
    row.2.studentUserId == studentUserId).insertionSort fun a b => a.2.courseId ≤ b.2.courseId
  pure (enrolments.filterMap fun row =>
    (s.rows Tbl.courses).find? fun c => c.1 == row.2.courseId)

def insertWithinTransaction (input : Enrolment) : Method rt (Entity .enrolments) :=
  (BaseRepository.save .enrolments fun _ => input).attempt fun error =>
    match error with
    | .queryFailed .uniqueViolation => throwDomain .enrolmentAlreadyExists
    | _ => .throw error

/-- One query with a left join on `courses`. -/
def findByStudentAndCourseWithCourse (studentUserId courseId : Nat) :
    Method rt (Option (Entity .enrolments × Option (Entity .courses))) := do
  let s ← Sql.read .pool
  pure (((s.rows Tbl.enrolments).find? fun row =>
      row.2.studentUserId == studentUserId && row.2.courseId == courseId).map
    fun row => (row, (s.rows Tbl.courses).find? fun c => c.1 == row.2.courseId))

end EnrolmentsRepository

namespace LessonsRepository

def findByCourseId (courseId : Nat) : Method rt (List (Entity .lessons)) := do
  let rows ← BaseRepository.findAll .lessons fun _ row => row.courseId == courseId
  pure (rows.insertionSort fun a b => a.2.orderIndex ≤ b.2.orderIndex)

def findByIdOrFail (lessonId : Nat) : Method rt (Entity .lessons) := do
  match ← BaseRepository.findOne .lessons fun id _ => id == lessonId with
  | none => throwDomain (.lessonNotFound lessonId)
  | some row => pure row

end LessonsRepository

end Mes
