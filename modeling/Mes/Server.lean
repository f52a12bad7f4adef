import Mes.Schema
import Mes.Transact.Sql

/-!
The node process: its memory, what it does between two awaits, and its
requests. The grace cache of `AuthService` is a map with one timer for each
entry; the invitation-email queue is the list of jobs it accepted. Synchronous
code runs in one piece, so the clock and the grace cache are read together by
one operation, `turn`.

Random values are chosen by the scheduler. They are never empty and never
repeat, which is how the sources of randomness are idealised; `minted`
remembers who drew which value. Loggers are left out.
-/

namespace Mes

open Transact

def REFRESH_REUSE_GRACE_SECONDS : Nat := 10

/-- The lifetime of a grace entry and of the grace window, in milliseconds. -/
def GRACE_MS : Time := REFRESH_REUSE_GRACE_SECONDS * 1000

structure GraceEntry where
  successorRaw : String
  successorExpiresAt : Time
  /-- When the timer of the entry goes off. -/
  timer : Time
  deriving DecidableEq, Repr

structure InvitationEmailJob where
  invitationId : Nat
  recipientEmail : String
  courseTitle : String
  invitationUrl : String
  deriving DecidableEq, Repr

structure Memory where
  graceCache : String → Option GraceEntry := fun _ => none
  invitationEmailQueue : List InvitationEmailJob := []
  minted : String → Option Pid := fun _ => none

inductive NodeOp where
  /-- Read the clock and the grace cache at one instant. -/
  | turn
  | randomBytes
  | randomUUID
  | argon2Hash (plain : String)
  | setGraceEntry (oldHash successorRaw : String) (successorExpiresAt : Time)
  /-- `queue.add`; the answer says whether the queue took the job. -/
  | addJob (job : InvitationEmailJob)

@[reducible] def NodeOp.Res : NodeOp → Type
  | .turn => Time × (String → Option GraceEntry)
  | .randomBytes => String
  | .randomUUID => String
  | .argon2Hash _ => String
  | .setGraceEntry _ _ _ => Unit
  | .addJob _ => Bool

/-- What the environment decides: a random text, and whether Redis answers. -/
structure Choice where
  text : String := ""
  reachable : Bool := true

/-- Draw a random value that nobody drew before. -/
def Memory.mint (m : Memory) (p : Pid) (text : String) : Option (String × Memory) :=
  if text = "" then none
  else
    match m.minted text with
    | some _ => none
    | none => some (text, { m with minted := Function.update m.minted text (some p) })

def Memory.exec (rt : Runtime) (p : Pid) (now : Time) (op : NodeOp) (choice : Choice)
    (m : Memory) : Option (op.Res × Memory) :=
  match op with
  | .turn => some ((now, m.graceCache), m)
  | .randomBytes => m.mint p choice.text
  | .randomUUID => m.mint p choice.text
  | .argon2Hash plain => some (rt.argon2Hash plain choice.text, m)
  | .setGraceEntry oldHash successorRaw successorExpiresAt =>
      some ((), { m with
        graceCache := Function.update m.graceCache oldHash (some
          { successorRaw := successorRaw
            successorExpiresAt := successorExpiresAt
            timer := now + GRACE_MS }) })
  | .addJob job =>
      if choice.reachable then
        some (true, { m with
          invitationEmailQueue := m.invitationEmailQueue ++ [job] })
      else some (false, m)

/-- The timer of a grace entry evicts it, at its time or later. -/
def Memory.fire (now : Time) (oldHash : String) (m : Memory) : Option Memory :=
  match m.graceCache oldHash with
  | none => none
  | some entry =>
      if entry.timer ≤ now then
        some { m with graceCache := Function.update m.graceCache oldHash none }
      else none

theorem Memory.mint_cases {m m' : Memory} {p : Pid} {text res : String}
    (hmint : m.mint p text = some (res, m')) :
    m.minted res = none ∧ res ≠ "" ∧
      m' = { m with minted := Function.update m.minted res (some p) } := by
  simp only [Memory.mint] at hmint
  split at hmint
  · cases hmint
  · rename_i hnonempty
    split at hmint
    · cases hmint
    · rename_i hnone
      obtain ⟨rfl, rfl⟩ := Prod.mk.inj (Option.some.inj hmint)
      exact ⟨hnone, hnonempty, rfl⟩

theorem Memory.fire_cases {m m' : Memory} {now : Time} {oldHash : String}
    (hfire : m.fire now oldHash = some m') :
    ∃ entry, m.graceCache oldHash = some entry ∧ entry.timer ≤ now ∧
      m' = { m with graceCache := Function.update m.graceCache oldHash none } := by
  simp only [Memory.fire] at hfire
  split at hfire
  · cases hfire
  · rename_i entry hentry
    split at hfire
    · rename_i hdue
      exact ⟨entry, hentry, hdue, (Option.some.inj hfire).symm⟩
    · cases hfire

structure RequestMeta where
  userAgent : Option String
  ip : Option String
  deriving DecidableEq, Repr

structure SignupDto where
  email : String
  password : String
  firstName : Option String
  lastName : Option String
  deriving DecidableEq, Repr

structure LoginDto where
  email : String
  password : String
  deriving DecidableEq, Repr

structure RedeemInvitationDto where
  token : String
  firstName : Option String
  lastName : Option String
  dateOfBirth : Option String
  password : String
  deriving DecidableEq, Repr

/-- The claims of an access token. Its issue and expiry times are left out. -/
structure JwtPayload where
  sub : Nat
  role : UserRole
  deriving DecidableEq, Repr

/-- A request of a client, a job of a queue, or one of the two tasks that a handler
starts and does not wait for. -/
inductive Request where
  | signup (input : SignupDto) (requestMeta : RequestMeta)
  | login (input : LoginDto) (requestMeta : RequestMeta)
  | refresh (rawToken : String) (requestMeta : RequestMeta)
  | logout (rawToken : Option String)
  | cleanup
  | createPurchase (user : JwtPayload) (idempotencyKey : Option String) (body : String)
  | listMine (user : JwtPayload)
  | redeem (dto : RedeemInvitationDto)
  | listLessonsForCourse (user : JwtPayload) (courseId : Nat)
  | getLesson (user : JwtPayload) (lessonId : Nat)
  | sendInvitationEmail (job : InvitationEmailJob)
  | revokeFamily (familyId : String)
  | rehashIfNeeded (userId : Nat) (passwordHash plain : String)
  deriving DecidableEq

structure AuthTokenResponse where
  accessToken : JwtPayload
  expiresIn : Nat
  deriving DecidableEq, Repr

structure RefreshTokenPair where
  raw : String
  expiresAt : Time
  deriving DecidableEq, Repr

structure LoginResult where
  accessToken : AuthTokenResponse
  refreshToken : RefreshTokenPair
  deriving DecidableEq, Repr

structure InvitationResponse where
  id : Nat
  studentEmail : String
  status : InvitationStatus
  expiresAt : String
  url : String
  deriving DecidableEq, Repr

structure PurchaseResponse where
  id : Nat
  courseId : Nat
  status : PurchaseStatus
  amountPence : Nat
  createdAt : String
  invitation : InvitationResponse
  deriving DecidableEq, Repr

/-- The body of an answer to `POST /purchases`: composed by the handler, or
replayed from the idempotency row. -/
inductive PurchaseAnswer where
  | created (body : PurchaseResponse)
  | replayed (body : ReplayBody)
  deriving DecidableEq, Repr

structure LessonResponse where
  id : Nat
  courseId : Nat
  title : String
  body : String
  orderIndex : Nat
  createdAt : String
  deriving DecidableEq, Repr

structure CourseWithLessonsResponse where
  id : Nat
  subject : CourseSubject
  yearFrom : Nat
  yearTo : Nat
  title : String
  pricePence : Nat
  lessons : List LessonResponse
  deriving DecidableEq, Repr

inductive Response where
  | session (result : LoginResult)
  | cleaned (deletedExpired deletedRevoked pastForensicWindow : Nat)
  | purchase (status : Nat) (answer : PurchaseAnswer)
  | purchases (list : List PurchaseResponse)
  | token (token : AuthTokenResponse)
  | course (course : CourseWithLessonsResponse)
  | lesson (lesson : LessonResponse)
  | done
  deriving DecidableEq

/-- The backend as one platform over its database. -/
abbrev platform (rt : Runtime) : Platform where
  Mem := Memory
  Op := NodeOp
  Res := NodeOp.Res
  Choice := Choice
  exec := Memory.exec rt
  Timer := String
  fire := Memory.fire
  Req := Request
  Err := AppError
  Ans := Response
  fail := AppError.queryFailed

/-- The view of the backend. -/
abbrev BackendView (rt : Runtime) := View (schema rt) (platform rt)

abbrev BackendWorld (rt : Runtime) := World (schema rt) (platform rt)

/-- A method of the backend. -/
abbrev Method (rt : Runtime) (α : Type) := Code (schema rt) (platform rt) α

section Operations

variable {rt : Runtime}

def nodeCall (op : NodeOp) : Method rt op.Res :=
  .step (.node op) .ret

/-- The clock and the grace cache at one instant. -/
def turn : Method rt (Time × (String → Option GraceEntry)) :=
  nodeCall .turn

def randomBytes : Method rt String :=
  nodeCall .randomBytes

def randomUUID : Method rt String :=
  nodeCall .randomUUID

def argon2Hash (plain : String) : Method rt String :=
  nodeCall (.argon2Hash plain)

def throwDomain {α : Type} (e : DomainError) : Method rt α :=
  .throw (.domain e)

/-- `argon2.verify`, which raises an exception on a malformed hash. -/
def argon2Verify (digest plain : String) : Method rt Bool :=
  match rt.argon2Verify digest plain with
  | some matched => .ret matched
  | none => .throw .verifyThrew

end Operations

end Mes
