import Mes.Invitations.InvitationsService

/-!
`POST /purchases` and `GET /me/purchases`: the role check, the idempotency
interceptor with its lookup before the handler, the purchase transaction, and
the email job that is queued after the commit. The stored response names the
purchase and the invitation only; the invitation link is in the fresh response
and nowhere else.

Of the queue options only the payload of a job is kept: its retries and its
retention do not matter to the producer.
-/

namespace Mes

open Transact

namespace IdempotencyService

variable {rt : Runtime}

/-- The unique violation of a racing request is told apart by a second look. -/
def persistWithinTransaction (args : IdempotencyKey) :
    Method rt (Entity .idempotencyKeys) :=
  (IdempotencyKeysRepository.insertWithinTransaction args).attempt fun error =>
    match error with
    | .queryFailed .uniqueViolation => do
        let existing ← IdempotencyKeysRepository.findReplay
          args.userId args.endpoint args.key
        if existing.any fun row => row.2.requestHash != args.requestHash then
          throwDomain .idempotencyBodyMismatch
        else throwDomain .idempotencyKeyReused
    | _ => .throw error

end IdempotencyService

namespace PurchasesService

def PURCHASE_ENDPOINT_SIGNATURE : String := "POST /purchases"

def PURCHASE_CREATED_STATUS : Nat := 201

structure IdempotencyContext where
  key : String
  endpoint : String
  requestHash : String

structure CreateArgs where
  parentUserId : Nat
  body : CreatePurchaseDto
  idempotency : IdempotencyContext

structure TransactionResult where
  purchase : Entity .purchases
  invitation : Entity .invitations
  plaintextToken : String
  invitationUrl : String

variable {rt : Runtime}

/-- `CoursesService.findByIdOrThrow`. -/
def findCourseOrThrow (courseId : Nat) : Method rt (Entity .courses) := do
  match ← CoursesRepository.findById courseId with
  | none => throwDomain (.courseNotFound courseId)
  | some row => pure row

def assertNoDuplicatePurchaseByParent (parentUserId courseId : Nat)
    (studentEmail : String) : Method rt Unit := do
  let found ← PurchasesRepository.existsCompletedForParentCourseAndStudent
    parentUserId courseId studentEmail
  if found then throwDomain .duplicatePurchaseForStudent else pure ()

def runCreateTransaction (args : CreateArgs) (course : Entity .courses) :
    Method rt TransactionResult :=
  Sql.transaction do
    let purchase ← PurchasesRepository.insertWithinTransaction fun now =>
      { parentUserId := args.parentUserId
        courseId := course.1
        status := .completed
        amountPence := course.2.pricePence
        idempotencyKey := args.idempotency.key
        createdAt := now }
    let issued ← InvitationsService.issueWithinTransaction
      purchase.1 args.body.studentEmail
    let _ ← IdempotencyService.persistWithinTransaction
      { key := args.idempotency.key
        userId := args.parentUserId
        endpoint := args.idempotency.endpoint
        requestHash := args.idempotency.requestHash
        responseStatus := PURCHASE_CREATED_STATUS
        responseBody := { purchaseId := purchase.1, invitationId := issued.entity.1 } }
    pure
      { purchase := purchase
        invitation := issued.entity
        plaintextToken := issued.plaintextToken
        invitationUrl := issued.invitationUrl }

/-- A failure of the queue is logged and nothing else. -/
def enqueueInvitationEmail (result : TransactionResult) (courseTitle : String) :
    Method rt Unit := do
  let _ ← nodeCall (.addJob
    { invitationId := result.invitation.1
      recipientEmail := result.invitation.2.studentEmail
      courseTitle := courseTitle
      invitationUrl := result.invitationUrl })
  pure ()

def composeCreateResponse (rt : Runtime) (purchase : Entity .purchases)
    (course : Entity .courses) (invitation : Entity .invitations)
    (plaintextToken : String) : PurchaseResponse where
  id := purchase.1
  courseId := course.1
  status := purchase.2.status
  amountPence := purchase.2.amountPence
  createdAt := rt.toISOString purchase.2.createdAt
  invitation := InvitationsService.toResponseWithPlaintext rt invitation plaintextToken

def createPurchase (args : CreateArgs) : Method rt PurchaseResponse := do
  let course ← findCourseOrThrow args.body.courseId
  assertNoDuplicatePurchaseByParent args.parentUserId course.1 args.body.studentEmail
  let result ← runCreateTransaction args course
  enqueueInvitationEmail result course.2.title
  pure (composeCreateResponse rt result.purchase course result.invitation
    result.plaintextToken)

/-- The plaintext token cannot be recovered, so a listed invitation has no URL. -/
def composeListResponse (rt : Runtime) (purchase : Entity .purchases)
    (course : Entity .courses) (invitation : Entity .invitations) :
    PurchaseResponse where
  id := purchase.1
  courseId := course.1
  status := purchase.2.status
  amountPence := purchase.2.amountPence
  createdAt := rt.toISOString purchase.2.createdAt
  invitation :=
    { id := invitation.1
      studentEmail := invitation.2.studentEmail
      status := invitation.2.status
      expiresAt := rt.toISOString invitation.2.expiresAt
      url := "" }

/-- One query for each course. The source sends them at once, together with the
query for the invitations; courses never change, so the order is immaterial. -/
def coursesByIds : List Nat → Method rt (List (Entity .courses))
  | [] => .ret []
  | id :: rest => do
      let course ← findCourseOrThrow id
      let more ← coursesByIds rest
      pure (course :: more)

def missingRow (purchaseId : Nat) : DomainError :=
  .dataIntegrity ("Purchase " ++ toString purchaseId ++
    " is missing course or invitation row — DB invariant broken.")
    [("purchaseId", purchaseId)]

/-- Pair each purchase with its rows. The map by purchase keeps the last of
several invitations, and a gap is an error. -/
def pairRows (rt : Runtime) (courses : List (Entity .courses))
    (invitations : List (Entity .invitations)) :
    List (Entity .purchases) → Except DomainError (List PurchaseResponse)
  | [] => .ok []
  | purchase :: rest =>
      match courses.find? fun c => c.1 == purchase.2.courseId,
        invitations.reverse.find? fun i => i.2.purchaseId == purchase.1 with
      | some course, some invitation => do
          let more ← pairRows rt courses invitations rest
          .ok (composeListResponse rt purchase course invitation :: more)
      | _, _ => .error (missingRow purchase.1)

def listForParent (parentUserId : Nat) : Method rt (List PurchaseResponse) := do
  let purchases ← PurchasesRepository.listByParent parentUserId
  if purchases.isEmpty then pure []
  else
    let courses ← coursesByIds ((purchases.map fun row => row.2.courseId).eraseDups)
    let invitations ← InvitationsRepository.findManyByPurchaseIds
      (purchases.map Prod.fst)
    match pairRows rt courses invitations purchases with
    | .ok list => pure list
    | .error e => throwDomain e

end PurchasesService

namespace IdempotencyInterceptor

variable {rt : Runtime}

def keyChar (c : Char) : Bool :=
  c.isAlphanum || c == '_' || c == '-'

/-- `IDEMPOTENCY_KEY_REGEX`. -/
def validKey (key : String) : Bool :=
  decide (8 ≤ key.length) && decide (key.length ≤ 64) && key.toList.all keyChar

def hashCanonicalBody (rt : Runtime) (body : String) : String :=
  rt.sha256 (rt.canonicaliseBody body)

/-- The lookup before the handler: replay, mismatch, or go on. -/
def intercept (userId : Nat) (endpoint : String) (header : Option String)
    (body : String)
    (next : PurchasesService.IdempotencyContext → Method rt Response) :
    Method rt Response :=
  match header.map rt.trim with
  | none => throwDomain .idempotencyKeyRequired
  | some rawKey =>
      if validKey rawKey = false then throwDomain .idempotencyKeyRequired
      else do
        let requestHash := hashCanonicalBody rt body
        match ← IdempotencyKeysRepository.findReplay userId endpoint rawKey with
        | some existing =>
            if existing.2.requestHash ≠ requestHash then
              throwDomain .idempotencyBodyMismatch
            else
              pure (.purchase existing.2.responseStatus
                (.replayed existing.2.responseBody))
        | none => next { key := rawKey, endpoint := endpoint, requestHash := requestHash }

end IdempotencyInterceptor

namespace PurchasesController

variable {rt : Runtime}

/-- `@Roles(UserRoleEnum.PARENT)`, checked on the claims of the token. -/
def requireRole (user : JwtPayload) (role : UserRole) (next : Method rt Response) :
    Method rt Response :=
  if user.role = role then next else throwDomain .forbidden

/-- The handler behind the interceptor, with the validation pipe before it. The
fields of a validation error are the library's business. -/
def create (user : JwtPayload) (body : String)
    (idempotency : PurchasesService.IdempotencyContext) : Method rt Response :=
  match rt.createPurchaseDto body with
  | none => throwDomain (.validationFailed [])
  | some dto => do
      let response ← PurchasesService.createPurchase
        { parentUserId := user.sub, body := dto, idempotency := idempotency }
      pure (.purchase PurchasesService.PURCHASE_CREATED_STATUS (.created response))

def post (user : JwtPayload) (header : Option String) (body : String) :
    Method rt Response :=
  requireRole user .parent
    (IdempotencyInterceptor.intercept user.sub
      PurchasesService.PURCHASE_ENDPOINT_SIGNATURE header body (create user body))

def listMine (user : JwtPayload) : Method rt Response :=
  requireRole user .parent do
    let list ← PurchasesService.listForParent user.sub
    pure (.purchases list)

end PurchasesController

end Mes
