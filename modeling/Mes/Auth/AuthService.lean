import Mes.Repositories

/-!
`AuthService`: signup, login, refresh-token rotation and logout, and the cleanup
job of the refresh tokens. Each definition is the method of the same name. The
two tasks that a handler starts without waiting, `revokeFamily` after a user has
gone and `rehashIfNeeded` after a login, are requests of their own.

The clock and the grace cache are read in one turn of `refresh`: nothing is
awaited between `new Date()` and `graceCache.get`. The grace entry is written in
a later turn, after the transaction has committed.
-/

namespace Mes

open Transact

namespace AuthService

def REFRESH_TOKEN_TTL_DAYS : Nat := 7

def REFRESH_TOKEN_GRACE_DAYS : Nat := 7

def REFRESH_TOKEN_FORENSIC_DAYS : Nat := 30

def REFRESH_TOKEN_RETENTION_BREACH_DAYS : Nat := 60

variable {rt : Runtime}

def hashToken (rt : Runtime) (raw : String) : String :=
  rt.sha256 raw

def computeExpiresAt (now : Time) (days : Nat) : Time :=
  now + days * MS_PER_DAY

def issueToken (rt : Runtime) (user : Entity .users) : AuthTokenResponse where
  accessToken := { sub := user.1, role := user.2.role }
  expiresIn := rt.jwtExpiresInSeconds

def generateRawToken : Method rt String :=
  randomBytes

def hashPassword (plain : String) : Method rt String :=
  argon2Hash plain

def setGraceEntry (oldHash successorRaw : String) (successorExpiresAt : Time) :
    Method rt Unit :=
  nodeCall (.setGraceEntry oldHash successorRaw successorExpiresAt)

def issueRefreshToken (userId : Nat) (requestMeta : RequestMeta) :
    Method rt RefreshTokenPair := do
  let raw ← generateRawToken
  let familyId ← randomUUID
  let (now, _) ← turn
  let expiresAt := computeExpiresAt now REFRESH_TOKEN_TTL_DAYS
  Sql.transaction do
    let _ ← RefreshTokensRepository.insertNew
      { userId := userId
        familyId := familyId
        tokenHash := hashToken rt raw
        expiresAt := expiresAt
        userAgent := requestMeta.userAgent
        ip := requestMeta.ip }
    pure ()
  pure { raw := raw, expiresAt := expiresAt }

/-- `insertUser`, with the unique violation translated. -/
def insertParent (user : User) : Method rt (Entity .users) :=
  (UsersRepository.insertUser user).attempt fun error =>
    match error with
    | .queryFailed .uniqueViolation => throwDomain .userEmailTaken
    | _ => .throw error

def signup (input : SignupDto) (requestMeta : RequestMeta) :
    Method rt LoginResult := do
  match ← UsersRepository.findByEmail input.email with
  | some _ => throwDomain .userEmailTaken
  | none =>
      let passwordHash ← hashPassword input.password
      let user ← insertParent
        { email := input.email
          passwordHash := passwordHash
          role := .parent
          firstName := input.firstName
          lastName := input.lastName
          dateOfBirth := none }
      let refreshToken ← issueRefreshToken user.1 requestMeta
      pure { accessToken := issueToken rt user, refreshToken := refreshToken }

/-- Start a request that nobody waits for. -/
def forget (req : Request) : Method rt Unit :=
  .step (.fork req) .ret

def login (input : LoginDto) (requestMeta : RequestMeta) :
    Method rt LoginResult := do
  match ← UsersRepository.findByEmail input.email with
  | none => throwDomain (.unauthorized .invalidCredentials)
  | some user =>
      let matched ← argon2Verify user.2.passwordHash input.password
      if matched = false then throwDomain (.unauthorized .invalidCredentials)
      else
        forget (.rehashIfNeeded user.1 user.2.passwordHash input.password)
        let refreshToken ← issueRefreshToken user.1 requestMeta
        pure { accessToken := issueToken rt user, refreshToken := refreshToken }

structure AuthUserProfile where
  id : Nat
  email : String
  role : UserRole
  firstName : Option String
  lastName : Option String
  deriving DecidableEq, Repr

def getProfile (userId : Nat) : Method rt AuthUserProfile := do
  match ← UsersRepository.findById userId with
  | none => throwDomain (.unauthorized .invalidToken)
  | some user =>
      pure
        { id := user.1
          email := user.2.email
          role := user.2.role
          firstName := user.2.firstName
          lastName := user.2.lastName }

/-- Best effort: whatever goes wrong is only logged. -/
def rehashIfNeeded (userId : Nat) (passwordHash plain : String) : Method rt Unit :=
  if rt.argon2NeedsRehash passwordHash = false then .ret ()
  else
    Prog.attempt (do
      let fresh ← hashPassword plain
      UsersRepository.updatePasswordHash userId fresh) fun _ => .ret ()

/-- What the rotation transaction ends with: the cached successor of a retry, or
a new successor. -/
inductive RotationOutcome where
  | retried (loginResult : LoginResult)
  | rotated (loginResult : LoginResult) (newRaw : String) (newExpiresAt : Time)

def withinGraceWindow (row : RefreshToken) (now : Time) : Bool :=
  row.revokedAt.any fun revokedAt => decide (now < revokedAt + GRACE_MS)

def handleRevokedToken (row : RefreshToken) (hash : String)
    (requestMeta : RequestMeta) (now : Time)
    (graceCache : String → Option GraceEntry) : Method rt LoginResult := do
  let uaMatch := row.userAgent == requestMeta.userAgent
  match graceCache hash, withinGraceWindow row now && uaMatch with
  | some graceCached, true =>
      match ← UsersRepository.findById row.userId with
      | none => throwDomain (.unauthorized .invalidToken)
      | some user =>
          pure
            { accessToken := issueToken rt user
              refreshToken :=
                { raw := graceCached.successorRaw
                  expiresAt := graceCached.successorExpiresAt } }
  | _, _ =>
      let _ ← RefreshTokensRepository.revokeFamily row.familyId
      throwDomain (.refreshToken .reused)

def buildRotationPayload (row : Entity .refreshTokens) (requestMeta : RequestMeta)
    (now : Time) : Method rt RotationOutcome := do
  let newExpiresAt := computeExpiresAt now REFRESH_TOKEN_TTL_DAYS
  let newRaw ← generateRawToken
  let newRow ← RefreshTokensRepository.insertNew
    { userId := row.2.userId
      familyId := row.2.familyId
      tokenHash := hashToken rt newRaw
      expiresAt := newExpiresAt
      userAgent := requestMeta.userAgent
      ip := requestMeta.ip }
  let _ ← RefreshTokensRepository.revokeRow row.1 newRow.1
  match ← UsersRepository.findById row.2.userId with
  | none =>
      forget (.revokeFamily row.2.familyId)
      throwDomain (.refreshToken .invalid)
  | some user =>
      pure (.rotated
        { accessToken := issueToken rt user
          refreshToken := { raw := newRaw, expiresAt := newExpiresAt } }
        newRaw newExpiresAt)

def executeRotationTransaction (hash : String) (requestMeta : RequestMeta) :
    Method rt RotationOutcome :=
  Sql.transaction do
    match ← RefreshTokensRepository.selectForUpdate hash with
    | none => throwDomain (.refreshToken .invalid)
    | some row =>
        let (now, graceCache) ← turn
        if row.2.expiresAt ≤ now then throwDomain (.refreshToken .expired)
        else if row.2.revokedAt.isSome then
          let result ← handleRevokedToken row.2 hash requestMeta now graceCache
          pure (.retried result)
        else buildRotationPayload row requestMeta now

def refresh (rawToken : String) (requestMeta : RequestMeta) :
    Method rt LoginResult := do
  let hash := hashToken rt rawToken
  match ← executeRotationTransaction hash requestMeta with
  | .retried loginResult => pure loginResult
  | .rotated loginResult newRaw newExpiresAt =>
      setGraceEntry hash newRaw newExpiresAt
      pure loginResult

def logout (rawToken : Option String) : Method rt Unit :=
  match rawToken with
  | none => .ret ()
  | some raw =>
      if raw = "" then .ret ()
      else do
        match ← RefreshTokensRepository.findByTokenHash (hashToken rt raw) with
        | none => pure ()
        | some row =>
            if row.2.revokedAt.isSome then pure ()
            else
              Sql.transaction do
                let _ ← RefreshTokensRepository.revokeRowForLogout row.1
                pure ()

/-- `RefreshTokenCleanupProcessor.runCleanup`. A breach is only logged. -/
def runCleanup : Method rt Response := do
  let (deletedExpired, deletedRevoked) ←
    RefreshTokensRepository.deleteExpiredAndStaleRevoked
      REFRESH_TOKEN_GRACE_DAYS REFRESH_TOKEN_FORENSIC_DAYS
  let count ← RefreshTokensRepository.countPastForensicWindow
    REFRESH_TOKEN_RETENTION_BREACH_DAYS
  pure (.cleaned deletedExpired deletedRevoked count)

/-- The family revocation after a user has gone, on a connection of its own. -/
def revokeFamilyTask (familyId : String) : Method rt Unit :=
  Prog.attempt (Sql.transaction do
    let _ ← RefreshTokensRepository.revokeFamily familyId
    pure ()) fun _ => .ret ()

end AuthService

end Mes
