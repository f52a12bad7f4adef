import Mes.RowVersions

/-!
What each request may write. A footprint lists the tables, and says whether the
grace cache and the email queue may be written, and whether a password may be
hashed again. It bounds the writes whatever the environment answers, so a program
can be ignored by every argument about the tables outside its footprint. `Keeps`
adds that every row it changes gets one of the allowed versions; both are shown in
one walk over the programs.
-/

namespace Mes

open Transact

structure Footprint where
  tables : List Tbl := []
  graceCache : Bool := false
  queue : Bool := false
  rehash : Bool := false

variable {rt : Runtime}

def Footprint.allows (fp : Footprint) : Call (schema rt) (platform rt) → Prop
  | .sql (.touch t _ _ _) => t ∈ fp.tables
  | .sql (.insert t _) => t ∈ fp.tables
  | .node (.setGraceEntry _ _ _) => fp.graceCache = true
  | .node (.addJob _) => fp.queue = true
  | .fork (.rehashIfNeeded _ _ _) => fp.rehash = true
  | _ => True

def footprint : Request → Footprint
  | .signup _ _ => { tables := [.users, .refreshTokens] }
  | .login _ _ => { tables := [.refreshTokens], rehash := true }
  | .refresh _ _ => { tables := [.refreshTokens], graceCache := true }
  | .logout _ => { tables := [.refreshTokens] }
  | .cleanup => { tables := [.refreshTokens] }
  | .createPurchase _ _ _ =>
      { tables := [.purchases, .invitations, .idempotencyKeys], queue := true }
  | .listMine _ => {}
  | .redeem _ => { tables := [.invitations, .users, .enrolments] }
  | .listLessonsForCourse _ _ => {}
  | .getLesson _ _ => {}
  | .sendInvitationEmail _ => { tables := [.invitations] }
  | .revokeFamily _ => { tables := [.refreshTokens] }
  | .rehashIfNeeded _ _ _ => { tables := [.users] }

/-- A method of the backend stays within a footprint. -/
abbrev Within (fp : Footprint) {α : Type} (x : Method rt α) : Prop :=
  x.Uses fp.allows

/-- It also changes rows only as the backend's rows may change. -/
abbrev Keeps (fp : Footprint) {α : Type} (x : Method rt α) : Prop :=
  x.Uses fun c => fp.allows c ∧ (rowVersions rt).Obeys c

theorem Keeps.within {fp : Footprint} {α : Type} {x : Method rt α} (hkeeps : Keeps fp x) :
    Within fp x :=
  hkeeps.mono fun _ hc => hc.1

theorem Keeps.obeys {fp : Footprint} {α : Type} {x : Method rt α} (hkeeps : Keeps fp x) :
    x.Uses (rowVersions rt).Obeys :=
  hkeeps.mono fun _ hc => hc.2

section Statements

variable {fp : Footprint} {α β : Type}

theorem keeps_bind {x : Method rt α} {f : α → Method rt β} (hx : Keeps fp x)
    (hf : ∀ a, Keeps fp (f a)) : Keeps fp (x >>= f) :=
  Prog.Uses.andThen hx hf

theorem keeps_attempt {x : Method rt α} {handler : AppError → Method rt α}
    (hx : Keeps fp x) (hhandler : ∀ e, Keeps fp (handler e)) :
    Keeps fp (Prog.attempt x handler) :=
  Prog.Uses.attempt hx hhandler

theorem keeps_answer (r : Except SqlError α) :
    Keeps fp (Sql.answer r : Method rt α) := by
  cases r <;> trivial

theorem keeps_read (conn : Conn) : Keeps fp (Sql.read conn : Method rt _) :=
  ⟨⟨trivial, trivial⟩, keeps_answer⟩

theorem keeps_touchEach {t : Tbl} {where_ : Time → t.Row → Bool}
    {set : Time → Change (schema rt) t} (ht : t ∈ fp.tables)
    (hset : ∀ now r, where_ now r = true →
      (rowVersions rt).allows t now r ((set now).apply r))
    (found : List (Entity t)) (ids : List Nat) :
    Keeps fp (Sql.touchEach (σ := schema rt) (P := platform rt) t where_ set found ids) := by
  induction ids generalizing found with
  | nil => trivial
  | cons id rest ih => exact Prog.Uses.andThen ⟨⟨ht, hset⟩, keeps_answer⟩ fun row => ih _

theorem keeps_sweep {t : Tbl} {where_ : Time → t.Row → Bool}
    {set : Time → Change (schema rt) t} (ht : t ∈ fp.tables)
    (hset : ∀ now r, where_ now r = true →
      (rowVersions rt).allows t now r ((set now).apply r)) :
    Keeps fp (Sql.sweep (σ := schema rt) (P := platform rt) t where_ set) :=
  keeps_bind (keeps_read .manager) fun _ => keeps_touchEach ht hset [] _

theorem keeps_node {op : NodeOp} (hop : fp.allows (.node op : Call (schema rt) (platform rt))) :
    Keeps fp (nodeCall op : Method rt op.Res) :=
  ⟨⟨hop, trivial⟩, fun _ => trivial⟩

theorem keeps_transaction {x : Method rt α} (hx : Keeps fp x) :
    Keeps fp (Sql.transaction x) :=
  ⟨⟨trivial, trivial⟩, fun _ => keeps_attempt
    (keeps_bind hx fun _ => ⟨⟨trivial, trivial⟩, fun _ => trivial⟩)
      fun _ => ⟨⟨trivial, trivial⟩, fun _ => trivial⟩⟩

theorem keeps_save {t : Tbl} (ht : t ∈ fp.tables) (row : Time → t.Row) :
    Keeps fp (@BaseRepository.save rt t row) :=
  ⟨⟨ht, trivial⟩, keeps_answer⟩

theorem keeps_findAll (t : Tbl) (where_ : Nat → t.Row → Bool) :
    Keeps fp (@BaseRepository.findAll rt t where_) :=
  keeps_bind (keeps_read .pool) fun _ => trivial

theorem keeps_findOne (t : Tbl) (where_ : Nat → t.Row → Bool) :
    Keeps fp (@BaseRepository.findOne rt t where_) :=
  keeps_bind (keeps_read .pool) fun _ => trivial

theorem keeps_throwDomain (e : DomainError) :
    Keeps fp (throwDomain e : Method rt α) := trivial

theorem keeps_random : Keeps fp (randomBytes : Method rt String) :=
  keeps_node trivial

theorem keeps_turn : Keeps fp (turn : Method rt _) :=
  keeps_node trivial

end Statements

section Tokens

variable {fp : Footprint}

theorem keeps_issueRefreshToken (ht : .refreshTokens ∈ fp.tables) (userId : Nat)
    (requestMeta : RequestMeta) :
    Keeps fp (@AuthService.issueRefreshToken rt userId requestMeta) := by
  refine keeps_bind keeps_random fun raw => keeps_bind keeps_random fun family => ?_
  refine keeps_bind keeps_turn fun now => keeps_bind (keeps_transaction ?_) ?_
  · exact keeps_bind (keeps_save ht _) fun _ => trivial
  · exact fun _ => trivial

theorem keeps_revokeById (ht : .refreshTokens ∈ fp.tables) (id : Nat)
    (replacedById : Option Nat) :
    Keeps fp (@RefreshTokensRepository.revokeById rt id replacedById) :=
  keeps_bind (keeps_read .manager) fun _ =>
    keeps_bind (keeps_touchEach ht (fun _ _ => revoke_allowed rt replacedById) [] _)
      fun _ => trivial

theorem keeps_revokeFamily (ht : .refreshTokens ∈ fp.tables) (familyId : String) :
    Keeps fp (@RefreshTokensRepository.revokeFamily rt familyId) :=
  keeps_bind (keeps_sweep ht fun _ _ hrow =>
    revoke_allowed rt none (Bool.and_eq_true_iff.mp hrow).2) fun _ => trivial

theorem keeps_deleteWhere (ht : .refreshTokens ∈ fp.tables)
    {where_ : Time → RefreshToken → Bool}
    (hwhere : ∀ now r, where_ now r = true → Aged now r none) :
    Keeps fp (@RefreshTokensRepository.deleteWhere rt where_) :=
  keeps_bind (keeps_sweep ht hwhere) fun _ =>
    keeps_bind (keeps_sweep ht fun now r _ => clearReplacedBy_allowed rt now r)
      fun _ => trivial

theorem keeps_runCleanup (ht : .refreshTokens ∈ fp.tables) :
    Keeps fp (@AuthService.runCleanup rt) := by
  refine keeps_bind (keeps_transaction ?_) fun counts => ?_
  · exact keeps_bind (keeps_deleteWhere ht fun _ _ => deleteExpired_allowed rt) fun _ =>
      keeps_bind (keeps_deleteWhere ht fun _ _ => deleteRevoked_allowed rt) fun _ => trivial
  · exact keeps_bind (keeps_bind (keeps_read .pool) fun _ => trivial) fun _ => trivial

theorem keeps_handleRevokedToken (ht : .refreshTokens ∈ fp.tables) (row : RefreshToken)
    (hash : String) (requestMeta : RequestMeta) (now : Time)
    (graceCache : String → Option GraceEntry) :
    Keeps fp (@AuthService.handleRevokedToken rt row hash requestMeta now
      graceCache) := by
  unfold AuthService.handleRevokedToken
  dsimp only
  split
  · refine keeps_bind (keeps_findOne _ _) fun user => ?_
    cases user <;> trivial
  · exact keeps_bind (keeps_revokeFamily ht _) fun _ => keeps_throwDomain _

theorem keeps_buildRotationPayload (ht : .refreshTokens ∈ fp.tables)
    (row : Entity .refreshTokens) (requestMeta : RequestMeta) (now : Time) :
    Keeps fp (@AuthService.buildRotationPayload rt row requestMeta now) := by
  refine keeps_bind keeps_random fun raw => keeps_bind (keeps_save ht _) fun new => ?_
  refine keeps_bind (keeps_revokeById ht _ _) fun _ =>
    keeps_bind (keeps_findOne _ _) fun user => ?_
  cases user with
  | none => exact ⟨⟨trivial, trivial⟩, fun _ => keeps_throwDomain _⟩
  | some user => trivial

theorem keeps_refresh (ht : .refreshTokens ∈ fp.tables) (hgrace : fp.graceCache = true)
    (rawToken : String) (requestMeta : RequestMeta) :
    Keeps fp (@AuthService.refresh rt rawToken requestMeta) := by
  refine keeps_bind (keeps_transaction ?_) fun outcome => ?_
  · refine keeps_bind (keeps_bind (keeps_sweep ht fun now r _ =>
      keep_allowed rt _ now r) fun _ => trivial) fun found => ?_
    cases found with
    | none => exact keeps_throwDomain _
    | some row =>
        refine keeps_bind keeps_turn fun answer => ?_
        dsimp only
        split
        · exact keeps_throwDomain _
        · split
          · exact keeps_bind (keeps_handleRevokedToken ht _ _ _ _ _) fun _ => trivial
          · exact keeps_buildRotationPayload ht row requestMeta _
  · cases outcome with
    | retried result => trivial
    | rotated result newRaw newExpiresAt =>
        exact keeps_bind (keeps_node hgrace) fun _ => trivial

theorem keeps_logout (ht : .refreshTokens ∈ fp.tables) (rawToken : Option String) :
    Keeps fp (@AuthService.logout rt rawToken) := by
  unfold AuthService.logout
  cases rawToken with
  | none => trivial
  | some raw =>
      dsimp only
      split
      · trivial
      · refine keeps_bind (keeps_findOne _ _) fun found => ?_
        cases found with
        | none => trivial
        | some row =>
            dsimp only
            split
            · trivial
            · exact keeps_transaction
                (keeps_bind (keeps_revokeById ht _ _) fun _ => trivial)

end Tokens

section Accounts

variable {fp : Footprint}

theorem keeps_insertParent (ht : .users ∈ fp.tables) (user : User) :
    Keeps fp (@AuthService.insertParent rt user) := by
  refine keeps_attempt (keeps_transaction (keeps_save ht _)) fun error => ?_
  split <;> trivial

theorem keeps_hashPassword (plain : String) :
    Keeps fp (@AuthService.hashPassword rt plain) :=
  keeps_node trivial

theorem keeps_signup (hu : .users ∈ fp.tables) (ht : .refreshTokens ∈ fp.tables)
    (input : SignupDto) (requestMeta : RequestMeta) :
    Keeps fp (@AuthService.signup rt input requestMeta) := by
  refine keeps_bind (keeps_findOne _ _) fun found => ?_
  cases found with
  | some user => exact keeps_throwDomain _
  | none =>
      exact keeps_bind (keeps_hashPassword _) fun _ =>
        keeps_bind (keeps_insertParent hu _) fun _ =>
          keeps_bind (keeps_issueRefreshToken ht _ _) fun _ => trivial

theorem keeps_argon2Verify (digest plain : String) :
    Keeps fp (@argon2Verify rt digest plain) := by
  unfold argon2Verify
  split <;> trivial

theorem keeps_login (ht : .refreshTokens ∈ fp.tables) (hrehash : fp.rehash = true)
    (input : LoginDto) (requestMeta : RequestMeta) :
    Keeps fp (@AuthService.login rt input requestMeta) := by
  refine keeps_bind (keeps_findOne _ _) fun found => ?_
  cases found with
  | none => exact keeps_throwDomain _
  | some user =>
      refine keeps_bind (keeps_argon2Verify _ _) fun matched => ?_
      split
      · exact keeps_throwDomain _
      · exact keeps_bind ⟨⟨hrehash, trivial⟩, fun _ => trivial⟩ fun _ =>
          keeps_bind (keeps_issueRefreshToken ht _ _) fun _ => trivial

theorem keeps_rehashIfNeeded (hu : .users ∈ fp.tables) (userId : Nat)
    (passwordHash plain : String) :
    Keeps fp (@AuthService.rehashIfNeeded rt userId passwordHash plain) := by
  unfold AuthService.rehashIfNeeded
  split
  · trivial
  · refine keeps_attempt (keeps_bind (keeps_hashPassword _) fun fresh => ?_)
      fun _ => trivial
    exact keeps_transaction (keeps_bind (keeps_read .manager) fun _ =>
      keeps_bind (keeps_touchEach hu
        (fun now user _ => setPasswordHash_allowed rt fresh now user) [] _) fun _ => trivial)

end Accounts

theorem keeps_requireRole {fp : Footprint} (user : JwtPayload) (role : UserRole)
    {next : Method rt Response} (hnext : Keeps fp next) :
    Keeps fp (PurchasesController.requireRole user role next) := by
  unfold PurchasesController.requireRole
  split
  · exact hnext
  · exact keeps_throwDomain _

section Shop

variable {fp : Footprint}

theorem keeps_findCourseOrThrow (courseId : Nat) :
    Keeps fp (@PurchasesService.findCourseOrThrow rt courseId) := by
  refine keeps_bind (keeps_findOne _ _) fun found => ?_
  cases found <;> trivial

theorem keeps_runCreateTransaction (hp : .purchases ∈ fp.tables)
    (hi : .invitations ∈ fp.tables) (hk : .idempotencyKeys ∈ fp.tables)
    (args : PurchasesService.CreateArgs) (course : Entity .courses) :
    Keeps fp (@PurchasesService.runCreateTransaction rt args course) := by
  refine keeps_transaction (keeps_bind (keeps_save hp _) fun purchase => ?_)
  refine keeps_bind ?_ fun issued => keeps_bind ?_ fun _ => trivial
  · exact keeps_bind keeps_random fun _ => keeps_bind keeps_turn fun _ =>
      keeps_bind (keeps_save hi _) fun _ => trivial
  · refine keeps_attempt (keeps_save hk _) fun error => ?_
    split
    · refine keeps_bind (keeps_findOne _ _) fun existing => ?_
      split <;> trivial
    · trivial

theorem keeps_create (hp : .purchases ∈ fp.tables) (hi : .invitations ∈ fp.tables)
    (hk : .idempotencyKeys ∈ fp.tables) (hq : fp.queue = true) (user : JwtPayload)
    (body : String) (idempotency : PurchasesService.IdempotencyContext) :
    Keeps fp (@PurchasesController.create rt user body idempotency) := by
  unfold PurchasesController.create
  split
  · exact keeps_throwDomain _
  · refine keeps_bind ?_ fun _ => trivial
    refine keeps_bind (keeps_findCourseOrThrow _) fun course =>
      keeps_bind ?_ fun _ => ?_
    · refine keeps_bind (keeps_bind (keeps_read .pool) fun _ => trivial) fun found => ?_
      split <;> trivial
    · refine keeps_bind (keeps_runCreateTransaction hp hi hk _ _)
        fun result => keeps_bind ?_ fun _ => trivial
      exact keeps_bind (keeps_node hq) fun _ => trivial

theorem keeps_post (hp : .purchases ∈ fp.tables) (hi : .invitations ∈ fp.tables)
    (hk : .idempotencyKeys ∈ fp.tables) (hq : fp.queue = true) (user : JwtPayload)
    (header : Option String) (body : String) :
    Keeps fp (@PurchasesController.post rt user header body) := by
  refine keeps_requireRole user .parent ?_
  unfold IdempotencyInterceptor.intercept
  split
  · exact keeps_throwDomain _
  · split
    · exact keeps_throwDomain _
    · refine keeps_bind (keeps_findOne _ _) fun found => ?_
      cases found with
      | some existing =>
          dsimp only
          split <;> trivial
      | none => exact keeps_create hp hi hk hq user body _

theorem keeps_coursesByIds (ids : List Nat) :
    Keeps fp (@PurchasesService.coursesByIds rt ids) := by
  induction ids with
  | nil => trivial
  | cons id rest ih =>
      exact keeps_bind (keeps_findCourseOrThrow id) fun _ =>
        keeps_bind ih fun _ => trivial

theorem keeps_listMine (user : JwtPayload) :
    Keeps fp (@PurchasesController.listMine rt user) := by
  refine keeps_requireRole user .parent ?_
  refine keeps_bind (keeps_bind ?_ fun purchases => ?_) fun _ => trivial
  · exact keeps_bind (keeps_findAll _ _) fun _ => trivial
  · split
    · trivial
    · refine keeps_bind (keeps_coursesByIds _) fun courses =>
        keeps_bind ?_ fun invitations => ?_
      · unfold InvitationsRepository.findManyByPurchaseIds
        split
        · trivial
        · exact keeps_findAll _ _
      · split <;> trivial

end Shop

section Students

variable {fp : Footprint}

theorem keeps_resolveOrThrow (hi : .invitations ∈ fp.tables) (tokenHash : String) :
    Keeps fp (@InvitationsService.resolveOrThrow rt tokenHash) := by
  refine keeps_bind ?_ fun redeemed => ?_
  · exact keeps_bind (keeps_read .manager) fun s =>
      keeps_bind (keeps_touchEach hi (fun _ _ => markRedeemed_allowed rt) [] _)
        fun _ => trivial
  · cases redeemed with
    | some redeemed => trivial
    | none =>
        refine keeps_bind (keeps_findOne _ _) fun found => ?_
        cases found with
        | none => exact keeps_throwDomain _
        | some existing =>
            dsimp only
            split <;> trivial

theorem keeps_markEmailSent (hi : .invitations ∈ fp.tables) (invitationId : Nat) :
    Keeps fp (@InvitationsRepository.markEmailSent rt invitationId) :=
  keeps_transaction (keeps_bind (keeps_read .manager) fun _ =>
    keeps_bind (keeps_touchEach hi (fun _ _ => setEmailSentAt_allowed rt) [] _) fun _ => trivial)

theorem keeps_process (hi : .invitations ∈ fp.tables) (job : InvitationEmailJob) :
    Keeps fp ((InvitationEmailProcessor.process job).method : Method rt _) := by
  rw [process_method]
  refine keeps_bind (keeps_findOne _ _) fun found => ?_
  split
  · exact keeps_bind (keeps_markEmailSent hi _) fun _ => trivial
  · trivial

theorem keeps_resolveCourseId (invitation : Entity .invitations) :
    Keeps fp (@InvitationsService.resolveCourseId rt invitation) := by
  refine keeps_bind (keeps_read .manager) fun s => ?_
  split <;> trivial

theorem keeps_insertEnrolment (he : .enrolments ∈ fp.tables) (input : Enrolment) :
    Keeps fp (@EnrolmentsRepository.insertWithinTransaction rt input) := by
  refine keeps_attempt (keeps_save he _) fun error => ?_
  split <;> trivial

theorem keeps_redeemForExistingUser (he : .enrolments ∈ fp.tables)
    (invitation : Entity .invitations) (user : Entity .users) (password : String) :
    Keeps fp (@InvitationsService.redeemForExistingUser rt invitation user password) := by
  unfold InvitationsService.redeemForExistingUser
  split
  · exact keeps_throwDomain _
  · split
    · exact keeps_throwDomain _
    · refine keeps_bind (keeps_resolveCourseId _) fun courseId =>
        keeps_bind ?_ fun _ => trivial
      refine keeps_attempt
        (keeps_bind (keeps_insertEnrolment he _) fun _ => trivial) fun error => ?_
      split <;> trivial

theorem keeps_redeem (hi : .invitations ∈ fp.tables) (hu : .users ∈ fp.tables)
    (he : .enrolments ∈ fp.tables) (dto : RedeemInvitationDto) :
    Keeps fp (@InvitationsService.redeem rt dto) := by
  refine keeps_bind (keeps_transaction ?_) fun _ => trivial
  refine keeps_bind (keeps_resolveOrThrow hi _) fun invitation => ?_
  refine keeps_bind (keeps_findOne _ _) fun existing => ?_
  cases existing with
  | some student => exact keeps_redeemForExistingUser he _ _ _
  | none =>
      dsimp only
      unfold InvitationsService.redeemForNewUser
      split
      · exact keeps_throwDomain _
      · refine keeps_bind (keeps_hashPassword _) fun passwordHash =>
          keeps_bind ?_ fun student => ?_
        · refine keeps_attempt (keeps_save hu _) fun error => ?_
          split <;> trivial
        · exact keeps_bind (keeps_resolveCourseId _) fun courseId =>
            keeps_bind (keeps_insertEnrolment he _) fun _ => trivial

theorem keeps_assertEnrolled (userId courseId : Nat) :
    Keeps fp (@LessonsService.assertEnrolled rt userId courseId) := by
  refine keeps_bind (keeps_bind (keeps_read .pool) fun _ => trivial) fun found => ?_
  cases found <;> trivial

theorem keeps_findLessonsForCourse (userId courseId : Nat) :
    Keeps fp (@LessonsService.findLessonsForCourse rt userId courseId) := by
  refine keeps_bind (keeps_assertEnrolled _ _) fun enrolment =>
    keeps_bind (keeps_bind (keeps_findAll _ _) fun _ => trivial) fun lessons => ?_
  split <;> trivial

theorem keeps_findLessonById (userId lessonId : Nat) :
    Keeps fp (@LessonsService.findLessonById rt userId lessonId) := by
  refine keeps_bind (keeps_attempt ?_ fun error => ?_) fun lesson =>
    keeps_bind (keeps_attempt (keeps_assertEnrolled _ _) fun error => ?_) fun _ => trivial
  · refine keeps_bind (keeps_findOne _ _) fun found => ?_
    cases found <;> trivial
  · split <;> trivial
  · split <;> trivial

end Students

/-- Every request keeps to its footprint and to the versions of the rows. -/
theorem handler_keeps (rt : Runtime) (req : Request) :
    Keeps (footprint req) (handler rt req) := by
  have hdone {α β : Type} {fp : Footprint} {x : Method rt α} {f : α → β}
      (hx : Keeps fp x) : Keeps fp (x >>= fun a => pure (f a)) :=
    keeps_bind hx fun _ => trivial
  cases req with
  | signup input requestMeta =>
      exact hdone (keeps_signup (by simp [footprint]) (by simp [footprint]) _ _)
  | login input requestMeta => exact hdone (keeps_login (by simp [footprint]) rfl _ _)
  | refresh rawToken requestMeta =>
      exact hdone (keeps_refresh (by simp [footprint]) rfl _ _)
  | logout rawToken => exact hdone (keeps_logout (by simp [footprint]) _)
  | cleanup => exact keeps_runCleanup (by simp [footprint])
  | createPurchase user idempotencyKey body =>
      exact keeps_post (by simp [footprint]) (by simp [footprint]) (by simp [footprint])
        rfl _ _ _
  | listMine user => exact keeps_listMine user
  | redeem dto =>
      exact hdone (keeps_redeem (by simp [footprint]) (by simp [footprint])
        (by simp [footprint]) _)
  | listLessonsForCourse user courseId =>
      exact keeps_requireRole user .student (hdone (keeps_findLessonsForCourse _ _))
  | getLesson user lessonId =>
      exact keeps_requireRole user .student (hdone (keeps_findLessonById _ _))
  | sendInvitationEmail job =>
      exact keeps_bind (keeps_process (by simp [footprint]) job) fun _ => trivial
  | revokeFamily familyId =>
      refine hdone (keeps_attempt (keeps_transaction ?_) fun _ => trivial)
      exact keeps_bind (keeps_revokeFamily (by simp [footprint]) _) fun _ => trivial
  | rehashIfNeeded userId passwordHash plain =>
      exact hdone (keeps_rehashIfNeeded (by simp [footprint]) _ _ _)

theorem handler_within (rt : Runtime) (req : Request) :
    Within (footprint req) (handler rt req) :=
  (handler_keeps rt req).within

end Mes
