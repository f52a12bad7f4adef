import Mes.Auth.Passwords
import Mes.Auth.TokenFamilies
import Mes.Transact.CharterRuns

/-!
What each request of the backend has the right to do. The rights are read off the services:
a refresh token is revoked by a request that presents a token of its family, an invitation
is redeemed by a request that presents its token and marked as sent by the worker of the email
queue, a password hash is replaced after a login with the password, and every other row stays
as it was inserted.

`origin` is a row as it was inserted, by a program or by a migration. The rights refer to it
because what they ask for (whose token, which family) never changes.
-/

namespace Mes

open Transact

/-- What a row keeps for as long as it is there. -/
def Tbl.frozen : (t : Tbl) → t.Row → t.Row
  | .users, user => { user with passwordHash := "" }
  | .invitations, invitation =>
      { invitation with status := .issued, redeemedAt := none, emailSentAt := none }
  | .refreshTokens, row => row.fixed
  | .courses, r => r
  | .lessons, r => r
  | .purchases, r => r
  | .idempotencyKeys, r => r
  | .enrolments, r => r

/-- Rows of every table but the refresh tokens are never deleted. -/
def Tbl.Lasting (t : Tbl) : Prop :=
  t ≠ .refreshTokens

instance : DecidablePred Tbl.Lasting :=
  fun t => inferInstanceAs (Decidable (t ≠ .refreshTokens))

/-- A request from outside, or a job of one of the queues. The two tasks that a handler leaves
behind are not among them. -/
def Incoming : Request → Prop
  | .rehashIfNeeded _ _ _ | .revokeFamily _ => False
  | .signup _ _ | .login _ _ | .refresh _ _ | .logout _ | .cleanup | .createPurchase _ _ _
  | .listMine _ | .redeem _ | .listLessonsForCourse _ _ | .getLesson _ _
  | .sendInvitationEmail _ => True

/-- An account hash accepts only the password that it was made from. -/
def HonestVerify (rt : Runtime) : Prop :=
  ∀ plain salt other, rt.argon2Verify (rt.argon2Hash plain salt) other = some true →
    other = plain

section Rights

variable {rt : Runtime} (seed : Seed) (w : BackendWorld rt)

def origin (t : Tbl) (i : Nat) : Option t.Row :=
  match w.view.store.born t i with
  | some (_, r) => some r
  | none => (seed.rows t)[i]?

/-- The row may stand at this place: it agrees with the row that was inserted there. -/
def Agrees (t : Tbl) (i : Nat) (r : t.Row) : Prop :=
  ∃ b, origin seed w t i = some b ∧ t.frozen r = t.frozen b

/-- The password of an account: the one that its creator chose, and for a seeded account one
that its hash accepts. -/
def Opens (userId : Nat) (plain : String) : Prop :=
  (∃ p user req, w.view.store.born Tbl.users userId = some (p, user) ∧
    w.requests p = some req ∧ GivesPassword req plain) ∨
  w.view.store.born Tbl.users userId = none ∧
    ∃ user, seed.users[userId]? = some user ∧ rt.argon2Verify user.passwordHash plain = some true

/-- The hash of the account accepts only its password. -/
def Guarded : (t : Tbl) → Nat → t.Row → Prop
  | .users, i, user => HonestVerify rt →
      ∀ plain, rt.argon2Verify user.passwordHash plain = some true → Opens seed w i plain
  | .courses, _, _ | .lessons, _, _ | .purchases, _, _ | .invitations, _, _
  | .idempotencyKeys, _, _ | .enrolments, _, _ | .refreshTokens, _, _ => True

/-- The token with this plaintext is the refresh token `i`. -/
def Presents (raw : String) (i : Nat) (row : RefreshToken) : Prop :=
  origin seed w Tbl.refreshTokens i = some row ∧ row.tokenHash = rt.sha256 raw

/-- The invitation with this plaintext is the invitation `k`. -/
def Invites (plaintext : String) (k : Nat) (invitation : Invitation) : Prop :=
  origin seed w Tbl.invitations k = some invitation ∧ invitation.tokenHash = rt.sha256 plaintext

/-! ### Changes -/

/-- The token is revoked at `now`. -/
def RevokedAt (now : Time) (a : RefreshToken) (x : Option RefreshToken) : Prop :=
  a.revokedAt = none ∧ ∃ link, x = some { a with revokedAt := some now, replacedById := link }

/-- What the request may make of a refresh token. -/
def TokenMandate : Request → Time → RefreshToken → Option RefreshToken → Prop
  | .refresh raw _, now, a, x => x = some a ∨ RevokedAt now a x ∧
      ∃ i row, Presents seed w raw i row ∧ row.familyId = a.familyId
  | .logout rawToken, now, a, x => x = some a ∨ RevokedAt now a x ∧
      ∃ raw, rawToken = some raw ∧ a.tokenHash = rt.sha256 raw
  | .cleanup, now, a, x => x = some a ∨ x = some { a with replacedById := none } ∨
      x = none ∧
        (RefreshTokensRepository.expiredBefore AuthService.REFRESH_TOKEN_GRACE_DAYS now a ∨
          RefreshTokensRepository.revokedBefore AuthService.REFRESH_TOKEN_FORENSIC_DAYS now a)
  | _, _, a, x => x = some a

/-- What the request may make of an invitation. -/
def InvitationMandate (rt : Runtime) :
    Request → Nat → Time → Invitation → Option Invitation → Prop
  | .redeem dto, _, now, a, x => x = some a ∨ a.tokenHash = rt.sha256 dto.token ∧
      a.status = .issued ∧ now < a.expiresAt ∧
        x = some (InvitationsRepository.markRedeemed now a)
  | .sendInvitationEmail job, i, now, a, x => x = some a ∨ i = job.invitationId ∧
      a.emailSentAt = none ∧ x = some (InvitationsRepository.setEmailSentAt now a)
  | _, _, _, a, x => x = some a

/-- What the request may make of an account. -/
def UserMandate (rt : Runtime) : Request → Nat → User → Option User → Prop
  | .rehashIfNeeded userId _ plain, i, a, x => x = some a ∨ i = userId ∧
      ∃ salt, x = some { a with passwordHash := rt.argon2Hash plain salt }
  | _, _, a, x => x = some a

def Mandate (req : Request) : (t : Tbl) → Nat → Time → t.Row → Option t.Row → Prop
  | .users, i, _, a, x => UserMandate rt req i a x
  | .invitations, i, now, a, x => InvitationMandate rt req i now a x
  | .refreshTokens, _, now, a, x => TokenMandate seed w req now a x
  | .courses, _, _, a, x => x = some a
  | .lessons, _, _, a, x => x = some a
  | .purchases, _, _, a, x => x = some a
  | .idempotencyKeys, _, _, a, x => x = some a
  | .enrolments, _, _, a, x => x = some a

/-! ### Insertions -/

/-- The account that a sign-up adds. -/
def newParent (rt : Runtime) (input : SignupDto) (passwordHash : String) : User :=
  UsersRepository.normaliseEmail rt
    { email := input.email
      passwordHash := passwordHash
      role := .parent
      firstName := input.firstName
      lastName := input.lastName
      dateOfBirth := none }

/-- The account that a redemption adds. -/
def newStudent (rt : Runtime) (dto : RedeemInvitationDto) (email passwordHash : String) : User :=
  UsersRepository.normaliseEmail rt
    { email := email
      passwordHash := passwordHash
      role := .student
      firstName := dto.firstName
      lastName := dto.lastName
      dateOfBirth := dto.dateOfBirth }

theorem newParent_fields (input : SignupDto) (digest : String) :
    (newParent rt input digest).passwordHash = digest ∧
      (newParent rt input digest).role = .parent := by
  unfold newParent UsersRepository.normaliseEmail
  split <;> exact ⟨rfl, rfl⟩

theorem newStudent_fields (dto : RedeemInvitationDto) (email digest : String) :
    (newStudent rt dto email digest).passwordHash = digest ∧
      (newStudent rt dto email digest).role = .student := by
  unfold newStudent UsersRepository.normaliseEmail
  split <;> exact ⟨rfl, rfl⟩

def AddsUser : Request → User → Prop
  | .signup input _, user =>
      ∃ salt, user = newParent rt input (rt.argon2Hash input.password salt)
  | .redeem dto, user => InvitationsService.missingFields dto = [] ∧ ∃ k invitation salt,
      Invites seed w dto.token k invitation ∧
        user = newStudent rt dto invitation.studentEmail (rt.argon2Hash dto.password salt)
  | _, _ => False

/-- A session is opened by the creator of an account, by its password, or by a refresh token
of the session. -/
def AddsToken (p : Pid) : Request → Nat → RefreshToken → Prop
  | .signup _ _, _, row => ∃ user, w.view.store.born Tbl.users row.userId = some (p, user)
  | .login input _, _, row => (HonestVerify rt → Opens seed w row.userId input.password) ∧
      ∃ user, origin seed w Tbl.users row.userId = some user ∧
        user.email = rt.normaliseEmail input.email
  | .refresh raw _, j, row => ∃ i old, i < j ∧ Presents seed w raw i old ∧
      row.userId = old.userId ∧ row.familyId = old.familyId
  | _, _, _ => False

/-- A purchase is for the caller, of the course in the body, at the price of the course. -/
def AddsPurchase : Request → Purchase → Prop
  | .createPurchase user _ body, purchase => user.role = .parent ∧
      purchase.parentUserId = user.sub ∧ (∃ dto, rt.createPurchaseDto body = some dto ∧
        purchase.courseId = dto.courseId) ∧
      ∃ course, origin seed w Tbl.courses purchase.courseId = some course ∧
        purchase.amountPence = course.pricePence
  | _, _ => False

/-- An invitation is for a purchase of the same request and the student in the body. -/
def AddsInvitation (p : Pid) : Request → Invitation → Prop
  | .createPurchase _ _ body, invitation => invitation.status = .issued ∧
      (∃ purchase, w.view.store.born Tbl.purchases invitation.purchaseId = some (p, purchase)) ∧
      ∃ dto, rt.createPurchaseDto body = some dto ∧
        (invitation.studentEmail = rt.normaliseEmail dto.studentEmail)
  | _, _ => False

/-- An enrolment is for the invitation that was presented, in the course of its purchase. -/
def AddsEnrolment : Request → Enrolment → Prop
  | .redeem dto, enrolment => ∃ k invitation purchase, Invites seed w dto.token k invitation ∧
      enrolment.sourceInvitationId = some k ∧
      origin seed w Tbl.purchases invitation.purchaseId = some purchase ∧
        enrolment.courseId = purchase.courseId
  | _, _ => False

def AddsKey : Request → IdempotencyKey → Prop
  | .createPurchase user _ _, row => row.userId = user.sub
  | _, _ => False

def Adds (p : Pid) (req : Request) : (t : Tbl) → Nat → t.Row → Prop
  | .users, _, user => AddsUser seed w req user
  | .refreshTokens, i, row => AddsToken seed w p req i row
  | .purchases, _, purchase => AddsPurchase seed w req purchase
  | .invitations, _, invitation => AddsInvitation w p req invitation
  | .enrolments, _, enrolment => AddsEnrolment seed w req enrolment
  | .idempotencyKeys, _, row => AddsKey req row
  | .courses, _, _ | .lessons, _, _ => False

/-- A task is left behind only by a login with the password of the account. The family
revocation is never started: users are never deleted. -/
def Starts : Request → Prop
  | .rehashIfNeeded userId _ plain => HonestVerify rt → Opens seed w userId plain
  | .revokeFamily _ => False
  | _ => True

end Rights

/-! ### The charter -/

section Laws

variable {rt : Runtime} {seed : Seed} {w : BackendWorld rt} {req : Request} {now : Time}

theorem RevokedAt.trans {a b : RefreshToken} {x : Option RefreshToken}
    (hfirst : RevokedAt now a (some b)) : ¬ RevokedAt now b x := by
  rintro ⟨hactive, -⟩
  obtain ⟨-, link, hb⟩ := hfirst
  obtain rfl := Option.some.inj hb
  cases hactive

theorem tokenMandate_refl (a : RefreshToken) : TokenMandate seed w req now a (some a) := by
  cases req with
  | refresh | logout | cleanup => exact Or.inl rfl
  | signup | login | createPurchase | listMine | redeem | listLessonsForCourse | getLesson
  | sendInvitationEmail | revokeFamily | rehashIfNeeded => rfl

theorem tokenMandate_trans {a b : RefreshToken} {x : Option RefreshToken}
    (hfirst : TokenMandate seed w req now a (some b))
    (hsecond : TokenMandate seed w req now b x) : TokenMandate seed w req now a x := by
  cases req with
  | refresh raw requestMeta =>
      rcases hfirst with hsame | ⟨hrevoked, howner⟩
      · rwa [← Option.some.inj hsame]
      · rcases hsecond with rfl | ⟨hagain, -⟩
        · exact Or.inr ⟨hrevoked, howner⟩
        · exact absurd hagain hrevoked.trans
  | logout rawToken =>
      rcases hfirst with hsame | ⟨hrevoked, howner⟩
      · rwa [← Option.some.inj hsame]
      · rcases hsecond with rfl | ⟨hagain, -⟩
        · exact Or.inr ⟨hrevoked, howner⟩
        · exact absurd hagain hrevoked.trans
  | cleanup =>
      rcases hfirst with hsame | hunlinked | ⟨hnone, -⟩
      · rwa [← Option.some.inj hsame]
      · obtain rfl := Option.some.inj hunlinked
        rcases hsecond with rfl | rfl | ⟨rfl, hold⟩
        · exact Or.inr (Or.inl rfl)
        · exact Or.inr (Or.inl rfl)
        · exact Or.inr (Or.inr ⟨rfl, hold⟩)
      · cases hnone
  | signup | login | createPurchase | listMine | redeem | listLessonsForCourse | getLesson
  | sendInvitationEmail | revokeFamily | rehashIfNeeded => rwa [← Option.some.inj hfirst]

theorem tokenMandate_frozen {a b : RefreshToken}
    (hchange : TokenMandate seed w req now a (some b)) : b.fixed = a.fixed := by
  cases req with
  | refresh | logout =>
      rcases hchange with hsame | ⟨⟨-, link, hb⟩, -⟩
      · rw [Option.some.inj hsame]
      · rw [Option.some.inj hb]
        rfl
  | cleanup =>
      rcases hchange with hsame | hb | ⟨hnone, -⟩
      · rw [Option.some.inj hsame]
      · rw [Option.some.inj hb]
        rfl
      · cases hnone
  | signup | login | createPurchase | listMine | redeem | listLessonsForCourse | getLesson
  | sendInvitationEmail | revokeFamily | rehashIfNeeded => rw [Option.some.inj hchange]

theorem invitationMandate_cases {i : Nat} {a : Invitation} {x : Option Invitation}
    (hchange : InvitationMandate rt req i now a x) : x = some a ∨
      (∃ dto, req = .redeem dto ∧ a.tokenHash = rt.sha256 dto.token ∧ a.status = .issued ∧
        now < a.expiresAt ∧ x = some (InvitationsRepository.markRedeemed now a)) ∨
      ∃ job, req = .sendInvitationEmail job ∧ i = job.invitationId ∧ a.emailSentAt = none ∧
        x = some (InvitationsRepository.setEmailSentAt now a) := by
  cases req with
  | redeem dto => exact hchange.imp_right fun hrest => Or.inl ⟨dto, rfl, hrest⟩
  | sendInvitationEmail job => exact hchange.imp_right fun hrest => Or.inr ⟨job, rfl, hrest⟩
  | signup | login | refresh | logout | cleanup | createPurchase | listMine
  | listLessonsForCourse | getLesson | revokeFamily | rehashIfNeeded => exact Or.inl hchange

theorem userMandate_cases {i : Nat} {a : User} {x : Option User}
    (hchange : UserMandate rt req i a x) : x = some a ∨ ∃ digest plain,
      req = .rehashIfNeeded i digest plain ∧
        ∃ salt, x = some { a with passwordHash := rt.argon2Hash plain salt } := by
  cases req with
  | rehashIfNeeded userId digest plain =>
      refine hchange.imp_right ?_
      rintro ⟨rfl, hrest⟩
      exact ⟨digest, plain, rfl, hrest⟩
  | signup | login | refresh | logout | cleanup | createPurchase | listMine | redeem
  | listLessonsForCourse | getLesson | sendInvitationEmail | revokeFamily => exact Or.inl hchange

theorem mandate_refl (t : Tbl) (i : Nat) (a : t.Row) :
    Mandate seed w req t i now a (some a) := by
  cases t with
  | refreshTokens => exact tokenMandate_refl a
  | users =>
      cases req with
      | rehashIfNeeded => exact Or.inl rfl
      | signup | login | refresh | logout | cleanup | createPurchase | listMine | redeem
      | listLessonsForCourse | getLesson | sendInvitationEmail | revokeFamily => rfl
  | invitations =>
      cases req with
      | redeem | sendInvitationEmail => exact Or.inl rfl
      | signup | login | refresh | logout | cleanup | createPurchase | listMine
      | listLessonsForCourse | getLesson | revokeFamily | rehashIfNeeded => rfl
  | courses | lessons | purchases | idempotencyKeys | enrolments => rfl

theorem mandate_trans (t : Tbl) (i : Nat) {a b : t.Row} {x : Option t.Row}
    (hfirst : Mandate seed w req t i now a (some b)) (hsecond : Mandate seed w req t i now b x) :
    Mandate seed w req t i now a x := by
  cases t with
  | refreshTokens => exact tokenMandate_trans hfirst hsecond
  | users =>
      rcases userMandate_cases hfirst with hsame | ⟨digest, plain, rfl, salt, hb⟩
      · rwa [← Option.some.inj hsame]
      · obtain rfl := Option.some.inj hb
        rcases hsecond with rfl | ⟨hplace, salt', rfl⟩
        · exact Or.inr ⟨rfl, salt, rfl⟩
        · exact Or.inr ⟨hplace, salt', rfl⟩
  | invitations =>
      rcases invitationMandate_cases hfirst with hsame | ⟨dto, rfl, hhash, hissued, hlive, hb⟩ |
        ⟨job, rfl, hplace, hunsent, hb⟩
      · rwa [← Option.some.inj hsame]
      · obtain rfl := Option.some.inj hb
        rcases hsecond with rfl | ⟨-, hagain, -⟩
        · exact Or.inr ⟨hhash, hissued, hlive, rfl⟩
        · cases hagain
      · obtain rfl := Option.some.inj hb
        rcases hsecond with rfl | ⟨-, hagain, -⟩
        · exact Or.inr ⟨hplace, hunsent, rfl⟩
        · cases hagain
  | courses | lessons | purchases | idempotencyKeys | enrolments =>
      rwa [← Option.some.inj hfirst]

/-- No request changes what a row keeps. -/
theorem mandate_frozen (t : Tbl) (i : Nat) {a b : t.Row}
    (hchange : Mandate seed w req t i now a (some b)) : t.frozen b = t.frozen a := by
  cases t with
  | refreshTokens => exact tokenMandate_frozen hchange
  | users =>
      rcases userMandate_cases hchange with hsame | ⟨digest, plain, -, salt, hb⟩
      · rw [Option.some.inj hsame]
      · rw [Option.some.inj hb]
        rfl
  | invitations =>
      rcases invitationMandate_cases hchange with hsame | ⟨dto, -, -, -, -, hb⟩ |
        ⟨job, -, -, -, hb⟩
      · rw [Option.some.inj hsame]
      · rw [Option.some.inj hb]
        rfl
      · rw [Option.some.inj hb]
        rfl
  | courses | lessons | purchases | idempotencyKeys | enrolments =>
      rw [Option.some.inj hchange]

theorem mandate_lasts (t : Tbl) (i : Nat) {a : t.Row} (hlasting : t.Lasting) :
    ¬ Mandate seed w req t i now a none := by
  intro hchange
  cases t with
  | refreshTokens => exact hlasting rfl
  | users =>
      rcases userMandate_cases hchange with hsame | ⟨digest, plain, -, salt, hb⟩
      · cases hsame
      · cases hb
  | invitations =>
      rcases invitationMandate_cases hchange with hsame | ⟨dto, -, -, -, -, hb⟩ |
        ⟨job, -, -, -, hb⟩
      · cases hsame
      · cases hb
      · cases hb
  | courses | lessons | purchases | idempotencyKeys | enrolments => cases hchange

/-- What a row refers to in a lasting table is part of what it keeps. -/
theorem refs_frozen (t : Tbl) {a b : t.Row} (hfrozen : t.frozen b = t.frozen a)
    {ref : Tbl × Nat} (href : ref ∈ t.refs b) (hlasting : ref.1.Lasting) : ref ∈ t.refs a := by
  cases t with
  | refreshTokens =>
      rcases List.mem_cons.mp href with hfirst | hlink
      · have howner : b.userId = a.userId := (fixed_eq hfrozen).1
        rw [hfirst, howner]
        exact List.mem_cons_self
      · obtain ⟨j, -, rfl⟩ := Option.map_eq_some_iff.mp (Option.mem_toList.mp hlink)
        exact absurd rfl hlasting
  | users => cases href
  | invitations =>
      have hsame : b.purchaseId = a.purchaseId :=
        @congrArg Invitation Nat (Tbl.frozen .invitations b) (Tbl.frozen .invitations a)
          Invitation.purchaseId hfrozen
      have hone := List.mem_singleton.mp href
      rw [hone, hsame]
      exact List.mem_cons_self
  | courses | lessons | purchases | idempotencyKeys | enrolments =>
      exact (show b = a from hfrozen) ▸ href

theorem mandate_spares (t : Tbl) (i : Nat) {a : t.Row} {x : Option t.Row}
    (hchange : Mandate seed w req t i now a x) :
    Store.Spares (σ := schema rt) Tbl.Lasting t a x where
  keeps := by
    rintro hlasting rfl
    exact mandate_lasts t i hlasting hchange
  refers := by
    rintro b rfl ref href hlasting
    exact refs_frozen t (mandate_frozen t i hchange) href hlasting

end Laws

/-- The charter of the backend, as the world `w` at the end of a run has it. -/
def charter {rt : Runtime} (seed : Seed) (w : BackendWorld rt) :
    Charter (schema rt) (platform rt) where
  Born := fun p t i r => w.view.store.born t i = some (p, r)
  Holds := fun t i r => Agrees seed w t i r ∧ Guarded seed w t i r
  Knows := fun _ => True
  lasting := Tbl.Lasting
  starts := Starts seed w
  inserts := Adds seed w
  permits := Mandate seed w
  refl := fun _ t i _ a => mandate_refl t i a
  trans := fun _ t i _ _ _ _ hfirst hsecond => mandate_trans t i hfirst hsecond
  spares := fun _ t i _ _ _ hchange => mandate_spares t i hchange
  fires := fun _ _ _ _ _ _ => trivial

end Mes
