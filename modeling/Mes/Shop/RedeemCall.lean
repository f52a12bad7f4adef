import Mes.Shop.RedeemProof

/-!
How a redeem call ends, on the schedules of any scope. A call that returns a token has
committed its enrolment, or its enrolment was refused as a duplicate and the call has
committed nothing. In the second case the scope has let a program insert an enrolment
for a student who was enrolled in the course already.
-/

namespace Mes

open Transact Transact.Logic InvitationsService

variable {rt : Runtime}

/-- The invitation at `i` has the token of the call, comes from the purchase `Q`, and is
made out to `user`. -/
structure Presented (dto : RedeemInvitationDto) (user : Entity .users) (i : Nat)
    (J : Invitation) (Q : Purchase) (stored : Committed rt) : Prop where
  invitation : stored Tbl.invitations i = some J
  tokenHash : J.tokenHash = hashToken rt dto.token
  purchase : stored Tbl.purchases J.purchaseId = some Q
  student : KnownStudent rt J user stored

/-- The scope has let `p` insert an enrolment that a committed one rules out. -/
def EnrolsAgain (sc : Scope (schema rt) (platform rt)) (p : Pid) : Prop :=
  ∃ (u u' : BackendView rt) (row : Time → Enrolment) (x : Tx) (k : Nat) (other : Enrolment),
    sc.run u p u' ∧
      u'.history = (p, ⟨.sql (.insert Tbl.enrolments row), .error .uniqueViolation⟩) ::
        u.history ∧
      u.store.tx p = some x ∧ u.store.stored Tbl.enrolments k = some other ∧
      other.studentUserId = (row x.startedAt).studentUserId ∧
      other.courseId = (row x.startedAt).courseId

/-- How a successful call has ended. -/
inductive RedeemEnd (sc : Scope (schema rt) (platform rt)) (p : Pid)
    (dto : RedeemInvitationDto) (user : Entity .users) (v : BackendView rt) : Prop
  | enrolled (i : Nat) (J : Invitation) (Q : Purchase) (k : Nat)
      (hpresented : Presented dto user i J Q v.store.stored) (hredeemed : J.status = .redeemed)
      (hrow : v.store.stored Tbl.enrolments k = some (enrolmentRow user.1 Q.courseId i))
      (hborn : v.store.born Tbl.enrolments k =
        some (p, enrolmentRow user.1 Q.courseId i)) : RedeemEnd sc p dto user v
  | swallowed (i : Nat) (J : Invitation) (Q : Purchase) (k : Nat) (other : Enrolment)
      (hpresented : Presented dto user i J Q v.store.stored) (hharmless : Harmless p v)
      (hagain : EnrolsAgain sc p)
      (hrow : v.store.stored Tbl.enrolments k = some other)
      (hstudent : other.studentUserId = user.1) (hcourse : other.courseId = Q.courseId) :
      RedeemEnd sc p dto user v

section Ends

variable {L : Logic (schema rt) (platform rt)} (hL : OverShop L)
include hL

theorem KnownStudent.step {a : Option Pid} {v v' : BackendView rt} {J J' : Invitation}
    {user : Entity .users} (hstep : L.Step a v v')
    (hsame : J'.studentEmail = J.studentEmail) (hknown : KnownStudent rt J user v.store.stored) :
    KnownStudent rt J' user v'.store.stored := by
  obtain ⟨U, hU, hemail, hrole⟩ := hknown
  obtain ⟨U', hU', hemail', hrole'⟩ :=
    persistent_user hL user.1 _ _ a v v' hstep ⟨U, hU, hemail, hrole⟩
  exact ⟨U', hU', by rw [hsame]; exact hemail', hrole'⟩

/-- What was presented stays, but for the redemption of the invitation. -/
theorem Presented.step {a : Option Pid} {v v' : BackendView rt} {dto : RedeemInvitationDto}
    {user : Entity .users} {i : Nat} {J : Invitation} {Q : Purchase}
    (hstep : L.Step a v v') (hpresented : Presented dto user i J Q v.store.stored) :
    ∃ J', Presented dto user i J' Q v'.store.stored ∧
      (J.status = .redeemed → J'.status = .redeemed) := by
  have hQ := persistent_purchase hL _ _ a v v' hstep hpresented.purchase
  obtain ⟨J', hJ', hcolumns⟩ := persistent_invitation hL i J a v v' hstep
    ⟨J, hpresented.invitation, Becomes.refl J⟩
  obtain ⟨hpurchase, htokenHash, hstudentEmail⟩ := hcolumns.same
  refine ⟨J', ⟨hJ', htokenHash.trans hpresented.tokenHash, ?_,
    hpresented.student.step hL hstep hstudentEmail⟩, hcolumns.redeemed⟩
  rw [hpurchase]
  exact hQ

theorem stable_redeemEnd (sc : Scope (schema rt) (platform rt)) (p : Pid)
    (dto : RedeemInvitationDto) (user : Entity .users) :
    L.Stable p (RedeemEnd sc p dto user) := by
  intro actor v v' hactor hstep hend
  cases hend with
  | enrolled i J Q k hpresented hredeemed hrow hborn =>
      obtain ⟨J', hpresented', hkept⟩ := hpresented.step hL hstep
      exact .enrolled i J' Q k hpresented' (hkept hredeemed)
        (persistent_enrolment hL _ _ actor v v' hstep hrow) (hstep.born_kept hborn)
  | swallowed i J Q k other hpresented hharmless hagain hrow hstudent hcourse =>
      obtain ⟨J', hpresented', -⟩ := hpresented.step hL hstep
      exact .swallowed i J' Q k other hpresented'
        (stable_harmless actor v v' hactor hstep hharmless) hagain
        (persistent_enrolment hL _ _ actor v v' hstep hrow) hstudent hcourse

end Ends

/-- The enrolment of the call was refused. -/
def Swallowed (sc : Scope (schema rt) (platform rt)) (p : Pid) (dto : RedeemInvitationDto)
    (user : Entity .users) (stored : Committed rt) : Prop :=
  EnrolsAgain sc p ∧ ∃ i J Q k other, Presented dto user i J Q stored ∧
    stored Tbl.enrolments k = some other ∧ other.studentUserId = user.1 ∧
    other.courseId = Q.courseId

/-- The error is one that the API documents. -/
def ClientError (e : AppError) : Prop :=
  ∃ d, e = .domain d ∧ 400 ≤ d.httpStatus ∧ d.httpStatus < 500

/-- What a failed call tells: an error of the API, or one of the database because the
account does not fit its columns. -/
def RedeemFailure (rt : Runtime) (dto : RedeemInvitationDto) (e : AppError)
    (stored : Committed rt) : Prop :=
  ClientError e ∨ ∃ I salt, Invited rt dto stored I ∧
    Tbl.admits rt .users (studentRow rt dto I.studentEmail (rt.argon2Hash dto.password salt)) =
      false

theorem clientError_unredeemable {e : DomainError} (he : Unredeemable e) :
    ClientError (.domain e) := by
  refine ⟨e, rfl, ?_⟩
  rcases he with rfl | rfl | rfl <;> decide

theorem persistent_redeemFailure {L : Logic (schema rt) (platform rt)} (hL : OverShop L)
    (dto : RedeemInvitationDto) (e : AppError) :
    L.Persistent fun v => RedeemFailure rt dto e v.store.stored := by
  intro actor v v' hstep hfailure
  rcases hfailure with hclient | ⟨I, salt, ⟨i, hI, htoken⟩, hmisfit⟩
  · exact Or.inl hclient
  · obtain ⟨I', hI', hcolumns⟩ := persistent_invitation hL i I actor v v' hstep
      ⟨I, hI, Becomes.refl I⟩
    obtain ⟨-, htokenHash, hstudentEmail⟩ := hcolumns.same
    refine Or.inr ⟨I', salt, ⟨i, hI', htokenHash.trans htoken⟩, ?_⟩
    rw [hstudentEmail]
    exact hmisfit

/-- The insert of an account is refused because its email is taken, or because it does
not fit: it refers to nothing. -/
theorem account_failure {v : BackendView rt} {p : Pid} {dto : RedeemInvitationDto} {t₀ : Time}
    {i : Nat} {I : Invitation} {X : Drafts (schema rt)} {salt : String} {e : SqlError}
    (hredeeming : Redeeming p t₀ (hashToken rt dto.token) i I X v)
    (hrefuses : v.store.Refuses p Tbl.users (studentRow rt dto I.studentEmail
      (rt.argon2Hash dto.password salt)) e) :
    RedeemFailure rt dto (accountError e) v.store.stored := by
  cases e with
  | uniqueViolation => exact Or.inl ⟨.invitationEmailConflict, rfl, by decide, by decide⟩
  | dataException =>
      exact Or.inr ⟨I, salt, ⟨i, hredeeming.invitation,
        (redeemable_iff.mp hredeeming.redeemable).1⟩, hrefuses⟩
  | foreignKeyViolation =>
      obtain ⟨ref, hmem, -⟩ := hrefuses
      cases hmem
  | inFailedTransaction => exact hrefuses.elim

section Hooks

variable {sc : Scope (schema rt) (platform rt)} {p : Pid} {dto : RedeemInvitationDto}
  {user : Entity .users} {v : BackendView rt} {t₀ : Time} {i k : Nat} {I : Invitation}
  {Q : Purchase}

theorem persistent_swallowed {L : Logic (schema rt) (platform rt)} (hL : OverShop L)
    (sc : Scope (schema rt) (platform rt)) (p : Pid) (dto : RedeemInvitationDto)
    (user : Entity .users) : L.Persistent fun v => Swallowed sc p dto user v.store.stored := by
  intro a v v' hstep hswallowed
  obtain ⟨hagain, i, J, Q, k, other, hpresented, hrow, hstudent, hcourse⟩ := hswallowed
  obtain ⟨J', hpresented', -⟩ := hpresented.step hL hstep
  exact ⟨hagain, i, J', Q, k, other, hpresented',
    persistent_enrolment hL _ _ a v v' hstep hrow, hstudent, hcourse⟩

theorem swallowed_of_again {other : Enrolment}
    (hredeeming : Redeeming p t₀ (hashToken rt dto.token) i I Drafts.empty v)
    (hQ : v.store.stored Tbl.purchases I.purchaseId = some Q)
    (hknown : KnownStudent rt I user v.store.stored)
    (hrow : v.store.stored Tbl.enrolments k = some other)
    (hstudent : other.studentUserId = user.1) (hcourse : other.courseId = Q.courseId)
    (hrun : sc.run v p (v.put p ⟨.sql (.insert Tbl.enrolments fun _ =>
        enrolmentRow user.1 Q.courseId i), .error .uniqueViolation⟩
      (v.store.setTx p (some { startedAt := t₀, aborted := true })))) :
    Swallowed sc p dto user v.store.stored :=
  ⟨⟨v, _, _, { startedAt := t₀, aborted := false }, k, other, hrun, rfl, hredeeming.inside.1,
      hrow, hstudent, hcourse⟩,
    i, I, Q, k, other, ⟨hredeeming.invitation, (redeemable_iff.mp hredeeming.redeemable).1, hQ,
      hknown⟩, hrow, hstudent, hcourse⟩

theorem Swallowed.ends (hswallowed : Swallowed sc p dto user v.store.stored)
    (hharmless : Harmless p v) : RedeemEnd sc p dto user v := by
  obtain ⟨hagain, i, J, Q, k, other, hpresented, hrow, hstudent, hcourse⟩ := hswallowed
  exact .swallowed i J Q k other hpresented hharmless hagain hrow hstudent hcourse

/-- A commit that keeps its rows ends the call well. -/
theorem redeemEnd_commit (sc : Scope (schema rt) (platform rt)) {X : Drafts (schema rt)}
    (hredeeming : Redeeming p t₀ (hashToken rt dto.token) i I
      (X.set Tbl.enrolments k (some (enrolmentRow user.1 Q.courseId i))) v)
    (hQ : v.store.stored Tbl.purchases I.purchaseId = some Q)
    (henrols : Enrols rt dto I v.store.stored X user) :
    RedeemEnd sc p dto user (v.put p ⟨.sql .commit, true⟩ (v.store.finish p true)) := by
  have hdone := enrolled_commit ⟨.sql .commit, true⟩ hredeeming hQ henrols
  have hpresented : Presented dto user i (InvitationsRepository.markRedeemed t₀ I) Q
      (v.put p ⟨.sql .commit, true⟩ (v.store.finish p true)).store.stored :=
    ⟨hdone.invitation, (redeemable_iff.mp hredeeming.redeemable).1, hdone.purchase,
      hdone.student⟩
  exact .enrolled i _ Q k hpresented rfl hdone.enrolment hdone.born

end Hooks

/-- Redeem calls keep to the rules of the shop on every schedule. -/
def redeemProof (sc : Scope (schema rt) (platform rt)) (p : Pid) (dto : RedeemInvitationDto) :
    RedeemProof (shopLogic rt sc) p dto where
  failure := fun e _ stored => RedeemFailure rt dto e stored
  duplicate := Swallowed sc p dto
  success := RedeemEnd sc p dto
  failurePersistent := persistent_redeemFailure (overShop rt sc) dto
  duplicatePersistent := persistent_swallowed (overShop rt sc) sc p dto
  successStable := stable_redeemEnd (overShop rt sc) sc p dto
  missed := fun _ _ _ _ _ _ _ _ he => Or.inl (clientError_unredeemable he)
  conflict := fun _ _ _ _ _ _ _ _ _ _ _ =>
    Or.inl ⟨.invitationEmailConflict, rfl, by decide, by decide⟩
  incomplete := fun _ _ _ => Or.inl ⟨_, rfl, by simp [DomainError.httpStatus]⟩
  refused := fun _ _ _ _ _ _ _ _ hredeeming hrefuses => account_failure hredeeming hrefuses
  again := fun _ _ _ _ _ _ _ _ _ _ hredeeming hQ hknown hrow hstudent hcourse hrun =>
    swallowed_of_again hredeeming hQ hknown hrow hstudent hcourse hrun.guar.1
  repeated := fun _ _ hswallowed hharmless => hswallowed.ends hharmless
  enrolled := by
    intro v v' t₀ i I X user Q k hwf hinv hredeeming hQ henrols hrun hv'
    subst hv'
    have hmove := redemption_step ⟨.sql .commit, true⟩ hredeeming hQ henrols
    exact ⟨hmove.sound hinv, ⟨⟨hrun.guar.2, Or.inl rfl, Or.inr hmove⟩,
      fun q hq => by rwa [← Option.some.inj hq]⟩, redeemEnd_commit sc hredeeming hQ henrols⟩

/-- The whole request, with the outline that its logic fills in. -/
theorem RedeemProof.call_rule {L : Logic (schema rt) (platform rt)} {p : Pid}
    {dto : RedeemInvitationDto} (P : RedeemProof L p dto) (hL : OverShop L) :
    L.Triple p (fun v => Idle p v ∧ Harmless p v) (handler rt (.redeem dto))
      (ends (fun response v => ∃ user, response = .token (AuthService.issueToken rt user) ∧
        P.success user v) P.Fails) := by
  refine Triple.andThen (P.redeem_rule hL) (fun token => ?_) fun _ _ hfails => hfails
  refine Triple.exists fun user => ?_
  refine Triple.given (fun v _ _ hA => hA.1) fun htoken => ?_
  subst htoken
  exact Triple.weaken (Triple.ret (P.successStable user) fun v hend => ⟨user, rfl, hend⟩)
    fun v _ _ hA => hA.2

/-- A redeem call on any schedule. -/
theorem redeemCall_rule (sc : Scope (schema rt) (platform rt)) {p : Pid}
    (dto : RedeemInvitationDto) :
    (shopLogic rt sc).Triple p (fun v => Idle p v ∧ Harmless p v)
      (handler rt (.redeem dto))
      (ends (fun response v => ∃ user, response = .token (AuthService.issueToken rt user) ∧
          RedeemEnd sc p dto user v)
        fun e v => RedeemFailure rt dto e v.store.stored ∧ Harmless p v) :=
  (redeemProof sc p dto).call_rule (overShop rt sc)

end Mes
