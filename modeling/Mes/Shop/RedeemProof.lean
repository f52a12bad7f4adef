import Mes.Shop.ShopRules

/-!
The outline of `POST /invitations/redeem`, for any logic over the shop. The open
transaction marks one invitation, may insert an account, and inserts one enrolment.
`RedeemProof` collects what the outline leaves open: what each kind of failure tells
and what the commit owes to the invariant and to the others. Failures are told by
facts about the committed tables that no step takes back, so a rollback keeps them.

A duplicate enrolment of an existing student does not fail the call. The insert has
aborted the transaction, the program goes on to commit, and the commit keeps nothing.
-/

namespace Mes

open Transact Transact.Logic InvitationsService

variable {rt : Runtime}

/-- The committed rows. -/
abbrev Committed (rt : Runtime) := (t : Tbl) → Nat → Option ((schema rt).Row t)

/-- A committed invitation with the token of the request. -/
def Invited (rt : Runtime) (dto : RedeemInvitationDto) (stored : Committed rt)
    (I : Invitation) : Prop :=
  ∃ i, stored Tbl.invitations i = some I ∧ I.tokenHash = hashToken rt dto.token

/-- The account that a redemption creates. -/
def studentRow (rt : Runtime) (dto : RedeemInvitationDto) (email passwordHash : String) :
    User :=
  UsersRepository.normaliseEmail rt
    { email := email
      passwordHash := passwordHash
      role := .student
      firstName := dto.firstName
      lastName := dto.lastName
      dateOfBirth := dto.dateOfBirth }

theorem studentRow_columns (rt : Runtime) (dto : RedeemInvitationDto)
    (email passwordHash : String) :
    (studentRow rt dto email passwordHash).email = rt.normaliseEmail email ∧
      (studentRow rt dto email passwordHash).role = .student ∧
      (studentRow rt dto email passwordHash).passwordHash = passwordHash := by
  unfold studentRow UsersRepository.normaliseEmail
  split
  · rename_i hempty
    have hempty' : email = "" := hempty
    refine ⟨?_, rfl, rfl⟩
    rw [hempty']
    exact rt.normalise_empty.symm
  · exact ⟨rfl, rfl, rfl⟩

def enrolmentRow (studentUserId courseId invitationId : Nat) : Enrolment where
  studentUserId := studentUserId
  courseId := courseId
  sourceInvitationId := some invitationId

/-- The open transaction of `p` has marked the invitation `I` at `i`, inserted the rows
of `X`, and written nothing else; nothing of it is committed. -/
structure Redeeming (p : Pid) (t₀ : Time) (tokenHash : String) (i : Nat) (I : Invitation)
    (X : Drafts (schema rt)) (v : BackendView rt) : Prop extends Inserts p X v where
  inside : Inside p t₀ (X.set Tbl.invitations i
    (some (InvitationsRepository.markRedeemed t₀ I))) v
  apart : ∀ j, X Tbl.invitations j = none
  redeemable : InvitationsRepository.redeemable tokenHash t₀ I = true
  invitation : v.store.stored Tbl.invitations i = some I
  harmless : Harmless p v

/-- The student was known before: only the password hash may have changed since. -/
def KnownStudent (rt : Runtime) (I : Invitation) (user : Entity .users)
    (stored : Committed rt) : Prop :=
  ∃ U : User, stored Tbl.users user.1 = some U ∧ U.email = rt.normaliseEmail I.studentEmail ∧
    U.role = .student

theorem redeemable_iff {tokenHash : String} {now : Time} {I : Invitation} :
    InvitationsRepository.redeemable tokenHash now I = true ↔
      I.tokenHash = tokenHash ∧ I.status = .issued ∧ now < I.expiresAt := by
  simp [InvitationsRepository.redeemable, and_assoc]

section Assertions

variable {L : Logic (schema rt) (platform rt)} {p : Pid} {t₀ : Time} {h : String}
  {i : Nat} {I : Invitation} {X : Drafts (schema rt)} {v : BackendView rt}

theorem Redeeming.marked (hredeeming : Redeeming p t₀ h i I X v) :
    v.store.draft p Tbl.invitations i =
      some (some (InvitationsRepository.markRedeemed t₀ I)) := by
  rw [hredeeming.inside.2]
  exact Drafts.set_same _ _ _ _

/-- The draft of an inserted row. -/
theorem Redeeming.inserted (hredeeming : Redeeming p t₀ h i I X v) {t : Tbl} {k : Nat}
    {x : Option t.Row} (hX : X t k = some x) : v.store.draft p t k = some x := by
  have htable : t ≠ Tbl.invitations := by
    rintro rfl
    rw [hredeeming.apart k] at hX
    cases hX
  rw [hredeeming.inside.2, Drafts.set_other _ _ _ htable, hX]

theorem stable_redeeming : L.Stable p (Redeeming p t₀ h i I X) := by
  intro actor v v' hactor hstep hredeeming
  refine
    { toInserts := hredeeming.toInserts.step hactor hstep fun t k x hX =>
        hredeeming.inserted hX
      inside := stable_inside t₀ _ actor v v' hactor hstep hredeeming.inside
      apart := hredeeming.apart
      redeemable := hredeeming.redeemable
      invitation := ?_
      harmless := stable_harmless actor v v' hactor hstep hredeeming.harmless }
  rw [hstep.stored_locked hactor hredeeming.marked]
  exact hredeeming.invitation

/-- An operation that writes nothing. -/
theorem Redeeming.put (hredeeming : Redeeming p t₀ h i I X v)
    {e : Event (schema rt) (platform rt)} (he : ¬ Durable e) :
    Redeeming p t₀ h i I X (v.put p e v.store) :=
  { hredeeming with
    inside := hredeeming.inside
    harmless := hredeeming.harmless.grow he rfl }

theorem Redeeming.remember (hredeeming : Redeeming p t₀ h i I X v)
    {e : Event (schema rt) (platform rt)} (mem : Memory) (he : ¬ Durable e) :
    Redeeming p t₀ h i I X (v.remember p e mem) :=
  { hredeeming with
    inside := hredeeming.inside
    harmless := hredeeming.harmless.grow he rfl }

/-- The conditional update has found its row. -/
theorem redeeming_hold (hinside : Inside p t₀ Drafts.empty v) (hharmless : Harmless p v)
    (hredeemable : InvitationsRepository.redeemable h t₀ I = true)
    (hI : v.store.stored Tbl.invitations i = some I)
    {e : Event (schema rt) (platform rt)} (he : ¬ Durable e) :
    Redeeming p t₀ h i I Drafts.empty (v.put p e (v.store.hold p Tbl.invitations i
      (some (InvitationsRepository.markRedeemed t₀ I)))) where
  inside := inside_hold hinside e Tbl.invitations i _
  apart := fun _ => rfl
  redeemable := hredeemable
  invitation := by
    rw [View.put_store, Store.hold_stored]
    exact hI
  toInserts := inserts_nothing _
  harmless := hharmless.grow he rfl

/-- The transaction has inserted one more row. -/
theorem Redeeming.push (hredeeming : Redeeming p t₀ h i I X v) (hwf : v.store.Wf) {t : Tbl}
    (htable : t ≠ Tbl.invitations) (r : t.Row) {e : Event (schema rt) (platform rt)}
    (he : ¬ Durable e) :
    Redeeming p t₀ h i I (X.set t (v.store.next t) (some r))
      (v.put p e (v.store.push p t r)) := by
  have hvacant := (hwf.vacant t _ (le_refl _)).1
  refine
    { toInserts := hredeeming.toInserts.push hwf t r e
      inside := ?_
      apart := fun j => ?_
      redeemable := hredeeming.redeemable
      invitation := ?_
      harmless := hredeeming.harmless.grow he rfl }
  · rw [Drafts.set_comm _ _ _ _ _ htable]
    exact inside_push hredeeming.inside e t r
  · rw [Drafts.set_other _ _ _ htable.symm]
    exact hredeeming.apart j
  · rw [View.put_store, Store.push_stored v.store p t r hvacant]
    exact hredeeming.invitation

/-- Who is enrolled, and the rows that were inserted for that. -/
inductive Enrols (rt : Runtime) (dto : RedeemInvitationDto) (I : Invitation)
    (stored : Committed rt) : Drafts (schema rt) → Entity .users → Prop
  | known (user : Entity .users) (hknown : KnownStudent rt I user stored) :
      Enrols rt dto I stored Drafts.empty user
  | new (id : Nat) (salt : String) :
      Enrols rt dto I stored
        (Drafts.empty.set Tbl.users id (some (studentRow rt dto I.studentEmail
          (rt.argon2Hash dto.password salt))))
        (id, studentRow rt dto I.studentEmail (rt.argon2Hash dto.password salt))

theorem persistent_enrols (hL : OverShop L) (dto : RedeemInvitationDto) (I : Invitation)
    (X : Drafts (schema rt)) (user : Entity .users) :
    L.Persistent fun v => Enrols rt dto I v.store.stored X user := by
  intro actor v v' hstep henrols
  cases henrols with
  | known user hknown =>
      obtain ⟨U, hU, hemail, hrole⟩ := hknown
      obtain ⟨U', hU', hemail', hrole'⟩ :=
        persistent_user hL user.1 _ _ actor v v' hstep ⟨U, hU, hemail, hrole⟩
      exact .known user ⟨U', hU', hemail', hrole'⟩
  | new id salt => exact .new id salt

theorem Enrols.elsewhere {dto : RedeemInvitationDto} {stored : Committed rt}
    {user : Entity .users} (henrols : Enrols rt dto I stored X user) {t : Tbl}
    (htable : t ≠ Tbl.users) (k : Nat) : X t k = none := by
  cases henrols with
  | known user hknown => rfl
  | new id salt =>
      rw [Drafts.set_other _ _ _ htable]
      rfl

/-- The account is there for the transaction. -/
theorem Enrols.seen {dto : RedeemInvitationDto} {user : Entity .users}
    (henrols : Enrols rt dto I v.store.stored X user)
    (hredeeming : Redeeming p t₀ h i I X v) :
    (v.store.seen p Tbl.users user.1).isSome = true := by
  unfold Store.seen
  rw [hredeeming.inside.2, Drafts.set_other _ _ _ (by simp)]
  cases henrols with
  | known user hknown =>
      obtain ⟨U, hU, -⟩ := hknown
      rw [show v.store.stored Tbl.users user.1 = some U from hU]
      rfl
  | new id salt =>
      rw [Drafts.set_same]
      rfl

/-- The enrolment of a redemption is refused only when an account that was there before
is enrolled in the course already. -/
theorem enrolment_refused (hL : OverShop L) (hinv : L.Inv v) {dto : RedeemInvitationDto}
    {user : Entity .users} {P : Purchase} {e : SqlError}
    (hredeeming : Redeeming p t₀ h i I X v)
    (hP : v.store.stored Tbl.purchases I.purchaseId = some P)
    (henrols : Enrols rt dto I v.store.stored X user)
    (hrefuses : v.store.Refuses p Tbl.enrolments (enrolmentRow user.1 P.courseId i) e) :
    e = .uniqueViolation ∧ X = Drafts.empty ∧ KnownStudent rt I user v.store.stored ∧
      ∃ k other, v.store.stored Tbl.enrolments k = some other ∧
        other.studentUserId = user.1 ∧ other.courseId = P.courseId := by
  have hsound := hL.inv v hinv
  cases e with
  | dataException => cases hrefuses
  | inFailedTransaction => exact hrefuses.elim
  | foreignKeyViolation =>
      obtain ⟨ref, href, hnone⟩ := hrefuses
      have hrefs : ref = (Tbl.users, user.1) ∨ ref = (Tbl.courses, P.courseId) ∨
          ref = (Tbl.invitations, i) := by
        simpa [Tbl.refs, enrolmentRow] using href
      rcases hrefs with rfl | rfl | rfl
      · have hseen := henrols.seen hredeeming
        rw [hnone] at hseen
        cases hseen
      · obtain ⟨course, hcourse⟩ := hsound.stocked _ P hP
        unfold Store.seen at hnone
        rw [hredeeming.inside.2, Drafts.set_other _ _ _ (by simp),
          henrols.elsewhere (by simp), Option.getD_none] at hnone
        rw [show v.store.stored Tbl.courses P.courseId = some course from hcourse] at hnone
        cases hnone
      · unfold Store.seen at hnone
        rw [hredeeming.marked] at hnone
        cases hnone
  | uniqueViolation =>
      obtain ⟨k, other, hclash, hrow⟩ := hrefuses
      have hother : v.store.stored Tbl.enrolments k = some other := by
        rcases hrow with hstored | hdraft
        · exact hstored
        · rw [hredeeming.inside.2, Drafts.set_other _ _ _ (by simp),
            henrols.elsewhere (by simp)] at hdraft
          cases hdraft
      have hcolumns : user.1 = other.studentUserId ∧ P.courseId = other.courseId := by
        have hclash' : Tbl.clash .enrolments (enrolmentRow user.1 P.courseId i) other = true :=
          hclash
        simpa [Tbl.clash, enrolmentRow] using hclash'
      cases henrols with
      | known user hknown =>
          exact ⟨rfl, rfl, hknown, k, other, hother, hcolumns.1.symm, hcolumns.2.symm⟩
      | new id salt =>
          -- nobody is enrolled who has no account yet
          obtain ⟨j, J, U, Q, hgrant⟩ := hsound.granted k other hother
          have hnone := hredeeming.fresh Tbl.users id _ (Drafts.set_same _ _ _ _)
          have hid : other.studentUserId = id := hcolumns.1.symm
          have hsome : v.store.stored Tbl.users other.studentUserId = some U := hgrant.student
          rw [hid, hnone] at hsome
          cases hsome

section Commit

variable {dto : RedeemInvitationDto} {user : Entity .users} {Q : Purchase} {k : Nat}

/-- The accounts after the commit. -/
theorem Enrols.accounts (henrols : Enrols rt dto I v.store.stored X user)
    (hinserts : Inserts p X v) :
    Shop.AccountsKept (v.store.stored Tbl.users) (X.onto v.store.stored Tbl.users) ∧
      ∃ U, X.onto v.store.stored Tbl.users user.1 = some U ∧
        U.email = rt.normaliseEmail I.studentEmail ∧ U.role = .student := by
  cases henrols with
  | known user hknown => exact ⟨fun id U hU => ⟨U.passwordHash, hU⟩, hknown⟩
  | new id salt =>
      have hcolumns := studentRow_columns rt dto I.studentEmail
        (rt.argon2Hash dto.password salt)
      rw [Drafts.onto_set_same, Drafts.onto_empty]
      refine ⟨fun id' U hU => ⟨U.passwordHash, ?_⟩, _, Function.update_self _ _ _,
        hcolumns.1, hcolumns.2.1⟩
      exact Shop.update_fresh (hinserts.fresh Tbl.users id _ (Drafts.set_same _ _ _ _)) hU

/-- The shop after the commit of a redemption. -/
theorem shop_redemption (e : Event (schema rt) (platform rt))
    (hredeeming : Redeeming p t₀ h i I
      (X.set Tbl.enrolments k (some (enrolmentRow user.1 Q.courseId i))) v)
    (henrols : Enrols rt dto I v.store.stored X user) :
    shop (v.put p e (v.store.finish p true)) =
      { shop v with
        users := X.onto v.store.stored Tbl.users
        invitations := Function.update (shop v).invitations i
          (some (InvitationsRepository.markRedeemed t₀ I))
        enrolments := Function.update (shop v).enrolments k
          (some (enrolmentRow user.1 Q.courseId i)) } := by
  have htables (t : Tbl) : (v.store.finish p true).stored t =
      ((X.set Tbl.enrolments k (some (enrolmentRow user.1 Q.courseId i))).set Tbl.invitations i
        (some (InvitationsRepository.markRedeemed t₀ I))).onto v.store.stored t := by
    rw [Store.finish_stored_keep, hredeeming.inside.2]
  have helsewhere (t : Tbl) (htable : t ≠ Tbl.users) :
      X.onto v.store.stored t = v.store.stored t := by
    funext id
    exact Drafts.onto_of_none (henrols.elsewhere htable id)
  unfold shop
  simp only [View.put_store, View.put_mem, htables, Drafts.onto_set_same,
    Drafts.onto_set_other, helsewhere, ne_eq, reduceCtorEq, not_false_eq_true]

theorem Enrols.inserts (henrols : Enrols rt dto I v.store.stored X user)
    (hredeeming : Redeeming p t₀ h i I
      (X.set Tbl.enrolments k (some (enrolmentRow user.1 Q.courseId i))) v) :
    Inserts p X v := by
  have hrows (t : Tbl) (j : Nat) (x : Option t.Row) (hX : X t j = some x) :
      X.set Tbl.enrolments k (some (enrolmentRow user.1 Q.courseId i)) t j = some x := by
    have htable : t ≠ Tbl.enrolments := by
      rintro rfl
      rw [henrols.elsewhere (by simp)] at hX
      cases hX
    rw [Drafts.set_other _ _ _ htable, hX]
  exact ⟨fun t j x hX => hredeeming.fresh t j x (hrows t j x hX),
    fun t j r hX => hredeeming.born t j r (hrows t j _ hX)⟩

theorem redemption_step (e : Event (schema rt) (platform rt))
    (hredeeming : Redeeming p t₀ h i I
      (X.set Tbl.enrolments k (some (enrolmentRow user.1 Q.courseId i))) v)
    (hQ : v.store.stored Tbl.purchases I.purchaseId = some Q)
    (henrols : Enrols rt dto I v.store.stored X user) :
    Shop.Step rt (shop v) (shop (v.put p e (v.store.finish p true))) := by
  obtain ⟨hkept, U, hU, hemail, hrole⟩ := henrols.accounts (henrols.inserts hredeeming)
  rw [shop_redemption e hredeeming henrols]
  exact Shop.Step.redeem _ t₀ i k I _ U Q hkept hredeeming.invitation
    (redeemable_iff.mp hredeeming.redeemable).2.1 hQ rfl hU hemail hrole rfl
    (hredeeming.fresh Tbl.enrolments k _ (Drafts.set_same _ _ _ _))

/-- The rows of a redemption once it is committed. -/
structure Granted (p : Pid) (t₀ : Time) (i : Nat) (I : Invitation) (Q : Purchase) (k : Nat)
    (user : Entity .users) (v : BackendView rt) : Prop where
  invitation : v.store.stored Tbl.invitations i =
    some (InvitationsRepository.markRedeemed t₀ I)
  purchase : v.store.stored Tbl.purchases I.purchaseId = some Q
  enrolment : v.store.stored Tbl.enrolments k = some (enrolmentRow user.1 Q.courseId i)
  born : v.store.born Tbl.enrolments k = some (p, enrolmentRow user.1 Q.courseId i)
  student : KnownStudent rt I user v.store.stored

theorem enrolled_commit (e : Event (schema rt) (platform rt))
    (hredeeming : Redeeming p t₀ h i I
      (X.set Tbl.enrolments k (some (enrolmentRow user.1 Q.courseId i))) v)
    (hQ : v.store.stored Tbl.purchases I.purchaseId = some Q)
    (henrols : Enrols rt dto I v.store.stored X user) :
    Granted p t₀ i I Q k user (v.put p e (v.store.finish p true)) := by
  have hshop := shop_redemption e hredeeming henrols
  obtain ⟨-, U, hU, hstudent⟩ := henrols.accounts (henrols.inserts hredeeming)
  refine
    { invitation := ?_
      purchase := (congrFun (congrArg Shop.purchases hshop) _).trans hQ
      enrolment := ?_
      born := hredeeming.born _ _ _ (Drafts.set_same _ _ _ _)
      student := ⟨U, (congrFun (congrArg Shop.users hshop) _).trans hU, hstudent⟩ }
  · exact (congrFun (congrArg Shop.invitations hshop) i).trans (Function.update_self _ _ _)
  · exact (congrFun (congrArg Shop.enrolments hshop) k).trans (Function.update_self _ _ _)

end Commit

end Assertions

/-- The errors of a call whose conditional update has found no row. -/
def Unredeemable (e : DomainError) : Prop :=
  e = .invitationNotFound ∨ e = .invitationAlreadyRedeemed ∨ e = .invitationExpired

/-- What becomes of an error of the insert of the account. -/
def accountError : SqlError → AppError
  | .uniqueViolation => .domain .invitationEmailConflict
  | e => .queryFailed e

/-- What the outline of a redeem call of `p` leaves open. -/
structure RedeemProof (L : Logic (schema rt) (platform rt)) (p : Pid)
    (dto : RedeemInvitationDto) where
  failure : AppError → Time → Committed rt → Prop
  duplicate : Entity .users → Committed rt → Prop
  success : Entity .users → BackendView rt → Prop
  failurePersistent : ∀ e, L.Persistent fun v => failure e v.store.clock v.store.stored
  duplicatePersistent : ∀ user, L.Persistent fun v => duplicate user v.store.stored
  successStable : ∀ user, L.Stable p (success user)
  missed : ∀ v t₀, v.store.Wf → L.Inv v → Inside p t₀ Drafts.empty v → Harmless p v →
    (∀ i I, v.store.stored Tbl.invitations i = some I →
      InvitationsRepository.redeemable (hashToken rt dto.token) t₀ I = false) →
    ∀ e, Unredeemable e → failure (.domain e) v.store.clock v.store.stored
  conflict : ∀ v t₀ i I user, v.store.Wf → L.Inv v →
    Redeeming p t₀ (hashToken rt dto.token) i I Drafts.empty v →
    v.store.stored Tbl.users user.1 = some user.2 →
    user.2.email = rt.normaliseEmail I.studentEmail →
    (user.2.role ≠ .student ∨ passwordMatches rt user dto.password = false) →
    failure (.domain .invitationEmailConflict) v.store.clock v.store.stored
  incomplete : missingFields dto ≠ [] →
    ∀ now stored, failure (.domain (.validationFailed (missingFields dto))) now stored
  refused : ∀ v t₀ i I salt e, v.store.Wf → L.Inv v →
    Redeeming p t₀ (hashToken rt dto.token) i I Drafts.empty v →
    v.store.Refuses p Tbl.users (studentRow rt dto I.studentEmail
      (rt.argon2Hash dto.password salt)) e →
    failure (accountError e) v.store.clock v.store.stored
  again : ∀ v t₀ i I user P k other, v.store.Wf → L.Inv v →
    Redeeming p t₀ (hashToken rt dto.token) i I Drafts.empty v →
    v.store.stored Tbl.purchases I.purchaseId = some P →
    KnownStudent rt I user v.store.stored →
    v.store.stored Tbl.enrolments k = some other → other.studentUserId = user.1 →
    other.courseId = P.courseId →
    L.scope.run v p (v.put p ⟨.sql (.insert Tbl.enrolments fun _ =>
        enrolmentRow user.1 P.courseId i), .error .uniqueViolation⟩
      (v.store.setTx p (some { startedAt := t₀, aborted := true }))) →
    duplicate user v.store.stored
  repeated : ∀ user v, duplicate user v.store.stored → Harmless p v → success user v
  enrolled : ∀ v v' t₀ i I X user P k, v.store.Wf → L.Inv v →
    Redeeming p t₀ (hashToken rt dto.token) i I
      (X.set Tbl.enrolments k (some (enrolmentRow user.1 P.courseId i))) v →
    v.store.stored Tbl.purchases I.purchaseId = some P →
    Enrols rt dto I v.store.stored X user → L.scope.run v p v' →
    v' = v.put p ⟨.sql .commit, true⟩ (v.store.finish p true) →
      L.Inv v' ∧ L.Guar (some p) v v' ∧ success user v'

namespace RedeemProof

variable {L : Logic (schema rt) (platform rt)} {p : Pid} {dto : RedeemInvitationDto}
  {t₀ : Time} {i : Nat} {I : Invitation} {X : Drafts (schema rt)}

/-- The call fails, and has changed nothing. -/
def Fails (P : RedeemProof L p dto) (e : AppError) (v : BackendView rt) : Prop :=
  P.failure e v.store.clock v.store.stored ∧ Harmless p v

theorem stable_fails (P : RedeemProof L p dto) (e : AppError) : L.Stable p (P.Fails e) :=
  (P.failurePersistent e).stable.and stable_harmless

/-- Nothing has been found to redeem. -/
def Missed (P : RedeemProof L p dto) (v : BackendView rt) : Prop :=
  ∀ e, Unredeemable e → P.failure (.domain e) v.store.clock v.store.stored

theorem persistent_missed (P : RedeemProof L p dto) : L.Persistent P.Missed :=
  fun a v v' hstep hmissed e he => P.failurePersistent (.domain e) a v v' hstep (hmissed e he)

/-! ### The conditional update -/

/-- The loop of the conditional update over the rows that are left. No row is there
twice, so one hit is all there is. -/
def Resolving (P : RedeemProof L p dto) (t₀ : Time) (rest : List Nat) :
    List (Entity .invitations) → BackendView rt → Prop
  | [], v => (Inside p t₀ Drafts.empty v ∧ Harmless p v) ∧
      (∀ j ∈ rest, ∃ J, v.store.stored Tbl.invitations j = some J ∧
        J.tokenHash = hashToken rt dto.token) ∧
      (rest = [] → P.Missed v)
  | [(i, I)], v => Redeeming p t₀ (hashToken rt dto.token) i I Drafts.empty v
  | _, _ => False

theorem persistent_tokenHash (hL : OverShop L) (j : Nat) (h : String) :
    L.Persistent fun v => ∃ J, v.store.stored Tbl.invitations j = some J ∧ J.tokenHash = h :=
  persistent_row hL fun now a x hallowed ha => by
    obtain ⟨b, c, hredeemed, hsent, rfl⟩ := hallowed
    refine ⟨c, rfl, ?_⟩
    rcases hredeemed with rfl | ⟨-, -, rfl⟩ <;> rcases hsent with rfl | ⟨-, rfl⟩ <;> exact ha

theorem stable_resolving (P : RedeemProof L p dto) (hL : OverShop L) (rest : List Nat)
    (found : List (Entity .invitations)) : L.Stable p (P.Resolving t₀ rest found) := by
  match found with
  | [] =>
      intro actor v v' hactor hstep hresolving
      obtain ⟨hopen, hknown, hempty⟩ := hresolving
      refine ⟨(stable_inside t₀ _).and stable_harmless actor v v' hactor hstep hopen, ?_, ?_⟩
      · exact fun j hj =>
          persistent_tokenHash hL j _ actor v v' hstep (hknown j hj)
      · exact fun hnil => P.persistent_missed actor v v' hstep (hempty hnil)
  | [(i, I)] => exact stable_redeeming
  | _ :: _ :: _ => exact fun _ _ _ _ _ hfalse => hfalse

/-- Only one row has the token. -/
theorem same_invitation {v : BackendView rt} (hwf : v.store.Wf) {i j : Nat}
    {I J : Invitation} (hI : v.store.seen p Tbl.invitations i = some I)
    (hJ : v.store.seen p Tbl.invitations j = some J)
    (hsame : I.tokenHash = J.tokenHash) : i = j := by
  refine hwf.seen_distinct hI hJ ?_
  show Tbl.clash .invitations I J = true
  simp [Tbl.clash, hsame]

/-- A program that has written nothing sees the committed rows. -/
theorem seen_committed {v : BackendView rt} (hinside : Inside p t₀ Drafts.empty v) (t : Tbl)
    (j : Nat) : v.store.seen p t j = v.store.stored t j := by
  rw [Store.seen, hinside.2]
  rfl

theorem resolving_start (P : RedeemProof L p dto) {v : BackendView rt}
    {s : Snapshot (schema rt)} (hwf : v.store.Wf) (hinv : L.Inv v)
    (hinside : Inside p t₀ Drafts.empty v) (hharmless : Harmless p v)
    (hs : s = v.store.snapshot t₀ v.store.stored) :
    P.Resolving t₀ (Sql.matching s Tbl.invitations
      (InvitationsRepository.redeemable (hashToken rt dto.token))) []
      (v.put p ⟨.sql (.read .manager), .ok s⟩ v.store) := by
  refine ⟨⟨hinside, hharmless.grow (e := ⟨.sql (.read .manager), .ok s⟩)
    (fun hdurable => hdurable) rfl⟩, fun j hj => ?_, fun hempty => ?_⟩
  · obtain ⟨-, J, hJ, hmatch⟩ := Sql.mem_matching.mp hj
    rw [hs] at hJ
    exact ⟨J, hJ, (redeemable_iff.mp hmatch).1⟩
  · refine P.missed v t₀ hwf hinv hinside hharmless fun i I hI => ?_
    by_contra hmatch
    have hlisted : i ∈ Sql.matching s Tbl.invitations
        (InvitationsRepository.redeemable (hashToken rt dto.token)) := by
      rw [hs]
      exact Sql.mem_matching.mpr ⟨hwf.lt_next hI, I, hI, Bool.eq_true_of_not_eq_false hmatch⟩
    rw [hempty] at hlisted
    cases hlisted

theorem resolving_miss (P : RedeemProof L p dto) {v : BackendView rt} {W : Drafts (schema rt)}
    {id : Nat} {rest : List Nat} {found : List (Entity .invitations)}
    {e : Event (schema rt) (platform rt)} (hwf : v.store.Wf) (hinv : L.Inv v)
    (hresolving : P.Resolving t₀ (id :: rest) found v) (hin : Inside p t₀ W v)
    (hmissed : ∀ r, (W Tbl.invitations id).getD (v.store.stored Tbl.invitations id) = some r →
      InvitationsRepository.redeemable (hashToken rt dto.token) t₀ r = false)
    (he : ¬ Durable e) : P.Resolving t₀ rest found (v.put p e v.store) := by
  match found with
  | [(i, I)] => exact Redeeming.put hresolving he
  | _ :: _ :: _ => exact hresolving
  | [] =>
      obtain ⟨⟨hinside, hharmless⟩, hknown, -⟩ := hresolving
      obtain rfl : W = Drafts.empty := hin.2.symm.trans hinside.2
      refine ⟨⟨hinside, hharmless.grow he rfl⟩,
        fun j hj => hknown j (List.mem_cons_of_mem id hj), fun _ => ?_⟩
      refine P.missed v t₀ hwf hinv hinside hharmless fun i I hI => ?_
      by_contra hmatch
      have hredeemable := Bool.eq_true_of_not_eq_false hmatch
      obtain ⟨J, hJ, hhash⟩ := hknown id List.mem_cons_self
      have hsame : i = id := by
        refine same_invitation (p := p) hwf (I := I) (J := J) ?_ ?_ ?_
        · rw [seen_committed hinside, hI]
        · rw [seen_committed hinside, hJ]
        · rw [(redeemable_iff.mp hredeemable).1, hhash]
      subst hsame
      rw [hmissed I hI] at hredeemable
      cases hredeemable

theorem resolving_hit (P : RedeemProof L p dto) {v : BackendView rt} {W : Drafts (schema rt)}
    {id : Nat} {rest : List Nat} {found : List (Entity .invitations)} {r : Invitation}
    {e : Event (schema rt) (platform rt)} (hwf : v.store.Wf)
    (hresolving : P.Resolving t₀ (id :: rest) found v) (hin : Inside p t₀ W v)
    (hseen : (W Tbl.invitations id).getD (v.store.stored Tbl.invitations id) = some r)
    (hmatch : InvitationsRepository.redeemable (hashToken rt dto.token) t₀ r = true)
    (he : ¬ Durable e) :
    P.Resolving t₀ rest (found ++ [(id, r)]) (v.put p e (v.store.hold p Tbl.invitations id
      (some (InvitationsRepository.markRedeemed t₀ r)))) := by
  match found with
  | _ :: _ :: _ => exact hresolving.elim
  | [] =>
      obtain ⟨⟨hinside, hharmless⟩, -, -⟩ := hresolving
      obtain rfl : W = Drafts.empty := hin.2.symm.trans hinside.2
      exact redeeming_hold hinside hharmless hmatch hseen he
  | [(i, I)] =>
      -- the first hit has marked the only row with this token
      have hredeeming : Redeeming p t₀ (hashToken rt dto.token) i I Drafts.empty v := hresolving
      have hown : v.store.seen p Tbl.invitations i =
          some (InvitationsRepository.markRedeemed t₀ I) := by
        rw [Store.seen, hredeeming.marked]
        rfl
      have hrow : v.store.seen p Tbl.invitations id = some r := by
        rw [Store.seen, hin.2]
        exact hseen
      have hsame : i = id := by
        refine same_invitation hwf hown hrow ?_
        rw [(redeemable_iff.mp hmatch).1]
        exact (redeemable_iff.mp hredeeming.redeemable).1
      rw [← hsame, hown] at hrow
      obtain rfl := Option.some.inj hrow
      have hissued := (redeemable_iff.mp hmatch).2.1
      cases hissued

theorem resolving_inside (P : RedeemProof L p dto) (rest : List Nat)
    (found : List (Entity .invitations)) (v : BackendView rt)
    (hresolving : P.Resolving t₀ rest found v) : ∃ W, Inside p t₀ W v := by
  match found with
  | [] => exact ⟨_, hresolving.1.1⟩
  | [(i, I)] => exact ⟨_, Redeeming.inside hresolving⟩
  | _ :: _ :: _ => exact hresolving.elim

theorem atomicRedeem_rule (P : RedeemProof L p dto) (hL : OverShop L) :
    L.Triple p (fun v => Inside p t₀ Drafts.empty v ∧ Harmless p v)
      (InvitationsRepository.atomicRedeem (hashToken rt dto.token))
      (ends (fun found v =>
          match found with
          | none => (Inside p t₀ Drafts.empty v ∧ Harmless p v) ∧ P.Missed v
          | some row => ∃ I, row.2 = InvitationsRepository.markRedeemed t₀ I ∧
              Redeeming p t₀ (hashToken rt dto.token) row.1 I Drafts.empty v)
        fun _ _ => False) := by
  have hopen : L.Stable p fun v => Inside p t₀ Drafts.empty v ∧ Harmless p v :=
    (stable_inside t₀ _).and stable_harmless
  refine Triple.read_manager (R := fun s v => P.Resolving t₀ (Sql.matching s
      Tbl.invitations (InvitationsRepository.redeemable (hashToken rt dto.token))) [] v ∧
      s.now = t₀) hopen (fun v hA => ⟨_, hA.1⟩) ?_ fun s => ?_
  · intro v s W hwf hinv hA hin hs
    obtain rfl : W = Drafts.empty := hin.2.symm.trans hA.1.2
    exact ⟨resolving_start P hwf hinv hA.1 hA.2 hs, by rw [hs]; rfl⟩
  · refine Triple.given (fun v _ _ hR => hR.2) fun hnow => ?_
    refine Triple.weaken ?_ fun v _ _ hR => hR.1
    refine Triple.touchEach (σ := schema rt) (t := Tbl.invitations) (J := P.Resolving t₀)
      (P.stable_resolving hL) P.resolving_inside ?_ ?_ ?_ _ []
    · intro id rest found v W hwf hinv hresolving hin hmissed
      exact resolving_miss P hwf hinv hresolving hin hmissed fun hdurable => hdurable
    · intro id rest found v W r hwf hinv hresolving hin hfree hseen hmatch
      exact resolving_hit P hwf hresolving hin hseen hmatch fun hdurable => hdurable
    · intro found
      refine Triple.ret (P.stable_resolving hL [] found) fun v hresolving => ?_
      match found with
      | [] => exact ⟨hresolving.1, hresolving.2.2 rfl⟩
      | [(i, I)] => exact ⟨I, by rw [hnow], hresolving⟩
      | _ :: _ :: _ => exact hresolving.elim

/-- On a miss one more query finds the reason. -/
theorem resolveOrThrow_rule (P : RedeemProof L p dto) (hL : OverShop L) :
    L.Triple p (fun v => Inside p t₀ Drafts.empty v ∧ Harmless p v)
      (resolveOrThrow (hashToken rt dto.token))
      (ends (fun row v => ∃ I, row.2 = InvitationsRepository.markRedeemed t₀ I ∧
          Redeeming p t₀ (hashToken rt dto.token) row.1 I Drafts.empty v)
        P.Fails) := by
  refine Triple.andThen (P.atomicRedeem_rule hL) (fun found => ?_) fun _ _ hfalse =>
    hfalse.elim
  cases found with
  | some row =>
      refine Triple.exists fun I => ?_
      exact Triple.ret ((Stable.const _).and stable_redeeming) fun v hA => ⟨I, hA⟩
  | none =>
      have hstable : L.Stable p fun v =>
          (Inside p t₀ Drafts.empty v ∧ Harmless p v) ∧ P.Missed v :=
        ((stable_inside t₀ _).and stable_harmless).and P.persistent_missed.stable
      have hstop : L.Stable p fun v => P.Missed v ∧ Harmless p v :=
        P.persistent_missed.stable.and stable_harmless
      refine Triple.read_pool (R := fun _ v => P.Missed v ∧ Harmless p v) hstable
        (fun v s _ _ hA _ => ?_) fun s => ?_
      · exact ⟨hA.2, hA.1.2.grow (e := ⟨.sql (.read .pool), .ok s⟩)
          (fun hdurable => hdurable) rfl⟩
      · have hthrow {R : Entity .invitations → BackendView rt → Prop} (e : DomainError)
            (he : Unredeemable e) : L.Triple p (fun v => P.Missed v ∧ Harmless p v)
              (throwDomain e : Method rt (Entity .invitations)) (ends R P.Fails) :=
          Triple.throw hstop fun v hA => ⟨hA.1 e he, hA.2⟩
        simp only [Sql.answer, Prog.andThen_ret, Prog.pure_eq]
        split
        · exact hthrow _ (Or.inl rfl)
        · split
          · exact hthrow _ (Or.inr (Or.inl rfl))
          · exact hthrow _ (Or.inr (Or.inr rfl))

/-! ### The account and the enrolment -/

theorem resolveCourseId_rule (hL : OverShop L) {h : String}
    (hX : ∀ j, X Tbl.purchases j = none) :
    L.Triple p (Redeeming p t₀ h i I X)
      (resolveCourseId (i, InvitationsRepository.markRedeemed t₀ I))
      (ends (fun courseId v => ∃ Q : Purchase, courseId = Q.courseId ∧
          Redeeming p t₀ h i I X v ∧ v.store.stored Tbl.purchases I.purchaseId = some Q)
        fun _ _ => False) := by
  refine Triple.read_manager (R := fun s v => ∃ Q : Purchase,
      (s.rows Tbl.purchases).find? (fun row => row.1 == I.purchaseId) =
        some (I.purchaseId, Q) ∧
      Redeeming p t₀ h i I X v ∧ v.store.stored Tbl.purchases I.purchaseId = some Q)
    stable_redeeming (fun v hredeeming => ⟨_, hredeeming.inside⟩) ?_ fun s => ?_
  · intro v s W hwf hinv hredeeming hin hs
    obtain ⟨Q, hQ⟩ := (hL.inv v hinv).invited i I hredeeming.invitation
    have hown : W Tbl.purchases I.purchaseId = none := by
      rw [← hin.2, hredeeming.inside.2, Drafts.set_other _ _ _ (by simp), hX]
    refine ⟨Q, Snapshot.find_row ?_ ?_, hredeeming.put (fun hdurable => hdurable), hQ⟩
    · rw [hs]
      exact hwf.lt_next hQ
    · rw [hs]
      show (W Tbl.purchases I.purchaseId).getD _ = some Q
      rw [hown]
      exact hQ
  · refine Triple.exists fun Q => ?_
    refine Triple.given (fun v _ _ hR => hR.1) fun hfound => ?_
    refine Triple.weaken ?_ fun v _ _ hR => hR.2
    have hfound' : (s.rows Tbl.purchases).find? (fun row => row.1 ==
        (i, InvitationsRepository.markRedeemed t₀ I).2.purchaseId) =
          some (I.purchaseId, Q) := hfound
    simp only [Sql.answer, Prog.andThen_ret, Prog.pure_eq, hfound']
    exact Triple.ret (stable_redeeming.and (persistent_purchase hL _ _).stable)
      fun v hA => ⟨Q, rfl, hA⟩

theorem insertStudentUser_rule (P : RedeemProof L p dto) (hL : OverShop L) (salt : String) :
    L.Triple p (Redeeming p t₀ (hashToken rt dto.token) i I Drafts.empty)
      (insertStudentUser dto I.studentEmail (rt.argon2Hash dto.password salt))
      (ends (fun user v =>
          user.2 = studentRow rt dto I.studentEmail (rt.argon2Hash dto.password salt) ∧
          Redeeming p t₀ (hashToken rt dto.token) i I
            (Drafts.empty.set Tbl.users user.1 (some (studentRow rt dto I.studentEmail
              (rt.argon2Hash dto.password salt)))) v)
        P.Fails) := by
  have hsave : L.Triple p (Redeeming p t₀ (hashToken rt dto.token) i I Drafts.empty)
      (UsersRepository.insertUserWithinTransaction
        { email := I.studentEmail
          passwordHash := rt.argon2Hash dto.password salt
          role := .student
          firstName := dto.firstName
          lastName := dto.lastName
          dateOfBirth := dto.dateOfBirth })
      (ends (fun user v =>
          user.2 = studentRow rt dto I.studentEmail (rt.argon2Hash dto.password salt) ∧
          Redeeming p t₀ (hashToken rt dto.token) i I
            (Drafts.empty.set Tbl.users user.1 (some (studentRow rt dto I.studentEmail
              (rt.argon2Hash dto.password salt)))) v)
        fun error v => ∃ e, error = .queryFailed e ∧ P.Fails (accountError e) v) := by
    refine save_rule
      (R := fun id => Redeeming p t₀ (hashToken rt dto.token) i I
        (Drafts.empty.set Tbl.users id (some (studentRow rt dto I.studentEmail
          (rt.argon2Hash dto.password salt)))))
      (E := fun e => P.Fails (accountError e)) hL stable_redeeming
      (fun v hredeeming => ⟨_, hredeeming.inside⟩) (fun id => stable_redeeming)
      (fun e => P.stable_fails _) ?_ ?_
    · intro v W hwf hinv hredeeming hin haccepts
      exact hredeeming.push hwf (by simp) _ fun hdurable => hdurable
    · intro v v' W e hwf hinv hredeeming hin hrefuses hrun hv'
      subst hv'
      exact ⟨P.refused v t₀ i I salt e hwf hinv hredeeming hrefuses,
        hredeeming.harmless.grow (e := ⟨.sql (.insert Tbl.users _), .error e⟩)
          (fun hdurable => hdurable) rfl⟩
  refine Triple.attempt hsave (fun user v hA => hA) fun error => ?_
  refine Triple.exists fun e => ?_
  refine Triple.given (fun v _ _ hA => hA.1) fun herror => ?_
  subst herror
  refine Triple.weaken ?_ fun v _ _ hA => hA.2
  cases e <;> exact Triple.throw (P.stable_fails _) fun v hfails => hfails

/-- The body of the transaction ends with a value: the rows are there, or the insert of
the enrolment was refused. -/
def Ready (P : RedeemProof L p dto) (user : Entity .users) (v : BackendView rt) : Prop :=
  (∃ t₀ i I X k, ∃ Q : Purchase, (Redeeming p t₀ (hashToken rt dto.token) i I
      (X.set Tbl.enrolments k (some (enrolmentRow user.1 Q.courseId i))) v ∧
    v.store.stored Tbl.purchases I.purchaseId = some Q) ∧
      Enrols rt dto I v.store.stored X user) ∨
  Doomed p v ∧ P.duplicate user v.store.stored ∧ Harmless p v

theorem stable_ready (P : RedeemProof L p dto) (hL : OverShop L) (user : Entity .users) :
    L.Stable p (P.Ready user) := by
  intro actor v v' hactor hstep hready
  rcases hready with ⟨t₀, i, I, X, k, Q, ⟨hredeeming, hQ⟩, henrols⟩ | ⟨hdoomed, hduplicate, hown⟩
  · exact Or.inl ⟨t₀, i, I, X, k, Q, ⟨stable_redeeming actor v v' hactor hstep hredeeming,
      persistent_purchase hL _ _ actor v v' hstep hQ⟩,
      persistent_enrols hL dto I X user actor v v' hstep henrols⟩
  · exact Or.inr ⟨stable_doomed actor v v' hactor hstep hdoomed,
      P.duplicatePersistent user actor v v' hstep hduplicate,
      stable_harmless actor v v' hactor hstep hown⟩

theorem insertEnrolment_rule (P : RedeemProof L p dto) (hL : OverShop L)
    (user : Entity .users) (Q : Purchase) :
    L.Triple p (fun v => (Redeeming p t₀ (hashToken rt dto.token) i I X v ∧
        v.store.stored Tbl.purchases I.purchaseId = some Q) ∧
        Enrols rt dto I v.store.stored X user)
      (EnrolmentsRepository.insertWithinTransaction (enrolmentRow user.1 Q.courseId i))
      (ends (fun _ => P.Ready user) fun error v =>
        (error = .domain .enrolmentAlreadyExists ∧ X = Drafts.empty) ∧
          Doomed p v ∧ P.duplicate user v.store.stored ∧ Harmless p v) := by
  have hstable : L.Stable p fun v => (Redeeming p t₀ (hashToken rt dto.token) i I X v ∧
      v.store.stored Tbl.purchases I.purchaseId = some Q) ∧
      Enrols rt dto I v.store.stored X user :=
    (stable_redeeming.and (persistent_purchase hL _ _).stable).and
      (persistent_enrols hL dto I X user).stable
  have hstop : L.Stable p fun v =>
      Doomed p v ∧ P.duplicate user v.store.stored ∧ Harmless p v :=
    stable_doomed.and ((P.duplicatePersistent user).stable.and stable_harmless)
  have hsave : L.Triple p (fun v => (Redeeming p t₀ (hashToken rt dto.token) i I X v ∧
        v.store.stored Tbl.purchases I.purchaseId = some Q) ∧
        Enrols rt dto I v.store.stored X user)
      (BaseRepository.save .enrolments fun _ => enrolmentRow user.1 Q.courseId i)
      (ends (fun row v => row.2 = enrolmentRow user.1 Q.courseId i ∧ P.Ready user v)
        fun error v => ∃ e, error = .queryFailed e ∧
          (e = .uniqueViolation ∧ X = Drafts.empty) ∧
            Doomed p v ∧ P.duplicate user v.store.stored ∧ Harmless p v) := by
    refine save_rule (R := fun _ => P.Ready user)
      (E := fun e v => (e = .uniqueViolation ∧ X = Drafts.empty) ∧
        Doomed p v ∧ P.duplicate user v.store.stored ∧ Harmless p v) hL hstable
      (fun v hA => ⟨_, hA.1.1.inside⟩) (fun _ => P.stable_ready hL user)
      (fun e => (Stable.const _).and hstop) ?_ ?_
    · intro v W hwf hinv hA hin haccepts
      have hvacant := (hwf.vacant Tbl.enrolments _ (le_refl _)).1
      refine Or.inl ⟨t₀, i, I, X, v.store.next Tbl.enrolments, Q, ⟨?_, ?_⟩, ?_⟩
      · exact hA.1.1.push hwf (by simp) _ fun hdurable => hdurable
      · rw [View.put_store, Store.push_stored v.store p _ _ hvacant]
        exact hA.1.2
      · rw [View.put_store, Store.push_stored v.store p _ _ hvacant]
        exact hA.2
    · intro v v' W e hwf hinv hA hin hrefuses hrun hv'
      obtain ⟨⟨hredeeming, hQ⟩, henrols⟩ := hA
      obtain ⟨rfl, rfl, hknown, k, other, hother, hstudent, hcourse⟩ :=
        enrolment_refused hL hinv hredeeming hQ henrols hrefuses
      subst hv'
      refine ⟨⟨rfl, rfl⟩, ⟨_, Store.setTx_tx_self v.store p _, rfl⟩, ?_, ?_⟩
      · exact P.again v t₀ i I user Q k other hwf hinv hredeeming hQ hknown hother
          hstudent hcourse hrun
      · exact hredeeming.harmless.grow
          (e := ⟨.sql (.insert Tbl.enrolments _), .error .uniqueViolation⟩)
          (fun hdurable => hdurable) rfl
  refine Triple.attempt hsave (fun row v hA => hA.2) fun error => ?_
  refine Triple.exists fun e => ?_
  refine Triple.given
    (φ := error = .queryFailed e ∧ e = .uniqueViolation ∧ X = Drafts.empty)
    (fun v _ _ hA => ⟨hA.1, hA.2.1⟩) fun hfacts => ?_
  obtain ⟨rfl, rfl, hX⟩ := hfacts
  refine Triple.weaken ?_ fun v _ _ hA => hA.2.2
  exact Triple.throw hstop fun v hA => ⟨⟨rfl, hX⟩, hA⟩

theorem redeemForExistingUser_rule (P : RedeemProof L p dto) (hL : OverShop L)
    (user : Entity .users) :
    L.Triple p (fun v => Redeeming p t₀ (hashToken rt dto.token) i I Drafts.empty v ∧
        (user.2.role ≠ .student ∨ passwordMatches rt user dto.password = false →
          P.failure (.domain .invitationEmailConflict) v.store.clock v.store.stored) ∧
        (user.2.role = .student → KnownStudent rt I user v.store.stored))
      (redeemForExistingUser (i, InvitationsRepository.markRedeemed t₀ I) user dto.password)
      (ends P.Ready P.Fails) := by
  unfold redeemForExistingUser
  split
  · rename_i hrole
    refine Triple.weaken (Triple.throw (P.stable_fails _) fun v hfails => hfails) ?_
    exact fun v _ _ hA => ⟨hA.2.1 (Or.inl hrole), hA.1.harmless⟩
  · rename_i hrole
    have hstudent : user.2.role = .student := not_not.mp hrole
    split
    · rename_i hpassword
      refine Triple.weaken (Triple.throw (P.stable_fails _) fun v hfails => hfails) ?_
      exact fun v _ _ hA => ⟨hA.2.1 (Or.inr hpassword), hA.1.harmless⟩
    · have hcourse : L.Triple p (Redeeming p t₀ (hashToken rt dto.token) i I Drafts.empty)
          (resolveCourseId (i, InvitationsRepository.markRedeemed t₀ I)) _ :=
        resolveCourseId_rule hL fun _ => rfl
      refine Triple.weaken (Triple.andThen
        (Triple.persist (persistent_enrols hL dto I Drafts.empty user) hcourse) (fun courseId => ?_)
        fun _ _ herror => herror.1.elim) ?_
      · have hfound (v : BackendView rt)
            (hA : (∃ Q : Purchase, courseId = Q.courseId ∧
              Redeeming p t₀ (hashToken rt dto.token) i I Drafts.empty v ∧
              v.store.stored Tbl.purchases I.purchaseId = some Q) ∧
              Enrols rt dto I v.store.stored Drafts.empty user) :
            ∃ Q : Purchase, courseId = Q.courseId ∧
              ((Redeeming p t₀ (hashToken rt dto.token) i I Drafts.empty v ∧
              v.store.stored Tbl.purchases I.purchaseId = some Q) ∧
              Enrols rt dto I v.store.stored Drafts.empty user) := by
          obtain ⟨⟨Q, hid, hrow⟩, henrols⟩ := hA
          exact ⟨Q, hid, hrow, henrols⟩
        refine Triple.weaken (Triple.exists fun Q => ?_) fun v _ _ hA => hfound v hA
        refine Triple.given (fun v _ _ hA => hA.1) fun hid => ?_
        subst hid
        refine Triple.weaken ?_ fun v _ _ hA => hA.2
        have henrol : L.Triple p (fun v =>
            (Redeeming p t₀ (hashToken rt dto.token) i I Drafts.empty v ∧
              v.store.stored Tbl.purchases I.purchaseId = some Q) ∧
              Enrols rt dto I v.store.stored Drafts.empty user)
            (enrolExisting user Q.courseId i)
            (ends (fun _ => P.Ready user) fun _ _ => False) := by
          refine Triple.attempt (Q := ends (fun _ => P.Ready user) fun error v =>
              error = .domain .enrolmentAlreadyExists ∧
                Doomed p v ∧ P.duplicate user v.store.stored ∧ Harmless p v)
            (Triple.andThen (P.insertEnrolment_rule hL user Q)
              (fun row => Triple.ret (P.stable_ready hL user) fun v hready => hready)
              fun error v herror => ⟨herror.1.1, herror.2⟩)
            (fun _ v hready => hready) fun error => ?_
          refine Triple.given (φ := error = .domain .enrolmentAlreadyExists)
            (fun v _ _ hA => hA.1) fun herror => ?_
          subst herror
          refine Triple.weaken (Triple.ret (P.stable_ready hL user) fun v hready => hready) ?_
          exact fun v _ _ hA => Or.inr hA.2
        refine Triple.andThen henrol (fun _ => ?_) fun _ _ hfalse => hfalse.elim
        exact Triple.ret (P.stable_ready hL user) fun v hready => hready
      · exact fun v _ _ hA => ⟨hA.1, .known user (hA.2.2 hstudent)⟩

theorem redeemForNewUser_rule (P : RedeemProof L p dto) (hL : OverShop L) :
    L.Triple p (Redeeming p t₀ (hashToken rt dto.token) i I Drafts.empty)
      (redeemForNewUser (i, InvitationsRepository.markRedeemed t₀ I) dto)
      (ends P.Ready P.Fails) := by
  unfold redeemForNewUser
  split
  · rename_i hmissing
    refine Triple.weaken (Triple.throw (P.stable_fails _) fun v hfails => hfails) ?_
    exact fun v _ _ hredeeming => ⟨P.incomplete hmissing _ _, hredeeming.harmless⟩
  · refine Triple.andThen (hash_quiet_rule (E := fun _ _ => False) hL stable_redeeming
      fun v digest mem hredeeming => hredeeming.remember mem fun hdurable => hdurable)
      (fun digest => ?_) fun _ _ hfalse => hfalse.elim
    refine Triple.given (fun v _ _ hA => hA.1) fun hdigest => ?_
    obtain ⟨salt, rfl⟩ := hdigest
    refine Triple.weaken ?_ fun v _ _ hA => hA.2
    refine Triple.andThen (P.insertStudentUser_rule hL salt) (fun user => ?_)
      fun _ _ herror => herror
    refine Triple.given (fun v _ _ hA => hA.1) fun hrow => ?_
    refine Triple.weaken ?_ fun v _ _ hA => hA.2
    obtain ⟨id, row⟩ := user
    obtain rfl : row = _ := hrow
    have hX (j : Nat) : (Drafts.empty.set Tbl.users id (some (studentRow rt dto I.studentEmail
        (rt.argon2Hash dto.password salt))) : Drafts (schema rt)) Tbl.purchases j = none := by
      rw [Drafts.set_other _ _ _ (by simp)]
      rfl
    refine Triple.andThen (resolveCourseId_rule hL hX) (fun courseId => ?_)
      fun _ _ hfalse => hfalse.elim
    refine Triple.exists fun Q => ?_
    refine Triple.given (fun v _ _ hA => hA.1) fun hid => ?_
    subst hid
    refine Triple.andThen (Triple.weaken (P.insertEnrolment_rule hL _ Q)
      fun v _ _ hA => ⟨hA.2, .new id salt⟩) (fun _ => ?_) fun error v herror => ?_
    · exact Triple.ret (P.stable_ready hL _) fun v hready => hready
    · -- a new account has no enrolment yet
      have hboth := congrFun (congrFun herror.1.2 Tbl.users) id
      rw [Drafts.set_same] at hboth
      cases hboth

theorem redeemInTransaction_rule (P : RedeemProof L p dto) (hL : OverShop L) :
    L.Triple p (fun v => Inside p t₀ Drafts.empty v ∧ Harmless p v)
      (redeemInTransaction dto) (ends P.Ready P.Fails) := by
  refine Triple.andThen (P.resolveOrThrow_rule hL) (fun row => ?_) fun _ _ herror => herror
  obtain ⟨i, marked⟩ := row
  refine Triple.exists fun I => ?_
  refine Triple.given (fun v _ _ hA => hA.1) fun hrow => ?_
  obtain rfl : marked = _ := hrow
  refine Triple.weaken ?_ fun v _ _ hA => hA.2
  have hknown (found : Option (Entity .users)) : L.Stable p fun v =>
      Redeeming p t₀ (hashToken rt dto.token) i I Drafts.empty v ∧
        ∀ user, found = some user →
          (user.2.role ≠ .student ∨ passwordMatches rt user dto.password = false →
            P.failure (.domain .invitationEmailConflict) v.store.clock v.store.stored) ∧
          (user.2.role = .student → KnownStudent rt I user v.store.stored) := by
    intro actor v v' hactor hstep hA
    refine ⟨stable_redeeming actor v v' hactor hstep hA.1, fun user huser => ⟨?_, ?_⟩⟩
    · exact fun hreason => P.failurePersistent _ actor v v' hstep ((hA.2 user huser).1 hreason)
    · intro hstudent
      exact persistent_user hL user.1 _ _ actor v v' hstep ((hA.2 user huser).2 hstudent)
  refine Triple.andThen (findOne_rule (E := fun _ _ => False) stable_redeeming hknown ?_)
    (fun found => ?_) fun _ _ hfalse => hfalse.elim
  · intro v s found hwf hinv hredeeming hpicks
    refine ⟨hredeeming.put fun hdurable => hdurable, ?_⟩
    rintro user rfl
    obtain ⟨hstored, hemail⟩ := hpicks
    have hsame : user.2.email = rt.normaliseEmail I.studentEmail := eq_of_beq hemail
    exact ⟨fun hreason => P.conflict v t₀ i I user hwf hinv hredeeming hstored hsame hreason,
      fun hstudent => ⟨user.2, hstored, hsame, hstudent⟩⟩
  · cases found with
    | none =>
        exact Triple.weaken (P.redeemForNewUser_rule hL) fun v _ _ hA => hA.1
    | some user =>
        refine Triple.weaken (P.redeemForExistingUser_rule hL user) fun v _ _ hA => ?_
        exact ⟨hA.1, hA.2 user rfl⟩

/-! ### The whole call -/

theorem commit_rule (P : RedeemProof L p dto) (hL : OverShop L) (user : Entity .users)
    {E : AppError → BackendView rt → Prop} :
    L.Triple p (P.Ready user) (.step (.sql .commit) fun _ => .ret user)
      (ends P.success E) := by
  have hret : L.Triple p (P.success user) (.ret user) (ends P.success E) :=
    Triple.ret (P.successStable user) fun v hsuccess => hsuccess
  have hkept : L.Triple p (fun v => ∃ t₀ i I X k, ∃ Q : Purchase,
      (Redeeming p t₀ (hashToken rt dto.token) i I
        (X.set Tbl.enrolments k (some (enrolmentRow user.1 Q.courseId i))) v ∧
      v.store.stored Tbl.purchases I.purchaseId = some Q) ∧
        Enrols rt dto I v.store.stored X user)
      (.step (.sql .commit) fun _ => .ret user) (ends P.success E) := by
    refine Triple.exists fun t₀ => Triple.exists fun i => Triple.exists fun I =>
      Triple.exists fun X => Triple.exists fun k => Triple.exists fun Q => ?_
    refine Triple.commit ((stable_redeeming.and (persistent_purchase hL _ _).stable).and
      (persistent_enrols hL dto I X user).stable)
      (fun v hA => ⟨t₀, _, hA.1.1.inside⟩) ?_ hret
    intro v v' hwf hinv hA hrun hacts hv'
    exact P.enrolled v v' t₀ i I X user Q k hwf hinv hA.1.1 hA.1.2 hA.2 hrun hv'
  have hdropped : L.Triple p
      (fun v => Doomed p v ∧ P.duplicate user v.store.stored ∧ Harmless p v)
      (.step (.sql .commit) fun _ => .ret user) (ends P.success E) := by
    refine Triple.commit_doomed (R := P.success user)
      (stable_doomed.and ((P.duplicatePersistent user).stable.and stable_harmless))
      (fun v hA => hA.1) (fun v hwf hinv hA => ?_) hret
    refine P.repeated user _ ?_ (hA.2.2.grow (e := ⟨.sql .commit, false⟩)
      (fun hdurable => hdurable) rfl)
    rw [View.put_store, Store.finish_stored_drop]
    exact hA.2.1
  intro v hwf hinv hready
  rcases hready with hrows | hdoomed
  · exact hkept v hwf hinv hrows
  · exact hdropped v hwf hinv hdoomed

/-- The outline of a redeem call. -/
theorem redeem_rule (P : RedeemProof L p dto) (hL : OverShop L) :
    L.Triple p (fun v => Idle p v ∧ Harmless p v) (redeem dto)
      (ends (fun token v => ∃ user, token = AuthService.issueToken rt user ∧ P.success user v)
        P.Fails) := by
  refine Triple.andThen (Q := ends P.success P.Fails)
    (Triple.transaction (B := fun t₀ v => Inside p t₀ Drafts.empty v ∧ Harmless p v)
      (C := P.Ready) (E := P.Fails) (stable_idle.and stable_harmless) ?_
      (fun t₀ => P.redeemInTransaction_rule hL) (fun user => P.commit_rule hL user)
      fun e => ?_) (fun user => ?_) fun _ _ herror => herror
  · intro v hwf hinv hA hnone
    exact ⟨⟨Store.setTx_tx_self v.store p _, hA.1.2⟩,
      hA.2.grow (e := ⟨.sql .begin, ()⟩) (fun hdurable => hdurable) rfl⟩
  · refine Triple.rollback (R := P.Fails e) (P.stable_fails e) (fun v hwf hinv hfails => ⟨?_, ?_⟩)
      (Triple.throw (P.stable_fails e) fun v hfails => hfails)
    · rw [View.put_store, Store.finish_stored_drop]
      exact hfails.1
    · exact hfails.2.grow (e := ⟨.sql .rollback, ()⟩) (fun hdurable => hdurable) rfl
  · exact Triple.ret (P.successStable user) fun v hsuccess => ⟨user, rfl, hsuccess⟩

end RedeemProof

end Mes
