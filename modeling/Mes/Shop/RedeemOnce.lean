import Mes.Shop.Integrity

/-!
Redemptions that last. A call that returns a token has committed its redemption, unless
the student was enrolled in the course already. Then the insert of the enrolment has
aborted the transaction, the error is swallowed, and the commit that follows keeps
nothing: the student has a token and the invitation is still open.

Where nobody is enrolled twice, each successful call is durable, and an invitation is
redeemed by one call at most.
-/

namespace Mes

open Transact Transact.Logic InvitationsService

variable {rt : Runtime} {seed : Seed}

/-- Whenever a program inserts an enrolment, the student is not enrolled in the course by
a committed row. -/
def notYetEnrolled (rt : Runtime) : Scope (schema rt) (platform rt) where
  spawn := fun _ => True
  run := fun v p v' => ∀ (row : Time → Enrolment) res x k other,
    v'.history = (p, ⟨.sql (.insert Tbl.enrolments row), res⟩) :: v.history →
    v.store.tx p = some x → v.store.stored Tbl.enrolments k = some other →
      ¬ (other.studentUserId = (row x.startedAt).studentUserId ∧
        other.courseId = (row x.startedAt).courseId)

theorem not_enrolsAgain (p : Pid) : ¬ EnrolsAgain (notYetEnrolled rt) p := by
  rintro ⟨u, u', row, x, k, other, hrun, hhistory, hopen, hother, hsame⟩
  exact hrun row _ x k other hhistory hopen hother hsame

/-- The invitation at `i` belongs to the token, is redeemed, and has enrolled the subject
of the access token in the course of its purchase. -/
def Durably (rt : Runtime) (dto : RedeemInvitationDto) (token : AuthTokenResponse)
    (i : Nat) (s : Shop) : Prop :=
  ∃ I Q k e, s.invitations i = some I ∧ I.tokenHash = hashToken rt dto.token ∧
    I.status = .redeemed ∧ s.purchases I.purchaseId = some Q ∧ s.enrolments k = some e ∧
    e.studentUserId = token.accessToken.sub ∧ e.courseId = Q.courseId ∧
    e.sourceInvitationId = some i

section Success

variable {sc : Scope (schema rt) (platform rt)} {p p' : Pid} {dto dto' : RedeemInvitationDto}
  {user user' : Entity .users}

theorem RedeemEnd.durably {v : BackendView rt} (hagain : ¬ EnrolsAgain sc p)
    (hend : RedeemEnd sc p dto user v) :
    ∃ i, Durably rt dto (AuthService.issueToken rt user) i (shop v) := by
  cases hend with
  | enrolled i J Q k hpresented hredeemed hrow hborn =>
      exact ⟨i, J, Q, k, _, hpresented.invitation, hpresented.tokenHash, hredeemed,
        hpresented.purchase, hrow, rfl, rfl, rfl⟩
  | swallowed i J Q k other hpresented hharmless hswallowed =>
      exact absurd hswallowed hagain

/-- Two calls that have redeemed one invitation have inserted the same enrolment. -/
theorem RedeemEnd.same_call {v : BackendView rt} (hwf : v.store.Wf)
    (hagain : ¬ EnrolsAgain sc p) (hagain' : ¬ EnrolsAgain sc p')
    (hend : RedeemEnd sc p dto user v) (hend' : RedeemEnd sc p' dto' user' v)
    (htoken : hashToken rt dto.token = hashToken rt dto'.token) : p = p' := by
  cases hend with
  | swallowed i J Q k other hpresented hharmless hswallowed =>
      exact absurd hswallowed hagain
  | enrolled i J Q k hpresented hredeemed hrow hborn =>
  cases hend' with
  | swallowed i' J' Q' k' other' hpresented' hharmless' hswallowed' =>
      exact absurd hswallowed' hagain'
  | enrolled i' J' Q' k' hpresented' hredeemed' hrow' hborn' =>
      have hinvitation : i = i' := by
        refine hwf.stored_distinct hpresented.invitation hpresented'.invitation ?_
        simp [Tbl.clash, hpresented.tokenHash, hpresented'.tokenHash, htoken]
      subst hinvitation
      obtain rfl : J = J' := Option.some.inj
        (hpresented.invitation.symm.trans hpresented'.invitation)
      obtain rfl : Q = Q' := Option.some.inj
        (hpresented.purchase.symm.trans hpresented'.purchase)
      have hstudent : user.1 = user'.1 := by
        obtain ⟨U, hU, hemail, -⟩ := hpresented.student
        obtain ⟨U', hU', hemail', -⟩ := hpresented'.student
        refine hwf.stored_distinct hU hU' ?_
        simp [Tbl.clash, hemail, hemail']
      have hplace : k = k' := by
        refine hwf.stored_distinct hrow hrow' ?_
        simp [Tbl.clash, enrolmentRow, hstudent]
      rw [hplace, hborn'] at hborn
      exact (congrArg Prod.fst (Option.some.inj hborn)).symm

end Success

/-- In a run in which nobody is enrolled twice, every successful call is durable, and no
two calls succeed with one invitation. -/
theorem redeem_durable {w : BackendWorld rt}
    (hreach : Reach (handler rt) (notYetEnrolled rt) (boot rt seed) w) :
    (∀ p dto token, w.Ended p (.redeem dto) (.ok (.token token)) →
      ∃ i, Durably rt dto token i (shop w.view)) ∧
    ∀ p p' dto dto' token token', w.Ended p (.redeem dto) (.ok (.token token)) →
      w.Ended p' (.redeem dto') (.ok (.token token')) →
      hashToken rt dto.token = hashToken rt dto'.token → p = p' := by
  have htrading := (trading_run Relation.ReflTransGen.refl hreach).1
  have hsuccess {p : Pid} {dto : RedeemInvitationDto} {token : AuthTokenResponse}
      (hended : w.Ended p (.redeem dto) (.ok (.token token))) :
      ∃ user, token = AuthService.issueToken rt user ∧
        RedeemEnd (notYetEnrolled rt) p dto user w.view := by
    obtain ⟨user, htoken, hend⟩ := htrading.ended hended (Nat.zero_le p)
    exact ⟨user, Response.token.inj htoken, hend⟩
  constructor
  · intro p dto token hended
    obtain ⟨user, rfl, hend⟩ := hsuccess hended
    exact hend.durably (not_enrolsAgain p)
  · intro p p' dto dto' token token' hended hended' htoken
    obtain ⟨user, -, hend⟩ := hsuccess hended
    obtain ⟨user', -, hend'⟩ := hsuccess hended'
    exact hend.same_call htrading.wf (not_enrolsAgain p) (not_enrolsAgain p') hend' htoken

/-! ### A student with two invitations -/

/-- No enrolment has been inserted, or the next operation is not the insert of one. -/
def enrolsAfresh (w : BackendWorld rt) : Action (platform rt) → Bool
  | .run p _ =>
      w.view.store.next Tbl.enrolments == 0 ||
        match w.procs[p]? with
        | some { req := _, prog := .step (.sql (.insert .enrolments _)) _ } => false
        | _ => true
  | _ => true

theorem enrolsAfresh_admitted {w w' : BackendWorld rt} {a : Action (platform rt)}
    (hwf : w.view.store.Wf) (hafresh : enrolsAfresh w a = true)
    (hstep : w.step (handler rt) a = some w') : (notYetEnrolled rt).admits a w w' := by
  cases a with
  | spawn | tick | fire => trivial
  | run p choice =>
      intro row res x k other hhistory hopen hother
      rcases Bool.or_eq_true _ _ |>.mp hafresh with hnone | hafresh
      · have hvacant := (hwf.vacant Tbl.enrolments k (by
          rw [beq_iff_eq.mp hnone]
          exact Nat.zero_le k)).1
        rw [hvacant] at hother
        cases hother
      · simp only [World.step, World.runProc] at hstep
        split at hstep
        · rename_i req c next hactor
          obtain ⟨out, hexec, rfl⟩ := Option.map_eq_some_iff.mp hstep
          have hacts := (View.exec_base hwf hexec).2
          rw [hacts.history] at hhistory
          obtain ⟨hevent, -⟩ := List.cons.inj hhistory
          obtain rfl : c = .sql (.insert Tbl.enrolments row) :=
            congrArg (fun entry => entry.2.1) hevent
          rw [hactor] at hafresh
          cases hafresh
        · cases hstep

theorem redeem_durable_sample : ∃ w : BackendWorld sampleRuntime,
    ∃ token, w.Ended 2 (.redeem sampleStudent) (.ok (.token token)) ∧
      ∃ i, Durably sampleRuntime sampleStudent token i (shop w.view) := by
  have hrun : ((boot sampleRuntime sampleLessons).run (handler sampleRuntime)
      sampleLearning).any (fun w => decide (w.status 2 = some (.redeem sampleStudent,
          some (.ok (.token { accessToken := ⟨1, .student⟩, expiresIn := 900 })))) &&
        decide (Along (fun w a => w.step (handler sampleRuntime) a)
          (fun w a => enrolsAfresh w a = true) (boot sampleRuntime sampleLessons)
          sampleLearning)) = true := by decide
  obtain ⟨w, hw, hchecks⟩ := (Option.any_eq_true _ _).mp hrun
  simp only [Bool.and_eq_true, decide_eq_true_eq] at hchecks
  have hended := World.ended_of_status hchecks.1
  have hreach := World.reach_of_along
    (fun _ _ _ hwf hafresh hstep => enrolsAfresh_admitted hwf hafresh hstep)
    (boot_wf sampleRuntime sampleLessons) hchecks.2 hw
  exact ⟨w, _, hended, (redeem_durable hreach).1 2 sampleStudent _ hended⟩

def sampleSecondInvitation : RedeemInvitationDto :=
  { sampleStudent with token := "I2" }

/-- Two parents buy the same course for one student, who redeems both invitations. -/
def sampleTwoParents : List (Action (platform sampleRuntime)) :=
  sampleSignup ++
    .spawn (.signup ⟨"other@example.com", "secret", none, none⟩ sampleMeta) ::
    (operations 1 6 "T3" ++ (operations 1 5 "F3" ++ .spawn sampleCheckout ::
    (operations 2 11 "I1" ++
      .spawn (.createPurchase ⟨1, .parent⟩ (some "checkout-2") "student@example.com") ::
    (operations 3 11 "I2" ++ .spawn (.redeem sampleStudent) :: (operations 4 9 "" ++
      .spawn (.redeem sampleSecondInvitation) :: operations 5 7 "")))))

/-- The second call returns a token, and its invitation is still open. -/
theorem redeem_not_durable : ∃ w : BackendWorld sampleRuntime,
    Runs sampleRuntime (boot sampleRuntime sampleSeed) w ∧
      ∃ token, w.Ended 5 (.redeem sampleSecondInvitation) (.ok (.token token)) ∧
        ¬ ∃ i, Durably sampleRuntime sampleSecondInvitation token i (shop w.view) := by
  have hrun : ((boot sampleRuntime sampleSeed).run (handler sampleRuntime)
      sampleTwoParents).any (fun w =>
        decide (w.status 5 = some (.redeem sampleSecondInvitation,
          some (.ok (.token { accessToken := ⟨2, .student⟩, expiresIn := 900 })))) &&
        (w.view.store.stored Tbl.invitations 1).any fun I =>
          decide (I.tokenHash = sampleSha256 "I2" ∧ I.status = .issued)) = true := by decide
  obtain ⟨w, hw, hchecks⟩ := (Option.any_eq_true _ _).mp hrun
  simp only [Bool.and_eq_true, decide_eq_true_eq] at hchecks
  obtain ⟨I, hI, hopen⟩ := (Option.any_eq_true _ _).mp hchecks.2
  obtain ⟨hhash, hissued⟩ := of_decide_eq_true hopen
  have hruns := runs_of_run hw
  have hwf := (trading_run Relation.ReflTransGen.refl hruns).1.wf
  refine ⟨w, hruns, _, World.ended_of_status hchecks.1, ?_⟩
  rintro ⟨i, J, Q, k, e, hJ, hhash', hredeemed, -⟩
  have hplace : i = 1 := hwf.stored_distinct (t := Tbl.invitations) hJ hI (by
    simp [Tbl.clash, hhash, hhash', sampleSecondInvitation, hashToken, sampleRuntime])
  have hsame : J = I := Option.some.inj ((hplace ▸ hJ).symm.trans hI)
  rw [hsame, hissued] at hredeemed
  cases hredeemed

end Mes
