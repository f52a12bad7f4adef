import Mes.Shop.Idempotency

/-!
The guard against a second purchase of a course for the same student. It is a query
before the insert transaction and no unique index stands behind it, so it stops a request
that arrives after a purchase of the same kind is committed, and it does not stop two
requests that overlap.
-/

namespace Mes

open Transact Transact.Logic PurchasesService

variable {rt : Runtime} {seed : Seed}

/-- The purchase at `i` is a completed one of the course by the parent for the student. -/
def Shop.CompletedFor (s : Shop) (rt : Runtime) (parentUserId courseId : Nat)
    (studentEmail : String) (i : Nat) : Prop :=
  ∃ P j I, s.purchases i = some P ∧ P.parentUserId = parentUserId ∧ P.courseId = courseId ∧
    P.status = .completed ∧ s.invitations j = some I ∧ I.purchaseId = i ∧
    I.studentEmail = rt.normaliseEmail studentEmail

/-- The guard's query finds every such purchase. -/
theorem duplicateIn_of_completed {w : BackendWorld rt} (hwf : w.view.store.Wf)
    {parentUserId courseId i : Nat} {studentEmail : String}
    (hcompleted : (shop w.view).CompletedFor rt parentUserId courseId studentEmail i) :
    duplicateIn parentUserId courseId studentEmail (committedIn w) = true := by
  obtain ⟨P, j, I, hP, rfl, rfl, hstatus, hI, rfl, hemail⟩ := hcompleted
  simp only [duplicateIn, List.any_eq_true]
  refine ⟨(I.purchaseId, P), Snapshot.mem_rows.mpr ⟨hwf.lt_next hP, hP⟩, (j, I),
    Snapshot.mem_rows.mpr ⟨hwf.lt_next hI, hI⟩, ?_⟩
  simp [hstatus, hemail]

/-- The snapshot that the guard of `p` has read. -/
def guardSnapshot (p : Pid) (v : BackendView rt) : Option (Snapshot (schema rt)) :=
  (reads p v)[2]?

/-- `u` is a moment of the run that leads to `w`. -/
theorem duplicate_guard {u w : BackendWorld rt} (hbefore : Runs rt (boot rt seed) u)
    (hafter : Runs rt u w) {p : Pid} {user : JwtPayload} {header : Option String}
    {body : String} {dto : CreatePurchaseDto} {out : Except AppError Response}
    (hdto : rt.createPurchaseDto body = some dto)
    (hended : w.Ended p (.createPurchase user header body) out) :
    ((∃ response, out = .ok (.purchase PURCHASE_CREATED_STATUS (.created response))) →
      ∃ g, guardSnapshot p w.view = some g ∧
        duplicateIn user.sub dto.courseId dto.studentEmail g = false) ∧
    ((∀ response, out ≠ .ok (.purchase PURCHASE_CREATED_STATUS (.created response))) →
      ChangesNothing p (boot rt seed) w) ∧
    ∀ i key, (shop u.view).CompletedFor rt user.sub dto.courseId dto.studentEmail i →
      u.procs.length ≤ p → Admitted rt user header key →
        ChangesNothing p (boot rt seed) w ∧
          (out = .error (.domain .duplicatePurchaseForStudent) ∨
            FoundAtLookup p user.sub key w.view) := by
  have hwhole := (trading_run Relation.ReflTransGen.refl (hbefore.trans hafter)).1
  have hend : PurchaseEnd p _ user header body w.view out := hwhole.ended hended (Nat.zero_le p)
  have hnothing (hout : ∀ response,
      out ≠ .ok (.purchase PURCHASE_CREATED_STATUS (.created response))) :
      ChangesNothing p (boot rt seed) w := (hend.harmless hout).changesNothing
  refine ⟨?_, hnothing, ?_⟩
  · rintro ⟨response, rfl⟩
    generalize hcreated : Except.ok (ε := AppError)
      (Response.purchase PURCHASE_CREATED_STATUS (.created response)) = out at hend
    cases hend with
    | answered s key row =>
        unfold replay at hcreated
        split at hcreated
        · cases hcreated
        · obtain ⟨-, hanswer⟩ := Response.purchase.inj (Except.ok.inj hcreated)
          cases hanswer
    | created s c g key dto' course t₀ result hkey hdto' hmiss hcourse hfirst hguard hsale
        hsold =>
        rw [hdto] at hdto'
        obtain rfl := Option.some.inj hdto'
        refine ⟨g, ?_, hguard⟩
        rw [guardSnapshot, hsold.reads]
        rfl
    | refused | invalid | unknownCourse | duplicate | failed => cases hcreated
  · intro i key hcompleted hlate hadmitted
    have hhere := (trading_run Relation.ReflTransGen.refl hbefore).1
    have htrading := (trading_run hbefore hafter).1
    have hfound := duplicateIn_of_completed hhere.wf hcompleted
    have hend : PurchaseEnd p (committedIn u) user header body w.view out :=
      htrading.ended hended hlate
    cases hend with
    | refused e htrail hrefused => exact absurd hadmitted (hrefused key)
    | answered s key' row hkey htrail hrow =>
        obtain rfl : key' = key := Option.some.inj (hkey.header.symm.trans hadmitted.header)
        refine ⟨htrail.harmless.changesNothing, Or.inr ⟨s, ?_, ?_⟩⟩
        · rw [htrail.reads]
          rfl
        · rw [hrow]
          rfl
    | invalid s key' hkey hnone =>
        rw [hnone] at hdto
        cases hdto
    | unknownCourse s c key' dto' hkey hdto' htrail hmiss hunknown =>
        rw [hdto] at hdto'
        obtain rfl := Option.some.inj hdto'
        obtain ⟨P, j, I, hP, -, hcourse, -⟩ := hcompleted
        obtain ⟨course, hthere⟩ := hhere.sound.stocked i P hP
        rw [hcourse] at hthere
        have hnone : u.view.store.stored Tbl.courses dto.courseId = none := hunknown
        rw [show u.view.store.stored Tbl.courses dto.courseId = some course from hthere] at hnone
        cases hnone
    | duplicate s c g key' dto' hkey hdto' htrail =>
        exact ⟨htrail.harmless.changesNothing, Or.inl rfl⟩
    | failed s c g key' dto' e hkey hdto' htrail hmiss hfirst =>
        rw [hdto] at hdto'
        obtain rfl := Option.some.inj hdto'
        rw [hfound] at hfirst
        cases hfirst
    | created s c g key' dto' course t₀ result hkey hdto' hmiss hcourse hfirst =>
        rw [hdto] at hdto'
        obtain rfl := Option.some.inj hdto'
        rw [hfound] at hfirst
        cases hfirst

/-! ### Two checkout tabs -/

/-- The second tab has a key of its own. -/
def sampleSecondTab : Request :=
  .createPurchase ⟨0, .parent⟩ (some "checkout-2") "student@example.com"

/-- One tab after the other. -/
def sampleTabs : List (Action (platform sampleRuntime)) :=
  sampleSignup ++ .spawn sampleCheckout :: (operations 1 11 "I1" ++
    .spawn sampleSecondTab :: operations 2 3 "")

theorem duplicate_guard_sample : ∃ w : BackendWorld sampleRuntime,
    Runs sampleRuntime (boot sampleRuntime sampleSeed) w ∧
      w.Ended 2 sampleSecondTab (.error (.domain .duplicatePurchaseForStudent)) ∧
      ChangesNothing 2 (boot sampleRuntime sampleSeed) w := by
  have hrun : ((boot sampleRuntime sampleSeed).run (handler sampleRuntime) sampleTabs).any
      (fun w => decide (w.status 2 =
        some (sampleSecondTab, some (.error (.domain .duplicatePurchaseForStudent))))) = true := by
    decide
  obtain ⟨w, hw, hstatus⟩ := (Option.any_eq_true _ _).mp hrun
  have hended := World.ended_of_status (of_decide_eq_true hstatus)
  have hruns := runs_of_run hw
  obtain ⟨-, hnothing, -⟩ := duplicate_guard Relation.ReflTransGen.refl hruns rfl hended
  exact ⟨w, hruns, hended, hnothing (by simp)⟩

/-- Both guards run before the first commit. -/
def sampleOverlap : List (Action (platform sampleRuntime)) :=
  sampleSignup ++ .spawn sampleCheckout :: .spawn sampleSecondTab ::
    (operations 1 3 "" ++ (operations 2 3 "" ++ (operations 1 8 "I1" ++ operations 2 8 "I2")))

/-- Two purchases of one parent for the same course and student. -/
theorem double_purchase : ∃ w : BackendWorld sampleRuntime,
    Runs sampleRuntime (boot sampleRuntime sampleSeed) w ∧
      (shop w.view).CompletedFor sampleRuntime 0 0 "student@example.com" 0 ∧
      (shop w.view).CompletedFor sampleRuntime 0 0 "student@example.com" 1 := by
  let purchase (key : String) : Purchase :=
    { parentUserId := 0, courseId := 0, status := .completed, amountPence := 1999,
      idempotencyKey := key, createdAt := 0 }
  let invitation (i : Nat) (token : String) : Invitation :=
    { purchaseId := i, tokenHash := sampleSha256 token, studentEmail := "student@example.com",
      status := .issued, expiresAt := InvitationsService.computeExpiryDate 0,
      redeemedAt := none, emailSentAt := none }
  have hrun : ((boot sampleRuntime sampleSeed).run (handler sampleRuntime) sampleOverlap).any
      (fun w => decide (w.view.store.stored Tbl.purchases 0 = some (purchase "checkout-1")) &&
        decide (w.view.store.stored Tbl.purchases 1 = some (purchase "checkout-2")) &&
        decide (w.view.store.stored Tbl.invitations 0 = some (invitation 0 "I1")) &&
        decide (w.view.store.stored Tbl.invitations 1 = some (invitation 1 "I2"))) = true := by
    decide
  obtain ⟨w, hw, hchecks⟩ := (Option.any_eq_true _ _).mp hrun
  simp only [Bool.and_eq_true, decide_eq_true_eq] at hchecks
  obtain ⟨⟨⟨hP, hP'⟩, hI⟩, hI'⟩ := hchecks
  exact ⟨w, runs_of_run hw, ⟨_, 0, _, hP, rfl, rfl, rfl, hI, rfl, rfl⟩,
    ⟨_, 1, _, hP', rfl, rfl, rfl, hI', rfl, rfl⟩⟩

end Mes
