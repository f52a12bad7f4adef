import Mes.Shop.Idempotency

/-!
What the tables of the shop say together. Purchases, invitations and idempotency rows
come in bundles of three, so the list of a parent never meets a gap. Enrolments rest on
bundles, so a lesson is shown to those only for whom its course was bought.
-/

namespace Mes

open Transact Transact.Logic PurchasesService

variable {rt : Runtime} {seed : Seed}

/-! ### Bundles -/

namespace Shop

def purchaseIds (s : Shop) : Set Nat :=
  {i | ∃ P, s.purchases i = some P}

def invitationIds (s : Shop) : Set Nat :=
  {j | ∃ I, s.invitations j = some I}

def rowIds (s : Shop) : Set Nat :=
  {k | ∃ K, s.idempotencyKeys k = some K}

/-- The purchase that an invitation belongs to. -/
def purchaseOfInvitation (s : Shop) (j : Nat) : Option Nat :=
  (s.invitations j).map Invitation.purchaseId

/-- The purchase that an idempotency row names. -/
def purchaseOfRow (s : Shop) (k : Nat) : Option Nat :=
  (s.idempotencyKeys k).map fun K => K.responseBody.purchaseId

/-- Each purchase has one invitation and one idempotency row, which names the two and
carries the key, and there are no others. -/
structure InBundles (s : Shop) : Prop where
  invitations : Set.BijOn s.purchaseOfInvitation s.invitationIds (some '' s.purchaseIds)
  rows : Set.BijOn s.purchaseOfRow s.rowIds (some '' s.purchaseIds)
  named : ∀ k K, s.idempotencyKeys k = some K → ∃ P I,
    s.purchases K.responseBody.purchaseId = some P ∧
      s.invitations K.responseBody.invitationId = some I ∧
      Bundle K.responseBody.purchaseId P K.responseBody.invitationId I K

variable {s : Shop}

theorem Sound.inBundles (hsound : s.Sound rt) : s.InBundles where
  invitations := by
    refine ⟨?_, ?_, ?_⟩
    · rintro j ⟨I, hI⟩
      refine ⟨I.purchaseId, hsound.invited j I hI, ?_⟩
      rw [purchaseOfInvitation, hI, Option.map_some]
    · rintro j ⟨I, hI⟩ j' ⟨I', hI'⟩ hsame
      simp only [purchaseOfInvitation, hI, hI', Option.map_some, Option.some.injEq] at hsame
      exact hsound.invitedOnce j j' I I' hI hI' hsame
    · rintro _ ⟨i, ⟨P, hP⟩, rfl⟩
      obtain ⟨j, I, k, K, hI, -, hbundle⟩ := hsound.bundled i P hP
      exact ⟨j, ⟨I, hI⟩, by rw [purchaseOfInvitation, hI, Option.map_some, hbundle.invites]⟩
  rows := by
    refine ⟨?_, ?_, ?_⟩
    · rintro k ⟨K, hK⟩
      obtain ⟨P, I, hP, -, -⟩ := hsound.keyed k K hK
      refine ⟨K.responseBody.purchaseId, ⟨P, hP⟩, ?_⟩
      rw [purchaseOfRow, hK, Option.map_some]
    · rintro k ⟨K, hK⟩ k' ⟨K', hK'⟩ hsame
      simp only [purchaseOfRow, hK, hK', Option.map_some, Option.some.injEq] at hsame
      obtain ⟨P, I, hP, -, hbundle⟩ := hsound.keyed k K hK
      obtain ⟨P', I', hP', -, hbundle'⟩ := hsound.keyed k' K' hK'
      rw [hsame, hP'] at hP
      obtain rfl := Option.some.inj hP
      exact hsound.rowOnce k k' K K' hK hK' (hbundle.userId.trans hbundle'.userId.symm)
        (hbundle.key.trans hbundle'.key.symm)
    · rintro _ ⟨i, ⟨P, hP⟩, rfl⟩
      obtain ⟨j, I, k, K, -, hK, hbundle⟩ := hsound.bundled i P hP
      exact ⟨k, ⟨K, hK⟩, by rw [purchaseOfRow, hK, Option.map_some, hbundle.body]⟩
  named := hsound.keyed

end Shop

/-! ### The queue may fail -/

/-- The operation that may find the queue unreachable. -/
def Enqueues (c : Call (schema rt) (platform rt)) : Prop :=
  ∃ job, c = .node (.addJob job)

theorem ignores_of_within {fp : Footprint} (hqueue : fp.queue = false) {α : Type}
    {x : Method rt α} (hwithin : Within fp x) : x.Ignores Enqueues := by
  refine hwithin.ignores fun c hc henqueues => ?_
  obtain ⟨job, rfl⟩ := henqueues
  have hallowed : fp.queue = true := hc
  rw [hqueue] at hallowed
  cases hallowed

theorem enqueue_ignores (result : TransactionResult) (courseTitle : String) :
    (@enqueueInvitationEmail rt result courseTitle).Ignores Enqueues :=
  ⟨fun _ _ _ => rfl, fun _ => trivial⟩

/-- No request cares whether its email was enqueued. -/
theorem handler_ignores (rt : Runtime) (req : Request) :
    (handler rt req).Ignores Enqueues := by
  cases req with
  | createPurchase user header body =>
      let fp : Footprint := { tables := [.purchases, .invitations, .idempotencyKeys] }
      have hother {α : Type} {x : Method rt α} (hkeeps : Keeps fp x) : x.Ignores Enqueues :=
        ignores_of_within rfl hkeeps.within
      show (@PurchasesController.post rt user header body).Ignores Enqueues
      unfold PurchasesController.post PurchasesController.requireRole
      split
      · unfold IdempotencyInterceptor.intercept
        cases header.map rt.trim with
        | none => trivial
        | some key =>
            dsimp only
            split
            · trivial
            · refine Prog.Ignores.andThen (hother (keeps_findOne _ _)) fun found => ?_
              cases found with
              | some existing =>
                  dsimp only
                  split <;> trivial
              | none =>
                  show (@PurchasesController.create rt user body _).Ignores Enqueues
                  unfold PurchasesController.create
                  cases rt.createPurchaseDto body with
                  | none => trivial
                  | some dto =>
                      refine Prog.Ignores.andThen ?_ fun _ => trivial
                      refine Prog.Ignores.andThen (hother (keeps_findCourseOrThrow _))
                        fun course => Prog.Ignores.andThen (hother ?_) fun _ =>
                          Prog.Ignores.andThen (hother ?_) fun result =>
                            Prog.Ignores.andThen (enqueue_ignores result _) fun _ => trivial
                      · refine keeps_bind (keeps_bind (keeps_read .pool) fun _ => trivial)
                          fun found => ?_
                        split <;> trivial
                      · exact keeps_runCreateTransaction (by simp [fp]) (by simp [fp])
                          (by simp [fp]) _ course
      · trivial
  | signup | login | refresh | logout | cleanup | listMine | redeem | listLessonsForCourse
  | getLesson | sendInvitationEmail | revokeFamily | rehashIfNeeded =>
      exact ignores_of_within rfl (handler_within rt _)

/-- Whether the queue is reachable or not, the step of `p` that enqueues an email leads to
the same rest of the program and leaves the tables as they are. -/
def QueueIgnored (rt : Runtime) (w : BackendWorld rt) : Prop :=
  ∀ p proc job k w₁ w₂ choice₁ choice₂, w.procs[p]? = some proc →
    proc.prog = .step (.node (.addJob job)) k →
    w.step (handler rt) (.run p choice₁) = some w₁ →
    w.step (handler rt) (.run p choice₂) = some w₂ →
      w₁.procs = w₂.procs ∧ w₁.view.store = w.view.store ∧ w₂.view.store = w.view.store

theorem queue_ignored {w : BackendWorld rt} (hruns : Runs rt (boot rt seed) w) :
    QueueIgnored rt w := by
  intro p proc job k w₁ w₂ choice₁ choice₂ hproc hprog hfirst hsecond
  have heach : w.Each fun _ x => x.Ignores Enqueues :=
    World.Each.reach (handler_ignores rt) (fun _ _ _ hignores => hignores.2)
      (fun p proc hnone => by cases hnone) hruns
  have hignores := heach p proc hproc
  rw [hprog] at hignores
  have hsame := hignores.1 ⟨job, rfl⟩
  obtain ⟨req, prog⟩ := proc
  obtain rfl : prog = _ := hprog
  have hstep {choice : Choice} {w' : BackendWorld rt}
      (hstep : w.step (handler rt) (.run p choice) = some w') :
      ∃ r, w'.procs = w.procs.set p { req := req, prog := k r } ++ [] ∧
        w'.view.store = w.view.store := by
    simp only [World.step, World.runProc, hproc, Option.map_eq_some_iff] at hstep
    obtain ⟨out, hexec, rfl⟩ := hstep
    exact ⟨out.1, rfl, (View.exec_node hexec).2.1⟩
  obtain ⟨r, hr, hstore⟩ := hstep hfirst
  obtain ⟨r', hr', hstore'⟩ := hstep hsecond
  exact ⟨by rw [hr, hr', hsame r r'], hstore, hstore'⟩

/-- `u` is a moment of the run before the list is asked for. -/
theorem purchase_bundles {u w : BackendWorld rt} (hbefore : Runs rt (boot rt seed) u)
    (hafter : Runs rt u w) :
    (shop w.view).InBundles ∧
      (∀ job ∈ w.view.mem.invitationEmailQueue, (shop w.view).Announces rt job) ∧
      QueueIgnored rt w ∧
      ∀ p user out, u.procs.length ≤ p → w.Ended p (.listMine user) out →
        (∃ list, out = .ok (.purchases list) ∧
          Listed (committedIn u) user.sub list w.view) ∨
        (user.role ≠ .parent ∧ out = .error (.domain .forbidden)) := by
  obtain ⟨htrading, -⟩ := trading_run hbefore hafter
  refine ⟨htrading.sound.inBundles, htrading.sound.announced,
    queue_ignored (hbefore.trans hafter), ?_⟩
  intro p user out hlate hended
  have hend := htrading.ended hended hlate
  cases out with
  | ok response =>
      obtain ⟨list, rfl, hlisted⟩ := hend
      exact Or.inl ⟨list, rfl, hlisted⟩
  | error e =>
      obtain ⟨hrole, rfl⟩ := hend
      exact Or.inr ⟨hrole, rfl⟩

/-- A parent buys a course and looks at the list. -/
def sampleListing : List (Action (platform sampleRuntime)) :=
  sampleSignup ++ .spawn sampleCheckout ::
    (operations 1 11 "I1" ++ .spawn (.listMine ⟨0, .parent⟩) :: operations 2 3 "")

/-- The parent is shown the purchase. -/
def shownPurchase (w : BackendWorld sampleRuntime) : Bool :=
  match w.status 2 with
  | some (req, some (.ok (.purchases list))) =>
      decide (req = .listMine ⟨0, .parent⟩) && decide (list.length = 1)
  | _ => false

theorem purchase_bundles_sample : ∃ w : BackendWorld sampleRuntime,
    Runs sampleRuntime (boot sampleRuntime sampleSeed) w ∧ (shop w.view).InBundles ∧
      ∃ list, Listed (committedIn (boot sampleRuntime sampleSeed)) 0 list w.view ∧
        list.length = 1 := by
  have hrun : ((boot sampleRuntime sampleSeed).run (handler sampleRuntime)
      sampleListing).any shownPurchase = true := by decide
  obtain ⟨w, hw, hstatus⟩ := (Option.any_eq_true _ _).mp hrun
  unfold shownPurchase at hstatus
  split at hstatus
  · rename_i req list hended
    simp only [Bool.and_eq_true, decide_eq_true_eq] at hstatus
    obtain ⟨rfl, hlength⟩ := hstatus
    have hruns := runs_of_run hw
    obtain ⟨hbundles, -, -, hlists⟩ := purchase_bundles Relation.ReflTransGen.refl hruns
    rcases hlists 2 _ _ (Nat.zero_le 2) (World.ended_of_status hended) with
      ⟨list', hlist, hlisted⟩ | ⟨hrole, -⟩
    · obtain rfl := Response.purchases.inj (Except.ok.inj hlist)
      exact ⟨w, hruns, hbundles, list, hlisted, hlength⟩
    · exact absurd rfl hrole
  · cases hstatus

/-! ### Enrolments and lessons -/

/-- Somebody bought the course for the email address of the user. -/
def BoughtFor (s : Shop) (rt : Runtime) (userId courseId : Nat) : Prop :=
  ∃ user j I P, s.users userId = some user ∧ user.role = .student ∧
    s.invitations j = some I ∧ rt.normaliseEmail I.studentEmail = user.email ∧
    s.purchases I.purchaseId = some P ∧ P.status = .completed ∧ P.courseId = courseId

theorem boughtFor_of_enrolled {w : BackendWorld rt} (hsound : (shop w.view).Sound rt)
    {userId courseId : Nat} (henrolled : Enrolled w.view.store userId courseId) :
    BoughtFor (shop w.view) rt userId courseId := by
  obtain ⟨k, e, he, rfl, rfl⟩ := henrolled
  obtain ⟨i, I, user, P, hgrant⟩ := hsound.granted k e he
  exact ⟨user, i, I, P, hgrant.student, hgrant.role, hgrant.invitation, hgrant.email.symm,
    hgrant.purchase, hgrant.completed, hgrant.course⟩

theorem enrolment_provenance {w : BackendWorld rt} (hruns : Runs rt (boot rt seed) w) :
    (∀ k e, (shop w.view).enrolments k = some e →
      ∃ i I user P, (shop w.view).Grant rt e i I user P) ∧
    (∀ k k' e e', (shop w.view).enrolments k = some e →
      (shop w.view).enrolments k' = some e' → e.studentUserId = e'.studentUserId →
        e.courseId = e'.courseId → k = k') ∧
    (∀ p user lessonId lesson, w.Ended p (.getLesson user lessonId) (.ok (.lesson lesson)) →
      BoughtFor (shop w.view) rt user.sub lesson.courseId) ∧
    ∀ p user courseId course,
      w.Ended p (.listLessonsForCourse user courseId) (.ok (.course course)) →
        ∀ lesson ∈ course.lessons, BoughtFor (shop w.view) rt user.sub lesson.courseId := by
  obtain ⟨htrading, -⟩ := trading_run Relation.ReflTransGen.refl hruns
  have hsound := htrading.sound
  have hbought {userId : Nat} {lesson : LessonResponse}
      (hshown : LessonShown userId lesson w.view) :
      BoughtFor (shop w.view) rt userId lesson.courseId := by
    obtain ⟨row, -, hresponse, henrolled⟩ := hshown
    rw [hresponse]
    exact boughtFor_of_enrolled hsound henrolled
  refine ⟨hsound.granted, ?_, ?_, ?_⟩
  · intro k k' e e' he he' hstudent hcourse
    have hclash : Tbl.clash .enrolments e e' = true := by
      simp [Tbl.clash, hstudent, hcourse]
    exact htrading.wf.stored_distinct he he' hclash
  · intro p user lessonId lesson hended
    obtain ⟨lesson', hlesson, hshown⟩ := htrading.ended hended (Nat.zero_le p)
    obtain rfl := Response.lesson.inj hlesson
    exact hbought hshown
  · intro p user courseId course hended lesson hmem
    obtain ⟨course', hcourse, hshown⟩ := htrading.ended hended (Nat.zero_le p)
    obtain rfl := Response.course.inj hcourse
    exact hbought (hshown lesson hmem)

def sampleLesson : Lesson where
  courseId := 0
  title := "Fractions"
  body := "text"
  orderIndex := 1
  createdAt := 0

def sampleLessons : Seed where
  users := []
  courses := [sampleCourse]
  lessons := [sampleLesson]
  admins := sampleSeed.admins
  distinctUsers := sampleSeed.distinctUsers
  distinctCourses := sampleSeed.distinctCourses
  distinctLessons := List.pairwise_singleton _ _
  coursesOfLessons := by simp [sampleLesson]

def sampleStudent : RedeemInvitationDto where
  token := "I1"
  firstName := some "First"
  lastName := some "Last"
  dateOfBirth := some "2015-01-01"
  password := "password"

/-- A parent buys a course, the student redeems the invitation and reads a lesson. -/
def sampleLearning : List (Action (platform sampleRuntime)) :=
  sampleSignup ++ .spawn sampleCheckout :: (operations 1 11 "I1" ++
    .spawn (.redeem sampleStudent) :: (operations 2 9 "S" ++
      .spawn (.getLesson ⟨1, .student⟩ 0) :: operations 3 2 ""))

/-- The student is shown the lesson. -/
def shownLesson (w : BackendWorld sampleRuntime) : Bool :=
  match w.status 3 with
  | some (req, some (.ok (.lesson lesson))) =>
      decide (req = .getLesson ⟨1, .student⟩ 0) && decide (lesson.courseId = 0)
  | _ => false

theorem enrolment_provenance_sample : ∃ w : BackendWorld sampleRuntime,
    Runs sampleRuntime (boot sampleRuntime sampleLessons) w ∧
      BoughtFor (shop w.view) sampleRuntime 1 0 := by
  have hrun : ((boot sampleRuntime sampleLessons).run (handler sampleRuntime)
      sampleLearning).any shownLesson = true := by decide
  obtain ⟨w, hw, hstatus⟩ := (Option.any_eq_true _ _).mp hrun
  unfold shownLesson at hstatus
  split at hstatus
  · rename_i req lesson hended
    simp only [Bool.and_eq_true, decide_eq_true_eq] at hstatus
    obtain ⟨rfl, hcourse⟩ := hstatus
    have hruns := runs_of_run hw
    obtain ⟨-, -, hlessons, -⟩ := enrolment_provenance hruns
    have hbought := hlessons 3 _ _ lesson (World.ended_of_status hended)
    rw [hcourse] at hbought
    exact ⟨w, hruns, hbought⟩
  · cases hstatus

end Mes
