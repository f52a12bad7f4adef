import Mes.Lessons.Enumeration
import Mes.Shop.ShopLogic

/-!
The requests that only read: the purchases of a parent, and the lessons of a student.
Each answer is put together from several queries. Between two of them other requests
commit, but what a snapshot has shown stays, so the parts fit together at the end.

`Past s₀` is what was committed when a request arrived; a parent's list shows at least
the purchases among it.
-/

namespace Mes

open Transact Transact.Logic PurchasesService

variable {rt : Runtime} {p : Pid} {sc : Scope (schema rt) (platform rt)}

/-- A query on the pool, with the snapshot it has seen. -/
theorem query_rule {α : Type} {A : BackendView rt → Prop} (hstable : (shopLogic rt sc).Stable p A)
    (hput : ∀ v e, A v → A (v.put p e v.store)) {F : Snapshot (schema rt) → Prop}
    (hfacts : ∀ v, v.store.Wf → (shop v).Sound rt → A v →
      F (v.store.snapshot v.store.clock v.store.stored))
    {k : Except SqlError (Snapshot (schema rt)) → Method rt α}
    {Q : Except AppError α → BackendView rt → Prop}
    (hrest : ∀ s, F s → (shopLogic rt sc).Triple p (fun v => A v ∧ Past s v) (k (.ok s)) Q) :
    (shopLogic rt sc).Triple p A (.step (.sql (.read .pool)) k) Q := by
  refine Triple.read_pool (R := fun s v => F s ∧ A v ∧ Past s v) hstable ?_ fun s => ?_
  · intro v s hwf hinv hA hs
    refine ⟨?_, hput v _ hA, past_read hs⟩
    rw [hs]
    exact hfacts v hwf hinv hA
  · exact Triple.given (fun v _ _ hR => hR.1) fun hF =>
      Triple.weaken (hrest s hF) fun v _ _ hR => hR.2

/-! ### The purchases of a parent -/

/-- The response shows a committed purchase with its own course and invitation. -/
def Shown (v : BackendView rt) (purchase : Entity .purchases) (response : PurchaseResponse) :
    Prop :=
  v.store.stored Tbl.purchases purchase.1 = some purchase.2 ∧
    ∃ (course : Entity .courses) (invitation : Entity .invitations),
      response = composeListResponse rt purchase course invitation ∧
      course.1 = purchase.2.courseId ∧ invitation.2.purchaseId = purchase.1 ∧
      v.store.stored Tbl.courses course.1 = some course.2 ∧
      ∃ J, v.store.stored Tbl.invitations invitation.1 = some J ∧ Becomes invitation.2 J

/-- The purchases that a snapshot shows of a parent. -/
structure Lists (s₀ s : Snapshot (schema rt)) (parentUserId : Nat)
    (purchases : List (Entity .purchases)) : Prop where
  nodup : (purchases.map Prod.fst).Nodup
  complete : ∀ i P, s₀.get Tbl.purchases i = some P → P.parentUserId = parentUserId →
    (i, P) ∈ purchases
  own : ∀ purchase ∈ purchases, purchase.2.parentUserId = parentUserId ∧
    s.get Tbl.purchases purchase.1 = some purchase.2

/-- The answer to a parent who asked after `s₀` was committed. -/
def Listed (s₀ : Snapshot (schema rt)) (parentUserId : Nat) (list : List PurchaseResponse)
    (v : BackendView rt) : Prop :=
  ∃ s purchases, Lists s₀ s parentUserId purchases ∧ List.Forall₂ (Shown v) purchases list

theorem persistent_shown (purchase : Entity .purchases) (response : PurchaseResponse) :
    (shopLogic rt sc).Persistent fun v => Shown v purchase response := by
  have hL := overShop rt sc
  intro a v v' hstep hshown
  obtain ⟨hP, course, invitation, hresponse, hcourse, hown, hC, J, hJ, hcolumns⟩ := hshown
  obtain ⟨J', hJ', hcolumns'⟩ := persistent_invitation hL invitation.1 invitation.2 a v v'
    hstep ⟨J, hJ, hcolumns⟩
  exact ⟨persistent_purchase hL _ _ a v v' hstep hP, course, invitation, hresponse, hcourse,
    hown, persistent_course hL _ _ a v v' hstep hC, J', hJ', hcolumns'⟩

theorem persistent_listed (s₀ : Snapshot (schema rt)) (parentUserId : Nat)
    (list : List PurchaseResponse) :
    (shopLogic rt sc).Persistent (Listed s₀ parentUserId list) := by
  intro a v v' hstep hlisted
  obtain ⟨s, purchases, hlists, hshown⟩ := hlisted
  exact ⟨s, purchases, hlists, hshown.imp fun purchase response hpair =>
    persistent_shown purchase response a v v' hstep hpair⟩

theorem Snapshot.nodup_rows (s : Snapshot (schema rt)) (t : Tbl) :
    ((s.rows t).map Prod.fst).Nodup := by
  have hsub : List.Sublist ((s.rows t).map Prod.fst) (List.range (s.next t)) := by
    unfold Snapshot.rows
    induction List.range (s.next t) with
    | nil => exact List.Sublist.slnil
    | cons id rest ih =>
        cases hget : s.get t id with
        | none => simpa [hget] using ih.cons id
        | some r => simpa [hget] using ih.cons_cons id
  exact hsub.nodup List.nodup_range

theorem lists_of_snapshot {s₀ s : Snapshot (schema rt)} {parentUserId : Nat}
    (hlater : ∀ i P, s₀.get Tbl.purchases i = some P → (i, P) ∈ s.rows Tbl.purchases) :
    Lists s₀ s parentUserId (((s.rows Tbl.purchases).filter fun row =>
      row.2.parentUserId == parentUserId).insertionSort
        fun a b => b.2.createdAt ≤ a.2.createdAt) where
  nodup := by
    have hperm := (List.perm_insertionSort (fun a b : Entity .purchases =>
      b.2.createdAt ≤ a.2.createdAt) ((s.rows Tbl.purchases).filter fun row =>
        row.2.parentUserId == parentUserId)).map Prod.fst
    refine hperm.nodup_iff.mpr ?_
    exact (Snapshot.nodup_rows s Tbl.purchases).sublist
      ((List.filter_sublist).map Prod.fst)
  complete := fun i P hP hparent => by
    rw [List.mem_insertionSort, List.mem_filter]
    exact ⟨hlater i P hP, by simpa using hparent⟩
  own := fun purchase hmem => by
    rw [List.mem_insertionSort, List.mem_filter] at hmem
    exact ⟨by simpa using hmem.2, (Snapshot.mem_rows.mp hmem.1).2⟩

theorem past_put {s : Snapshot (schema rt)} (v : BackendView rt)
    (e : Event (schema rt) (platform rt)) (hpast : Past s v) : Past s (v.put p e v.store) :=
  { hpast with }

/-- The course of a purchase that a snapshot has shown is found. -/
theorem findCourse_there {s : Snapshot (schema rt)} {i : Nat} {P : Purchase}
    (hP : s.get Tbl.purchases i = some P) :
    (shopLogic rt sc).Triple p (Past s) (findCourseOrThrow P.courseId)
      (ends (fun course v => course.1 = P.courseId ∧ Past s v ∧
          v.store.stored Tbl.courses course.1 = some course.2)
        fun _ _ => False) := by
  have hL := overShop rt sc
  refine query_rule (F := fun c => ∃ course : Course, c.get Tbl.courses P.courseId = some course ∧
      (c.rows Tbl.courses).find? (fun row => row.1 == P.courseId) = some (P.courseId, course))
    (persistent_past hL s).stable past_put ?_ fun c hF => ?_
  · intro v hwf hsound hpast
    have hstored := hpast.fixed Tbl.purchases (fun _ _ _ hallowed => hallowed) i P hP
    obtain ⟨course, hcourse⟩ := hsound.stocked i P hstored
    exact ⟨course, hcourse, Snapshot.find_row (hwf.lt_next hcourse) hcourse⟩
  · obtain ⟨course, hget, hfound⟩ := hF
    simp only [Sql.answer, Prog.andThen_ret, Prog.pure_eq, hfound]
    refine Triple.ret ((persistent_past hL s).stable.and (persistent_past hL c).stable)
      fun v hA => ⟨rfl, hA.1, ?_⟩
    exact hA.2.fixed Tbl.courses (fun _ _ _ hallowed => hallowed) _ _ hget

/-- The courses of purchases that a snapshot has shown are all found. -/
theorem coursesByIds_rule {s : Snapshot (schema rt)} {ids : List Nat}
    (hknown : ∀ id ∈ ids, ∃ i P, s.get Tbl.purchases i = some P ∧ P.courseId = id) :
    (shopLogic rt sc).Triple p (Past s) (coursesByIds ids)
      (ends (fun courses v => courses.map Prod.fst = ids ∧ Past s v ∧
          ∀ course ∈ courses, v.store.stored Tbl.courses course.1 = some course.2)
        fun _ _ => False) := by
  have hL := overShop rt sc
  induction ids with
  | nil =>
      exact Triple.ret (persistent_past hL s).stable fun v hpast =>
        ⟨rfl, hpast, fun course hmem => by cases hmem⟩
  | cons id rest ih =>
      obtain ⟨i, P, hP, rfl⟩ := hknown id List.mem_cons_self
      have hrest := ih fun id hmem => hknown id (List.mem_cons_of_mem _ hmem)
      refine Triple.andThen (findCourse_there hP) (fun course => ?_) fun _ _ hfalse => hfalse
      refine Triple.given (fun v _ _ hA => hA.1) fun hid => ?_
      have hstocked := persistent_course hL course.1 course.2
      refine Triple.weaken (Triple.andThen (Triple.persist hstocked hrest) (fun more => ?_)
        fun _ _ herror => herror.1) fun v _ _ hA => hA.2
      have hall : (shopLogic rt sc).Persistent fun v => ∀ other ∈ more,
          v.store.stored Tbl.courses other.1 = some other.2 :=
        fun a v v' hstep hmore other hmem =>
          persistent_course hL _ _ a v v' hstep (hmore other hmem)
      refine Triple.ret (((Stable.const _).and ((persistent_past hL s).stable.and
        hall.stable)).and hstocked.stable) fun v hA => ⟨?_, hA.1.2.1, fun other hmem => ?_⟩
      · rw [List.map_cons, hid, hA.1.1]
      · rcases List.mem_cons.mp hmem with rfl | hmem
        · exact hA.2
        · exact hA.1.2.2 other hmem

/-- The invitations of purchases that a snapshot has shown are all found. -/
theorem findManyByPurchaseIds_rule {s : Snapshot (schema rt)}
    {purchases : List (Entity .purchases)} (hnonempty : purchases ≠ [])
    (hshown : ∀ purchase ∈ purchases, s.get Tbl.purchases purchase.1 = some purchase.2) :
    (shopLogic rt sc).Triple p (Past s)
      (InvitationsRepository.findManyByPurchaseIds (purchases.map Prod.fst))
      (ends (fun invitations v => (∀ purchase ∈ purchases, ∃ invitation ∈ invitations,
            invitation.2.purchaseId = purchase.1) ∧ Past s v ∧
          ∃ c : Snapshot (schema rt), Past c v ∧ ∀ invitation ∈ invitations,
            c.get Tbl.invitations invitation.1 = some invitation.2)
        fun _ _ => False) := by
  have hL := overShop rt sc
  have hids : (purchases.map Prod.fst).isEmpty = false := by
    simpa using hnonempty
  unfold InvitationsRepository.findManyByPurchaseIds
  rw [hids, if_neg Bool.false_ne_true]
  refine query_rule (F := fun c => ∀ purchase ∈ purchases, ∃ invitation ∈
      (c.rows Tbl.invitations).filter fun row =>
        (purchases.map Prod.fst).contains row.2.purchaseId,
      invitation.2.purchaseId = purchase.1)
    (persistent_past hL s).stable past_put ?_ fun c hF => ?_
  · intro v hwf hsound hpast purchase hmem
    have hstored := hpast.fixed Tbl.purchases (fun _ _ _ hallowed => hallowed) _ _
      (hshown purchase hmem)
    obtain ⟨j, I, k, K, hI, -, hbundle⟩ := hsound.bundled purchase.1 purchase.2 hstored
    refine ⟨(j, I), List.mem_filter.mpr ⟨Snapshot.mem_rows.mpr ⟨hwf.lt_next hI, hI⟩, ?_⟩,
      hbundle.invites⟩
    rw [List.contains_iff_mem]
    exact List.mem_map.mpr ⟨purchase, hmem, hbundle.invites.symm⟩
  · refine Triple.ret ((persistent_past hL s).stable.and (persistent_past hL c).stable)
      fun v hA => ⟨hF, hA.1, c, hA.2, fun invitation hmem => ?_⟩
    exact (Snapshot.mem_rows.mp (List.mem_filter.mp hmem).1).2

/-- Every purchase finds its rows. -/
theorem pairRows_ok (rt : Runtime) {courses : List (Entity .courses)}
    {invitations : List (Entity .invitations)} {purchases : List (Entity .purchases)}
    (hcourses : ∀ purchase ∈ purchases, ∃ course ∈ courses, course.1 = purchase.2.courseId)
    (hinvitations : ∀ purchase ∈ purchases, ∃ invitation ∈ invitations,
      invitation.2.purchaseId = purchase.1) :
    ∃ list, pairRows rt courses invitations purchases = .ok list ∧
      List.Forall₂ (fun purchase response => ∃ course ∈ courses, ∃ invitation ∈ invitations,
        response = composeListResponse rt purchase course invitation ∧
        course.1 = purchase.2.courseId ∧ invitation.2.purchaseId = purchase.1) purchases
        list := by
  induction purchases with
  | nil => exact ⟨[], rfl, List.Forall₂.nil⟩
  | cons purchase rest ih =>
      obtain ⟨list, hlist, hpaired⟩ := ih
        (fun other hmem => hcourses other (List.mem_cons_of_mem purchase hmem))
        (fun other hmem => hinvitations other (List.mem_cons_of_mem purchase hmem))
      obtain ⟨c, hc, hcid⟩ := hcourses purchase List.mem_cons_self
      obtain ⟨i, hi, hiid⟩ := hinvitations purchase List.mem_cons_self
      have hsome : (courses.find? fun c => c.1 == purchase.2.courseId).isSome = true :=
        List.find?_isSome.mpr ⟨c, hc, by simpa using hcid⟩
      have hsome' : (invitations.reverse.find? fun i =>
          i.2.purchaseId == purchase.1).isSome = true :=
        List.find?_isSome.mpr ⟨i, List.mem_reverse.mpr hi, by simpa using hiid⟩
      obtain ⟨course, hcourse⟩ := Option.isSome_iff_exists.mp hsome
      obtain ⟨invitation, hinvitation⟩ := Option.isSome_iff_exists.mp hsome'
      refine ⟨composeListResponse rt purchase course invitation :: list, ?_, .cons ?_ hpaired⟩
      · simp only [pairRows, hcourse, hinvitation, hlist]
        rfl
      · exact ⟨course, List.mem_of_find?_eq_some hcourse, invitation,
          List.mem_reverse.mp (List.mem_of_find?_eq_some hinvitation), rfl,
          by simpa using List.find?_some hcourse, by simpa using List.find?_some hinvitation⟩

theorem listByParent_rule (s₀ : Snapshot (schema rt)) (parentUserId : Nat) :
    (shopLogic rt sc).Triple p (Past s₀) (PurchasesRepository.listByParent parentUserId)
      (ends (fun purchases v => ∃ s, Lists s₀ s parentUserId purchases ∧ Past s v)
        fun _ _ => False) := by
  have hL := overShop rt sc
  refine query_rule (F := fun s => ∀ i P, s₀.get Tbl.purchases i = some P →
    (i, P) ∈ s.rows Tbl.purchases) (persistent_past hL s₀).stable past_put ?_ fun s hlater => ?_
  · intro v hwf hsound hpast i P hP
    have hstored := hpast.fixed Tbl.purchases (fun _ _ _ hallowed => hallowed) i P hP
    exact Snapshot.mem_rows.mpr ⟨hwf.lt_next hstored, hstored⟩
  · exact Triple.ret ((persistent_past hL s₀).stable.and (persistent_past hL s).stable)
      fun v hA => ⟨s, lists_of_snapshot hlater, hA.2⟩

/-- Every row is found, so the list is complete and no part of it is missing. -/
theorem listForParent_rule (s₀ : Snapshot (schema rt)) (parentUserId : Nat) :
    (shopLogic rt sc).Triple p (Past s₀) (listForParent parentUserId)
      (ends (Listed s₀ parentUserId) fun _ _ => False) := by
  have hL := overShop rt sc
  refine Triple.andThen (listByParent_rule s₀ parentUserId) (fun purchases => ?_)
    fun _ _ hfalse => hfalse
  refine Triple.exists fun s => ?_
  refine Triple.given (fun v _ _ hA => hA.1) fun hlists => ?_
  refine Triple.weaken ?_ fun v _ _ hA => hA.2
  split
  · rename_i hempty
    obtain rfl : purchases = [] := List.isEmpty_iff.mp hempty
    exact Triple.ret (persistent_past hL s).stable fun v _ => ⟨s, [], hlists, List.Forall₂.nil⟩
  · rename_i hnonempty
    have hnonempty' : purchases ≠ [] := fun hnil => hnonempty (List.isEmpty_iff.mpr hnil)
    have hknown (id : Nat) (hid : id ∈ (purchases.map fun row => row.2.courseId).eraseDups) :
        ∃ i P, s.get Tbl.purchases i = some P ∧ P.courseId = id := by
      obtain ⟨purchase, hmem, rfl⟩ := List.mem_map.mp (List.mem_eraseDups.mp hid)
      exact ⟨purchase.1, purchase.2, (hlists.own purchase hmem).2, rfl⟩
    refine Triple.andThen (coursesByIds_rule hknown) (fun courses => ?_)
      fun _ _ hfalse => hfalse
    refine Triple.given (fun v _ _ hA => hA.1) fun hids => ?_
    have hall : (shopLogic rt sc).Persistent fun v => ∀ course ∈ courses,
        v.store.stored Tbl.courses course.1 = some course.2 :=
      fun a v v' hstep hstocked course hmem =>
        persistent_course hL _ _ a v v' hstep (hstocked course hmem)
    have hinvitations : (shopLogic rt sc).Triple p (Past s)
        (InvitationsRepository.findManyByPurchaseIds (purchases.map Prod.fst)) _ :=
      findManyByPurchaseIds_rule hnonempty' fun purchase hmem => (hlists.own purchase hmem).2
    refine Triple.weaken (Triple.andThen (Triple.persist hall hinvitations)
      (fun invitations => ?_) fun _ _ herror => herror.1) fun v _ _ hA => hA.2
    refine Triple.given (φ := ∀ purchase ∈ purchases, ∃ invitation ∈ invitations,
      invitation.2.purchaseId = purchase.1) (fun v _ _ hA => hA.1.1) fun hinvited => ?_
    have hcourses (purchase : Entity .purchases) (hmem : purchase ∈ purchases) :
        ∃ course ∈ courses, course.1 = purchase.2.courseId := by
      have hid : purchase.2.courseId ∈ courses.map Prod.fst := by
        rw [hids]
        exact List.mem_eraseDups.mpr (List.mem_map.mpr ⟨purchase, hmem, rfl⟩)
      obtain ⟨course, hcourse, hsame⟩ := List.mem_map.mp hid
      exact ⟨course, hcourse, hsame⟩
    obtain ⟨list, hlist, hpaired⟩ := pairRows_ok rt hcourses hinvited
    rw [hlist]
    refine Triple.weaken (Triple.ret (persistent_listed s₀ parentUserId list).stable
      fun v hlisted => hlisted) ?_
    rintro v hwf hsound ⟨⟨-, hpast, c, hpast', hrows⟩, hstocked⟩
    refine ⟨s, purchases, hlists, ?_⟩
    refine List.forall₂_iff_get.mpr ⟨hpaired.length_eq, fun n hn hn' => ?_⟩
    obtain ⟨course, hc, invitation, hi, hresponse, hcid, hiid⟩ := hpaired.get hn hn'
    have hP := hpast.fixed Tbl.purchases (fun _ _ _ hallowed => hallowed) _ _
      (hlists.own _ (List.get_mem purchases ⟨n, hn⟩)).2
    exact ⟨hP, course, invitation, hresponse, hcid, hiid, hstocked course hc,
      hpast'.invitations _ _ (hrows invitation hi)⟩

theorem listMine_rule (s₀ : Snapshot (schema rt)) (user : JwtPayload) :
    (shopLogic rt sc).Triple p (Past s₀) (PurchasesController.listMine user)
      (ends (fun response v => ∃ list, response = .purchases list ∧
          Listed s₀ user.sub list v)
        fun e _ => user.role ≠ .parent ∧ e = .domain .forbidden) := by
  unfold PurchasesController.listMine PurchasesController.requireRole
  split
  · refine Triple.andThen (listForParent_rule s₀ user.sub) (fun list => ?_)
      fun _ _ hfalse => hfalse.elim
    exact Triple.ret (persistent_listed s₀ user.sub list).stable
      fun v hlisted => ⟨list, rfl, hlisted⟩
  · rename_i hrole
    exact Triple.throw (persistent_past (overShop rt sc) s₀).stable fun v _ => ⟨hrole, rfl⟩

/-! ### The lessons of a student -/

/-- The response shows a committed lesson of a course that the user is enrolled in. -/
def LessonShown (userId : Nat) (response : LessonResponse) (v : BackendView rt) : Prop :=
  ∃ lesson : Lesson, v.store.stored Tbl.lessons response.id = some lesson ∧
    response = LessonsService.toLessonResponse rt (response.id, lesson) ∧
    Enrolled v.store userId lesson.courseId

theorem persistent_enrolled (userId courseId : Nat) :
    (shopLogic rt sc).Persistent fun v => Enrolled v.store userId courseId := by
  intro a v v' hstep henrolled
  obtain ⟨k, e, he, hcolumns⟩ := henrolled
  exact ⟨k, e, persistent_enrolment (overShop rt sc) k e a v v' hstep he, hcolumns⟩

theorem persistent_lesson (id : Nat) (lesson : Lesson) :
    (shopLogic rt sc).Persistent fun v => v.store.stored Tbl.lessons id = some lesson :=
  persistent_fixed (overShop rt sc) .lessons (fun _ _ _ hallowed => hallowed) id lesson

theorem persistent_lessonShown (userId : Nat) (response : LessonResponse) :
    (shopLogic rt sc).Persistent (LessonShown userId response) := by
  intro a v v' hstep hshown
  obtain ⟨lesson, hlesson, hresponse, henrolled⟩ := hshown
  exact ⟨lesson, persistent_lesson _ _ a v v' hstep hlesson, hresponse,
    persistent_enrolled _ _ a v v' hstep henrolled⟩

theorem assertEnrolled_rule (userId courseId : Nat) :
    (shopLogic rt sc).Triple p (fun _ => True)
      (LessonsService.assertEnrolled userId courseId)
      (ends (fun _ v => Enrolled v.store userId courseId) fun _ _ => True) := by
  have hL := overShop rt sc
  refine query_rule (F := fun _ => True) (Stable.const True) (fun _ _ _ => True.intro)
    (fun _ _ _ _ => True.intro) fun s _ => ?_
  have hpast : (shopLogic rt sc).Stable p fun v => True ∧ Past s v :=
    (Stable.const True).and (persistent_past hL s).stable
  simp only [Sql.answer, Prog.andThen_ret, Prog.pure_eq]
  cases hfound : (s.rows Tbl.enrolments).find? fun row =>
      row.2.studentUserId == userId && row.2.courseId == courseId with
  | none =>
      simp only [Option.map_none]
      exact Triple.throw hpast fun _ _ => True.intro
  | some row =>
      have hmatch : row.2.studentUserId = userId ∧ row.2.courseId = courseId := by
        simpa using List.find?_some hfound
      have hlisted : row ∈ s.rows Tbl.enrolments := List.mem_of_find?_eq_some hfound
      simp only [Option.map_some]
      refine Triple.ret hpast fun v hA => ⟨row.1, row.2, ?_, hmatch⟩
      exact hA.2.fixed Tbl.enrolments (fun _ _ _ hallowed => hallowed) _ _
        (Snapshot.mem_rows.mp hlisted).2

theorem findByIdOrFail_rule (lessonId : Nat) :
    (shopLogic rt sc).Triple p (fun _ => True) (LessonsRepository.findByIdOrFail lessonId)
      (ends (fun lesson v => v.store.stored Tbl.lessons lesson.1 = some lesson.2)
        fun _ _ => True) := by
  have hL := overShop rt sc
  refine query_rule (F := fun _ => True) (Stable.const True) (fun _ _ _ => True.intro)
    (fun _ _ _ _ => True.intro) fun s _ => ?_
  have hpast : (shopLogic rt sc).Stable p fun v => True ∧ Past s v :=
    (Stable.const True).and (persistent_past hL s).stable
  simp only [Sql.answer, Prog.andThen_ret, Prog.pure_eq]
  cases hfound : (s.rows Tbl.lessons).find? fun row => row.1 == lessonId with
  | none => exact Triple.throw hpast fun _ _ => True.intro
  | some lesson =>
      have hlisted : lesson ∈ s.rows Tbl.lessons := List.mem_of_find?_eq_some hfound
      refine Triple.ret hpast fun v hA => ?_
      exact hA.2.fixed Tbl.lessons (fun _ _ _ hallowed => hallowed) _ _
        (Snapshot.mem_rows.mp hlisted).2

/-- A handler that only chooses another error. -/
theorem relabel_rule {α : Type} {A : BackendView rt → Prop} {x : Method rt α}
    {R : α → BackendView rt → Prop} {handler : AppError → Method rt α}
    (htriple : (shopLogic rt sc).Triple p A x (ends R fun _ _ => True))
    (hhandler : ∀ error, ∃ error', handler error = .throw error') :
    (shopLogic rt sc).Triple p A (x.attempt handler) (ends R fun _ _ => True) := by
  refine Triple.attempt htriple (fun a v hR => hR) fun error => ?_
  obtain ⟨error', hthrow⟩ := hhandler error
  rw [hthrow]
  exact Triple.throw (Stable.const True) fun _ _ => True.intro

theorem findLessonById_rule (userId lessonId : Nat) :
    (shopLogic rt sc).Triple p (fun _ => True) (LessonsService.findLessonById userId lessonId)
      (ends (LessonShown userId) fun _ _ => True) := by
  refine Triple.andThen (relabel_rule (findByIdOrFail_rule lessonId) fun error => ?_)
    (fun lesson => ?_) fun _ _ _ => True.intro
  · split <;> exact ⟨_, rfl⟩
  have hthere : (shopLogic rt sc).Persistent fun v =>
      v.store.stored Tbl.lessons lesson.1 = some lesson.2 := persistent_lesson _ _
  refine Triple.andThen (Triple.weaken (Triple.persist hthere
    (relabel_rule (assertEnrolled_rule userId lesson.2.courseId) fun error => ?_))
    fun v _ _ hlesson => ⟨True.intro, hlesson⟩) (fun _ => ?_) fun _ _ _ => True.intro
  · split <;> exact ⟨_, rfl⟩
  refine Triple.ret ((persistent_enrolled _ _).stable.and hthere.stable) fun v hA => ?_
  exact ⟨lesson.2, hA.2, rfl, hA.1⟩

theorem findLessonsForCourse_rule (userId courseId : Nat) :
    (shopLogic rt sc).Triple p (fun _ => True)
      (LessonsService.findLessonsForCourse userId courseId)
      (ends (fun course v => ∀ response ∈ course.lessons, LessonShown userId response v)
        fun _ _ => True) := by
  have hL := overShop rt sc
  refine Triple.andThen (assertEnrolled_rule userId courseId) (fun enrolment => ?_)
    fun _ _ _ => True.intro
  refine query_rule (F := fun _ => True) (persistent_enrolled _ _).stable
    (fun _ _ henrolled => henrolled) (fun _ _ _ _ => True.intro) fun s _ => ?_
  have hpast : (shopLogic rt sc).Stable p fun v => Enrolled v.store userId courseId ∧
      Past s v := (persistent_enrolled _ _).stable.and (persistent_past hL s).stable
  simp only [Sql.answer, Prog.andThen_ret, Prog.pure_eq]
  split
  · exact Triple.throw hpast fun _ _ => True.intro
  · refine Triple.ret hpast fun v hA response hmem => ?_
    obtain ⟨lesson, hlesson, rfl⟩ := List.mem_map.mp hmem
    obtain ⟨hlisted, hcourse⟩ := List.mem_filter.mp ((List.mem_insertionSort _).mp hlesson)
    have hcourse' : lesson.2.courseId = courseId := by simpa using hcourse
    refine ⟨lesson.2, ?_, rfl, ?_⟩
    · exact hA.2.fixed Tbl.lessons (fun _ _ _ hallowed => hallowed) _ _
        (Snapshot.mem_rows.mp hlisted).2
    · rw [hcourse']
      exact hA.1

end Mes
