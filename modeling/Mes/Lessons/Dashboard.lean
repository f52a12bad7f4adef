import Mes.Courses.Catalogue

/-!
The pages of a student. The dashboard lists exactly the courses in which the student is
enrolled. Enrolments, courses and lessons stay for good, so whatever the dashboard has listed
can be opened from then on, and every lesson that a course has listed can be read.
-/

namespace Mes

open Transact

variable {rt : Runtime} {seed : Seed} {w w' fin : BackendWorld rt} {userId courseId lessonId : Nat}

/-- Where a unique index tells the rows apart by their key, sorting them leaves no two with
the same key. -/
theorem sorted_ascends (hserves : Serves rt (boot rt seed) w) {t : Tbl} (key : Entity t → Nat)
    (keep : Entity t → Bool) (hindex : ∀ a b, keep a = true → keep b = true → key a = key b →
      t.clash a.2 b.2 = true) :
    (((w.view.store.committed.rows t).filter keep).insertionSort
      fun a b => key a ≤ key b).Pairwise fun a b => key a < key b := by
  have : Std.Total fun a b : Entity t => key a ≤ key b := ⟨fun a b => le_total _ _⟩
  have : IsTrans (Entity t) fun a b => key a ≤ key b := ⟨fun _ _ _ hab hbc => le_trans hab hbc⟩
  have hsorted := List.pairwise_insertionSort (fun a b : Entity t => key a ≤ key b)
    ((w.view.store.committed.rows t).filter keep)
  have hperm := List.perm_insertionSort (fun a b : Entity t => key a ≤ key b)
    ((w.view.store.committed.rows t).filter keep)
  have hids : ((((w.view.store.committed.rows t).filter keep).insertionSort
      fun a b => key a ≤ key b).map Prod.fst).Nodup := by
    refine (hperm.map Prod.fst).nodup_iff.mpr ?_
    exact (Snapshot.nodup_rows _ t).sublist (List.filter_sublist.map Prod.fst)
  have hstored (row : Entity t) (hrow : row ∈ ((w.view.store.committed.rows t).filter
      keep).insertionSort fun a b => key a ≤ key b) :
      w.view.store.stored t row.1 = some row.2 ∧ keep row = true := by
    obtain ⟨hlisted, hkeep⟩ := List.mem_filter.mp (hperm.mem_iff.mp hrow)
    exact ⟨hserves.wf.mem_committed.mp hlisted, hkeep⟩
  refine (hsorted.and (List.pairwise_map.mp hids)).imp_of_mem fun {a b} ha hb hboth => ?_
  refine lt_of_le_of_ne hboth.1 fun hsame => hboth.2 ?_
  exact hserves.wf.stored_distinct (hstored a ha).1 (hstored b hb).1
    (hindex a b (hstored a ha).2 (hstored b hb).2 hsame)

/-! ### The dashboard -/

/-- The rows of the student, by course. -/
def ownEnrolments (s : Snapshot (schema rt)) (userId : Nat) : List (Entity .enrolments) :=
  ((s.rows Tbl.enrolments).filter fun row => row.2.studentUserId == userId).insertionSort
    fun a b => a.2.courseId ≤ b.2.courseId

theorem mem_ownEnrolments (hserves : Serves rt (boot rt seed) w) {k : Nat} {e : Enrolment} :
    (k, e) ∈ ownEnrolments w.view.store.committed userId ↔
      w.view.store.stored Tbl.enrolments k = some e ∧ e.studentUserId = userId := by
  simp only [ownEnrolments, List.mem_insertionSort, List.mem_filter, beq_iff_eq]
  rw [hserves.wf.mem_committed (t := Tbl.enrolments)]

/-- The course of an enrolment is there. -/
theorem enrolment_course (hserves : Serves rt (boot rt seed) w) {k : Nat} {e : Enrolment}
    (hstored : w.view.store.stored Tbl.enrolments k = some e) :
    ∃ course, seed.courses[e.courseId]? = some course := by
  obtain ⟨-, hrefs⟩ := rows_accounted hserves hstored
  have hthere := hrefs (Tbl.courses, e.courseId) (by simp [Tbl.refs]) (by simp)
  rw [printed_rows hserves (Or.inl rfl)] at hthere
  exact Option.isSome_iff_exists.mp hthere

/-- The courses of the list ascend, for a student has one enrolment for a course. -/
theorem ownEnrolments_ascend (hserves : Serves rt (boot rt seed) w) :
    (ownEnrolments w.view.store.committed userId).Pairwise
      fun a b => a.2.courseId < b.2.courseId := by
  refine sorted_ascends hserves (fun row : Entity .enrolments => row.2.courseId)
    (fun row => row.2.studentUserId == userId) fun a b ha hb hcourse => ?_
  rw [beq_iff_eq] at ha hb
  simp [Tbl.clash, ha, hb, hcourse]

/-- The course of a row, as the dashboard shows it. -/
theorem own_course (hserves : Serves rt (boot rt seed) w) (row : Entity .enrolments)
    (c : Entity .courses) :
    (w.view.store.committed.rows Tbl.courses).find? (fun c => c.1 == row.2.courseId) = some c ↔
      seed.courses[row.2.courseId]? = some c.2 ∧ c.1 = row.2.courseId := by
  have hfind := hserves.wf.find_committed Tbl.courses row.2.courseId
  rw [printed_rows hserves (Or.inl rfl)] at hfind
  rw [hfind, Option.map_eq_some_iff]
  constructor
  · rintro ⟨course, hcourse, rfl⟩
    exact ⟨hcourse, rfl⟩
  · rintro ⟨hcourse, hid⟩
    exact ⟨c.2, hcourse, by rw [← hid]⟩

/-- The dashboard lists exactly the courses in which the student is enrolled at the moment of
the query, each once and by number. -/
theorem dashboard_shown (hserves : Serves rt (boot rt seed) w)
    {out : Except AppError (List CourseResponse)}
    (hanswers : Answers rt (LessonsService.findEnrolledCoursesForUser userId) w out w') :
    ∃ mid list, Serves rt w mid ∧ Serves rt mid w' ∧ out = .ok list ∧
      list.Pairwise (fun a b => a.id < b.id) ∧ (∀ c ∈ list, Offers seed c) ∧
      ∀ courseId, courseId ∈ list.map CourseResponse.id ↔
        Enrolled mid.view.store userId courseId := by
  obtain ⟨found, hfound, rfl⟩ := Observes.of_map hanswers
  obtain ⟨mid, hbefore, hrest⟩ := Observes.of_read hfound
  obtain ⟨rfl, hafter⟩ := hrest.of_ret
  have hmid : Serves rt (boot rt seed) mid := hserves.trans hbefore
  refine ⟨mid, _, hbefore, hafter, rfl, ?_, ?_, fun courseId => ?_⟩
  · refine List.pairwise_map.mpr (List.pairwise_filterMap.mpr ?_)
    refine (ownEnrolments_ascend hmid).imp fun {a b} hlt c hc d hd => ?_
    rw [own_course hmid] at hc hd
    rw [← hc.2, ← hd.2] at hlt
    exact hlt
  · intro c hlisted
    obtain ⟨course, hcourse, rfl⟩ := List.mem_map.mp hlisted
    obtain ⟨row, -, hfind⟩ := List.mem_filterMap.mp hcourse
    obtain ⟨hoffer, hid⟩ := (own_course hmid row course).mp hfind
    rw [← hid] at hoffer
    exact ⟨course.2, hoffer, rfl⟩
  · rw [List.map_map, List.mem_map]
    constructor
    · rintro ⟨course, hcourse, rfl⟩
      obtain ⟨⟨k, e⟩, hrow, hfind⟩ := List.mem_filterMap.mp hcourse
      obtain ⟨hstored, hstudent⟩ := (mem_ownEnrolments hmid).mp hrow
      obtain ⟨-, hid⟩ := (own_course hmid (k, e) course).mp hfind
      exact ⟨k, e, hstored, hstudent, hid.symm⟩
    · rintro ⟨k, e, hstored, hstudent, rfl⟩
      obtain ⟨course, hoffer⟩ := enrolment_course hmid hstored
      exact ⟨(e.courseId, course), List.mem_filterMap.mpr ⟨(k, e),
        (mem_ownEnrolments hmid).mpr ⟨hstored, hstudent⟩,
        (own_course hmid (k, e) _).mpr ⟨hoffer, rfl⟩⟩, rfl⟩

/-! ### What can be opened -/

theorem Enrolled.lasts (hserves : Serves rt (boot rt seed) w) (hlater : Serves rt w w')
    (henrolled : Enrolled w.view.store userId courseId) :
    Enrolled w'.view.store userId courseId := by
  obtain ⟨k, e, hstored, hstudent, hcourse⟩ := henrolled
  obtain ⟨f, hf, hsame⟩ := hserves.lasts hlater (by decide : Tbl.Lasting .enrolments) hstored
  obtain rfl : f = e := hsame
  exact ⟨k, f, hf, hstudent, hcourse⟩

theorem assertEnrolled_answers (hserves : Serves rt (boot rt seed) w)
    (henrolled : Enrolled w.view.store userId courseId)
    {out : Except AppError (Entity .enrolments × Option (Entity .courses))}
    (hanswers : Answers rt (LessonsService.assertEnrolled userId courseId) w out w') :
    ∃ row course, out = .ok (row, some (courseId, course)) ∧
      seed.courses[courseId]? = some course := by
  rcases Observes.of_andThen hanswers with ⟨found, mid', hquery, hrest⟩ | ⟨e, rfl, hquery⟩
  swap
  · obtain ⟨mid, -, hlast⟩ := Observes.of_read hquery
    cases hlast
  obtain ⟨mid, hbefore, hlast⟩ := Observes.of_read hquery
  obtain ⟨hfind, -⟩ := hlast.of_ret
  obtain rfl := Except.ok.inj hfind
  have hmid : Serves rt (boot rt seed) mid := hserves.trans hbefore
  obtain ⟨k, e, hstored, hstudent, hcourse⟩ := henrolled.lasts hserves hbefore
  cases hfound : (mid.view.store.committed.rows Tbl.enrolments).find? (fun row =>
      row.2.studentUserId == userId && row.2.courseId == courseId) with
  | none =>
      have hmiss := List.find?_eq_none.mp hfound (k, e) (hmid.wf.mem_committed.mpr hstored)
      simp [hstudent, hcourse] at hmiss
  | some row =>
      have hmatch := List.find?_some hfound
      simp only [Bool.and_eq_true, beq_iff_eq] at hmatch
      have hlisted : (row.1, row.2) ∈ mid.view.store.committed.rows Tbl.enrolments :=
        List.mem_of_find?_eq_some hfound
      obtain ⟨course, hoffer⟩ := enrolment_course hmid (hmid.wf.mem_committed.mp hlisted)
      have hcourses := (own_course hmid row (row.2.courseId, course)).mpr ⟨hoffer, rfl⟩
      rw [hfound, Option.map_some, hcourses] at hrest
      obtain ⟨rfl, -⟩ := Observes.of_ret hrest
      rw [hmatch.2] at hoffer ⊢
      exact ⟨row, course, rfl, hoffer⟩

/-- The lessons of a course, in their order. -/
structure ListsLessons (rt : Runtime) (seed : Seed) (courseId : Nat)
    (list : List LessonResponse) : Prop where
  ordered : list.Pairwise fun a b => a.orderIndex < b.orderIndex
  complete : ∀ l, l ∈ list ↔ ∃ lesson, seed.lessons[l.id]? = some lesson ∧
    lesson.courseId = courseId ∧ l = LessonsService.toLessonResponse rt (l.id, lesson)

theorem findByCourseId_answers (hserves : Serves rt (boot rt seed) w)
    {out : Except AppError (List (Entity .lessons))}
    (hanswers : Answers rt (LessonsRepository.findByCourseId courseId) w out w') :
    ∃ rows, out = .ok rows ∧
      ListsLessons rt seed courseId (rows.map (LessonsService.toLessonResponse rt)) := by
  obtain ⟨found, hfound, rfl⟩ := Observes.of_map hanswers
  obtain ⟨mid, hbefore, -, rfl⟩ := findAll_answers hfound
  have hmid : Serves rt (boot rt seed) mid := hserves.trans hbefore
  have hrow (i : Nat) (lesson : Lesson) :
      (i, lesson) ∈ mid.view.store.committed.rows Tbl.lessons ↔ seed.lessons[i]? = some lesson := by
    rw [hmid.wf.mem_committed, printed_rows hmid (Or.inr rfl)]
    rfl
  refine ⟨_, rfl, ?_, fun l => ?_⟩
  · refine List.pairwise_map.mpr (sorted_ascends hmid
      (fun row : Entity .lessons => row.2.orderIndex) (fun row => row.2.courseId == courseId)
      fun a b ha hb horder => ?_)
    rw [beq_iff_eq] at ha hb
    simp [Tbl.clash, ha, hb, horder]
  · simp only [List.mem_map, List.mem_insertionSort, List.mem_filter, beq_iff_eq]
    constructor
    · rintro ⟨⟨i, lesson⟩, ⟨hlisted, hcourse⟩, rfl⟩
      exact ⟨lesson, (hrow i lesson).mp hlisted, hcourse, rfl⟩
    · rintro ⟨lesson, hseeded, hcourse, hl⟩
      exact ⟨(l.id, lesson), ⟨(hrow _ lesson).mpr hseeded, hcourse⟩, hl.symm⟩

/-- The course of a page with its lessons. -/
def CourseWithLessonsResponse.course (page : CourseWithLessonsResponse) : CourseResponse where
  id := page.id
  subject := page.subject
  yearFrom := page.yearFrom
  yearTo := page.yearTo
  title := page.title
  pricePence := page.pricePence

theorem findLessonsForCourse_answers (hserves : Serves rt (boot rt seed) w)
    (henrolled : Enrolled w.view.store userId courseId)
    {out : Except AppError CourseWithLessonsResponse}
    (hanswers : Answers rt (LessonsService.findLessonsForCourse userId courseId) w out w') :
    ∃ page, out = .ok page ∧ page.id = courseId ∧ Offers seed page.course ∧
      ListsLessons rt seed courseId page.lessons := by
  rcases Observes.of_andThen hanswers with ⟨enrolment, mid, hfirst, hrest⟩ | ⟨e, rfl, hfirst⟩
  · obtain ⟨row, course, henrolment, hoffer⟩ := assertEnrolled_answers hserves henrolled hfirst
    obtain rfl := Except.ok.inj henrolment
    have hmid : Serves rt (boot rt seed) mid := hserves.trans hfirst.reach
    rcases Observes.of_andThen hrest with ⟨lessons, last, hlessons, hlast⟩ | ⟨e, rfl, hlessons⟩
    · obtain ⟨rows, hrows, hlists⟩ := findByCourseId_answers hmid hlessons
      obtain rfl := Except.ok.inj hrows
      obtain ⟨rfl, -⟩ := hlast.of_ret
      exact ⟨_, rfl, rfl, ⟨course, hoffer, rfl⟩, hlists⟩
    · obtain ⟨rows, hrows, -⟩ := findByCourseId_answers hmid hlessons
      cases hrows
  · obtain ⟨row, course, henrolment, -⟩ := assertEnrolled_answers hserves henrolled hfirst
    cases henrolment

theorem findByIdOrFail_answers (hserves : Serves rt (boot rt seed) w) {lesson : Lesson}
    (hseeded : seed.lessons[lessonId]? = some lesson)
    {out : Except AppError (Entity .lessons)}
    (hanswers : Answers rt (LessonsRepository.findByIdOrFail lessonId) w out w') :
    out = .ok (lessonId, lesson) := by
  rcases Observes.of_andThen hanswers with ⟨found, mid, hfirst, hrest⟩ | ⟨e, rfl, hfirst⟩
  · obtain ⟨mid', hbefore, -, hfound⟩ := findById_answers hserves hfirst
    have hrow : mid'.view.store.stored Tbl.lessons lessonId = some lesson :=
      (printed_rows (hserves.trans hbefore) (Or.inr rfl) lessonId).trans hseeded
    rw [hrow] at hfound
    obtain rfl := Except.ok.inj hfound
    exact hrest.of_ret.1
  · obtain ⟨mid, -, -, hfound⟩ := findById_answers hserves hfirst
    cases hfound

theorem findLessonById_answers (hserves : Serves rt (boot rt seed) w) {lesson : Lesson}
    (hseeded : seed.lessons[lessonId]? = some lesson)
    (henrolled : Enrolled w.view.store userId lesson.courseId)
    {out : Except AppError LessonResponse}
    (hanswers : Answers rt (LessonsService.findLessonById userId lessonId) w out w') :
    out = .ok (LessonsService.toLessonResponse rt (lessonId, lesson)) := by
  rcases Observes.of_andThen hanswers with ⟨found, mid, hfirst, hrest⟩ | ⟨e, rfl, hfirst⟩
  · rcases hfirst.of_attempt with ⟨row, hrow, hfound⟩ | ⟨e, mid', hfailed, -⟩
    · obtain rfl := Except.ok.inj hrow
      obtain rfl := Except.ok.inj (findByIdOrFail_answers hserves hseeded hfound)
      have hmid : Serves rt (boot rt seed) mid := hserves.trans hfirst.reach
      have hstill := henrolled.lasts hserves hfirst.reach
      rcases Observes.of_andThen hrest with ⟨enrolment, last, hcheck, hlast⟩ | ⟨e, rfl, hcheck⟩
      · exact hlast.of_ret.1
      · rcases hcheck.of_attempt with ⟨enrolment, hnone, -⟩ | ⟨e', last, hfailed, -⟩
        · cases hnone
        · obtain ⟨row, course, hnone, -⟩ := assertEnrolled_answers hmid hstill hfailed
          cases hnone
    · cases findByIdOrFail_answers hserves hseeded hfailed
  · rcases hfirst.of_attempt with ⟨row, hnone, -⟩ | ⟨e', mid, hfailed, -⟩
    · cases hnone
    · cases findByIdOrFail_answers hserves hseeded hfailed

/-! ### The pages of a student -/

section Reads

theorem reads_findOne (t : Tbl) (where_ : Nat → t.Row → Bool) :
    (@BaseRepository.findOne rt t where_).Uses Call.Queries :=
  ⟨trivial, fun res => by cases res <;> trivial⟩

theorem reads_assertEnrolled (userId courseId : Nat) :
    (@LessonsService.assertEnrolled rt userId courseId).Uses Call.Queries := by
  refine Prog.Uses.andThen ⟨trivial, fun res => by cases res <;> trivial⟩ fun found => ?_
  cases found <;> trivial

theorem reads_findLessonsForCourse (userId courseId : Nat) :
    (@LessonsService.findLessonsForCourse rt userId courseId).Uses Call.Queries := by
  refine Prog.Uses.andThen (reads_assertEnrolled userId courseId) fun enrolment => ?_
  refine Prog.Uses.andThen (Prog.Uses.andThen ⟨trivial, fun res => by cases res <;> trivial⟩
    fun rows => trivial) fun lessons => ?_
  obtain ⟨row, course⟩ := enrolment
  cases course <;> trivial

theorem reads_findLessonById (userId lessonId : Nat) :
    (@LessonsService.findLessonById rt userId lessonId).Uses Call.Queries := by
  refine Prog.Uses.andThen (Prog.Uses.attempt (Prog.Uses.andThen (reads_findOne _ _)
    fun found => by cases found <;> trivial) fun e => by dsimp only; split <;> trivial)
      fun lesson => ?_
  exact Prog.Uses.andThen (Prog.Uses.attempt (reads_assertEnrolled _ _)
    fun e => by dsimp only; split <;> trivial) fun _ => trivial

end Reads

/-- A request that has just arrived, is let through and only reads. -/
theorem ended_student {user : JwtPayload} (hrole : user.role = .student) {req : Request}
    {α : Type} {x : Method rt α} {f : α → Response}
    (hreq : handler rt req =
      PurchasesController.requireRole user .student (x >>= fun a => pure (f a)))
    (hreads : x.Uses Call.Queries) (hlater : Serves rt (w.call (handler rt) [req]) fin)
    {out : Except AppError Response} (hended : fin.Ended w.procs.length req out) :
    ∃ out', Answers rt x (w.call (handler rt) [req]) out' fin ∧ out = out'.map f := by
  have hbody : handler rt req = x >>= fun a => pure (f a) := by
    rw [hreq, PurchasesController.requireRole, if_pos hrole]
  have hproc : (w.call (handler rt) [req]).procs[w.procs.length]? =
      some { req := req, prog := handler rt req } := by
    simp [World.call]
  have hquiet : (handler rt req).Uses Call.Queries := by
    rw [hbody]
    exact hreads.andThen fun _ => trivial
  have hobserved := hended.observed hproc hquiet hlater
  dsimp only at hobserved
  rw [hbody] at hobserved
  exact Observes.of_map hobserved

theorem called_serves {req : Request} (hincoming : Incoming req) :
    Serves rt w (w.call (handler rt) [req]) :=
  World.call_reach w _ fun other hother => by
    rw [List.mem_singleton.mp hother]
    exact hincoming

/-- A call for the page of the course, interleaved with any others, is answered with the course
and all its lessons, and from then on every lesson of the page opens as it is shown there. -/
def OpensPage (rt : Runtime) (seed : Seed) (user : JwtPayload) (c : CourseResponse)
    (w : BackendWorld rt) : Prop :=
  ∀ fin out, Serves rt (w.call (handler rt) [.listLessonsForCourse user c.id]) fin →
    fin.Ended w.procs.length (.listLessonsForCourse user c.id) out →
    ∃ page, out = .ok (.course page) ∧ page.course = c ∧ ListsLessons rt seed c.id page.lessons ∧
      ∀ lesson ∈ page.lessons, ∀ last out',
        Serves rt (fin.call (handler rt) [.getLesson user lesson.id]) last →
        last.Ended fin.procs.length (.getLesson user lesson.id) out' →
        out' = .ok (.lesson lesson)

theorem enrolled_opens (hserves : Serves rt (boot rt seed) w) {user : JwtPayload}
    (hrole : user.role = .student) {c : CourseResponse} (hoffers : Offers seed c)
    (henrolled : Enrolled w.view.store user.sub c.id) : OpensPage rt seed user c w := by
  intro fin out hlater hended
  have harrived : Serves rt w (w.call (handler rt) [.listLessonsForCourse user c.id]) :=
    called_serves trivial
  have hstill (u : BackendWorld rt) (hu : Serves rt w u) : Enrolled u.view.store user.sub c.id :=
    henrolled.lasts hserves hu
  obtain ⟨out', hpage, rfl⟩ :=
    ended_student hrole rfl (reads_findLessonsForCourse _ _) hlater hended
  obtain ⟨page, rfl, hid, hoffer, hlessons⟩ := findLessonsForCourse_answers
    (hserves.trans harrived) (hstill _ harrived) hpage
  refine ⟨page, rfl, hoffer.unique hoffers hid, hlessons, ?_⟩
  intro lesson hlesson last out' hlast hended'
  obtain ⟨row, hseeded, hcourse, hshown⟩ := (hlessons.complete lesson).mp hlesson
  have hopened : Serves rt w (fin.call (handler rt) [.getLesson user lesson.id]) :=
    (harrived.trans hlater).trans (called_serves trivial)
  obtain ⟨out, hfound, rfl⟩ := ended_student hrole rfl (reads_findLessonById _ _) hlast hended'
  rw [findLessonById_answers (hserves.trans hopened) hseeded (hcourse ▸ hstill _ hopened) hfound,
    ← hshown]
  rfl

/-- No dead links. The dashboard lists exactly the courses in which the student is enrolled at
the moment of the query, and whatever it lists can be opened from then on. -/
theorem dashboard_opens (hserves : Serves rt (boot rt seed) w)
    {out : Except AppError (List CourseResponse)}
    (hanswers : Answers rt (LessonsService.findEnrolledCoursesForUser userId) w out w') :
    ∃ mid list, Serves rt w mid ∧ Serves rt mid w' ∧ out = .ok list ∧
      list.Pairwise (fun a b => a.id < b.id) ∧
      (∀ courseId, courseId ∈ list.map CourseResponse.id ↔
        Enrolled mid.view.store userId courseId) ∧
      ∀ c ∈ list, Offers seed c ∧ OpensPage rt seed ⟨userId, .student⟩ c w' := by
  obtain ⟨mid, list, hbefore, hafter, rfl, horder, hoffers, henrolled⟩ :=
    dashboard_shown hserves hanswers
  refine ⟨mid, list, hbefore, hafter, rfl, horder, henrolled, fun c hlisted => ?_⟩
  have hmid : Serves rt (boot rt seed) mid := hserves.trans hbefore
  have hthere := (henrolled c.id).mp (List.mem_map.mpr ⟨c, hlisted, rfl⟩)
  exact ⟨hoffers c hlisted, enrolled_opens (hmid.trans hafter) rfl (hoffers c hlisted)
    (hthere.lasts hmid hafter)⟩

/-! ### A run -/

def samplePage : Request :=
  .listLessonsForCourse ⟨1, .student⟩ 0

theorem sample_enrolled : ∃ w fin : BackendWorld sampleRuntime,
    Serves sampleRuntime (boot sampleRuntime sampleLessons) w ∧ Enrolled w.view.store 1 0 ∧
      Serves sampleRuntime (w.call (handler sampleRuntime) [samplePage]) fin ∧
      ∃ out, fin.Ended w.procs.length samplePage out := by
  have hrun : ((boot sampleRuntime sampleLessons).run (handler sampleRuntime)
      sampleLearning).any (fun w => decide (w.view.store.stored Tbl.enrolments 0 =
          some { studentUserId := 1, courseId := 0, sourceInvitationId := some 0 }) &&
        ((w.call (handler sampleRuntime) [samplePage]).run (handler sampleRuntime)
          (List.replicate 2 (.run w.procs.length {}))).any fun fin =>
            (fin.status w.procs.length).any fun status =>
              decide (status.1 = samplePage) && status.2.isSome) = true := by
    decide +kernel
  obtain ⟨w, hw, hchecks⟩ := (Option.any_eq_true _ _).mp hrun
  rw [Bool.and_eq_true, decide_eq_true_eq] at hchecks
  obtain ⟨fin, hfin, hstatus⟩ := (Option.any_eq_true _ _).mp hchecks.2
  obtain ⟨⟨req, result⟩, hended, hboth⟩ := (Option.any_eq_true _ _).mp hstatus
  rw [Bool.and_eq_true, decide_eq_true_eq] at hboth
  obtain ⟨out, hout⟩ := Option.isSome_iff_exists.mp hboth.2
  refine ⟨w, fin, serves_of_run sampleLearning_admitted hw, ⟨0, _, hchecks.1, rfl, rfl⟩,
    serves_of_run (fun a ha u u' => ?_) hfin, out, World.ended_of_status ?_⟩
  · rw [List.eq_of_mem_replicate ha]
    trivial
  · rw [hended]
    exact congrArg some (Prod.ext hboth.1 hout)

theorem dashboard_opens_learning : ∃ page : CourseWithLessonsResponse,
    ListsLessons sampleRuntime sampleLessons 0 page.lessons := by
  obtain ⟨w, fin, hserves, henrolled, hlater, out, hended⟩ := sample_enrolled
  have hanswers : Answers sampleRuntime (LessonsService.findEnrolledCoursesForUser 1) w _ w :=
    .query .refl (.ret .refl)
  obtain ⟨mid, list, hbefore, -, -, -, hids, hopens⟩ := dashboard_opens hserves hanswers
  obtain ⟨c, hlisted, hid⟩ := List.mem_map.mp ((hids 0).mpr (henrolled.lasts hserves hbefore))
  obtain ⟨page, -, -, hlessons, -⟩ :=
    (hopens c hlisted).2 fin out (hid ▸ hlater) (hid ▸ hended)
  exact ⟨page, hid ▸ hlessons⟩

end Mes
