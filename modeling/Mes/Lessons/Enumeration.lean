import Mes.Backend
import Mes.Transact.Solo

/-!
What a student can learn about courses that the student is not enrolled in. A
query for such a course, or for a lesson of one, ends in the same error whether
the row exists or not, so two databases that differ elsewhere answer alike.
-/

namespace Mes

open Transact

variable {rt : Runtime}

/-- What the foreign keys guarantee: a row refers only to rows that are there. -/
def Referential (s : Store (schema rt)) : Prop :=
  ∀ (t : Tbl) id (r : t.Row), s.stored t id = some r →
    ∀ ref ∈ t.refs r, (s.stored ref.1 ref.2).isSome = true

def Enrolled (s : Store (schema rt)) (userId courseId : Nat) : Prop :=
  ∃ (id : Nat) (r : Enrolment), s.stored Tbl.enrolments id = some r ∧
    r.studentUserId = userId ∧ r.courseId = courseId

/-- The course does not exist, or the user is not enrolled in it. -/
def CourseHidden (s : Store (schema rt)) (userId courseId : Nat) : Prop :=
  s.stored Tbl.courses courseId = none ∨ ¬ Enrolled s userId courseId

/-- The lesson does not exist, or the user is not enrolled in its course. -/
def LessonHidden (s : Store (schema rt)) (userId lessonId : Nat) : Prop :=
  s.stored Tbl.lessons lessonId = none ∨
    ∀ lesson : Lesson, s.stored Tbl.lessons lessonId = some lesson →
      ¬ Enrolled s userId lesson.courseId

theorem CourseHidden.not_enrolled {s : Store (schema rt)} {userId courseId : Nat}
    (hkeys : Referential s) (hhidden : CourseHidden s userId courseId) :
    ¬ Enrolled s userId courseId := by
  rcases hhidden with hmissing | hout
  · rintro ⟨id, r, hrow, -, hcourse⟩
    have hthere := hkeys Tbl.enrolments id r hrow (Tbl.courses, r.courseId)
      (by simp [Tbl.refs])
    rw [hcourse, hmissing] at hthere
    cases hthere
  · exact hout

namespace LessonsService

variable {env : Fortune (platform rt)} {p : Pid} {n : Nat} {v : BackendView rt}

/-- A user that is not enrolled is sent away, whatever the course. -/
theorem assertEnrolled_outsider (hserved : env.fault n = none) {userId courseId : Nat}
    (hout : ¬ Enrolled v.store userId courseId) :
    solo env p (assertEnrolled userId courseId) n v =
      some (.error (.domain (.notEnrolled [("userId", userId), ("courseId", courseId)])),
        n + 1, v.queried p) := by
  have hnone : (v.store.committed.rows Tbl.enrolments).find? (fun row =>
      row.2.studentUserId == userId && row.2.courseId == courseId) = none := by
    apply List.find?_eq_none.mpr
    rintro ⟨id, r⟩ hmem hmatch
    have hboth : r.studentUserId = userId ∧ r.courseId = courseId := by
      simpa using hmatch
    exact hout ⟨id, r, (Snapshot.mem_rows.mp hmem).2, hboth.1, hboth.2⟩
  refine (solo_read_pool hserved _).trans ?_
  simp only [Sql.answer, Prog.andThen_ret, Prog.pure_eq, hnone, Option.map_none]
  rfl

/-- The lookup of a lesson ends in `lessonNotFound`, or with the row. -/
theorem findByIdOrFail_cases (hserved : env.fault n = none) (lessonId : Nat) :
    solo env p (LessonsRepository.findByIdOrFail lessonId) n v =
        some (.error (.domain (.lessonNotFound lessonId)), n + 1, v.queried p) ∨
      ∃ lesson : Lesson, v.store.stored Tbl.lessons lessonId = some lesson ∧
        solo env p (LessonsRepository.findByIdOrFail lessonId) n v =
          some (.ok (lessonId, lesson), n + 1, v.queried p) := by
  cases hfound : (v.store.committed.rows Tbl.lessons).find? (fun row =>
      row.1 == lessonId) with
  | none =>
      left
      refine (solo_read_pool hserved _).trans ?_
      simp only [Sql.answer, Prog.andThen_ret, hfound]
      rfl
  | some row =>
      right
      obtain ⟨id, lesson⟩ := row
      have hid : id = lessonId := by simpa using List.find?_some hfound
      subst hid
      refine ⟨lesson, (Snapshot.mem_rows.mp (List.mem_of_find?_eq_some hfound)).2, ?_⟩
      refine (solo_read_pool hserved _).trans ?_
      simp only [Sql.answer, Prog.andThen_ret, hfound]
      rfl

theorem findLessonById_hidden (hserved : ∀ n, env.fault n = none) {userId lessonId : Nat}
    (hhidden : LessonHidden v.store userId lessonId) :
    reply env p (findLessonById userId lessonId) v =
      some (.error (.domain (.notEnrolled [("userId", userId), ("lessonId", lessonId)]))) := by
  unfold reply findLessonById
  rw [Prog.bind_eq, solo_andThen, solo_attempt]
  rcases findByIdOrFail_cases (p := p) (v := v) (hserved 0) lessonId with
    hmissing | ⟨lesson, hrow, hfound⟩
  · rw [hmissing]
    rfl
  · have hout : ¬ Enrolled (v.queried p).store userId lesson.courseId := by
      rcases hhidden with hnone | hout
      · rw [hnone] at hrow
        cases hrow
      · exact hout lesson hrow
    rw [hfound]
    dsimp only [Option.bind_some, Prog.bind_eq]
    rw [solo_andThen, solo_attempt, assertEnrolled_outsider (hserved 1) hout]
    rfl

theorem findLessonsForCourse_hidden (hserved : ∀ n, env.fault n = none)
    {userId courseId : Nat} (hkeys : Referential v.store)
    (hhidden : CourseHidden v.store userId courseId) :
    reply env p (findLessonsForCourse userId courseId) v =
      some (.error (.domain (.notEnrolled [("userId", userId), ("courseId", courseId)]))) := by
  unfold reply findLessonsForCourse
  rw [Prog.bind_eq, solo_andThen,
    assertEnrolled_outsider (hserved 0) (hhidden.not_enrolled hkeys)]
  rfl

end LessonsService

/-- Two databases in which the user has access neither to the lesson nor to the
course give the same answers: an error that holds nothing but the arguments. -/
theorem lessons_disclose_nothing {v v' : BackendView rt} {env env' : Fortune (platform rt)}
    (p p' : Pid) (userId lessonId courseId : Nat)
    (hserved : ∀ n, env.fault n = none) (hserved' : ∀ n, env'.fault n = none)
    (hkeys : Referential v.store) (hkeys' : Referential v'.store)
    (hlesson : LessonHidden v.store userId lessonId)
    (hlesson' : LessonHidden v'.store userId lessonId)
    (hcourse : CourseHidden v.store userId courseId)
    (hcourse' : CourseHidden v'.store userId courseId) :
    (∃ error : DomainError,
      reply env p (LessonsService.findLessonById userId lessonId) v =
          some (.error (.domain error)) ∧
        reply env' p' (LessonsService.findLessonById userId lessonId) v' =
          some (.error (.domain error)) ∧
        error = .notEnrolled [("userId", userId), ("lessonId", lessonId)]) ∧
      ∃ error : DomainError,
        reply env p (LessonsService.findLessonsForCourse userId courseId) v =
            some (.error (.domain error)) ∧
          reply env' p' (LessonsService.findLessonsForCourse userId courseId) v' =
            some (.error (.domain error)) ∧
          error = .notEnrolled [("userId", userId), ("courseId", courseId)] :=
  ⟨⟨_, LessonsService.findLessonById_hidden hserved hlesson,
      LessonsService.findLessonById_hidden hserved' hlesson', rfl⟩,
    _, LessonsService.findLessonsForCourse_hidden hserved hkeys hcourse,
    LessonsService.findLessonsForCourse_hidden hserved' hkeys' hcourse', rfl⟩

/-- The seeded rows refer only to seeded rows. -/
theorem boot_referential (rt : Runtime) (seed : Seed) :
    Referential (boot rt seed).view.store := by
  intro t id r hrow ref hmem
  have hseeded : r ∈ seed.rows t := List.mem_of_getElem? hrow
  cases t with
  | users | courses => cases hmem
  | lessons =>
      have href : ref = (Tbl.courses, r.courseId) := by simpa [Tbl.refs] using hmem
      have hlt := seed.coursesOfLessons r hseeded
      show ((seed.rows ref.1)[ref.2]?).isSome = true
      rw [href]
      simpa [Seed.rows] using hlt
  | purchases | invitations | idempotencyKeys | enrolments | refreshTokens =>
      cases hseeded

/-- The catalogue with one lesson. -/
def sampleLessonSeed : Seed where
  users := []
  courses := [sampleCourse]
  lessons := [{ courseId := 0, title := "Fractions", body := "", orderIndex := 0, createdAt := 0 }]
  admins := sampleSeed.admins
  distinctUsers := sampleSeed.distinctUsers
  distinctCourses := sampleSeed.distinctCourses
  distinctLessons := List.pairwise_singleton _ _
  coursesOfLessons := by simp

def sampleFortune : Fortune (platform sampleRuntime) where
  choice := fun _ => {}

theorem sample_lessons_hidden :
    reply sampleFortune 0 (LessonsService.findLessonById 5 0)
        (boot sampleRuntime sampleSeed).view =
      reply sampleFortune 0 (LessonsService.findLessonById 5 0)
        (boot sampleRuntime sampleLessonSeed).view := by
  have hnobody (seed : Seed) (courseId : Nat) :
      ¬ Enrolled (boot sampleRuntime seed).view.store 5 courseId := by
    rintro ⟨id, r, hrow, -⟩
    cases hrow
  have hserved : ∀ n, sampleFortune.fault n = none := fun _ => rfl
  obtain ⟨⟨error, hfirst, hsecond, -⟩, -⟩ := lessons_disclose_nothing
    0 0 5 0 0 hserved hserved
    (boot_referential sampleRuntime sampleSeed)
    (boot_referential sampleRuntime sampleLessonSeed)
    (Or.inr fun lesson _ => hnobody _ _) (Or.inr fun lesson _ => hnobody _ _)
    (Or.inr (hnobody _ _)) (Or.inr (hnobody _ _))
  exact hfirst.trans hsecond.symm

end Mes
