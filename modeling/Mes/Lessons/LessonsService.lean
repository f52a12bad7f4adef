import Mes.Courses.CoursesService

/-!
`LessonsService`: the lessons of a course and a single lesson, for students that
are enrolled. A lesson that does not exist and a lesson of a foreign course end
with the same error, which carries only what the caller supplied.
-/

namespace Mes

open Transact

namespace LessonsService

variable {rt : Runtime}

def assertEnrolled (userId courseId : Nat) :
    Method rt (Entity .enrolments × Option (Entity .courses)) := do
  match ← EnrolmentsRepository.findByStudentAndCourseWithCourse userId courseId with
  | none => throwDomain (.notEnrolled [("userId", userId), ("courseId", courseId)])
  | some enrolment => pure enrolment

def toLessonResponse (rt : Runtime) (lesson : Entity .lessons) : LessonResponse where
  id := lesson.1
  courseId := lesson.2.courseId
  title := lesson.2.title
  body := lesson.2.body
  orderIndex := lesson.2.orderIndex
  createdAt := rt.toISOString lesson.2.createdAt

def orphanedEnrolment (userId courseId : Nat) : DomainError :=
  .dataIntegrity ("Enrolment for userId=" ++ toString userId ++ " courseId=" ++
    toString courseId ++ " has no course relation — data integrity violation.")
    [("userId", userId), ("courseId", courseId)]

def toCourseResponse (course : Entity .courses) : CourseResponse where
  id := course.1
  subject := course.2.subject
  yearFrom := course.2.yearFrom
  yearTo := course.2.yearTo
  title := course.2.title
  pricePence := course.2.pricePence

def findEnrolledCoursesForUser (userId : Nat) : Method rt (List CourseResponse) := do
  let courses ← EnrolmentsRepository.findCoursesForStudent userId
  pure (courses.map toCourseResponse)

def findLessonsForCourse (userId courseId : Nat) :
    Method rt CourseWithLessonsResponse := do
  let enrolment ← assertEnrolled userId courseId
  let lessons ← LessonsRepository.findByCourseId courseId
  match enrolment.2 with
  | none => throwDomain (orphanedEnrolment userId courseId)
  | some course =>
      pure
        { id := course.1
          subject := course.2.subject
          yearFrom := course.2.yearFrom
          yearTo := course.2.yearTo
          title := course.2.title
          pricePence := course.2.pricePence
          lessons := lessons.map (toLessonResponse rt) }

def findLessonById (userId lessonId : Nat) : Method rt LessonResponse := do
  let hidden : DomainError := .notEnrolled [("userId", userId), ("lessonId", lessonId)]
  let lesson ← (LessonsRepository.findByIdOrFail lessonId).attempt fun error =>
    match error with
    | .domain (.lessonNotFound _) => throwDomain hidden
    | _ => .throw error
  let _ ← (assertEnrolled userId lesson.2.courseId).attempt fun error =>
    match error with
    | .domain (.notEnrolled _) => throwDomain hidden
    | _ => .throw error
  pure (toLessonResponse rt lesson)

end LessonsService

end Mes
