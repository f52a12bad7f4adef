import Mes.Purchases.PurchasesService

/-!
`CoursesService`: the public catalogue. Its `findByIdOrThrow` is `findCourseOrThrow`, by which
the purchases look up their courses.
-/

namespace Mes

open Transact

structure CourseResponse where
  id : Nat
  subject : CourseSubject
  yearFrom : Nat
  yearTo : Nat
  title : String
  pricePence : Nat
  deriving DecidableEq, Repr

namespace CoursesService

variable {rt : Runtime}

def toResponse (row : Entity .courses) : CourseResponse where
  id := row.1
  subject := row.2.subject
  yearFrom := row.2.yearFrom
  yearTo := row.2.yearTo
  title := row.2.title
  pricePence := row.2.pricePence

end CoursesService

end Mes
