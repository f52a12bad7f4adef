import Mes.Admin.Paging
import Mes.Backend

/-!
`AdminService`: the four lists of the administrator. Each page is one `findAndCount`,
ordered by `created_at` only. The tables do not change while they are listed; `AdminTables`
holds them with the columns that the lists show, keyed by their identifiers. The caller,
whose identifier is only logged, is left out.
-/

namespace Mes

open Transact Paging

/-- An entity with its key and `created_at`. The row of a purchase holds its `created_at`
itself. -/
structure Dated (ρ : Type) where
  id : Nat
  row : ρ
  createdAt : Time
  deriving DecidableEq, Repr

structure AdminTables where
  users : List (Dated User)
  purchaseRows : List (Nat × Purchase)
  courses : List (Dated Course)
  usersKeyed : (users.map Dated.id).Nodup
  purchasesKeyed : (purchaseRows.map Prod.fst).Nodup
  coursesKeyed : (courses.map Dated.id).Nodup

def AdminTables.purchases (db : AdminTables) : List (Dated Purchase) :=
  db.purchaseRows.map fun row => { id := row.1, row := row.2, createdAt := row.2.createdAt }

structure AdminListRequest where
  page : Nat
  limit : Nat
  deriving DecidableEq, Repr

structure Paginated (ρ : Type) where
  data : List ρ
  total : Nat
  page : Nat
  limit : Nat
  deriving DecidableEq, Repr

structure AdminParentRow where
  id : Nat
  email : String
  firstName : Option String
  lastName : Option String
  createdAt : String
  deriving DecidableEq, Repr

structure AdminStudentRow where
  id : Nat
  email : String
  firstName : Option String
  lastName : Option String
  dateOfBirth : Option String
  createdAt : String
  deriving DecidableEq, Repr

structure AdminPurchaseRow where
  id : Nat
  parentId : Nat
  courseId : Nat
  status : PurchaseStatus
  amountPence : Nat
  createdAt : String
  deriving DecidableEq, Repr

structure AdminCourseRow where
  id : Nat
  title : String
  subject : CourseSubject
  yearFrom : Nat
  yearTo : Nat
  pricePence : Nat
  createdAt : String
  deriving DecidableEq, Repr

/-- How one query arranges the rows it matches. -/
abbrev Newest {ρ : Type} (rows : List (Dated ρ)) := NewestFirst (E := Dated ρ) Dated.createdAt rows

/-- `findAndCount` with `order: { createdAt: 'DESC' }`. -/
def findAndCount {ρ : Type} {rows : List (Dated ρ)} (answer : Newest rows)
    (skip take : Nat) : List (Dated ρ) × Nat :=
  (Paging.page answer.order skip take, rows.length)

namespace AdminService

def paginate {ε ρ : Type} (request : AdminListRequest) (fetcher : Nat → Nat → List ε × Nat)
    (mapper : ε → ρ) : Paginated ρ :=
  let skip := (request.page - 1) * request.limit
  let (rows, total) := fetcher skip request.limit
  { data := rows.map mapper, total := total, page := request.page, limit := request.limit }

def toParentRow (rt : Runtime) (user : Dated User) : AdminParentRow where
  id := user.id
  email := user.row.email
  firstName := user.row.firstName
  lastName := user.row.lastName
  createdAt := rt.toISOString user.createdAt

def toStudentRow (rt : Runtime) (user : Dated User) : AdminStudentRow where
  id := user.id
  email := user.row.email
  firstName := user.row.firstName
  lastName := user.row.lastName
  dateOfBirth := user.row.dateOfBirth
  createdAt := rt.toISOString user.createdAt

def toPurchaseRow (rt : Runtime) (purchase : Dated Purchase) : AdminPurchaseRow where
  id := purchase.id
  parentId := purchase.row.parentUserId
  courseId := purchase.row.courseId
  status := purchase.row.status
  amountPence := purchase.row.amountPence
  createdAt := rt.toISOString purchase.createdAt

def toCourseRow (rt : Runtime) (course : Dated Course) : AdminCourseRow where
  id := course.id
  title := course.row.title
  subject := course.row.subject
  yearFrom := course.row.yearFrom
  yearTo := course.row.yearTo
  pricePence := course.row.pricePence
  createdAt := rt.toISOString course.createdAt

/-- The rows that `findPaginatedByRole` matches. -/
def withRole (db : AdminTables) (role : UserRole) : List (Dated User) :=
  db.users.filter fun user => user.row.role == role

def listParents (rt : Runtime) (db : AdminTables) (request : AdminListRequest)
    (answer : Newest (withRole db .parent)) : Paginated AdminParentRow :=
  paginate request (findAndCount answer) (toParentRow rt)

def listStudents (rt : Runtime) (db : AdminTables) (request : AdminListRequest)
    (answer : Newest (withRole db .student)) : Paginated AdminStudentRow :=
  paginate request (findAndCount answer) (toStudentRow rt)

def listPurchases (rt : Runtime) (db : AdminTables) (request : AdminListRequest)
    (answer : Newest db.purchases) : Paginated AdminPurchaseRow :=
  paginate request (findAndCount answer) (toPurchaseRow rt)

def listCourses (rt : Runtime) (db : AdminTables) (request : AdminListRequest)
    (answer : Newest db.courses) : Paginated AdminCourseRow :=
  paginate request (findAndCount answer) (toCourseRow rt)

end AdminService

section Listing

variable {ρ σ : Type} {rows : List (Dated ρ)}

/-- The data of the pages `1 .. ceil(total / limit)`, each of them a request. -/
def allPages (list : AdminListRequest → Newest rows → Paginated σ) (limit : Nat)
    (answer : Nat → Newest rows) : List σ :=
  (List.range (pageCount rows.length limit)).flatMap fun k =>
    (list { page := k + 1, limit := limit } (answer k)).data

/-- Every row is listed exactly once, however the queries arrange the rows. -/
def ListsAll (list : AdminListRequest → Newest rows → Paginated σ) (mapper : Dated ρ → σ)
    (limit : Nat) : Prop :=
  ∀ answer : Nat → Newest rows, (allPages list limit answer).Perm (rows.map mapper)

/-- No page ends between two rows of one creation time. -/
def Untied (rows : List (Dated ρ)) (limit : Nat) : Prop :=
  ∀ k, ¬ Splits Dated.createdAt rows (k * limit)

theorem allPages_paginate (mapper : Dated ρ → σ) (limit : Nat) (answer : Nat → Newest rows) :
    allPages (fun request answer => AdminService.paginate request (findAndCount answer) mapper)
      limit answer = (listing limit answer).map mapper := by
  unfold allPages listing
  rw [List.map_flatMap]
  rfl

/-- One list of the administrator. The key of a row is part of what is shown. -/
theorem listsAll_iff {mapper : Dated ρ → σ} {limit : Nat} (shownId : σ → Nat)
    (hshown : ∀ row, shownId (mapper row) = row.id) (hkeyed : (rows.map Dated.id).Nodup)
    (hlimit : 0 < limit) :
    ListsAll (fun request (answer : Newest rows) =>
        AdminService.paginate request (findAndCount answer) mapper) mapper limit ↔
      Untied rows limit := by
  have hrows : (rows.map mapper).Nodup := by
    refine List.Nodup.of_map shownId ?_
    rw [List.map_map]
    exact (List.map_congr_left (fun row _ => hshown row)).symm ▸ hkeyed
  constructor
  · intro hall k hsplits
    obtain ⟨answer, hrepeats⟩ := listing_repeats hlimit hsplits
    have hperm := hall answer
    rw [allPages_paginate] at hperm
    exact hrepeats (List.Nodup.of_map mapper (hperm.nodup_iff.mpr hrows))
  · intro huntied answer
    rw [allPages_paginate]
    exact (listing_perm hlimit huntied answer).map mapper

end Listing

/-- The lists of the administrator lose and repeat nothing exactly when no page of theirs
ends between two rows that were created at the same time. -/
theorem admin_lists_complete_iff (rt : Runtime) (db : AdminTables) {limit : Nat}
    (hlimit : 1 ≤ limit) :
    (ListsAll (AdminService.listParents rt db) (AdminService.toParentRow rt) limit ↔
        Untied (AdminService.withRole db .parent) limit) ∧
      (ListsAll (AdminService.listStudents rt db) (AdminService.toStudentRow rt) limit ↔
        Untied (AdminService.withRole db .student) limit) ∧
      (ListsAll (AdminService.listPurchases rt db) (AdminService.toPurchaseRow rt) limit ↔
        Untied db.purchases limit) ∧
      (ListsAll (AdminService.listCourses rt db) (AdminService.toCourseRow rt) limit ↔
        Untied db.courses limit) := by
  have husers (role : UserRole) : ((AdminService.withRole db role).map Dated.id).Nodup :=
    db.usersKeyed.sublist (List.filter_sublist.map _)
  have hpurchases : (db.purchases.map Dated.id).Nodup := by
    rw [AdminTables.purchases, List.map_map]
    exact db.purchasesKeyed
  exact ⟨listsAll_iff AdminParentRow.id (fun _ => rfl) (husers .parent) hlimit,
    listsAll_iff AdminStudentRow.id (fun _ => rfl) (husers .student) hlimit,
    listsAll_iff AdminPurchaseRow.id (fun _ => rfl) hpurchases hlimit,
    listsAll_iff AdminCourseRow.id (fun _ => rfl) db.coursesKeyed hlimit⟩

/-- Two courses that one migration has seeded. -/
def sampleCatalogue : AdminTables where
  users := []
  purchaseRows := []
  courses := [⟨0, sampleCourse, 0⟩, ⟨1, { sampleCourse with subject := .english }, 0⟩]
  usersKeyed := List.nodup_nil
  purchasesKeyed := List.nodup_nil
  coursesKeyed := by decide

theorem admin_lists_complete_sample :
    ListsAll (AdminService.listCourses sampleRuntime sampleCatalogue)
        (AdminService.toCourseRow sampleRuntime) 1 ↔
      Untied sampleCatalogue.courses 1 :=
  (admin_lists_complete_iff sampleRuntime sampleCatalogue (Nat.le_refl 1)).2.2.2

/-- Each of two queries puts the same course where its page looks. -/
def sampleArrangement (k : Nat) : Newest sampleCatalogue.courses where
  order := if k = 0 then sampleCatalogue.courses else sampleCatalogue.courses.reverse
  perm := by
    split
    · exact List.Perm.refl _
    · exact List.reverse_perm _
  sorted := by
    split <;> simp [sampleCatalogue]

/-- With one course to a page, the first course is listed twice and the second never. -/
theorem admin_list_repeats :
    allPages (AdminService.listCourses sampleRuntime sampleCatalogue) 1 sampleArrangement =
        [AdminService.toCourseRow sampleRuntime ⟨0, sampleCourse, 0⟩,
          AdminService.toCourseRow sampleRuntime ⟨0, sampleCourse, 0⟩] ∧
      ¬ ListsAll (AdminService.listCourses sampleRuntime sampleCatalogue)
        (AdminService.toCourseRow sampleRuntime) 1 := by
  have hpages : allPages (AdminService.listCourses sampleRuntime sampleCatalogue) 1
      sampleArrangement = [AdminService.toCourseRow sampleRuntime ⟨0, sampleCourse, 0⟩,
        AdminService.toCourseRow sampleRuntime ⟨0, sampleCourse, 0⟩] := rfl
  refine ⟨hpages, fun hall => ?_⟩
  have hperm := hall sampleArrangement
  rw [hpages] at hperm
  have hrows : (sampleCatalogue.courses.map
      (AdminService.toCourseRow sampleRuntime)).Nodup := by decide
  have hnodup := hperm.nodup_iff.mpr hrows
  simp at hnodup

end Mes
