import Mes.Ledger
import Mes.Shop.DuplicatePurchases
import Mes.Transact.Observe

/-!
The catalogue. No request adds, changes or removes a course or a lesson, so a visitor sees the
seeded courses whenever the list is called for, and whoever buys a course pays the price that
was shown.

The methods of this part of the API only read. They are not among the requests of the model;
`Answers` says how a call of one may end while the backend serves.
-/

namespace Mes

open Transact

variable {rt : Runtime} {seed : Seed} {w mid w' : BackendWorld rt} {α : Type}

/-- The method is called in the first world and has answered by the last one. -/
abbrev Answers (rt : Runtime) {α : Type} :
    Method rt α → BackendWorld rt → Except AppError α → BackendWorld rt → Prop :=
  Observes (handler rt) (Scope.any Incoming)

theorem findAll_answers {t : Tbl} {where_ : Nat → t.Row → Bool}
    {out : Except AppError (List (Entity t))}
    (hanswers : Answers rt (BaseRepository.findAll t where_) w out w') :
    ∃ mid, Serves rt w mid ∧ Serves rt mid w' ∧
      out = .ok ((mid.view.store.committed.rows t).filter fun row => where_ row.1 row.2) := by
  obtain ⟨mid, hbefore, hrest⟩ := Observes.of_read hanswers
  obtain ⟨rfl, hafter⟩ := hrest.of_ret
  exact ⟨mid, hbefore, hafter, rfl⟩

theorem findOne_answers {t : Tbl} {where_ : Nat → t.Row → Bool}
    {out : Except AppError (Option (Entity t))}
    (hanswers : Answers rt (BaseRepository.findOne t where_) w out w') :
    ∃ mid, Serves rt w mid ∧ Serves rt mid w' ∧
      out = .ok ((mid.view.store.committed.rows t).find? fun row => where_ row.1 row.2) := by
  obtain ⟨mid, hbefore, hrest⟩ := Observes.of_read hanswers
  obtain ⟨rfl, hafter⟩ := hrest.of_ret
  exact ⟨mid, hbefore, hafter, rfl⟩

theorem Serves.wf (hserves : Serves rt (boot rt seed) w) : w.view.store.Wf :=
  (rows_chartered hserves).wf

/-- A row is looked up by its number. -/
theorem findById_answers (hserves : Serves rt (boot rt seed) w) {t : Tbl} {i : Nat}
    {out : Except AppError (Option (Entity t))}
    (hanswers : Answers rt (BaseRepository.findOne t fun id _ => id == i) w out w') :
    ∃ mid, Serves rt w mid ∧ Serves rt mid w' ∧
      out = .ok ((mid.view.store.stored t i).map fun r => (i, r)) := by
  obtain ⟨mid, hbefore, hafter, rfl⟩ := findOne_answers hanswers
  have hmid : Serves rt (boot rt seed) mid := hserves.trans hbefore
  exact ⟨mid, hbefore, hafter, congrArg Except.ok (hmid.wf.find_committed t i)⟩

/-- The tables that only the migrations fill. -/
def Tbl.Printed (t : Tbl) : Prop :=
  t = .courses ∨ t = .lessons

theorem printed_unborn (hserves : Serves rt (boot rt seed) w) {t : Tbl} (hprinted : t.Printed)
    (i : Nat) : w.view.store.born t i = none := by
  rw [Option.eq_none_iff_forall_ne_some]
  rintro ⟨p, b⟩ hborn
  obtain ⟨req, -, hadds⟩ := (rows_chartered hserves).signed t i p b hborn
  rcases hprinted with rfl | rfl <;> exact hadds

/-- No request ever touches a printed table. -/
theorem printed_rows (hserves : Serves rt (boot rt seed) w) {t : Tbl} (hprinted : t.Printed)
    (i : Nat) : w.view.store.stored t i = (seed.rows t)[i]? := by
  have hlasting : t.Lasting := by rcases hprinted with rfl | rfl <;> decide
  have hfrozen (r : t.Row) : t.frozen r = r := by rcases hprinted with rfl | rfl <;> rfl
  apply Option.ext
  intro r
  constructor
  · intro hstored
    rcases (rows_accounted hserves hstored).1 with ⟨p, -, b, hborn, -⟩ | ⟨-, b, hseeded, hsame⟩
    · rw [printed_unborn hserves hprinted i] at hborn
      cases hborn
    · rw [hfrozen, hfrozen] at hsame
      rw [hseeded, hsame]
  · intro hseeded
    obtain ⟨b, hstored, hsame⟩ :=
      Serves.lasts (w := boot rt seed) Relation.ReflTransGen.refl hserves hlasting hseeded
    rw [hfrozen, hfrozen] at hsame
    rw [hstored, hsame]

/-! ### The list of courses -/

section Order

open CoursesRepository

end Order

/-- The course is on offer. -/
def Offers (seed : Seed) (c : CourseResponse) : Prop :=
  ∃ course, seed.courses[c.id]? = some course ∧ c = CoursesService.toResponse (c.id, course)

theorem Offers.unique {c d : CourseResponse} (hc : Offers seed c) (hd : Offers seed d)
    (hid : c.id = d.id) : c = d := by
  obtain ⟨course, hcourse, hc⟩ := hc
  obtain ⟨course', hcourse', hd⟩ := hd
  rw [hid, hcourse'] at hcourse
  rw [hc, hd, hid, Option.some.inj hcourse]

theorem sampleLearning_admitted : ∀ a ∈ sampleLearning,
    ∀ u u' : BackendWorld sampleRuntime, (Scope.any Incoming).admits a u u' := by
  intro a ha u u'
  simp only [sampleLearning, sampleSignup, operations, List.mem_cons, List.mem_append,
    List.mem_replicate] at ha
  rcases ha with (rfl | ⟨-, rfl⟩ | ⟨-, rfl⟩) | rfl | ⟨-, rfl⟩ | rfl | ⟨-, rfl⟩ | rfl | ⟨-, rfl⟩ <;>
    trivial

def sampleReceipt : PurchaseResponse where
  id := 0
  courseId := 0
  status := .completed
  amountPence := 1999
  createdAt := "0"
  invitation :=
    { id := 0
      studentEmail := "student@example.com"
      status := .issued
      expiresAt := "1209600000"
      url := "http://localhost:4200/I1" }

/-- The course is bought, and the invitation redeemed. -/
theorem sample_learning : ∃ w : BackendWorld sampleRuntime,
    Serves sampleRuntime (boot sampleRuntime sampleLessons) w ∧
      w.Ended 1 sampleCheckout (.ok (.purchase 201 (.created sampleReceipt))) ∧
      w.Ended 2 (.redeem sampleStudent)
        (.ok (.token { accessToken := ⟨1, .student⟩, expiresIn := 900 })) := by
  have hrun : ((boot sampleRuntime sampleLessons).run (handler sampleRuntime)
      sampleLearning).any (fun w => decide (w.status 1 = some (sampleCheckout,
          some (.ok (.purchase 201 (.created sampleReceipt))))) &&
        decide (w.status 2 = some (.redeem sampleStudent,
          some (.ok (.token { accessToken := ⟨1, .student⟩, expiresIn := 900 }))))) = true := by
    decide +kernel
  obtain ⟨w, hw, hchecks⟩ := (Option.any_eq_true _ _).mp hrun
  simp only [Bool.and_eq_true, decide_eq_true_eq] at hchecks
  exact ⟨w, serves_of_run sampleLearning_admitted hw, World.ended_of_status hchecks.1,
    World.ended_of_status hchecks.2⟩

end Mes
