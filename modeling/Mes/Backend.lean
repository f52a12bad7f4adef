import Mes.Lessons.LessonsService
import Mes.Notifications.InvitationEmailProcessor
import Mes.Purchases.PurchasesService

/-!
The whole backend: each request with the handler that serves it, and the world
in which it starts. The worker of the email queue is among the handlers: a run of
it is a request, which may come at any time and any number of times. The tables
start with the rows that the migrations seed (users, courses and lessons);
everything else is empty. Roles are checked on the claims of the access token, as
the guards do.
-/

namespace Mes

open Transact

/-- A call of the email worker. What it logs has no effect here. -/
def EmailOp.method {rt : Runtime} : (op : EmailOp) → Method rt op.Res
  | .findById invitationId => do
      let found ← InvitationsRepository.findById invitationId
      pure (.ok (found.map Prod.snd))
  | .markEmailSent invitationId => do
      let affected ← InvitationsRepository.markEmailSent invitationId
      pure (.ok affected)
  | .log _ => pure ()

/-- The email worker on the database of the backend. -/
def EmailCode.method {rt : Runtime} {α : Type} : EmailCode α → Method rt (Except Unit α)
  | .ret a => pure (.ok a)
  | .throw e => pure (.error e)
  | .step op k => do
      let res ← op.method
      EmailCode.method (k res)

/-- The handler of a request. -/
def handler (rt : Runtime) : Request → Method rt Response
  | .signup input requestMeta => do
      let result ← AuthService.signup input requestMeta
      pure (.session result)
  | .login input requestMeta => do
      let result ← AuthService.login input requestMeta
      pure (.session result)
  | .refresh rawToken requestMeta => do
      let result ← AuthService.refresh rawToken requestMeta
      pure (.session result)
  | .logout rawToken => do
      AuthService.logout rawToken
      pure .done
  | .cleanup => AuthService.runCleanup
  | .createPurchase user idempotencyKey body =>
      PurchasesController.post user idempotencyKey body
  | .listMine user => PurchasesController.listMine user
  | .redeem dto => do
      let token ← InvitationsService.redeem dto
      pure (.token token)
  | .listLessonsForCourse user courseId =>
      PurchasesController.requireRole user .student do
        let course ← LessonsService.findLessonsForCourse user.sub courseId
        pure (.course course)
  | .getLesson user lessonId =>
      PurchasesController.requireRole user .student do
        let lesson ← LessonsService.findLessonById user.sub lessonId
        pure (.lesson lesson)
  | .sendInvitationEmail job => do
      let _ ← (InvitationEmailProcessor.process job).method
      pure .done
  | .revokeFamily familyId => do
      AuthService.revokeFamilyTask familyId
      pure .done
  | .rehashIfNeeded userId passwordHash plain => do
      AuthService.rehashIfNeeded userId passwordHash plain
      pure .done

/-- On the database, a run of the worker reads the invitation and marks it if it is unsent. -/
theorem process_method {rt : Runtime} (job : InvitationEmailJob) :
    (InvitationEmailProcessor.process job).method =
      ((InvitationsRepository.findById job.invitationId : Method rt _) >>= fun found =>
        if found.any fun row => row.2.emailSentAt.isNone then do
          let _ ← InvitationsRepository.markEmailSent job.invitationId
          pure (.ok ())
        else pure (.ok ())) := by
  show ((InvitationsRepository.findById job.invitationId : Method rt _).andThen _).andThen _ = _
  rw [Prog.andThen_assoc]
  refine congrArg (Prog.andThen _) (funext fun found => ?_)
  cases found with
  | none => rfl
  | some row =>
      obtain ⟨id, ⟨_, _, _, _, _, _, emailSentAt⟩⟩ := row
      cases emailSentAt with
      | some sentAt => rfl
      | none =>
          show ((InvitationsRepository.markEmailSent job.invitationId :
            Method rt _).andThen _).andThen _ = _
          rw [Prog.andThen_assoc]
          refine congrArg (Prog.andThen _) (funext fun affected => ?_)
          cases affected <;> rfl

/-- The rows that the migrations seed: an administrator and the catalogue. -/
structure Seed where
  users : List User
  courses : List Course
  lessons : List Lesson
  admins : ∀ user ∈ users, user.role = .admin
  distinctUsers : users.Pairwise fun a b => Tbl.clash .users a b = false
  distinctCourses : courses.Pairwise fun a b => Tbl.clash .courses a b = false
  distinctLessons : lessons.Pairwise fun a b => Tbl.clash .lessons a b = false
  coursesOfLessons : ∀ lesson ∈ lessons, lesson.courseId < courses.length

def Seed.rows (seed : Seed) : (t : Tbl) → List t.Row
  | .users => seed.users
  | .courses => seed.courses
  | .lessons => seed.lessons
  | .purchases => []
  | .invitations => []
  | .idempotencyKeys => []
  | .enrolments => []
  | .refreshTokens => []

/-- The backend before its first request. -/
def boot (rt : Runtime) (seed : Seed) : World (schema rt) (platform rt) where
  view :=
    { store :=
        { clock := 0
          table := fun t =>
            { next := (seed.rows t).length
              cell := fun id => { stored := (seed.rows t)[id]?, lock := none } }
          tx := fun _ => none }
      mem := {}
      history := [] }
  procs := []

/-- A store at rest with these rows, numbered from zero. -/
def shelved (rt : Runtime) (now : Time) (rows : (t : Tbl) → List t.Row) :
    Store (schema rt) where
  clock := now
  table := fun t =>
    { next := (rows t).length
      cell := fun id => { stored := (rows t)[id]?, lock := none } }
  tx := fun _ => none

theorem shelved_wf (rt : Runtime) (now : Time) {rows : (t : Tbl) → List t.Row}
    (hdistinct : ∀ t, (rows t).Pairwise fun a b => t.clash a b = false) :
    (shelved rt now rows).Wf := by
  constructor
  · intro t id hnext
    exact ⟨List.getElem?_eq_none hnext, rfl, fun _ => rfl⟩
  · intro p t id r hdraft
    cases hdraft
  · intro p t id r _ hdraft
    cases hdraft
  · intro p x hopen
    cases hopen
  · intro t d i j a b hne ha hb
    have hrow (id : Nat) (r : t.Row) (hfate :
        (((shelved rt now rows).table t).cell id).fate d = some r) :
        ∃ h : id < (rows t).length, (rows t)[id] = r :=
      List.getElem?_eq_some_iff.mp hfate
    obtain ⟨hi, rfl⟩ := hrow i a ha
    obtain ⟨hj, rfl⟩ := hrow j b hb
    rcases Nat.lt_or_gt_of_ne hne with hlt | hgt
    · exact List.pairwise_iff_getElem.mp (hdistinct t) i j hi hj hlt
    · have hclash := List.pairwise_iff_getElem.mp (hdistinct t) j i hj hi hgt
      exact (Tbl.clash_symm t _ _).trans hclash

theorem Seed.distinct (seed : Seed) (t : Tbl) :
    (seed.rows t).Pairwise fun a b => t.clash a b = false := by
  cases t with
  | users => exact seed.distinctUsers
  | courses => exact seed.distinctCourses
  | lessons => exact seed.distinctLessons
  | purchases | invitations | idempotencyKeys | enrolments | refreshTokens =>
      exact List.Pairwise.nil

theorem boot_wf (rt : Runtime) (seed : Seed) : (boot rt seed).view.store.Wf :=
  shelved_wf rt 0 seed.distinct

/-- Any interleaving of any requests leads from one world to the other. -/
abbrev Runs (rt : Runtime) :
    World (schema rt) (platform rt) → World (schema rt) (platform rt) → Prop :=
  Reach (handler rt) (Scope.any fun _ => True)

theorem runs_of_run {rt : Runtime} {schedule : List (Action (platform rt))}
    {w w' : World (schema rt) (platform rt)}
    (hrun : w.run (handler rt) schedule = some w') : Runs rt w w' :=
  World.reach_of_run (fun a _ _ _ => by cases a <;> trivial) hrun

/-- Calls that are left to themselves are a run of the backend. -/
theorem runs_of_calls {rt : Runtime} {sc : Scope (schema rt) (platform rt)}
    {w w' : World (schema rt) (platform rt)} {reqs : List Request}
    (hcalls : Reach (handler rt) sc (w.call (handler rt) reqs) w') : Runs rt w w' := by
  have hany : Runs rt (w.call (handler rt) reqs) w' := by
    refine Relation.ReflTransGen.mono ?_ _ _ hcalls
    rintro u u' ⟨a, hstep, -⟩
    exact ⟨a, hstep, by cases a <;> trivial⟩
  exact (World.call_reach w reqs fun _ _ => trivial).trans hany

/-! ### A runtime to try the backend on -/

/-- SHA-256 digests of a few texts, as far as the sample runs need them. -/
def sampleDigests : List (String × String) :=
  [("T1", "1f93603db53bfad5c92390f735d0cbb8617b4ab8214ae91c5664a3d1e9b009c8"),
    ("T2", "0f617ba98e6a0f426517e51aff86858da592399abcde80b1b5995a6d0b71a055"),
    ("T3", "5dd67f7fb9c529cb28245800137482c9c2fdff9b7d22f54cd3bfa90c59b78481"),
    ("F1", "deae2d4d75857c1081f113bcfc950dca567dd5a2e14e6ac8fb8e5785ff4dd5ec"),
    ("I1", "c2818bc4e5ec4ae4a357a0df6fed73652e169ec676f7d4718cfb6807c5f7d1b0"),
    ("I2", "626d01cde512b039a33fb4b1aa34f43e448fa8b6c41676db5c3c32c0ad45818d")]

def sampleSha256 (raw : String) : String :=
  match sampleDigests.find? fun d => d.1 == raw with
  | some d => d.2
  | none => "?" ++ raw

theorem sampleSha256_injective : Function.Injective sampleSha256 := by
  have hplain : ∀ d ∈ sampleDigests, d.2.toList.head? ≠ some '?' := by decide
  have hpairs : ∀ d ∈ sampleDigests, ∀ d' ∈ sampleDigests, d.2 = d'.2 → d.1 = d'.1 := by
    decide
  have hother (d : String × String) (hd : d ∈ sampleDigests) (raw : String) :
      d.2 ≠ "?" ++ raw := fun heq => hplain d hd (by simp [heq])
  have hfound {raw : String} {d : String × String}
      (hfind : sampleDigests.find? (fun d => d.1 == raw) = some d) :
      d ∈ sampleDigests ∧ d.1 = raw :=
    ⟨List.mem_of_find?_eq_some hfind, by simpa using List.find?_some hfind⟩
  intro s s' hsame
  simp only [sampleSha256] at hsame
  split at hsame <;> split at hsame
  · rename_i d hd _ d' hd'
    obtain ⟨hmem, rfl⟩ := hfound hd
    obtain ⟨hmem', rfl⟩ := hfound hd'
    exact hpairs d hmem d' hmem' hsame
  · rename_i d hd _ _
    exact absurd hsame (hother d (hfound hd).1 s')
  · rename_i _ _ d' hd'
    exact absurd hsame.symm (hother d' (hfound hd').1 s)
  · simpa using hsame

/-- Texts that are already in normal form, and a request body that is the email
of the student. -/
def sampleRuntime : Runtime where
  sha256 := sampleSha256
  argon2Hash := fun plain salt => salt ++ plain
  argon2Verify := fun digest plain => some (digest == plain)
  argon2NeedsRehash := fun _ => false
  trim := id
  toLowerCase := id
  encodeURIComponent := id
  toISOString := fun time => toString time
  isInet := fun ip => ip == "127.0.0.1"
  isDate := fun _ => true
  canonicaliseBody := id
  createPurchaseDto := fun body => some { courseId := 0, studentEmail := body }
  invitationBaseUrl := "http://localhost:4200"
  jwtExpiresInSeconds := 900
  normalise_empty := rfl

def sampleCourse : Course where
  subject := .maths
  yearFrom := 3
  yearTo := 4
  title := "Maths"
  pricePence := 1999

def sampleSeed : Seed where
  users := []
  courses := [sampleCourse]
  lessons := []
  admins := by simp
  distinctUsers := List.Pairwise.nil
  distinctCourses := List.pairwise_singleton _ _
  distinctLessons := List.Pairwise.nil
  coursesOfLessons := by simp

end Mes
