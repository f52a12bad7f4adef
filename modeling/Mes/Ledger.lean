import Mes.Auth.EveryAccount
import Mes.HandlerMandates
import Mes.Shop.RedeemOnce
import Mes.Lessons.Enumeration

/-!
The books of the backend over whole runs. Any requests may arrive in any order and be
interleaved in any way. Every row is there because a request inserted it that may do so, and
every change of a row was committed by a request that may make it.

Whoever holds an access token goes back to the password of the account: the request gave it,
or it presented a refresh token that descends from a session opened with it.
-/

namespace Mes

open Transact

variable {rt : Runtime} {seed : Seed} {w w' fin : BackendWorld rt}

/-- Any interleaving of any requests from outside and any cleanups. -/
abbrev Serves (rt : Runtime) : BackendWorld rt → BackendWorld rt → Prop :=
  Reach (handler rt) (Scope.any Incoming)

theorem Serves.runs (hserves : Serves rt w w') : Runs rt w w' := by
  refine Relation.ReflTransGen.mono ?_ _ _ hserves
  rintro u u' ⟨a, hstep, -⟩
  exact ⟨a, hstep, by cases a <;> trivial⟩

theorem serves_of_run {schedule : List (Action (platform rt))}
    (hadmitted : ∀ a ∈ schedule, ∀ u u' : BackendWorld rt, (Scope.any Incoming).admits a u u')
    (hrun : w.run (handler rt) schedule = some w') : Serves rt w w' :=
  World.reach_of_run hadmitted hrun

/-! ### The books are kept -/

/-- The seeded rows are not recorded as inserted. -/
theorem unborn_seed (hserves : Serves rt (boot rt seed) fin) {t : Tbl} {i : Nat}
    (hseeded : i < (seed.rows t).length) : fin.view.store.born t i = none := by
  obtain ⟨-, -, hafter⟩ := Reach.born_after (t := t) (n := (seed.rows t).length)
    (boot_wf rt seed) (le_refl _) nofun hserves
  rw [Option.eq_none_iff_forall_ne_some]
  intro b hborn
  exact absurd (hafter i b hborn) (Nat.not_le_of_lt hseeded)

theorem boot_holds (hserves : Serves rt (boot rt seed) fin) (t : Tbl) (i : Nat) (r : t.Row)
    (hstored : (boot rt seed).view.store.stored t i = some r) :
    Agrees seed fin t i r ∧ Guarded seed fin t i r := by
  have hseeded : (seed.rows t)[i]? = some r := hstored
  have hunborn := unborn_seed hserves (List.getElem?_eq_some_iff.mp hseeded).1
  constructor
  · refine ⟨r, ?_, rfl⟩
    rw [origin, hunborn]
    exact hseeded
  · cases t with
    | users => exact fun _ plain hverify => Or.inr ⟨hunborn, r, hseeded, hverify⟩
    | courses | lessons | purchases | invitations | idempotencyKeys | enrolments
    | refreshTokens => trivial

theorem boot_anchored (rt : Runtime) (seed : Seed) :
    (boot rt seed).view.store.Anchored Tbl.Lasting where
  rows := fun t i r hstored ref href _ => boot_referential rt seed t i r hstored ref href
  drafts := fun _ _ _ _ hdraft => by cases hdraft
  kept := fun _ _ _ _ hdraft => by cases hdraft

theorem boot_kept (hserves : Serves rt (boot rt seed) fin) :
    (charter seed fin).Kept (Earns seed fin) Refuses (boot rt seed) where
  rows :=
    { wf := boot_wf rt seed
      anchored := boot_anchored rt seed
      mem := trivial
      versions := fun _ _ _ _ hdraft => by cases hdraft
      placed := ⟨boot_holds hserves, fun _ _ _ _ hdraft => by cases hdraft⟩
      signed := fun _ _ _ _ hborn => by cases hborn }
  progs := fun _ _ hproc => by cases hproc

/-- The hash of a new account is made from the password of the request. -/
theorem guarded_born {p : Pid} {req : Request} {t : Tbl} {i : Nat} {r : t.Row}
    (hreq : fin.requests p = some req) (hborn : fin.view.store.born t i = some (p, r))
    (hadds : Adds seed fin p req t i r) : Guarded seed fin t i r := by
  cases t with
  | users =>
      intro hhonest other hverify
      cases req with
      | signup input requestMeta =>
          obtain ⟨salt, rfl⟩ := hadds
          refine Or.inl ⟨p, _, _, hborn, hreq, ?_⟩
          rw [(newParent_fields input _).1] at hverify
          exact hhonest input.password salt other hverify
      | redeem dto =>
          obtain ⟨-, k, invitation, salt, -, rfl⟩ := hadds
          refine Or.inl ⟨p, _, _, hborn, hreq, ?_⟩
          rw [(newStudent_fields dto _ _).1] at hverify
          exact hhonest dto.password salt other hverify
      | login | refresh | logout | cleanup | createPurchase | listMine | listLessonsForCourse
      | getLesson | sendInvitationEmail | revokeFamily | rehashIfNeeded => exact hadds.elim
  | courses | lessons | purchases | invitations | idempotencyKeys | enrolments
  | refreshTokens => trivial

theorem ratified (seed : Seed) (fin : BackendWorld rt) :
    (charter seed fin).Ratified (Earns seed fin) Refuses (handler rt) fin where
  births := by
    intro p req t i r hreq hborn hadds
    refine ⟨hborn, ⟨r, ?_, rfl⟩, guarded_born hreq hborn hadds⟩
    rw [origin, hborn]
  minds := fun p req hreq hstarts => handler_minding hreq hstarts

/-- A request from outside needs no permission. -/
theorem Incoming.starts {req : Request} (hincoming : Incoming req) : Starts seed fin req := by
  cases req with
  | rehashIfNeeded | revokeFamily => exact hincoming.elim
  | signup | login | refresh | logout | cleanup | createPurchase | listMine | redeem
  | listLessonsForCourse | getLesson | sendInvitationEmail => trivial

/-- Every world on the way keeps the books of the last one. -/
theorem kept_of_serves (hserves : Serves rt (boot rt seed) w) (hlater : Serves rt w fin) :
    (charter seed fin).Kept (Earns seed fin) Refuses w :=
  (boot_kept (hserves.trans hlater)).reach (ratified seed fin) (fun _ => Incoming.starts) hserves
    hlater

theorem rows_chartered (hserves : Serves rt (boot rt seed) w) :
    (charter seed w).Rows w.requests w.view :=
  (kept_of_serves hserves Relation.ReflTransGen.refl).rows

/-- A row is there because it was seeded, or because a request inserted it that may do so.
What the row keeps is as it was inserted. -/
def Accounted (seed : Seed) (w : BackendWorld rt) (t : Tbl) (i : Nat) (r : t.Row) : Prop :=
  (∃ p req b, w.view.store.born t i = some (p, b) ∧ w.requests p = some req ∧
    Adds seed w p req t i b ∧ t.frozen r = t.frozen b) ∨
  w.view.store.born t i = none ∧ ∃ b, (seed.rows t)[i]? = some b ∧ t.frozen r = t.frozen b

theorem Agrees.cases {t : Tbl} {i : Nat} {r : t.Row} (hagrees : Agrees seed w t i r) :
    (∃ p b, w.view.store.born t i = some (p, b) ∧ t.frozen r = t.frozen b) ∨
      w.view.store.born t i = none ∧ ∃ b, (seed.rows t)[i]? = some b ∧
        t.frozen r = t.frozen b := by
  obtain ⟨b, horigin, hsame⟩ := hagrees
  rw [origin] at horigin
  cases hborn : w.view.store.born t i with
  | none =>
      rw [hborn] at horigin
      exact Or.inr ⟨rfl, b, horigin, hsame⟩
  | some pb =>
      rw [hborn] at horigin
      obtain rfl := Option.some.inj horigin
      exact Or.inl ⟨pb.1, pb.2, rfl, hsame⟩

theorem Agrees.accounted {t : Tbl} {i : Nat} {r : t.Row} (hagrees : Agrees seed w t i r)
    (hserves : Serves rt (boot rt seed) w) : Accounted seed w t i r := by
  refine hagrees.cases.imp_left ?_
  rintro ⟨p, b, hborn, hsame⟩
  obtain ⟨req, hreq, hadds⟩ :=
    (rows_chartered hserves).signed t i p b hborn
  exact ⟨p, req, b, hborn, hreq, hadds, hsame⟩

/-- Every committed row is accounted for, and it refers only to committed rows. -/
theorem rows_accounted (hserves : Serves rt (boot rt seed) w) {t : Tbl} {i : Nat} {r : t.Row}
    (hstored : w.view.store.stored t i = some r) :
    Accounted seed w t i r ∧ ∀ ref ∈ t.refs r, ref.1 ≠ .refreshTokens →
      (w.view.store.stored ref.1 ref.2).isSome = true := by
  have hrows := rows_chartered hserves
  exact ⟨(hrows.placed.rows t i r hstored).1.accounted hserves, hrows.anchored.rows t i r hstored⟩

/-- A committed row changes only when a program commits whose request may change it, as the
last world has it. -/
theorem changes_ratified (hserves : Serves rt (boot rt seed) w) {act : Action (platform rt)}
    (hstep : w.step (handler rt) act = some w') (hadmits : (Scope.any Incoming).admits act w w')
    (hlater : Serves rt w' fin) {t : Tbl} {i : Nat} {a : t.Row}
    (hstored : w.view.store.stored t i = some a) :
    w'.view.store.stored t i = some a ∨ ∃ p choice req k y, act = .run p choice ∧
      w.procs[p]? = some { req := req, prog := .step (.sql .commit) k } ∧
      w.view.store.tx p = some y ∧ Starts seed fin req ∧
        Mandate seed fin req t i y.startedAt a (w'.view.store.stored t i) := by
  have hkept := kept_of_serves hserves (Relation.ReflTransGen.head ⟨act, hstep, hadmits⟩ hlater)
  refine (hkept.changes hstep hstored).imp_right ?_
  rintro ⟨p, choice, req, k, y, rfl, hproc, hopen, hpermits⟩
  exact ⟨p, choice, req, k, y, rfl, hproc, hopen, (hkept.progs p _ hproc).1, hpermits⟩

/-- A committed row changes only when a program commits whose request may change it. -/
theorem changes_mandated (hserves : Serves rt (boot rt seed) w)
    (hmoves : Moves (handler rt) (Scope.any Incoming) w w') {t : Tbl} {i : Nat} {a : t.Row}
    (hstored : w.view.store.stored t i = some a) :
    w'.view.store.stored t i = some a ∨ ∃ p choice req k y,
      w.step (handler rt) (.run p choice) = some w' ∧
      w.procs[p]? = some { req := req, prog := .step (.sql .commit) k } ∧
      w.view.store.tx p = some y ∧ Starts seed w' req ∧
        Mandate seed w' req t i y.startedAt a (w'.view.store.stored t i) := by
  obtain ⟨act, hstep, hadmits⟩ := hmoves
  refine (changes_ratified hserves hstep hadmits Relation.ReflTransGen.refl hstored).imp_right ?_
  rintro ⟨p, choice, req, k, y, rfl, hrest⟩
  exact ⟨p, choice, req, k, y, hstep, hrest⟩

/-- A committed row of any table but the refresh tokens is there for good, and keeps what it
was inserted with. -/
theorem Serves.lasts (hserves : Serves rt (boot rt seed) w) (hlater : Serves rt w w') {t : Tbl}
    (hlasting : t.Lasting) {i : Nat} {a : t.Row} (hstored : w.view.store.stored t i = some a) :
    ∃ b, w'.view.store.stored t i = some b ∧ t.frozen b = t.frozen a := by
  induction hlater with
  | refl => exact ⟨a, hstored, rfl⟩
  | tail hbefore hmoves ih =>
      obtain ⟨b, hb, hsame⟩ := ih
      obtain ⟨act, hstep, hadmits⟩ := hmoves
      rcases changes_ratified (hserves.trans hbefore) hstep hadmits Relation.ReflTransGen.refl hb
        with hkept | ⟨p, choice, req, k, y, -, -, -, -, hchange⟩
      · exact ⟨b, hkept, hsame⟩
      · rename_i w₂
        cases hrow : w₂.view.store.stored t i with
        | none =>
            rw [hrow] at hchange
            exact absurd hchange (mandate_lasts t i hlasting)
        | some c =>
            rw [hrow] at hchange
            exact ⟨c, rfl, (mandate_frozen t i hchange).trans hsame⟩

/-! ### A run -/

/-- The parent who signed up comes back with the token `T1`. -/
def sampleReturning (count : Nat) : List (Action (platform loginRuntime)) :=
  sampleOpening ++ .spawn (.refresh "T1" sampleMeta) ::
    List.replicate count (.run 1 { text := "T2" })

theorem sampleReturning_admitted (count : Nat) : ∀ a ∈ sampleReturning count,
    ∀ u u' : BackendWorld loginRuntime, (Scope.any Incoming).admits a u u' := by
  intro a ha u u'
  simp only [sampleReturning, sampleOpening, List.mem_cons, List.mem_append,
    List.mem_replicate] at ha
  rcases ha with (rfl | ⟨-, rfl⟩ | ⟨-, rfl⟩) | rfl | ⟨-, rfl⟩ <;> trivial

theorem loginRuntime_honest : HonestVerify loginRuntime := by
  intro plain salt other hverify
  have hsame : (plain == other) = true := Option.some.inj hverify
  exact (beq_iff_eq.mp hsame).symm

theorem sample_returning : ∃ w : BackendWorld loginRuntime,
    Serves loginRuntime (boot loginRuntime sampleSeed) w ∧
      w.Ended 1 (.refresh "T1" sampleMeta) (.ok (.session (sampleSession "T2"))) ∧
      (w.view.store.stored Tbl.refreshTokens 0).isSome = true := by
  have hrun : ((boot loginRuntime sampleSeed).run (handler loginRuntime) (sampleReturning 11)).any
      (fun w => decide (w.status 1 = some (.refresh "T1" sampleMeta,
          some (.ok (.session (sampleSession "T2"))))) &&
        (w.view.store.stored Tbl.refreshTokens 0).isSome) = true := by decide +kernel
  obtain ⟨w, hw, hchecks⟩ := (Option.any_eq_true _ _).mp hrun
  obtain ⟨hstatus, hrow⟩ := Bool.and_eq_true_iff.mp hchecks
  exact ⟨w, serves_of_run (sampleReturning_admitted 11) hw,
    World.ended_of_status (of_decide_eq_true hstatus), hrow⟩

/-- The rotation is committed by the tenth operation. -/
theorem sample_rotating : ∃ (w w' : BackendWorld loginRuntime) (a : RefreshToken),
    Serves loginRuntime (boot loginRuntime sampleSeed) w ∧
      Moves (handler loginRuntime) (Scope.any Incoming) w w' ∧
      w.view.store.stored Tbl.refreshTokens 0 = some a ∧
      w'.view.store.stored Tbl.refreshTokens 0 ≠ some a := by
  have hrun : ((boot loginRuntime sampleSeed).run (handler loginRuntime) (sampleReturning 9)).any
      (fun w => (w.step (handler loginRuntime) (.run 1 { text := "T2" })).any fun w' =>
        (w.view.store.stored Tbl.refreshTokens 0).any fun a =>
          decide (w'.view.store.stored Tbl.refreshTokens 0 ≠ some a)) = true := by decide +kernel
  obtain ⟨w, hw, hnext⟩ := (Option.any_eq_true _ _).mp hrun
  obtain ⟨w', hstep, hrow⟩ := (Option.any_eq_true _ _).mp hnext
  obtain ⟨a, ha, hchange⟩ := (Option.any_eq_true _ _).mp hrow
  exact ⟨w, w', a, serves_of_run (sampleReturning_admitted 9) hw, ⟨_, hstep, trivial⟩, ha,
    of_decide_eq_true hchange⟩

theorem rows_accounted_returning : ∃ (w : BackendWorld loginRuntime) (row : RefreshToken),
    Accounted sampleSeed w Tbl.refreshTokens 0 row ∧
      ∀ ref ∈ Tbl.refs Tbl.refreshTokens row, ref.1 ≠ .refreshTokens →
        (w.view.store.stored ref.1 ref.2).isSome = true := by
  obtain ⟨w, hserves, -, hrow⟩ := sample_returning
  obtain ⟨row, hrow⟩ := Option.isSome_iff_exists.mp hrow
  exact ⟨w, row, rows_accounted hserves hrow⟩

theorem changes_mandated_rotation : ∃ (w w' : BackendWorld loginRuntime) (a : RefreshToken),
    ∃ p choice req k y, w.step (handler loginRuntime) (.run p choice) = some w' ∧
      w.procs[p]? = some { req := req, prog := .step (.sql .commit) k } ∧
      w.view.store.tx p = some y ∧ Starts sampleSeed w' req ∧
        Mandate sampleSeed w' req Tbl.refreshTokens 0 y.startedAt a
          (w'.view.store.stored Tbl.refreshTokens 0) := by
  obtain ⟨w, w', a, hserves, hmoves, ha, hchange⟩ := sample_rotating
  exact ⟨w, w', a, (changes_mandated hserves hmoves ha).resolve_left hchange⟩

/-! ### Sessions -/

/-- The password in a request. -/
def Request.password : Request → Option String
  | .signup input _ => some input.password
  | .login input _ => some input.password
  | .redeem dto => some dto.password
  | .refresh _ _ | .logout _ | .cleanup | .createPurchase _ _ _ | .listMine _
  | .listLessonsForCourse _ _ | .getLesson _ _ | .sendInvitationEmail _ | .revokeFamily _
  | .rehashIfNeeded _ _ _ => none

/-- The request gives the password of the account. -/
def ProvesPassword (seed : Seed) (w : BackendWorld rt) (q : Pid) (userId : Nat) : Prop :=
  ∃ req plain, w.requests q = some req ∧ req.password = some plain ∧ Opens seed w userId plain

/-- A request rotated the token `i` into the token `j`: it presented `i`, and `j` is for the
same account and family. -/
def Rotates (seed : Seed) (w : BackendWorld rt) (i j : Nat) : Prop :=
  ∃ q raw requestMeta old row, w.requests q = some (.refresh raw requestMeta) ∧
    w.view.store.born Tbl.refreshTokens j = some (q, row) ∧ Presents seed w raw i old ∧
      row.userId = old.userId ∧ row.familyId = old.familyId

/-- The token `i` descends from one that was issued to a request with the password. -/
def GoesBack (seed : Seed) (w : BackendWorld rt) (i : Nat) (row : RefreshToken) : Prop :=
  ∃ j q root, Relation.ReflTransGen (Rotates seed w) j i ∧
    w.view.store.born Tbl.refreshTokens j = some (q, root) ∧ root.userId = row.userId ∧
      root.familyId = row.familyId ∧ ProvesPassword seed w q row.userId

theorem provesPassword_born {q : Pid} {req : Request} {plain : String} {userId : Nat} {user : User}
    (hreq : w.requests q = some req) (hborn : w.view.store.born Tbl.users userId = some (q, user))
    (hgives : GivesPassword req plain) (hpassword : req.password = some plain) :
    ProvesPassword seed w q userId :=
  ⟨req, plain, hreq, hpassword, Or.inl ⟨q, user, req, hborn, hreq, hgives⟩⟩

/-- Every refresh token descends from a password. The induction is on the row numbers: a
rotation inserts the successor behind the token that was presented. -/
theorem tokens_go_back (hhonest : HonestVerify rt) (hserves : Serves rt (boot rt seed) w)
    {i : Nat} {row : RefreshToken} (horigin : origin seed w Tbl.refreshTokens i = some row) :
    GoesBack seed w i row := by
  induction i using Nat.strongRecOn generalizing row with
  | ind i ih =>
      rw [origin] at horigin
      cases hborn : w.view.store.born Tbl.refreshTokens i with
      | none =>
          rw [hborn] at horigin
          cases horigin
      | some pb =>
          obtain ⟨q, b⟩ := pb
          rw [hborn] at horigin
          obtain rfl : b = row := Option.some.inj horigin
          obtain ⟨req, hreq, hadds⟩ :=
            (rows_chartered hserves).signed _ i q b hborn
          have hopened (hproves : ProvesPassword seed w q b.userId) : GoesBack seed w i b :=
            ⟨i, q, b, Relation.ReflTransGen.refl, hborn, rfl, rfl, hproves⟩
          cases req with
          | signup input requestMeta =>
              obtain ⟨user, huser⟩ := hadds
              exact hopened (provesPassword_born hreq huser rfl rfl)
          | login input requestMeta =>
              exact hopened ⟨_, input.password, hreq, rfl, hadds.1 hhonest⟩
          | refresh raw requestMeta =>
              obtain ⟨k, old, hlt, hpresents, howner, hfamily⟩ := hadds
              obtain ⟨j, q', root, hchain, hroot, hsame, hsame', hproves⟩ := ih k hlt hpresents.1
              exact ⟨j, q', root, hchain.tail ⟨q, raw, requestMeta, old, b, hreq, hborn, hpresents,
                howner, hfamily⟩, hroot, hsame.trans howner.symm, hsame'.trans hfamily.symm,
                howner ▸ hproves⟩
          | logout | cleanup | createPurchase | listMine | redeem | listLessonsForCourse
          | getLesson | sendInvitationEmail | revokeFamily | rehashIfNeeded => exact hadds.elim

theorem vouched_of_ended (hserves : Serves rt (boot rt seed) w) {p : Pid} {req : Request}
    {response : Response} {token : JwtPayload} (hended : w.Ended p req (.ok response))
    (htoken : response.accessTokenOf = some token) :
    w.requests p = some req ∧ ∃ κ, (charter seed w).Learnt κ w.view ∧
      Vouched seed w p req token κ := by
  obtain ⟨κ, hlearnt, hearns⟩ :=
    (kept_of_serves hserves Relation.ReflTransGen.refl).answered hended
  obtain ⟨proc, hproc, rfl, -⟩ := id hended
  exact ⟨Option.map_eq_some_iff.mpr ⟨proc, hproc, rfl⟩, κ, hlearnt, hearns token htoken⟩

/-- Whoever is handed an access token has given the password of the account, or has presented
a refresh token of the account that descends from a request with the password. -/
theorem sessions_earned (hhonest : HonestVerify rt) (hserves : Serves rt (boot rt seed) w)
    {p : Pid} {req : Request} {response : Response} {token : JwtPayload}
    (hended : w.Ended p req (.ok response)) (htoken : response.accessTokenOf = some token) :
    ProvesPassword seed w p token.sub ∨ ∃ raw requestMeta i row, req = .refresh raw requestMeta ∧
      Presents seed w raw i row ∧ row.userId = token.sub ∧ GoesBack seed w i row := by
  obtain ⟨hreq, κ, -, -, hearned⟩ := vouched_of_ended hserves hended htoken
  cases req with
  | signup input requestMeta =>
      obtain ⟨user, huser⟩ := hearned
      exact Or.inl (provesPassword_born hreq huser rfl rfl)
  | login input requestMeta => exact Or.inl ⟨_, input.password, hreq, rfl, hearned.1 hhonest⟩
  | redeem dto => exact Or.inl ⟨_, dto.password, hreq, rfl, hearned hhonest⟩
  | refresh raw requestMeta =>
      obtain ⟨⟨i, row, hpresents, howner⟩, -⟩ := hearned
      exact Or.inr ⟨raw, requestMeta, i, row, rfl, hpresents, howner,
        tokens_go_back hhonest hserves hpresents.1⟩
  | logout | cleanup | createPurchase | listMine | listLessonsForCourse | getLesson
  | sendInvitationEmail | revokeFamily | rehashIfNeeded => exact hearned.elim

theorem sessions_earned_returning : ∃ w : BackendWorld loginRuntime,
    ProvesPassword sampleSeed w 1 0 ∨ ∃ raw requestMeta i row,
      Request.refresh "T1" sampleMeta = .refresh raw requestMeta ∧
        Presents sampleSeed w raw i row ∧ row.userId = 0 ∧ GoesBack sampleSeed w i row := by
  obtain ⟨w, hserves, hended, -⟩ := sample_returning
  exact ⟨w, sessions_earned loginRuntime_honest hserves hended rfl⟩

/-! ### Accounts -/

/-- The account of an access token is committed. A sign-up and a redemption have committed
it themselves, a login and a refresh have read it. -/
theorem subject_stored (hserves : Serves rt (boot rt seed) w) {p : Pid} {req : Request}
    {response : Response} {token : JwtPayload} (hended : w.Ended p req (.ok response))
    (htoken : response.accessTokenOf = some token) :
    ∃ user, w.view.store.stored Tbl.users token.sub = some user ∧ user.role = token.role := by
  have hkept := kept_of_serves hserves Relation.ReflTransGen.refl
  obtain ⟨hreq, κ, hlearnt, ⟨b, hb, hrole⟩, hearned⟩ := vouched_of_ended hserves hended htoken
  have hend := (trading_run Relation.ReflTransGen.refl hserves).1.ended hended (Nat.zero_le p)
  suffices hthere : (w.view.store.stored Tbl.users token.sub).isSome = true by
    obtain ⟨user, huser⟩ := Option.isSome_iff_exists.mp hthere
    obtain ⟨c, hc, hsame, -⟩ := (hkept.rows.placed.rows Tbl.users _ user huser).1.role
    obtain rfl := Option.some.inj (hc.symm.trans hb)
    exact ⟨user, huser, hsame.symm.trans hrole⟩
  cases req with
  | signup input requestMeta =>
      obtain ⟨result, rfl, ⟨user, huser⟩, -⟩ := hend
      obtain rfl := Option.some.inj htoken
      exact Option.isSome_iff_exists.mpr ⟨user, huser⟩
  | redeem dto =>
      obtain ⟨user, rfl, hredeemed⟩ := hend
      obtain rfl := Option.some.inj htoken
      have hknown : ∃ J, KnownStudent rt J user w.view.store.stored := by
        cases hredeemed with
        | enrolled i J Q k hpresented => exact ⟨J, hpresented.student⟩
        | swallowed i J Q k other hpresented => exact ⟨J, hpresented.student⟩
      obtain ⟨J, U, hU, -⟩ := hknown
      exact Option.isSome_iff_exists.mpr ⟨U, hU⟩
  | login | refresh => exact (hlearnt.there _ _ hearned.2).2
  | logout | cleanup | createPurchase | listMine | listLessonsForCourse | getLesson
  | sendInvitationEmail | revokeFamily | rehashIfNeeded => exact hearned.elim

/-- How an account gets its role: administrators are seeded, parents sign up, and students
redeem an invitation to their email. -/
def RoleGiven (seed : Seed) (w : BackendWorld rt) (i : Nat) : UserRole → Prop
  | .admin => i < seed.users.length
  | .parent => ∃ p input requestMeta user, w.requests p = some (.signup input requestMeta) ∧
      w.view.store.born Tbl.users i = some (p, user)
  | .student => ∃ p dto user k invitation, w.requests p = some (.redeem dto) ∧
      w.view.store.born Tbl.users i = some (p, user) ∧ Invites seed w dto.token k invitation ∧
        user.email = rt.normaliseEmail invitation.studentEmail

theorem roleGiven_unique (hserves : Serves rt (boot rt seed) w) {i : Nat} {role role' : UserRole}
    (hgiven : RoleGiven seed w i role) (hgiven' : RoleGiven seed w i role') : role = role' := by
  have hseeded (hlt : i < seed.users.length) : w.view.store.born Tbl.users i = none :=
    unborn_seed hserves hlt
  cases role <;> cases role' <;> try rfl
  · obtain ⟨p, input, requestMeta, user, hreq, hborn⟩ := hgiven
    obtain ⟨p', dto, user', k, invitation, hreq', hborn', -⟩ := hgiven'
    obtain ⟨rfl, -⟩ := Prod.mk.inj (Option.some.inj (hborn.symm.trans hborn'))
    cases hreq.symm.trans hreq'
  · obtain ⟨p, input, requestMeta, user, -, hborn⟩ := hgiven
    cases hborn.symm.trans (hseeded hgiven')
  · obtain ⟨p, dto, user, k, invitation, hreq, hborn, -⟩ := hgiven
    obtain ⟨p', input, requestMeta, user', hreq', hborn'⟩ := hgiven'
    obtain ⟨rfl, -⟩ := Prod.mk.inj (Option.some.inj (hborn.symm.trans hborn'))
    cases hreq.symm.trans hreq'
  · obtain ⟨p, dto, user, k, invitation, -, hborn, -⟩ := hgiven
    cases hborn.symm.trans (hseeded hgiven')
  · obtain ⟨p, input, requestMeta, user, -, hborn⟩ := hgiven'
    cases hborn.symm.trans (hseeded hgiven)
  · obtain ⟨p, dto, user, k, invitation, -, hborn, -⟩ := hgiven'
    cases hborn.symm.trans (hseeded hgiven)

theorem newStudent_email (dto : RedeemInvitationDto) (email digest : String) :
    (newStudent rt dto email digest).email = rt.normaliseEmail email := by
  unfold newStudent UsersRepository.normaliseEmail
  split
  · rename_i hempty
    have hemail : email = "" := hempty
    rw [hemail, Runtime.normaliseEmail, rt.normalise_empty]
  · rfl

theorem roleGiven_stored (hserves : Serves rt (boot rt seed) w) {i : Nat} {user : User}
    (hstored : w.view.store.stored Tbl.users i = some user) : RoleGiven seed w i user.role := by
  obtain ⟨⟨p, req, b, hborn, hreq, hadds, hsame⟩ | ⟨-, b, hseeded, hsame⟩, -⟩ :=
    rows_accounted hserves hstored
  all_goals
    have hrole : user.role = b.role :=
      @congrArg User UserRole (Tbl.frozen .users user) (Tbl.frozen .users b) User.role hsame
    rw [hrole]
  · cases req with
    | signup input requestMeta =>
        obtain ⟨salt, rfl⟩ := hadds
        rw [(newParent_fields input _).2]
        exact ⟨p, input, requestMeta, _, hreq, hborn⟩
    | redeem dto =>
        obtain ⟨-, k, invitation, salt, hinvites, rfl⟩ := hadds
        rw [(newStudent_fields dto _ _).2]
        exact ⟨p, dto, _, k, invitation, hreq, hborn, hinvites, newStudent_email dto _ _⟩
    | login | refresh | logout | cleanup | createPurchase | listMine | listLessonsForCourse
    | getLesson | sendInvitationEmail | revokeFamily | rehashIfNeeded => exact hadds.elim
  · obtain ⟨hlt, rfl⟩ := List.getElem?_eq_some_iff.mp hseeded
    rw [seed.admins _ (List.getElem_mem hlt)]
    exact hlt

/-- The account of an access token is there for good, and its role stays the one in the
token. -/
theorem roles_settled (hserves : Serves rt (boot rt seed) w) (hlater : Serves rt w w') {p : Pid}
    {req : Request} {response : Response} {token : JwtPayload}
    (hended : w.Ended p req (.ok response)) (htoken : response.accessTokenOf = some token) :
    ∃ user, w'.view.store.stored Tbl.users token.sub = some user ∧ user.role = token.role ∧
      ∀ role, token.role = role ↔ RoleGiven seed w token.sub role := by
  obtain ⟨user, huser, hrole⟩ := subject_stored hserves hended htoken
  obtain ⟨user', huser', hsame⟩ := hserves.lasts hlater (t := Tbl.users) (by decide) huser
  have hkept : user'.role = user.role :=
    @congrArg User UserRole (Tbl.frozen .users user') (Tbl.frozen .users user) User.role hsame
  have hgiven := hrole ▸ roleGiven_stored hserves huser
  refine ⟨user', huser', hkept.trans hrole, fun role => ⟨?_, roleGiven_unique hserves hgiven⟩⟩
  rintro rfl
  exact hgiven

theorem roles_settled_returning : ∃ (w : BackendWorld loginRuntime) (user : User),
    w.view.store.stored Tbl.users 0 = some user ∧ user.role = .parent ∧
      ∀ role, UserRole.parent = role ↔ RoleGiven sampleSeed w 0 role := by
  obtain ⟨w, hserves, hended, -⟩ := sample_returning
  obtain ⟨user, huser⟩ := roles_settled hserves Relation.ReflTransGen.refl hended rfl
  exact ⟨w, user, huser⟩

/-! ### Consistency -/

/-- The branches for an inconsistent database are never taken: no request ends in one of
their errors, and no family revocation is left behind. -/
theorem requests_regular (hserves : Serves rt (boot rt seed) w) :
    (∀ p req e, w.Ended p req (.error e) → Regular e) ∧
      ∀ p familyId, w.requests p ≠ some (.revokeFamily familyId) := by
  have hkept := kept_of_serves hserves Relation.ReflTransGen.refl
  constructor
  · intro p req e hended
    refine Classical.byContradiction fun hirregular => ?_
    have hlist : ∃ user, req = .listMine user := by
      refine Classical.byContradiction fun hother => hirregular (hkept.refused hended ?_)
      exact fun user huser => hother ⟨user, huser⟩
    obtain ⟨user, rfl⟩ := hlist
    obtain ⟨-, rfl⟩ :=
      (trading_run Relation.ReflTransGen.refl hserves).1.ended hended (Nat.zero_le p)
    exact hirregular trivial
  · intro p familyId hreq
    obtain ⟨proc, hproc, hsame⟩ := Option.map_eq_some_iff.mp hreq
    have hstarts := (hkept.progs p proc hproc).1
    rw [hsame] at hstarts
    exact hstarts

/-- A token that was never issued. -/
def sampleStranger : List (Action (platform loginRuntime)) :=
  .spawn (.refresh "T9" sampleMeta) :: List.replicate 3 (.run 0 { text := "" })

theorem requests_regular_stranger : ∃ (w : BackendWorld loginRuntime) (e : AppError),
    w.Ended 0 (.refresh "T9" sampleMeta) (.error e) ∧ Regular e ∧
      ∀ p familyId, w.requests p ≠ some (.revokeFamily familyId) := by
  have hrun : ((boot loginRuntime sampleSeed).run (handler loginRuntime) sampleStranger).any
      (fun w => decide (w.status 0 = some (.refresh "T9" sampleMeta,
        some (.error (.domain (.refreshToken .invalid)))))) = true := by
    decide +kernel
  obtain ⟨w, hw, hstatus⟩ := (Option.any_eq_true _ _).mp hrun
  have hended := World.ended_of_status (of_decide_eq_true hstatus)
  have hserves : Serves loginRuntime (boot loginRuntime sampleSeed) w := by
    refine serves_of_run (fun a ha u u' => ?_) hw
    rcases List.mem_cons.mp ha with rfl | hrest
    · trivial
    · rw [List.eq_of_mem_replicate hrest]
      trivial
  obtain ⟨herrors, hnever⟩ := requests_regular hserves
  exact ⟨w, _, hended, herrors _ _ _ hended, hnever⟩

end Mes
