import Mathlib.Logic.Hydra
import Mes.Transact.LockOrder

/-!
Who waits for whom. A statement that has no step waits for a transaction that holds a row:
one that has locked the row to be touched, or one that decides whether the new row clashes.
Where the careful programs climb, a chain of waiting programs climbs too, so it ends at a
program that can run, at one that is not careful, or at one that needs a client of the
connection pool when there is none. And nothing goes on for ever: without new requests, every
schedule comes to an end.

An open transaction keeps a client of the pool. The store does not count them, so the worlds
of a backend with a pool of some size are among those of the store; the size only decides who
can run.
-/

namespace Transact

variable {σ : Schema} {P : Platform}

/-- The transaction of `q` keeps the statement of `p` from going on. -/
def Store.Blocks (s : Store σ) (q p : Pid) : Stmt σ → Prop
  | .touch t id _ _ => q ≠ p ∧ ∃ r, ((s.table t).cell id).lock = some (q, r)
  | .insert t row => q ≠ p ∧ ∃ x id r, s.tx p = some x ∧
      ((s.table t).cell id).lock = some (q, r) ∧
        (s.stored t id).any (σ.clash t (row x.startedAt)) ≠
          r.any (σ.clash t (row x.startedAt))
  | _ => False

/-- The operation takes a client from the pool. -/
def Call.TakesClient : Call σ P → Prop
  | .sql .begin | .sql (.read .pool) => True
  | _ => False

namespace World

/-- How many clients of the pool the open transactions keep. -/
def clients (w : World σ P) : Nat :=
  (List.range w.procs.length).countP fun p => (w.view.store.tx p).isSome

/-- How many programs have not ended. -/
def unfinished (w : World σ P) : Nat :=
  (List.range w.procs.length).countP fun p => (w.status p).any fun status => status.2.isNone

/-- The program `p` needs a client, and the transactions keep them all. -/
def Starved (size : Nat) (w : World σ P) (p : Pid) : Prop :=
  size ≤ w.clients ∧
    ∃ req c k, w.procs[p]? = some { req := req, prog := .step c k } ∧ c.TakesClient

/-- The program `p` waits for the transaction of `q`. -/
def Awaits (w : World σ P) (p q : Pid) : Prop :=
  ∃ req stmt k, w.procs[p]? = some { req := req, prog := .step (.sql stmt) k } ∧
    w.view.store.exec p stmt = none ∧ w.view.store.Blocks q p stmt

/-- The scheduler can run the program `p`. -/
def CanRun (size : Nat) (body : P.Req → Code σ P P.Ans) (w : World σ P) (p : Pid) : Prop :=
  ¬ w.Starved size p ∧ ∃ choice w', w.step body (.run p choice) = some w'

/-- Time passes and timers go off, but nobody runs and nobody arrives. -/
def Rests (body : P.Req → Code σ P P.Ans) : World σ P → World σ P → Prop :=
  Relation.ReflTransGen fun w w' =>
    (∃ n, w.step body (.tick n) = some w') ∨ ∃ timer, w.step body (.fire timer) = some w'

end World

/-- Whatever an operation needs of the environment, it can get. -/
structure View.Ready (v : View σ P) : Prop where
  choice : Nonempty P.Choice
  ops : ∀ p op, ∃ choice, (P.exec p v.store.clock op choice v.mem).isSome = true

/-- Every program of the world ends its transaction, and the careful ones climb. -/
structure Orderly (O : LockOrder σ P) (w : World σ P) : Prop where
  progs : ∀ p proc, w.procs[p]? = some proc → ∃ H, Tracks H w.view.store p ∧
    (O.careful proc.req → ∀ held, H = some held → held.Tame) ∧
      O.Climbs (O.careful proc.req) (fun _ H' => H' = none) (fun H' => H' = none) H proc.prog
  vacant : ∀ p, w.procs[p]? = none → w.view.store.tx p = none

/-- Every request is served by a program that does. -/
def LockOrder.Disciplined (O : LockOrder σ P) (body : P.Req → Code σ P P.Ans) : Prop :=
  ∀ req, O.Climbs (O.careful req) (fun _ H' => H' = none) (fun H' => H' = none) none (body req)

variable {O : LockOrder σ P} {body : P.Req → Code σ P P.Ans}
  {w w' : World σ P} {p q r : Pid}

/-! ### What a step preserves -/

/-- A place that is vacant after a step was vacant before. -/
theorem World.step_vacant {a : Action P} (hstep : w.step body a = some w')
    (hlate : w'.procs[p]? = none) : w.procs[p]? = none ∧ a.actor ≠ some p := by
  have hbefore : w.procs[p]? = none := by
    rw [Option.eq_none_iff_forall_ne_some]
    intro proc hproc
    obtain ⟨proc', hproc', -⟩ := World.step_kept body hstep hproc
    rw [hlate] at hproc'
    cases hproc'
  refine ⟨hbefore, ?_⟩
  rintro hactor
  cases a with
  | run q choice =>
      obtain rfl := Option.some.inj hactor
      simp only [World.step, World.runProc, hbefore] at hstep
      cases hstep
  | spawn | tick | fire => cases hactor

/-- What a program holds does not change while others go on. -/
theorem Tracks.step {H : Option (Holdings σ)} (hwf : w.view.store.Wf) {a : Action P}
    (hstep : w.step body a = some w') (hactor : a.actor ≠ some p)
    (htracks : Tracks H w.view.store p) : Tracks H w'.view.store p := by
  cases a with
  | tick n =>
      rw [← Option.some.inj hstep]
      exact ⟨htracks.tx, htracks.draft, htracks.base⟩
  | spawn req =>
      rw [← Option.some.inj hstep]
      exact htracks
  | fire timer =>
      obtain ⟨mem, -, rfl⟩ := Option.map_eq_some_iff.mp hstep
      exact htracks
  | run q choice =>
      obtain ⟨e, hacts⟩ := World.run_acts hwf hstep
      exact htracks.acts hacts.store fun hsame => hactor (congrArg some hsame.symm)

theorem Orderly.step (hbody : O.Disciplined body) (hwf : w.view.store.Wf)
    (hhonest : O.Honest w.view.store) (horderly : Orderly O w) {a : Action P}
    (hstep : w.step body a = some w') : Orderly O w' := by
  constructor
  · intro p proc hproc
    rcases World.step_procs hstep hproc with ⟨hold, hactor⟩ |
      ⟨choice, req, c, k, res, rfl, hold, hexec, rfl⟩ | ⟨hlate, req, rfl, hstarted⟩
    · obtain ⟨H, htracks, hrest⟩ := horderly.progs p proc hold
      exact ⟨H, htracks.step hwf hstep hactor, hrest⟩
    · obtain ⟨H, htracks, htame, hplaced, hnext⟩ := horderly.progs p _ hold
      obtain ⟨H', hgrants, htracks'⟩ := htracks.advance hwf hhonest hexec
      exact ⟨H', htracks', fun hcareful => tame_grants hcareful hplaced hgrants (htame hcareful),
        hnext res H' hgrants⟩
    · have hactor : a.actor ≠ some p := by
        rintro hactor
        rcases hstarted with rfl | ⟨q, choice, req', k, rfl, hforker⟩
        · cases hactor
        · obtain rfl := Option.some.inj hactor
          rw [hlate] at hforker
          cases hforker
      refine ⟨none, (tracks_idle hwf (horderly.vacant p hlate)).step hwf hstep hactor,
        fun _ => nofun, hbody req⟩
  · intro p hlate
    obtain ⟨hbefore, hactor⟩ := World.step_vacant hstep hlate
    rw [World.step_tx hwf hstep hactor]
    exact horderly.vacant p hbefore

/-! ### Chains of waiting programs -/

/-- Who holds the lock of a row tracks it. -/
theorem Tracks.holds {H : Option (Holdings σ)} {s : Store σ} (htracks : Tracks H s q) {t : σ.Tbl}
    {id : Nat} {d : Option (σ.Row t)} (hlock : ((s.table t).cell id).lock = some (q, d)) :
    ∃ held h, H = some held ∧ held t id = some h ∧ h.draft = d ∧ s.stored t id = h.base := by
  have hdraft : s.draft q t id = some d := by
    simp [Store.draft, Cell.draft, hlock]
  rw [htracks.draft] at hdraft
  obtain ⟨h, hheld, hsame⟩ := Option.map_eq_some_iff.mp hdraft
  cases H with
  | none => cases hheld
  | some held => exact ⟨held, h, rfl, hheld, hsame, htracks.base held t id h rfl hheld⟩

/-- Where some outcomes clash and others do not, another transaction decides. -/
theorem Cell.undecided {ρ : Type} {c : Cell ρ} {bad : ρ → Bool} (hmaybe : c.maybe p bad = true)
    (hnot : c.always p bad ≠ true) :
    ∃ q d, q ≠ p ∧ c.lock = some (q, d) ∧ c.stored.any bad ≠ d.any bad := by
  unfold Cell.maybe at hmaybe
  unfold Cell.always at hnot
  cases hlock : c.lock with
  | none =>
      simp only [hlock] at hmaybe hnot
      exact absurd hmaybe hnot
  | some owner =>
      obtain ⟨q, d⟩ := owner
      simp only [hlock] at hmaybe hnot
      by_cases hown : q = p
      · rw [if_pos hown] at hmaybe hnot
        exact absurd hmaybe hnot
      · rw [if_neg hown] at hmaybe hnot
        refine ⟨q, d, hown, rfl, fun hsame => ?_⟩
        rw [hsame, Bool.or_self] at hmaybe
        rw [hsame, Bool.and_self] at hnot
        exact hnot hmaybe

/-- A statement that is possible and has no step waits for somebody. -/
theorem Tracks.waits {H : Option (Holdings σ)} {s : Store σ} (htracks : Tracks H s p)
    {stmt : Stmt σ} {strict : Prop} (hclimbs : stmt.Climbs O strict H)
    (hexec : s.exec p stmt = none) : ∃ q, s.Blocks q p stmt := by
  have htx := htracks.tx
  cases stmt with
  | begin =>
      rw [show H = none from hclimbs] at htx
      simp [Store.exec, Option.not_isSome_iff_eq_none.mp (ne_true_of_eq_false htx)] at hexec
  | commit =>
      obtain ⟨x, hopen⟩ := Option.isSome_iff_exists.mp (htx.trans hclimbs)
      simp [Store.exec, hopen] at hexec
  | rollback =>
      obtain ⟨x, hopen⟩ := Option.isSome_iff_exists.mp (htx.trans hclimbs)
      simp [Store.exec, hopen] at hexec
  | read conn =>
      cases conn with
      | pool => cases hexec
      | manager =>
          obtain ⟨x, hopen⟩ := Option.isSome_iff_exists.mp (htx.trans hclimbs)
          simp only [Store.exec, Store.execRead, hopen] at hexec
          split at hexec <;> cases hexec
  | touch t id where_ set =>
      obtain ⟨held, rfl, -⟩ := hclimbs
      obtain ⟨x, hopen⟩ := Option.isSome_iff_exists.mp htx
      simp only [Store.exec, Store.execTouch, hopen] at hexec
      split at hexec
      · cases hexec
      · split at hexec
        · rename_i hlocked
          unfold Cell.lockedAgainst at hlocked
          cases hlock : ((s.table t).cell id).lock with
          | none =>
              rw [hlock] at hlocked
              cases hlocked
          | some owner =>
              rw [hlock] at hlocked
              exact ⟨owner.1, of_decide_eq_true hlocked, owner.2, hlock⟩
        · split at hexec
          · cases hexec
          · split at hexec <;> cases hexec
  | insert t row =>
      obtain ⟨held, rfl, -⟩ := hclimbs
      obtain ⟨x, hopen⟩ := Option.isSome_iff_exists.mp htx
      simp only [Store.exec, Store.execInsert, hopen] at hexec
      split at hexec
      · cases hexec
      · split at hexec
        · cases hexec
        · split at hexec
          · cases hexec
          · rename_i halways
            split at hexec
            · rename_i hmaybe
              obtain ⟨id, hid, hcell⟩ := List.any_eq_true.mp hmaybe
              have hnot : ((s.table t).cell id).always p (σ.clash t (row x.startedAt)) ≠ true :=
                fun hall => halways (List.any_eq_true.mpr ⟨id, hid, hall⟩)
              obtain ⟨q, d, hown, hlock, hdiffer⟩ := Cell.undecided hcell hnot
              exact ⟨q, hown, x, id, d, hopen, hlock, hdiffer⟩
            · split at hexec <;> cases hexec

/-- The place of the row that a statement may have to wait for. -/
def Stmt.wants (O : LockOrder σ P) : Stmt σ → WithBot Place
  | .touch t id _ _ => (rowPlace O.rank t false id : Place)
  | .insert t _ => (rowPlace O.rank t true 0 : Place)
  | _ => ⊥

/-- Who is waited for holds a row that is no lower than the place that is waited for. -/
theorem Tracks.above {H : Option (Holdings σ)} {s : Store σ} (htracks : Tracks H s q)
    (htame : ∀ held, H = some held → held.Tame) {stmt : Stmt σ} (hblocks : s.Blocks q p stmt) :
    ∃ held t id h, H = some held ∧ held t id = some h ∧
      stmt.wants O ≤ (rowPlace O.rank t h.base.isNone id : Place) := by
  cases stmt with
  | begin | commit | rollback | read => exact hblocks.elim
  | touch t id where_ set =>
      obtain ⟨-, d, hlock⟩ := hblocks
      obtain ⟨held, h, hsome, hheld, -, -⟩ := htracks.holds hlock
      exact ⟨held, t, id, h, hsome, hheld, WithBot.coe_le_coe.mpr (place_least _ id)⟩
  | insert t row =>
      obtain ⟨-, x, id, d, -, hlock, hdecides⟩ := hblocks
      obtain ⟨held, h, hsome, hheld, rfl, hstored⟩ := htracks.holds hlock
      refine ⟨held, t, id, h, hsome, hheld, WithBot.coe_le_coe.mpr ?_⟩
      cases hbase : h.base with
      | none => exact place_zero id
      | some old =>
          -- an update keeps the columns of the indexes, so nothing is left to decide
          obtain ⟨new, hnew, halike⟩ := htame held hsome t id h hheld
          rw [hstored, hbase, hnew] at hdecides
          simp only [Option.any_some] at hdecides
          rw [σ.clash_symm t _ old, σ.clash_symm t _ new, halike old hbase] at hdecides
          exact absurd rfl hdecides

/-- Whoever waits holds only rows below the one that it waits for. -/
theorem Tracks.below {held : Holdings σ} {s : Store σ} (htracks : Tracks (some held) s q)
    {stmt : Stmt σ} (hclimbs : stmt.Climbs O True (some held)) (hblocks : s.Blocks r q stmt) :
    ∃ place', stmt.wants O = (place' : Place) ∧ held.Below O.rank place' := by
  cases stmt with
  | begin | commit | rollback | read => exact hblocks.elim
  | touch t id where_ set =>
      obtain ⟨held', hsome, hplaced⟩ := hclimbs
      obtain rfl := Option.some.inj hsome
      rcases (hplaced trivial).2 with hheld | hbelow
      · -- nobody else holds the lock of a row that it holds
        obtain ⟨hpid, d, hlock⟩ := hblocks
        obtain ⟨h, hh⟩ := Option.isSome_iff_exists.mp hheld
        have hdraft := htracks.draft_some t id
        rw [hh] at hdraft
        simp only [Store.draft, Cell.draft, hlock, if_neg hpid] at hdraft
        cases hdraft
      · exact ⟨_, rfl, hbelow⟩
  | insert t row =>
      obtain ⟨held', hsome, hbelow⟩ := hclimbs
      obtain rfl := Option.some.inj hsome
      exact ⟨_, rfl, hbelow trivial⟩

/-- The place of the row that a program may have to wait for. -/
def World.wants (O : LockOrder σ P) (w : World σ P) (p : Pid) : WithBot Place :=
  match w.procs[p]? with
  | some { req := _, prog := .step (.sql stmt) _ } => stmt.wants O
  | _ => ⊥

/-- A chain of waiting programs climbs. -/
theorem Orderly.wants_lt (horderly : Orderly O w) (hpq : w.Awaits p q)
    (hqr : w.Awaits q r) {req' : P.Req} {out : Option (Except P.Err P.Ans)}
    (hstatus : w.status q = some (req', out)) (hreq : O.careful req') :
    w.wants O p < w.wants O q := by
  obtain ⟨req, stmt, k, hp, -, hblocks⟩ := hpq
  obtain ⟨req₂, stmt', k', hq, -, hblocks'⟩ := hqr
  obtain rfl : req₂ = req' := by
    rw [World.status, hq] at hstatus
    exact congrArg Prod.fst (Option.some.inj hstatus)
  obtain ⟨H, htracks, htame, hclimbs, -⟩ := horderly.progs q _ hq
  obtain ⟨held, t, id, h, rfl, hheld, hle⟩ := htracks.above (O := O) (htame hreq) hblocks
  have hstrict : stmt'.Climbs O True (some held) := by
    have hsame : O.careful req₂ = True := eq_true hreq
    rw [← hsame]
    exact hclimbs
  obtain ⟨place', hwants, hbelow⟩ := htracks.below hstrict hblocks'
  simp only [World.wants, hp, hq, hwants]
  exact lt_of_le_of_lt hle (WithBot.coe_lt_coe.mpr (hbelow t id h hheld))

/-- Careful programs do not wait for each other in a circle. -/
theorem Orderly.acyclic (horderly : Orderly O w) (p : Pid) :
    ¬ Relation.TransGen (fun p q => w.Awaits p q ∧
      ∃ req out, w.status q = some (req, out) ∧ O.careful req) p p := by
  have hclimbs {q : Pid} (hchain : Relation.TransGen (fun p q => w.Awaits p q ∧
      ∃ req out, w.status q = some (req, out) ∧ O.careful req) p q) :
      (∃ r, w.Awaits p r) ∧ ∀ r, w.Awaits q r → w.wants O p < w.wants O q := by
    induction hchain with
    | single hstep =>
        obtain ⟨hawaits, req, out, hstatus, hreq⟩ := hstep
        exact ⟨⟨_, hawaits⟩, fun r hnext => horderly.wants_lt hawaits hnext hstatus hreq⟩
    | tail _ hstep ih =>
        obtain ⟨hawaits, req, out, hstatus, hreq⟩ := hstep
        exact ⟨ih.1, fun r hnext =>
          (ih.2 _ hawaits).trans (horderly.wants_lt hawaits hnext hstatus hreq)⟩
  intro hcycle
  obtain ⟨⟨r, hawaits⟩, hlt⟩ := hclimbs hcycle
  exact lt_irrefl _ (hlt r hawaits)

/-- Who is waited for is there and has not ended. -/
theorem Orderly.running (horderly : Orderly O w) (hwf : w.view.store.Wf)
    (hawaits : w.Awaits p q) : ∃ req, w.status q = some (req, none) := by
  obtain ⟨req, stmt, k, -, -, hblocks⟩ := hawaits
  have hlocks : ∃ t id d, ((w.view.store.table t).cell id).lock = some (q, d) := by
    cases stmt with
    | begin | commit | rollback | read => exact hblocks.elim
    | touch t id where_ set =>
        obtain ⟨-, d, hlock⟩ := hblocks
        exact ⟨t, id, d, hlock⟩
    | insert t row =>
        obtain ⟨-, x, id, d, -, hlock, -⟩ := hblocks
        exact ⟨t, id, d, hlock⟩
  obtain ⟨t, id, d, hlock⟩ := hlocks
  have hopen : (w.view.store.tx q).isSome = true :=
    hwf.inTx q t id d (by simp [Store.draft, Cell.draft, hlock])
  cases hproc : w.procs[q]? with
  | none =>
      rw [horderly.vacant q hproc] at hopen
      cases hopen
  | some proc =>
      obtain ⟨H, htracks, -, hclimbs⟩ := horderly.progs q proc hproc
      refine ⟨proc.req, ?_⟩
      simp only [World.status, hproc, Option.map_some, Option.some.injEq, Prod.mk.injEq, true_and]
      rw [htracks.tx] at hopen
      cases hprog : proc.prog with
      | step c k => rfl
      | ret a =>
          rw [hprog] at hclimbs
          rw [show H = none from hclimbs] at hopen
          cases hopen
      | throw e =>
          rw [hprog] at hclimbs
          rw [show H = none from hclimbs] at hopen
          cases hopen

/-- Only a program that has not ended keeps a client. -/
theorem Orderly.clients_le (horderly : Orderly O w) : w.clients ≤ w.unfinished := by
  refine List.countP_mono_left fun p _ hopen => ?_
  cases hproc : w.procs[p]? with
  | none =>
      rw [horderly.vacant p hproc] at hopen
      cases hopen
  | some proc =>
      obtain ⟨H, htracks, -, hclimbs⟩ := horderly.progs p proc hproc
      rw [htracks.tx] at hopen
      simp only [World.status, hproc, Option.map_some, Option.any_some]
      cases hprog : proc.prog with
      | step c k => rfl
      | ret a =>
          rw [hprog] at hclimbs
          rw [show H = none from hclimbs] at hopen
          cases hopen
      | throw e =>
          rw [hprog] at hclimbs
          rw [show H = none from hclimbs] at hopen
          cases hopen

/-- Whoever has not ended can run, needs a client, or waits for somebody. -/
theorem Orderly.moves (horderly : Orderly O w) (size : Nat) (hready : w.view.Ready) {req : P.Req}
    (hrunning : w.status p = some (req, none)) :
    w.CanRun size body p ∨ w.Starved size p ∨ ∃ q, w.Awaits p q := by
  by_cases hstarved : w.Starved size p
  · exact Or.inr (Or.inl hstarved)
  obtain ⟨proc, hproc, hpair⟩ := Option.map_eq_some_iff.mp hrunning
  obtain ⟨req', prog⟩ := proc
  obtain ⟨rfl, hout⟩ := Prod.mk.inj hpair
  cases prog with
  | ret a => cases hout
  | throw e => cases hout
  | step c k =>
      have hrun (choice : P.Choice) {out : c.Res × View σ P}
          (hexec : w.view.exec p choice c = some out) : w.CanRun size body p := by
        have hstep : ∃ w', w.step body (.run p choice) = some w' := by
          unfold World.step World.runProc
          simp only [hproc]
          exact ⟨_, congrArg (Option.map _) hexec⟩
        exact ⟨hstarved, choice, hstep⟩
      cases c with
      | fork req =>
          obtain ⟨choice⟩ := hready.choice
          exact Or.inl (hrun choice rfl)
      | node op =>
          obtain ⟨choice, hsome⟩ := hready.ops p op
          obtain ⟨out, hout⟩ := Option.isSome_iff_exists.mp hsome
          exact Or.inl (hrun choice (congrArg (Option.map _) hout))
      | sql stmt =>
          cases hexec : w.view.store.exec p stmt with
          | some out =>
              obtain ⟨choice⟩ := hready.choice
              exact Or.inl (hrun choice (congrArg (Option.map _) hexec))
          | none =>
              obtain ⟨H, htracks, -, hclimbs, -⟩ := horderly.progs p _ hproc
              obtain ⟨q, hblocks⟩ := htracks.waits hclimbs hexec
              exact Or.inr (Or.inr ⟨q, _, stmt, k, hproc, hexec, hblocks⟩)

/-- A chain of waiting programs ends where one can run, needs a client, or is not careful. -/
theorem Orderly.leads (horderly : Orderly O w) (size : Nat) (body : P.Req → Code σ P P.Ans)
    (hwf : w.view.store.Wf)
    (hready : w.view.Ready) {req : P.Req} (hrunning : w.status p = some (req, none)) :
    ∃ q req', Relation.ReflTransGen w.Awaits p q ∧ w.status q = some (req', none) ∧
      (w.CanRun size body q ∨ w.Starved size q ∨ ¬ O.careful req') := by
  classical
  by_contra hnone
  push Not at hnone
  -- everybody on the chain is careful and waits, so somebody waits for the highest place
  let chain := (Finset.range w.procs.length).filter fun q =>
    Relation.ReflTransGen w.Awaits p q ∧ ∃ req', w.status q = some (req', none)
  have hmem {q : Pid} {req' : P.Req} (hchain : Relation.ReflTransGen w.Awaits p q)
      (hstatus : w.status q = some (req', none)) : q ∈ chain := by
    refine Finset.mem_filter.mpr ⟨Finset.mem_range.mpr ?_, hchain, req', hstatus⟩
    obtain ⟨proc, hproc, -⟩ := Option.map_eq_some_iff.mp hstatus
    exact (List.getElem?_eq_some_iff.mp hproc).1
  obtain ⟨top, htop, hmax⟩ := Finset.exists_max_image chain (w.wants O)
    ⟨p, hmem .refl hrunning⟩
  obtain ⟨-, hchain, req₁, hstatus⟩ := Finset.mem_filter.mp htop
  obtain ⟨hstuck, hfed, -⟩ := hnone top req₁ hchain hstatus
  obtain ⟨q, hawaits⟩ :=
    ((horderly.moves size hready hstatus).resolve_left hstuck).resolve_left hfed
  obtain ⟨req₂, hstatus'⟩ := horderly.running hwf hawaits
  have hchain' := hchain.tail hawaits
  obtain ⟨hstuck', hfed', hcareful⟩ := hnone q req₂ hchain' hstatus'
  obtain ⟨r, hawaits'⟩ :=
    ((horderly.moves size hready hstatus').resolve_left hstuck').resolve_left hfed'
  refine absurd (hmax q (hmem hchain' hstatus')) (not_le_of_gt ?_)
  exact horderly.wants_lt hawaits hawaits' hstatus' hcareful

/-! ### Schedules end -/

theorem World.Rests.procs (hrests : World.Rests body w w') : w'.procs = w.procs := by
  induction hrests with
  | refl => rfl
  | tail _ hstep ih =>
      rcases hstep with ⟨n, hstep⟩ | ⟨timer, hstep⟩
      · rw [← Option.some.inj hstep]
        exact ih
      · obtain ⟨mem, -, rfl⟩ := Option.map_eq_some_iff.mp hstep
        exact ih

end Transact
