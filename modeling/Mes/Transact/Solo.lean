import Mes.Transact.Sql

/-!
A program that nobody interrupts, on a database that may fail. Between two of its
operations nobody else takes a step, so its run is a function of the view it
starts in and of what the environment decides: the choice for each operation, and
which statements are not carried out.

A statement that fails raises its error and aborts the transaction it runs in,
unless it runs on a connection of its own. `BEGIN` and `COMMIT` never fail here:
when one of them does, the transaction raises as much and leaves as little behind
as when a statement between them fails.
-/

namespace Transact

/-- What the environment decides about each operation of a run, counted from
the start of the program. -/
structure Fortune (P : Platform) where
  choice : Nat → P.Choice
  fault : Nat → Option SqlError := fun _ => none

variable {σ : Schema} {P : Platform} {α β : Type}

/-- The answer of a statement that the database does not carry out. -/
def Stmt.failure : (stmt : Stmt σ) → SqlError → Option stmt.Res
  | .read _, e => some (.error e)
  | .touch _ _ _ _, e => some (.error e)
  | .insert _ _, e => some (.error e)
  | _, _ => none

def Call.failure : (c : Call σ P) → SqlError → Option c.Res
  | .sql stmt, e => stmt.failure e
  | _, _ => none

def Store.abort (s : Store σ) (p : Pid) : Store σ :=
  match s.tx p with
  | none => s
  | some x => s.setTx p (some { x with aborted := true })

/-- The store after a statement has failed. -/
def Call.spoil (c : Call σ P) (p : Pid) (s : Store σ) : Store σ :=
  match c with
  | .sql (.read .pool) => s
  | _ => s.abort p

/-- What a query on a connection of its own sees. -/
def Store.committed (s : Store σ) : Snapshot σ :=
  s.snapshot s.clock s.stored

/-- The view after such a query. -/
def View.queried (v : View σ P) (p : Pid) : View σ P :=
  v.put p ⟨.sql (.read .pool), .ok v.store.committed⟩ v.store

@[simp] theorem View.queried_store (v : View σ P) (p : Pid) :
    (v.queried p).store = v.store := rfl

/-- The `n`th operation of `p`. -/
def View.attempt (v : View σ P) (p : Pid) (env : Fortune P) (n : Nat)
    (c : Call σ P) : Option (c.Res × View σ P) :=
  match (env.fault n).bind c.failure with
  | some res => some (res, v.put p ⟨c, res⟩ (c.spoil p v.store))
  | none => v.exec p (env.choice n) c

/-- The run of a program, with the number of operations so far. It has no result
when the program waits for a lock that nobody will release. -/
def solo (env : Fortune P) (p : Pid) :
    Code σ P α → Nat → View σ P → Option (Except P.Err α × Nat × View σ P)
  | .ret a, n, v => some (.ok a, n, v)
  | .throw e, n, v => some (.error e, n, v)
  | .step c k, n, v => (v.attempt p env n c).bind fun out =>
      solo env p (k out.1) (n + 1) out.2

/-- What a program answers when it runs alone. -/
def reply (env : Fortune P) (p : Pid) (x : Code σ P α) (v : View σ P) :
    Option (Except P.Err α) :=
  (solo env p x 0 v).map Prod.fst

section Rules

variable {env : Fortune P} {p : Pid} {n : Nat} {v : View σ P}

@[simp] theorem solo_ret (a : α) : solo env p (.ret a : Code σ P α) n v =
    some (.ok a, n, v) := rfl

@[simp] theorem solo_throw (e : P.Err) : solo env p (.throw e : Code σ P α) n v =
    some (.error e, n, v) := rfl

theorem solo_step (c : Call σ P) (k : c.Res → Code σ P α) :
    solo env p (.step c k) n v = (v.attempt p env n c).bind fun out =>
      solo env p (k out.1) (n + 1) out.2 := rfl

theorem solo_andThen (x : Code σ P α) (f : α → Code σ P β) :
    solo env p (x.andThen f) n v = (solo env p x n v).bind fun out =>
      match out.1 with
      | .ok a => solo env p (f a) out.2.1 out.2.2
      | .error e => some (.error e, out.2) := by
  induction x generalizing n v with
  | ret a => rfl
  | throw e => rfl
  | step c k ih =>
      rw [Prog.andThen_step, solo_step, solo_step, Option.bind_assoc]
      exact congrArg _ (funext fun out => ih out.1)

theorem solo_attempt (x : Code σ P α) (handler : P.Err → Code σ P α) :
    solo env p (x.attempt handler) n v = (solo env p x n v).bind fun out =>
      match out.1 with
      | .ok a => some (.ok a, out.2)
      | .error e => solo env p (handler e) out.2.1 out.2.2 := by
  induction x generalizing n v with
  | ret a => rfl
  | throw e => rfl
  | step c k ih =>
      rw [Prog.attempt, solo_step, solo_step, Option.bind_assoc]
      exact congrArg _ (funext fun out => ih out.1)

/-- A statement that fails. -/
theorem attempt_failed {c : Call σ P} {e : SqlError} {res : c.Res}
    (hfault : env.fault n = some e) (hfailure : c.failure e = some res) :
    v.attempt p env n c = some (res, v.put p ⟨c, res⟩ (c.spoil p v.store)) := by
  simp [View.attempt, hfault, hfailure]

/-- An operation that is carried out. -/
theorem attempt_served {c : Call σ P} (hfault : env.fault n = none) :
    v.attempt p env n c = v.exec p (env.choice n) c := by
  simp [View.attempt, hfault]

/-- Only statements with an error among their answers can fail. -/
theorem attempt_infallible {c : Call σ P} (hnever : ∀ e, c.failure e = none) :
    v.attempt p env n c = v.exec p (env.choice n) c := by
  cases hfault : env.fault n with
  | none => exact attempt_served hfault
  | some e => simp [View.attempt, hfault, hnever e]

/-- A query on a connection of its own reads the committed rows. -/
theorem solo_read_pool (hfault : env.fault n = none)
    (k : Except SqlError (Snapshot σ) → Code σ P α) :
    solo env p (.step (.sql (.read .pool)) k) n v =
      solo env p (k (.ok v.store.committed)) (n + 1) (v.queried p) := by
  rw [solo_step, attempt_served hfault]
  rfl

/-- A run that begins with an operation. -/
theorem solo_step_cases {c : Call σ P} {k : c.Res → Code σ P α}
    {out : Except P.Err α × Nat × View σ P}
    (hrun : solo env p (.step c k) n v = some out) :
    ∃ res v', v.attempt p env n c = some (res, v') ∧
      solo env p (k res) (n + 1) v' = some out := by
  obtain ⟨⟨res, v'⟩, hattempt, hrest⟩ := Option.bind_eq_some_iff.mp hrun
  exact ⟨res, v', hattempt, hrest⟩

theorem solo_andThen_cases {x : Code σ P α} {f : α → Code σ P β}
    {out : Except P.Err β × Nat × View σ P}
    (hrun : solo env p (x.andThen f) n v = some out) :
    (∃ e m v', solo env p x n v = some (.error e, m, v') ∧ out = (.error e, m, v')) ∨
      ∃ a m v', solo env p x n v = some (.ok a, m, v') ∧
        solo env p (f a) m v' = some out := by
  rw [solo_andThen] at hrun
  obtain ⟨⟨res, m, v'⟩, hfirst, hrest⟩ := Option.bind_eq_some_iff.mp hrun
  cases res with
  | ok a => exact Or.inr ⟨a, m, v', hfirst, hrest⟩
  | error e => exact Or.inl ⟨e, m, v', hfirst, (Option.some.inj hrest).symm⟩

theorem solo_attempt_cases {x : Code σ P α} {handler : P.Err → Code σ P α}
    {out : Except P.Err α × Nat × View σ P}
    (hrun : solo env p (x.attempt handler) n v = some out) :
    (∃ e m v', solo env p x n v = some (.error e, m, v') ∧
        solo env p (handler e) m v' = some out) ∨
      ∃ a m v', solo env p x n v = some (.ok a, m, v') ∧ out = (.ok a, m, v') := by
  rw [solo_attempt] at hrun
  obtain ⟨⟨res, m, v'⟩, hfirst, hrest⟩ := Option.bind_eq_some_iff.mp hrun
  cases res with
  | ok a => exact Or.inr ⟨a, m, v', hfirst, (Option.some.inj hrest).symm⟩
  | error e => exact Or.inl ⟨e, m, v', hfirst, hrest⟩

/-- An operation on the memory leaves the store alone. -/
theorem attempt_node {op : P.Op} {res : P.Res op} {v' : View σ P}
    (hattempt : v.attempt p env n (.node op) = some (res, v')) :
    P.exec p v.store.clock op (env.choice n) v.mem = some (res, v'.mem) ∧
      v'.store = v.store := by
  rw [attempt_infallible fun _ => rfl] at hattempt
  obtain ⟨hop, hstore, -⟩ := View.exec_node hattempt
  exact ⟨hop, hstore⟩

/-- How a transaction that inserts one row may end. -/
inductive InsertEnds (env : Fortune P) (p : Pid) (n : Nat) (v v' : View σ P)
    (t : σ.Tbl) (r : σ.Row t) (g : Nat × σ.Row t → α) :
    Except P.Err α → Nat → Prop where
  /-- The statement failed. -/
  | failed (e : SqlError) (m : Nat) (hfault : env.fault (n + 1) = some e)
      (hkept : v'.store.stored = v.store.stored) :
      InsertEnds env p n v v' t r g (.error (P.fail e)) m
  /-- The row was refused. -/
  | refused (e : SqlError) (m : Nat) (hserved : env.fault (n + 1) = none)
      (hrefuses : v.store.Refuses p t r e) (hkept : v'.store.stored = v.store.stored) :
      InsertEnds env p n v v' t r g (.error (P.fail e)) m
  /-- The row was inserted and committed. -/
  | committed (hserved : env.fault (n + 1) = none) (haccepts : v.store.Accepts p t r)
      (hstored : v'.store.stored =
        ((Drafts.empty : Drafts σ).set t (v.store.next t) (some r)).onto v.store.stored) :
      InsertEnds env p n v v' t r g (.ok (g (v.store.next t, r))) (n + 3)

/-- The end of a transaction whose statement raised an error. -/
theorem solo_rollback {e : P.Err} {out : Except P.Err α} {m : Nat} {v' : View σ P}
    (hwf : v.store.Wf)
    (hrun : solo env p (.step (.sql .rollback) fun _ => (.throw e : Code σ P α)) n v =
      some (out, m, v')) :
    out = .error e ∧ v'.store.stored = v.store.stored ∧ v'.mem = v.mem ∧
      Idle p v' ∧ v'.store.Wf := by
  obtain ⟨⟨⟩, v₁, hrollback, hrest⟩ := solo_step_cases hrun
  rw [attempt_infallible fun _ => rfl] at hrollback
  have hstore := Store.rollback_cases (View.exec_sql hrollback).1
  have hmem := (View.exec_sql hrollback).2.1
  have hwf₁ := (View.exec_base hwf hrollback).1
  obtain ⟨rfl, -, rfl⟩ : Except.error e = out ∧ n + 1 = m ∧ v₁ = v' := by
    simpa using hrest
  refine ⟨rfl, ?_, hmem, ?_, hwf₁⟩
  · rw [hstore, Store.finish_stored_drop]
  · rw [Idle, hstore]
    exact ⟨Store.finish_tx_self _ _ _, Store.finish_draft_self _ _ _⟩

/-- A refused or failed statement leaves an aborted transaction behind. -/
theorem Store.wf_abort {s : Store σ} (hwf : s.Wf) {x : Tx} (hopen : s.tx p = some x) :
    (s.setTx p (some { x with aborted := true })).Wf :=
  Store.wf_setTx hwf p _ (hwf.started p x hopen)

theorem solo_insert {t : σ.Tbl} {row : Time → σ.Row t}
    {k : Except SqlError (Nat × σ.Row t) → Code σ P α} {g : Nat × σ.Row t → α}
    {out : Except P.Err α} {m : Nat} {v' : View σ P} (hwf : v.store.Wf)
    (hidle : Idle p v) (hok : ∀ a, k (.ok a) = .ret (g a))
    (herror : ∀ e, k (.error e) = .throw (P.fail e))
    (hrun : solo env p (Sql.transaction (.step (.sql (.insert t row)) k)) n v =
      some (out, m, v')) :
    InsertEnds env p n v v' t (row v.store.clock) g out m ∧ v'.mem = v.mem ∧
      Idle p v' ∧ v'.store.Wf := by
  obtain ⟨⟨⟩, v₁, hbegin, hrest⟩ := solo_step_cases hrun
  rw [attempt_infallible fun _ => rfl] at hbegin
  obtain ⟨-, hstore₁⟩ := Store.begin_cases (View.exec_sql hbegin).1
  have hmem₁ := (View.exec_sql hbegin).2.1
  have hwf₁ := (View.exec_base hwf hbegin).1
  have hdraft₁ : v₁.store.draft p = Drafts.empty := by
    rw [hstore₁]
    exact hidle.2
  have hopen : v₁.store.tx p = some { startedAt := v.store.clock, aborted := false } := by
    rw [hstore₁, Store.setTx_tx_self]
  have hstored₁ : v₁.store.stored = v.store.stored := by
    rw [hstore₁, Store.setTx_stored]
  obtain ⟨res, v₂, hinsert, hrest⟩ := solo_step_cases hrest
  replace hrest : solo env p (((k res).andThen fun a => .step (.sql .commit) fun _ =>
      .ret a).attempt fun e => .step (.sql .rollback) fun _ => .throw e) (n + 2) v₂ =
        some (out, m, v') := hrest
  -- An error of the statement is raised by the program and rolls back.
  have hundone (e : SqlError) (hres : res = .error e)
      (hstored₂ : v₂.store.stored = v₁.store.stored) (hmem₂ : v₂.mem = v₁.mem)
      (hwf₂ : v₂.store.Wf) :
      out = .error (P.fail e) ∧ v'.store.stored = v.store.stored ∧ v'.mem = v.mem ∧
        Idle p v' ∧ v'.store.Wf := by
    rw [hres, herror] at hrest
    obtain ⟨hout, hstored, hmem, hend⟩ := solo_rollback hwf₂ hrest
    exact ⟨hout, hstored.trans (hstored₂.trans hstored₁), hmem.trans (hmem₂.trans hmem₁),
      hend⟩
  cases hfault : env.fault (n + 1) with
  | some e =>
      rw [attempt_failed (c := .sql (.insert t row)) hfault rfl] at hinsert
      obtain ⟨hres, hv₂⟩ := Prod.mk.inj (Option.some.inj hinsert)
      have hstore₂ : v₂.store = v₁.store.setTx p
          (some { startedAt := v.store.clock, aborted := true }) := by
        rw [← hv₂]
        simp [Call.spoil, Store.abort, hopen]
      obtain ⟨rfl, hstored, hmem, hend⟩ := hundone e hres.symm (by rw [hstore₂]; rfl)
        (by rw [← hv₂]; rfl) (by rw [hstore₂]; exact Store.wf_abort hwf₁ hopen)
      exact ⟨.failed e m hfault hstored, hmem, hend⟩
  | none =>
      rw [attempt_served hfault] at hinsert
      have hmem₂ := (View.exec_sql hinsert).2.1
      have hwf₂ := (View.exec_base hwf₁ hinsert).1
      obtain ⟨x, hopen', hcases⟩ := Store.insert_cases (View.exec_sql hinsert).1
      obtain rfl : x = { startedAt := v.store.clock, aborted := false } :=
        Option.some.inj (hopen'.symm.trans hopen)
      rcases hcases with ⟨haborted, -⟩ | ⟨-, ⟨e, hrefuses, hres, hstore₂⟩ |
        ⟨haccepts, hres, hstore₂⟩⟩
      · cases haborted
      · obtain ⟨rfl, hstored, hmem, hend⟩ := hundone e hres (by rw [hstore₂]; rfl) hmem₂ hwf₂
        rw [hstore₁] at hrefuses
        exact ⟨.refused e m hfault hrefuses hstored, hmem, hend⟩
      · rw [hres, hok] at hrest
        obtain ⟨kept, v₃, hcommit, hrest⟩ := solo_step_cases hrest
        rw [attempt_infallible fun _ => rfl] at hcommit
        obtain ⟨y, hopen₂, hkept, hstore₃⟩ := Store.commit_cases (View.exec_sql hcommit).1
        obtain ⟨rfl, rfl, rfl⟩ : Except.ok (g (v₁.store.next t, row v.store.clock)) = out ∧
            n + 3 = m ∧ v₃ = v' := by
          simpa using hrest
        have hy : y = { startedAt := v.store.clock, aborted := false } := by
          rw [hstore₂, Store.push_tx, hopen] at hopen₂
          exact (Option.some.inj hopen₂).symm
        rw [hkept, hy, hstore₂] at hstore₃
        have hvacant := (hwf₁.vacant t (v₁.store.next t) (Nat.le_refl _)).1
        refine ⟨?_, ?_, ?_, (View.exec_base hwf₂ hcommit).1⟩
        · rw [hstore₁]
          rw [hstore₁] at haccepts
          refine .committed hfault
            ⟨haccepts.admitted, haccepts.free, haccepts.referenced⟩ ?_
          rw [hstore₃]
          show (Store.finish _ p true).stored = _
          rw [Store.finish_stored_keep, Store.push_draft_self, Store.push_stored _ _ _ _ hvacant,
            hdraft₁, hstored₁, hstore₁, Store.setTx_next]
        · exact (View.exec_sql hcommit).2.1.trans (hmem₂.trans hmem₁)
        · rw [Idle, hstore₃]
          exact ⟨Store.finish_tx_self _ _ _, Store.finish_draft_self _ _ _⟩

end Rules

end Transact
