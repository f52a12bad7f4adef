import Mes.Transact.Rely
import Mes.Transact.Sql

/-!
Transactions that their programs close. `Leaves` follows, along a program, whether its
transaction is open; `Tidy` says of a program in a world that it is on its way to close
the transaction that it has opened. Nobody else opens or closes it, so a program that
has ended has none.
-/

namespace Transact

variable {σ : Schema} {P : Platform} {α β : Type}

/-- Whether a transaction is open after the operation. -/
def Call.opens (c : Call σ P) (before : Bool) : Bool :=
  match c with
  | .sql .begin => true
  | .sql .commit => false
  | .sql .rollback => false
  | _ => before

/-- An operation that neither begins nor ends a transaction, and starts no program. -/
def Call.Plain : Call σ P → Prop
  | .sql .begin => False
  | .sql .commit => False
  | .sql .rollback => False
  | .fork _ => False
  | _ => True

theorem Call.Plain.opens {c : Call σ P} (hplain : c.Plain) (before : Bool) :
    c.opens before = before := by
  cases c with
  | node op => rfl
  | fork req => exact hplain.elim
  | sql stmt =>
      cases stmt with
      | begin | commit | rollback => exact hplain.elim
      | read | touch | insert => rfl

namespace Prog

/-- A program whose transaction is open or not ends without one, and starts only programs
that satisfy `starts`. -/
def Leaves (starts : P.Req → Prop) : Bool → Code σ P α → Prop
  | before, .ret _ => before = false
  | before, .throw _ => before = false
  | before, .step c k =>
      (∀ req, c = .fork req → starts req) ∧ ∀ r, (k r).Leaves starts (c.opens before)

variable {starts : P.Req → Prop} {before : Bool}

theorem plain_answer (r : Except SqlError α) :
    (Sql.answer r : Code σ P α).Uses Call.Plain := by
  cases r <;> trivial

theorem plain_read (conn : Conn) : (Sql.read conn : Code σ P _).Uses Call.Plain :=
  ⟨trivial, plain_answer⟩

theorem plain_touchEach (t : σ.Tbl) (where_ : Time → σ.Row t → Bool)
    (set : Time → Change σ t) (found : List (Nat × σ.Row t)) (ids : List Nat) :
    (Sql.touchEach t where_ set found ids : Code σ P _).Uses Call.Plain := by
  induction ids generalizing found with
  | nil => trivial
  | cons id rest ih => exact Uses.andThen ⟨trivial, plain_answer⟩ fun row => ih _

theorem Leaves.andThen {x : Code σ P α} {f : α → Code σ P β}
    (hx : x.Leaves starts before) (hf : ∀ a, (f a).Leaves starts false) :
    (x.andThen f).Leaves starts before := by
  induction x generalizing before with
  | ret a =>
      have hclosed : before = false := hx
      rw [hclosed]
      exact hf a
  | throw e => exact hx
  | step c k ih => exact ⟨hx.1, fun r => ih r (hx.2 r)⟩

theorem Leaves.ended {x : Code σ P α} (hx : x.Leaves starts before) {out : Except P.Err α}
    (hout : x.outcome = some out) : before = false := by
  cases out with
  | ok a =>
      rw [eq_ret_of_outcome hout] at hx
      exact hx
  | error e =>
      rw [eq_throw_of_outcome hout] at hx
      exact hx

/-- A transaction is closed whether its body succeeds or fails. -/
theorem leaves_transaction {x : Code σ P α} (hx : x.Uses Call.Plain) :
    (Sql.transaction x).Leaves starts false := by
  refine ⟨nofun, fun _ => ?_⟩
  show Leaves starts true _
  induction x with
  | ret a => exact ⟨nofun, fun _ => rfl⟩
  | throw e => exact ⟨nofun, fun _ => rfl⟩
  | step c k ih =>
      obtain ⟨hplain, hnext⟩ := hx
      refine ⟨fun req hfork => ?_, fun r => ?_⟩
      · rw [hfork] at hplain
        exact hplain.elim
      · rw [hplain.opens]
        exact ih r (hnext r)

end Prog

/-! ### Worlds -/

/-- What an operation does to the transaction of its program. -/
theorem View.exec_opens {v v' : View σ P} {p : Pid} {choice : P.Choice} {c : Call σ P}
    {res : c.Res} (hexec : v.exec p choice c = some (res, v')) :
    (v'.store.tx p).isSome = c.opens (v.store.tx p).isSome := by
  cases c with
  | node op =>
      rw [(View.exec_node hexec).2.1]
      rfl
  | fork req =>
      rw [(View.exec_fork hexec).1]
      rfl
  | sql stmt =>
      have hstmt := (View.exec_sql hexec).1
      generalize v'.store = s' at hstmt
      cases stmt with
      | begin =>
          obtain ⟨-, rfl⟩ := Store.begin_cases hstmt
          rw [Store.setTx_tx_self]
          rfl
      | commit =>
          obtain ⟨-, -, -, rfl⟩ := Store.commit_cases hstmt
          rw [Store.finish_tx_self]
          rfl
      | rollback =>
          rw [Store.rollback_cases hstmt, Store.finish_tx_self]
          rfl
      | read conn =>
          rw [(Store.read_cases hstmt).1]
          rfl
      | touch t id where_ set =>
          obtain ⟨x, -, hcases⟩ := Store.touch_cases hstmt
          rcases hcases with ⟨-, -, rfl⟩ | ⟨-, -, ⟨-, rfl, -⟩ | ⟨r, -, -, -, rfl⟩⟩
          · rfl
          · rfl
          · rw [Store.hold_tx]
            rfl
      | insert t row =>
          obtain ⟨x, hopen, hcases⟩ := Store.insert_cases hstmt
          rcases hcases with ⟨-, -, rfl⟩ | ⟨-, ⟨e, -, -, rfl⟩ | ⟨-, -, rfl⟩⟩
          · rfl
          · rw [Store.setTx_tx_self, hopen]
            rfl
          · rw [Store.push_tx]
            rfl

namespace World

variable {body : P.Req → Code σ P P.Ans} {sc : Scope σ P} {w w' : World σ P}

/-- A list with one more entry. -/
theorem procs_append {procs : List (Proc σ P)} {news : List (Proc σ P)} {p : Pid}
    {proc : Proc σ P} (hproc : (procs ++ news)[p]? = some proc) :
    procs[p]? = some proc ∨ procs[p]? = none ∧ proc ∈ news := by
  rw [List.getElem?_append] at hproc
  split at hproc
  · exact Or.inl hproc
  · rename_i hlate
    exact Or.inr ⟨List.getElem?_eq_none (Nat.le_of_not_lt hlate), List.mem_of_getElem? hproc⟩

/-- Where the programs of a world come from. -/
theorem step_procs {a : Action P} (hstep : w.step body a = some w') {p : Pid}
    {proc : Proc σ P} (hproc : w'.procs[p]? = some proc) :
    (w.procs[p]? = some proc ∧ a.actor ≠ some p) ∨
      (∃ choice req c k r, a = .run p choice ∧
        w.procs[p]? = some { req := req, prog := .step c k } ∧
        w.view.exec p choice c = some (r, w'.view) ∧ proc = { req := req, prog := k r }) ∨
      (w.procs[p]? = none ∧ ∃ req, proc = { req := req, prog := body req } ∧
        (a = .spawn req ∨ ∃ q choice req' k, a = .run q choice ∧
          w.procs[q]? = some { req := req', prog := .step (.fork req) k })) := by
  cases a with
  | tick n =>
      rw [← Option.some.inj hstep] at hproc
      exact Or.inl ⟨hproc, nofun⟩
  | fire timer =>
      obtain ⟨mem, -, rfl⟩ := Option.map_eq_some_iff.mp hstep
      exact Or.inl ⟨hproc, nofun⟩
  | spawn req =>
      rw [← Option.some.inj hstep] at hproc
      rcases procs_append hproc with hold | ⟨hlate, hnew⟩
      · exact Or.inl ⟨hold, nofun⟩
      · exact Or.inr (Or.inr ⟨hlate, req, List.mem_singleton.mp hnew, Or.inl rfl⟩)
  | run q choice =>
      simp only [World.step, World.runProc] at hstep
      split at hstep
      · rename_i req c k hactor
        obtain ⟨out, hexec, rfl⟩ := Option.map_eq_some_iff.mp hstep
        rcases procs_append hproc with hold | ⟨hlate, hnew⟩
        · by_cases hsame : q = p
          · subst hsame
            rw [List.getElem?_set_self (List.getElem?_eq_some_iff.mp hactor).1] at hold
            exact Or.inr (Or.inl ⟨choice, req, c, k, out.1, rfl, hactor, hexec,
              (Option.some.inj hold).symm⟩)
          · rw [List.getElem?_set_ne hsame] at hold
            exact Or.inl ⟨hold, fun hactor => hsame (Option.some.inj hactor)⟩
        · rw [List.getElem?_eq_none_iff, List.length_set] at hlate
          cases c with
          | fork req' =>
              exact Or.inr (Or.inr ⟨List.getElem?_eq_none hlate, req', List.mem_singleton.mp hnew,
                Or.inr ⟨q, choice, req, k, rfl, hactor⟩⟩)
          | sql | node => cases hnew
      · cases hstep

/-- The program at `p` is on its way to close the transaction that it has opened. -/
structure Tidy (starts : P.Req → Prop) (w : World σ P) (p : Pid) : Prop where
  closes : ∀ proc, w.procs[p]? = some proc →
    proc.prog.Leaves starts (w.view.store.tx p).isSome
  vacant : w.procs[p]? = none → w.view.store.tx p = none

/-- A step leaves the transactions of the others alone. -/
theorem step_tx (hwf : w.view.store.Wf) {a : Action P} (hstep : w.step body a = some w')
    {p : Pid} (hactor : a.actor ≠ some p) : w'.view.store.tx p = w.view.store.tx p := by
  cases a with
  | tick n =>
      rw [← Option.some.inj hstep]
      rfl
  | spawn req =>
      rw [← Option.some.inj hstep]
      rfl
  | fire timer =>
      obtain ⟨mem, -, rfl⟩ := Option.map_eq_some_iff.mp hstep
      rfl
  | run q choice =>
      obtain ⟨e, hacts⟩ := World.run_acts hwf hstep
      exact hacts.store.txOther p fun hsame => hactor (congrArg some hsame.symm)

variable {starts : P.Req → Prop}

/-- Every program that may be scheduled is tidy. -/
def Settles (sc : Scope σ P) (starts : P.Req → Prop) (w : World σ P) : Prop :=
  ∀ p, (∃ v v', sc.run v p v') → w.Tidy starts p

/-- Only what may start is started. -/
theorem Settles.started (hspawns : ∀ req, sc.spawn req → starts req)
    (hsettles : w.Settles sc starts) {a : Action P} (hadmits : sc.admits a w w') {req : P.Req}
    (hstarted : a = .spawn req ∨ ∃ q choice req' k, a = .run q choice ∧
      w.procs[q]? = some { req := req', prog := .step (.fork req) k }) : starts req := by
  rcases hstarted with rfl | ⟨q, choice, req', k, rfl, hforker⟩
  · exact hspawns req hadmits
  · exact ((hsettles q ⟨_, _, hadmits⟩).closes _ hforker).1 req rfl

theorem Settles.step (hsettles : w.Settles sc starts)
    (hbody : ∀ req, starts req → (body req).Leaves starts false)
    (hspawns : ∀ req, sc.spawn req → starts req) (hwf : w.view.store.Wf)
    (hmoves : Moves body sc w w') : w'.Settles sc starts := by
  obtain ⟨a, hstep, hadmits⟩ := hmoves
  intro p hruns
  have htidy := hsettles p hruns
  refine ⟨fun proc hproc => ?_, fun hlate => ?_⟩
  · rcases step_procs hstep hproc with ⟨hold, hactor⟩ |
      ⟨choice, req, c, k, r, rfl, hold, hexec, rfl⟩ | ⟨hlate, req, rfl, hstarted⟩
    · rw [step_tx hwf hstep hactor]
      exact htidy.closes proc hold
    · rw [View.exec_opens hexec]
      exact (htidy.closes _ hold).2 r
    · have hactor : a.actor ≠ some p := by
        rintro hactor
        rcases hstarted with rfl | ⟨q, choice, req', k, rfl, hforker⟩
        · cases hactor
        · obtain rfl := Option.some.inj hactor
          rw [hlate] at hforker
          cases hforker
      rw [step_tx hwf hstep hactor, htidy.vacant hlate]
      exact hbody req (hsettles.started hspawns hadmits hstarted)
  · have hbefore : w.procs[p]? = none := by
      rw [Option.eq_none_iff_forall_ne_some]
      intro proc hproc
      obtain ⟨proc', hproc', -⟩ := step_kept body hstep hproc
      rw [hlate] at hproc'
      cases hproc'
    have hactor : a.actor ≠ some p := by
      rintro hactor
      cases a with
      | run q choice =>
          obtain rfl := Option.some.inj hactor
          simp only [World.step, World.runProc, hbefore] at hstep
          cases hstep
      | spawn | tick | fire => cases hactor
    rw [step_tx hwf hstep hactor]
    exact htidy.vacant hbefore

theorem Settles.reach (hsettles : w.Settles sc starts)
    (hbody : ∀ req, starts req → (body req).Leaves starts false)
    (hspawns : ∀ req, sc.spawn req → starts req) (hwf : w.view.store.Wf)
    (hreach : Reach body sc w w') :
    w'.view.store.Wf ∧ w'.Settles sc starts := by
  induction hreach with
  | refl => exact ⟨hwf, hsettles⟩
  | tail _ hmoves ih =>
      obtain ⟨a, hstep, -⟩ := id hmoves
      exact ⟨World.step_wf ih.1 hstep, ih.2.step hbody hspawns ih.1 hmoves⟩

/-- A program that has ended has no open transaction. -/
theorem Tidy.closed {p : Pid} (htidy : w.Tidy starts p)
    (hended : ∀ proc, w.procs[p]? = some proc → ∃ out, proc.prog.outcome = some out) :
    w.view.store.tx p = none := by
  cases hproc : w.procs[p]? with
  | none => exact htidy.vacant hproc
  | some proc =>
      obtain ⟨out, hout⟩ := hended proc hproc
      have hclosed := (htidy.closes proc hproc).ended hout
      cases hopen : w.view.store.tx p with
      | none => rfl
      | some x =>
          rw [hopen] at hclosed
          cases hclosed

/-- The transaction of a program that is never scheduled stays as it is. -/
theorem Reach.tx_kept {p : Pid} (hrests : ∀ v v', ¬ sc.run v p v') (hwf : w.view.store.Wf)
    (hreach : Reach body sc w w') :
    w'.view.store.Wf ∧ w'.view.store.tx p = w.view.store.tx p := by
  induction hreach with
  | refl => exact ⟨hwf, rfl⟩
  | tail _ hmoves ih =>
      obtain ⟨a, hstep, hadmits⟩ := hmoves
      refine ⟨World.step_wf ih.1 hstep, (step_tx ih.1 hstep ?_).trans ih.2⟩
      rintro hactor
      cases a with
      | run q choice =>
          obtain rfl := Option.some.inj hactor
          exact absurd hadmits (hrests _ _)
      | spawn | tick | fire => cases hactor

end World

end Transact
