import Mes.Transact.Brackets
import Mes.Transact.Solo

/-!
Programs that only read, beside others. A query on the pool shows the rows that are committed
at that moment, so the answers of such a program are told by the worlds that the others reach
in the meantime. `Observes` says which outcomes it can have. The program need not be one of
the world's own, but one that is has no other outcomes (`World.Ended.observed`).
-/

namespace Transact

variable {σ : Schema} {P : Platform} {α β : Type}

/-- The committed rows, as a query lists them. -/
theorem Store.Wf.mem_committed {s : Store σ} (hwf : s.Wf) {t : σ.Tbl} {i : Nat} {r : σ.Row t} :
    (i, r) ∈ s.committed.rows t ↔ s.stored t i = some r :=
  Snapshot.mem_rows.trans ⟨fun hrow => hrow.2, fun hstored => ⟨hwf.lt_next hstored, hstored⟩⟩

/-- Looking a committed row up by its number. -/
theorem Store.Wf.find_committed {s : Store σ} (hwf : s.Wf) (t : σ.Tbl) (i : Nat) :
    (s.committed.rows t).find? (fun row => row.1 == i) =
      (s.stored t i).map fun r => (i, r) := by
  cases hstored : s.stored t i with
  | some r => exact Snapshot.find_row (hwf.lt_next hstored) hstored
  | none =>
      refine List.find?_eq_none.mpr ?_
      rintro ⟨j, r⟩ hrow hsame
      obtain rfl : j = i := beq_iff_eq.mp hsame
      rw [hwf.mem_committed.mp hrow] at hstored
      cases hstored

/-- A query on the pool. -/
def Call.Queries : Call σ P → Prop
  | .sql (.read .pool) => True
  | _ => False

/-- The program starts in the first world and has ended by the last one. -/
inductive Observes (body : P.Req → Code σ P P.Ans) (sc : Scope σ P) :
    Code σ P α → World σ P → Except P.Err α → World σ P → Prop
  | ret {a : α} {w w' : World σ P} (hlater : Reach body sc w w') :
      Observes body sc (.ret a) w (.ok a) w'
  | throw {e : P.Err} {w w' : World σ P} (hlater : Reach body sc w w') :
      Observes body sc (.throw e) w (.error e) w'
  | query {k : Except SqlError (Snapshot σ) → Code σ P α} {w mid w' : World σ P}
      {out : Except P.Err α} (hbefore : Reach body sc w mid)
      (hrest : Observes body sc (k (.ok mid.view.store.committed)) mid out w') :
      Observes body sc (.step (.sql (.read .pool)) k) w out w'

variable {body : P.Req → Code σ P P.Ans} {sc : Scope σ P} {w w₀ w' w₁ : World σ P}
  {x : Code σ P α} {out : Except P.Err α}

theorem Observes.reach (hobserves : Observes body sc x w out w') : Reach body sc w w' := by
  induction hobserves with
  | ret hlater => exact hlater
  | throw hlater => exact hlater
  | query hbefore _ ih => exact hbefore.trans ih

/-- It may have been waiting before. -/
theorem Observes.before (hearlier : Reach body sc w₀ w)
    (hobserves : Observes body sc x w out w') : Observes body sc x w₀ out w' := by
  cases hobserves with
  | ret hlater => exact .ret (hearlier.trans hlater)
  | throw hlater => exact .throw (hearlier.trans hlater)
  | query hbefore hrest => exact .query (hearlier.trans hbefore) hrest

/-- The answer may be looked at later. -/
theorem Observes.after (hobserves : Observes body sc x w out w') (hlater : Reach body sc w' w₁) :
    Observes body sc x w out w₁ := by
  induction hobserves with
  | ret hbefore => exact .ret (hbefore.trans hlater)
  | throw hbefore => exact .throw (hbefore.trans hlater)
  | query hbefore _ ih => exact .query hbefore (ih hlater)

theorem Observes.of_ret {a : α} (hobserves : Observes body sc (.ret a) w out w') :
    out = .ok a ∧ Reach body sc w w' := by
  cases hobserves with
  | ret hlater => exact ⟨rfl, hlater⟩

theorem Observes.of_throw {e : P.Err} (hobserves : Observes body sc (.throw e) w out w') :
    out = .error e ∧ Reach body sc w w' := by
  cases hobserves with
  | throw hlater => exact ⟨rfl, hlater⟩

/-- The queries of a sequence are those of its parts. -/
theorem Observes.of_andThen {f : α → Code σ P β} {out : Except P.Err β}
    (hobserves : Observes body sc (x.andThen f) w out w') :
    (∃ a mid, Observes body sc x w (.ok a) mid ∧ Observes body sc (f a) mid out w') ∨
      ∃ e, out = .error e ∧ Observes body sc x w (.error e) w' := by
  induction x generalizing w with
  | ret a => exact Or.inl ⟨a, w, .ret .refl, hobserves⟩
  | throw e =>
      obtain ⟨rfl, hlater⟩ := hobserves.of_throw
      exact Or.inr ⟨e, rfl, .throw hlater⟩
  | step c k ih =>
      rw [Prog.andThen_step] at hobserves
      cases hobserves with
      | query hbefore hrest =>
          rcases ih _ hrest with ⟨a, mid, hfirst, hsecond⟩ | ⟨e, hout, hfirst⟩
          · exact Or.inl ⟨a, mid, .query hbefore hfirst, hsecond⟩
          · exact Or.inr ⟨e, hout, .query hbefore hfirst⟩

/-- A value is computed from the answer. -/
theorem Observes.of_map {f : α → β} {out : Except P.Err β}
    (hobserves : Observes body sc (x.andThen fun a => .ret (f a)) w out w') :
    ∃ out', Observes body sc x w out' w' ∧ out = out'.map f := by
  rcases hobserves.of_andThen with ⟨a, mid, hfirst, hrest⟩ | ⟨e, rfl, hfirst⟩
  · obtain ⟨rfl, hlater⟩ := hrest.of_ret
    exact ⟨.ok a, hfirst.after hlater, rfl⟩
  · exact ⟨.error e, hfirst, rfl⟩

theorem Observes.of_attempt {handler : P.Err → Code σ P α}
    (hobserves : Observes body sc (x.attempt handler) w out w') :
    (∃ a, out = .ok a ∧ Observes body sc x w (.ok a) w') ∨
      ∃ e mid, Observes body sc x w (.error e) mid ∧
        Observes body sc (handler e) mid out w' := by
  induction x generalizing w with
  | ret a =>
      obtain ⟨rfl, hlater⟩ := Observes.of_ret hobserves
      exact Or.inl ⟨a, rfl, .ret hlater⟩
  | throw e => exact Or.inr ⟨e, w, .throw .refl, hobserves⟩
  | step c k ih =>
      change Observes body sc (.step c fun r => (k r).attempt handler) w out w' at hobserves
      cases hobserves with
      | query hbefore hrest =>
          rcases ih _ hrest with ⟨a, hout, hfirst⟩ | ⟨e, mid, hfirst, hsecond⟩
          · exact Or.inl ⟨a, hout, .query hbefore hfirst⟩
          · exact Or.inr ⟨e, mid, .query hbefore hfirst, hsecond⟩

/-- A query, and what is made of its answer. -/
theorem Observes.of_read {f : Snapshot σ → Code σ P α}
    (hobserves : Observes body sc ((Sql.read .pool).andThen f) w out w') :
    ∃ mid, Reach body sc w mid ∧ Observes body sc (f mid.view.store.committed) mid out w' := by
  cases hobserves with
  | query hbefore hrest => exact ⟨_, hbefore, hrest⟩

theorem Call.Queries.cases {c : Call σ P} (hquery : c.Queries) : c = .sql (.read .pool) := by
  rcases c with stmt | op | req
  · rcases stmt with _ | _ | _ | conn | _ | _ <;> try exact hquery.elim
    cases conn with
    | manager => exact hquery.elim
    | pool => rfl
  · exact hquery.elim
  · exact hquery.elim

/-- A program that only reads always comes to an end. -/
theorem Prog.Uses.observed (hreads : x.Uses Call.Queries) (w : World σ P) :
    ∃ out, Observes body sc x w out w := by
  induction x with
  | ret a => exact ⟨.ok a, .ret .refl⟩
  | throw e => exact ⟨.error e, .throw .refl⟩
  | step c k ih =>
      obtain ⟨hquery, hrest⟩ := hreads
      obtain rfl := hquery.cases
      obtain ⟨out, hobserves⟩ := ih (.ok w.view.store.committed) (hrest _)
      exact ⟨out, .query .refl hobserves⟩

/-- A program of the world that only reads answers what it observes. The induction is on the
steps that are left, and the program's own steps are its queries. -/
theorem World.Ended.observed {p : Pid} {proc : Proc σ P} {req : P.Req}
    {out : Except P.Err P.Ans} (hproc : w.procs[p]? = some proc)
    (hreads : proc.prog.Uses Call.Queries) (hlater : Reach body sc w w')
    (hended : w'.Ended p req out) : Observes body sc proc.prog w out w' := by
  induction hlater using Relation.ReflTransGen.head_induction_on generalizing proc with
  | refl =>
      obtain ⟨last, hlast, -, hout⟩ := hended
      obtain rfl : proc = last := Option.some.inj (hproc.symm.trans hlast)
      cases out with
      | ok a =>
          rw [Prog.eq_ret_of_outcome hout]
          exact .ret .refl
      | error e =>
          rw [Prog.eq_throw_of_outcome hout]
          exact .throw .refl
  | @head w mid hmoves hlater ih =>
      have hfirst : Reach body sc w mid := Relation.ReflTransGen.single hmoves
      obtain ⟨act, hstep, -⟩ := hmoves
      obtain ⟨proc', hproc', -⟩ := World.step_kept body hstep hproc
      rcases World.step_procs hstep hproc' with ⟨hsame, -⟩ |
        ⟨choice, req', c, k, r, -, hactor, hexec, rfl⟩ | ⟨hlate, -⟩
      · obtain rfl : proc = proc' := Option.some.inj (hproc.symm.trans hsame)
        exact (ih hproc' hreads).before hfirst
      · obtain rfl := Option.some.inj (hproc.symm.trans hactor)
        obtain ⟨hquery, hrest⟩ := hreads
        have hobserves := (ih hproc' (hrest r)).before hfirst
        obtain rfl := hquery.cases
        obtain ⟨hanswer, -⟩ := View.exec_sql hexec
        rw [← (Prod.mk.inj (Option.some.inj hanswer)).1] at hobserves
        exact .query .refl hobserves
      · rw [hproc] at hlate
        cases hlate

end Transact
