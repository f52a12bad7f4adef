import Mes.Transact.Sql

/-!
How the rows of a store may change. A `Revision` says, for each table, into
which versions a transaction that began at a given time may turn a row. A
program obeys it when each of its `touch`es does, whatever the environment
answers. Then every step of every run keeps to it: a committed row is replaced
by a commit only, and only by a version that the revision allows.

The assertion `Revising` carries the argument. The uncommitted versions of a
program are allowed versions of the committed rows below them, and nobody else
can change a row that the program has locked.
-/

namespace Transact

variable {σ : Schema} {P : Platform}

/-- The versions that a transaction may make of a row, `none` for its deletion. -/
structure Revision (σ : Schema) where
  allows : (t : σ.Tbl) → Time → σ.Row t → Option (σ.Row t) → Prop
  refl : ∀ t now a, allows t now a (some a)
  trans : ∀ t now a b x, allows t now a (some b) → allows t now b x → allows t now a x

namespace Revision

variable (rev : Revision σ)

/-- An operation that changes rows only as the revision allows. -/
def Obeys : Call σ P → Prop
  | .sql (.touch t _ where_ set) =>
      ∀ now r, where_ now r = true → rev.allows t now r ((set now).apply r)
  | _ => True

/-- The uncommitted versions of `p` are allowed versions of the committed rows. -/
def Revising (p : Pid) (v : View σ P) : Prop :=
  ∀ t i x, v.store.draft p t i = some x → ∃ y, v.store.tx p = some y ∧
    ∀ a, v.store.stored t i = some a → rev.allows t y.startedAt a x

/-- The commit of `p` replaces the row `a` by its own version. -/
structure Replaces (p : Pid) (v v' : View σ P) (t : σ.Tbl) (i : Nat) (a : σ.Row t) :
    Prop where
  commits : v'.history = (p, ⟨.sql .commit, true⟩) :: v.history
  draft : v.store.draft p t i = some (v'.store.stored t i)
  allowed : ∃ y, v.store.tx p = some y ∧
    rev.allows t y.startedAt a (v'.store.stored t i)

/-- What a step of `p` may do to the committed rows. -/
def Revises (p : Pid) (v v' : View σ P) : Prop :=
  ∀ t i a, v.store.stored t i = some a →
    v'.store.stored t i = some a ∨ rev.Replaces p v v' t i a

/-- Any programs that obey the revision, on the schedules of `sc`. -/
def logic (sc : Scope σ P) : Logic σ P where
  scope := sc
  starts := fun _ => True
  Inv := fun _ => True
  Guar := fun a v v' =>
    match a with
    | some p => sc.run v p v' ∧ rev.Revises p v v'
    | none => v'.store.stored = v.store.stored
  spawns := fun _ _ => trivial
  quiet := fun p e v v' _ _ _ _ hquiet hrun =>
    ⟨trivial, hrun, fun t i a ha => Or.inl (by rw [hquiet.store.stored, ha])⟩
  tick := fun _ _ _ _ => ⟨trivial, rfl⟩
  fire := fun _ _ _ _ _ _ => ⟨trivial, rfl⟩

variable {rev} {sc : Scope σ P} {p : Pid}

theorem stable_revising : (rev.logic sc).Stable p (rev.Revising p) := by
  intro a v v' hactor hstep hrevising t i x hdraft
  obtain ⟨htx, hdrafts⟩ := hstep.own_tx hactor
  rw [hdrafts] at hdraft
  rw [htx, hstep.stored_locked hactor hdraft]
  exact hrevising t i x hdraft

/-- A locked row gets a version that is allowed for the committed one. -/
theorem Revising.hold {v : View σ P} (hrevising : rev.Revising p v) {y : Tx}
    {t : σ.Tbl} {i : Nat} {r : σ.Row t} {x : Option (σ.Row t)}
    (hopen : v.store.tx p = some y) (hseen : v.store.seen p t i = some r)
    (hallowed : rev.allows t y.startedAt r x) (e : Event σ P) :
    rev.Revising p (v.put p e (v.store.hold p t i x)) := by
  intro t' i' x' hdraft
  rw [View.put_store, Store.hold_draft_self] at hdraft
  rw [View.put_store, Store.hold_stored, Store.hold_tx]
  have hold (hx' : v.store.draft p t' i' = some x') := hrevising t' i' x' hx'
  by_cases htable : t' = t
  · subst htable
    rw [Drafts.set_apply] at hdraft
    split at hdraft
    · rename_i hrow
      subst hrow
      obtain rfl := Option.some.inj hdraft
      refine ⟨y, hopen, fun a ha => ?_⟩
      unfold Store.seen at hseen
      cases hown : v.store.draft p t' i' with
      | none =>
          rw [hown, Option.getD_none, ha] at hseen
          rw [Option.some.inj hseen]
          exact hallowed
      | some x₀ =>
          rw [hown, Option.getD_some] at hseen
          subst hseen
          obtain ⟨y', hopen', hbefore⟩ := hrevising t' i' (some r) hown
          rw [hopen] at hopen'
          obtain rfl := Option.some.inj hopen'
          exact rev.trans t' y.startedAt a r x (hbefore a ha) hallowed
    · exact hold hdraft
  · rw [Drafts.set_other _ _ _ htable] at hdraft
    exact hold hdraft

/-- A new row has no committed version. -/
theorem Revising.push {v : View σ P} (hrevising : rev.Revising p v) (hwf : v.store.Wf)
    {y : Tx} (hopen : v.store.tx p = some y) (t : σ.Tbl) (r : σ.Row t) (e : Event σ P) :
    rev.Revising p (v.put p e (v.store.push p t r)) := by
  have hvacant := (hwf.vacant t _ (le_refl _)).1
  intro t' i' x' hdraft
  rw [View.put_store, Store.push_draft_self] at hdraft
  rw [View.put_store, Store.push_stored v.store p t r hvacant, Store.push_tx]
  by_cases htable : t' = t
  · subst htable
    rw [Drafts.set_apply] at hdraft
    split at hdraft
    · rename_i hrow
      subst hrow
      refine ⟨y, hopen, fun a ha => ?_⟩
      rw [hvacant] at ha
      cases ha
    · exact hrevising t' i' x' hdraft
  · rw [Drafts.set_other _ _ _ htable] at hdraft
    exact hrevising t' i' x' hdraft

/-- Nothing is uncommitted where no transaction is open. -/
theorem revising_of_clean {v : View σ P} (hclean : v.store.draft p = Drafts.empty) :
    rev.Revising p v := by
  intro t i x hdraft
  rw [hclean] at hdraft
  cases hdraft

/-- The commit of a program that obeys the revision. -/
theorem Revising.commit {v : View σ P} (hrevising : rev.Revising p v) :
    rev.Revises p v (v.put p ⟨.sql .commit, true⟩ (v.store.finish p true)) := by
  intro t i a ha
  have hstored : (v.store.finish p true).stored t i =
      (v.store.draft p t i).getD (v.store.stored t i) := by
    rw [Store.finish_stored_keep]
    rfl
  cases hdraft : v.store.draft p t i with
  | none =>
      rw [hdraft, Option.getD_none, ha] at hstored
      exact Or.inl hstored
  | some x =>
      rw [hdraft, Option.getD_some] at hstored
      obtain ⟨y, hopen, hallowed⟩ := hrevising t i x hdraft
      refine Or.inr ⟨rfl, ?_, y, hopen, ?_⟩
      · rw [View.put_store, hstored, hdraft]
      · rw [View.put_store, hstored]
        exact hallowed a ha

/-- Each statement of such a program keeps to the revision. -/
theorem obeys_statement {v v' : View σ P} {choice : P.Choice} {stmt : Stmt σ}
    {res : stmt.Res} (hobeys : rev.Obeys (.sql stmt : Call σ P)) (hwf : v.store.Wf)
    (hrevising : rev.Revising p v)
    (hexec : v.exec p choice (.sql stmt) = some (res, v')) :
    rev.Revises p v v' ∧ rev.Revising p v' := by
  have hput := Logic.put_of_exec hexec
  have hstmt := (View.exec_sql hexec).1
  generalize v'.store = s' at hput hstmt
  subst hput
  have hsame (hstored : s'.stored = v.store.stored) :
      rev.Revises p v (v.put p ⟨.sql stmt, res⟩ s') :=
    fun t i a ha => Or.inl (by rw [View.put_store, hstored, ha])
  have hended (keep : Bool) (e : Event σ P) :
      rev.Revising p (v.put p e (v.store.finish p keep)) :=
    revising_of_clean (Store.finish_draft_self v.store p keep)
  cases stmt with
  | begin =>
      obtain ⟨hnone, rfl⟩ := Store.begin_cases hstmt
      refine ⟨hsame rfl, ?_⟩
      intro t i x hdraft
      have hopen := hwf.inTx p t i x hdraft
      rw [hnone] at hopen
      cases hopen
  | commit =>
      obtain ⟨y, -, -, rfl⟩ := Store.commit_cases hstmt
      cases res with
      | false => exact ⟨hsame (Store.finish_stored_drop v.store p), hended false _⟩
      | true => exact ⟨hrevising.commit, hended true _⟩
  | rollback =>
      obtain rfl := Store.rollback_cases hstmt
      exact ⟨hsame (Store.finish_stored_drop v.store p), hended false _⟩
  | read conn =>
      obtain rfl := (Store.read_cases hstmt).1
      exact ⟨hsame rfl, hrevising⟩
  | touch t id where_ set =>
      obtain ⟨y, hopen, hcases⟩ := Store.touch_cases hstmt
      rcases hcases with ⟨-, -, rfl⟩ | ⟨-, -, ⟨-, rfl, -⟩ | ⟨r, hseen, hwhere, -, rfl⟩⟩
      · exact ⟨hsame rfl, hrevising⟩
      · exact ⟨hsame rfl, hrevising⟩
      · exact ⟨hsame (Store.hold_stored v.store p t id _),
          hrevising.hold hopen hseen (hobeys y.startedAt r hwhere) _⟩
  | insert t row =>
      obtain ⟨y, hopen, hcases⟩ := Store.insert_cases hstmt
      rcases hcases with ⟨-, -, rfl⟩ | ⟨-, ⟨e, -, -, rfl⟩ | ⟨-, -, rfl⟩⟩
      · exact ⟨hsame rfl, hrevising⟩
      · refine ⟨hsame rfl, fun t' i x hdraft => ?_⟩
        obtain ⟨y', hopen', hallowed⟩ := hrevising t' i x hdraft
        rw [hopen] at hopen'
        obtain rfl := Option.some.inj hopen'
        exact ⟨_, Store.setTx_tx_self v.store p _, hallowed⟩
      · exact ⟨hsame (Store.push_stored v.store p t _ (hwf.vacant t _ (le_refl _)).1),
          hrevising.push hwf hopen t _ _⟩

/-- A program that obeys the revision, whatever else it does. -/
theorem obeys_rule {α : Type} {x : Code σ P α} (hobeys : x.Uses rev.Obeys) :
    (rev.logic sc).Triple p (rev.Revising p) x fun _ => rev.Revising p := by
  refine Logic.Triple.uses hobeys stable_revising ?_
  intro v choice c res v' hc hwf _ hrevising hexec hrun
  cases c with
  | sql stmt =>
      obtain ⟨hrevises, hrevising'⟩ := obeys_statement hc hwf hrevising hexec
      exact ⟨trivial, trivial, ⟨hrun, hrevises⟩, hrevising'⟩
  | node op =>
      obtain ⟨-, hstore, -⟩ := View.exec_node hexec
      refine ⟨trivial, trivial, ⟨hrun, fun t i a ha => Or.inl (by rw [hstore, ha])⟩, ?_⟩
      unfold Revising
      rw [hstore]
      exact hrevising
  | fork req =>
      obtain ⟨hstore, -, -⟩ := View.exec_fork hexec
      refine ⟨trivial, trivial, ⟨hrun, fun t i a ha => Or.inl (by rw [hstore, ha])⟩, ?_⟩
      unfold Revising
      rw [hstore]
      exact hrevising

variable {body : P.Req → Code σ P P.Ans}

theorem covered (hobeys : ∀ req, (body req).Uses rev.Obeys) :
    (rev.logic sc).Covers body (fun _ _ => True) fun _ _ _ _ => True := by
  intro p req _
  refine Logic.Triple.post (Logic.Triple.weaken (obeys_rule (hobeys req)) ?_)
    fun _ _ _ => trivial
  exact fun v _ _ hfresh => revising_of_clean hfresh.1.idle.2

/-- Before its first request, a world is under the control of the revision. -/
theorem verified_start {w : World σ P} (hwf : w.view.store.Wf) (hprocs : w.procs = [])
    (hunused : ∀ p, Unused p w.view) :
    (rev.logic sc).Verified (fun _ _ => True) (fun _ _ _ _ => True) w := by
  refine ⟨hwf, trivial, fun p proc hproc => ?_, fun p _ => ⟨hunused p, trivial⟩⟩
  rw [hprocs] at hproc
  cases hproc

/-- Calls that obey the revision, while everybody else keeps still. -/
theorem called (hobeys : ∀ req, (body req).Uses rev.Obeys) (who : Pid → Prop) {w : World σ P}
    (reqs : List P.Req) (hwf : w.view.store.Wf)
    (hunused : ∀ p, w.procs.length ≤ p → Unused p w.view)
    (hnew : ∀ p, who p → w.procs.length ≤ p ∧ p < w.procs.length + reqs.length) :
    (rev.logic (Scope.only who)).Called body who (fun _ _ _ _ => True) w reqs where
  wf := hwf
  inv := trivial
  unused := hunused
  scope := fun _ _ _ hrun => hrun
  new := hnew
  safe := fun _ req _ _ =>
    covered hobeys _ req trivial w.view hwf trivial ⟨hunused _ (Nat.le_add_right _ _), trivial⟩
  others := fun _ _ _ _ _ => trivial

end Revision

end Transact
