import Mes.Transact.Soundness

/-!
Statements as programs, with their proof rules. `sweep` is an `UPDATE`, a
`DELETE` or a `SELECT ... FOR UPDATE` with a `WHERE` clause: it reads a snapshot
and touches each row found there. `transaction` commits when its body ends with
a value and rolls back when it ends with an error.

The rules ask for what the next assertion needs and nothing more: for a
statement that changes nothing lasting, the invariant and the guarantee come
from the logic's own law.
-/

namespace Transact

variable {σ : Schema} {P : Platform} {α β : Type}

/-- The view after an operation of `p` that leaves the memory alone. -/
def View.put (v : View σ P) (p : Pid) (e : Event σ P) (s : Store σ) : View σ P :=
  { store := s, mem := v.mem, history := (p, e) :: v.history }

/-- The view after an operation of `p` on the memory. -/
def View.remember (v : View σ P) (p : Pid) (e : Event σ P) (mem : P.Mem) :
    View σ P :=
  { store := v.store, mem := mem, history := (p, e) :: v.history }

@[simp] theorem View.put_store (v : View σ P) (p : Pid) (e : Event σ P)
    (s : Store σ) : (v.put p e s).store = s := rfl

@[simp] theorem View.put_mem (v : View σ P) (p : Pid) (e : Event σ P)
    (s : Store σ) : (v.put p e s).mem = v.mem := rfl

@[simp] theorem View.put_history (v : View σ P) (p : Pid) (e : Event σ P)
    (s : Store σ) : (v.put p e s).history = (p, e) :: v.history := rfl

@[simp] theorem View.remember_store (v : View σ P) (p : Pid) (e : Event σ P)
    (mem : P.Mem) : (v.remember p e mem).store = v.store := rfl

@[simp] theorem View.remember_mem (v : View σ P) (p : Pid) (e : Event σ P)
    (mem : P.Mem) : (v.remember p e mem).mem = mem := rfl

@[simp] theorem View.remember_history (v : View σ P) (p : Pid) (e : Event σ P)
    (mem : P.Mem) : (v.remember p e mem).history = (p, e) :: v.history := rfl

namespace Sql

/-- A refused statement raises its error. -/
def answer : Except SqlError α → Code σ P α
  | .ok a => .ret a
  | .error e => .throw (P.fail e)

def read (conn : Conn) : Code σ P (Snapshot σ) :=
  .step (.sql (.read conn)) answer

def touch (t : σ.Tbl) (id : Nat) (where_ : Time → σ.Row t → Bool)
    (set : Time → Change σ t) : Code σ P (Option (σ.Row t)) :=
  .step (.sql (.touch t id where_ set)) answer

def insert (t : σ.Tbl) (row : Time → σ.Row t) : Code σ P (Nat × σ.Row t) :=
  .step (.sql (.insert t row)) answer

/-- Touch the rows one after the other and list the versions found. -/
def touchEach (t : σ.Tbl) (where_ : Time → σ.Row t → Bool)
    (set : Time → Change σ t) :
    List (Nat × σ.Row t) → List Nat → Code σ P (List (Nat × σ.Row t))
  | found, [] => .ret found
  | found, id :: rest => (touch t id where_ set).andThen fun row =>
      touchEach t where_ set (found ++ (row.map fun r => (id, r)).toList) rest

/-- The rows of a snapshot that satisfy a `WHERE` clause. -/
def matching (s : Snapshot σ) (t : σ.Tbl) (where_ : Time → σ.Row t → Bool) :
    List Nat :=
  ((s.rows t).filter fun row => where_ s.now row.2).map Prod.fst

def sweep (t : σ.Tbl) (where_ : Time → σ.Row t → Bool) (set : Time → Change σ t) :
    Code σ P (List (Nat × σ.Row t)) :=
  (read .manager).andThen fun s =>
    touchEach t where_ set [] (matching s t where_)

def transaction (body : Code σ P α) : Code σ P α :=
  .step (.sql .begin) fun _ =>
    (body.andThen fun a => .step (.sql .commit) fun _ => .ret a).attempt fun e =>
      .step (.sql .rollback) fun _ => .throw e

end Sql

/-- A change that only takes the lock. -/
def Change.keep {t : σ.Tbl} : Change σ t where
  apply := some
  keeps := fun r r' hsame s => by rw [← Option.some.inj hsame]

def Change.delete {t : σ.Tbl} : Change σ t where
  apply := fun _ => none
  keeps := fun r r' hgone => by cases hgone

/-- An update of columns outside every unique index. -/
def Change.modify {t : σ.Tbl} (f : σ.Row t → σ.Row t)
    (hkeeps : ∀ r s, σ.clash t (f r) s = σ.clash t r s) : Change σ t where
  apply := fun r => some (f r)
  keeps := fun r r' hsame s => by rw [← Option.some.inj hsame, hkeeps]

theorem Sql.mem_matching {s : Snapshot σ} {t : σ.Tbl}
    {where_ : Time → σ.Row t → Bool} {id : Nat} :
    id ∈ Sql.matching s t where_ ↔
      id < s.next t ∧ ∃ r, s.get t id = some r ∧ where_ s.now r = true := by
  simp only [Sql.matching, Snapshot.rows, List.mem_map, List.mem_filter,
    List.mem_filterMap, List.mem_range, Option.map_eq_some_iff, Prod.exists]
  constructor
  · rintro ⟨id', r, ⟨⟨id'', hlt, r', hget, hpair⟩, hwhere⟩, rfl⟩
    obtain ⟨rfl, rfl⟩ := Prod.mk.inj hpair
    exact ⟨hlt, r', hget, hwhere⟩
  · rintro ⟨hlt, r, hget, hwhere⟩
    exact ⟨id, r, ⟨⟨id, hlt, r, hget, rfl⟩, hwhere⟩, rfl⟩

theorem Snapshot.mem_rows {s : Snapshot σ} {t : σ.Tbl} {id : Nat} {r : σ.Row t} :
    (id, r) ∈ s.rows t ↔ id < s.next t ∧ s.get t id = some r := by
  simp only [Snapshot.rows, List.mem_filterMap, List.mem_range,
    Option.map_eq_some_iff]
  constructor
  · rintro ⟨id', hlt, r', hget, hpair⟩
    obtain ⟨rfl, rfl⟩ := Prod.mk.inj hpair
    exact ⟨hlt, hget⟩
  · rintro ⟨hlt, hget⟩
    exact ⟨id, hlt, r, hget, rfl⟩

/-- The identifiers of the rows with one given identifier: at most that one. -/
theorem Snapshot.withId (s : Snapshot σ) (t : σ.Tbl) (i : Nat)
    (test : σ.Row t → Bool) :
    ((s.rows t).filter fun row => row.1 == i && test row.2).map Prod.fst =
      if i < s.next t ∧ (s.get t i).any test = true then [i] else [] := by
  have hlist (l : List Nat) :
      ((l.filterMap fun id => (s.get t id).map fun r => (id, r)).filter
        fun row => row.1 == i && test row.2).map Prod.fst =
      (l.filter (· == i)).filter fun id => (s.get t id).any test := by
    induction l with
    | nil => rfl
    | cons id rest ih =>
        cases hget : s.get t id with
        | none => by_cases hid : id = i <;> simp_all
        | some r => by_cases hid : id = i <;> by_cases htest : test r <;> simp_all
  rw [Snapshot.rows, hlist, List.filter_beq]
  by_cases hlt : i < s.next t
  · rw [List.count_eq_one_of_mem List.nodup_range (List.mem_range.mpr hlt)]
    by_cases htest : (s.get t i).any test = true <;> simp [hlt, htest]
  · rw [List.count_eq_zero_of_not_mem (by simpa using hlt)]
    simp [hlt]

/-- Looking a row up by its identifier. -/
theorem Snapshot.find_row {s : Snapshot σ} {t : σ.Tbl} {id : Nat} {r : σ.Row t}
    (hlt : id < s.next t) (hget : s.get t id = some r) :
    (s.rows t).find? (fun row => row.1 == id) = some (id, r) := by
  cases hfound : (s.rows t).find? fun row => row.1 == id with
  | none =>
      have hmiss := List.find?_eq_none.mp hfound (id, r) (Snapshot.mem_rows.mpr ⟨hlt, hget⟩)
      simp at hmiss
  | some row =>
      have hid : row.1 = id := by simpa using List.find?_some hfound
      have hlisted : (row.1, row.2) ∈ s.rows t := List.mem_of_find?_eq_some hfound
      have hrow := (Snapshot.mem_rows.mp hlisted).2
      rw [hid, hget] at hrow
      rw [← hid, Option.some.inj hrow]

/-- What a query for one row may answer. -/
def Picks {ρ : Type} (get : Nat → Option ρ) (where_ : Nat → ρ → Bool) :
    Option (Nat × ρ) → Prop
  | none => ∀ id r, get id = some r → where_ id r = false
  | some (id, r) => get id = some r ∧ where_ id r = true

theorem Snapshot.picks {s : Store σ} (hwf : s.Wf) (now : Time) (t : σ.Tbl)
    (where_ : Nat → σ.Row t → Bool) :
    Picks (s.stored t) where_
      (((s.snapshot now s.stored).rows t).find? fun row => where_ row.1 row.2) := by
  cases hfound : ((s.snapshot now s.stored).rows t).find?
      fun row => where_ row.1 row.2 with
  | none =>
      intro id r hrow
      have hmem : (id, r) ∈ (s.snapshot now s.stored).rows t :=
        Snapshot.mem_rows.mpr ⟨hwf.lt_next hrow, hrow⟩
      simpa using List.find?_eq_none.mp hfound (id, r) hmem
  | some row =>
      have hmem := List.mem_of_find?_eq_some hfound
      have hwhere := List.find?_some hfound
      exact ⟨(Snapshot.mem_rows.mp hmem).2, by simpa using hwhere⟩

namespace Logic

variable {L : Logic σ P} {p : Pid} {A : View σ P → Prop}
  {Q : Except P.Err α → View σ P → Prop}

/-- Quiet statements need nothing from the invariant. -/
theorem quiet_sql {v v' : View σ P} {choice : P.Choice} {stmt : Stmt σ}
    {res : stmt.Res} (hwf : v.store.Wf) (hinv : L.Inv v)
    (hexec : v.exec p choice (.sql stmt) = some (res, v'))
    (hquiet : v.store.Quiet v'.store) (hrun : L.scope.run v p v') :
    L.Permits (.sql stmt : Call σ P) ∧ L.Inv v' ∧ L.Guar (some p) v v' := by
  obtain ⟨hinv', hguar⟩ := L.quiet p _ v v' hwf hinv (View.exec_base hwf hexec).2
    (fun op heq => by cases heq) ⟨hquiet, (View.exec_sql hexec).2.1⟩ hrun
  exact ⟨trivial, hinv', hguar⟩

theorem put_of_exec {v v' : View σ P} {choice : P.Choice} {stmt : Stmt σ}
    {res : stmt.Res} (hexec : v.exec p choice (.sql stmt) = some (res, v')) :
    v' = v.put p ⟨.sql stmt, res⟩ v'.store := by
  obtain ⟨-, hmem, hhistory⟩ := View.exec_sql hexec
  cases v'
  simp only [View.put, View.mk.injEq] at hmem hhistory ⊢
  exact ⟨trivial, hmem, hhistory⟩

theorem Triple.begin {k : Unit → Code σ P α} {R : Time → View σ P → Prop}
    (hstable : L.Stable p A)
    (hnext : ∀ v, v.store.Wf → L.Inv v → A v → v.store.tx p = none →
      R v.store.clock (v.put p ⟨.sql .begin, ()⟩ (v.store.setTx p
        (some { startedAt := v.store.clock, aborted := false }))))
    (hrest : ∀ t₀, L.Triple p (R t₀) (k ()) Q) :
    L.Triple p A (.step (.sql .begin) k) Q := by
  refine Triple.step (R := fun _ v => ∃ t₀, R t₀ v) hstable ?_
    fun _ => Triple.exists hrest
  intro v choice res v' hwf hinv hA hexec hrun
  obtain ⟨hnone, hstore⟩ := Store.begin_cases (View.exec_sql hexec).1
  have hquiet : v.store.Quiet v'.store := by
    rw [hstore]
    exact ⟨rfl, rfl, rfl⟩
  obtain ⟨hpermit, hinv', hguar⟩ := quiet_sql hwf hinv hexec hquiet hrun
  refine ⟨hpermit, hinv', hguar, v.store.clock, ?_⟩
  rw [put_of_exec hexec, hstore]
  exact hnext v hwf hinv hA hnone

theorem Triple.rollback {k : Unit → Code σ P α} {R : View σ P → Prop}
    (hstable : L.Stable p A)
    (hnext : ∀ v, v.store.Wf → L.Inv v → A v →
      R (v.put p ⟨.sql .rollback, ()⟩ (v.store.finish p false)))
    (hrest : L.Triple p R (k ()) Q) :
    L.Triple p A (.step (.sql .rollback) k) Q := by
  refine Triple.step (R := fun _ => R) hstable ?_ fun _ => hrest
  intro v choice res v' hwf hinv hA hexec hrun
  have hstore := Store.rollback_cases (View.exec_sql hexec).1
  have hquiet : v.store.Quiet v'.store := by
    rw [hstore]
    exact ⟨rfl, Store.finish_stored_drop v.store p, rfl⟩
  obtain ⟨hpermit, hinv', hguar⟩ := quiet_sql hwf hinv hexec hquiet hrun
  refine ⟨hpermit, hinv', hguar, ?_⟩
  rw [put_of_exec hexec, hstore]
  exact hnext v hwf hinv hA

/-- Committing what the transaction wrote is where the invariant is at stake. -/
theorem Triple.commit {k : Bool → Code σ P α} {R : View σ P → Prop}
    (hstable : L.Stable p A)
    (hinside : ∀ v, A v → ∃ t₀ W, Inside p t₀ W v)
    (hnext : ∀ v v', v.store.Wf → L.Inv v → A v → L.scope.run v p v' →
      ActsOn p ⟨.sql .commit, true⟩ v v' →
      v' = v.put p ⟨.sql .commit, true⟩ (v.store.finish p true) →
        L.Inv v' ∧ L.Guar (some p) v v' ∧ R v')
    (hrest : L.Triple p R (k true) Q) :
    L.Triple p A (.step (.sql .commit) k) Q := by
  refine Triple.step (R := fun res v => res = true ∧ R v) hstable ?_ ?_
  · intro v choice res v' hwf hinv hA hexec hrun
    obtain ⟨x, hopen, hkept, hstore⟩ := Store.commit_cases (View.exec_sql hexec).1
    obtain ⟨t₀, W, hin⟩ := hinside v hA
    have hactive : res = true := by
      rw [hin.1] at hopen
      rw [hkept, ← Option.some.inj hopen]
      rfl
    subst hactive
    have hput : v' = v.put p ⟨.sql .commit, true⟩ (v.store.finish p true) := by
      rw [put_of_exec hexec, hstore]
    obtain ⟨hinv', hguar, hR⟩ :=
      hnext v v' hwf hinv hA hrun (View.exec_base hwf hexec).2 hput
    exact ⟨trivial, hinv', hguar, rfl, hR⟩
  · intro res v hwf hinv hR
    obtain ⟨rfl, hR⟩ := hR
    exact hrest v hwf hinv hR

/-- The commit of an aborted transaction acts as a rollback. -/
theorem Triple.commit_doomed {k : Bool → Code σ P α} {R : View σ P → Prop}
    (hstable : L.Stable p A) (hdoomed : ∀ v, A v → Doomed p v)
    (hnext : ∀ v, v.store.Wf → L.Inv v → A v →
      R (v.put p ⟨.sql .commit, false⟩ (v.store.finish p false)))
    (hrest : L.Triple p R (k false) Q) :
    L.Triple p A (.step (.sql .commit) k) Q := by
  refine Triple.step (R := fun res v => res = false ∧ R v) hstable ?_ ?_
  · intro v choice res v' hwf hinv hA hexec hrun
    obtain ⟨x, hopen, hkept, hstore⟩ := Store.commit_cases (View.exec_sql hexec).1
    obtain ⟨y, hopen', haborted⟩ := hdoomed v hA
    have hdropped : res = false := by
      rw [hopen'] at hopen
      rw [hkept, ← Option.some.inj hopen, haborted]
      rfl
    subst hdropped
    have hquiet : v.store.Quiet v'.store := by
      rw [hstore]
      exact ⟨rfl, Store.finish_stored_drop v.store p, rfl⟩
    obtain ⟨hpermit, hinv', hguar⟩ := quiet_sql hwf hinv hexec hquiet hrun
    refine ⟨hpermit, hinv', hguar, rfl, ?_⟩
    rw [put_of_exec hexec, hstore]
    exact hnext v hwf hinv hA
  · intro res v hwf hinv hR
    obtain ⟨rfl, hR⟩ := hR
    exact hrest v hwf hinv hR

theorem Triple.read_pool {k : Except SqlError (Snapshot σ) → Code σ P α}
    {R : Snapshot σ → View σ P → Prop} (hstable : L.Stable p A)
    (hnext : ∀ v s, v.store.Wf → L.Inv v → A v →
      s = v.store.snapshot v.store.clock v.store.stored →
        R s (v.put p ⟨.sql (.read .pool), .ok s⟩ v.store))
    (hrest : ∀ s, L.Triple p (R s) (k (.ok s)) Q) :
    L.Triple p A (.step (.sql (.read .pool)) k) Q := by
  refine Triple.step (R := fun res v => ∃ s, res = .ok s ∧ R s v) hstable ?_ ?_
  · intro v choice res v' hwf hinv hA hexec hrun
    obtain ⟨hstore, hres⟩ := Store.read_cases (View.exec_sql hexec).1
    have hquiet : v.store.Quiet v'.store := by
      rw [hstore]
      exact Store.Quiet.refl _
    obtain ⟨hpermit, hinv', hguar⟩ := quiet_sql hwf hinv hexec hquiet hrun
    refine ⟨hpermit, hinv', hguar, _, hres, ?_⟩
    rw [put_of_exec hexec, hstore, hres]
    exact hnext v _ hwf hinv hA rfl
  · intro res v hwf hinv hR
    obtain ⟨s, rfl, hR⟩ := hR
    exact hrest s v hwf hinv hR

/-- Inside a transaction a statement sees the program's own rows. -/
theorem Triple.read_manager {k : Except SqlError (Snapshot σ) → Code σ P α}
    {R : Snapshot σ → View σ P → Prop} {t₀ : Time} (hstable : L.Stable p A)
    (hinside : ∀ v, A v → ∃ W, Inside p t₀ W v)
    (hnext : ∀ v s W, v.store.Wf → L.Inv v → A v → Inside p t₀ W v →
      s = (v.store.snapshot t₀ fun t id => (W t id).getD (v.store.stored t id)) →
        R s (v.put p ⟨.sql (.read .manager), .ok s⟩ v.store))
    (hrest : ∀ s, L.Triple p (R s) (k (.ok s)) Q) :
    L.Triple p A (.step (.sql (.read .manager)) k) Q := by
  refine Triple.step (R := fun res v => ∃ s, res = .ok s ∧ R s v) hstable ?_ ?_
  · intro v choice res v' hwf hinv hA hexec hrun
    obtain ⟨hstore, x, hopen, hres⟩ := Store.read_cases (View.exec_sql hexec).1
    obtain ⟨W, hin⟩ := hinside v hA
    have hx : x = { startedAt := t₀, aborted := false } := by
      rw [hin.1] at hopen
      exact (Option.some.inj hopen).symm
    subst hx
    have hquiet : v.store.Quiet v'.store := by
      rw [hstore]
      exact Store.Quiet.refl _
    obtain ⟨hpermit, hinv', hguar⟩ := quiet_sql hwf hinv hexec hquiet hrun
    rcases hres with ⟨haborted, -⟩ | ⟨-, hres⟩
    · cases haborted
    · refine ⟨hpermit, hinv', hguar, _, hres, ?_⟩
      rw [put_of_exec hexec, hstore, hres]
      exact hnext v _ W hwf hinv hA hin (by rw [hin.2])
  · intro res v hwf hinv hR
    obtain ⟨s, rfl, hR⟩ := hR
    exact hrest s v hwf hinv hR

/-- A touched row is locked with its new version; otherwise nothing happens. -/
theorem Triple.touch {t : σ.Tbl} {id : Nat} {where_ : Time → σ.Row t → Bool}
    {set : Time → Change σ t}
    {k : Except SqlError (Option (σ.Row t)) → Code σ P α}
    {R : Option (σ.Row t) → View σ P → Prop} {t₀ : Time} (hstable : L.Stable p A)
    (hinside : ∀ v, A v → ∃ W, Inside p t₀ W v)
    (hmiss : ∀ v W, v.store.Wf → L.Inv v → A v → Inside p t₀ W v →
      (∀ r, (W t id).getD (v.store.stored t id) = some r → where_ t₀ r = false) →
        R none (v.put p ⟨.sql (.touch t id where_ set), .ok none⟩ v.store))
    (hhit : ∀ v W r, v.store.Wf → L.Inv v → A v → Inside p t₀ W v →
      ((v.store.table t).cell id).lockedAgainst p = false →
      (W t id).getD (v.store.stored t id) = some r → where_ t₀ r = true →
        R (some r) (v.put p ⟨.sql (.touch t id where_ set), .ok (some r)⟩
          (v.store.hold p t id ((set t₀).apply r))))
    (hrest : ∀ found, L.Triple p (R found) (k (.ok found)) Q) :
    L.Triple p A (.step (.sql (.touch t id where_ set)) k) Q := by
  refine Triple.step (R := fun res v => ∃ found, res = .ok found ∧ R found v)
    hstable ?_ ?_
  · intro v choice res v' hwf hinv hA hexec hrun
    obtain ⟨x, hopen, hcases⟩ := Store.touch_cases (View.exec_sql hexec).1
    obtain ⟨W, hin⟩ := hinside v hA
    have hx : x = { startedAt := t₀, aborted := false } := by
      rw [hin.1] at hopen
      exact (Option.some.inj hopen).symm
    subst hx
    have hput := put_of_exec hexec
    rcases hcases with ⟨haborted, -⟩ | ⟨-, hfree, hcases⟩
    · cases haborted
    · rcases hcases with ⟨hres, hstore, hmissed⟩ | ⟨r, hseen, hwhere, hres, hstore⟩
      · have hquiet : v.store.Quiet v'.store := by
          rw [hstore]
          exact Store.Quiet.refl _
        obtain ⟨hpermit, hinv', hguar⟩ := quiet_sql hwf hinv hexec hquiet hrun
        refine ⟨hpermit, hinv', hguar, none, hres, ?_⟩
        rw [hput, hstore, hres]
        refine hmiss v W hwf hinv hA hin fun r hview => hmissed r ?_
        rw [Store.seen, hin.2]
        exact hview
      · have hquiet : v.store.Quiet v'.store := by
          rw [hstore]
          exact ⟨rfl, Store.hold_stored _ _ _ _ _, Store.hold_born _ _ _ _ _⟩
        obtain ⟨hpermit, hinv', hguar⟩ := quiet_sql hwf hinv hexec hquiet hrun
        refine ⟨hpermit, hinv', hguar, some r, hres, ?_⟩
        rw [hput, hstore, hres]
        refine hhit v W r hwf hinv hA hin hfree ?_ hwhere
        rw [Store.seen, hin.2] at hseen
        exact hseen
  · intro res v hwf hinv hR
    obtain ⟨found, rfl, hR⟩ := hR
    exact hrest found v hwf hinv hR

theorem inside_hold {v : View σ P} {t₀ : Time} {W : Drafts σ}
    (hin : Inside p t₀ W v) (e : Event σ P) (t : σ.Tbl) (id : Nat)
    (r : Option (σ.Row t)) :
    Inside p t₀ (W.set t id r) (v.put p e (v.store.hold p t id r)) := by
  refine ⟨hin.1, ?_⟩
  rw [View.put_store, Store.hold_draft_self, hin.2]

theorem inside_push {v : View σ P} {t₀ : Time} {W : Drafts σ}
    (hin : Inside p t₀ W v) (e : Event σ P) (t : σ.Tbl) (r : σ.Row t) :
    Inside p t₀ (W.set t (v.store.next t) (some r))
      (v.put p e (v.store.push p t r)) := by
  refine ⟨hin.1, ?_⟩
  rw [View.put_store, Store.push_draft_self, hin.2]

/-- A new row is recorded at once, so the invariant is asked for already. -/
theorem Triple.insert {t : σ.Tbl} {row : Time → σ.Row t}
    {k : Except SqlError (Nat × σ.Row t) → Code σ P α}
    {R : Nat → View σ P → Prop} {E : SqlError → View σ P → Prop} {t₀ : Time}
    (hstable : L.Stable p A) (hinside : ∀ v, A v → ∃ W, Inside p t₀ W v)
    (hrefused : ∀ v v' W e, v.store.Wf → L.Inv v → A v → Inside p t₀ W v →
      v.store.Refuses p t (row t₀) e → L.scope.run v p v' →
      v' = v.put p ⟨.sql (.insert t row), .error e⟩
        (v.store.setTx p (some { startedAt := t₀, aborted := true })) → E e v')
    (haccepted : ∀ v v' e W, v.store.Wf → L.Inv v → A v → Inside p t₀ W v →
      v.store.Accepts p t (row t₀) → L.scope.run v p v' → ActsOn p e v v' →
      e = ⟨.sql (.insert t row), .ok (v.store.next t, row t₀)⟩ →
      v' = v.put p e (v.store.push p t (row t₀)) →
        L.Inv v' ∧ L.Guar (some p) v v' ∧ R (v.store.next t) v')
    (hrest : ∀ id, L.Triple p (R id) (k (.ok (id, row t₀))) Q)
    (herror : ∀ e, L.Triple p (E e) (k (.error e)) Q) :
    L.Triple p A (.step (.sql (.insert t row)) k) Q := by
  refine Triple.step (R := fun res v => (∃ e, res = .error e ∧ E e v) ∨
    ∃ id, res = .ok (id, row t₀) ∧ R id v) hstable ?_ ?_
  · intro v choice res v' hwf hinv hA hexec hrun
    obtain ⟨x, hopen, hcases⟩ := Store.insert_cases (View.exec_sql hexec).1
    obtain ⟨W, hin⟩ := hinside v hA
    have hx : x = { startedAt := t₀, aborted := false } := by
      rw [hin.1] at hopen
      exact (Option.some.inj hopen).symm
    subst hx
    have hput := put_of_exec hexec
    rcases hcases with ⟨haborted, -⟩ | ⟨-, ⟨e, hrefuses, hres, hstore⟩ | ⟨haccepts, hres, hstore⟩⟩
    · cases haborted
    · have hquiet : v.store.Quiet v'.store := by
        rw [hstore]
        exact ⟨rfl, rfl, rfl⟩
      obtain ⟨hpermit, hinv', hguar⟩ := quiet_sql hwf hinv hexec hquiet hrun
      refine ⟨hpermit, hinv', hguar, Or.inl ⟨e, hres, ?_⟩⟩
      rw [hstore, hres] at hput
      exact hrefused v v' W e hwf hinv hA hin hrefuses hrun hput
    · rw [hstore] at hput
      obtain ⟨hinv', hguar, hR⟩ := haccepted v v' _ W hwf hinv hA hin haccepts hrun
        (View.exec_base hwf hexec).2 (by rw [hres]) hput
      exact ⟨trivial, hinv', hguar, Or.inr ⟨_, hres, hR⟩⟩
  · intro res v hwf hinv hR
    rcases hR with ⟨e, rfl, hE⟩ | ⟨id, rfl, hR⟩
    · exact herror e v hwf hinv hE
    · exact hrest id v hwf hinv hR

/-- An operation on the memory of the server process. -/
theorem Triple.node {op : P.Op} {k : P.Res op → Code σ P α}
    {R : P.Res op → View σ P → Prop} (hstable : L.Stable p A)
    (hnext : ∀ v choice res mem v', v.store.Wf → L.Inv v → A v →
      P.exec p v.store.clock op choice v.mem = some (res, mem) →
      L.scope.run v p v' → ActsOn p ⟨.node op, res⟩ v v' →
      v' = v.remember p ⟨.node op, res⟩ mem →
        L.Inv v' ∧ L.Guar (some p) v v' ∧ R res v')
    (hrest : ∀ res, L.Triple p (R res) (k res) Q) :
    L.Triple p A (.step (.node op) k) Q := by
  refine Triple.step hstable ?_ hrest
  intro v choice res v' hwf hinv hA hexec hrun
  obtain ⟨hop, hstore, hhistory⟩ := View.exec_node hexec
  have hview : v' = v.remember p ⟨.node op, res⟩ v'.mem := by
    rw [View.remember, ← hstore, ← hhistory]
  obtain ⟨hinv', hguar, hR⟩ := hnext v choice res v'.mem v' hwf hinv hA hop hrun
    (View.exec_base hwf hexec).2 hview
  exact ⟨trivial, hinv', hguar, hR⟩

theorem Triple.fork {req : P.Req} {k : Unit → Code σ P α} {R : View σ P → Prop}
    (hstable : L.Stable p A) (hstarts : L.starts req)
    (hnext : ∀ v, v.store.Wf → L.Inv v → A v →
      R (v.put p ⟨.fork req, ()⟩ v.store))
    (hrest : L.Triple p R (k ()) Q) :
    L.Triple p A (.step (.fork req) k) Q := by
  refine Triple.step (R := fun _ => R) hstable ?_ fun _ => hrest
  intro v choice res v' hwf hinv hA hexec hrun
  obtain ⟨hstore, hmem, hhistory⟩ := View.exec_fork hexec
  have hquiet : v.Quiet v' := ⟨by rw [hstore]; exact Store.Quiet.refl _, hmem⟩
  obtain ⟨hinv', hguar⟩ := L.quiet p _ v v' hwf hinv (View.exec_base hwf hexec).2
    (fun op heq => by cases heq) hquiet hrun
  have hview : v' = v.put p ⟨.fork req, ()⟩ v.store := by
    rw [View.put, ← hstore, ← hmem, ← hhistory]
  refine ⟨hstarts, hinv', hguar, ?_⟩
  rw [hview]
  exact hnext v hwf hinv hA

/-- The assertion after a program: `R` on a value, `E` on an error. -/
def ends (R : α → View σ P → Prop) (E : P.Err → View σ P → Prop) :
    Except P.Err α → View σ P → Prop
  | .ok a => R a
  | .error e => E e

@[simp] theorem ends_ok (R : α → View σ P → Prop) (E : P.Err → View σ P → Prop)
    (a : α) : ends R E (.ok a) = R a := rfl

@[simp] theorem ends_error (R : α → View σ P → Prop) (E : P.Err → View σ P → Prop)
    (e : P.Err) : ends R E (.error e) = E e := rfl

/-- The loop rule of a statement with a `WHERE` clause. `J` is the loop
invariant over the identifiers that are left and the versions found so far. -/
theorem Triple.touchEach {t : σ.Tbl} {where_ : Time → σ.Row t → Bool}
    {set : Time → Change σ t} {t₀ : Time}
    {J : List Nat → List (Nat × σ.Row t) → View σ P → Prop}
    {f : List (Nat × σ.Row t) → Code σ P α}
    (hstable : ∀ rest found, L.Stable p (J rest found))
    (hinside : ∀ rest found v, J rest found v → ∃ W, Inside p t₀ W v)
    (hmiss : ∀ id rest found v W, v.store.Wf → L.Inv v → J (id :: rest) found v →
      Inside p t₀ W v →
      (∀ r, (W t id).getD (v.store.stored t id) = some r → where_ t₀ r = false) →
        J rest found (v.put p ⟨.sql (.touch t id where_ set), .ok none⟩ v.store))
    (hhit : ∀ id rest found v W r, v.store.Wf → L.Inv v → J (id :: rest) found v →
      Inside p t₀ W v → ((v.store.table t).cell id).lockedAgainst p = false →
      (W t id).getD (v.store.stored t id) = some r → where_ t₀ r = true →
        J rest (found ++ [(id, r)])
          (v.put p ⟨.sql (.touch t id where_ set), .ok (some r)⟩
            (v.store.hold p t id ((set t₀).apply r))))
    (hrest : ∀ found, L.Triple p (J [] found) (f found) Q) :
    ∀ ids found, L.Triple p (J ids found)
      ((Sql.touchEach t where_ set found ids).andThen f) Q := by
  intro ids
  induction ids with
  | nil => exact hrest
  | cons id rest ih =>
      intro found
      refine Triple.touch
        (R := fun row => J rest (found ++ (row.map fun r => (id, r)).toList))
        (hstable (id :: rest) found) (hinside (id :: rest) found) ?_ ?_ fun row => ih _
      · intro v W hwf hinv hJ hin hmissed
        simpa using hmiss id rest found v W hwf hinv hJ hin hmissed
      · intro v W r hwf hinv hJ hin hfree hview hwhere
        exact hhit id rest found v W r hwf hinv hJ hin hfree hview hwhere

/-- The transaction rule. -/
theorem Triple.transaction {body : Code σ P α} {B : Time → View σ P → Prop}
    {C : α → View σ P → Prop} {E : P.Err → View σ P → Prop}
    (hstable : L.Stable p A)
    (hbegin : ∀ v, v.store.Wf → L.Inv v → A v → v.store.tx p = none →
      B v.store.clock (v.put p ⟨.sql .begin, ()⟩ (v.store.setTx p
        (some { startedAt := v.store.clock, aborted := false }))))
    (hbody : ∀ t₀, L.Triple p (B t₀) body (ends C E))
    (hcommit : ∀ a, L.Triple p (C a) (.step (.sql .commit) fun _ => .ret a)
      (ends (fun a => Q (.ok a)) E))
    (hrollback : ∀ e, L.Triple p (E e)
      (.step (.sql .rollback) fun _ => .throw e) Q) :
    L.Triple p A (Sql.transaction body) Q := by
  refine Triple.begin hstable hbegin fun t₀ => ?_
  refine Triple.attempt (Q := ends (fun a => Q (.ok a)) E) ?_
    (fun _ _ hpost => hpost) hrollback
  exact Triple.andThen (hbody t₀) hcommit fun _ _ herror => herror

end Logic

end Transact
