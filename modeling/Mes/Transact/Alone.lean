import Mes.Transact.Revision
import Mes.Transact.Solo

/-!
Total correctness of a program that runs alone on a database that does not fail. Nobody
else has a transaction open, so no statement waits for a lock: a run always ends, and
`Total` says how. The rules follow the shape of the program, as those of the
rely-guarantee logic do.
-/

namespace Transact

variable {σ : Schema} {P : Platform} {α β : Type}

/-- A program without a transaction has no uncommitted rows. -/
theorem idle_of_closed {p : Pid} {v : View σ P} (hwf : v.store.Wf)
    (hclosed : v.store.tx p = none) : Idle p v := by
  refine ⟨hclosed, funext fun t => funext fun i => ?_⟩
  cases hdraft : v.store.draft p t i with
  | none => rfl
  | some x =>
      have hopen := hwf.inTx p t i x hdraft
      rw [hclosed] at hopen
      cases hopen

/-- Nobody but `p` has a transaction open. -/
structure Alone (p : Pid) (v : View σ P) : Prop where
  wf : v.store.Wf
  others : ∀ q, q ≠ p → v.store.tx q = none

namespace Alone

variable {p : Pid} {v v' : View σ P}

theorem exec (halone : Alone p v) {choice : P.Choice} {c : Call σ P} {res : c.Res}
    (hexec : v.exec p choice c = some (res, v')) : Alone p v' := by
  obtain ⟨hwf, hacts⟩ := View.exec_base halone.wf hexec
  exact ⟨hwf, fun q hq => by rw [hacts.store.txOther q hq, halone.others q hq]⟩

/-- Every lock is held by `p`. -/
theorem own_lock (halone : Alone p v) {t : σ.Tbl} {i : Nat} {q : Pid} {x : Option (σ.Row t)}
    (hlock : ((v.store.table t).cell i).lock = some (q, x)) : q = p := by
  by_contra hne
  have hdraft : v.store.draft q t i = some x := by
    simp [Store.draft, Cell.draft, hlock]
  have hopen := halone.wf.inTx q t i x hdraft
  rw [halone.others q hne] at hopen
  cases hopen

theorem unlocked (halone : Alone p v) (t : σ.Tbl) (i : Nat) :
    ((v.store.table t).cell i).lockedAgainst p = false := by
  unfold Cell.lockedAgainst
  split
  · rfl
  · rename_i q x hlock
    simpa using halone.own_lock hlock

/-- A conflict is certain or there is none. -/
theorem always_of_maybe (halone : Alone p v) {t : σ.Tbl} {i : Nat} {bad : σ.Row t → Bool}
    (hmaybe : ((v.store.table t).cell i).maybe p bad = true) :
    ((v.store.table t).cell i).always p bad = true := by
  unfold Cell.maybe at hmaybe
  unfold Cell.always
  split at hmaybe
  · exact hmaybe
  · rename_i q x hlock
    obtain rfl := halone.own_lock hlock
    simpa using hmaybe

variable {t₀ : Time} {W : Drafts σ}

theorem touch_runs (halone : Alone p v) (hinside : Inside p t₀ W v) (t : σ.Tbl) (i : Nat)
    (where_ : Time → σ.Row t → Bool) (set : Time → Change σ t) :
    ∃ out, v.store.exec p (.touch t i where_ set) = some out := by
  simp only [Store.exec, Store.execTouch, hinside.1, halone.unlocked, Bool.false_eq_true,
    if_false]
  split
  · exact ⟨_, rfl⟩
  · split <;> exact ⟨_, rfl⟩

theorem insert_runs (halone : Alone p v) (hinside : Inside p t₀ W v) (t : σ.Tbl)
    (row : Time → σ.Row t) : ∃ out, v.store.exec p (.insert t row) = some out := by
  simp only [Store.exec, Store.execInsert, hinside.1, Bool.false_eq_true, if_false]
  split
  · exact ⟨_, rfl⟩
  · split
    · exact ⟨_, rfl⟩
    · rename_i halways
      split
      · rename_i hmaybe
        obtain ⟨i, hi, hcell⟩ := List.any_eq_true.mp hmaybe
        exact absurd (List.any_eq_true.mpr ⟨i, hi, halone.always_of_maybe hcell⟩) halways
      · split <;> exact ⟨_, rfl⟩

end Alone

/-- From a view that satisfies `A`, the program ends, and it ends as `Q` says. -/
def Total (env : Fortune P) (p : Pid) (A : View σ P → Prop) (x : Code σ P α)
    (Q : Except P.Err α → View σ P → Prop) : Prop :=
  ∀ n v, Alone p v → A v → ∃ out m v', solo env p x n v = some (out, m, v') ∧
    Alone p v' ∧ Q out v'

namespace Total

open Logic

variable {env : Fortune P} {p : Pid} {A B : View σ P → Prop}
  {Q Q' : Except P.Err α → View σ P → Prop} {R : α → View σ P → Prop}
  {E : P.Err → View σ P → Prop}

theorem ret {a : α} (hpost : ∀ v, A v → Q (.ok a) v) : Total env p A (.ret a) Q :=
  fun n v halone hA => ⟨.ok a, n, v, rfl, halone, hpost v hA⟩

theorem throw {e : P.Err} (hpost : ∀ v, A v → Q (.error e) v) :
    Total env p A (.throw e) Q :=
  fun n v halone hA => ⟨.error e, n, v, rfl, halone, hpost v hA⟩

theorem weaken {x : Code σ P α} (htotal : Total env p B x Q)
    (hpre : ∀ v, Alone p v → A v → B v) : Total env p A x Q :=
  fun n v halone hA => htotal n v halone (hpre v halone hA)

theorem post {x : Code σ P α} (htotal : Total env p A x Q)
    (hpost : ∀ out v, Q out v → Q' out v) : Total env p A x Q' := by
  intro n v halone hA
  obtain ⟨out, m, v', hrun, halone', hQ⟩ := htotal n v halone hA
  exact ⟨out, m, v', hrun, halone', hpost out v' hQ⟩

/-- The run ends. -/
theorem ends_run {x : Code σ P α} (htotal : Total env p A x Q) {n : Nat} {v : View σ P}
    (halone : Alone p v) (hA : A v) : ∃ out, solo env p x n v = some out := by
  obtain ⟨out, m, v', hrun, -⟩ := htotal n v halone hA
  exact ⟨_, hrun⟩

/-- A fact that the assertion contains. -/
theorem given {x : Code σ P α} {φ : Prop} (hfact : ∀ v, Alone p v → A v → φ)
    (htotal : φ → Total env p A x Q) : Total env p A x Q :=
  fun n v halone hA => htotal (hfact v halone hA) n v halone hA

theorem andThen {x : Code σ P α} {f : α → Code σ P β} {T : Except P.Err β → View σ P → Prop}
    (hx : Total env p A x (ends R E)) (hf : ∀ a, Total env p (R a) (f a) T)
    (herror : ∀ e v, E e v → T (.error e) v) : Total env p A (x.andThen f) T := by
  intro n v halone hA
  obtain ⟨out, m, v', hrun, halone', hout⟩ := hx n v halone hA
  rw [solo_andThen, hrun]
  cases out with
  | ok a => exact hf a m v' halone' hout
  | error e => exact ⟨.error e, m, v', rfl, halone', herror e v' hout⟩

theorem attempt {x : Code σ P α} {handler : P.Err → Code σ P α}
    (hx : Total env p A x (ends R E)) (hok : ∀ a v, R a v → Q (.ok a) v)
    (hhandler : ∀ e, Total env p (E e) (handler e) Q) :
    Total env p A (x.attempt handler) Q := by
  intro n v halone hA
  obtain ⟨out, m, v', hrun, halone', hout⟩ := hx n v halone hA
  rw [solo_attempt, hrun]
  cases out with
  | ok a => exact ⟨.ok a, m, v', rfl, halone', hok a v' hout⟩
  | error e => exact hhandler e m v' halone' hout

/-- One operation that is carried out. -/
theorem step (hserved : ∀ n, env.fault n = none) {c : Call σ P} {k : c.Res → Code σ P α}
    {S : c.Res → View σ P → Prop}
    (hop : ∀ n v, Alone p v → A v → ∃ res v', v.exec p (env.choice n) c = some (res, v') ∧
      S res v') (hrest : ∀ res, Total env p (S res) (k res) Q) :
    Total env p A (.step c k) Q := by
  intro n v halone hA
  obtain ⟨res, v', hexec, hS⟩ := hop n v halone hA
  rw [solo_step, attempt_served (hserved n), hexec]
  exact hrest res (n + 1) v' (halone.exec hexec) hS

section Statements

variable (hserved : ∀ n, env.fault n = none)
include hserved

/-- An operation on the memory of the server process. -/
theorem node {op : P.Op} {k : P.Res op → Code σ P α} {S : P.Res op → View σ P → Prop}
    (hop : ∀ n v, Alone p v → A v → ∃ res mem,
      P.exec p v.store.clock op (env.choice n) v.mem = some (res, mem) ∧
        S res (v.remember p ⟨.node op, res⟩ mem))
    (hrest : ∀ res, Total env p (S res) (k res) Q) :
    Total env p A (.step (.node op) k) Q := by
  refine step hserved (S := S) (fun n v halone hA => ?_) hrest
  obtain ⟨res, mem, hexec, hS⟩ := hop n v halone hA
  exact ⟨res, _, by rw [View.exec, hexec, Option.map_some]; rfl, hS⟩

/-- A statement is carried out as the store says. -/
theorem sql {stmt : Stmt σ} {k : stmt.Res → Code σ P α} {S : stmt.Res → View σ P → Prop}
    (hop : ∀ v, Alone p v → A v → ∃ res s', v.store.exec p stmt = some (res, s') ∧
      S res (v.put p ⟨.sql stmt, res⟩ s'))
    (hrest : ∀ res, Total env p (S res) (k res) Q) :
    Total env p A (.step (.sql stmt) k) Q := by
  refine step hserved (S := S) (fun n v halone hA => ?_) hrest
  obtain ⟨res, s', hexec, hS⟩ := hop v halone hA
  exact ⟨res, _, by rw [View.exec, hexec, Option.map_some]; rfl, hS⟩

theorem begin {k : Unit → Code σ P α}
    (hopen : ∀ v, A v → v.store.tx p = none ∧ B (v.put p ⟨.sql .begin, ()⟩
      (v.store.setTx p (some { startedAt := v.store.clock, aborted := false }))))
    (hrest : Total env p B (k ()) Q) : Total env p A (.step (.sql .begin) k) Q := by
  refine sql hserved (S := fun _ => B) (fun v halone hA => ?_) fun _ => hrest
  obtain ⟨hnone, hB⟩ := hopen v hA
  exact ⟨(), _, by rw [Store.exec, hnone], hB⟩

theorem read_pool {k : Except SqlError (Snapshot σ) → Code σ P α}
    {S : Snapshot σ → View σ P → Prop}
    (hread : ∀ v, Alone p v → A v → S v.store.committed (v.queried p))
    (hrest : ∀ s, Total env p (S s) (k (.ok s)) Q) :
    Total env p A (.step (.sql (.read .pool)) k) Q := by
  refine sql hserved (S := fun res v => ∃ s, res = .ok s ∧ S s v)
    (fun v halone hA => ⟨_, _, rfl, _, rfl, hread v halone hA⟩) ?_
  rintro (e | s)
  · exact fun n v _ hfalse => by obtain ⟨s, hs, -⟩ := hfalse; cases hs
  · exact weaken (hrest s) fun v _ hS => by
      obtain ⟨s', hs, hS⟩ := hS
      rwa [Except.ok.inj hs]

theorem read_manager {k : Except SqlError (Snapshot σ) → Code σ P α} {t₀ : Time}
    {S : Snapshot σ → View σ P → Prop} (hinside : ∀ v, A v → ∃ W, Inside p t₀ W v)
    (hread : ∀ v s, Alone p v → A v → s = v.store.snapshot t₀ (v.store.seen p) →
      S s (v.put p ⟨.sql (.read .manager), .ok s⟩ v.store))
    (hrest : ∀ s, Total env p (S s) (k (.ok s)) Q) :
    Total env p A (.step (.sql (.read .manager)) k) Q := by
  refine sql hserved (S := fun res v => ∃ s, res = .ok s ∧ S s v) (fun v halone hA => ?_) ?_
  · obtain ⟨W, hin⟩ := hinside v hA
    refine ⟨.ok (v.store.snapshot t₀ (v.store.seen p)), v.store, ?_, _, rfl,
      hread v _ halone hA rfl⟩
    simp only [Store.exec, Store.execRead, hin.1, Bool.false_eq_true, if_false]
    rfl
  · rintro (e | s)
    · exact fun n v _ hfalse => by obtain ⟨s, hs, -⟩ := hfalse; cases hs
    · exact weaken (hrest s) fun v _ hS => by
        obtain ⟨s', hs, hS⟩ := hS
        rwa [Except.ok.inj hs]

theorem touch {t : σ.Tbl} {i : Nat} {where_ : Time → σ.Row t → Bool}
    {set : Time → Change σ t} {k : Except SqlError (Option (σ.Row t)) → Code σ P α} {t₀ : Time}
    {S : Option (σ.Row t) → View σ P → Prop} (hinside : ∀ v, A v → ∃ W, Inside p t₀ W v)
    (hmiss : ∀ v, Alone p v → A v →
      (∀ r, v.store.seen p t i = some r → where_ t₀ r = false) →
        S none (v.put p ⟨.sql (.touch t i where_ set), .ok none⟩ v.store))
    (hhit : ∀ v r, Alone p v → A v → v.store.seen p t i = some r → where_ t₀ r = true →
      S (some r) (v.put p ⟨.sql (.touch t i where_ set), .ok (some r)⟩
        (v.store.hold p t i ((set t₀).apply r))))
    (hrest : ∀ found, Total env p (S found) (k (.ok found)) Q) :
    Total env p A (.step (.sql (.touch t i where_ set)) k) Q := by
  refine sql hserved (S := fun res v => ∃ found, res = .ok found ∧ S found v)
    (fun v halone hA => ?_) ?_
  · obtain ⟨W, hin⟩ := hinside v hA
    obtain ⟨⟨res, s'⟩, hexec⟩ := halone.touch_runs hin t i where_ set
    refine ⟨res, s', hexec, ?_⟩
    obtain ⟨x, hopen, hcases⟩ := Store.touch_cases hexec
    rw [hin.1] at hopen
    obtain rfl := Option.some.inj hopen
    rcases hcases with ⟨haborted, -⟩ | ⟨-, -, ⟨rfl, rfl, hnone⟩ | ⟨r, hseen, hwhere, rfl, rfl⟩⟩
    · cases haborted
    · exact ⟨none, rfl, hmiss v halone hA hnone⟩
    · exact ⟨some r, rfl, hhit v r halone hA hseen hwhere⟩
  · rintro (e | found)
    · exact fun n v _ hfalse => by obtain ⟨found, hfound, -⟩ := hfalse; cases hfound
    · exact weaken (hrest found) fun v _ hS => by
        obtain ⟨found', hfound, hS⟩ := hS
        rwa [Except.ok.inj hfound]

theorem insert {t : σ.Tbl} {row : Time → σ.Row t}
    {k : Except SqlError (Nat × σ.Row t) → Code σ P α} {t₀ : Time}
    {S : Except SqlError (Nat × σ.Row t) → View σ P → Prop}
    (hinside : ∀ v, A v → ∃ W, Inside p t₀ W v)
    (haccepted : ∀ v, Alone p v → A v → v.store.Accepts p t (row t₀) →
      S (.ok (v.store.next t, row t₀)) (v.put p
        ⟨.sql (.insert t row), .ok (v.store.next t, row t₀)⟩ (v.store.push p t (row t₀))))
    (hrefused : ∀ v e, Alone p v → A v → v.store.Refuses p t (row t₀) e →
      S (.error e) (v.put p ⟨.sql (.insert t row), .error e⟩
        (v.store.setTx p (some { startedAt := t₀, aborted := true }))))
    (hrest : ∀ res, Total env p (S res) (k res) Q) :
    Total env p A (.step (.sql (.insert t row)) k) Q := by
  refine sql hserved (S := S) (fun v halone hA => ?_) hrest
  obtain ⟨W, hin⟩ := hinside v hA
  obtain ⟨⟨res, s'⟩, hexec⟩ := halone.insert_runs hin t row
  refine ⟨res, s', hexec, ?_⟩
  obtain ⟨x, hopen, hcases⟩ := Store.insert_cases hexec
  rw [hin.1] at hopen
  obtain rfl := Option.some.inj hopen
  rcases hcases with ⟨haborted, -⟩ | ⟨-, ⟨e, hrefuses, rfl, rfl⟩ | ⟨haccepts, rfl, rfl⟩⟩
  · cases haborted
  · exact hrefused v e halone hA hrefuses
  · exact haccepted v halone hA haccepts

theorem commit {k : Bool → Code σ P α} {S : Bool → View σ P → Prop}
    (hopen : ∀ v, A v → ∃ x, v.store.tx p = some x ∧
      S (!x.aborted) (v.put p ⟨.sql .commit, !x.aborted⟩ (v.store.finish p (!x.aborted))))
    (hrest : ∀ kept, Total env p (S kept) (k kept) Q) :
    Total env p A (.step (.sql .commit) k) Q := by
  refine sql hserved (S := S) (fun v halone hA => ?_) hrest
  obtain ⟨x, htx, hS⟩ := hopen v hA
  exact ⟨_, _, by rw [Store.exec, htx], hS⟩

theorem rollback {k : Unit → Code σ P α}
    (hopen : ∀ v, A v → (v.store.tx p).isSome = true ∧
      B (v.put p ⟨.sql .rollback, ()⟩ (v.store.finish p false)))
    (hrest : Total env p B (k ()) Q) : Total env p A (.step (.sql .rollback) k) Q := by
  refine sql hserved (S := fun _ => B) (fun v halone hA => ?_) fun _ => hrest
  obtain ⟨hsome, hB⟩ := hopen v hA
  obtain ⟨x, htx⟩ := Option.isSome_iff_exists.mp hsome
  exact ⟨(), _, by rw [Store.exec, htx], hB⟩

/-- The loop of an update: `J` relates the rows found so far to those that are left. -/
theorem touchEach {t : σ.Tbl} {where_ : Time → σ.Row t → Bool} {set : Time → Change σ t}
    {t₀ : Time} {J : List Nat → List (Nat × σ.Row t) → View σ P → Prop}
    (hinside : ∀ rest found v, J rest found v → ∃ W, Inside p t₀ W v)
    (hmiss : ∀ i rest found v e, Alone p v → J (i :: rest) found v →
      (∀ r, v.store.seen p t i = some r → where_ t₀ r = false) →
        J rest found (v.put p e v.store))
    (hhit : ∀ i rest found v r e, Alone p v → J (i :: rest) found v →
      v.store.seen p t i = some r → where_ t₀ r = true →
        J rest (found ++ [(i, r)]) (v.put p e (v.store.hold p t i ((set t₀).apply r))))
    (ids : List Nat) (found : List (Nat × σ.Row t)) :
    Total env p (J ids found) (Sql.touchEach (P := P) t where_ set found ids)
      (ends (J []) E) := by
  induction ids generalizing found with
  | nil => exact ret fun v hJ => hJ
  | cons i rest ih =>
      refine touch hserved (S := fun row => J rest (found ++ (row.map fun r => (i, r)).toList))
        (hinside _ _) (fun v halone hJ hnone => ?_) (fun v r halone hJ hseen hwhere => ?_)
        fun row => ih _
      · simpa using hmiss i rest found v _ halone hJ hnone
      · simpa using hhit i rest found v r _ halone hJ hseen hwhere

/-- The outline of a transaction. -/
theorem transaction {x : Code σ P α} {C : α → View σ P → Prop}
    (hopen : ∀ v, A v → v.store.tx p = none ∧ B (v.put p ⟨.sql .begin, ()⟩
      (v.store.setTx p (some { startedAt := v.store.clock, aborted := false }))))
    (hbody : Total env p B x (ends C E))
    (hcommit : ∀ a v, C a v → ∃ y, v.store.tx p = some y ∧
      Q (.ok a) (v.put p ⟨.sql .commit, !y.aborted⟩ (v.store.finish p (!y.aborted))))
    (hrollback : ∀ e v, E e v → (v.store.tx p).isSome = true ∧
      Q (.error e) (v.put p ⟨.sql .rollback, ()⟩ (v.store.finish p false))) :
    Total env p A (Sql.transaction x) Q := by
  refine begin hserved (B := B) hopen ?_
  refine attempt (R := fun a => Q (.ok a)) (E := E) (andThen hbody (fun a => ?_)
    fun e v hE => hE) (fun a v hQ => hQ) fun e => ?_
  · exact commit hserved (S := fun _ => Q (.ok a)) (fun v hC => hcommit a v hC)
      fun kept => ret fun v hQ => hQ
  · exact rollback hserved (B := Q (.error e)) (fun v hE => hrollback e v hE)
      (throw fun v hQ => hQ)

/-- A transaction that inserts one row comes to an end. -/
theorem insertOne {t : σ.Tbl} {row : Time → σ.Row t}
    {k : Except SqlError (Nat × σ.Row t) → Code σ P α} {g : Nat × σ.Row t → α} {now : Time}
    (hok : ∀ a, k (.ok a) = .ret (g a)) (herror : ∀ e, k (.error e) = .throw (P.fail e)) :
    Total env p (fun v => Idle p v ∧ v.store.clock = now)
      (Sql.transaction (.step (.sql (.insert t row)) k))
      (ends (fun _ _ => True) fun _ _ => True) := by
  refine transaction hserved (B := fun v => Inside p now Drafts.empty v)
    (C := fun _ v => (v.store.tx p).isSome = true) (E := fun _ v => (v.store.tx p).isSome = true)
    ?_ ?_ ?_ fun e v hsome => ⟨hsome, trivial⟩
  · intro v hA
    refine ⟨hA.1.1, ?_, hA.1.2⟩
    rw [View.put_store, Store.setTx_tx_self, hA.2]
  · refine insert hserved (S := fun _ v => (v.store.tx p).isSome = true)
      (fun v hinside => ⟨_, hinside⟩) ?_ ?_ ?_
    · intro v _ hinside _
      rw [View.put_store, Store.push_tx, hinside.1]
      rfl
    · intro v e _ _ _
      rw [View.put_store, Store.setTx_tx_self]
      rfl
    · rintro (e | a)
      · rw [herror]
        exact throw fun v hsome => hsome
      · rw [hok]
        exact ret fun v hsome => hsome
  · intro a v hsome
    obtain ⟨x, hx⟩ := Option.isSome_iff_exists.mp hsome
    exact ⟨x, hx, trivial⟩

end Statements

end Total

/-! ### Rows that stay -/

/-- A program that obeys a revision leaves a row there, with whatever every allowed
version of it has. -/
theorem Revision.solo_kept {rev : Revision σ} {env : Fortune P} {p : Pid}
    (hserved : ∀ n, env.fault n = none) {t : σ.Tbl} {i : Nat} {test : σ.Row t → Prop}
    (htest : ∀ now a x, rev.allows t now a x → test a → ∃ b, x = some b ∧ test b)
    {x : Code σ P α} (hobeys : x.Uses rev.Obeys) {n m : Nat} {v v' : View σ P}
    {out : Except P.Err α} (hwf : v.store.Wf) (hrevising : rev.Revising p v)
    (hrow : ∃ r, v.store.stored t i = some r ∧ test r)
    (hsolo : solo env p x n v = some (out, m, v')) :
    ∃ r, v'.store.stored t i = some r ∧ test r := by
  induction x generalizing n v with
  | ret a =>
      obtain ⟨-, rfl⟩ := Prod.mk.inj (Prod.mk.inj (Option.some.inj hsolo)).2
      exact hrow
  | throw e =>
      obtain ⟨-, rfl⟩ := Prod.mk.inj (Prod.mk.inj (Option.some.inj hsolo)).2
      exact hrow
  | step c k ih =>
      rw [solo_step, attempt_served (hserved n)] at hsolo
      obtain ⟨⟨res, v₁⟩, hexec, hrest⟩ := Option.bind_eq_some_iff.mp hsolo
      have hwf₁ := (View.exec_base hwf hexec).1
      cases c with
      | node op =>
          have hstore := (View.exec_node hexec).2.1
          refine ih res (hobeys.2 res) hwf₁ ?_ ?_ hrest
          · unfold Revision.Revising
            rw [hstore]
            exact hrevising
          · rw [hstore]
            exact hrow
      | fork req =>
          have hstore := (View.exec_fork hexec).1
          refine ih res (hobeys.2 res) hwf₁ ?_ ?_ hrest
          · unfold Revision.Revising
            rw [hstore]
            exact hrevising
          · rw [hstore]
            exact hrow
      | sql stmt =>
          obtain ⟨hrevises, hrevising₁⟩ :=
            Revision.obeys_statement hobeys.1 hwf hrevising hexec
          refine ih res (hobeys.2 res) hwf₁ hrevising₁ ?_ hrest
          obtain ⟨r, hr, hholds⟩ := hrow
          rcases hrevises t i r hr with hsame | hreplaces
          · exact ⟨r, hsame, hholds⟩
          · obtain ⟨y, -, hallowed⟩ := hreplaces.allowed
            exact htest y.startedAt r _ hallowed hholds

end Transact
