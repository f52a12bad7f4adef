import Mes.Transact.Alone

/-!
Two programs side by side, each alone on a store of its own, in the same environment.
`Lockstep` says that they take the same number of operations and end in the same way: both
wait for ever, both return, or both raise one error.
-/

namespace Transact

variable {σ : Schema} {P : Platform} {α β γ δ : Type}

/-- Two values, with `S` between them and the views, or twice the same error. -/
def both {ε : Type} (S : α → β → View σ P → View σ P → Prop)
    (E : View σ P → View σ P → Prop) :
    Except ε α → Except ε β → View σ P → View σ P → Prop
  | .ok a, .ok b => S a b
  | .error e, .error e' => fun v u => e = e' ∧ E v u
  | .ok _, .error _ => fun _ _ => False
  | .error _, .ok _ => fun _ _ => False

/-- A statement that fails leaves the program alone as before. -/
theorem Alone.attempt {p : Pid} {v v' : View σ P} {env : Fortune P} {n : Nat}
    {c : Call σ P} {res : c.Res} (halone : Alone p v)
    (hattempt : v.attempt p env n c = some (res, v')) : Alone p v' := by
  unfold View.attempt at hattempt
  split at hattempt
  · obtain ⟨-, rfl⟩ := Prod.mk.inj (Option.some.inj hattempt)
    have haborted (e : Event σ P) : Alone p (v.put p e (v.store.abort p)) := by
      unfold Store.abort
      cases hopen : v.store.tx p with
      | none => exact ⟨halone.wf, halone.others⟩
      | some x =>
          refine ⟨Store.wf_abort halone.wf hopen, fun q hq => ?_⟩
          exact (Store.setTx_tx_other _ _ hq).trans (halone.others q hq)
    unfold Call.spoil
    split
    · exact ⟨halone.wf, halone.others⟩
    · exact haborted _
  · exact halone.exec hattempt

/-- Alone, a test holds of some expected outcome of a cell when it holds of what is seen
there. -/
theorem Alone.cell_eq {p : Pid} {v : View σ P} (halone : Alone p v) {t : σ.Tbl} {i : Nat}
    (bad : σ.Row t → Bool) :
    ((v.store.table t).cell i).always p bad = (v.store.seen p t i).any bad ∧
      ((v.store.table t).cell i).maybe p bad = (v.store.seen p t i).any bad := by
  cases hlock : ((v.store.table t).cell i).lock with
  | none =>
      have hseen : v.store.seen p t i = v.store.stored t i := by
        simp [Store.seen, Store.draft, Cell.draft, hlock]
      simp only [Cell.always, Cell.maybe, hlock, hseen]
      exact ⟨rfl, rfl⟩
  | some owner =>
      obtain ⟨q, r⟩ := owner
      obtain rfl := halone.own_lock hlock
      have hseen : v.store.seen q t i = r := by
        simp [Store.seen, Store.draft, Cell.draft, hlock]
      simp [Cell.always, Cell.maybe, hlock, hseen]

/-- A new row conflicts with what is seen. -/
theorem Alone.anyCell_eq {p : Pid} {v : View σ P} (halone : Alone p v) {t : σ.Tbl}
    (bad : σ.Row t → Bool) :
    v.store.anyCell t (fun c => c.always p bad) = true ↔
      ∃ i r, v.store.seen p t i = some r ∧ bad r = true := by
  simp only [Store.anyCell, List.any_eq_true, List.mem_range, (halone.cell_eq bad).1,
    Option.any_eq_true]
  constructor
  · rintro ⟨i, -, r, hseen, hbad⟩
    exact ⟨i, r, hseen, hbad⟩
  · rintro ⟨i, r, hseen, hbad⟩
    refine ⟨i, ?_, r, hseen, hbad⟩
    by_contra hlate
    obtain ⟨hstored, -, hdraft⟩ := halone.wf.vacant t i (Nat.le_of_not_lt hlate)
    rw [Store.seen, hdraft p, hstored] at hseen
    cases hseen

theorem Alone.anyCell_maybe {p : Pid} {v : View σ P} (halone : Alone p v) {t : σ.Tbl}
    (bad : σ.Row t → Bool) :
    v.store.anyCell t (fun c => c.maybe p bad) =
      v.store.anyCell t (fun c => c.always p bad) := by
  simp only [Store.anyCell, (halone.cell_eq bad).1, (halone.cell_eq bad).2]

def Lockstep (env : Fortune P) (p : Pid) (R : View σ P → View σ P → Prop)
    (x : Code σ P α) (y : Code σ P β) (S : α → β → View σ P → View σ P → Prop)
    (E : View σ P → View σ P → Prop) : Prop :=
  ∀ n v u, Alone p v → Alone p u → R v u →
    Option.Rel (fun a b => a.2.1 = b.2.1 ∧ Alone p a.2.2 ∧ Alone p b.2.2 ∧
      both S E a.1 b.1 a.2.2 b.2.2) (solo env p x n v) (solo env p y n u)

namespace Lockstep

variable {env : Fortune P} {p : Pid} {R R' : View σ P → View σ P → Prop}
  {S : α → β → View σ P → View σ P → Prop} {E E' : View σ P → View σ P → Prop}

theorem ret {a : α} {b : β} (hpost : ∀ v u, R v u → S a b v u) :
    Lockstep env p R (.ret a) (.ret b) S E :=
  fun _ v u halone halone' hR => .some ⟨rfl, halone, halone', hpost v u hR⟩

theorem throw {e : P.Err} (hpost : ∀ v u, R v u → E v u) :
    Lockstep env p R (.throw e : Code σ P α) (.throw e : Code σ P β) S E :=
  fun _ v u halone halone' hR => .some ⟨rfl, halone, halone', rfl, hpost v u hR⟩

theorem weaken {x : Code σ P α} {y : Code σ P β} (hlock : Lockstep env p R' x y S E)
    (hpre : ∀ v u, Alone p v → Alone p u → R v u → R' v u) : Lockstep env p R x y S E :=
  fun n v u halone halone' hR => hlock n v u halone halone' (hpre v u halone halone' hR)

/-- A fact that the relation contains. -/
theorem given {x : Code σ P α} {y : Code σ P β} {φ : Prop}
    (hfact : ∀ v u, Alone p v → Alone p u → R v u → φ)
    (hlock : φ → Lockstep env p R x y S E) : Lockstep env p R x y S E :=
  fun n v u halone halone' hR => hlock (hfact v u halone halone' hR) n v u halone halone' hR

theorem andThen {x : Code σ P α} {y : Code σ P β} {f : α → Code σ P γ}
    {g : β → Code σ P δ} {T : γ → δ → View σ P → View σ P → Prop}
    (hxy : Lockstep env p R x y S E) (hfg : ∀ a b, Lockstep env p (S a b) (f a) (g b) T E) :
    Lockstep env p R (x.andThen f) (y.andThen g) T E := by
  intro n v u halone halone' hR
  have hfirst := hxy n v u halone halone' hR
  rw [solo_andThen, solo_andThen]
  generalize solo env p x n v = left at hfirst ⊢
  generalize solo env p y n u = right at hfirst ⊢
  cases hfirst with
  | none => exact .none
  | some hends =>
      rename_i a b
      obtain ⟨out, m, v'⟩ := a
      obtain ⟨out', m', u'⟩ := b
      obtain ⟨rfl, hv, hu, hboth⟩ := hends
      cases out with
      | ok a =>
          cases out' with
          | ok b => exact hfg a b m v' u' hv hu hboth
          | error e => exact hboth.elim
      | error e =>
          cases out' with
          | ok b => exact hboth.elim
          | error e' => exact .some ⟨rfl, hv, hu, hboth⟩

theorem attempt {x : Code σ P α} {y : Code σ P β} {handler : P.Err → Code σ P α}
    {handler' : P.Err → Code σ P β} (hxy : Lockstep env p R x y S E)
    (hhandler : ∀ e, Lockstep env p E (handler e) (handler' e) S E') :
    Lockstep env p R (x.attempt handler) (y.attempt handler') S E' := by
  intro n v u halone halone' hR
  have hfirst := hxy n v u halone halone' hR
  rw [solo_attempt, solo_attempt]
  generalize solo env p x n v = left at hfirst ⊢
  generalize solo env p y n u = right at hfirst ⊢
  cases hfirst with
  | none => exact .none
  | some hends =>
      rename_i a b
      obtain ⟨out, m, v'⟩ := a
      obtain ⟨out', m', u'⟩ := b
      obtain ⟨rfl, hv, hu, hboth⟩ := hends
      cases out with
      | ok a =>
          cases out' with
          | ok b => exact .some ⟨rfl, hv, hu, hboth⟩
          | error e => exact hboth.elim
      | error e =>
          cases out' with
          | ok b => exact hboth.elim
          | error e' =>
              obtain ⟨rfl, hE⟩ := hboth
              exact hhandler e m v' u' hv hu hE

/-- One operation on each side. -/
theorem step {c : Call σ P} {k : c.Res → Code σ P α} {k' : c.Res → Code σ P β}
    {T : c.Res → c.Res → View σ P → View σ P → Prop}
    (hop : ∀ n v u, Alone p v → Alone p u → R v u →
      Option.Rel (fun a b => T a.1 b.1 a.2 b.2) (v.attempt p env n c) (u.attempt p env n c))
    (hrest : ∀ res res', Lockstep env p (T res res') (k res) (k' res') S E) :
    Lockstep env p R (.step c k) (.step c k') S E := by
  intro n v u halone halone' hR
  have hfirst := hop n v u halone halone' hR
  rw [solo_step, solo_step]
  cases hleft : v.attempt p env n c with
  | none =>
      cases hright : u.attempt p env n c with
      | none => exact .none
      | some b =>
          rw [hleft, hright] at hfirst
          cases hfirst
  | some a =>
      cases hright : u.attempt p env n c with
      | none =>
          rw [hleft, hright] at hfirst
          cases hfirst
      | some b =>
          rw [hleft, hright] at hfirst
          cases hfirst with
          | some hT =>
              exact hrest a.1 b.1 (n + 1) a.2 b.2 (halone.attempt hleft)
                (halone'.attempt hright) hT

/-- An operation that never fails of itself. -/
theorem exec {c : Call σ P} {k : c.Res → Code σ P α} {k' : c.Res → Code σ P β}
    {T : c.Res → c.Res → View σ P → View σ P → Prop} (hnever : ∀ e, c.failure e = none)
    (hop : ∀ n v u, Alone p v → Alone p u → R v u → Option.Rel
      (fun a b => T a.1 b.1 a.2 b.2) (v.exec p (env.choice n) c) (u.exec p (env.choice n) c))
    (hrest : ∀ res res', Lockstep env p (T res res') (k res) (k' res') S E) :
    Lockstep env p R (.step c k) (.step c k') S E := by
  refine step (T := T) (fun n v u halone halone' hR => ?_) hrest
  rw [attempt_infallible hnever, attempt_infallible hnever]
  exact hop n v u halone halone' hR

/-- A statement that fails on both sides, or is carried out on both sides. -/
theorem statement {stmt : Stmt σ} {k : stmt.Res → Code σ P α} {k' : stmt.Res → Code σ P β}
    {T : stmt.Res → stmt.Res → View σ P → View σ P → Prop}
    (hfailed : ∀ e res v u, R v u → stmt.failure e = some res →
      T res res (v.put p ⟨.sql stmt, res⟩ ((Call.sql (P := P) stmt).spoil p v.store))
        (u.put p ⟨.sql stmt, res⟩ ((Call.sql (P := P) stmt).spoil p u.store)))
    (hserved : ∀ v u, Alone p v → Alone p u → R v u →
      Option.Rel (fun a b => T a.1 b.1 (v.put p ⟨.sql stmt, a.1⟩ a.2)
        (u.put p ⟨.sql stmt, b.1⟩ b.2)) (v.store.exec p stmt) (u.store.exec p stmt))
    (hrest : ∀ res res', Lockstep env p (T res res') (k res) (k' res') S E) :
    Lockstep env p R (.step (.sql stmt) k) (.step (.sql stmt) k') S E := by
  refine step (T := T) (fun n v u halone halone' hR => ?_) hrest
  have hexec : Option.Rel (fun a b => T a.1 b.1 a.2 b.2)
      (v.exec p (env.choice n) (.sql stmt)) (u.exec p (env.choice n) (.sql stmt)) := by
    have hstep := hserved v u halone halone' hR
    have hsql (w : View σ P) : w.exec p (env.choice n) (.sql stmt) =
        (w.store.exec p stmt).map fun out => (out.1, w.put p ⟨.sql stmt, out.1⟩ out.2) := rfl
    rw [hsql, hsql]
    generalize v.store.exec p stmt = left at hstep ⊢
    generalize u.store.exec p stmt = right at hstep ⊢
    cases hstep with
    | none => exact .none
    | some hT => exact .some hT
  unfold View.attempt
  cases hfault : (env.fault n).bind (Call.sql (P := P) stmt).failure with
  | none => exact hexec
  | some res =>
      obtain ⟨e, -, hfailure⟩ := Option.bind_eq_some_iff.mp hfault
      exact .some (hfailed e res v u hR hfailure)

/-- The answers to a statement decide how the programs go on. -/
theorem answer {res : Except SqlError α} {res' : Except SqlError β} :
    Lockstep env p (both S E res res') (Sql.answer res) (Sql.answer res') S E := by
  cases res with
  | ok a =>
      cases res' with
      | ok b => exact ret fun v u hboth => hboth
      | error e => exact fun _ v u _ _ hboth => hboth.elim
  | error e =>
      cases res' with
      | ok b => exact fun _ v u _ _ hboth => hboth.elim
      | error e' =>
          refine given (φ := e = e') (fun v u _ _ hboth => hboth.1) fun he => ?_
          subst he
          exact throw fun v u hboth => hboth.2

/-- The outcome is all that a caller sees. -/
theorem reply {x y : Code σ P α} (hlock : Lockstep env p R x y (fun a b _ _ => a = b) E)
    {v u : View σ P} (halone : Alone p v) (halone' : Alone p u) (hR : R v u) :
    reply env p x v = reply env p y u := by
  have hends := hlock 0 v u halone halone' hR
  unfold Transact.reply
  generalize solo env p x 0 v = left at hends ⊢
  generalize solo env p y 0 u = right at hends ⊢
  cases hends with
  | none => rfl
  | some hout =>
      rename_i a b
      obtain ⟨out, m, v'⟩ := a
      obtain ⟨out', m', u'⟩ := b
      obtain ⟨-, -, -, hboth⟩ := hout
      cases out with
      | ok a =>
          cases out' with
          | ok b => exact congrArg (fun a => some (Except.ok a)) hboth
          | error e => exact hboth.elim
      | error e =>
          cases out' with
          | ok b => exact hboth.elim
          | error e' => exact congrArg (fun e => some (Except.error e)) hboth.1

end Lockstep

end Transact
