import Mes.Transact.Rely

/-!
The rules of the program logic. The structural rules follow the program: values,
errors, sequencing, `try`/`catch`. The statement rules give, for each statement,
what its program may assert afterwards; only an insert and a commit have to
respect the invariant and the guarantee, since every other statement changes
nothing that outlives its transaction.

`Idle`, `Inside` and `Doomed` are the three states of a program's own
transaction. No other actor can change them.
-/

namespace Transact

variable {σ : Schema} {P : Platform}

/-- No transaction is open. -/
def Idle (p : Pid) (v : View σ P) : Prop :=
  v.store.tx p = none ∧ v.store.draft p = Drafts.empty

/-- The transaction that began at `t₀` has written exactly `W`. -/
def Inside (p : Pid) (t₀ : Time) (W : Drafts σ) (v : View σ P) : Prop :=
  v.store.tx p = some { startedAt := t₀, aborted := false } ∧ v.store.draft p = W

/-- A statement of the open transaction was refused. -/
def Doomed (p : Pid) (v : View σ P) : Prop :=
  ∃ x, v.store.tx p = some x ∧ x.aborted = true

namespace Logic

variable {L : Logic σ P} {p : Pid} {α β : Type}

theorem Step.own_tx {a : Option Pid} {v v' : View σ P} (hactor : a ≠ some p)
    (hstep : L.Step a v v') :
    v'.store.tx p = v.store.tx p ∧ v'.store.draft p = v.store.draft p := by
  cases a with
  | none =>
      obtain ⟨-, n, hstore⟩ := hstep.base
      rw [hstore]
      exact ⟨rfl, rfl⟩
  | some q =>
      obtain ⟨e, hacts⟩ := hstep.base
      have hpid : p ≠ q := fun heq => hactor (by rw [heq])
      exact ⟨hacts.store.txOther p hpid, hacts.store.draftOther p hpid⟩

/-- The others add nothing to what `p` has done. -/
theorem Step.own_history {a : Option Pid} {v v' : View σ P} (hactor : a ≠ some p)
    (hstep : L.Step a v v') (e : Event σ P) :
    (p, e) ∈ v'.history ↔ (p, e) ∈ v.history := by
  cases a with
  | none => rw [hstep.base.1]
  | some q =>
      obtain ⟨e', hacts⟩ := hstep.base
      rw [hacts.history, List.mem_cons, or_iff_right]
      intro heq
      exact hactor (congrArg some (congrArg Prod.fst heq).symm)

theorem stable_idle : L.Stable p (Idle p) := by
  intro a v v' hactor hstep hidle
  obtain ⟨htx, hdraft⟩ := hstep.own_tx hactor
  exact ⟨htx.trans hidle.1, hdraft.trans hidle.2⟩

theorem stable_inside (t₀ : Time) (W : Drafts σ) : L.Stable p (Inside p t₀ W) := by
  intro a v v' hactor hstep hinside
  obtain ⟨htx, hdraft⟩ := hstep.own_tx hactor
  exact ⟨htx.trans hinside.1, hdraft.trans hinside.2⟩

theorem stable_doomed : L.Stable p (Doomed p) := by
  intro a v v' hactor hstep hdoomed
  obtain ⟨x, hopen, haborted⟩ := hdoomed
  exact ⟨x, (hstep.own_tx hactor).1.trans hopen, haborted⟩

/-- A row that `p` has locked keeps its committed version. -/
theorem Step.stored_locked {a : Option Pid} {v v' : View σ P} (hactor : a ≠ some p)
    (hstep : L.Step a v v') {t : σ.Tbl} {id : Nat} {r : Option (σ.Row t)}
    (hdraft : v.store.draft p t id = some r) :
    v'.store.stored t id = v.store.stored t id := by
  cases a with
  | none =>
      obtain ⟨-, n, hstore⟩ := hstep.base
      rw [hstore]
      rfl
  | some q =>
      obtain ⟨e, hacts⟩ := hstep.base
      exact hacts.store.stored_locked (fun heq => hactor (by rw [heq])) hdraft

theorem Step.born_kept {a : Option Pid} {v v' : View σ P} (hstep : L.Step a v v')
    {t : σ.Tbl} {id : Nat} {b : Pid × σ.Row t} (hborn : v.store.born t id = some b) :
    v'.store.born t id = some b := by
  cases a with
  | none =>
      obtain ⟨-, n, hstore⟩ := hstep.base
      rw [hstore]
      exact hborn
  | some q =>
      obtain ⟨e, hacts⟩ := hstep.base
      exact hacts.store.bornKept t id b hborn

theorem Step.clock_le {a : Option Pid} {v v' : View σ P} (hstep : L.Step a v v') :
    v.store.clock ≤ v'.store.clock := by
  cases a with
  | none =>
      obtain ⟨-, n, hstore⟩ := hstep.base
      rw [hstore]
      exact Nat.le_add_right _ _
  | some q =>
      obtain ⟨e, hacts⟩ := hstep.base
      exact le_of_eq hacts.store.clock.symm

theorem stable_clock (t₀ : Time) : L.Stable p fun v => t₀ ≤ v.store.clock :=
  fun _ _ _ _ hstep hclock => le_trans hclock hstep.clock_le

/-! ### Structural rules -/

section Structural

variable {A B : View σ P → Prop} {Q Q' : Except P.Err α → View σ P → Prop}

theorem Triple.ret {a : α} (hstable : L.Stable p A)
    (hpost : ∀ v, A v → Q (.ok a) v) : L.Triple p A (.ret a) Q :=
  fun _ _ _ hA v₁ henv => hpost v₁ (hstable.env henv hA)

theorem Triple.throw {e : P.Err} (hstable : L.Stable p A)
    (hpost : ∀ v, A v → Q (.error e) v) : L.Triple p A (.throw e) Q :=
  fun _ _ _ hA v₁ henv => hpost v₁ (hstable.env henv hA)

theorem Triple.weaken {x : Code σ P α} (htriple : L.Triple p B x Q)
    (hpre : ∀ v, v.store.Wf → L.Inv v → A v → B v) : L.Triple p A x Q :=
  fun v hwf hinv hA => htriple v hwf hinv (hpre v hwf hinv hA)

/-- A fact that the assertion implies may be used to choose the proof. -/
theorem Triple.given {x : Code σ P α} {φ : Prop}
    (hfact : ∀ v, v.store.Wf → L.Inv v → A v → φ)
    (htriple : φ → L.Triple p A x Q) : L.Triple p A x Q :=
  fun v hwf hinv hA => htriple (hfact v hwf hinv hA) v hwf hinv hA

theorem Triple.exists {ι : Sort*} {A : ι → View σ P → Prop} {x : Code σ P α}
    (htriple : ∀ i, L.Triple p (A i) x Q) :
    L.Triple p (fun v => ∃ i, A i v) x Q := by
  intro v hwf hinv hA
  obtain ⟨i, hA⟩ := hA
  exact htriple i v hwf hinv hA

theorem Safe.post (hpost : ∀ out v, Q out v → Q' out v) {x : Code σ P α} :
    ∀ {v : View σ P}, L.Safe p Q x v → L.Safe p Q' x v := by
  induction x with
  | ret a => exact fun hsafe v₁ henv => hpost _ v₁ (hsafe v₁ henv)
  | throw e => exact fun hsafe v₁ henv => hpost _ v₁ (hsafe v₁ henv)
  | step c k ih =>
      intro v hsafe v₁ henv choice res v₂ hexec hrun
      obtain ⟨hpermit, hinv, hguar, hnext⟩ := hsafe v₁ henv choice res v₂ hexec hrun
      exact ⟨hpermit, hinv, hguar, ih res hnext⟩

theorem Triple.post {x : Code σ P α} (htriple : L.Triple p A x Q)
    (hpost : ∀ out v, Q out v → Q' out v) : L.Triple p A x Q' :=
  fun v hwf hinv hA => (htriple v hwf hinv hA).post hpost

/-- The step rule: the operation itself, then the rest of the program. -/
theorem Triple.step {c : Call σ P} {k : c.Res → Code σ P α}
    {R : c.Res → View σ P → Prop} (hstable : L.Stable p A)
    (hop : ∀ v choice res v', v.store.Wf → L.Inv v → A v →
      v.exec p choice c = some (res, v') → L.scope.run v p v' →
        L.Permits c ∧ L.Inv v' ∧ L.Guar (some p) v v' ∧ R res v')
    (hrest : ∀ res, L.Triple p (R res) (k res) Q) :
    L.Triple p A (.step c k) Q := by
  intro v hwf hinv hA v₁ henv choice res v₂ hexec hrun
  obtain ⟨hwf₁, hinv₁⟩ := env_good henv hwf hinv
  obtain ⟨hpermit, hinv₂, hguar, hR⟩ :=
    hop v₁ choice res v₂ hwf₁ hinv₁ (hstable.env henv hA) hexec hrun
  exact ⟨hpermit, hinv₂, hguar,
    hrest res v₂ (View.exec_base hwf₁ hexec).1 hinv₂ hR⟩

theorem Safe.andThen {x : Code σ P α} {f : α → Code σ P β}
    {R : Except P.Err β → View σ P → Prop}
    (hrest : ∀ a v, v.store.Wf → L.Inv v → Q (.ok a) v → L.Safe p R (f a) v)
    (herror : ∀ e v, Q (.error e) v → R (.error e) v) :
    ∀ {v : View σ P}, v.store.Wf → L.Inv v → L.Safe p Q x v →
      L.Safe p R (x.andThen f) v := by
  induction x with
  | ret a =>
      intro v hwf hinv hsafe
      exact hrest a v hwf hinv (hsafe v Relation.ReflTransGen.refl)
  | throw e => exact fun _ _ hsafe v₁ henv => herror e v₁ (hsafe v₁ henv)
  | step c k ih =>
      intro v hwf hinv hsafe v₁ henv choice res v₂ hexec hrun
      obtain ⟨hpermit, hinv₂, hguar, hnext⟩ := hsafe v₁ henv choice res v₂ hexec hrun
      have hwf₁ := (env_good henv hwf hinv).1
      exact ⟨hpermit, hinv₂, hguar,
        ih res (View.exec_base hwf₁ hexec).1 hinv₂ hnext⟩

theorem Triple.andThen {x : Code σ P α} {f : α → Code σ P β}
    {R : Except P.Err β → View σ P → Prop} (hfirst : L.Triple p A x Q)
    (hrest : ∀ a, L.Triple p (Q (.ok a)) (f a) R)
    (herror : ∀ e v, Q (.error e) v → R (.error e) v) :
    L.Triple p A (x.andThen f) R := by
  intro v hwf hinv hA
  exact Safe.andThen (fun a v hwf hinv hQ => hrest a v hwf hinv hQ) herror hwf hinv
    (hfirst v hwf hinv hA)

theorem Safe.attempt {x : Code σ P α} {handler : P.Err → Code σ P α}
    (hvalue : ∀ a v, Q (.ok a) v → Q' (.ok a) v)
    (hhandler : ∀ e v, v.store.Wf → L.Inv v → Q (.error e) v →
      L.Safe p Q' (handler e) v) :
    ∀ {v : View σ P}, v.store.Wf → L.Inv v → L.Safe p Q x v →
      L.Safe p Q' (x.attempt handler) v := by
  induction x with
  | ret a => exact fun _ _ hsafe v₁ henv => hvalue a v₁ (hsafe v₁ henv)
  | throw e =>
      intro v hwf hinv hsafe
      exact hhandler e v hwf hinv (hsafe v Relation.ReflTransGen.refl)
  | step c k ih =>
      intro v hwf hinv hsafe v₁ henv choice res v₂ hexec hrun
      obtain ⟨hpermit, hinv₂, hguar, hnext⟩ := hsafe v₁ henv choice res v₂ hexec hrun
      have hwf₁ := (env_good henv hwf hinv).1
      exact ⟨hpermit, hinv₂, hguar,
        ih res (View.exec_base hwf₁ hexec).1 hinv₂ hnext⟩

theorem Triple.attempt {x : Code σ P α} {handler : P.Err → Code σ P α}
    (hfirst : L.Triple p A x Q) (hvalue : ∀ a v, Q (.ok a) v → Q' (.ok a) v)
    (hhandler : ∀ e, L.Triple p (Q (.error e)) (handler e) Q') :
    L.Triple p A (x.attempt handler) Q' := by
  intro v hwf hinv hA
  exact Safe.attempt hvalue (fun e v hwf hinv hQ => hhandler e v hwf hinv hQ)
    hwf hinv (hfirst v hwf hinv hA)

theorem Safe.persist {F : View σ P → Prop} (hpersistent : L.Persistent F)
    {x : Code σ P α} : ∀ {v : View σ P}, v.store.Wf → L.Inv v → F v → L.Safe p Q x v →
      L.Safe p (fun out v => Q out v ∧ F v) x v := by
  induction x with
  | ret a =>
      intro v hwf hinv hF hsafe v₁ henv
      exact ⟨hsafe v₁ henv, hpersistent.stable.env henv hF⟩
  | throw e =>
      intro v hwf hinv hF hsafe v₁ henv
      exact ⟨hsafe v₁ henv, hpersistent.stable.env henv hF⟩
  | step c k ih =>
      intro v hwf hinv hF hsafe v₁ henv choice res v₂ hexec hrun
      obtain ⟨hwf₁, hinv₁⟩ := env_good henv hwf hinv
      obtain ⟨hpermit, hinv₂, hguar, hnext⟩ := hsafe v₁ henv choice res v₂ hexec hrun
      obtain ⟨hwf₂, hacts⟩ := View.exec_base hwf₁ hexec
      have hstep : L.Step (some p) v₁ v₂ :=
        ⟨hwf₁, hinv₁, ⟨_, hacts⟩, hguar, hwf₂, hinv₂⟩
      have hF₂ := hpersistent _ _ _ hstep (hpersistent.stable.env henv hF)
      exact ⟨hpermit, hinv₂, hguar, ih res hwf₂ hinv₂ hF₂ hnext⟩

/-- A persistent assertion can be carried past any program. -/
theorem Triple.persist {x : Code σ P α} {F : View σ P → Prop}
    (hpersistent : L.Persistent F) (htriple : L.Triple p A x Q) :
    L.Triple p (fun v => A v ∧ F v) x fun out v => Q out v ∧ F v :=
  fun v hwf hinv hA => (htriple v hwf hinv hA.1).persist hpersistent hwf hinv hA.2

/-- The frame rule: an assertion that each operation of a program keeps holds
to its end. -/
theorem Triple.uses {x : Code σ P α} {ok : Call σ P → Prop} (huses : x.Uses ok)
    (hstable : L.Stable p A)
    (hop : ∀ v choice c res v', ok c → v.store.Wf → L.Inv v → A v →
      v.exec p choice c = some (res, v') → L.scope.run v p v' →
        L.Permits c ∧ L.Inv v' ∧ L.Guar (some p) v v' ∧ A v') :
    L.Triple p A x fun _ => A := by
  induction x with
  | ret a => exact Triple.ret hstable fun _ hA => hA
  | throw e => exact Triple.throw hstable fun _ hA => hA
  | step c k ih =>
      refine Triple.step (R := fun _ => A) hstable ?_ fun res => ih res (huses.2 res)
      intro v choice res v' hwf hinv hA hexec hrun
      exact hop v choice c res v' huses.1 hwf hinv hA hexec hrun

end Structural

end Logic

end Transact
