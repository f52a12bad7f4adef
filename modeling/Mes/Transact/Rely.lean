import Mes.Transact.Machine
import Mes.Transact.World

/-!
A rely-guarantee logic for the programs of a world. A `Logic` is an invariant
of the view together with what one step of each actor guarantees to the others;
the actor `none` is the clock and the timers. `Safe p Q x v` says that from
view `v` on, whatever the other actors do within their guarantees, each step of
`x` keeps the invariant and the guarantee of `p`, and `x` can only end as `Q`
allows. It is defined by recursion on the program, so the rules follow its
shape.

The soundness theorem is at the end: when every request is safe from the
moment it arrives, every reachable world satisfies the invariant, every run is
a path of guaranteed steps, and every ended request satisfies its
postcondition.
-/

namespace Transact

variable {σ : Schema} {P : Platform}

/-- Nothing that outlives the transaction has changed. -/
structure View.Quiet (v v' : View σ P) : Prop where
  store : v.store.Quiet v'.store
  mem : v'.mem = v.mem

/-- The step of `p` that is recorded as `e`. -/
structure ActsOn (p : Pid) (e : Event σ P) (v v' : View σ P) : Prop where
  store : v.store.Acts p v'.store
  history : v'.history = (p, e) :: v.history
  committed : v'.store.stored = v.store.stored ∨ e = ⟨.sql .commit, true⟩
  mem : v'.mem = v.mem ∨ ∃ op res, e = ⟨.node op, res⟩
  ran : ∃ choice, v.exec p choice e.1 = some (e.2, v')

/-- What a step of an actor can do in any world. -/
def Base : Option Pid → View σ P → View σ P → Prop
  | some p, v, v' => ∃ e, ActsOn p e v v'
  | none, v, v' => v'.history = v.history ∧ ∃ n, v'.store = v.store.tick n

theorem View.exec_sql {v v' : View σ P} {p : Pid} {choice : P.Choice}
    {stmt : Stmt σ} {res : stmt.Res}
    (hexec : v.exec p choice (.sql stmt) = some (res, v')) :
    v.store.exec p stmt = some (res, v'.store) ∧ v'.mem = v.mem ∧
      v'.history = (p, ⟨.sql stmt, res⟩) :: v.history := by
  simp only [View.exec, Option.map_eq_some_iff] at hexec
  obtain ⟨⟨res', s⟩, hstmt, hout⟩ := hexec
  obtain ⟨rfl, rfl⟩ := Prod.mk.inj hout
  exact ⟨hstmt, rfl, rfl⟩

theorem View.exec_node {v v' : View σ P} {p : Pid} {choice : P.Choice}
    {op : P.Op} {res : P.Res op}
    (hexec : v.exec p choice (.node op) = some (res, v')) :
    P.exec p v.store.clock op choice v.mem = some (res, v'.mem) ∧
      v'.store = v.store ∧ v'.history = (p, ⟨.node op, res⟩) :: v.history := by
  simp only [View.exec, Option.map_eq_some_iff] at hexec
  obtain ⟨⟨res', m⟩, hop, hout⟩ := hexec
  obtain ⟨rfl, rfl⟩ := Prod.mk.inj hout
  exact ⟨hop, rfl, rfl⟩

theorem View.exec_fork {v v' : View σ P} {p : Pid} {choice : P.Choice}
    {req : P.Req} {res : Unit}
    (hexec : v.exec p choice (.fork req) = some (res, v')) :
    v'.store = v.store ∧ v'.mem = v.mem ∧
      v'.history = (p, ⟨.fork req, ()⟩) :: v.history := by
  simp only [View.exec, Option.some.injEq, Prod.mk.injEq] at hexec
  obtain ⟨-, rfl⟩ := hexec
  exact ⟨rfl, rfl, rfl⟩

/-- Only a commit that is kept changes the committed rows. -/
theorem Store.exec_committed {s s' : Store σ} (hwf : s.Wf) {p : Pid}
    {stmt : Stmt σ} {res : stmt.Res} (hexec : s.exec p stmt = some (res, s')) :
    s'.stored = s.stored ∨
      (⟨.sql stmt, res⟩ : Event σ P) = ⟨.sql .commit, true⟩ := by
  cases stmt with
  | begin =>
      obtain ⟨-, rfl⟩ := Store.begin_cases hexec
      exact Or.inl rfl
  | commit =>
      obtain ⟨x, -, -, rfl⟩ := Store.commit_cases hexec
      cases res with
      | false => exact Or.inl (Store.finish_stored_drop s p)
      | true => exact Or.inr rfl
  | rollback =>
      rw [Store.rollback_cases hexec]
      exact Or.inl (Store.finish_stored_drop s p)
  | read conn =>
      rw [(Store.read_cases hexec).1]
      exact Or.inl rfl
  | touch t id where_ set =>
      obtain ⟨x, -, hcases⟩ := Store.touch_cases hexec
      rcases hcases with ⟨-, -, rfl⟩ | ⟨-, -, ⟨-, rfl, -⟩ | ⟨r, -, -, -, rfl⟩⟩
      · exact Or.inl rfl
      · exact Or.inl rfl
      · exact Or.inl (Store.hold_stored s p t id _)
  | insert t row =>
      obtain ⟨x, -, hcases⟩ := Store.insert_cases hexec
      rcases hcases with ⟨-, -, rfl⟩ | ⟨-, ⟨e, -, -, rfl⟩ | ⟨-, -, rfl⟩⟩
      · exact Or.inl rfl
      · exact Or.inl rfl
      · exact Or.inl (Store.push_stored s p t _ (hwf.vacant t _ (le_refl _)).1)

/-- Every operation keeps the store well formed and does what its actor may. -/
theorem View.exec_base {v v' : View σ P} (hwf : v.store.Wf) {p : Pid}
    {choice : P.Choice} {c : Call σ P} {res : c.Res}
    (hexec : v.exec p choice c = some (res, v')) :
    v'.store.Wf ∧ ActsOn p ⟨c, res⟩ v v' := by
  cases c with
  | sql stmt =>
      obtain ⟨hstmt, hmem, hhistory⟩ := View.exec_sql hexec
      exact ⟨Store.exec_wf hwf hstmt, Store.exec_acts hwf hstmt, hhistory,
        Store.exec_committed hwf hstmt, Or.inl hmem, choice, hexec⟩
  | node op =>
      obtain ⟨-, hstore, hhistory⟩ := View.exec_node hexec
      refine ⟨by rw [hstore]; exact hwf, ?_, hhistory, Or.inl (by rw [hstore]),
        Or.inr ⟨op, res, rfl⟩, choice, hexec⟩
      rw [hstore]
      exact Store.Acts.refl p v.store
  | fork req =>
      obtain ⟨hstore, hmem, hhistory⟩ := View.exec_fork hexec
      refine ⟨by rw [hstore]; exact hwf, ?_, hhistory, Or.inl (by rw [hstore]),
        Or.inl hmem, choice, hexec⟩
      rw [hstore]
      exact Store.Acts.refl p v.store

/-- Running a program is an operation of it. -/
theorem World.run_acts {body : P.Req → Code σ P P.Ans} {w w' : World σ P} {p : Pid}
    {choice : P.Choice} (hwf : w.view.store.Wf)
    (hrun : w.step body (.run p choice) = some w') : ∃ e, ActsOn p e w.view w'.view := by
  simp only [World.step, World.runProc] at hrun
  split at hrun
  · obtain ⟨out, hexec, rfl⟩ := Option.map_eq_some_iff.mp hrun
    exact ⟨_, (View.exec_base hwf hexec).2⟩
  · cases hrun

theorem World.step_wf {body : P.Req → Code σ P P.Ans} {w w' : World σ P} {a : Action P}
    (hwf : w.view.store.Wf) (hstep : w.step body a = some w') : w'.view.store.Wf := by
  cases a with
  | spawn req =>
      rw [← Option.some.inj hstep]
      exact hwf
  | run p choice =>
      simp only [World.step, World.runProc] at hstep
      split at hstep
      · obtain ⟨out, hexec, rfl⟩ := Option.map_eq_some_iff.mp hstep
        exact (View.exec_base hwf hexec).1
      · cases hstep
  | tick n =>
      rw [← Option.some.inj hstep]
      exact Store.wf_tick hwf n
  | fire timer =>
      obtain ⟨mem, -, rfl⟩ := Option.map_eq_some_iff.mp hstep
      exact hwf

/-- Following a schedule that meets the scope step by step. -/
theorem World.reach_of_along {body : P.Req → Code σ P P.Ans} {sc : Scope σ P}
    {ok : World σ P → Action P → Prop}
    (hok : ∀ w a w', w.view.store.Wf → ok w a → w.step body a = some w' → sc.admits a w w')
    {schedule : List (Action P)} {w w' : World σ P} (hwf : w.view.store.Wf)
    (halong : Along (fun w a => w.step body a) ok w schedule)
    (hrun : w.run body schedule = some w') : Reach body sc w w' := by
  induction schedule generalizing w with
  | nil =>
      rw [← Option.some.inj hrun]
      exact Relation.ReflTransGen.refl
  | cons a rest ih =>
      obtain ⟨mid, hstep, hrest⟩ := Option.bind_eq_some_iff.mp hrun
      have hlater := ih (World.step_wf hwf hstep) (halong.2 mid hstep) hrest
      exact Relation.ReflTransGen.head ⟨a, hstep, hok w a mid hwf halong.1 hstep⟩ hlater

/-- An invariant, the guarantees of the actors, and the requests that are
covered. The laws say that statements which change nothing lasting, the clock
and the timers respect them; an operation on the memory has no such law. -/
structure Logic (σ : Schema) (P : Platform) where
  scope : Scope σ P
  starts : P.Req → Prop
  Inv : View σ P → Prop
  Guar : Option Pid → View σ P → View σ P → Prop
  spawns : ∀ req, scope.spawn req → starts req
  quiet : ∀ p e v v', v.store.Wf → Inv v → ActsOn p e v v' →
    (∀ op, e.1 ≠ .node op) → v.Quiet v' → scope.run v p v' →
      Inv v' ∧ Guar (some p) v v'
  tick : ∀ v n, v.store.Wf → Inv v →
    Inv { v with store := v.store.tick n } ∧
      Guar none v { v with store := v.store.tick n }
  fire : ∀ v timer mem, v.store.Wf → Inv v →
    P.fire v.store.clock timer v.mem = some mem →
      Inv { v with mem := mem } ∧ Guar none v { v with mem := mem }

namespace Logic

/-- One step of an actor that keeps to the rules. -/
structure Step (L : Logic σ P) (a : Option Pid) (v v' : View σ P) : Prop where
  wf : v.store.Wf
  inv : L.Inv v
  base : Base a v v'
  guar : L.Guar a v v'
  wf' : v'.store.Wf
  inv' : L.Inv v'

/-- What can happen between two steps of `p`. -/
def Env (L : Logic σ P) (p : Pid) : View σ P → View σ P → Prop :=
  Relation.ReflTransGen fun v v' => ∃ a, a ≠ some p ∧ L.Step a v v'

/-- What can happen during a run. -/
def Path (L : Logic σ P) : View σ P → View σ P → Prop :=
  Relation.ReflTransGen fun v v' => ∃ a, L.Step a v v'

/-- An assertion of `p` that the steps of the others keep. -/
def Stable (L : Logic σ P) (p : Pid) (A : View σ P → Prop) : Prop :=
  ∀ a v v', a ≠ some p → L.Step a v v' → A v → A v'

/-- An assertion that no step of anybody falsifies. -/
def Persistent (L : Logic σ P) (A : View σ P → Prop) : Prop :=
  ∀ a v v', L.Step a v v' → A v → A v'

def Permits (L : Logic σ P) : Call σ P → Prop
  | .fork req => L.starts req
  | _ => True

variable {L : Logic σ P} {p : Pid}

theorem Stable.env {A : View σ P → Prop} (hstable : L.Stable p A)
    {v v' : View σ P} (henv : L.Env p v v') (hholds : A v) : A v' := by
  induction henv with
  | refl => exact hholds
  | tail _ hstep ih =>
      obtain ⟨a, hactor, hstep⟩ := hstep
      exact hstable a _ _ hactor hstep ih

theorem Stable.and {A B : View σ P → Prop} (hA : L.Stable p A)
    (hB : L.Stable p B) : L.Stable p fun v => A v ∧ B v := by
  intro a v v' hactor hstep hholds
  exact ⟨hA a v v' hactor hstep hholds.1, hB a v v' hactor hstep hholds.2⟩

theorem Persistent.stable {A : View σ P → Prop} (hpersistent : L.Persistent A) :
    L.Stable p A :=
  fun a v v' _ hstep hholds => hpersistent a v v' hstep hholds

theorem Stable.const (B : Prop) : L.Stable p fun _ => B :=
  fun _ _ _ _ _ hholds => hholds

theorem env_good {v v' : View σ P} (henv : L.Env p v v') (hwf : v.store.Wf)
    (hinv : L.Inv v) : v'.store.Wf ∧ L.Inv v' := by
  induction henv with
  | refl => exact ⟨hwf, hinv⟩
  | tail _ hstep _ =>
      obtain ⟨a, -, hstep⟩ := hstep
      exact ⟨hstep.wf', hstep.inv'⟩

/-- Whatever holds between two views through every step holds along a path. -/
theorem Path.preserves {A : View σ P → Prop}
    (hstep : ∀ a v v', L.Step a v v' → A v → A v') {v v' : View σ P}
    (hpath : L.Path v v') (hholds : A v) : A v' := by
  induction hpath with
  | refl => exact hholds
  | tail _ hnext ih =>
      obtain ⟨a, hnext⟩ := hnext
      exact hstep a _ _ hnext ih

variable {α β : Type}

/-- The program `x` of `p` is safe from the view on and ends as `Q` allows. -/
def Safe (L : Logic σ P) (p : Pid) (Q : Except P.Err α → View σ P → Prop) :
    Code σ P α → View σ P → Prop
  | .ret a, v => ∀ v₁, L.Env p v v₁ → Q (.ok a) v₁
  | .throw e, v => ∀ v₁, L.Env p v v₁ → Q (.error e) v₁
  | .step c k, v => ∀ v₁, L.Env p v v₁ → ∀ choice res v₂,
      v₁.exec p choice c = some (res, v₂) → L.scope.run v₁ p v₂ →
        L.Permits c ∧ L.Inv v₂ ∧ L.Guar (some p) v₁ v₂ ∧ L.Safe p Q (k res) v₂

theorem Safe.env {Q : Except P.Err α → View σ P → Prop} {x : Code σ P α}
    {v v' : View σ P} (hsafe : L.Safe p Q x v) (henv : L.Env p v v') :
    L.Safe p Q x v' := by
  cases x with
  | ret a => exact fun v₁ hlater => hsafe v₁ (henv.trans hlater)
  | throw e => exact fun v₁ hlater => hsafe v₁ (henv.trans hlater)
  | step c k => exact fun v₁ hlater => hsafe v₁ (henv.trans hlater)

/-- The assertions of a program: `A` before it, `Q` after it. -/
def Triple (L : Logic σ P) (p : Pid) (A : View σ P → Prop) (x : Code σ P α)
    (Q : Except P.Err α → View σ P → Prop) : Prop :=
  ∀ v, v.store.Wf → L.Inv v → A v → L.Safe p Q x v

end Logic

end Transact
