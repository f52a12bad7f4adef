import Mes.Transact.Soundness

/-!
One fixed step of a run. Every operation is put on the history, so no two
operations of a run start from the same history: a run through the step from `u`
to `u'` is a run in the scope that knows this step by its history. What is shown
about the operations of a program in that scope then holds of the step itself.
-/

namespace Transact

variable {σ : Schema} {P : Platform}

/-- The schedules in which the operation after the history of `u` is the step
from `u` to `u'`. -/
def Scope.pinned (sc : Scope σ P) (u u' : View σ P) : Scope σ P where
  spawn := sc.spawn
  run := fun v p v' => sc.run v p v' ∧ (v.history = u.history → v = u ∧ v' = u')

theorem View.exec_history {v v' : View σ P} {p : Pid} {choice : P.Choice} {c : Call σ P}
    {res : c.Res} (hexec : v.exec p choice c = some (res, v')) :
    v'.history = (p, ⟨c, res⟩) :: v.history := by
  cases c with
  | sql stmt => exact (View.exec_sql hexec).2.2
  | node op => exact (View.exec_node hexec).2.2
  | fork req => exact (View.exec_fork hexec).2.2

variable {body : P.Req → Code σ P P.Ans} {sc : Scope σ P}

theorem World.run_history {w w' : World σ P} {p : Pid} {choice : P.Choice}
    (hrun : w.step body (.run p choice) = some w') :
    ∃ e, w'.view.history = (p, e) :: w.view.history := by
  simp only [World.step, World.runProc] at hrun
  split at hrun
  · obtain ⟨out, hexec, rfl⟩ := Option.map_eq_some_iff.mp hrun
    exact ⟨_, View.exec_history hexec⟩
  · cases hrun

/-- The history only grows. -/
theorem Moves.history {w w' : World σ P} (hmoves : Moves body sc w w') :
    ∃ later, w'.view.history = later ++ w.view.history := by
  obtain ⟨act, hact, -⟩ := hmoves
  cases act with
  | spawn req =>
      refine ⟨[], ?_⟩
      rw [← Option.some.inj hact]
      rfl
  | run p choice =>
      obtain ⟨e, hhistory⟩ := World.run_history hact
      exact ⟨[(p, e)], hhistory⟩
  | tick n =>
      refine ⟨[], ?_⟩
      rw [← Option.some.inj hact]
      rfl
  | fire timer =>
      obtain ⟨mem, -, rfl⟩ := Option.map_eq_some_iff.mp hact
      exact ⟨[], rfl⟩

theorem Reach.history {w w' : World σ P} (hreach : Reach body sc w w') :
    ∃ later, w'.view.history = later ++ w.view.history := by
  induction hreach with
  | refl => exact ⟨[], rfl⟩
  | tail _ hmoves ih =>
      obtain ⟨later, hlater⟩ := ih
      obtain ⟨last, hlast⟩ := hmoves.history
      exact ⟨last ++ later, by rw [hlast, hlater, List.append_assoc]⟩

theorem Reach.history_le {w w' : World σ P} (hreach : Reach body sc w w') :
    w.view.history.length ≤ w'.view.history.length := by
  obtain ⟨later, hlater⟩ := Reach.history hreach
  rw [hlater, List.length_append]
  omega

/-- A move whose operation, if it is one, does not start from the history of `u`. -/
theorem Moves.pinned_of_ne {w w' : World σ P} {u u' : View σ P}
    (hmoves : Moves body sc w w')
    (hother : w.view.history.length < w'.view.history.length →
      w.view.history ≠ u.history) : Moves body (sc.pinned u u') w w' := by
  obtain ⟨act, hact, hadmits⟩ := hmoves
  refine ⟨act, hact, ?_⟩
  cases act with
  | spawn req => exact hadmits
  | run p choice =>
      obtain ⟨e, hhistory⟩ := World.run_history hact
      refine ⟨hadmits, fun hsame => absurd hsame (hother ?_)⟩
      rw [hhistory]
      exact Nat.lt_succ_self _
  | tick n => trivial
  | fire timer => trivial

/-- A run that ends before the step is not concerned by it. -/
theorem Reach.pinned_before {w₀ w : World σ P} {u u' : View σ P}
    (hreach : Reach body sc w₀ w) (hbefore : w.view.history.length ≤ u.history.length) :
    Reach body (sc.pinned u u') w₀ w := by
  induction hreach using Relation.ReflTransGen.head_induction_on with
  | refl => exact Relation.ReflTransGen.refl
  | head hmoves hrest ih =>
      refine Relation.ReflTransGen.head (hmoves.pinned_of_ne fun hgrows hsame => ?_) ih
      have hle := Reach.history_le hrest
      rw [hsame] at hgrows
      omega

theorem Reach.pinned_after {w₂ w : World σ P} {u u' : View σ P}
    (hreach : Reach body sc w₂ w) (hafter : u.history.length < w₂.view.history.length) :
    Reach body (sc.pinned u u') w₂ w := by
  induction hreach with
  | refl => exact Relation.ReflTransGen.refl
  | tail hprior hmoves ih =>
      refine ih.tail (hmoves.pinned_of_ne fun _ hsame => ?_)
      have hle := Reach.history_le hprior
      rw [hsame] at hle
      omega

/-- A run through a step knows it by its history. -/
theorem Reach.pinned {w₀ w₁ w₂ w : World σ P} {p : Pid} {choice : P.Choice}
    (hbefore : Reach body sc w₀ w₁)
    (hrun : w₁.step body (.run p choice) = some w₂) (hadmits : sc.run w₁.view p w₂.view)
    (hafter : Reach body sc w₂ w) :
    Reach body (sc.pinned w₁.view w₂.view) w₀ w := by
  have hstep : Moves body (sc.pinned w₁.view w₂.view) w₁ w₂ :=
    ⟨.run p choice, hrun, hadmits, fun _ => ⟨rfl, rfl⟩⟩
  have hgrows : w₁.view.history.length < w₂.view.history.length := by
    obtain ⟨e, hhistory⟩ := World.run_history hrun
    rw [hhistory]
    exact Nat.lt_succ_self _
  exact ((Reach.pinned_before hbefore (Nat.le_refl _)).tail hstep).trans
    (Reach.pinned_after hafter hgrows)

/-! ### Where the operations of a program were recorded -/

/-- Every operation of `p` was recorded after a history that `A` allows for it. -/
def Recorded (p : Pid) (A : Event σ P → List (Pid × Event σ P) → Prop) (v : View σ P) :
    Prop :=
  ∀ later e earlier, v.history = later ++ (p, e) :: earlier → A e earlier

theorem Recorded.cons {p q : Pid} {A : Event σ P → List (Pid × Event σ P) → Prop}
    {v v' : View σ P} {e : Event σ P} (hrecorded : Recorded p A v)
    (hhistory : v'.history = (q, e) :: v.history) (hnew : q = p → A e v.history) :
    Recorded p A v' := by
  intro later e' earlier hsplit
  rw [hhistory] at hsplit
  rcases List.cons_eq_append_iff.mp hsplit with ⟨rfl, hcons⟩ | ⟨rest, rfl, hrest⟩
  · obtain ⟨hhead, rfl⟩ := List.cons.inj hcons
    obtain ⟨rfl, rfl⟩ := Prod.mk.inj hhead
    exact hnew rfl
  · exact hrecorded rest e' earlier hrest

theorem Logic.stable_recorded {L : Logic σ P} {p : Pid}
    (A : Event σ P → List (Pid × Event σ P) → Prop) : L.Stable p (Recorded p A) := by
  intro actor v v' hactor hstep hrecorded
  cases actor with
  | none =>
      obtain ⟨hhistory, -⟩ := hstep.base
      intro later e earlier hsplit
      rw [hhistory] at hsplit
      exact hrecorded later e earlier hsplit
  | some q =>
      obtain ⟨e, hacts⟩ := hstep.base
      exact hrecorded.cons hacts.history fun hq => absurd (congrArg some hq) hactor

end Transact
