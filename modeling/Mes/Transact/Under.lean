import Mes.Transact.Soundness

/-!
One request in a run that is known to keep to a condition. The condition is on the steps,
and may come from anywhere: from another logic, or from what the run ends in. The steps of
the wider logic are part of the scope, so the other programs owe nothing, and the program
under study owes only its postcondition.
-/

namespace Transact

variable {σ : Schema} {P : Platform} {body : P.Req → Code σ P P.Ans} {sc : Scope σ P}

namespace Logic

variable {L : Logic σ P} {keeps : View σ P → Pid → View σ P → Prop} {p : Pid} {α : Type}

/-- The runs of `L` whose steps keep to `keeps`. -/
def under (L : Logic σ P) (keeps : View σ P → Pid → View σ P → Prop) : Logic σ P where
  scope :=
    { spawn := L.scope.spawn
      run := fun v p v' => L.Step (some p) v v' ∧ keeps v p v' }
  starts := L.starts
  Inv := L.Inv
  Guar := fun a v v' => L.Guar a v v' ∧ ∀ p, a = some p → keeps v p v'
  spawns := L.spawns
  quiet := fun p e v v' _ _ _ _ _ hrun =>
    ⟨hrun.1.inv', hrun.1.guar, fun q hq => Option.some.inj hq ▸ hrun.2⟩
  tick := fun v n hwf hinv => by
    obtain ⟨hinv', hguar⟩ := L.tick v n hwf hinv
    exact ⟨hinv', hguar, fun q hq => by cases hq⟩
  fire := fun v timer mem hwf hinv hfire => by
    obtain ⟨hinv', hguar⟩ := L.fire v timer mem hwf hinv hfire
    exact ⟨hinv', hguar, fun q hq => by cases hq⟩

/-- What a program owes for a step, its scope has granted. -/
theorem under_granted {v v' : View σ P} (hrun : (L.under keeps).scope.run v p v') :
    (L.under keeps).Inv v' ∧ (L.under keeps).Guar (some p) v v' :=
  ⟨hrun.1.inv', hrun.1.guar, fun _ hq => Option.some.inj hq ▸ hrun.2⟩

theorem Step.of_under {a : Option Pid} {v v' : View σ P}
    (hstep : (L.under keeps).Step a v v') : L.Step a v v' ∧ ∀ p, a = some p → keeps v p v' :=
  ⟨⟨hstep.wf, hstep.inv, hstep.base, hstep.guar.1, hstep.wf', hstep.inv'⟩, hstep.guar.2⟩

/-- A program of which nothing is asked. -/
theorem Safe.lax {Q : Except P.Err α → View σ P → Prop} (hstarts : ∀ req, L.starts req)
    (hpost : ∀ out v, Q out v) (x : Code σ P α) (v : View σ P) :
    (L.under keeps).Safe p Q x v := by
  induction x generalizing v with
  | ret a => exact fun v₁ _ => hpost _ v₁
  | throw e => exact fun v₁ _ => hpost _ v₁
  | step c k ih =>
      intro v₁ _ choice res v₂ _ hrun
      refine ⟨?_, (under_granted hrun).1, (under_granted hrun).2, ih res v₂⟩
      cases c with
      | sql stmt => trivial
      | node op => trivial
      | fork req => exact hstarts req

/-- A call of one request that the program logic has looked at. -/
theorem under_call {Fresh : Pid → View σ P → Prop}
    {Q : Pid → P.Req → Except P.Err P.Ans → View σ P → Prop} {w : World σ P} {req : P.Req}
    {A : View σ P → Prop} {R : Except P.Err P.Ans → View σ P → Prop}
    (hverified : L.Verified Fresh Q w) (hstarts : ∀ req, L.starts req)
    (hp : p = w.procs.length) (htriple : (L.under keeps).Triple p A (body req) R)
    (hstart : A w.view) :
    (L.under keeps).Verified (fun q _ => q ≠ p) (fun q _ out v => q = p → R out v)
      (w.call body [req]) where
  wf := hverified.wf
  inv := hverified.inv
  safe := by
    intro q proc hproc
    rcases eq_or_ne q p with rfl | hq
    · simp only [World.call, List.map_cons, List.map_nil, hp, List.getElem?_concat_length,
        Option.some.injEq] at hproc
      subst hproc
      exact Safe.post (fun out v hR _ => hR) (htriple w.view hverified.wf hverified.inv hstart)
    · exact Safe.lax hstarts (fun _ _ heq => absurd heq hq) proc.prog w.view
  fresh := by
    intro q hq
    simp only [World.call, List.length_append, List.length_map, List.length_singleton] at hq
    have hlate : w.procs.length < q := hq
    exact ⟨(hverified.fresh q (Nat.le_of_lt hlate)).1, hp ▸ Nat.ne_of_gt hlate⟩

/-- What the called request ends with, in every run that keeps to the condition. -/
theorem under_ended {w w' : World σ P} {R : Except P.Err P.Ans → View σ P → Prop}
    (hcalled : (L.under keeps).Verified (fun q _ => q ≠ p) (fun q _ out v => q = p → R out v) w)
    (hstarts : ∀ req, L.starts req) (hreach : Reach body (L.under keeps).scope w w')
    {req : P.Req} {out : Except P.Err P.Ans} (hended : w'.Ended p req out) : R out w'.view := by
  have hcovers : (L.under keeps).Covers body (fun q _ => q ≠ p)
      (fun q _ out v => q = p → R out v) := by
    intro q req _ v _ _ hfresh
    exact Safe.lax hstarts (fun _ _ heq => absurd heq hfresh.2) (body req) v
  exact (hcalled.reach (fun _ => Stable.const _) hcovers hreach).1.ended hended rfl

end Logic

open Logic

/-- A run keeps to a condition when each of its steps does; the step may be judged by the
world that the run ends in. -/
theorem Reach.under {L : Logic σ P} {keeps : View σ P → Pid → View σ P → Prop}
    {Fresh : Pid → View σ P → Prop} {Q : Pid → P.Req → Except P.Err P.Ans → View σ P → Prop}
    {w w' : World σ P} (hfresh : ∀ p, L.Stable p (Fresh p)) (hcovers : L.Covers body Fresh Q)
    (hverified : L.Verified Fresh Q w) (hspawn : ∀ req, sc.spawn req → L.scope.spawn req)
    (hrun : ∀ v p v', L.scope.run v p v') (hreach : Reach body sc w w')
    (hkeeps : ∀ u u' q choice, Reach body sc w u → u.step body (.run q choice) = some u' →
      Moves body sc u u' → Reach body sc u' w' → keeps u.view q u'.view) :
    Reach body (L.under keeps).scope w w' ∧ L.Verified Fresh Q w' := by
  induction hreach with
  | refl => exact ⟨Relation.ReflTransGen.refl, hverified⟩
  | tail hbefore hmoves ih =>
      obtain ⟨hunder, hmid⟩ := ih fun u u' q choice hfirst hstep hmove hlater =>
        hkeeps u u' q choice hfirst hstep hmove (hlater.tail hmoves)
      obtain ⟨act, hact, hadmits⟩ := id hmoves
      obtain ⟨hnext, hview⟩ := hmid.acts hfresh hcovers hact (by
        cases act with
        | spawn req => exact hspawn req hadmits
        | run p choice => exact hrun _ p _
        | tick n => trivial
        | fire timer => trivial)
      refine ⟨hunder.tail ⟨act, hact, ?_⟩, hnext⟩
      cases act with
      | spawn req => exact hspawn req hadmits
      | run p choice =>
          rcases hview with ⟨hnone, -⟩ | hstep
          · cases hnone
          · exact ⟨hstep, hkeeps _ _ p choice hbefore hact hmoves Relation.ReflTransGen.refl⟩
      | tick n => trivial
      | fire timer => trivial

end Transact
