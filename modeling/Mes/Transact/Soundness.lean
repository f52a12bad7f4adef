import Mes.Transact.Rules

/-!
Soundness of the program logic. `Verified` is the invariant of a whole world:
its view is good, each of its programs is safe with its own postcondition, and
the programs that have not started yet have left no trace. One step of the
scheduler keeps it, and so does every run.
-/

namespace Transact

variable {σ : Schema} {P : Platform}

/-- `p` has done nothing yet. -/
structure Unused (p : Pid) (v : View σ P) : Prop where
  idle : Idle p v
  silent : ∀ e, (p, e) ∉ v.history
  childless : ∀ t id r, v.store.born t id ≠ some (p, r)

namespace Logic

variable {L : Logic σ P}

theorem stable_unused (p : Pid) : L.Stable p (Unused p) := by
  intro a v v' hactor hstep hunused
  refine ⟨stable_idle a v v' hactor hstep hunused.idle, ?_, ?_⟩
  · exact fun e hmem => hunused.silent e ((hstep.own_history hactor e).mp hmem)
  · intro t id r hborn
    cases a with
    | none =>
        obtain ⟨-, n, hstore⟩ := hstep.base
        rw [hstore] at hborn
        exact hunused.childless t id r hborn
    | some q =>
        obtain ⟨e', hacts⟩ := hstep.base
        cases hold : v.store.born t id with
        | none =>
            have hpid := hacts.store.bornBy t id p r hold hborn
            exact hactor (by rw [hpid])
        | some b =>
            have hkept := hacts.store.bornKept t id b hold
            rw [hkept] at hborn
            rw [Option.some.inj hborn] at hold
            exact hunused.childless t id r hold

variable {body : P.Req → Code σ P P.Ans} {Fresh : Pid → View σ P → Prop}
  {Q : Pid → P.Req → Except P.Err P.Ans → View σ P → Prop}

/-- A world in which everything is under the control of the logic. -/
structure Verified (L : Logic σ P) (Fresh : Pid → View σ P → Prop)
    (Q : Pid → P.Req → Except P.Err P.Ans → View σ P → Prop)
    (w : World σ P) : Prop where
  wf : w.view.store.Wf
  inv : L.Inv w.view
  safe : ∀ (p : Pid) proc, w.procs[p]? = some proc →
    L.Safe p (Q p proc.req) proc.prog w.view
  fresh : ∀ p, w.procs.length ≤ p → Unused p w.view ∧ Fresh p w.view

/-- Every request that may start is safe from the moment it does. -/
def Covers (L : Logic σ P) (body : P.Req → Code σ P P.Ans)
    (Fresh : Pid → View σ P → Prop)
    (Q : Pid → P.Req → Except P.Err P.Ans → View σ P → Prop) : Prop :=
  ∀ p req, L.starts req →
    L.Triple p (fun v => Unused p v ∧ Fresh p v) (body req) (Q p req)

theorem Verified.view_step {w : World σ P} {v' : View σ P}
    {procs' : List (Proc σ P)} {a : Option Pid}
    (hfresh : ∀ p, L.Stable p (Fresh p)) (hcovers : L.Covers body Fresh Q)
    (hverified : L.Verified Fresh Q w) (hstep : L.Step a w.view v')
    (hprocs : ∀ (p : Pid) proc, procs'[p]? = some proc →
      (a ≠ some p ∧ w.procs[p]? = some proc) ∨
      (a = some p ∧ L.Safe p (Q p proc.req) proc.prog v') ∨
      (w.procs.length ≤ p ∧ L.starts proc.req ∧ proc.prog = body proc.req))
    (hlength : w.procs.length ≤ procs'.length)
    (hactor : ∀ p, a = some p → p < w.procs.length) :
    L.Verified Fresh Q { view := v', procs := procs' } := by
  have hstill (p : Pid) (hlate : w.procs.length ≤ p) :
      Unused p v' ∧ Fresh p v' := by
    have hother : a ≠ some p := by
      intro heq
      exact absurd (hactor p heq) (Nat.not_lt_of_le hlate)
    obtain ⟨hunused, hown⟩ := hverified.fresh p hlate
    exact ⟨stable_unused p a _ _ hother hstep hunused,
      hfresh p a _ _ hother hstep hown⟩
  refine ⟨hstep.wf', hstep.inv', ?_, ?_⟩
  · intro p proc hproc
    rcases hprocs p proc hproc with ⟨hother, hold⟩ | ⟨-, hsafe⟩ | ⟨hlate, hstarts, hprog⟩
    · exact (hverified.safe p proc hold).env
        (Relation.ReflTransGen.single ⟨a, hother, hstep⟩)
    · exact hsafe
    · rw [hprog]
      exact hcovers p proc.req hstarts v' hstep.wf' hstep.inv' (hstill p hlate)
  · intro p hlate
    exact hstill p (le_trans hlength hlate)

/-- One step of the scheduler. Starting a request leaves the view as it is. -/
theorem Verified.acts {w w' : World σ P} {act : Action P}
    (hfresh : ∀ p, L.Stable p (Fresh p)) (hcovers : L.Covers body Fresh Q)
    (hverified : L.Verified Fresh Q w) (hact : w.step body act = some w')
    (hadmits : L.scope.admits act w w') :
    L.Verified Fresh Q w' ∧
      (act.actor = none ∧ w'.view = w.view ∨ L.Step act.actor w.view w'.view) := by
  have hwf := hverified.wf
  have hinv := hverified.inv
  cases act with
  | spawn req =>
      have hw' : w.spawn body req = w' := by simpa [World.step] using hact
      subst hw'
      refine ⟨⟨hwf, hinv, ?_, ?_⟩, Or.inl ⟨rfl, rfl⟩⟩
      · intro p proc hproc
        simp only [World.spawn] at hproc ⊢
        rcases Nat.lt_or_ge p w.procs.length with hlt | hge
        · rw [List.getElem?_append_left hlt] at hproc
          exact hverified.safe p proc hproc
        · rw [List.getElem?_append_right hge, List.getElem?_singleton] at hproc
          split at hproc
          · rw [← Option.some.inj hproc]
            exact hcovers p req (L.spawns req hadmits) _ hwf hinv
              (hverified.fresh p hge)
          · cases hproc
      · intro p hlate
        simp only [World.spawn, List.length_append] at hlate
        exact hverified.fresh p (le_trans (Nat.le_add_right _ _) hlate)
  | run p choice =>
      simp only [World.step, World.runProc] at hact
      split at hact
      · rename_i req c k hproc
        obtain ⟨⟨res, v'⟩, hexec, rfl⟩ := Option.map_eq_some_iff.mp hact
        have hsafe := hverified.safe p _ hproc
        obtain ⟨hwf', hbase⟩ := View.exec_base hwf hexec
        obtain ⟨hpermit, hinv', hguar, hnext⟩ := hsafe w.view
          Relation.ReflTransGen.refl choice res v' hexec hadmits
        have hstep : L.Step (some p) w.view v' :=
          ⟨hwf, hinv, ⟨_, hbase⟩, hguar, hwf', hinv'⟩
        have hlt : p < w.procs.length := by
          by_contra hge
          rw [List.getElem?_eq_none (Nat.le_of_not_lt hge)] at hproc
          cases hproc
        refine ⟨?_, Or.inr hstep⟩
        refine hverified.view_step hfresh hcovers hstep ?_ (by simp) ?_
        · intro q proc hq
          rcases Nat.lt_or_ge q w.procs.length with hqlt | hqge
          · rw [List.getElem?_append_left (by simpa using hqlt)] at hq
            by_cases hpid : p = q
            · subst hpid
              rw [List.getElem?_set_self (by simpa using hqlt)] at hq
              rw [← Option.some.inj hq]
              exact Or.inr (Or.inl ⟨rfl, hnext⟩)
            · rw [List.getElem?_set_ne hpid] at hq
              exact Or.inl ⟨fun heq => hpid (Option.some.inj heq), hq⟩
          · rw [List.getElem?_append_right (by simpa using hqge)] at hq
            refine Or.inr (Or.inr ⟨hqge, ?_⟩)
            cases c with
            | sql stmt => simp [Call.forked] at hq
            | node op => simp [Call.forked] at hq
            | fork req' =>
                simp only [Call.forked, List.getElem?_singleton] at hq
                split at hq
                · rw [← Option.some.inj hq]
                  exact ⟨hpermit, rfl⟩
                · cases hq
        · intro q heq
          rw [← Option.some.inj heq]
          exact hlt
      · cases hact
  | tick n =>
      have hw' := Option.some.inj hact
      subst hw'
      obtain ⟨hinv', hguar⟩ := L.tick w.view n hwf hinv
      have hstep : L.Step none w.view { w.view with store := w.view.store.tick n } :=
        ⟨hwf, hinv, ⟨rfl, n, rfl⟩, hguar, Store.wf_tick hwf n, hinv'⟩
      refine ⟨?_, Or.inr hstep⟩
      exact hverified.view_step hfresh hcovers hstep
        (fun p proc hproc => Or.inl ⟨by simp, hproc⟩) (le_refl _) (by simp)
  | fire timer =>
      simp only [World.step] at hact
      obtain ⟨mem, hfire, rfl⟩ := Option.map_eq_some_iff.mp hact
      obtain ⟨hinv', hguar⟩ := L.fire w.view timer mem hwf hinv hfire
      have hstep : L.Step none w.view { w.view with mem := mem } :=
        ⟨hwf, hinv, ⟨rfl, 0, rfl⟩, hguar, hwf, hinv'⟩
      refine ⟨?_, Or.inr hstep⟩
      exact hverified.view_step hfresh hcovers hstep
        (fun p proc hproc => Or.inl ⟨by simp, hproc⟩) (le_refl _) (by simp)

theorem Verified.moves {w w' : World σ P} (hfresh : ∀ p, L.Stable p (Fresh p))
    (hcovers : L.Covers body Fresh Q) (hverified : L.Verified Fresh Q w)
    (hmoves : Moves body L.scope w w') :
    L.Verified Fresh Q w' ∧
      (w'.view = w.view ∨ ∃ a, L.Step a w.view w'.view) := by
  obtain ⟨act, hact, hadmits⟩ := hmoves
  obtain ⟨hnext, hview⟩ := hverified.acts hfresh hcovers hact hadmits
  rcases hview with ⟨-, hsame⟩ | hstep
  · exact ⟨hnext, Or.inl hsame⟩
  · exact ⟨hnext, Or.inr ⟨_, hstep⟩⟩

/-- A whole run keeps a world verified, and its views form a path. -/
theorem Verified.reach {w w' : World σ P} (hfresh : ∀ p, L.Stable p (Fresh p))
    (hcovers : L.Covers body Fresh Q) (hverified : L.Verified Fresh Q w)
    (hreach : Reach body L.scope w w') :
    L.Verified Fresh Q w' ∧ L.Path w.view w'.view := by
  induction hreach with
  | refl => exact ⟨hverified, Relation.ReflTransGen.refl⟩
  | tail _ hmoves ih =>
      obtain ⟨hmid, hpath⟩ := ih
      obtain ⟨hnext, hview⟩ := hmid.moves hfresh hcovers hmoves
      refine ⟨hnext, ?_⟩
      rcases hview with hsame | hstep
      · rw [hsame]
        exact hpath
      · exact hpath.tail hstep

/-- The schedules whose steps all keep to the rules of a logic. -/
def layered (L : Logic σ P) : Scope σ P where
  spawn := L.scope.spawn
  run := fun v p v' => L.Step (some p) v v'

/-- What one logic guarantees of each step, the scope of another may assume. -/
theorem Verified.layered {w w' : World σ P} (hfresh : ∀ p, L.Stable p (Fresh p))
    (hcovers : L.Covers body Fresh Q) (hverified : L.Verified Fresh Q w)
    (hreach : Reach body L.scope w w') : Reach body L.layered w w' := by
  have hboth : Reach body L.layered w w' ∧ L.Verified Fresh Q w' := by
    induction hreach with
    | refl => exact ⟨Relation.ReflTransGen.refl, hverified⟩
    | tail _ hmoves ih =>
        obtain ⟨hrun, hmid⟩ := ih
        obtain ⟨act, hact, hadmits⟩ := hmoves
        obtain ⟨hnext, hview⟩ := hmid.acts hfresh hcovers hact hadmits
        refine ⟨hrun.tail ⟨act, hact, ?_⟩, hnext⟩
        cases act with
        | spawn req => exact hadmits
        | run p choice =>
            rcases hview with ⟨hnone, -⟩ | hstep
            · cases hnone
            · exact hstep
        | tick n => trivial
        | fire timer => trivial
  exact hboth.1

/-- The postcondition of a request that has ended. -/
theorem Verified.ended {w : World σ P} (hverified : L.Verified Fresh Q w) {p : Pid}
    {req : P.Req} {out : Except P.Err P.Ans} (hended : w.Ended p req out) :
    Q p req out w.view := by
  obtain ⟨proc, hproc, rfl, hout⟩ := hended
  have hsafe := hverified.safe p proc hproc
  cases out with
  | ok a =>
      rw [Prog.eq_ret_of_outcome hout] at hsafe
      exact hsafe _ Relation.ReflTransGen.refl
  | error e =>
      rw [Prog.eq_throw_of_outcome hout] at hsafe
      exact hsafe _ Relation.ReflTransGen.refl

/-! ### Fewer schedules -/

/-- The same logic for fewer schedules. The others may then be taken to keep to
those schedules as well. -/
def narrow (L : Logic σ P) (sc : Scope σ P) (hspawn : ∀ req, ¬ sc.spawn req)
    (hrun : ∀ v p v', L.scope.run v p v') : Logic σ P where
  scope := sc
  starts := L.starts
  Inv := L.Inv
  Guar := fun a v v' => L.Guar a v v' ∧ ∀ p, a = some p → sc.run v p v'
  spawns := fun req hreq => absurd hreq (hspawn req)
  quiet := fun p e v v' hwf hinv hacts hevent hquiet hallowed => by
    obtain ⟨hinv', hguar⟩ := L.quiet p e v v' hwf hinv hacts hevent hquiet (hrun v p v')
    exact ⟨hinv', hguar, fun q hq => by rwa [← Option.some.inj hq]⟩
  tick := fun v n hwf hinv => by
    obtain ⟨hinv', hguar⟩ := L.tick v n hwf hinv
    exact ⟨hinv', hguar, fun q hq => by cases hq⟩
  fire := fun v timer mem hwf hinv hfire => by
    obtain ⟨hinv', hguar⟩ := L.fire v timer mem hwf hinv hfire
    exact ⟨hinv', hguar, fun q hq => by cases hq⟩

section Narrow

variable {sc : Scope σ P} {hspawn : ∀ req, ¬ sc.spawn req}
  {hrun : ∀ v p v', L.scope.run v p v'} {p : Pid} {α : Type}

theorem Step.widen {a : Option Pid} {v v' : View σ P}
    (hstep : (L.narrow sc hspawn hrun).Step a v v') : L.Step a v v' :=
  ⟨hstep.wf, hstep.inv, hstep.base, hstep.guar.1, hstep.wf', hstep.inv'⟩

theorem Env.widen {v v' : View σ P} (henv : (L.narrow sc hspawn hrun).Env p v v') :
    L.Env p v v' := by
  induction henv with
  | refl => exact Relation.ReflTransGen.refl
  | tail _ hnext ih =>
      obtain ⟨a, hactor, hstep⟩ := hnext
      exact ih.tail ⟨a, hactor, hstep.widen⟩

theorem Stable.narrow {A : View σ P → Prop} (hstable : L.Stable p A) :
    (L.narrow sc hspawn hrun).Stable p A :=
  fun a v v' hactor hstep hA => hstable a v v' hactor hstep.widen hA

theorem Safe.narrow {Q : Except P.Err α → View σ P → Prop} {x : Code σ P α} :
    ∀ {v : View σ P}, L.Safe p Q x v → (L.narrow sc hspawn hrun).Safe p Q x v := by
  induction x with
  | ret a => exact fun hsafe v₁ henv => hsafe v₁ henv.widen
  | throw e => exact fun hsafe v₁ henv => hsafe v₁ henv.widen
  | step c k ih =>
      intro v hsafe v₁ henv choice res v₂ hexec hallowed
      obtain ⟨hpermit, hinv, hguar, hnext⟩ :=
        hsafe v₁ henv.widen choice res v₂ hexec (hrun v₁ p v₂)
      refine ⟨?_, hinv, ⟨hguar, ?_⟩, ih res hnext⟩
      · cases c with
        | sql stmt => trivial
        | node op => trivial
        | fork req => exact hpermit
      · intro q hq
        rwa [← Option.some.inj hq]

end Narrow

/-- A program that is never scheduled is safe, whatever it would do. -/
theorem Safe.asleep {p : Pid} {α : Type} {x : Code σ P α} {v : View σ P}
    {Q : Except P.Err α → View σ P → Prop} (hasleep : ∀ u u', ¬ L.scope.run u p u')
    (hpost : ∀ out u, Q out u) : L.Safe p Q x v := by
  cases x with
  | ret a => exact fun v₁ _ => hpost _ v₁
  | throw e => exact fun v₁ _ => hpost _ v₁
  | step c k =>
      intro v₁ henv choice res v₂ hexec hallowed
      exact absurd hallowed (hasleep v₁ v₂)

/-- Only the programs `who` run, and they have just been called; all the others
keep still, whatever they were doing. -/
structure Called (L : Logic σ P) (body : P.Req → Code σ P P.Ans) (who : Pid → Prop)
    (Q : Pid → P.Req → Except P.Err P.Ans → View σ P → Prop) (w : World σ P)
    (reqs : List P.Req) : Prop where
  wf : w.view.store.Wf
  inv : L.Inv w.view
  unused : ∀ p, w.procs.length ≤ p → Unused p w.view
  scope : ∀ v p v', L.scope.run v p v' → who p
  new : ∀ p, who p → w.procs.length ≤ p ∧ p < w.procs.length + reqs.length
  safe : ∀ k req, reqs[k]? = some req → who (w.procs.length + k) →
    L.Safe (w.procs.length + k) (Q (w.procs.length + k) req) (body req) w.view
  others : ∀ p req out v, ¬ who p → Q p req out v

section Called

variable {who : Pid → Prop} {w w' : World σ P} {reqs : List P.Req}

/-- Whoever is not called is never scheduled. -/
theorem Called.asleep (hcalled : L.Called body who Q w reqs) {p : Pid} (hp : ¬ who p)
    (v v' : View σ P) : ¬ L.scope.run v p v' :=
  fun hrun => hp (hcalled.scope v p v' hrun)

theorem Called.covers (hcalled : L.Called body who Q w reqs) :
    L.Covers body (fun p _ => ¬ who p) Q := by
  intro p req _ v _ _ hfresh
  exact Safe.asleep (hcalled.asleep hfresh.2)
    fun out u => hcalled.others p req out u hfresh.2

theorem Called.verified (hcalled : L.Called body who Q w reqs) :
    L.Verified (fun p _ => ¬ who p) Q (w.call body reqs) := by
  refine ⟨hcalled.wf, hcalled.inv, ?_, ?_⟩
  · intro p proc hproc
    rcases em (who p) with hp | hp
    · obtain ⟨hge, -⟩ := hcalled.new p hp
      obtain ⟨k, rfl⟩ := Nat.exists_eq_add_of_le hge
      simp only [World.call] at hproc
      rw [List.getElem?_append_right hge, Nat.add_sub_cancel_left, List.getElem?_map,
        Option.map_eq_some_iff] at hproc
      obtain ⟨req, hreq, rfl⟩ := hproc
      exact hcalled.safe k req hreq hp
    · exact Safe.asleep (hcalled.asleep hp) fun out u => hcalled.others p proc.req out u hp
  · intro p hlate
    simp only [World.call, List.length_append, List.length_map] at hlate
    refine ⟨hcalled.unused p (by omega), fun hp => ?_⟩
    exact absurd (hcalled.new p hp).2 (Nat.not_lt_of_le hlate)

theorem Called.reach (hcalled : L.Called body who Q w reqs)
    (hreach : Reach body L.scope (w.call body reqs) w') :
    L.Verified (fun p _ => ¬ who p) Q w' ∧ L.Path w.view w'.view :=
  Verified.reach (w := w.call body reqs) (fun _ => Stable.const _) hcalled.covers
    hcalled.verified hreach

/-- The calls keep to the rules of their logic. -/
theorem Called.layered (hcalled : L.Called body who Q w reqs)
    (hreach : Reach body L.scope (w.call body reqs) w') :
    Reach body L.layered (w.call body reqs) w' :=
  Verified.layered (fun _ => Stable.const _) hcalled.covers hcalled.verified hreach

end Called

end Logic

end Transact
