import Mes.Auth.TokenChains

/-!
How long a revoked token is kept. The job deletes the tokens that expired more
than seven days ago and those that were revoked more than thirty days ago. The
two passes are not disjoint: a token lives for seven days, so the first pass
takes every token fourteen days after it was issued, whenever it was revoked.

`Undisputed` says of a step that it is not the commit of deletions while some
token is both recently revoked and past the first threshold. On the schedules
whose steps are all undisputed no token is lost within thirty days of its
revocation; on others one is.
-/

namespace Mes

open Transact

/-- How long a revoked token is promised to be kept. -/
def FORENSIC_WINDOW : Time := AuthService.REFRESH_TOKEN_FORENSIC_DAYS * MS_PER_DAY

variable {rt : Runtime}

/-- When `p` commits deletions, no token that was revoked within the forensic
window had been expired for the days of grace when `p` began. -/
def Undisputed (v : BackendView rt) (p : Pid) (v' : BackendView rt) : Prop :=
  v'.history = (p, ⟨.sql .commit, true⟩) :: v.history → (∃ j, Deletes p v j) →
    ∀ x, v.store.tx p = some x → ∀ i a r, tokens v i = some a → a.revokedAt = some r →
      v.store.clock ≤ r + FORENSIC_WINDOW →
        RefreshTokensRepository.expiredBefore AuthService.REFRESH_TOKEN_GRACE_DAYS
          x.startedAt a = false

/-- Any requests, on the schedules that are undisputed throughout. -/
def careful (rt : Runtime) : Scope (schema rt) (platform rt) where
  spawn := fun _ => True
  run := Undisputed

/-- The token `i` was revoked at `r`, and its row is there while the forensic
window is open. -/
def Retained (i : Nat) (r : Time) (v : BackendView rt) : Prop :=
  v.store.clock ≤ r + FORENSIC_WINDOW →
    ∃ a, tokens v i = some a ∧ a.revokedAt = some r

/-- A commit keeps a recently revoked token, unless it is disputed. -/
theorem Retained.commit {p : Pid} {v v' : BackendView rt} {i : Nat} {a : RefreshToken}
    {r : Time} (hwf : v.store.Wf) (hundisputed : Undisputed v p v')
    (ha : tokens v i = some a) (hr : a.revokedAt = some r)
    (hwindow : v.store.clock ≤ r + FORENSIC_WINDOW)
    (hreplaces : (rowVersions rt).Replaces p v v' Tbl.refreshTokens i a) :
    ∃ b, tokens v' i = some b ∧ b.revokedAt = some r := by
  obtain ⟨x, hopen, hallowed⟩ := hreplaces.allowed
  have haged : Aged x.startedAt a (tokens v' i) := hallowed
  cases hrow : tokens v' i with
  | some b =>
      rw [hrow] at haged
      refine ⟨b, rfl, ?_⟩
      rcases haged.2 with hsame | ⟨hactive, -⟩
      · rw [hsame, hr]
      · rw [hr] at hactive
        cases hactive
  | none =>
      rw [hrow] at haged
      have hdeletes : Deletes p v i := by
        have hdraft := hreplaces.draft
        rw [show v'.store.stored Tbl.refreshTokens i = none from hrow] at hdraft
        exact hdraft
      rcases haged with hexpired | hstale
      · rw [hundisputed hreplaces.commits ⟨i, hdeletes⟩ x hopen i a r ha hr hwindow]
          at hexpired
        cases hexpired
      · -- the transaction began before the window was over
        have hstarted := hwf.started p x hopen
        rw [RefreshTokensRepository.revokedBefore, hr, Option.any_some,
          decide_eq_true_eq] at hstale
        exact absurd (lt_of_lt_of_le hstale hstarted) (Nat.not_lt_of_le hwindow)

theorem Retained.step {actor : Option Pid} {v v' : BackendView rt} {i : Nat} {r : Time}
    (hstep : ((rowVersions rt).logic (careful rt)).Step actor v v')
    (hretained : Retained i r v) : Retained i r v' := by
  intro hwindow
  have hbefore := le_trans hstep.clock_le hwindow
  obtain ⟨a, ha, hr⟩ := hretained hbefore
  cases actor with
  | none =>
      have hsame : v'.store.stored = v.store.stored := hstep.guar
      refine ⟨a, ?_, hr⟩
      unfold tokens
      rw [hsame]
      exact ha
  | some p =>
      obtain ⟨hundisputed, hrevises⟩ := hstep.guar
      rcases hrevises Tbl.refreshTokens i a ha with hsame | hreplaces
      · exact ⟨a, hsame, hr⟩
      · exact Retained.commit hstep.wf hundisputed ha hr hbefore hreplaces

theorem retention_verified (rt : Runtime) (seed : Seed) :
    ((rowVersions rt).logic (careful rt)).Verified (fun _ _ => True)
      (fun _ _ _ _ => True) (boot rt seed) :=
  Revision.verified_start (boot_wf rt seed) rfl (boot_unused rt seed)

/-- A revoked token is kept for the days of the forensic window, on every run
that commits no disputed deletion. -/
theorem forensic_retention {seed : Seed} {w₁ w₂ : BackendWorld rt}
    (hbefore : Reach (handler rt) (careful rt) (boot rt seed) w₁)
    (hafter : Reach (handler rt) (careful rt) w₁ w₂) {i : Nat} {a : RefreshToken} {r : Time}
    (ha : tokens w₁.view i = some a) (hr : a.revokedAt = some r)
    (hwindow : w₂.view.store.clock ≤ r + FORENSIC_WINDOW) :
    ∃ b, tokens w₂.view i = some b ∧ b.revokedAt = some r := by
  have hcovered : ((rowVersions rt).logic (careful rt)).Covers (handler rt)
      (fun _ _ => True) fun _ _ _ _ => True :=
    Revision.covered fun req => (handler_keeps rt req).obeys
  have hfresh (p : Pid) :
      ((rowVersions rt).logic (careful rt)).Stable p fun _ => True := Logic.Stable.const True
  obtain ⟨hverified, -⟩ := (retention_verified rt seed).reach hfresh hcovered hbefore
  obtain ⟨-, hpath⟩ := hverified.reach hfresh hcovered hafter
  have hretained : Retained i r w₂.view :=
    hpath.preserves (fun _ _ _ hstep => Retained.step hstep) fun _ => ⟨a, ha, hr⟩
  exact hretained hwindow

/-! ### A token that is lost nine days after its revocation -/

/-- No token is about to be deleted by the program that runs. -/
def deletesNothing (w : BackendWorld sampleRuntime) :
    Action (platform sampleRuntime) → Prop
  | .run p _ => ∀ j < w.view.store.next Tbl.refreshTokens,
      w.view.store.draft p Tbl.refreshTokens j ≠ some none
  | _ => True

instance (w : BackendWorld sampleRuntime) (a : Action (platform sampleRuntime)) :
    Decidable (deletesNothing w a) := by
  cases a <;> unfold deletesNothing <;> infer_instance

theorem deletesNothing_careful {w w' : BackendWorld sampleRuntime}
    {a : Action (platform sampleRuntime)} (hwf : w.view.store.Wf)
    (hnothing : deletesNothing w a) :
    (careful sampleRuntime).admits a w w' := by
  cases a with
  | run p choice =>
      intro _ hdeletes
      obtain ⟨j, hj⟩ := hdeletes
      rcases Nat.lt_or_ge j (w.view.store.next Tbl.refreshTokens) with hlt | hge
      · exact absurd hj (hnothing j hlt)
      · unfold Deletes at hj
        rw [(hwf.vacant Tbl.refreshTokens j hge).2.2 p] at hj
        cases hj
  | spawn | tick | fire => trivial

/-- The parent logs out six days after the signup. -/
def sampleLeave : List (Action (platform sampleRuntime)) :=
  sampleSignup ++ .tick (6 * MS_PER_DAY) ::
    .spawn (.logout (some "T1")) :: operations 1 5 ""

/-- The job runs after some more days. -/
def sampleCleanup (days count : Nat) : List (Action (platform sampleRuntime)) :=
  .tick (days * MS_PER_DAY) :: .spawn .cleanup :: operations 2 count ""

theorem sample_lost : ∃ w₁ w₂ : BackendWorld sampleRuntime,
    Runs sampleRuntime (boot sampleRuntime sampleSeed) w₁ ∧ Runs sampleRuntime w₁ w₂ ∧
      tokens w₁.view 0 = some { sampleToken "T1" with revokedAt := some (6 * MS_PER_DAY) } ∧
      tokens w₂.view 0 = none ∧ w₂.view.store.clock = 15 * MS_PER_DAY := by
  have hrun : ((boot sampleRuntime sampleSeed).run (handler sampleRuntime) sampleLeave).any
      (fun w₁ => (w₁.run (handler sampleRuntime) (sampleCleanup 9 8)).any fun w₂ => decide
        (tokens w₁.view 0 =
            some { sampleToken "T1" with revokedAt := some (6 * MS_PER_DAY) } ∧
          tokens w₂.view 0 = none ∧ w₂.view.store.clock = 15 * MS_PER_DAY)) = true := by
    decide
  obtain ⟨w₁, hw₁, hrest⟩ := (Option.any_eq_true _ _).mp hrun
  obtain ⟨w₂, hw₂, hfacts⟩ := (Option.any_eq_true _ _).mp hrest
  exact ⟨w₁, w₂, runs_of_run hw₁, runs_of_run hw₂, of_decide_eq_true hfacts⟩

/-- The promise is not kept: the job deletes a token revoked nine days ago. -/
theorem forensic_retention_fails : ¬ ∀ (w₁ w₂ : BackendWorld sampleRuntime) (i : Nat)
    (a : RefreshToken) (r : Time), Runs sampleRuntime (boot sampleRuntime sampleSeed) w₁ →
      Runs sampleRuntime w₁ w₂ → tokens w₁.view i = some a → a.revokedAt = some r →
      w₂.view.store.clock ≤ r + FORENSIC_WINDOW →
        ∃ b, tokens w₂.view i = some b ∧ b.revokedAt = some r := by
  intro hclaim
  obtain ⟨w₁, w₂, hfirst, hlater, hrow, hgone, hclock⟩ := sample_lost
  have hwindow : w₂.view.store.clock ≤ 6 * MS_PER_DAY + FORENSIC_WINDOW := by
    rw [hclock]
    decide
  obtain ⟨b, hb, -⟩ := hclaim w₁ w₂ 0 _ _ hfirst hlater hrow rfl hwindow
  rw [hgone] at hb
  cases hb

/-- Seven days after its revocation the token is still there. -/
theorem sample_forensic_retention : ∃ w₂ : BackendWorld sampleRuntime,
    w₂.view.store.clock = 13 * MS_PER_DAY ∧
      ∃ b, tokens w₂.view 0 = some b ∧ b.revokedAt = some (6 * MS_PER_DAY) := by
  have hrun : ((boot sampleRuntime sampleSeed).run (handler sampleRuntime) sampleLeave).any
      (fun w₁ => (w₁.run (handler sampleRuntime) (sampleCleanup 7 7)).any fun w₂ => decide
        (tokens w₁.view 0 =
            some { sampleToken "T1" with revokedAt := some (6 * MS_PER_DAY) } ∧
          w₂.view.store.clock = 13 * MS_PER_DAY ∧
          Along (fun w a => w.step (handler sampleRuntime) a) deletesNothing
            (boot sampleRuntime sampleSeed) sampleLeave ∧
          Along (fun w a => w.step (handler sampleRuntime) a) deletesNothing w₁
            (sampleCleanup 7 7))) = true := by
    decide
  obtain ⟨w₁, hw₁, hrest⟩ := (Option.any_eq_true _ _).mp hrun
  obtain ⟨w₂, hw₂, hfacts⟩ := (Option.any_eq_true _ _).mp hrest
  obtain ⟨hrow, hclock, hfirst, hlater⟩ := of_decide_eq_true hfacts
  have hbefore := World.reach_of_along (fun _ _ _ hwf hok _ => deletesNothing_careful hwf hok)
    (boot_wf sampleRuntime sampleSeed) hfirst hw₁
  have hwf : w₁.view.store.Wf :=
    ((retention_verified sampleRuntime sampleSeed).reach (fun _ => Logic.Stable.const True)
      (Revision.covered fun req => (handler_keeps sampleRuntime req).obeys) hbefore).1.wf
  have hafter := World.reach_of_along (fun _ _ _ hwf hok _ => deletesNothing_careful hwf hok)
    hwf hlater hw₂
  refine ⟨w₂, hclock, forensic_retention hbefore hafter hrow rfl ?_⟩
  rw [hclock]
  decide

end Mes
