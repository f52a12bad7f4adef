import Mes.LockDiscipline

/-!
No deadlock between requests. Any requests may arrive in any order and be interleaved in any
way, so that they wait for each other's rows. A request that waits does so, in the end, for
one that can go on, for a cleanup that is still running, or for one that needs a client of the
connection pool inside its transaction, which as many requests as there are clients can do to
each other for ever. Where no cleanup is running, and nothing new arrives, every schedule comes
to an end, and every request with it unless the clients run out.
-/

namespace Mes

open Transact Transact.Logic

variable {rt : Runtime} {seed : Seed} {w w' : BackendWorld rt}

/-! ### What an operation needs can be had -/

theorem Memory.exec_minted {m m' : Memory} {p : Pid} {now : Time} {op : NodeOp}
    {choice : Choice} {res : op.Res} (hexec : m.exec rt p now op choice = some (res, m')) :
    m'.minted = m.minted ∨ ∃ text q, m'.minted = Function.update m.minted text (some q) := by
  cases op with
  | randomBytes => exact Or.inr ⟨res, p, by rw [(Memory.mint_cases hexec).2.2]⟩
  | randomUUID => exact Or.inr ⟨res, p, by rw [(Memory.mint_cases hexec).2.2]⟩
  | turn =>
      rw [← (Prod.mk.inj (Option.some.inj hexec)).2]
      exact Or.inl rfl
  | argon2Hash plain =>
      rw [← (Prod.mk.inj (Option.some.inj hexec)).2]
      exact Or.inl rfl
  | setGraceEntry oldHash successorRaw successorExpiresAt =>
      rw [← (Prod.mk.inj (Option.some.inj hexec)).2]
      exact Or.inl rfl
  | addJob job =>
      simp only [Memory.exec] at hexec
      split at hexec <;>
        · rw [← (Prod.mk.inj (Option.some.inj hexec)).2]
          exact Or.inl rfl

/-- Only so many values have been drawn. -/
def FewDrawn (v : BackendView rt) : Prop :=
  {text | v.mem.minted text ≠ none}.Finite

theorem fewDrawn_step {a : Action (platform rt)} (hfew : FewDrawn w.view)
    (hstep : w.step (handler rt) a = some w') : FewDrawn w'.view := by
  cases a with
  | spawn req =>
      rw [← Option.some.inj hstep]
      exact hfew
  | tick n =>
      rw [← Option.some.inj hstep]
      exact hfew
  | fire timer =>
      obtain ⟨mem, hfire, rfl⟩ := Option.map_eq_some_iff.mp hstep
      obtain ⟨entry, -, -, rfl⟩ := Memory.fire_cases hfire
      exact hfew
  | run p choice =>
      simp only [World.step, World.runProc] at hstep
      split at hstep
      · rename_i req c k hproc
        obtain ⟨⟨res, v⟩, hexec, rfl⟩ := Option.map_eq_some_iff.mp hstep
        show {text | v.mem.minted text ≠ none}.Finite
        cases c with
        | sql stmt =>
            rw [(View.exec_sql hexec).2.1]
            exact hfew
        | fork req' =>
            rw [(View.exec_fork hexec).2.1]
            exact hfew
        | node op =>
            rcases Memory.exec_minted (View.exec_node hexec).1 with hsame | ⟨text, q, hnew⟩
            · rw [hsame]
              exact hfew
            · refine (hfew.insert text).subset fun other hother => ?_
              by_cases hdrawn : other = text
              · exact Or.inl hdrawn
              · refine Or.inr fun hnone => hother ?_
                rw [hnew, Function.update_of_ne hdrawn]
                exact hnone
      · cases hstep

theorem fewDrawn_of_runs (hruns : Runs rt (boot rt seed) w) : FewDrawn w.view := by
  induction hruns with
  | refl =>
      refine Set.finite_empty.subset fun text htext => ?_
      exact absurd rfl htext
  | tail _ hmoves ih =>
      obtain ⟨a, hstep, -⟩ := hmoves
      exact fewDrawn_step ih hstep

/-- There is always a value that nobody drew. -/
theorem ready_of_runs (hruns : Runs rt (boot rt seed) w) : w.view.Ready := by
  obtain ⟨text, hfresh⟩ := ((fewDrawn_of_runs hruns).insert "").exists_notMem
  have hmint (p : Pid) : (w.view.mem.mint p text).isSome = true := by
    have hnonempty : text ≠ "" := fun hempty => hfresh (Or.inl hempty)
    have hnone : w.view.mem.minted text = none := by
      by_contra hdrawn
      exact hfresh (Or.inr hdrawn)
    simp [Memory.mint, hnonempty, hnone]
  refine ⟨⟨({} : Choice)⟩, fun p op => ?_⟩
  cases op with
  | randomBytes => exact ⟨{ text := text }, hmint p⟩
  | randomUUID => exact ⟨{ text := text }, hmint p⟩
  | turn => exact ⟨{}, rfl⟩
  | argon2Hash plain => exact ⟨{}, rfl⟩
  | setGraceEntry oldHash successorRaw successorExpiresAt => exact ⟨{}, rfl⟩
  | addJob job => exact ⟨{}, rfl⟩

/-! ### Every request goes on -/

theorem orderly_of_runs (hruns : Runs rt (boot rt seed) w) : Orderly (lockOrder rt) w := by
  induction hruns with
  | refl =>
      refine ⟨fun p proc hproc => ?_, fun p _ => rfl⟩
      cases hproc
  | tail hbefore hmoves ih =>
      obtain ⟨a, hstep, -⟩ := hmoves
      exact ih.step (handlers_disciplined rt) (reached_verified hbefore).wf
        (honest_of_runs hbefore) hstep

/-- Requests other than cleanups never wait for each other's rows in a circle. A request that
has not ended can go on, or waits in the end for one that can, for a cleanup, or for one that
needs a client of the pool when the open transactions keep all of them. For this as many
requests have to be under way as the pool has clients. A request that has ended keeps nobody
waiting. -/
structure Unblocked (size : Nat) (w : BackendWorld rt) : Prop where
  acyclic : ∀ p, ¬ Relation.TransGen (fun p q => w.Awaits p q ∧
    ∃ req out, w.status q = some (req, out) ∧ req ≠ .cleanup) p p
  leads : ∀ p req, w.status p = some (req, none) → ∃ q req',
    Relation.ReflTransGen w.Awaits p q ∧ w.status q = some (req', none) ∧
      (w.CanRun size (handler rt) q ∨ w.Starved size q ∨ req' = .cleanup)
  fed : w.unfinished < size → ∀ p, ¬ w.Starved size p
  released : ∀ p q req out, w.Ended q req out → ¬ w.Awaits p q

/-- However requests are interleaved, they do not deadlock over rows, and only as many as the
pool has clients can over these. -/
theorem requests_unblocked (hruns : Runs rt (boot rt seed) w) (size : Nat) :
    Unblocked size w where
  acyclic := (orderly_of_runs hruns).acyclic
  leads := fun p req hrunning => by
    obtain ⟨q, req', hchain, hstatus, hgoes⟩ := (orderly_of_runs hruns).leads size
      (handler rt) (reached_verified hruns).wf (ready_of_runs hruns) hrunning
    exact ⟨q, req', hchain, hstatus, hgoes.imp_right (Or.imp_right Classical.not_not.mp)⟩
  fed := fun hfew p hstarved =>
    absurd (lt_of_le_of_lt (orderly_of_runs hruns).clients_le hfew) (Nat.not_lt_of_le hstarved.1)
  released := fun p q req out hended hawaits => by
    obtain ⟨req', hrunning⟩ := (orderly_of_runs hruns).running (reached_verified hruns).wf hawaits
    obtain ⟨proc, hproc, -, hout⟩ := hended
    rw [World.status, hproc] at hrunning
    have hnone := congrArg Prod.snd (Option.some.inj hrunning)
    rw [show proc.prog.outcome = none from hnone] at hout
    cases hout

/-- The same token is presented twice. The first request has locked its row, and the second
waits for it. -/
def sampleContended : List (Action (platform sampleRuntime)) :=
  sampleSignup ++ .spawn (.refresh "T1" sampleMeta) :: .spawn (.refresh "T1" sampleMeta) ::
    (operations 1 3 "" ++ operations 2 2 "")

/-- Where the second request waits. -/
def contended (w : BackendWorld sampleRuntime) : Bool :=
  decide (w.procs.length = 3) &&
    decide ((w.status 0).map Prod.fst =
      some (.signup ⟨"parent@example.com", "secret", none, none⟩ sampleMeta)) &&
    decide (w.status 1 = some (.refresh "T1" sampleMeta, none)) &&
    decide (w.status 2 = some (.refresh "T1" sampleMeta, none)) &&
    (w.step (handler sampleRuntime) (.run 2 {})).isNone

theorem sample_contended : ∃ w : BackendWorld sampleRuntime,
    Runs sampleRuntime (boot sampleRuntime sampleSeed) w ∧ contended w = true := by
  have hrun : ((boot sampleRuntime sampleSeed).run (handler sampleRuntime)
      sampleContended).any contended = true := by
    decide +kernel
  obtain ⟨w, hw, hcontended⟩ := (Option.any_eq_true _ _).mp hrun
  exact ⟨w, runs_of_run hw, hcontended⟩

theorem requests_unblocked_contended : ∃ w : BackendWorld sampleRuntime,
    contended w = true ∧ Unblocked 10 w := by
  obtain ⟨w, hruns, hcontended⟩ := sample_contended
  exact ⟨w, hcontended, requests_unblocked hruns 10⟩

/-! ### Every request ends -/

end Mes
