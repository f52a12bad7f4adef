import Mes.Transact.Rely

/-!
What the programs of a world have in common with their requests. `Each I` says that
every program satisfies `I` for the request that started it; a property that survives
each answer of the environment holds of all programs at all times.

From it follows where rows come from. If the program of a request inserts only rows
that satisfy `Φ` for the request, then every row was inserted for some request that it
satisfies `Φ` for.
-/

namespace Transact

variable {σ : Schema} {P : Platform} {body : P.Req → Code σ P P.Ans} {sc : Scope σ P}

/-- Every program satisfies `I` for its own request. -/
def World.Each (I : P.Req → Code σ P P.Ans → Prop) (w : World σ P) : Prop :=
  ∀ (p : Pid) proc, w.procs[p]? = some proc → I proc.req proc.prog

/-- Steps keep what the answers of the environment keep. -/
theorem World.Each.step {I : P.Req → Code σ P P.Ans → Prop} {w w' : World σ P}
    {a : Action P} (heach : w.Each I) (hstep : w.step body a = some w')
    (hspawn : ∀ req, a = .spawn req → I req (body req))
    (hrun : ∀ p choice req c k r v', w.procs[p]? = some { req := req, prog := .step c k } →
      w.view.exec p choice c = some (r, v') → I req (.step c k) →
        I req (k r) ∧ ∀ req', c = .fork req' → I req' (body req')) : w'.Each I := by
  intro p proc hproc
  cases a with
  | spawn req =>
      rw [← Option.some.inj hstep] at hproc
      rcases List.mem_append.mp (List.mem_of_getElem? hproc) with hold | hnew
      · obtain ⟨q, hq⟩ := List.mem_iff_getElem?.mp hold
        exact heach q proc hq
      · rw [List.mem_singleton.mp hnew]
        exact hspawn req rfl
  | run q choice =>
      simp only [World.step, World.runProc] at hstep
      split at hstep
      · rename_i req c k hactor
        obtain ⟨out, hexec, rfl⟩ := Option.map_eq_some_iff.mp hstep
        obtain ⟨hnext, hfork⟩ := hrun q choice req c k out.1 out.2 hactor hexec (heach q _ hactor)
        rcases List.mem_append.mp (List.mem_of_getElem? hproc) with hold | hnew
        · rcases List.mem_or_eq_of_mem_set hold with hold | rfl
          · obtain ⟨q', hq'⟩ := List.mem_iff_getElem?.mp hold
            exact heach q' proc hq'
          · exact hnext
        · cases c with
          | fork req' =>
              rw [List.mem_singleton.mp hnew]
              exact hfork req' rfl
          | sql | node => cases hnew
      · cases hstep
  | tick n =>
      rw [← Option.some.inj hstep] at hproc
      exact heach p proc hproc
  | fire timer =>
      obtain ⟨mem, -, rfl⟩ := Option.map_eq_some_iff.mp hstep
      exact heach p proc hproc

theorem World.Each.reach {I : P.Req → Code σ P P.Ans → Prop} (hbody : ∀ req, I req (body req))
    (hnext : ∀ req c k, I req (.step c k) → ∀ r, I req (k r)) {w w' : World σ P}
    (heach : w.Each I) (hreach : Reach body sc w w') : w'.Each I := by
  induction hreach with
  | refl => exact heach
  | tail _ hmoves ih =>
      obtain ⟨a, hstep, -⟩ := hmoves
      exact ih.step hstep (fun req _ => hbody req)
        fun p choice req c k r v' _ _ hhere => ⟨hnext req c k hhere r, fun req' _ => hbody req'⟩

section Signed

variable (Φ : P.Req → (t : σ.Tbl) → σ.Row t → Prop)

/-- An operation that inserts only such rows. -/
def Signs (req : P.Req) : Call σ P → Prop
  | .sql (.insert t row) => ∀ now, Φ req t (row now)
  | _ => True

/-- Every row was inserted for a request that it satisfies `Φ` for. -/
structure World.Signed (w : World σ P) : Prop where
  wf : w.view.store.Wf
  progs : w.Each fun req x => x.Uses (Signs Φ req)
  rows : ∀ t i q r, w.view.store.born t i = some (q, r) →
    ∃ proc, w.procs[q]? = some proc ∧ Φ proc.req t r

variable {Φ}

/-- A statement records the row that it inserts. -/
theorem Store.exec_born {s s' : Store σ} {p : Pid} {stmt : Stmt σ} {res : stmt.Res}
    (hexec : s.exec p stmt = some (res, s')) {t : σ.Tbl} {i : Nat} {q : Pid} {r : σ.Row t}
    (hborn : s'.born t i = some (q, r)) :
    s.born t i = some (q, r) ∨ q = p ∧ i = s.next t ∧
      ∃ row : Time → σ.Row t, stmt = .insert t row ∧ ∃ now, r = row now := by
  cases stmt with
  | begin =>
      obtain ⟨-, rfl⟩ := Store.begin_cases hexec
      exact Or.inl hborn
  | commit =>
      obtain ⟨x, -, -, rfl⟩ := Store.commit_cases hexec
      exact Or.inl hborn
  | rollback =>
      rw [Store.rollback_cases hexec] at hborn
      exact Or.inl hborn
  | read conn =>
      rw [(Store.read_cases hexec).1] at hborn
      exact Or.inl hborn
  | touch t' id where_ set =>
      obtain ⟨x, -, hcases⟩ := Store.touch_cases hexec
      rcases hcases with ⟨-, -, rfl⟩ | ⟨-, -, ⟨-, rfl, -⟩ | ⟨r', -, -, -, rfl⟩⟩
      · exact Or.inl hborn
      · exact Or.inl hborn
      · rw [Store.hold_born] at hborn
        exact Or.inl hborn
  | insert t' row =>
      obtain ⟨x, -, hcases⟩ := Store.insert_cases hexec
      rcases hcases with ⟨-, -, rfl⟩ | ⟨-, ⟨e, -, -, rfl⟩ | ⟨-, -, rfl⟩⟩
      · exact Or.inl hborn
      · exact Or.inl hborn
      · rcases eq_or_ne t t' with rfl | htable
        · rw [Store.push_born_self] at hborn
          split at hborn
          · rename_i hplace
            obtain ⟨rfl, rfl⟩ := Prod.mk.inj (Option.some.inj hborn)
            exact Or.inr ⟨rfl, hplace, row, rfl, x.startedAt, rfl⟩
          · exact Or.inl hborn
        · rw [Store.push_born_other s p t' _ htable] at hborn
          exact Or.inl hborn

/-- A row that a step records is one that its program inserts. -/
theorem World.step_born {w w' : World σ P} {a : Action P} (hstep : w.step body a = some w')
    {t : σ.Tbl} {i : Nat} {q : Pid} {r : σ.Row t}
    (hborn : w'.view.store.born t i = some (q, r)) :
    w.view.store.born t i = some (q, r) ∨ i = w.view.store.next t ∧
      ∃ req row k, w.procs[q]? =
        some { req := req, prog := .step (.sql (.insert t row)) k } ∧ ∃ now, r = row now := by
  cases a with
  | spawn req =>
      rw [← Option.some.inj hstep] at hborn
      exact Or.inl hborn
  | tick n =>
      rw [← Option.some.inj hstep] at hborn
      exact Or.inl hborn
  | fire timer =>
      simp only [World.step, Option.map_eq_some_iff] at hstep
      obtain ⟨mem, -, rfl⟩ := hstep
      exact Or.inl hborn
  | run p choice =>
      simp only [World.step, World.runProc] at hstep
      split at hstep
      · rename_i req c k hactor
        obtain ⟨out, hexec, rfl⟩ := Option.map_eq_some_iff.mp hstep
        cases c with
        | sql stmt =>
            rcases Store.exec_born (View.exec_sql hexec).1 hborn with
              hbefore | ⟨rfl, hplace, row, rfl, now, rfl⟩
            · exact Or.inl hbefore
            · exact Or.inr ⟨hplace, req, row, k, hactor, now, rfl⟩
        | node op =>
            rw [(View.exec_node hexec).2.1] at hborn
            exact Or.inl hborn
        | fork req' =>
            rw [(View.exec_fork hexec).1] at hborn
            exact Or.inl hborn
      · cases hstep

/-- The numbers below `n` were given out before the run. -/
theorem Reach.born_after {w w' : World σ P} {t : σ.Tbl} {n : Nat} (hwf : w.view.store.Wf)
    (hnext : n ≤ w.view.store.next t)
    (hborn : ∀ i b, w.view.store.born t i = some b → n ≤ i) (hreach : Reach body sc w w') :
    w'.view.store.Wf ∧ n ≤ w'.view.store.next t ∧
      ∀ i b, w'.view.store.born t i = some b → n ≤ i := by
  induction hreach with
  | refl => exact ⟨hwf, hnext, hborn⟩
  | tail _ hmoves ih =>
      obtain ⟨a, hstep, -⟩ := hmoves
      obtain ⟨hwf, hnext, hborn⟩ := ih
      refine ⟨World.step_wf hwf hstep, ?_, fun i b hb => ?_⟩
      · cases a with
        | spawn req =>
            rw [← Option.some.inj hstep]
            exact hnext
        | tick n =>
            rw [← Option.some.inj hstep]
            exact hnext
        | fire timer =>
            obtain ⟨mem, -, rfl⟩ := Option.map_eq_some_iff.mp hstep
            exact hnext
        | run p choice =>
            obtain ⟨e, hacts⟩ := World.run_acts hwf hstep
            exact le_trans hnext (hacts.store.next t)
      · obtain ⟨q, r⟩ := b
        rcases World.step_born hstep hb with hbefore | ⟨rfl, -⟩
        · exact hborn i _ hbefore
        · exact hnext

theorem World.Signed.step (hbody : ∀ req, (body req).Uses (Signs Φ req)) {w w' : World σ P}
    {a : Action P} (hsigned : w.Signed Φ) (hstep : w.step body a = some w') : w'.Signed Φ := by
  refine ⟨World.step_wf hsigned.wf hstep,
    hsigned.progs.step hstep (fun req _ => hbody req)
      fun p choice req c k r v' _ _ huses => ⟨huses.2 r, fun req' _ => hbody req'⟩, ?_⟩
  intro t i q r hborn
  rcases World.step_born hstep hborn with hbefore | ⟨-, req, row, k, hactor, now, rfl⟩
  · obtain ⟨proc, hproc, hrow⟩ := hsigned.rows t i q r hbefore
    obtain ⟨proc', hproc', hreq, -⟩ := World.step_kept body hstep hproc
    exact ⟨proc', hproc', hreq ▸ hrow⟩
  · obtain ⟨proc', hproc', hreq, -⟩ := World.step_kept body hstep hactor
    have hsigns := (hsigned.progs q _ hactor).1 now
    exact ⟨proc', hproc', hreq ▸ hsigns⟩

theorem World.Signed.reach (hbody : ∀ req, (body req).Uses (Signs Φ req)) {w w' : World σ P}
    (hsigned : w.Signed Φ) (hreach : Reach body sc w w') : w'.Signed Φ := by
  induction hreach with
  | refl => exact hsigned
  | tail _ hmoves ih =>
      obtain ⟨a, hstep, -⟩ := hmoves
      exact ih.step hbody hstep

end Signed

end Transact
