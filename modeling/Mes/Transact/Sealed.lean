import Mes.Transact.Provenance
import Mes.Transact.Sql

/-!
Rows that no transaction changes once they are inserted. Whether a program touches such a
row may depend on what it has read: `Conducts` bounds what a program asks for, and what it
ends with, as long as the answers are ones that it can get. A request may also start
others, which have to be among those that the argument is about.

`World.Sealed` says that the sealed rows are as they were inserted, and that every row was
inserted for a request that it satisfies `Φ` for. Since `Φ` holds of every sealed row that
is read, the programs may rely on it.
-/

namespace Transact

section Conducts

variable {S : Signature} {ε α β : Type}

/-- As long as the answers are in `can`, the program asks only for operations in `ok`, and
ends with a value in `R`. -/
def Prog.Conducts (can : (op : S.Op) → S.Res op → Prop) (ok : S.Op → Prop) (R : α → Prop) :
    Prog S ε α → Prop
  | .ret a => R a
  | .throw _ => True
  | .step op k => ok op ∧ ∀ r, can op r → (k r).Conducts can ok R

variable {can : (op : S.Op) → S.Res op → Prop} {ok : S.Op → Prop} {R Q : α → Prop}

namespace Prog

theorem Uses.conducts {ok' : S.Op → Prop} {x : Prog S ε α} (hx : x.Uses ok')
    (hok : ∀ op, ok' op → ok op) : x.Conducts can ok fun _ => True := by
  induction x with
  | ret a => trivial
  | throw e => trivial
  | step op k ih => exact ⟨hok op hx.1, fun r _ => ih r (hx.2 r)⟩

theorem Conducts.andThen {x : Prog S ε α} {f : α → Prog S ε β} {Q : β → Prop}
    (hx : x.Conducts can ok R) (hf : ∀ a, R a → (f a).Conducts can ok Q) :
    (x.andThen f).Conducts can ok Q := by
  induction x with
  | ret a => exact hf a hx
  | throw e => trivial
  | step op k ih => exact ⟨hx.1, fun r hr => ih r (hx.2 r hr)⟩

theorem Conducts.attempt {x : Prog S ε α} {handler : ε → Prog S ε α}
    (hx : x.Conducts can ok R) (hhandler : ∀ e, (handler e).Conducts can ok R) :
    (x.attempt handler).Conducts can ok R := by
  induction x with
  | ret a => exact hx
  | throw e => exact hhandler e
  | step op k ih => exact ⟨hx.1, fun r hr => ih r (hx.2 r hr)⟩

theorem Conducts.post {x : Prog S ε α} (hx : x.Conducts can ok R) (hpost : ∀ a, R a → Q a) :
    x.Conducts can ok Q := by
  induction x with
  | ret a => exact hpost a hx
  | throw e => trivial
  | step op k ih => exact ⟨hx.1, fun r hr => ih r (hx.2 r hr)⟩

end Prog

end Conducts

variable {σ : Schema} {P : Platform} {body : P.Req → Code σ P P.Ans} {sc : Scope σ P}

/-! ### The store -/

/-- The sealed rows are as they were inserted, committed or not. -/
structure Store.Sealed (kept : (t : σ.Tbl) → Nat → Prop) (s : Store σ) : Prop where
  rows : ∀ t i r, s.stored t i = some r → kept t i → ∃ q, s.born t i = some (q, r)
  drafts : ∀ p t i x, s.draft p t i = some x → kept t i →
    ∃ r, x = some r ∧ s.born t i = some (p, r)

/-- Where the versions of the acting program come from. -/
theorem Store.exec_draft {s s' : Store σ} (hwf : s.Wf) {p : Pid} {stmt : Stmt σ}
    {res : stmt.Res} (hexec : s.exec p stmt = some (res, s')) {t : σ.Tbl} {i : Nat}
    {x : Option (σ.Row t)} (hdraft : s'.draft p t i = some x) :
    s.draft p t i = some x ∨ (∃ where_ set, stmt = .touch t i where_ set) ∨
      ∃ r, x = some r ∧ s'.born t i = some (p, r) := by
  have hended (keep : Bool) (hfinish : s' = s.finish p keep) : s.draft p t i = some x := by
    subst hfinish
    rw [Store.finish_draft_self] at hdraft
    cases hdraft
  cases stmt with
  | begin =>
      obtain ⟨-, rfl⟩ := Store.begin_cases hexec
      exact Or.inl hdraft
  | commit =>
      obtain ⟨-, -, -, hfinish⟩ := Store.commit_cases hexec
      exact Or.inl (hended _ hfinish)
  | rollback => exact Or.inl (hended _ (Store.rollback_cases hexec))
  | read conn =>
      rw [(Store.read_cases hexec).1] at hdraft
      exact Or.inl hdraft
  | touch t' id where_ set =>
      obtain ⟨y, -, hcases⟩ := Store.touch_cases hexec
      rcases hcases with ⟨-, -, rfl⟩ | ⟨-, -, ⟨-, rfl, -⟩ | ⟨r, -, -, -, rfl⟩⟩
      · exact Or.inl hdraft
      · exact Or.inl hdraft
      · rw [Store.hold_draft_self] at hdraft
        rcases eq_or_ne t t' with rfl | htable
        · rw [Drafts.set_apply] at hdraft
          split at hdraft
          · rename_i hrow
            subst hrow
            exact Or.inr (Or.inl ⟨where_, set, rfl⟩)
          · exact Or.inl hdraft
        · rw [Drafts.set_other _ _ _ htable] at hdraft
          exact Or.inl hdraft
  | insert t' row =>
      obtain ⟨y, -, hcases⟩ := Store.insert_cases hexec
      rcases hcases with ⟨-, -, rfl⟩ | ⟨-, ⟨e, -, -, rfl⟩ | ⟨-, -, rfl⟩⟩
      · exact Or.inl hdraft
      · exact Or.inl hdraft
      · rw [Store.push_draft_self] at hdraft
        rcases eq_or_ne t t' with rfl | htable
        · rw [Drafts.set_apply] at hdraft
          split at hdraft
          · rename_i hrow
            obtain rfl := Option.some.inj hdraft
            refine Or.inr (Or.inr ⟨_, rfl, ?_⟩)
            rw [Store.push_born_self, if_pos hrow]
          · exact Or.inl hdraft
        · rw [Drafts.set_other _ _ _ htable] at hdraft
          exact Or.inl hdraft

theorem Store.Sealed.exec {kept : (t : σ.Tbl) → Nat → Prop} {s s' : Store σ} (hwf : s.Wf)
    (hsealed : s.Sealed kept) {p : Pid} {stmt : Stmt σ} {res : stmt.Res}
    (hspares : ∀ t i where_ set, stmt = .touch t i where_ set → ¬ kept t i)
    (hexec : s.exec p stmt = some (res, s')) : s'.Sealed kept := by
  have hacts := Store.exec_acts hwf hexec
  constructor
  · intro t i r hstored hkept
    rcases hacts.stored t i with hsame | hdraft
    · rw [hsame] at hstored
      obtain ⟨q, hborn⟩ := hsealed.rows t i r hstored hkept
      exact ⟨q, hacts.bornKept t i _ hborn⟩
    · rw [hstored] at hdraft
      obtain ⟨r', hsome, hborn⟩ := hsealed.drafts p t i _ hdraft hkept
      rw [Option.some.inj hsome]
      exact ⟨p, hacts.bornKept t i _ hborn⟩
  · intro q t i x hdraft hkept
    have hold (hbefore : s.draft q t i = some x) :
        ∃ r, x = some r ∧ s'.born t i = some (q, r) := by
      obtain ⟨r, hx, hborn⟩ := hsealed.drafts q t i x hbefore hkept
      exact ⟨r, hx, hacts.bornKept t i _ hborn⟩
    rcases eq_or_ne q p with rfl | hother
    · rcases Store.exec_draft hwf hexec hdraft with hbefore | ⟨where_, set, hstmt⟩ | hinserted
      · exact hold hbefore
      · exact absurd hkept (hspares t i where_ set hstmt)
      · exact hinserted
    · rw [hacts.draftOther q hother] at hdraft
      exact hold hdraft

/-! ### The world -/

variable (kept : (t : σ.Tbl) → Nat → Prop) (Φ : P.Req → (t : σ.Tbl) → σ.Row t → Prop)
  (starts : P.Req → Prop)

/-- The answers that a program can get: the sealed rows that are read satisfy `Φ`. -/
def Tells : (c : Call σ P) → c.Res → Prop
  | .sql (.read _), res => ∀ s, res = .ok s → ∀ t i r, (i, r) ∈ s.rows t → kept t i →
      ∃ req, Φ req t r
  | .node op, res => ∃ p now choice m m', P.exec p now op choice m = some (res, m')
  | _, _ => True

/-- An operation that leaves the sealed rows alone, inserts what the request may, and
starts what may be started. -/
def Seals (req : P.Req) : Call σ P → Prop
  | .sql (.touch t i _ _) => ¬ kept t i
  | .sql (.insert t row) => ∀ now, Φ req t (row now)
  | .fork req' => starts req'
  | _ => True

structure World.Sealed (w : World σ P) : Prop where
  wf : w.view.store.Wf
  progs : w.Each fun req x => starts req ∧
    x.Conducts (Tells kept Φ) (Seals kept Φ starts req) fun _ => True
  store : w.view.store.Sealed kept
  signed : ∀ t i q r, w.view.store.born t i = some (q, r) →
    ∃ proc, w.procs[q]? = some proc ∧ Φ proc.req t r

variable {kept Φ starts}

/-- A sealed row that is read was inserted for some request. -/
theorem World.Sealed.tells {w : World σ P} (hsealed : w.Sealed kept Φ starts) {p : Pid}
    {choice : P.Choice} {c : Call σ P} {res : c.Res} {v' : View σ P}
    (hexec : w.view.exec p choice c = some (res, v')) : Tells kept Φ c res := by
  have hsigned {t : σ.Tbl} {i : Nat} {q : Pid} {r : σ.Row t}
      (hborn : w.view.store.born t i = some (q, r)) : ∃ req, Φ req t r := by
    obtain ⟨proc, -, hrow⟩ := hsealed.signed t i q r hborn
    exact ⟨proc.req, hrow⟩
  cases c with
  | node op => exact ⟨p, _, _, _, _, (View.exec_node hexec).1⟩
  | fork req => trivial
  | sql stmt =>
      cases stmt with
      | begin | commit | rollback | touch | insert => trivial
      | read conn =>
          intro s hs t i r hmem hkept
          have hget := (Snapshot.mem_rows.mp hmem).2
          have hread := (Store.read_cases (View.exec_sql hexec).1).2
          cases conn with
          | pool =>
              obtain rfl := Except.ok.inj (hread.symm.trans hs)
              obtain ⟨q, hborn⟩ := hsealed.store.rows t i r hget hkept
              exact hsigned hborn
          | manager =>
              obtain ⟨x, -, ⟨-, hfails⟩ | ⟨-, hreads⟩⟩ := hread
              · cases hfails.symm.trans hs
              · obtain rfl := Except.ok.inj (hreads.symm.trans hs)
                have hseen : (w.view.store.draft p t i).getD (w.view.store.stored t i) =
                    some r := hget
                cases hdraft : w.view.store.draft p t i with
                | none =>
                    rw [hdraft, Option.getD_none] at hseen
                    obtain ⟨q, hborn⟩ := hsealed.store.rows t i r hseen hkept
                    exact hsigned hborn
                | some y =>
                    rw [hdraft, Option.getD_some] at hseen
                    obtain ⟨r', hr', hborn⟩ := hsealed.store.drafts p t i y hdraft hkept
                    obtain rfl := Option.some.inj (hr'.symm.trans hseen)
                    exact hsigned hborn

section Rules

variable {α : Type} {req : P.Req} {R : α → Prop}

theorem conducts_answer (r : Except SqlError α) : (Sql.answer r : Code σ P α).Conducts
    (Tells kept Φ) (Seals kept Φ starts req) fun a => r = .ok a := by
  cases r with
  | ok a => rfl
  | error e => trivial

theorem conducts_read (conn : Conn) : (Sql.read conn : Code σ P _).Conducts
    (Tells kept Φ) (Seals kept Φ starts req) fun s =>
      ∀ t i r, (i, r) ∈ s.rows t → kept t i → ∃ req, Φ req t r :=
  ⟨trivial, fun r hr => (conducts_answer r).post fun s hs => hr s hs⟩

theorem conducts_insert (t : σ.Tbl) {row : Time → σ.Row t} (hrow : ∀ now, Φ req t (row now)) :
    (Sql.insert t row : Code σ P _).Conducts (Tells kept Φ) (Seals kept Φ starts req)
      fun _ => True :=
  ⟨hrow, fun r _ => (conducts_answer r).post fun _ _ => trivial⟩

theorem conducts_touchEach (t : σ.Tbl) (where_ : Time → σ.Row t → Bool)
    (set : Time → Change σ t) (found : List (Nat × σ.Row t)) (ids : List Nat)
    (hspares : ∀ i ∈ ids, ¬ kept t i) : (Sql.touchEach t where_ set found ids :
      Code σ P _).Conducts (Tells kept Φ) (Seals kept Φ starts req) fun _ => True := by
  induction ids generalizing found with
  | nil => trivial
  | cons i rest ih =>
      refine Prog.Conducts.andThen (R := fun _ => True) ⟨hspares i List.mem_cons_self, ?_⟩
        fun row _ => ih _ fun j hj => hspares j (List.mem_cons_of_mem _ hj)
      exact fun r _ => (conducts_answer r).post fun _ _ => trivial

theorem conducts_transaction {x : Code σ P α}
    (hx : x.Conducts (Tells kept Φ) (Seals kept Φ starts req) R) :
    (Sql.transaction x).Conducts (Tells kept Φ) (Seals kept Φ starts req) R := by
  refine ⟨trivial, fun _ _ => Prog.Conducts.attempt (Prog.Conducts.andThen hx fun a ha => ?_)
    fun e => ?_⟩
  · exact ⟨trivial, fun _ _ => ha⟩
  · exact ⟨trivial, fun _ _ => trivial⟩

end Rules

variable (hbody : ∀ req, starts req →
  (body req).Conducts (Tells kept Φ) (Seals kept Φ starts req) fun _ => True)
include hbody

theorem World.Sealed.step {w w' : World σ P} {a : Action P} (hsealed : w.Sealed kept Φ starts)
    (hspawn : ∀ req, a = .spawn req → starts req) (hstep : w.step body a = some w') :
    w'.Sealed kept Φ starts := by
  refine
    { wf := World.step_wf hsealed.wf hstep
      progs := hsealed.progs.step hstep
        (fun req hreq => ⟨hspawn req hreq, hbody req (hspawn req hreq)⟩) ?_
      store := ?_
      signed := ?_ }
  · intro p choice req c k r v' hactor hexec hconducts
    refine ⟨⟨hconducts.1, hconducts.2.2 r (hsealed.tells hexec)⟩, ?_⟩
    rintro req' rfl
    exact ⟨hconducts.2.1, hbody req' hconducts.2.1⟩
  · cases a with
    | spawn req =>
        rw [← Option.some.inj hstep]
        exact hsealed.store
    | tick n =>
        rw [← Option.some.inj hstep]
        exact ⟨hsealed.store.rows, hsealed.store.drafts⟩
    | fire timer =>
        simp only [World.step, Option.map_eq_some_iff] at hstep
        obtain ⟨mem, -, rfl⟩ := hstep
        exact hsealed.store
    | run p choice =>
        simp only [World.step, World.runProc] at hstep
        split at hstep
        · rename_i req c k hactor
          obtain ⟨out, hexec, rfl⟩ := Option.map_eq_some_iff.mp hstep
          have hseals := (hsealed.progs p _ hactor).2.1
          cases c with
          | sql stmt =>
              refine hsealed.store.exec hsealed.wf ?_ (View.exec_sql hexec).1
              rintro t i where_ set rfl
              exact hseals
          | node op =>
              show out.2.store.Sealed kept
              rw [(View.exec_node hexec).2.1]
              exact hsealed.store
          | fork req' =>
              show out.2.store.Sealed kept
              rw [(View.exec_fork hexec).1]
              exact hsealed.store
        · cases hstep
  · intro t i q r hborn
    rcases World.step_born hstep hborn with hbefore | ⟨-, req, row, k, hactor, now, rfl⟩
    · obtain ⟨proc, hproc, hrow⟩ := hsealed.signed t i q r hbefore
      obtain ⟨proc', hproc', hreq, -⟩ := World.step_kept body hstep hproc
      exact ⟨proc', hproc', hreq ▸ hrow⟩
    · obtain ⟨proc', hproc', hreq, -⟩ := World.step_kept body hstep hactor
      exact ⟨proc', hproc', hreq ▸ (hsealed.progs q _ hactor).2.1 now⟩

theorem World.Sealed.reach {w w' : World σ P} (hspawns : ∀ req, sc.spawn req → starts req)
    (hsealed : w.Sealed kept Φ starts) (hreach : Reach body sc w w') :
    w'.Sealed kept Φ starts := by
  induction hreach with
  | refl => exact hsealed
  | tail _ hmoves ih =>
      obtain ⟨a, hstep, hadmits⟩ := hmoves
      refine ih.step hbody ?_ hstep
      rintro req rfl
      exact hspawns req hadmits

end Transact
