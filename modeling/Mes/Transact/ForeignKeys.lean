import Mes.Transact.Frame

/-!
Foreign keys. An insert checks that the rows it refers to are visible to its program, and
a program sees its own uncommitted rows. Where the rows of a table are never deleted, that
check is enough for good: `Anchored` says that every row, committed or not, refers only to
rows that its readers see. `Spares` is what this asks of a change.
-/

namespace Transact

variable {σ : Schema}

namespace Store

/-- What holds of a store after a statement: the statement begins, dooms or ends a
transaction, locks a row, or adds one. -/
theorem exec_rule {I : Store σ → Prop} {s s' : Store σ} {p : Pid} {stmt : Stmt σ}
    {res : stmt.Res} (hexec : s.exec p stmt = some (res, s')) (hself : I s)
    (hbegin : s.tx p = none → I (s.setTx p (some { startedAt := s.clock, aborted := false })))
    (hdoom : ∀ y, s.tx p = some y → I (s.setTx p (some { y with aborted := true })))
    (hhold : ∀ t i where_ set y r, stmt = .touch t i where_ set → s.tx p = some y →
      ((s.table t).cell i).lockedAgainst p = false → s.seen p t i = some r →
      where_ y.startedAt r = true → I (s.hold p t i ((set y.startedAt).apply r)))
    (hpush : ∀ t row y, stmt = .insert t row → s.tx p = some y →
      s.Accepts p t (row y.startedAt) → I (s.push p t (row y.startedAt)))
    (hfinish : ∀ keep, I (s.finish p keep)) : I s' := by
  cases stmt with
  | begin =>
      obtain ⟨hnone, rfl⟩ := begin_cases hexec
      exact hbegin hnone
  | commit =>
      obtain ⟨x, -, -, rfl⟩ := commit_cases hexec
      exact hfinish _
  | rollback =>
      rw [rollback_cases hexec]
      exact hfinish false
  | read conn =>
      rw [(read_cases hexec).1]
      exact hself
  | touch t i where_ set =>
      obtain ⟨y, hopen, hcases⟩ := touch_cases hexec
      rcases hcases with ⟨-, -, rfl⟩ | ⟨-, hfree, ⟨-, rfl, -⟩ | ⟨r, hseen, hwhere, -, rfl⟩⟩
      · exact hself
      · exact hself
      · exact hhold t i where_ set y r rfl hopen hfree hseen hwhere
  | insert t row =>
      obtain ⟨y, hopen, hcases⟩ := insert_cases hexec
      rcases hcases with ⟨-, -, rfl⟩ | ⟨-, ⟨e, -, -, rfl⟩ | ⟨haccepts, -, rfl⟩⟩
      · exact hself
      · exact hdoom y hopen
      · exact hpush t row y rfl hopen haccepts

/-! ### What each effect makes visible -/

theorem seen_hold_self (s : Store σ) (p : Pid) {t t' : σ.Tbl} (i : Nat) {j : Nat}
    {x : Option (σ.Row t)} (hkept : t' = t → x.isSome = true)
    (hvisible : (s.seen p t' j).isSome = true) :
    ((s.hold p t i x).seen p t' j).isSome = true := by
  rw [seen, hold_draft_self, hold_stored]
  rcases eq_or_ne t' t with rfl | htable
  · rw [Drafts.set_apply]
    split
    · exact hkept rfl
    · exact hvisible
  · rw [Drafts.set_other _ _ _ htable]
    exact hvisible

theorem seen_push_self {s : Store σ} (hwf : s.Wf) (p : Pid) {t t' : σ.Tbl} {j : Nat}
    {r : σ.Row t} (hvisible : (s.seen p t' j).isSome = true) :
    ((s.push p t r).seen p t' j).isSome = true := by
  rw [seen, push_draft_self, push_stored s p t r (hwf.vacant t _ (le_refl _)).1]
  rcases eq_or_ne t' t with rfl | htable
  · rw [Drafts.set_apply]
    split
    · rfl
    · exact hvisible
  · rw [Drafts.set_other _ _ _ htable]
    exact hvisible

/-! ### The invariant -/

variable (lasting : σ.Tbl → Prop)

/-- The change keeps the row if its table is lasting, and adds no reference to a lasting
table. -/
structure Spares (t : σ.Tbl) (a : σ.Row t) (x : Option (σ.Row t)) : Prop where
  keeps : lasting t → x ≠ none
  refers : ∀ b, x = some b → ∀ ref ∈ σ.refs t b, lasting ref.1 → ref ∈ σ.refs t a

/-- Every row that refers to a lasting table finds what it refers to. -/
structure Anchored (s : Store σ) : Prop where
  rows : ∀ t i r, s.stored t i = some r → ∀ ref ∈ σ.refs t r, lasting ref.1 →
    (s.stored ref.1 ref.2).isSome = true
  drafts : ∀ p t i r, s.draft p t i = some (some r) → ∀ ref ∈ σ.refs t r, lasting ref.1 →
    (s.seen p ref.1 ref.2).isSome = true
  kept : ∀ p t i, lasting t → s.draft p t i ≠ some none

variable {lasting} {s : Store σ} {p : Pid}

namespace Anchored

/-- A committed row of a lasting table is visible to every program. -/
theorem seen_of_stored (hanchored : s.Anchored lasting) {t : σ.Tbl} {i : Nat}
    (hlasting : lasting t) (hstored : (s.stored t i).isSome = true) :
    (s.seen p t i).isSome = true := by
  rw [seen]
  cases hdraft : s.draft p t i with
  | none => exact hstored
  | some x =>
      cases x with
      | none => exact absurd hdraft (hanchored.kept p t i hlasting)
      | some r => rfl

/-- What a visible row refers to is visible. -/
theorem seen_refs (hanchored : s.Anchored lasting) {t : σ.Tbl} {i : Nat} {r : σ.Row t}
    (hseen : s.seen p t i = some r) {ref : σ.Tbl × Nat} (href : ref ∈ σ.refs t r)
    (hlasting : lasting ref.1) : (s.seen p ref.1 ref.2).isSome = true := by
  rw [seen] at hseen
  cases hdraft : s.draft p t i with
  | none =>
      rw [hdraft, Option.getD_none] at hseen
      exact hanchored.seen_of_stored hlasting (hanchored.rows t i r hseen ref href hlasting)
  | some x =>
      rw [hdraft, Option.getD_some] at hseen
      subst hseen
      exact hanchored.drafts p t i r hdraft ref href hlasting

theorem setTx (hanchored : s.Anchored lasting) (x : Option Tx) :
    (s.setTx p x).Anchored lasting :=
  ⟨hanchored.rows, hanchored.drafts, hanchored.kept⟩

theorem hold (hanchored : s.Anchored lasting) {t : σ.Tbl} {i : Nat} {r : σ.Row t}
    {x : Option (σ.Row t)} (hfree : ((s.table t).cell i).lockedAgainst p = false)
    (hseen : s.seen p t i = some r) (hspares : Spares lasting t r x) :
    (s.hold p t i x).Anchored lasting := by
  have hvisible {t' : σ.Tbl} {j : Nat} (hlasting : lasting t')
      (hbefore : (s.seen p t' j).isSome = true) :
      ((s.hold p t i x).seen p t' j).isSome = true := by
    refine seen_hold_self s p i ?_ hbefore
    rintro rfl
    exact Option.isSome_iff_ne_none.mpr (hspares.keeps hlasting)
  have hother {q : Pid} (hq : q ≠ p) : (s.hold p t i x).draft q = s.draft q :=
    hold_draft_other s t i x hq hfree
  constructor
  · intro t' j b hstored ref href hlasting
    rw [hold_stored] at hstored ⊢
    exact hanchored.rows t' j b hstored ref href hlasting
  · intro q t' j b hdraft ref href hlasting
    rcases eq_or_ne q p with rfl | hq
    · refine hvisible hlasting ?_
      rw [hold_draft_self] at hdraft
      rcases eq_or_ne t' t with rfl | htable
      · rw [Drafts.set_apply] at hdraft
        split at hdraft
        · have hbefore := hspares.refers b (Option.some.inj hdraft) ref href hlasting
          exact hanchored.seen_refs hseen hbefore hlasting
        · exact hanchored.drafts q t' j b hdraft ref href hlasting
      · rw [Drafts.set_other _ _ _ htable] at hdraft
        exact hanchored.drafts q t' j b hdraft ref href hlasting
    · rw [hother hq] at hdraft
      rw [seen, hother hq, hold_stored]
      exact hanchored.drafts q t' j b hdraft ref href hlasting
  · intro q t' j hlasting hdraft
    rcases eq_or_ne q p with rfl | hq
    · rw [hold_draft_self] at hdraft
      rcases eq_or_ne t' t with rfl | htable
      · rw [Drafts.set_apply] at hdraft
        split at hdraft
        · exact hspares.keeps hlasting (Option.some.inj hdraft)
        · exact hanchored.kept q t' j hlasting hdraft
      · rw [Drafts.set_other _ _ _ htable] at hdraft
        exact hanchored.kept q t' j hlasting hdraft
    · rw [hother hq] at hdraft
      exact hanchored.kept q t' j hlasting hdraft

theorem push (hanchored : s.Anchored lasting) (hwf : s.Wf) {t : σ.Tbl} {r : σ.Row t}
    (haccepts : s.Accepts p t r) : (s.push p t r).Anchored lasting := by
  have hvacant := hwf.vacant t _ (le_refl _)
  have hother {q : Pid} (hq : q ≠ p) : (s.push p t r).draft q = s.draft q :=
    push_draft_other s p t r hq (hvacant.2.2 q)
  have hstored : (s.push p t r).stored = s.stored := push_stored s p t r hvacant.1
  constructor
  · intro t' j b hrow ref href hlasting
    rw [hstored] at hrow ⊢
    exact hanchored.rows t' j b hrow ref href hlasting
  · intro q t' j b hdraft ref href hlasting
    rcases eq_or_ne q p with rfl | hq
    · refine seen_push_self hwf q ?_
      rw [push_draft_self] at hdraft
      rcases eq_or_ne t' t with rfl | htable
      · rw [Drafts.set_apply] at hdraft
        split at hdraft
        · obtain rfl := Option.some.inj (Option.some.inj hdraft)
          exact haccepts.referenced ref href
        · exact hanchored.drafts q t' j b hdraft ref href hlasting
      · rw [Drafts.set_other _ _ _ htable] at hdraft
        exact hanchored.drafts q t' j b hdraft ref href hlasting
    · rw [hother hq] at hdraft
      rw [seen, hother hq, hstored]
      exact hanchored.drafts q t' j b hdraft ref href hlasting
  · intro q t' j hlasting hdraft
    rcases eq_or_ne q p with rfl | hq
    · rw [push_draft_self] at hdraft
      rcases eq_or_ne t' t with rfl | htable
      · rw [Drafts.set_apply] at hdraft
        split at hdraft
        · cases hdraft
        · exact hanchored.kept q t' j hlasting hdraft
      · rw [Drafts.set_other _ _ _ htable] at hdraft
        exact hanchored.kept q t' j hlasting hdraft
    · rw [hother hq] at hdraft
      exact hanchored.kept q t' j hlasting hdraft

/-- A commit makes all rows of its transaction visible at once. -/
theorem finish (hanchored : s.Anchored lasting) (keep : Bool) :
    (s.finish p keep).Anchored lasting := by
  have hlater {t : σ.Tbl} {i : Nat} (hlasting : lasting t)
      (hstored : (s.stored t i).isSome = true) :
      ((s.finish p keep).stored t i).isSome = true := by
    cases keep with
    | false => exact (congrFun (congrFun (finish_stored_drop s p) t) i).symm ▸ hstored
    | true =>
        rw [finish_stored_keep]
        exact hanchored.seen_of_stored hlasting hstored
  have hother {q : Pid} (hq : q ≠ p) : (s.finish p keep).draft q = s.draft q :=
    finish_draft_other s keep hq
  constructor
  · intro t i r hrow ref href hlasting
    cases keep with
    | false =>
        rw [finish_stored_drop] at hrow ⊢
        exact hanchored.rows t i r hrow ref href hlasting
    | true =>
        rw [finish_stored_keep] at hrow ⊢
        exact hanchored.seen_refs (p := p) hrow href hlasting
  · intro q t i r hdraft ref href hlasting
    rcases eq_or_ne q p with rfl | hq
    · rw [finish_draft_self] at hdraft
      cases hdraft
    · rw [hother hq] at hdraft
      have hbefore := hanchored.drafts q t i r hdraft ref href hlasting
      rw [seen] at hbefore
      rw [seen, hother hq]
      cases hown : s.draft q ref.1 ref.2 with
      | some x =>
          rw [hown] at hbefore
          exact hbefore
      | none =>
          rw [hown] at hbefore
          exact hlater hlasting hbefore
  · intro q t i hlasting hdraft
    rcases eq_or_ne q p with rfl | hq
    · rw [finish_draft_self] at hdraft
      cases hdraft
    · rw [hother hq] at hdraft
      exact hanchored.kept q t i hlasting hdraft

/-- Every statement keeps the references, if the change that it makes does. -/
theorem exec (hanchored : s.Anchored lasting) (hwf : s.Wf) {s' : Store σ} {stmt : Stmt σ}
    {res : stmt.Res} (hexec : s.exec p stmt = some (res, s'))
    (hspares : ∀ t i where_ set y r, stmt = .touch t i where_ set → s.tx p = some y →
      s.seen p t i = some r → where_ y.startedAt r = true →
        Spares lasting t r ((set y.startedAt).apply r)) : s'.Anchored lasting :=
  exec_rule hexec hanchored (fun _ => hanchored.setTx _) (fun _ _ => hanchored.setTx _)
    (fun t i where_ set y r hstmt hopen hfree hseen hwhere =>
      hanchored.hold hfree hseen (hspares t i where_ set y r hstmt hopen hseen hwhere))
    (fun _ _ _ _ _ haccepts => hanchored.push hwf haccepts) fun keep => hanchored.finish keep

theorem tick (hanchored : s.Anchored lasting) (n : Time) : (s.tick n).Anchored lasting :=
  ⟨hanchored.rows, hanchored.drafts, hanchored.kept⟩

end Anchored

end Store

end Transact
