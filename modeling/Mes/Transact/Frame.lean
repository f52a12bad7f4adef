import Mes.Transact.Statement

/-!
Two facts about every statement. `Store.Wf` is the invariant of the store: only
open transactions hold locks, identifiers are never given out twice, and no two
rows of a table clash however the open transactions end. `Store.Acts` says what
a statement of `p` leaves alone: the transactions and uncommitted rows of
everybody else, and every committed row that `p` has not locked.

These are the only facts about interleaving that the program logic needs.
-/

namespace Transact

variable {σ : Schema}

namespace Store

structure Wf (s : Store σ) : Prop where
  vacant : ∀ t id, s.next t ≤ id →
    s.stored t id = none ∧ s.born t id = none ∧ ∀ p, s.draft p t id = none
  inTx : ∀ p t id r, s.draft p t id = some r → (s.tx p).isSome = true
  drafted : ∀ p t id r, s.stored t id = none → s.draft p t id = some r →
    ∃ r₀, s.born t id = some (p, r₀)
  started : ∀ p x, s.tx p = some x → x.startedAt ≤ s.clock
  distinct : ∀ t d i j a b, i ≠ j → ((s.table t).cell i).fate d = some a →
    ((s.table t).cell j).fate d = some b → σ.clash t a b = false

/-- What a statement of `p` may change. -/
structure Acts (p : Pid) (s s' : Store σ) : Prop where
  clock : s'.clock = s.clock
  next : ∀ t, s.next t ≤ s'.next t
  bornKept : ∀ t id b, s.born t id = some b → s'.born t id = some b
  bornBy : ∀ t id q r, s.born t id = none → s'.born t id = some (q, r) → q = p
  txOther : ∀ q, q ≠ p → s'.tx q = s.tx q
  draftOther : ∀ q, q ≠ p → s'.draft q = s.draft q
  stored : ∀ t id, s'.stored t id = s.stored t id ∨
    s.draft p t id = some (s'.stored t id)
  dead : ∀ t id, id < s.next t → s.stored t id = none →
    (∀ q, s.draft q t id = none) →
      s'.stored t id = none ∧ ∀ q, s'.draft q t id = none
  settled : ∀ t id, s'.stored t id ≠ s.stored t id → ∀ q, s'.draft q t id = none

/-- Nothing that outlives the transaction has changed. -/
structure Quiet (s s' : Store σ) : Prop where
  clock : s'.clock = s.clock
  stored : s'.stored = s.stored
  born : s'.born = s.born

theorem Quiet.refl (s : Store σ) : Quiet s s := ⟨rfl, rfl, rfl⟩

theorem Acts.refl (p : Pid) (s : Store σ) : Acts p s s where
  clock := rfl
  next := fun _ => le_refl _
  bornKept := fun _ _ _ hborn => hborn
  bornBy := fun _ _ _ _ hnone hsome => by rw [hnone] at hsome; cases hsome
  txOther := fun _ _ => rfl
  draftOther := fun _ _ => rfl
  stored := fun _ _ => Or.inl rfl
  dead := fun _ _ _ hstored hdraft => ⟨hstored, hdraft⟩
  settled := fun _ _ hchanged => absurd rfl hchanged

/-- A locked row keeps its committed version while others act. -/
theorem Acts.stored_locked {p q : Pid} {s s' : Store σ} (hacts : Acts p s s')
    (hpid : q ≠ p) {t : σ.Tbl} {id : Nat} {r : Option (σ.Row t)}
    (hdraft : s.draft q t id = some r) : s'.stored t id = s.stored t id := by
  rcases hacts.stored t id with hsame | hcommitted
  · exact hsame
  · have hnone : s.draft q t id = none :=
      Cell.draft_exclusive hpid hcommitted
    rw [hnone] at hdraft
    cases hdraft

theorem acts_setTx (s : Store σ) (p : Pid) (x : Option Tx) :
    Acts p s (s.setTx p x) where
  clock := rfl
  next := fun _ => le_refl _
  bornKept := fun _ _ _ hborn => hborn
  bornBy := fun t id q r hnone hsome => by
    rw [setTx_born, hnone] at hsome
    cases hsome
  txOther := fun _ hpid => setTx_tx_other s x hpid
  draftOther := fun _ _ => rfl
  stored := fun _ _ => Or.inl rfl
  dead := fun _ _ _ hstored hdraft => ⟨hstored, hdraft⟩
  settled := fun _ _ hchanged => absurd rfl hchanged

theorem acts_finish (s : Store σ) (p : Pid) (keep : Bool) :
    Acts p s (s.finish p keep) where
  clock := rfl
  next := fun _ => le_refl _
  bornKept := fun _ _ _ hborn => hborn
  bornBy := fun t id q r hnone hsome => by
    rw [finish_born, hnone] at hsome
    cases hsome
  txOther := fun _ hpid => finish_tx_other s keep hpid
  draftOther := fun _ hpid => finish_draft_other s keep hpid
  stored := fun t id => by
    cases keep with
    | false => exact Or.inl (by rw [finish_stored_drop])
    | true =>
        rw [finish_stored_keep]
        cases hdraft : s.draft p t id with
        | none => exact Or.inl (Drafts.onto_of_none hdraft)
        | some r => exact Or.inr (by rw [Drafts.onto_of_some hdraft])
  dead := fun t id _ hstored hdraft => by
    have hcommitted : (s.finish p keep).stored t id = none := by
      cases keep with
      | false => rw [finish_stored_drop, hstored]
      | true => rw [finish_stored_keep, Drafts.onto_of_none (hdraft p), hstored]
    refine ⟨hcommitted, fun q => ?_⟩
    by_cases hpid : q = p
    · rw [hpid, finish_draft_self]
      rfl
    · rw [finish_draft_other s keep hpid, hdraft q]
  settled := fun t id hchanged q => by
    cases hdraft : s.draft p t id with
    | none =>
        -- a row without a draft keeps its committed version
        refine absurd ?_ hchanged
        cases keep with
        | false => rw [finish_stored_drop]
        | true => rw [finish_stored_keep, Drafts.onto_of_none hdraft]
    | some r =>
        by_cases hpid : q = p
        · rw [hpid, finish_draft_self]
          rfl
        · rw [finish_draft_other s keep hpid]
          exact Cell.draft_exclusive hpid hdraft

theorem acts_hold (s : Store σ) (p : Pid) {t : σ.Tbl} {id : Nat}
    (r : Option (σ.Row t)) (hfree : ((s.table t).cell id).lockedAgainst p = false)
    (hseen : (s.seen p t id).isSome = true) : Acts p s (s.hold p t id r) where
  clock := rfl
  next := fun t' => by rw [hold_next]
  bornKept := fun _ _ _ hborn => by rw [hold_born, hborn]
  bornBy := fun t' id' q r' hnone hsome => by
    rw [hold_born, hnone] at hsome
    cases hsome
  txOther := fun _ _ => rfl
  draftOther := fun _ hpid => hold_draft_other s t id r hpid hfree
  stored := fun t' id' => Or.inl (by rw [hold_stored])
  dead := fun t' id' _ hstored hdraft => by
    refine ⟨by rw [hold_stored, hstored], fun q => ?_⟩
    by_cases hpid : q = p
    · rw [hpid, hold_draft_self]
      by_cases htable : t' = t
      · subst htable
        rw [Drafts.set_apply]
        split
        · -- the locked row is visible, so it is not a dead one
          rename_i hid
          subst hid
          simp [seen, hdraft p, hstored] at hseen
        · exact hdraft p
      · rw [Drafts.set_other _ _ _ htable]
        exact hdraft p
    · rw [hold_draft_other s t id r hpid hfree, hdraft q]
  settled := fun t' id' hchanged => absurd (by rw [hold_stored]) hchanged

theorem acts_push {s : Store σ} (hwf : s.Wf) (p : Pid) (t : σ.Tbl) (r : σ.Row t) :
    Acts p s (s.push p t r) where
  clock := rfl
  next := fun t' => by
    rw [push_next]
    split <;> omega
  bornKept := fun t' id b hborn => by
    refine push_born s p t r t' id (some b) ?_ fun _ => hborn
    intro htable hid
    subst htable
    rw [hid, (hwf.vacant t _ (le_refl _)).2.1] at hborn
    cases hborn
  bornBy := fun t' id q r' hnone hsome => by
    by_cases hnew : t' = t ∧ id = s.next t
    · obtain ⟨rfl, rfl⟩ := hnew
      have hborn := push_born s p t' r t' (s.next t') (some (p, r))
        (fun _ _ => rfl) (fun h => absurd ⟨rfl, rfl⟩ h)
      rw [hborn] at hsome
      exact (congrArg Prod.fst (Option.some.inj hsome)).symm
    · have hborn := push_born s p t r t' id (s.born t' id)
        (fun htable hid => absurd ⟨htable.symm, hid⟩ hnew) fun _ => rfl
      rw [hborn, hnone] at hsome
      cases hsome
  txOther := fun _ _ => rfl
  draftOther := fun q hpid =>
    push_draft_other s p t r hpid ((hwf.vacant t _ (le_refl _)).2.2 q)
  stored := fun _ _ =>
    Or.inl (by rw [push_stored s p t r (hwf.vacant t _ (le_refl _)).1])
  dead := fun t' id hid hstored hdraft => by
    refine ⟨by rw [push_stored s p t r (hwf.vacant t _ (le_refl _)).1, hstored],
      fun q => ?_⟩
    by_cases hpid : q = p
    · rw [hpid, push_draft_self]
      by_cases htable : t' = t
      · subst htable
        rw [Drafts.set_apply, if_neg (by omega)]
        exact hdraft p
      · rw [Drafts.set_other _ _ _ htable]
        exact hdraft p
    · rw [push_draft_other s p t r hpid ((hwf.vacant t _ (le_refl _)).2.2 q)]
      exact hdraft q
  settled := fun t' id hchanged =>
    absurd (by rw [push_stored s p t r (hwf.vacant t _ (le_refl _)).1]) hchanged

/-- Every statement of `p` acts as `p` may. -/
theorem exec_acts {s s' : Store σ} (hwf : s.Wf) {p : Pid} {stmt : Stmt σ}
    {res : stmt.Res} (hexec : s.exec p stmt = some (res, s')) : Acts p s s' := by
  cases stmt with
  | begin =>
      obtain ⟨-, rfl⟩ := begin_cases hexec
      exact acts_setTx s p _
  | commit =>
      obtain ⟨x, -, -, rfl⟩ := commit_cases hexec
      exact acts_finish s p _
  | rollback =>
      rw [rollback_cases hexec]
      exact acts_finish s p _
  | read conn =>
      rw [(read_cases hexec).1]
      exact Acts.refl p s
  | touch t id where_ set =>
      obtain ⟨x, -, hcases⟩ := touch_cases hexec
      rcases hcases with ⟨-, -, rfl⟩ | ⟨-, hfree, ⟨-, rfl, -⟩ | ⟨r, hseen, -, -, rfl⟩⟩
      · exact Acts.refl p _
      · exact Acts.refl p _
      · exact acts_hold s p _ hfree (by rw [hseen]; rfl)
  | insert t row =>
      obtain ⟨x, -, hcases⟩ := insert_cases hexec
      rcases hcases with ⟨-, -, rfl⟩ | ⟨-, ⟨e, -, -, rfl⟩ | ⟨-, -, rfl⟩⟩
      · exact Acts.refl p _
      · exact acts_setTx s p _
      · exact acts_push hwf p t _

/-- Rows stay distinct when each new fate of a row comes from an old one with
the same index columns. -/
theorem distinct_of_fates {s s' : Store σ} (hwf : s.Wf)
    (hfate : ∀ t d, ∃ d', ∀ id a, ((s'.table t).cell id).fate d = some a →
      ∃ a₀, ((s.table t).cell id).fate d' = some a₀ ∧
        ∀ b, σ.clash t a b = σ.clash t a₀ b) :
    ∀ t d i j a b, i ≠ j → ((s'.table t).cell i).fate d = some a →
      ((s'.table t).cell j).fate d = some b → σ.clash t a b = false := by
  intro t d i j a b hne ha hb
  obtain ⟨d', hold⟩ := hfate t d
  obtain ⟨a₀, ha₀, hclasha⟩ := hold i a ha
  obtain ⟨b₀, hb₀, hclashb⟩ := hold j b hb
  calc
    σ.clash t a b = σ.clash t a₀ b := hclasha b
    _ = σ.clash t b a₀ := σ.clash_symm t a₀ b
    _ = σ.clash t b₀ a₀ := hclashb a₀
    _ = σ.clash t a₀ b₀ := σ.clash_symm t b₀ a₀
    _ = false := hwf.distinct t d' i j a₀ b₀ hne ha₀ hb₀

theorem wf_setTx {s : Store σ} (hwf : s.Wf) (p : Pid) (x : Tx)
    (hstarted : x.startedAt ≤ s.clock) : (s.setTx p (some x)).Wf where
  vacant := hwf.vacant
  inTx := fun q t id r hdraft => by
    by_cases hpid : q = p
    · rw [hpid, setTx_tx_self]
      rfl
    · rw [setTx_tx_other s _ hpid]
      exact hwf.inTx q t id r hdraft
  drafted := hwf.drafted
  started := fun q y hopen => by
    by_cases hpid : q = p
    · rw [hpid, setTx_tx_self] at hopen
      rw [← Option.some.inj hopen]
      exact hstarted
    · rw [setTx_tx_other s _ hpid] at hopen
      exact hwf.started q y hopen
  distinct := hwf.distinct

theorem wf_finish {s : Store σ} (hwf : s.Wf) (p : Pid) (keep : Bool) :
    (s.finish p keep).Wf where
  vacant := fun t id hnext => by
    obtain ⟨hstored, hborn, hdraft⟩ := hwf.vacant t id hnext
    have hcell : (s.finish p keep).stored t id = none := by
      rcases (acts_finish s p keep).stored t id with hsame | hcommitted
      · rw [hsame, hstored]
      · rw [hdraft p] at hcommitted
        cases hcommitted
    refine ⟨hcell, hborn, fun q => ?_⟩
    by_cases hpid : q = p
    · rw [hpid, finish_draft_self]
      rfl
    · rw [finish_draft_other s keep hpid]
      exact hdraft q
  inTx := fun q t id r hdraft => by
    by_cases hpid : q = p
    · rw [hpid, finish_draft_self] at hdraft
      cases hdraft
    · rw [finish_draft_other s keep hpid] at hdraft
      rw [finish_tx_other s keep hpid]
      exact hwf.inTx q t id r hdraft
  drafted := fun q t id r hstored hdraft => by
    by_cases hpid : q = p
    · rw [hpid, finish_draft_self] at hdraft
      cases hdraft
    · rw [finish_draft_other s keep hpid] at hdraft
      rw [(acts_finish s p keep).stored_locked hpid hdraft] at hstored
      exact hwf.drafted q t id r hstored hdraft
  started := fun q y hopen => by
    by_cases hpid : q = p
    · rw [hpid, finish_tx_self] at hopen
      cases hopen
    · rw [finish_tx_other s keep hpid] at hopen
      exact hwf.started q y hopen
  distinct := distinct_of_fates hwf fun t d =>
    ⟨Function.update d p keep, fun id a hfate =>
      ⟨a, by rw [← Cell.fate_settle]; exact hfate, fun _ => rfl⟩⟩

/-- A row that `p` may lock has one fate with `p` and one without. -/
theorem fate_of_free {t : σ.Tbl} {c : Cell (σ.Row t)} {p : Pid} {r : σ.Row t}
    (hfree : c.lockedAgainst p = false) (hview : c.view p = some r)
    (d : Pid → Bool) : c.fate d = if d p then some r else c.stored := by
  unfold Cell.lockedAgainst at hfree
  unfold Cell.view Cell.draft at hview
  unfold Cell.fate
  cases hlock : c.lock with
  | none =>
      simp only [hlock, Option.getD_none] at hview
      simp [hview]
  | some owner =>
      simp only [hlock, decide_eq_false_iff_not, not_not] at hfree
      simp only [hlock, hfree, if_true, Option.getD_some] at hview
      simp [hfree, hview]

theorem wf_hold {s : Store σ} (hwf : s.Wf) {p : Pid} {t : σ.Tbl} {id : Nat}
    {r : σ.Row t} (change : Change σ t) (htx : (s.tx p).isSome = true)
    (hfree : ((s.table t).cell id).lockedAgainst p = false)
    (hseen : s.seen p t id = some r) : (s.hold p t id (change.apply r)).Wf := by
  have hacts := acts_hold s p (change.apply r) hfree (by rw [hseen]; rfl)
  have hid : id < s.next t := by
    by_contra hlate
    obtain ⟨hstored, -, hdraft⟩ := hwf.vacant t id (by omega)
    simp [seen, hdraft p, hstored] at hseen
  constructor
  · intro t' id' hnext
    rw [hold_next] at hnext
    obtain ⟨hstored, hborn, hdraft⟩ := hwf.vacant t' id' hnext
    refine ⟨by rw [hold_stored, hstored], by rw [hold_born, hborn], fun q => ?_⟩
    by_cases hpid : q = p
    · rw [hpid, hold_draft_self]
      by_cases htable : t' = t
      · subst htable
        rw [Drafts.set_apply, if_neg (by omega)]
        exact hdraft p
      · rw [Drafts.set_other _ _ _ htable]
        exact hdraft p
    · rw [hold_draft_other s t id _ hpid hfree]
      exact hdraft q
  · intro q t' id' r' hdraft
    by_cases hpid : q = p
    · rw [hpid]
      exact htx
    · rw [hold_draft_other s t id _ hpid hfree] at hdraft
      exact hwf.inTx q t' id' r' hdraft
  · intro q t' id' r' hstored hdraft
    rw [hold_stored] at hstored
    rw [hold_born]
    by_cases hpid : q = p
    · subst hpid
      rw [hold_draft_self] at hdraft
      by_cases htable : t' = t
      · subst htable
        rw [Drafts.set_apply] at hdraft
        split at hdraft
        · -- a row that is not committed is visible only as the program's own
          rename_i hsame
          subst hsame
          cases hown : s.draft q t' id' with
          | none => simp [seen, hown, hstored] at hseen
          | some r₁ => exact hwf.drafted q t' id' r₁ hstored hown
        · exact hwf.drafted q t' id' r' hstored hdraft
      · rw [Drafts.set_other _ _ _ htable] at hdraft
        exact hwf.drafted q t' id' r' hstored hdraft
    · rw [hold_draft_other s t id _ hpid hfree] at hdraft
      exact hwf.drafted q t' id' r' hstored hdraft
  · exact hwf.started
  · refine distinct_of_fates hwf fun t' d => ⟨d, fun id' a => ?_⟩
    refine setCell_cell s t t' id id' _ (fun c => c.fate d = some a → _) ?_
      fun _ hfate => ⟨a, hfate, fun _ => rfl⟩
    intro htable hsame hfate
    subst htable
    subst hsame
    have hold := fate_of_free hfree hseen d
    cases hd : d p with
    | false =>
        simp only [Cell.fate, hd] at hfate
        exact ⟨a, by rw [hold, hd]; exact hfate, fun _ => rfl⟩
    | true =>
        simp only [Cell.fate, hd, if_true] at hfate
        exact ⟨r, by rw [hold, hd]; rfl, change.keeps r a hfate⟩

theorem wf_push {s : Store σ} (hwf : s.Wf) {p : Pid} {t : σ.Tbl} {r : σ.Row t}
    (htx : (s.tx p).isSome = true) (haccepts : s.Accepts p t r) :
    (s.push p t r).Wf := by
  obtain ⟨hstored, hborn, hdraft⟩ := hwf.vacant t (s.next t) (le_refl _)
  have hkeep : (s.push p t r).stored = s.stored := push_stored s p t r hstored
  have hother (q : Pid) (hpid : q ≠ p) : (s.push p t r).draft q = s.draft q :=
    push_draft_other s p t r hpid (hdraft q)
  constructor
  · intro t' id hnext
    rw [push_next] at hnext
    have hold : s.next t' ≤ id := by
      split at hnext <;> omega
    have hne : ¬(t' = t ∧ id = s.next t) := by
      rintro ⟨rfl, hid⟩
      rw [if_pos rfl] at hnext
      omega
    obtain ⟨hstored', hborn', hdraft'⟩ := hwf.vacant t' id hold
    refine ⟨by rw [hkeep, hstored'], ?_, fun q => ?_⟩
    · exact push_born s p t r t' id none
        (fun htable hid => absurd ⟨htable.symm, hid⟩ hne) fun _ => hborn'
    · by_cases hpid : q = p
      · rw [hpid, push_draft_self]
        by_cases htable : t' = t
        · subst htable
          rw [Drafts.set_apply, if_neg fun hid => hne ⟨rfl, hid⟩]
          exact hdraft' p
        · rw [Drafts.set_other _ _ _ htable]
          exact hdraft' p
      · rw [hother q hpid]
        exact hdraft' q
  · intro q t' id r' hheld
    by_cases hpid : q = p
    · rw [hpid]
      exact htx
    · rw [hother q hpid] at hheld
      exact hwf.inTx q t' id r' hheld
  · intro q t' id r' hnone hheld
    rw [hkeep] at hnone
    by_cases hnew : t' = t ∧ id = s.next t
    · obtain ⟨rfl, rfl⟩ := hnew
      have hpid : q = p := by
        by_contra hne
        rw [hother q hne, hdraft q] at hheld
        cases hheld
      rw [hpid]
      exact ⟨r, push_born s p t' r t' (s.next t') (some (p, r)) (fun _ _ => rfl)
        fun h => absurd ⟨rfl, rfl⟩ h⟩
    · have hheld' : s.draft q t' id = some r' := by
        by_cases hpid : q = p
        · subst hpid
          rw [push_draft_self] at hheld
          by_cases htable : t' = t
          · subst htable
            rw [Drafts.set_apply, if_neg fun hid => hnew ⟨rfl, hid⟩] at hheld
            exact hheld
          · rw [Drafts.set_other _ _ _ htable] at hheld
            exact hheld
        · rw [hother q hpid] at hheld
          exact hheld
      obtain ⟨r₀, hr₀⟩ := hwf.drafted q t' id r' hnone hheld'
      exact ⟨r₀, (acts_push hwf p t r).bornKept t' id _ hr₀⟩
  · exact hwf.started
  · -- a new row clashes with no fate of an old one, and old rows keep theirs
    have hnew (d : Pid → Bool) (a : σ.Row t)
        (hfate : Cell.fate { stored := none, lock := some (p, some r) } d = some a) :
        d p = true ∧ a = r := by
      cases hd : d p with
      | false => simp [Cell.fate, hd] at hfate
      | true => simpa [Cell.fate, hd, eq_comm] using hfate
    have hfresh (d : Pid → Bool) (id : Nat) (b : σ.Row t) (hd : d p = true)
        (hfate : ((s.table t).cell id).fate d = some b) : σ.clash t r b = false := by
      by_cases hid : id < s.next t
      · exact Cell.fate_of_not_maybe (haccepts.free id hid) hd hfate
      · obtain ⟨hnone, -, hfree⟩ := hwf.vacant t id (by omega)
        unfold Cell.fate at hfate
        cases hlock : ((s.table t).cell id).lock with
        | none =>
            simp only [hlock] at hfate
            rw [show ((s.table t).cell id).stored = none from hnone] at hfate
            cases hfate
        | some owner =>
            have hheld := hfree owner.1
            simp [draft, Cell.draft, hlock] at hheld
    intro t' d i j a b hne
    refine push_cell s p t r t' i (fun c => c.fate d = some a → _) ?_ ?_
    · intro htable hi ha
      subst htable
      subst hi
      obtain ⟨hd, rfl⟩ := hnew d a ha
      refine push_cell s p t a t j (fun c => c.fate d = some b → _) ?_ ?_
      · intro _ hj
        exact absurd hj.symm hne
      · intro _ hb
        exact hfresh d j b hd hb
    · intro hi ha
      refine push_cell s p t r t' j (fun c => c.fate d = some b → _) ?_ ?_
      · intro htable hj hb
        subst htable
        subst hj
        obtain ⟨hd, rfl⟩ := hnew d b hb
        rw [σ.clash_symm]
        exact hfresh d i a hd ha
      · intro _ hb
        exact hwf.distinct t' d i j a b hne ha hb

/-- Every statement keeps the store well formed. -/
theorem exec_wf {s s' : Store σ} (hwf : s.Wf) {p : Pid} {stmt : Stmt σ}
    {res : stmt.Res} (hexec : s.exec p stmt = some (res, s')) : s'.Wf := by
  cases stmt with
  | begin =>
      obtain ⟨-, rfl⟩ := begin_cases hexec
      exact wf_setTx hwf p _ (le_refl _)
  | commit =>
      obtain ⟨x, -, -, rfl⟩ := commit_cases hexec
      exact wf_finish hwf p _
  | rollback =>
      rw [rollback_cases hexec]
      exact wf_finish hwf p _
  | read conn =>
      rw [(read_cases hexec).1]
      exact hwf
  | touch t id where_ set =>
      obtain ⟨x, hopen, hcases⟩ := touch_cases hexec
      rcases hcases with ⟨-, -, rfl⟩ | ⟨-, hfree, ⟨-, rfl, -⟩ | ⟨r, hseen, -, -, rfl⟩⟩
      · exact hwf
      · exact hwf
      · exact wf_hold hwf _ (by rw [hopen]; rfl) hfree hseen
  | insert t row =>
      obtain ⟨x, hopen, hcases⟩ := insert_cases hexec
      rcases hcases with ⟨-, -, rfl⟩ | ⟨-, ⟨e, -, -, rfl⟩ | ⟨haccepts, -, rfl⟩⟩
      · exact hwf
      · exact wf_setTx hwf p _ (hwf.started p x hopen)
      · exact wf_push hwf (by rw [hopen]; rfl) haccepts

theorem wf_tick {s : Store σ} (hwf : s.Wf) (n : Time) : (s.tick n).Wf where
  vacant := hwf.vacant
  inTx := hwf.inTx
  drafted := hwf.drafted
  started := fun p x hopen => Nat.le_add_right_of_le (hwf.started p x hopen)
  distinct := hwf.distinct

/-- Committed rows do not clash. -/
theorem Wf.stored_distinct {s : Store σ} (hwf : s.Wf) {t : σ.Tbl} {i j : Nat}
    {a b : σ.Row t} (ha : s.stored t i = some a) (hb : s.stored t j = some b)
    (hclash : σ.clash t a b = true) : i = j := by
  by_contra hne
  have hfate (id : Nat) (r : σ.Row t) (hr : s.stored t id = some r) :
      ((s.table t).cell id).fate (fun _ => false) = some r := by
    unfold Cell.fate
    cases ((s.table t).cell id).lock <;> exact hr
  rw [hwf.distinct t _ i j a b hne (hfate i a ha) (hfate j b hb)] at hclash
  cases hclash

/-- The rows that one transaction sees do not clash. -/
theorem Wf.seen_distinct {s : Store σ} (hwf : s.Wf) {p : Pid} {t : σ.Tbl}
    {i j : Nat} {a b : σ.Row t} (ha : s.seen p t i = some a)
    (hb : s.seen p t j = some b) (hclash : σ.clash t a b = true) : i = j := by
  by_contra hne
  have hfate (id : Nat) (r : σ.Row t) (hr : s.seen p t id = some r) :
      ((s.table t).cell id).fate (fun q => decide (q = p)) = some r := by
    unfold seen draft stored Cell.draft at hr
    unfold Cell.fate
    cases hlock : ((s.table t).cell id).lock with
    | none => simpa [hlock] using hr
    | some owner =>
        by_cases howner : owner.1 = p
        · simpa [hlock, howner] using hr
        · simpa [hlock, howner] using hr
  rw [hwf.distinct t _ i j a b hne (hfate i a ha) (hfate j b hb)] at hclash
  cases hclash

/-- A row identifier in use has been given out. -/
theorem Wf.lt_next {s : Store σ} (hwf : s.Wf) {t : σ.Tbl} {id : Nat}
    {r : σ.Row t} (hstored : s.stored t id = some r) : id < s.next t := by
  by_contra hlate
  rw [(hwf.vacant t id (by omega)).1] at hstored
  cases hstored

/-- A statement that may write the table `t`. -/
def WritesTo (t : σ.Tbl) : Stmt σ → Prop
  | .touch t' _ _ _ => t' = t
  | .insert t' _ => t' = t
  | _ => False

/-- A statement of `p` leaves a table alone that `p`'s transaction has not
written, unless it writes the table itself. -/
theorem exec_elsewhere {s s' : Store σ} (hwf : s.Wf) {p : Pid} {stmt : Stmt σ}
    {res : stmt.Res} (hexec : s.exec p stmt = some (res, s')) {t : σ.Tbl}
    (hwrites : ¬ WritesTo t stmt) (hclean : ∀ id, s.draft p t id = none) :
    s'.stored t = s.stored t ∧ s'.born t = s.born t ∧ ∀ id, s'.draft p t id = none := by
  have hend (keep : Bool) : (s.finish p keep).stored t = s.stored t ∧
      (s.finish p keep).born t = s.born t ∧ ∀ id, (s.finish p keep).draft p t id = none := by
    refine ⟨?_, rfl, fun id => by rw [finish_draft_self]; rfl⟩
    cases keep with
    | false => rw [finish_stored_drop]
    | true =>
        funext id
        rw [finish_stored_keep, Drafts.onto_of_none (hclean id)]
  cases stmt with
  | begin =>
      obtain ⟨-, rfl⟩ := begin_cases hexec
      exact ⟨rfl, rfl, hclean⟩
  | commit =>
      obtain ⟨x, -, -, rfl⟩ := commit_cases hexec
      exact hend _
  | rollback =>
      rw [rollback_cases hexec]
      exact hend _
  | read conn =>
      rw [(read_cases hexec).1]
      exact ⟨rfl, rfl, hclean⟩
  | touch t' id where_ set =>
      have htable : t ≠ t' := fun hsame => hwrites hsame.symm
      obtain ⟨x, -, hcases⟩ := touch_cases hexec
      rcases hcases with ⟨-, -, rfl⟩ | ⟨-, -, ⟨-, rfl, -⟩ | ⟨r, -, -, -, rfl⟩⟩
      · exact ⟨rfl, rfl, hclean⟩
      · exact ⟨rfl, rfl, hclean⟩
      · refine ⟨by rw [hold_stored], by rw [hold_born], fun id' => ?_⟩
        rw [hold_draft_self, Drafts.set_other _ _ _ htable]
        exact hclean id'
  | insert t' row =>
      have htable : t ≠ t' := fun hsame => hwrites hsame.symm
      obtain ⟨x, -, hcases⟩ := insert_cases hexec
      rcases hcases with ⟨-, -, rfl⟩ | ⟨-, ⟨e, -, -, rfl⟩ | ⟨-, -, rfl⟩⟩
      · exact ⟨rfl, rfl, hclean⟩
      · exact ⟨rfl, rfl, hclean⟩
      · refine ⟨?_, ?_, fun id => ?_⟩
        · rw [push_stored s p t' _ (hwf.vacant t' _ (le_refl _)).1]
        · funext id
          exact push_born_other s p t' _ htable id
        · rw [push_draft_self, Drafts.set_other _ _ _ htable]
          exact hclean id

end Store

end Transact
