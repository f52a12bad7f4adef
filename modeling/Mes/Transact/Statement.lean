import Mes.Transact.Store

/-!
What one statement can do, said once. Each statement has an inversion lemma
that lists its outcomes with their guards, and the effect of each outcome is
given through three views of the store: the committed rows, the uncommitted
rows of one program, and the record of insertions. Later modules use only these
lemmas and never unfold a statement.
-/

namespace Transact

variable {σ : Schema}

namespace Drafts

def empty : Drafts σ := fun _ _ => none

def set (W : Drafts σ) (t : σ.Tbl) (id : Nat) (r : Option (σ.Row t)) : Drafts σ :=
  Function.update W t (Function.update (W t) id (some r))

@[simp] theorem empty_apply (t : σ.Tbl) (id : Nat) :
    (empty : Drafts σ) t id = none := rfl

@[simp] theorem set_same (W : Drafts σ) (t : σ.Tbl) (id : Nat)
    (r : Option (σ.Row t)) : W.set t id r t id = some r := by
  simp [set]

theorem set_apply (W : Drafts σ) (t : σ.Tbl) (id id' : Nat) (r : Option (σ.Row t)) :
    W.set t id r t id' = if id' = id then some r else W t id' := by
  simp [set, Function.update_apply]

theorem set_other (W : Drafts σ) {t t' : σ.Tbl} (id : Nat) (r : Option (σ.Row t))
    (htable : t' ≠ t) : W.set t id r t' = W t' := by
  simp [set, Function.update_of_ne htable]

theorem set_comm (W : Drafts σ) {t t' : σ.Tbl} (id id' : Nat) (r : Option (σ.Row t))
    (r' : Option (σ.Row t')) (htable : t ≠ t') :
    (W.set t id r).set t' id' r' = (W.set t' id' r').set t id r := by
  unfold set
  rw [Function.update_of_ne htable.symm, Function.update_of_ne htable]
  exact Function.update_comm htable _ _ _

/-- The committed rows after the transaction is kept. -/
def onto (W : Drafts σ) (base : (t : σ.Tbl) → Nat → Option (σ.Row t))
    (t : σ.Tbl) (id : Nat) : Option (σ.Row t) :=
  (W t id).getD (base t id)

theorem onto_of_none {W : Drafts σ} {base : (t : σ.Tbl) → Nat → Option (σ.Row t)}
    {t : σ.Tbl} {id : Nat} (hnone : W t id = none) : W.onto base t id = base t id := by
  simp [onto, hnone]

theorem onto_of_some {W : Drafts σ} {base : (t : σ.Tbl) → Nat → Option (σ.Row t)}
    {t : σ.Tbl} {id : Nat} {r : Option (σ.Row t)} (hsome : W t id = some r) :
    W.onto base t id = r := by
  simp [onto, hsome]

@[simp] theorem onto_empty (base : (t : σ.Tbl) → Nat → Option (σ.Row t)) (t : σ.Tbl) :
    (empty : Drafts σ).onto base t = base t := rfl

@[simp] theorem onto_set_same (W : Drafts σ) (base : (t : σ.Tbl) → Nat → Option (σ.Row t))
    (t : σ.Tbl) (id : Nat) (r : Option (σ.Row t)) :
    (W.set t id r).onto base t = Function.update (W.onto base t) id r := by
  funext id'
  simp only [onto, set_apply, Function.update_apply]
  split <;> rfl

theorem onto_set_other (W : Drafts σ) (base : (t : σ.Tbl) → Nat → Option (σ.Row t))
    {t t' : σ.Tbl} (id : Nat) (r : Option (σ.Row t)) (htable : t' ≠ t) :
    (W.set t id r).onto base t' = W.onto base t' := by
  funext id'
  simp only [onto, set_other W id r htable]

end Drafts

namespace Cell

variable {ρ : Type}

@[simp] theorem draft_settle_self (c : Cell ρ) (p : Pid) (keep : Bool) :
    (c.settle p keep).draft p = none := by
  unfold settle
  cases hdraft : c.draft p with
  | none => exact hdraft
  | some r => rfl

theorem draft_settle_other (c : Cell ρ) {p q : Pid} (hpid : q ≠ p) (keep : Bool) :
    (c.settle p keep).draft q = c.draft q := by
  unfold settle
  cases hdraft : c.draft p with
  | none => rfl
  | some r =>
      cases hlock : c.lock with
      | none => simp [draft, hlock] at hdraft
      | some owner =>
          have howner : owner.1 = p := by
            by_contra hne
            simp [draft, hlock, hne] at hdraft
          have hq : owner.1 ≠ q := by
            rw [howner]
            exact fun heq => hpid heq.symm
          simp [draft, hlock, hq]

theorem stored_settle (c : Cell ρ) (p : Pid) (keep : Bool) :
    (c.settle p keep).stored = if keep then (c.draft p).getD c.stored else c.stored := by
  unfold settle
  cases c.draft p <;> cases keep <;> rfl

theorem fate_settle (c : Cell ρ) (p : Pid) (keep : Bool) (d : Pid → Bool) :
    (c.settle p keep).fate d = c.fate (Function.update d p keep) := by
  unfold settle
  cases hlock : c.lock with
  | none => simp [draft, hlock, fate]
  | some owner =>
      obtain ⟨q, r⟩ := owner
      by_cases hq : q = p
      · subst hq
        simp [draft, hlock, fate]
      · simp [draft, hlock, fate, hq]

/-- Two programs never hold the lock of one row. -/
theorem draft_exclusive {c : Cell ρ} {p q : Pid} {r : Option ρ} (hpid : q ≠ p)
    (hdraft : c.draft p = some r) : c.draft q = none := by
  unfold draft at hdraft ⊢
  cases hlock : c.lock with
  | none => rfl
  | some owner =>
      simp only [hlock] at hdraft ⊢
      split at hdraft
      · rename_i howner
        rw [if_neg (by rw [howner]; exact fun heq => hpid heq.symm)]
      · cases hdraft

/-- A clash with every outcome that `p` has to expect is a clash with a
committed row or with a row of `p` itself. -/
theorem always_cases {c : Cell ρ} {p : Pid} {bad : ρ → Bool}
    (halways : c.always p bad = true) :
    (∃ r, c.stored = some r ∧ bad r = true) ∨
      (∃ r, c.draft p = some (some r) ∧ bad r = true) := by
  unfold always at halways
  cases hlock : c.lock with
  | none =>
      simp only [hlock, Option.any_eq_true_iff_get] at halways
      obtain ⟨hsome, hbad⟩ := halways
      exact Or.inl ⟨_, (Option.some_get hsome).symm, hbad⟩
  | some owner =>
      simp only [hlock] at halways
      by_cases howner : owner.1 = p
      · rw [if_pos howner, Option.any_eq_true_iff_get] at halways
        obtain ⟨hsome, hbad⟩ := halways
        refine Or.inr ⟨_, ?_, hbad⟩
        simp [draft, hlock, howner]
      · rw [if_neg howner, Bool.and_eq_true, Option.any_eq_true_iff_get] at halways
        obtain ⟨⟨hsome, hbad⟩, -⟩ := halways
        exact Or.inl ⟨_, (Option.some_get hsome).symm, hbad⟩

/-- Where no outcome is bad, no fate is. -/
theorem fate_of_not_maybe {c : Cell ρ} {p : Pid} {bad : ρ → Bool}
    (hmaybe : c.maybe p bad = false) {d : Pid → Bool} (hd : d p = true) {r : ρ}
    (hfate : c.fate d = some r) : bad r = false := by
  unfold maybe at hmaybe
  unfold fate at hfate
  cases hlock : c.lock with
  | none =>
      simp only [hlock] at hmaybe hfate
      simpa [hfate] using hmaybe
  | some owner =>
      simp only [hlock] at hmaybe hfate
      by_cases howner : owner.1 = p
      · rw [if_pos howner] at hmaybe
        rw [howner, hd] at hfate
        simp only [if_true] at hfate
        simpa [hfate] using hmaybe
      · rw [if_neg howner, Bool.or_eq_false_iff] at hmaybe
        split at hfate
        · simpa [hfate] using hmaybe.2
        · simpa [hfate] using hmaybe.1

end Cell

namespace Store

@[simp] theorem setTx_stored (s : Store σ) (p : Pid) (x : Option Tx) :
    (s.setTx p x).stored = s.stored := rfl

@[simp] theorem setTx_born (s : Store σ) (p : Pid) (x : Option Tx) :
    (s.setTx p x).born = s.born := rfl

@[simp] theorem setTx_draft (s : Store σ) (p : Pid) (x : Option Tx) :
    (s.setTx p x).draft = s.draft := rfl

@[simp] theorem setTx_next (s : Store σ) (p : Pid) (x : Option Tx) :
    (s.setTx p x).next = s.next := rfl

@[simp] theorem setTx_clock (s : Store σ) (p : Pid) (x : Option Tx) :
    (s.setTx p x).clock = s.clock := rfl

@[simp] theorem setTx_tx_self (s : Store σ) (p : Pid) (x : Option Tx) :
    (s.setTx p x).tx p = x := by
  simp [setTx]

theorem setTx_tx_other (s : Store σ) {p q : Pid} (x : Option Tx) (hpid : q ≠ p) :
    (s.setTx p x).tx q = s.tx q := by
  simp [setTx, Function.update_of_ne hpid]

@[simp] theorem finish_born (s : Store σ) (p : Pid) (keep : Bool) :
    (s.finish p keep).born = s.born := rfl

@[simp] theorem finish_next (s : Store σ) (p : Pid) (keep : Bool) :
    (s.finish p keep).next = s.next := rfl

@[simp] theorem finish_clock (s : Store σ) (p : Pid) (keep : Bool) :
    (s.finish p keep).clock = s.clock := rfl

@[simp] theorem finish_tx_self (s : Store σ) (p : Pid) (keep : Bool) :
    (s.finish p keep).tx p = none := by
  simp [finish]

theorem finish_tx_other (s : Store σ) {p q : Pid} (keep : Bool) (hpid : q ≠ p) :
    (s.finish p keep).tx q = s.tx q := by
  simp [finish, Function.update_of_ne hpid]

@[simp] theorem finish_draft_self (s : Store σ) (p : Pid) (keep : Bool) :
    (s.finish p keep).draft p = Drafts.empty := by
  funext t id
  simp [finish, draft]

theorem finish_draft_other (s : Store σ) {p q : Pid} (keep : Bool) (hpid : q ≠ p) :
    (s.finish p keep).draft q = s.draft q := by
  funext t id
  simp [finish, draft, Cell.draft_settle_other _ hpid]

/-- A kept transaction commits exactly its drafts. -/
theorem finish_stored_keep (s : Store σ) (p : Pid) :
    (s.finish p true).stored = (s.draft p).onto s.stored := by
  funext t id
  simp [finish, stored, draft, Drafts.onto, Cell.stored_settle]

@[simp] theorem finish_stored_drop (s : Store σ) (p : Pid) :
    (s.finish p false).stored = s.stored := by
  funext t id
  simp [finish, stored, Cell.stored_settle]

theorem setCell_cell (s : Store σ) (t t' : σ.Tbl) (id id' : Nat)
    (c : Cell (σ.Row t)) (P : Cell (σ.Row t') → Prop)
    (hnew : ∀ h : t = t', id' = id → P (h ▸ c))
    (hold : ¬(t' = t ∧ id' = id) → P ((s.table t').cell id')) :
    P (((s.setCell t id c).table t').cell id') := by
  by_cases htable : t' = t
  · subst htable
    by_cases hid : id' = id
    · subst hid
      simpa [setCell] using hnew rfl rfl
    · simpa [setCell, hid] using hold fun h => hid h.2
  · simpa [setCell, Function.update_of_ne htable] using hold fun h => htable h.1

@[simp] theorem hold_stored (s : Store σ) (p : Pid) (t : σ.Tbl) (id : Nat)
    (r : Option (σ.Row t)) : (s.hold p t id r).stored = s.stored := by
  funext t' id'
  exact setCell_cell s t t' id id' _ (fun c => c.stored = s.stored t' id')
    (fun htable hid => by subst htable; subst hid; rfl) (fun _ => rfl)

@[simp] theorem hold_born (s : Store σ) (p : Pid) (t : σ.Tbl) (id : Nat)
    (r : Option (σ.Row t)) : (s.hold p t id r).born = s.born := by
  funext t' id'
  by_cases htable : t' = t
  · subst htable
    simp [hold, setCell, born]
  · simp [hold, setCell, born, Function.update_of_ne htable]

@[simp] theorem hold_next (s : Store σ) (p : Pid) (t : σ.Tbl) (id : Nat)
    (r : Option (σ.Row t)) : (s.hold p t id r).next = s.next := by
  funext t'
  by_cases htable : t' = t
  · subst htable
    simp [hold, setCell, next]
  · simp [hold, setCell, next, Function.update_of_ne htable]

@[simp] theorem hold_clock (s : Store σ) (p : Pid) (t : σ.Tbl) (id : Nat)
    (r : Option (σ.Row t)) : (s.hold p t id r).clock = s.clock := rfl

@[simp] theorem hold_tx (s : Store σ) (p : Pid) (t : σ.Tbl) (id : Nat)
    (r : Option (σ.Row t)) : (s.hold p t id r).tx = s.tx := rfl

theorem hold_draft_self (s : Store σ) (p : Pid) (t : σ.Tbl) (id : Nat)
    (r : Option (σ.Row t)) :
    (s.hold p t id r).draft p = (s.draft p).set t id r := by
  funext t' id'
  refine setCell_cell s t t' id id' _
    (fun c => c.draft p = (s.draft p).set t id r t' id') ?_ ?_
  · intro htable hid
    subst htable
    subst hid
    simp [Cell.draft]
  · intro hother
    by_cases htable : t' = t
    · subst htable
      rw [Drafts.set_apply, if_neg fun hid => hother ⟨rfl, hid⟩]
      rfl
    · rw [Drafts.set_other _ _ _ htable]
      rfl

theorem hold_draft_other (s : Store σ) {p q : Pid} (t : σ.Tbl) (id : Nat)
    (r : Option (σ.Row t)) (hpid : q ≠ p)
    (hfree : ((s.table t).cell id).lockedAgainst p = false) :
    (s.hold p t id r).draft q = s.draft q := by
  funext t' id'
  refine setCell_cell s t t' id id' _ (fun c => c.draft q = s.draft q t' id') ?_
    (fun _ => rfl)
  intro htable hid
  subst htable
  subst hid
  have hnone : s.draft q t id' = none := by
    unfold draft Cell.draft
    unfold Cell.lockedAgainst at hfree
    cases hlock : ((s.table t).cell id').lock with
    | none => rfl
    | some owner =>
        simp only [hlock, decide_eq_false_iff_not, not_not] at hfree
        simp only [hfree]
        rw [if_neg fun heq => hpid heq.symm]
  rw [hnone]
  simp [Cell.draft, Ne.symm hpid]

section Push

variable (s : Store σ) (p : Pid) (t : σ.Tbl) (r : σ.Row t)

theorem push_cell (t' : σ.Tbl) (id : Nat) (P : Cell (σ.Row t') → Prop)
    (hnew : ∀ h : t = t', id = s.next t →
      P (h ▸ { stored := none, lock := some (p, some r) }))
    (hold : ¬(t' = t ∧ id = s.next t) → P ((s.table t').cell id)) :
    P (((s.push p t r).table t').cell id) := by
  by_cases htable : t' = t
  · subst htable
    by_cases hid : id = s.next t'
    · subst hid
      simpa [push, next] using hnew rfl rfl
    · have hne : id ≠ (s.table t').next := hid
      simpa [push, hne] using hold fun h => hid h.2
  · simpa [push, Function.update_of_ne htable] using hold fun h => htable h.1

@[simp] theorem push_clock : (s.push p t r).clock = s.clock := rfl

@[simp] theorem push_tx : (s.push p t r).tx = s.tx := rfl

theorem push_next (t' : σ.Tbl) :
    (s.push p t r).next t' = if t' = t then s.next t' + 1 else s.next t' := by
  by_cases htable : t' = t
  · subst htable
    simp [push, next]
  · simp [push, next, htable]

theorem push_born (t' : σ.Tbl) (id : Nat) (b : Option (Pid × σ.Row t'))
    (hnew : ∀ h : t = t', id = s.next t → h ▸ some (p, r) = b)
    (hold : ¬(t' = t ∧ id = s.next t) → s.born t' id = b) :
    (s.push p t r).born t' id = b := by
  by_cases htable : t' = t
  · subst htable
    by_cases hid : id = s.next t'
    · subst hid
      simpa [push, next, born] using hnew rfl rfl
    · have hne : id ≠ (s.table t').next := hid
      simpa [push, born, hne] using hold fun h => hid h.2
  · simpa [push, born, Function.update_of_ne htable] using hold fun h => htable h.1

/-- The record of insertions after an insert. -/
theorem push_born_self (id : Nat) : (s.push p t r).born t id =
    if id = s.next t then some (p, r) else s.born t id := by
  refine push_born s p t r t id _ ?_ ?_
  · intro _ hid
    rw [if_pos hid]
  · intro hother
    rw [if_neg fun hid => hother ⟨rfl, hid⟩]

theorem push_born_other {t' : σ.Tbl} (htable : t' ≠ t) (id : Nat) :
    (s.push p t r).born t' id = s.born t' id :=
  push_born s p t r t' id _ (fun hsame => absurd hsame.symm htable) fun _ => rfl

/-- The new row is not committed yet. -/
theorem push_stored (hvacant : s.stored t (s.next t) = none) :
    (s.push p t r).stored = s.stored := by
  funext t' id
  refine push_cell s p t r t' id (fun c => c.stored = s.stored t' id) ?_ fun _ => rfl
  intro htable hid
  subst htable
  subst hid
  exact hvacant.symm

theorem push_draft_self : (s.push p t r).draft p =
    (s.draft p).set t (s.next t) (some r) := by
  funext t' id
  refine push_cell s p t r t' id
    (fun c => c.draft p = (s.draft p).set t (s.next t) (some r) t' id) ?_ ?_
  · intro htable hid
    subst htable
    subst hid
    simp [Cell.draft]
  · intro hother
    by_cases htable : t' = t
    · subst htable
      rw [Drafts.set_apply, if_neg fun hid => hother ⟨rfl, hid⟩]
      rfl
    · rw [Drafts.set_other _ _ _ htable]
      rfl

theorem push_draft_other {q : Pid} (hpid : q ≠ p)
    (hvacant : s.draft q t (s.next t) = none) :
    (s.push p t r).draft q = s.draft q := by
  funext t' id
  refine push_cell s p t r t' id (fun c => c.draft q = s.draft q t' id) ?_ fun _ => rfl
  intro htable hid
  subst htable
  subst hid
  rw [hvacant]
  simp [Cell.draft, Ne.symm hpid]

end Push

section Cases

variable {s s' : Store σ} {p : Pid}

theorem begin_cases {res : Unit} (hexec : s.exec p .begin = some (res, s')) :
    s.tx p = none ∧
      s' = s.setTx p (some { startedAt := s.clock, aborted := false }) := by
  simp only [exec] at hexec
  split at hexec
  · rename_i hnone
    exact ⟨hnone, by simpa using hexec.symm⟩
  · cases hexec

theorem commit_cases {kept : Bool} (hexec : s.exec p .commit = some (kept, s')) :
    ∃ x, s.tx p = some x ∧ kept = !x.aborted ∧ s' = s.finish p kept := by
  simp only [exec] at hexec
  split at hexec
  · cases hexec
  · rename_i x hopen
    obtain ⟨rfl, rfl⟩ : (!x.aborted) = kept ∧ s.finish p (!x.aborted) = s' := by
      simpa using hexec
    exact ⟨x, hopen, rfl, rfl⟩

theorem rollback_cases {res : Unit} (hexec : s.exec p .rollback = some (res, s')) :
    s' = s.finish p false := by
  simp only [exec] at hexec
  split at hexec
  · cases hexec
  · simpa using hexec.symm

theorem read_cases {conn : Conn} {res : Except SqlError (Snapshot σ)}
    (hexec : s.exec p (.read conn) = some (res, s')) :
    s' = s ∧
      match conn with
      | .pool => res = .ok (s.snapshot s.clock s.stored)
      | .manager => ∃ x, s.tx p = some x ∧
          (x.aborted = true ∧ res = .error .inFailedTransaction ∨
            x.aborted = false ∧ res = .ok (s.snapshot x.startedAt fun t id =>
              ((s.draft p) t id).getD (s.stored t id))) := by
  cases conn with
  | pool =>
      have hpair : Except.ok (s.snapshot s.clock s.stored) = res ∧ s = s' := by
        simpa [exec, execRead] using hexec
      exact ⟨hpair.2.symm, hpair.1.symm⟩
  | manager =>
      simp only [exec, execRead] at hexec
      split at hexec
      · cases hexec
      · rename_i x hopen
        split at hexec
        · rename_i haborted
          have hpair := Option.some.inj hexec
          exact ⟨(congrArg Prod.snd hpair).symm, x, hopen,
            Or.inl ⟨haborted, (congrArg Prod.fst hpair).symm⟩⟩
        · rename_i hactive
          have hpair := Option.some.inj hexec
          exact ⟨(congrArg Prod.snd hpair).symm, x, hopen,
            Or.inr ⟨by simpa using hactive, (congrArg Prod.fst hpair).symm⟩⟩

/-- The version of a row that a statement of `p` sees. -/
def seen (s : Store σ) (p : Pid) (t : σ.Tbl) (id : Nat) : Option (σ.Row t) :=
  (s.draft p t id).getD (s.stored t id)

theorem touch_cases {t : σ.Tbl} {id : Nat} {where_ : Time → σ.Row t → Bool}
    {set : Time → Change σ t} {res : Except SqlError (Option (σ.Row t))}
    (hexec : s.exec p (.touch t id where_ set) = some (res, s')) :
    ∃ x, s.tx p = some x ∧
      (x.aborted = true ∧ res = .error .inFailedTransaction ∧ s' = s ∨
        x.aborted = false ∧ ((s.table t).cell id).lockedAgainst p = false ∧
          (res = .ok none ∧ s' = s ∧
              (∀ r, s.seen p t id = some r → where_ x.startedAt r = false) ∨
            ∃ r, s.seen p t id = some r ∧ where_ x.startedAt r = true ∧
              res = .ok (some r) ∧
              s' = s.hold p t id ((set x.startedAt).apply r))) := by
  simp only [exec, execTouch] at hexec
  split at hexec
  · cases hexec
  · rename_i x hopen
    refine ⟨x, hopen, ?_⟩
    split at hexec
    · rename_i haborted
      have hpair := Option.some.inj hexec
      exact Or.inl ⟨haborted, (congrArg Prod.fst hpair).symm,
        (congrArg Prod.snd hpair).symm⟩
    · rename_i hactive
      split at hexec
      · cases hexec
      · rename_i hfree
        refine Or.inr ⟨by simpa using hactive, by simpa using hfree, ?_⟩
        split at hexec
        · rename_i hview
          have hpair := Option.some.inj hexec
          refine Or.inl ⟨(congrArg Prod.fst hpair).symm,
            (congrArg Prod.snd hpair).symm, ?_⟩
          intro r hseen
          rw [show s.seen p t id = none from hview] at hseen
          cases hseen
        · rename_i r hview
          split at hexec
          · rename_i hwhere
            have hpair := Option.some.inj hexec
            exact Or.inr ⟨r, hview, hwhere, (congrArg Prod.fst hpair).symm,
              (congrArg Prod.snd hpair).symm⟩
          · rename_i hwhere
            have hpair := Option.some.inj hexec
            refine Or.inl ⟨(congrArg Prod.fst hpair).symm,
              (congrArg Prod.snd hpair).symm, ?_⟩
            intro r' hseen
            have hsame : r' = r := Option.some.inj (hseen.symm.trans hview)
            rw [hsame]
            simpa using hwhere

/-- Why an insert is refused. -/
def Refuses (s : Store σ) (p : Pid) (t : σ.Tbl) (r : σ.Row t) : SqlError → Prop
  | .dataException => σ.admits t r = false
  | .uniqueViolation => ∃ id r', σ.clash t r r' = true ∧
      (s.stored t id = some r' ∨ s.draft p t id = some (some r'))
  | .foreignKeyViolation => ∃ ref ∈ σ.refs t r, s.seen p ref.1 ref.2 = none
  | .inFailedTransaction => False

/-- What an accepted row satisfies. -/
structure Accepts (s : Store σ) (p : Pid) (t : σ.Tbl) (r : σ.Row t) : Prop where
  admitted : σ.admits t r = true
  free : ∀ id, id < s.next t →
    ((s.table t).cell id).maybe p (σ.clash t r) = false
  referenced : ∀ ref ∈ σ.refs t r, (s.seen p ref.1 ref.2).isSome = true

theorem insert_cases {t : σ.Tbl} {row : Time → σ.Row t}
    {res : Except SqlError (Nat × σ.Row t)}
    (hexec : s.exec p (.insert t row) = some (res, s')) :
    ∃ x, s.tx p = some x ∧
      (x.aborted = true ∧ res = .error .inFailedTransaction ∧ s' = s ∨
        x.aborted = false ∧
          ((∃ e, s.Refuses p t (row x.startedAt) e ∧ res = .error e ∧
              s' = s.setTx p (some { x with aborted := true })) ∨
            s.Accepts p t (row x.startedAt) ∧
              res = .ok (s.next t, row x.startedAt) ∧
              s' = s.push p t (row x.startedAt))) := by
  simp only [exec, execInsert] at hexec
  split at hexec
  · cases hexec
  · rename_i x hopen
    refine ⟨x, hopen, ?_⟩
    split at hexec
    · rename_i haborted
      have hpair := Option.some.inj hexec
      exact Or.inl ⟨haborted, (congrArg Prod.fst hpair).symm,
        (congrArg Prod.snd hpair).symm⟩
    · rename_i hactive
      refine Or.inr ⟨by simpa using hactive, ?_⟩
      split at hexec
      · rename_i hadmits
        have hpair := Option.some.inj hexec
        exact Or.inl ⟨.dataException, hadmits, (congrArg Prod.fst hpair).symm,
          (congrArg Prod.snd hpair).symm⟩
      · rename_i hadmits
        split at hexec
        · rename_i halways
          have hpair := Option.some.inj hexec
          refine Or.inl ⟨.uniqueViolation, ?_, (congrArg Prod.fst hpair).symm,
            (congrArg Prod.snd hpair).symm⟩
          obtain ⟨id, -, hcell⟩ := List.any_eq_true.mp halways
          rcases Cell.always_cases hcell with ⟨r', hstored, hclash⟩ | ⟨r', hdraft, hclash⟩
          · exact ⟨id, r', hclash, Or.inl hstored⟩
          · exact ⟨id, r', hclash, Or.inr hdraft⟩
        · split at hexec
          · cases hexec
          · rename_i hmaybe
            split at hexec
            · rename_i hrefs
              have hpair := Option.some.inj hexec
              refine Or.inl ⟨.foreignKeyViolation, ?_,
                (congrArg Prod.fst hpair).symm, (congrArg Prod.snd hpair).symm⟩
              obtain ⟨ref, href, hnone⟩ := List.all_eq_false.mp hrefs
              exact ⟨ref, href, Option.not_isSome_iff_eq_none.mp hnone⟩
            · rename_i hrefs
              have hpair := Option.some.inj hexec
              refine Or.inr ⟨⟨by simpa using hadmits, ?_, ?_⟩,
                (congrArg Prod.fst hpair).symm, (congrArg Prod.snd hpair).symm⟩
              · intro id hid
                by_contra hbad
                refine hmaybe (List.any_eq_true.mpr
                  ⟨id, List.mem_range.mpr hid, by simpa using hbad⟩)
              · intro ref href
                have hall : s.refsVisible p t (row x.startedAt) = true := by
                  simpa using hrefs
                exact List.all_eq_true.mp hall ref href

end Cases

end Store

end Transact
