import Mes.Transact.Brackets

/-!
Locks taken in order. A transaction holds the rows that it has locked and the rows that it
has inserted; `Climbs` follows along a program what it holds, and asks that it never waits
for a row below one that it holds already. Rows are ordered by the rank of their table,
then the locked ones before the inserted ones, then by number. Whoever waits to insert a
row waits for an inserted row, as an update keeps the columns of the unique indexes.

What a transaction sees may depend on what it holds. `Shows` is what a program may rely on
there, and `Honest` says that it is true of a store. Requests that are not careful need not
climb. A program starts only tasks.
-/

namespace Transact

variable {σ : Schema} {P : Platform} {α β : Type}

/-- A row of a transaction: the committed version beneath it, if there is one, and the
version that the transaction would commit. -/
structure Hold (ρ : Type) where
  base : Option ρ
  draft : Option ρ

/-- The rows that a transaction holds. -/
abbrev Holdings (σ : Schema) := (t : σ.Tbl) → Nat → Option (Hold (σ.Row t))

/-- The place of a row in the order. -/
abbrev Place := Lex (Nat × Lex (Bool × Nat))

def rowPlace (rank : σ.Tbl → Nat) (t : σ.Tbl) (fresh : Bool) (id : Nat) : Place :=
  toLex (rank t, toLex (fresh, id))

section Places

variable {rank : σ.Tbl → Nat} {t t' : σ.Tbl}

theorem place_rank (hrank : rank t < rank t') (fresh fresh' : Bool) (id id' : Nat) :
    rowPlace rank t fresh id < rowPlace rank t' fresh' id' :=
  Prod.Lex.toLex_lt_toLex.mpr (Or.inl hrank)

theorem place_fresh (id id' : Nat) : rowPlace rank t false id < rowPlace rank t true id' :=
  Prod.Lex.toLex_lt_toLex.mpr
    (Or.inr ⟨rfl, Prod.Lex.toLex_lt_toLex.mpr (Or.inl Bool.false_lt_true)⟩)

theorem place_id {id id' : Nat} (hid : id < id') (fresh : Bool) :
    rowPlace rank t fresh id < rowPlace rank t fresh id' :=
  Prod.Lex.toLex_lt_toLex.mpr (Or.inr ⟨rfl, Prod.Lex.toLex_lt_toLex.mpr (Or.inr ⟨rfl, hid⟩)⟩)

theorem place_least (fresh : Bool) (id : Nat) :
    rowPlace rank t false id ≤ rowPlace rank t fresh id := by
  cases fresh with
  | false => exact le_refl _
  | true => exact (place_fresh id id).le

theorem place_zero (id : Nat) : rowPlace rank t true 0 ≤ rowPlace rank t true id := by
  cases id with
  | zero => exact le_refl _
  | succ id => exact (place_id (Nat.succ_pos id) true).le

end Places

namespace Holdings

def empty : Holdings σ := fun _ _ => none

def set (H : Holdings σ) (t : σ.Tbl) (id : Nat) (h : Hold (σ.Row t)) : Holdings σ :=
  Function.update H t (Function.update (H t) id (some h))

/-- After a statement has locked a row and set its next version. -/
def lock (H : Holdings σ) (t : σ.Tbl) (id : Nat) (found : σ.Row t) (new : Option (σ.Row t)) :
    Holdings σ :=
  H.set t id { base := (H t id).elim (some found) Hold.base, draft := new }

/-- After the insertion of a row. -/
def add (H : Holdings σ) (t : σ.Tbl) (id : Nat) (r : σ.Row t) : Holdings σ :=
  H.set t id { base := none, draft := some r }

variable {H : Holdings σ} {t : σ.Tbl} {id : Nat} {h : Hold (σ.Row t)}

@[simp] theorem set_self : H.set t id h t id = some h := by
  simp [set]

theorem set_elim {R : (t' : σ.Tbl) → Nat → Option (Hold (σ.Row t')) → Prop}
    (hnew : R t id (some h))
    (hold : ∀ t' id', ¬(t' = t ∧ id' = id) → R t' id' (H t' id')) (t' : σ.Tbl) (id' : Nat) :
    R t' id' (H.set t id h t' id') := by
  by_cases htable : t' = t
  · subst htable
    by_cases hid : id' = id
    · rw [hid, set_self]
      exact hnew
    · simp only [set, Function.update_self, Function.update_of_ne hid]
      exact hold t' id' fun hboth => hid hboth.2
  · simp only [set, Function.update_of_ne htable]
    exact hold t' id' fun hboth => htable hboth.1

theorem set_other {t' : σ.Tbl} (htable : t' ≠ t) : H.set t id h t' = H t' := by
  simp [set, Function.update_of_ne htable]

/-- Every row held lies below the place. -/
def Below (rank : σ.Tbl → Nat) (H : Holdings σ) (place' : Place) : Prop :=
  ∀ t id h, H t id = some h → rowPlace rank t h.base.isNone id < place'

/-- Every row held is of a table of lower rank. -/
def Under (rank : σ.Tbl → Nat) (H : Holdings σ) (n : Nat) : Prop :=
  ∀ t id h, H t id = some h → rank t < n

/-- Nothing that is held will be deleted, or can be told apart from the committed version
by a unique index. -/
def Tame (H : Holdings σ) : Prop :=
  ∀ t id h, H t id = some h → ∃ r, h.draft = some r ∧
    ∀ old, h.base = some old → ∀ x, σ.clash t r x = σ.clash t old x

variable {rank : σ.Tbl → Nat} {n : Nat}

theorem empty_below (place' : Place) : (empty : Holdings σ).Below rank place' :=
  fun _ _ _ hheld => by cases hheld

theorem empty_under : (empty : Holdings σ).Under rank n :=
  fun _ _ _ hheld => by cases hheld

theorem Under.below (hunder : H.Under rank n) (hrank : n ≤ rank t) (fresh : Bool) :
    H.Below rank (rowPlace rank t fresh id) :=
  fun t' id' h hheld => place_rank (lt_of_lt_of_le (hunder t' id' h hheld) hrank) _ _ _ _

theorem Under.set (hunder : H.Under rank n) (hrank : rank t < n) : (H.set t id h).Under rank n :=
  fun t' id' => set_elim (R := fun t' _ e => ∀ h', e = some h' → rank t' < n)
    (fun _ _ => hrank) (fun t' id' _ h' hheld => hunder t' id' h' hheld) t' id'

theorem Below.set {place' : Place} (hbelow : H.Below rank place')
    (hlt : rowPlace rank t h.base.isNone id < place') : (H.set t id h).Below rank place' :=
  fun t' id' => set_elim (R := fun t' i e => ∀ h', e = some h' →
      rowPlace rank t' h'.base.isNone i < place')
    (fun h' hh => by rw [← Option.some.inj hh]; exact hlt)
    (fun t' i _ h' hheld => hbelow t' i h' hheld) t' id'

theorem Tame.set (htame : H.Tame) {r : σ.Row t} (hdraft : h.draft = some r)
    (halike : ∀ old, h.base = some old → ∀ x, σ.clash t r x = σ.clash t old x) :
    (H.set t id h).Tame :=
  fun t' id' => set_elim (R := fun t' _ e => ∀ h', e = some h' → ∃ r', h'.draft = some r' ∧
      ∀ old, h'.base = some old → ∀ x, σ.clash t' r' x = σ.clash t' old x)
    (fun h' hh => by rw [← Option.some.inj hh]; exact ⟨r, hdraft, halike⟩)
    (fun t' i _ h' hheld => htame t' i h' hheld) t' id'

theorem set_isSome {t' : σ.Tbl} {id' : Nat} (hheld : (H t' id').isSome = true) :
    (H.set t id h t' id').isSome = true :=
  set_elim (R := fun t' i e => (H t' i).isSome = true → e.isSome = true)
    (fun _ => rfl) (fun _ _ _ hsome => hsome) t' id' hheld

theorem Under.mono (hunder : H.Under rank n) {m : Nat} (hle : n ≤ m) : H.Under rank m :=
  fun t id h hheld => lt_of_lt_of_le (hunder t id h hheld) hle

end Holdings

/-! ### What a store knows of it -/

/-- What the program `p` holds in the store, `none` outside a transaction. -/
structure Tracks (H : Option (Holdings σ)) (s : Store σ) (p : Pid) : Prop where
  tx : (s.tx p).isSome = H.isSome
  draft : ∀ t id, s.draft p t id = (H.getD Holdings.empty t id).map Hold.draft
  base : ∀ held t id h, H = some held → held t id = some h → s.stored t id = h.base

theorem tracks_idle {s : Store σ} (hwf : s.Wf) {p : Pid} (hidle : s.tx p = none) :
    Tracks none s p where
  tx := by rw [hidle]; rfl
  draft := fun t id => by
    show s.draft p t id = none
    rw [Option.eq_none_iff_forall_ne_some]
    intro r hdraft
    have hopen := hwf.inTx p t id r hdraft
    rw [hidle] at hopen
    cases hopen
  base := nofun

/-- The others leave it alone. -/
theorem Tracks.acts {H : Option (Holdings σ)} {s s' : Store σ} {p q : Pid}
    (htracks : Tracks H s p) (hacts : s.Acts q s') (hpid : p ≠ q) : Tracks H s' p where
  tx := by rw [hacts.txOther p hpid, htracks.tx]
  draft := fun t id => by rw [hacts.draftOther p hpid, htracks.draft]
  base := fun held t id h hsome hheld => by
    have hdraft : s.draft p t id = some h.draft := by
      rw [htracks.draft, hsome]
      show (held t id).map Hold.draft = _
      rw [hheld]
      rfl
    rw [hacts.stored_locked hpid hdraft]
    exact htracks.base held t id h hsome hheld

/-- The order of the tables, what a transaction is shown by its queries, the requests that
climb, and those that a program may start. -/
structure LockOrder (σ : Schema) (P : Platform) where
  rank : σ.Tbl → Nat
  Shows : Holdings σ → Snapshot σ → Prop
  careful : P.Req → Prop
  tasks : P.Req → Prop

/-- Every query of a transaction shows it what the order relies on. -/
def LockOrder.Honest (O : LockOrder σ P) (s : Store σ) : Prop :=
  ∀ p held now, Tracks (some held) s p → O.Shows held (s.snapshot now (s.seen p))

/-! ### Programs that climb -/

/-- The statement is possible, and in its place. A program that need not climb only has to
have its transaction open. -/
def Stmt.Climbs (O : LockOrder σ P) (strict : Prop) (H : Option (Holdings σ)) : Stmt σ → Prop
  | .begin => H = none
  | .commit => H.isSome = true
  | .rollback => H.isSome = true
  | .read .pool => True
  | .read .manager => H.isSome = true
  | .touch t id _ set => ∃ held, H = some held ∧ (strict →
      (∀ now r, ((set now).apply r).isSome = true) ∧
        ((held t id).isSome = true ∨ held.Below O.rank (rowPlace O.rank t false id)))
  | .insert t _ => ∃ held, H = some held ∧
      (strict → held.Below O.rank (rowPlace O.rank t true 0))

def Call.Climbs (O : LockOrder σ P) (strict : Prop) (H : Option (Holdings σ)) : Call σ P → Prop
  | .sql stmt => stmt.Climbs O strict H
  | .node _ => True
  | .fork req => O.tasks req

/-- What an answer tells, and what is held afterwards. -/
def Stmt.Grants (O : LockOrder σ P) (H : Option (Holdings σ)) :
    (stmt : Stmt σ) → stmt.Res → Option (Holdings σ) → Prop
  | .begin, _, H' => H' = some Holdings.empty
  | .commit, _, H' => H' = none
  | .rollback, _, H' => H' = none
  | .read .pool, _, H' => H' = H
  | .read .manager, res, H' =>
      H' = H ∧ ∀ held s, H = some held → res = .ok s → O.Shows held s
  | .touch t id where_ set, res, H' =>
      (∀ r, res ≠ .ok (some r)) ∧ H' = H ∨ ∃ held now r, H = some held ∧ res = .ok (some r) ∧
        where_ now r = true ∧ (∀ h, held t id = some h → h.draft = some r) ∧
          H' = some (held.lock t id r ((set now).apply r))
  | .insert t _, res, H' =>
      (∃ e, res = .error e) ∧ H' = H ∨ ∃ held id r, H = some held ∧ res = .ok (id, r) ∧
        H' = some (held.add t id r)

def Call.Grants (O : LockOrder σ P) (H : Option (Holdings σ)) :
    (c : Call σ P) → c.Res → Option (Holdings σ) → Prop
  | .sql stmt, res, H' => stmt.Grants O H res H'
  | .node _, _, H' => H' = H
  | .fork _, _, H' => H' = H

/-- The program climbs, and ends with what `R` says after a value and `E` after an error. -/
def LockOrder.Climbs (O : LockOrder σ P) (strict : Prop) (R : α → Option (Holdings σ) → Prop)
    (E : Option (Holdings σ) → Prop) : Option (Holdings σ) → Code σ P α → Prop
  | H, .ret a => R a H
  | H, .throw _ => E H
  | H, .step c k => c.Climbs O strict H ∧
      ∀ res H', c.Grants O H res H' → O.Climbs strict R E H' (k res)

/-! ### Soundness -/

variable {O : LockOrder σ P} {strict : Prop} {H : Option (Holdings σ)} {p : Pid}

theorem Tracks.draft_some {held : Holdings σ} {s : Store σ} (htracks : Tracks (some held) s p)
    (t : σ.Tbl) (id : Nat) : s.draft p t id = (held t id).map Hold.draft :=
  htracks.draft t id

/-- A row that a transaction sees is the draft of a row that it holds, or committed. -/
theorem Tracks.seen {held : Holdings σ} {s : Store σ} (htracks : Tracks (some held) s p)
    (t : σ.Tbl) (id : Nat) : s.seen p t id = (held t id).elim (s.stored t id) Hold.draft := by
  rw [Store.seen, htracks.draft_some]
  cases held t id <;> rfl

/-- A transaction takes one row more. -/
theorem Tracks.set {held : Holdings σ} {s s' : Store σ} (htracks : Tracks (some held) s p)
    {t : σ.Tbl} {id : Nat} {h : Hold (σ.Row t)} (htx : s'.tx = s.tx)
    (hdraft : s'.draft p = (s.draft p).set t id h.draft) (hstored : s'.stored = s.stored)
    (hbase : s.stored t id = h.base) : Tracks (some (held.set t id h)) s' p where
  tx := by rw [htx]; exact htracks.tx
  draft := fun t' id' => by
    rw [hdraft]
    show (s.draft p).set t id h.draft t' id' = (held.set t id h t' id').map Hold.draft
    refine Holdings.set_elim (R := fun t' id' e =>
      (s.draft p).set t id h.draft t' id' = e.map Hold.draft) ?_ ?_ t' id'
    · simp
    · intro t' id' hne
      rw [← htracks.draft_some]
      by_cases htable : t' = t
      · subst htable
        rw [Drafts.set_apply, if_neg fun hid => hne ⟨rfl, hid⟩]
      · rw [Drafts.set_other _ _ _ htable]
  base := fun held' t' id' h' hsome hheld => by
    obtain rfl := Option.some.inj hsome
    rw [hstored]
    revert h'
    refine Holdings.set_elim (R := fun t' id' e =>
      ∀ h', e = some h' → s.stored t' id' = h'.base) ?_ ?_ t' id'
    · intro h' hh
      rw [← Option.some.inj hh]
      exact hbase
    · exact fun t' id' _ h' hheld => htracks.base held t' id' h' rfl hheld

theorem Tracks.lock {held : Holdings σ} {s : Store σ} (htracks : Tracks (some held) s p)
    {t : σ.Tbl} {id : Nat} {r : σ.Row t} (hseen : s.seen p t id = some r)
    (new : Option (σ.Row t)) :
    Tracks (some (held.lock t id r new)) (s.hold p t id new) p := by
  refine htracks.set (Store.hold_tx ..) (Store.hold_draft_self ..) (Store.hold_stored ..) ?_
  rw [htracks.seen] at hseen
  cases hold : held t id with
  | none =>
      rw [hold] at hseen
      exact hseen
  | some h => exact htracks.base held t id h rfl hold

theorem Tracks.add {held : Holdings σ} {s : Store σ} (hwf : s.Wf)
    (htracks : Tracks (some held) s p) (t : σ.Tbl) (r : σ.Row t) :
    Tracks (some (held.add t (s.next t) r)) (s.push p t r) p := by
  have hvacant := (hwf.vacant t _ (le_refl _)).1
  exact htracks.set (Store.push_tx ..) (Store.push_draft_self ..)
    (Store.push_stored s p t r hvacant) hvacant

/-- Ending a transaction releases everything. -/
theorem tracks_finish {s : Store σ} (p : Pid) (keep : Bool) : Tracks none (s.finish p keep) p where
  tx := by rw [Store.finish_tx_self]; rfl
  draft := fun t id => by rw [Store.finish_draft_self]; rfl
  base := nofun

theorem Tracks.failed {held : Holdings σ} {s : Store σ} (htracks : Tracks (some held) s p)
    (x : Tx) : Tracks (some held) (s.setTx p (some x)) p where
  tx := by rw [Store.setTx_tx_self]; rfl
  draft := htracks.draft
  base := htracks.base

theorem Tracks.open {s : Store σ} {x : Tx} (hopen : s.tx p = some x)
    (htracks : Tracks H s p) : ∃ held, H = some held := by
  have htx := htracks.tx
  rw [hopen] at htx
  exact Option.isSome_iff_exists.mp htx.symm

/-- A statement grants what the store then holds. -/
theorem Tracks.exec {s s' : Store σ} (hwf : s.Wf) (hhonest : O.Honest s)
    (htracks : Tracks H s p) {stmt : Stmt σ} {res : stmt.Res}
    (hexec : s.exec p stmt = some (res, s')) :
    ∃ H', stmt.Grants O H res H' ∧ Tracks H' s' p := by
  cases stmt with
  | begin =>
      obtain ⟨hidle, rfl⟩ := Store.begin_cases hexec
      have hnone := (tracks_idle hwf hidle).draft
      refine ⟨some Holdings.empty, rfl, ?_, fun t id => hnone t id, ?_⟩
      · rw [Store.setTx_tx_self]
        rfl
      · rintro held t id h hsome hheld
        obtain rfl := Option.some.inj hsome
        cases hheld
  | commit =>
      obtain ⟨x, -, -, rfl⟩ := Store.commit_cases hexec
      exact ⟨none, rfl, tracks_finish p _⟩
  | rollback =>
      rw [Store.rollback_cases hexec]
      exact ⟨none, rfl, tracks_finish p _⟩
  | read conn =>
      obtain ⟨rfl, hanswer⟩ := Store.read_cases hexec
      cases conn with
      | pool => exact ⟨H, rfl, htracks⟩
      | manager =>
          obtain ⟨x, -, hcases⟩ := hanswer
          refine ⟨H, ⟨rfl, ?_⟩, htracks⟩
          rintro held shown rfl hres
          rcases hcases with ⟨-, hfailed⟩ | ⟨-, hshown⟩
          · rw [hfailed] at hres
            cases hres
          · rw [hshown] at hres
            rw [← Except.ok.inj hres]
            exact hhonest p held x.startedAt htracks
  | touch t id where_ set =>
      obtain ⟨x, hopen, hcases⟩ := Store.touch_cases hexec
      rcases hcases with ⟨-, rfl, rfl⟩ | ⟨-, hfree, ⟨rfl, rfl, -⟩ | ⟨r, hseen, hwhere, rfl, rfl⟩⟩
      · exact ⟨H, Or.inl ⟨nofun, rfl⟩, htracks⟩
      · exact ⟨H, Or.inl ⟨nofun, rfl⟩, htracks⟩
      · obtain ⟨held, rfl⟩ := htracks.open hopen
        refine ⟨_, Or.inr ⟨held, x.startedAt, r, rfl, rfl, hwhere, ?_, rfl⟩,
          htracks.lock hseen _⟩
        intro h hheld
        rw [htracks.seen, hheld] at hseen
        exact hseen
  | insert t row =>
      obtain ⟨x, hopen, hcases⟩ := Store.insert_cases hexec
      obtain ⟨held, rfl⟩ := htracks.open hopen
      rcases hcases with ⟨-, rfl, rfl⟩ | ⟨-, ⟨e, -, rfl, rfl⟩ | ⟨-, rfl, rfl⟩⟩
      · exact ⟨some held, Or.inl ⟨⟨_, rfl⟩, rfl⟩, htracks⟩
      · exact ⟨some held, Or.inl ⟨⟨_, rfl⟩, rfl⟩, htracks.failed _⟩
      · exact ⟨_, Or.inr ⟨held, _, _, rfl, rfl, rfl⟩, htracks.add hwf t _⟩

/-- So does every operation. -/
theorem Tracks.advance {v v' : View σ P} (hwf : v.store.Wf) (hhonest : O.Honest v.store)
    (htracks : Tracks H v.store p) {choice : P.Choice} {c : Call σ P} {res : c.Res}
    (hexec : v.exec p choice c = some (res, v')) :
    ∃ H', c.Grants O H res H' ∧ Tracks H' v'.store p := by
  cases c with
  | sql stmt => exact htracks.exec hwf hhonest (View.exec_sql hexec).1
  | node op =>
      rw [(View.exec_node hexec).2.1]
      exact ⟨H, rfl, htracks⟩
  | fork req =>
      rw [(View.exec_fork hexec).1]
      exact ⟨H, rfl, htracks⟩

/-- What is held by a program that climbs stays tame. -/
theorem tame_grants {c : Call σ P} {res : c.Res} {H' : Option (Holdings σ)} (hstrict : strict)
    (hclimbs : c.Climbs O strict H) (hgrants : c.Grants O H res H')
    (htame : ∀ held, H = some held → held.Tame) : ∀ held, H' = some held → held.Tame := by
  cases c with
  | node op =>
      obtain rfl : H' = H := hgrants
      exact htame
  | fork req =>
      obtain rfl : H' = H := hgrants
      exact htame
  | sql stmt =>
      cases stmt with
      | begin =>
          obtain rfl : H' = some Holdings.empty := hgrants
          rintro held hsome t id h hheld
          obtain rfl := Option.some.inj hsome
          cases hheld
      | commit =>
          obtain rfl : H' = none := hgrants
          exact nofun
      | rollback =>
          obtain rfl : H' = none := hgrants
          exact nofun
      | read conn =>
          cases conn with
          | pool =>
              obtain rfl : H' = H := hgrants
              exact htame
          | manager =>
              rw [hgrants.1]
              exact htame
      | touch t id where_ set =>
          obtain ⟨held₀, hheld₀, hplaced⟩ := hclimbs
          rcases hgrants with ⟨-, rfl⟩ | ⟨held, now, r, hheld, -, -, hfound, rfl⟩
          · exact htame
          · rintro held' hsome
            obtain rfl := Option.some.inj hsome
            obtain ⟨new, hnew⟩ := Option.isSome_iff_exists.mp ((hplaced hstrict).1 now r)
            refine (htame held hheld).set hnew fun old hold x => ?_
            rw [(set now).keeps r new hnew x]
            cases hbefore : held t id with
            | none =>
                rw [hbefore] at hold
                rw [Option.some.inj hold]
            | some h =>
                rw [hbefore] at hold
                obtain ⟨r', hr', halike⟩ := htame held hheld t id h hbefore
                rw [hfound h hbefore] at hr'
                rw [Option.some.inj hr']
                exact halike old hold x
      | insert t row =>
          rcases hgrants with ⟨-, rfl⟩ | ⟨held, id, r, hheld, -, rfl⟩
          · exact htame
          · rintro held' hsome
            obtain rfl := Option.some.inj hsome
            exact (htame held hheld).set rfl nofun

end Transact
