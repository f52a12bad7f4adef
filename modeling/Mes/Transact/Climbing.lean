import Mes.Transact.LockOrder
import Mes.Transact.Sql

/-!
Rules for programs that climb. Each follows the shape of the program, as the rules of the
other logics do; the loop of a statement with a `WHERE` clause climbs because it takes its
rows in ascending order.
-/

namespace Transact

variable {σ : Schema} {P : Platform} {α β : Type} {O : LockOrder σ P} {strict : Prop}
  {R : α → Option (Holdings σ) → Prop} {E : Option (Holdings σ) → Prop} {H : Option (Holdings σ)}
  {held : Holdings σ}

namespace LockOrder.Climbs

theorem mono {R' : α → Option (Holdings σ) → Prop} {E' : Option (Holdings σ) → Prop}
    {x : Code σ P α} (hclimbs : O.Climbs strict R E H x)
    (hvalue : ∀ a H', R a H' → R' a H') (herror : ∀ H', E H' → E' H') :
    O.Climbs strict R' E' H x := by
  induction x generalizing H with
  | ret a => exact hvalue a H hclimbs
  | throw e => exact herror H hclimbs
  | step c k ih => exact ⟨hclimbs.1, fun res H' hgrants => ih res (hclimbs.2 res H' hgrants)⟩

theorem andThen {S : β → Option (Holdings σ) → Prop} {x : Code σ P β} {f : β → Code σ P α}
    (hclimbs : O.Climbs strict S E H x)
    (hnext : ∀ b H', S b H' → O.Climbs strict R E H' (f b)) :
    O.Climbs strict R E H (x.andThen f) := by
  induction x generalizing H with
  | ret b => exact hnext b H hclimbs
  | throw e => exact hclimbs
  | step c k ih => exact ⟨hclimbs.1, fun res H' hgrants => ih res (hclimbs.2 res H' hgrants)⟩

theorem attempt {F : Option (Holdings σ) → Prop} {x : Code σ P α} {handler : P.Err → Code σ P α}
    (hclimbs : O.Climbs strict R F H x)
    (hhandler : ∀ e H', F H' → O.Climbs strict R E H' (handler e)) :
    O.Climbs strict R E H (x.attempt handler) := by
  induction x generalizing H with
  | ret a => exact hclimbs
  | throw e => exact hhandler e H hclimbs
  | step c k ih => exact ⟨hclimbs.1, fun res H' hgrants => ih res (hclimbs.2 res H' hgrants)⟩

/-- A transaction holds nothing before and after. -/
theorem transaction {x : Code σ P α}
    (hclimbs : O.Climbs strict (fun _ H' => H'.isSome = true) (fun H' => H'.isSome = true)
      (some Holdings.empty) x) :
    O.Climbs strict (fun _ H' => H' = none) (fun H' => H' = none) none (Sql.transaction x) := by
  refine ⟨rfl, fun _ H' hgrants => ?_⟩
  obtain rfl : H' = some Holdings.empty := hgrants
  refine attempt (F := fun H' => H'.isSome = true) (andThen hclimbs ?_) ?_
  · exact fun a H' hopen => ⟨hopen, fun _ H₂ hclosed => hclosed⟩
  · exact fun e H' hopen => ⟨hopen, fun _ H₂ hclosed => hclosed⟩

end LockOrder.Climbs

/-! ### Operations -/

/-- An operation that concerns no transaction. -/
def LockOrder.Apart (O : LockOrder σ P) : Call σ P → Prop
  | .sql (.read .pool) => True
  | .sql _ => False
  | .node _ => True
  | .fork req => O.tasks req

theorem LockOrder.Apart.climbs {c : Call σ P} (hapart : O.Apart c) : c.Climbs O strict H := by
  cases c with
  | node op => trivial
  | fork req => exact hapart
  | sql stmt =>
      cases stmt with
      | read conn =>
          cases conn with
          | pool => trivial
          | manager => exact hapart.elim
      | begin | commit | rollback | touch | insert => exact hapart.elim

theorem LockOrder.Apart.grants {c : Call σ P} (hapart : O.Apart c) {res : c.Res}
    {H' : Option (Holdings σ)} (hgrants : c.Grants O H res H') : H' = H := by
  cases c with
  | node op => exact hgrants
  | fork req => exact hgrants
  | sql stmt =>
      cases stmt with
      | read conn =>
          cases conn with
          | pool => exact hgrants
          | manager => exact hapart.elim
      | begin | commit | rollback | touch | insert => exact hapart.elim

/-- Such operations change nothing of what is held. -/
theorem climbs_apart {x : Code σ P α} (hx : x.Uses O.Apart) :
    O.Climbs strict (fun _ H' => H' = H) (fun H' => H' = H) H x := by
  induction x with
  | ret a => rfl
  | throw e => rfl
  | step c k ih =>
      refine ⟨hx.1.climbs, fun res H' hgrants => ?_⟩
      rw [hx.1.grants hgrants]
      exact ih res (hx.2 res)

theorem apart_answer (r : Except SqlError α) : (Sql.answer r : Code σ P α).Uses O.Apart := by
  cases r <;> trivial

theorem apart_pool : (Sql.read .pool : Code σ P _).Uses O.Apart :=
  ⟨trivial, apart_answer⟩

/-- They can be run before anything. -/
theorem climbs_after {x : Code σ P β} {f : β → Code σ P α} (hx : x.Uses O.Apart)
    (herror : E H) (hnext : ∀ b, O.Climbs strict R E H (f b)) :
    O.Climbs strict R E H (x.andThen f) := by
  refine LockOrder.Climbs.andThen (S := fun _ H' => H' = H) ?_ ?_
  · refine (climbs_apart hx).mono (fun _ _ hsame => hsame) fun H' hsame => ?_
    rw [hsame]
    exact herror
  · rintro b H' rfl
    exact hnext b

theorem climbs_read {f : Snapshot σ → Code σ P α} (herror : E (some held))
    (hnext : ∀ s, O.Shows held s → O.Climbs strict R E (some held) (f s)) :
    O.Climbs strict R E (some held) ((Sql.read .manager).andThen f) := by
  refine ⟨rfl, fun res H' hgrants => ?_⟩
  obtain ⟨rfl, hshows⟩ := hgrants
  cases res with
  | error e => exact herror
  | ok s => exact hnext s (hshows held s rfl rfl)

/-- What is held after a touch that may have found the row. -/
def Touched (held : Holdings σ) (t : σ.Tbl) (id : Nat) (where_ : Time → σ.Row t → Bool)
    (set : Time → Change σ t) : Option (σ.Row t) → Holdings σ → Prop
  | none, held' => held' = held
  | some r, held' => ∃ now, where_ now r = true ∧
      (∀ h, held t id = some h → h.draft = some r) ∧
        held' = held.lock t id r ((set now).apply r)

theorem climbs_touch {t : σ.Tbl} {id : Nat} {where_ : Time → σ.Row t → Bool}
    {set : Time → Change σ t} {f : Option (σ.Row t) → Code σ P α}
    (hkeeps : ∀ now r, ((set now).apply r).isSome = true)
    (hplaced : (held t id).isSome = true ∨ held.Below O.rank (rowPlace O.rank t false id))
    (herror : E (some held))
    (hnext : ∀ row held', Touched held t id where_ set row held' →
      O.Climbs strict R E (some held') (f row)) :
    O.Climbs strict R E (some held) ((Sql.touch t id where_ set).andThen f) := by
  refine ⟨⟨held, rfl, fun _ => ⟨hkeeps, hplaced⟩⟩, fun res H' hgrants => ?_⟩
  rcases hgrants with ⟨hnone, rfl⟩ | ⟨held', now, r, hsome, rfl, hwhere, hfound, rfl⟩
  · cases res with
    | error e => exact herror
    | ok row =>
        cases row with
        | none => exact hnext none held rfl
        | some r => exact absurd rfl (hnone r)
  · obtain rfl := Option.some.inj hsome
    exact hnext (some r) _ ⟨now, hwhere, hfound, rfl⟩

theorem climbs_insert {t : σ.Tbl} {row : Time → σ.Row t} {f : Nat × σ.Row t → Code σ P α}
    (hbelow : held.Below O.rank (rowPlace O.rank t true 0)) (herror : E (some held))
    (hnext : ∀ id r, O.Climbs strict R E (some (held.add t id r)) (f (id, r))) :
    O.Climbs strict R E (some held) ((Sql.insert t row).andThen f) := by
  refine ⟨⟨held, rfl, fun _ => hbelow⟩, fun res H' hgrants => ?_⟩
  rcases hgrants with ⟨⟨e, rfl⟩, rfl⟩ | ⟨held', id, r, hsome, rfl, rfl⟩
  · exact herror
  · obtain rfl := Option.some.inj hsome
    exact hnext id r

/-! ### Statements with a `WHERE` clause -/

/-- The rows of a snapshot are listed in ascending order. -/
theorem Snapshot.rows_ascend (s : Snapshot σ) (t : σ.Tbl) (test : Nat × σ.Row t → Bool) :
    (((s.rows t).filter test).map Prod.fst).Pairwise (· < ·) := by
  have hrows : ((s.rows t).map Prod.fst).Pairwise (· < ·) := by
    have hids (ids : List Nat) : ((ids.filterMap fun id =>
        (s.get t id).map fun r => (id, r)).map Prod.fst).Sublist ids := by
      induction ids with
      | nil => exact List.Sublist.slnil
      | cons id rest ih =>
          cases hget : s.get t id with
          | none => simpa [hget] using ih.cons id
          | some r => simpa [hget] using ih.cons_cons id
    exact (List.pairwise_lt_range).sublist (hids _)
  exact hrows.sublist (List.filter_sublist.map Prod.fst)

theorem Sql.matching_ascend (s : Snapshot σ) (t : σ.Tbl) (where_ : Time → σ.Row t → Bool) :
    (Sql.matching s t where_).Pairwise (· < ·) :=
  s.rows_ascend t _

/-- Only rows of one table are held that were not held before. -/
def Widened (t : σ.Tbl) (held held' : Holdings σ) : Prop :=
  ∀ t', t' ≠ t → held' t' = held t'

theorem Widened.under {rank : σ.Tbl → Nat} {t : σ.Tbl} {held held' : Holdings σ}
    (hwidened : Widened t held held') {n : Nat} (hrank : rank t < n)
    (hunder : held.Under rank n) : held'.Under rank n := by
  intro t' id h hheld
  by_cases htable : t' = t
  · rw [htable]
    exact hrank
  · rw [hwidened t' htable] at hheld
    exact hunder t' id h hheld

/-- A row that is locked is in its place. -/
theorem Holdings.lock_below {t : σ.Tbl} {id id' : Nat} {r : σ.Row t} {new : Option (σ.Row t)}
    (hid : id < id') (hbelow : held.Below O.rank (rowPlace O.rank t false id')) :
    (held.lock t id r new).Below O.rank (rowPlace O.rank t false id') := by
  refine hbelow.set ?_
  cases hbefore : held t id with
  | none => exact place_id hid false
  | some h => exact hbelow t id h hbefore

/-- Nothing else is held. -/
theorem Holdings.lock_empty_below {t : σ.Tbl} {id : Nat} {r : σ.Row t} {new : Option (σ.Row t)}
    {place' : Place} (hlt : rowPlace O.rank t false id < place') :
    ((Holdings.empty : Holdings σ).lock t id r new).Below O.rank place' :=
  (Holdings.empty_below place').set hlt

theorem climbs_touchEach {t : σ.Tbl} {where_ : Time → σ.Row t → Bool}
    {set : Time → Change σ t} {ids : List Nat}
    (hkeeps : ∀ now r, ((set now).apply r).isSome = true) (hascend : ids.Pairwise (· < ·))
    (hplaced : ∀ id ∈ ids,
      (held t id).isSome = true ∨ held.Below O.rank (rowPlace O.rank t false id))
    (found : List (Nat × σ.Row t)) :
    O.Climbs strict (fun _ H' => ∃ held', H' = some held' ∧ Widened t held held')
      (fun H' => ∃ held', H' = some held' ∧ Widened t held held') (some held)
      (Sql.touchEach t where_ set found ids : Code σ P (List (Nat × σ.Row t))) := by
  induction ids generalizing held found with
  | nil => exact ⟨held, rfl, fun _ _ => rfl⟩
  | cons id rest ih =>
      obtain ⟨hleast, hascend'⟩ := List.pairwise_cons.mp hascend
      refine climbs_touch hkeeps (hplaced id List.mem_cons_self) ⟨held, rfl, fun _ _ => rfl⟩ ?_
      intro row held' htouched
      have hother : Widened t held held' := by
        intro t' htable
        cases row with
        | none => rw [show held' = held from htouched]
        | some r =>
            obtain ⟨now, -, -, rfl⟩ := htouched
            exact Holdings.set_other htable
      have hwider {H' : Option (Holdings σ)} (hlater : ∃ held₂, H' = some held₂ ∧
          Widened t held' held₂) : ∃ held₂, H' = some held₂ ∧ Widened t held held₂ := by
        obtain ⟨held₂, hsome, hwidened⟩ := hlater
        exact ⟨held₂, hsome, fun t' htable => (hwidened t' htable).trans (hother t' htable)⟩
      refine (ih hascend' ?_ _).mono (fun _ _ => hwider) fun _ => hwider
      intro id' hid'
      have hlt := hleast id' hid'
      have hbefore := hplaced id' (List.mem_cons_of_mem _ hid')
      cases row with
      | none =>
          rw [show held' = held from htouched]
          exact hbefore
      | some r =>
          obtain ⟨now, -, -, rfl⟩ := htouched
          exact hbefore.imp Holdings.set_isSome (Holdings.lock_below hlt)

/-- The transaction stays open. -/
theorem climbs_touchEach_open {t : σ.Tbl} {where_ : Time → σ.Row t → Bool}
    {set : Time → Change σ t} {ids : List Nat}
    (hkeeps : ∀ now r, ((set now).apply r).isSome = true) (hascend : ids.Pairwise (· < ·))
    (hplaced : ∀ id ∈ ids,
      (held t id).isSome = true ∨ held.Below O.rank (rowPlace O.rank t false id))
    (found : List (Nat × σ.Row t)) :
    O.Climbs strict (fun _ H' => H'.isSome = true) (fun H' => H'.isSome = true) (some held)
      (Sql.touchEach t where_ set found ids : Code σ P (List (Nat × σ.Row t))) := by
  refine (climbs_touchEach hkeeps hascend hplaced found).mono ?_ ?_
  · rintro rows H' ⟨held', rfl, -⟩
    rfl
  · rintro H' ⟨held', rfl, -⟩
    rfl

/-! ### From table to table -/

/-- A transaction is open, and holds only rows of tables of lower rank. -/
def LockOrder.Risen (O : LockOrder σ P) (n : Nat) (H : Option (Holdings σ)) : Prop :=
  ∃ held, H = some held ∧ held.Under O.rank n

/-- The program holds rows of rank below `n`, takes rows of rank `n` and more, and then holds
rows of rank below `m`. -/
def LockOrder.Rises (O : LockOrder σ P) (n m : Nat) (x : Code σ P α) : Prop :=
  ∀ strict H, O.Risen n H → O.Climbs strict (fun _ => O.Risen m) (O.Risen m) H x

variable {n k m : Nat}

theorem LockOrder.Risen.mono (hrisen : O.Risen n H) (hle : n ≤ m) : O.Risen m H := by
  obtain ⟨held, rfl, hunder⟩ := hrisen
  exact ⟨held, rfl, hunder.mono hle⟩

theorem rises_ret (a : α) (hle : n ≤ m) : O.Rises n m (.ret a : Code σ P α) :=
  fun _ _ hrisen => hrisen.mono hle

theorem rises_throw (e : P.Err) (hle : n ≤ m) : O.Rises n m (.throw e : Code σ P α) :=
  fun _ _ hrisen => hrisen.mono hle

theorem rises_bind {x : Code σ P β} {f : β → Code σ P α} (hx : O.Rises n k x)
    (hf : ∀ b, O.Rises k m (f b)) (hle : k ≤ m) : O.Rises n m (x.andThen f) := by
  intro strict H hrisen
  refine LockOrder.Climbs.andThen ((hx strict H hrisen).mono (fun _ _ hrisen' => hrisen')
    fun H' hrisen' => hrisen'.mono hle) ?_
  exact fun b H' hrisen' => hf b strict H' hrisen'

/-- Its result may be adapted. -/
theorem rises_map {x : Code σ P β} (hx : O.Rises n m x) (f : β → α) :
    O.Rises n m (x.andThen fun b => .ret (f b)) :=
  rises_bind hx (fun b => rises_ret (f b) (le_refl m)) (le_refl m)

theorem rises_attempt {x : Code σ P α} {handler : P.Err → Code σ P α} (hx : O.Rises n m x)
    (hhandler : ∀ e, O.Rises m m (handler e)) : O.Rises n m (x.attempt handler) :=
  fun strict H hrisen =>
    LockOrder.Climbs.attempt (hx strict H hrisen) fun e H' hrisen' => hhandler e strict H' hrisen'

theorem rises_apart {x : Code σ P α} (hx : x.Uses O.Apart) (hle : n ≤ m) : O.Rises n m x := by
  intro strict H hrisen
  refine (climbs_apart hx).mono ?_ ?_
  · rintro a H' rfl
    exact hrisen.mono hle
  · rintro H' rfl
    exact hrisen.mono hle

theorem rises_read : O.Rises n n (Sql.read .manager : Code σ P (Snapshot σ)) := by
  rintro strict H ⟨held, rfl, hunder⟩
  refine ⟨rfl, fun res H' hgrants => ?_⟩
  obtain ⟨rfl, -⟩ := hgrants
  cases res with
  | error e => exact ⟨held, rfl, hunder⟩
  | ok s => exact ⟨held, rfl, hunder⟩

theorem rises_insert {t : σ.Tbl} (hn : n ≤ O.rank t) (hm : O.rank t < m)
    (row : Time → σ.Row t) : O.Rises n m (Sql.insert t row : Code σ P (Nat × σ.Row t)) := by
  rintro strict H ⟨held, rfl, hunder⟩
  have hkept : held.Under O.rank m := hunder.mono (hn.trans hm.le)
  refine ⟨⟨held, rfl, fun _ => hunder.below hn true⟩, fun res H' hgrants => ?_⟩
  rcases hgrants with ⟨⟨e, rfl⟩, rfl⟩ | ⟨held', id, r, hsome, rfl, rfl⟩
  · exact ⟨held, rfl, hkept⟩
  · obtain rfl := Option.some.inj hsome
    exact ⟨_, rfl, hkept.set hm⟩

theorem rises_touchEach {t : σ.Tbl} {where_ : Time → σ.Row t → Bool}
    {set : Time → Change σ t} {ids : List Nat} (hn : n ≤ O.rank t) (hm : O.rank t < m)
    (hkeeps : ∀ now r, ((set now).apply r).isSome = true) (hascend : ids.Pairwise (· < ·))
    (found : List (Nat × σ.Row t)) :
    O.Rises n m (Sql.touchEach t where_ set found ids : Code σ P (List (Nat × σ.Row t))) := by
  rintro strict H ⟨held, rfl, hunder⟩
  have hkept : held.Under O.rank m := hunder.mono (hn.trans hm.le)
  have hrisen {H' : Option (Holdings σ)} (hlater : ∃ held', H' = some held' ∧
      Widened t held held') : O.Risen m H' := by
    obtain ⟨held', hsome, hwidened⟩ := hlater
    exact ⟨held', hsome, hwidened.under hm hkept⟩
  exact (climbs_touchEach hkeeps hascend (fun id _ => Or.inr (hunder.below hn false)) found).mono
    (fun _ _ => hrisen) fun _ => hrisen

theorem climbs_transaction {x : Code σ P α} (hx : O.Rises 0 m x) :
    O.Climbs strict (fun _ H' => H' = none) (fun H' => H' = none) none (Sql.transaction x) := by
  refine LockOrder.Climbs.transaction ((hx strict _ ⟨_, rfl, Holdings.empty_under⟩).mono ?_ ?_)
  · rintro a H' ⟨held, rfl, -⟩
    rfl
  · rintro H' ⟨held, rfl, -⟩
    rfl

/-! ### Programs that need not climb -/

theorem Call.Plain.loose {c : Call σ P} (hplain : c.Plain) :
    c.Climbs O False (some held) := by
  cases c with
  | node op => trivial
  | fork req => exact hplain.elim
  | sql stmt =>
      cases stmt with
      | begin => exact hplain.elim
      | commit | rollback => exact rfl
      | read conn => cases conn <;> trivial
      | touch t id where_ set => exact ⟨held, rfl, False.elim⟩
      | insert t row => exact ⟨held, rfl, False.elim⟩

theorem Call.Plain.open {c : Call σ P} (hplain : c.Plain) {res : c.Res}
    {H' : Option (Holdings σ)} (hgrants : c.Grants O (some held) res H') : H'.isSome = true := by
  cases c with
  | node op =>
      rw [show H' = some held from hgrants]
      rfl
  | fork req => exact hplain.elim
  | sql stmt =>
      cases stmt with
      | begin => exact hplain.elim
      | commit => exact hplain.elim
      | rollback => exact hplain.elim
      | read conn =>
          cases conn with
          | pool =>
              rw [show H' = some held from hgrants]
              rfl
          | manager =>
              rw [hgrants.1]
              rfl
      | touch t id where_ set =>
          rcases hgrants with ⟨-, rfl⟩ | ⟨_, _, _, _, _, _, _, rfl⟩ <;> rfl
      | insert t row =>
          rcases hgrants with ⟨-, rfl⟩ | ⟨_, _, _, _, _, rfl⟩ <;> rfl

/-- Inside a transaction a program keeps it open. -/
theorem loose_plain {x : Code σ P α} (hx : x.Uses Call.Plain) :
    O.Climbs False (fun _ H' => H'.isSome = true) (fun H' => H'.isSome = true)
      (some held) x := by
  induction x generalizing held with
  | ret a => rfl
  | throw e => rfl
  | step c k ih =>
      refine ⟨hx.1.loose, fun res H' hgrants => ?_⟩
      obtain ⟨held', rfl⟩ := Option.isSome_iff_exists.mp (hx.1.open hgrants)
      exact ih res (hx.2 res)

end Transact
