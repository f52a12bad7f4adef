import Mes.Transact.Brackets
import Mes.Transact.ForeignKeys
import Mes.Transact.Sealed

/-!
Who may do what. A charter says for each request which rows it may insert, what it may make
of a row, and which requests it may start. A program minds the charter when it keeps to it
as long as the answers are ones that it can get; it may also answer only what the charter
lets it answer.

What a program can get depends on what it has learnt. Row numbers are given out in order,
and the rows of some tables are there for good, so a later query cannot miss them. `Lore`
keeps both, and a program learns as it reads.

A row gets its number once, so a charter may refer to the last world of a run: `Holds` is
typically that a row agrees with how it was first inserted. The theorem about runs asks for
this agreement only at the end.
-/

namespace Transact

/-- What a program has learnt: the numbers below `floor` are taken, and the rows of `there`
are there for good. -/
structure Lore (σ : Schema) where
  floor : σ.Tbl → Nat
  there : σ.Tbl → Nat → Prop

variable {σ : Schema} {P : Platform} {α β : Type}

namespace Lore

instance : Preorder (Lore σ) where
  le κ κ' := (∀ t, κ.floor t ≤ κ'.floor t) ∧ ∀ t i, κ.there t i → κ'.there t i
  le_refl κ := ⟨fun _ => le_refl _, fun _ _ hthere => hthere⟩
  le_trans κ₁ κ₂ κ₃ hfirst hsecond :=
    ⟨fun t => le_trans (hfirst.1 t) (hsecond.1 t),
      fun t i hthere => hsecond.2 t i (hfirst.2 t i hthere)⟩

/-- Before the first query. -/
def start : Lore σ where
  floor := fun _ => 0
  there := fun _ _ => False

end Lore

structure Charter (σ : Schema) (P : Platform) where
  /-- The program inserts the row at this place. -/
  Born : Pid → (t : σ.Tbl) → Nat → σ.Row t → Prop
  /-- The row may stand at this place. -/
  Holds : (t : σ.Tbl) → Nat → σ.Row t → Prop
  /-- The memory may be like this. -/
  Knows : P.Mem → Prop
  /-- The committed rows of these tables stay. -/
  lasting : σ.Tbl → Prop
  starts : P.Req → Prop
  inserts : Pid → P.Req → (t : σ.Tbl) → Nat → σ.Row t → Prop
  permits : P.Req → (t : σ.Tbl) → Nat → Time → σ.Row t → Option (σ.Row t) → Prop
  refl : ∀ req t i now a, permits req t i now a (some a)
  trans : ∀ req t i now a b x, permits req t i now a (some b) → permits req t i now b x →
    permits req t i now a x
  spares : ∀ req t i now a x, permits req t i now a x → Store.Spares lasting t a x
  fires : ∀ now timer m m', Knows m → P.fire now timer m = some m' → Knows m'

namespace Charter

variable (C : Charter σ P) (p : Pid) (req : P.Req)

/-- The request adds no row to this table. -/
def Foreign (t : σ.Tbl) : Prop :=
  ∀ i r, ¬ C.inserts p req t i r

/-- What is learnt from an answer. A query inside a transaction shows the program its own
rows too, which may not stay. -/
def learn (κ : Lore σ) : (c : Call σ P) → c.Res → Lore σ
  | .sql (.read conn), .ok s =>
      { floor := fun t => max (κ.floor t) (s.next t)
        there := fun t i => κ.there t i ∨
          C.lasting t ∧ (conn = .pool ∨ C.Foreign p req t) ∧ (s.get t i).isSome = true }
  | .sql (.touch t _ _ _), .ok (some r) =>
      { floor := κ.floor
        there := fun t' i => κ.there t' i ∨
          C.lasting t' ∧ C.Foreign p req t' ∧ (t', i) ∈ σ.refs t r }
  | _, _ => κ

/-- A snapshot that a program can get. -/
structure Reads (κ : Lore σ) (s : Snapshot σ) : Prop where
  rows : ∀ t i r, s.get t i = some r → C.Holds t i r ∧ i < s.next t
  there : ∀ t i, κ.there t i → (s.get t i).isSome = true
  refs : ∀ t i r, s.get t i = some r → ∀ ref ∈ σ.refs t r, C.lasting ref.1 →
    (s.get ref.1 ref.2).isSome = true

/-- A row that the program has inserted. -/
structure Inserted (κ : Lore σ) (t : σ.Tbl) (row : Time → σ.Row t) (out : Nat × σ.Row t) :
    Prop where
  fresh : κ.floor t ≤ out.1
  born : C.Born p t out.1 out.2
  holds : C.Holds t out.1 out.2
  same : ∃ now, out.2 = row now

/-- The answers that a program can get. -/
def Tells (κ : Lore σ) : (c : Call σ P) → c.Res → Prop
  | .sql (.read _), .ok s => C.Reads κ s
  | .sql (.touch t i where_ _), .ok (some r) =>
      C.Holds t i r ∧ ∃ now, where_ now r = true
  | .sql (.insert t row), .ok out =>
      C.Inserted p κ t row out
  | .node op, res => ∃ now choice m m', C.Knows m ∧ P.exec p now op choice m = some (res, m')
  | _, _ => True

/-- The change is one that the request may make. -/
def Allowed (t : σ.Tbl) (i : Nat) (now : Time) (a : σ.Row t) (x : Option (σ.Row t)) : Prop :=
  C.permits req t i now a x ∧ ∀ b, x = some b → C.Holds t i b

/-- The operations that a program may ask for. -/
def Allows (κ : Lore σ) : Call σ P → Prop
  | .sql (.touch t i where_ set) => ∀ now r, C.Holds t i r → where_ now r = true →
      C.Allowed req t i now r ((set now).apply r)
  | .sql (.insert t row) => ∀ now i, κ.floor t ≤ i → C.inserts p req t i (row now)
  | .node op => ∀ now choice m m' res, C.Knows m →
      P.exec p now op choice m = some (res, m') → C.Knows m'
  | .fork req' => C.starts req'
  | _ => True

theorem le_learn (κ : Lore σ) (c : Call σ P) (res : c.Res) : κ ≤ C.learn p req κ c res := by
  unfold learn
  split
  · exact ⟨fun t => le_max_left _ _, fun t i hthere => Or.inl hthere⟩
  · exact ⟨fun t => le_refl _, fun t i hthere => Or.inl hthere⟩
  · exact le_refl κ

/-- The program keeps to the charter, and ends with a value in `R` or an error in `E`. -/
def Minds (R : α → Lore σ → Prop) (E : P.Err → Prop) : Code σ P α → Lore σ → Prop
  | .ret a, κ => R a κ
  | .throw e, _ => E e
  | .step c k, κ => C.Allows p req κ c ∧
      ∀ res, C.Tells p κ c res → Minds R E (k res) (C.learn p req κ c res)

section Rules

variable {C p req} {R : α → Lore σ → Prop} {E F : P.Err → Prop} {κ : Lore σ}

theorem Minds.andThen {x : Code σ P α} {f : α → Code σ P β} {Q : β → Lore σ → Prop}
    (hx : C.Minds p req R E x κ)
    (hf : ∀ a κ', κ ≤ κ' → R a κ' → C.Minds p req Q E (f a) κ') :
    C.Minds p req Q E (x.andThen f) κ := by
  induction x generalizing κ with
  | ret a => exact hf a κ (le_refl κ) hx
  | throw e => exact hx
  | step c k ih =>
      refine ⟨hx.1, fun res hres => ih res (hx.2 res hres) fun a κ' hle hR => ?_⟩
      exact hf a κ' (le_trans (C.le_learn p req κ c res) hle) hR

theorem Minds.attempt {x : Code σ P α} {handler : P.Err → Code σ P α}
    (hx : C.Minds p req R F x κ)
    (hhandler : ∀ e κ', κ ≤ κ' → F e → C.Minds p req R E (handler e) κ') :
    C.Minds p req R E (x.attempt handler) κ := by
  induction x generalizing κ with
  | ret a => exact hx
  | throw e => exact hhandler e κ (le_refl κ) hx
  | step c k ih =>
      refine ⟨hx.1, fun res hres => ih res (hx.2 res hres) fun e κ' hle hE => ?_⟩
      exact hhandler e κ' (le_trans (C.le_learn p req κ c res) hle) hE

theorem Minds.post {x : Code σ P α} {R' : α → Lore σ → Prop} (hx : C.Minds p req R E x κ)
    (hpost : ∀ a κ', κ ≤ κ' → R a κ' → R' a κ') : C.Minds p req R' E x κ := by
  induction x generalizing κ with
  | ret a => exact hpost a κ (le_refl κ) hx
  | throw e => exact hx
  | step c k ih =>
      refine ⟨hx.1, fun res hres => ih res (hx.2 res hres) fun a κ' hle hR => ?_⟩
      exact hpost a κ' (le_trans (C.le_learn p req κ c res) hle) hR

theorem Minds.errors {x : Code σ P α} (hx : C.Minds p req R E x κ) (hpost : ∀ e, E e → F e) :
    C.Minds p req R F x κ := by
  induction x generalizing κ with
  | ret a => exact hx
  | throw e => exact hpost e hx
  | step c k ih => exact ⟨hx.1, fun res hres => ih res (hx.2 res hres)⟩

theorem Minds.node {op : P.Op} {k : P.Res op → Code σ P α}
    (hop : C.Allows p req κ (.node op : Call σ P))
    (hrest : ∀ res, C.Tells p κ (.node op : Call σ P) res → C.Minds p req R E (k res) κ) :
    C.Minds p req R E (.step (.node op) k) κ :=
  ⟨hop, hrest⟩

theorem Minds.fork {req' : P.Req} {k : Unit → Code σ P α} (hstarts : C.starts req')
    (hrest : C.Minds p req R E (k ()) κ) : C.Minds p req R E (.step (.fork req') k) κ :=
  ⟨hstarts, fun _ _ => hrest⟩

theorem minds_transaction {x : Code σ P α} (hx : C.Minds p req R E x κ) :
    C.Minds p req R E (Sql.transaction x) κ := by
  refine ⟨trivial, fun _ _ => Minds.attempt (F := E) (Minds.andThen hx fun a κ' _ hR => ?_)
    fun e κ' _ hE => ?_⟩
  · exact ⟨trivial, fun _ _ => hR⟩
  · exact ⟨trivial, fun _ _ => hE⟩

/-- What is known of the rows that an update found. -/
def Found (C : Charter σ P) (p : Pid) (req : P.Req) (t : σ.Tbl)
    (where_ : Time → σ.Row t → Bool) (κ : Lore σ) (row : Nat × σ.Row t) : Prop :=
  C.Holds t row.1 row.2 ∧ row.1 < κ.floor t ∧ (∃ now, where_ now row.2 = true) ∧
    ∀ ref ∈ σ.refs t row.2, C.lasting ref.1 → C.Foreign p req ref.1 → κ.there ref.1 ref.2

theorem Found.mono {t : σ.Tbl} {where_ : Time → σ.Row t → Bool} {κ' : Lore σ}
    {row : Nat × σ.Row t} (hfound : C.Found p req t where_ κ row) (hle : κ ≤ κ') :
    C.Found p req t where_ κ' row :=
  ⟨hfound.1, lt_of_lt_of_le hfound.2.1 (hle.1 t), hfound.2.2.1, fun ref href hlasting hforeign =>
    hle.2 _ _ (hfound.2.2.2 ref href hlasting hforeign)⟩

variable (hE : ∀ e, E (P.fail e))
include hE

theorem minds_read (conn : Conn) : C.Minds p req
    (fun s κ' => C.Reads κ s ∧ κ' = C.learn p req κ (.sql (.read conn)) (.ok s)) E
    (Sql.read conn) κ := by
  refine ⟨trivial, fun res hres => ?_⟩
  cases res with
  | ok s => exact ⟨hres, rfl⟩
  | error e => exact hE e

theorem minds_insert (t : σ.Tbl) {row : Time → σ.Row t}
    (hrow : ∀ now i, κ.floor t ≤ i → C.inserts p req t i (row now)) :
    C.Minds p req (fun out _ => C.Inserted p κ t row out) E (Sql.insert t row) κ := by
  refine ⟨hrow, fun res hres => ?_⟩
  cases res with
  | ok out => exact hres
  | error e => exact hE e

theorem minds_touchEach (t : σ.Tbl) {where_ : Time → σ.Row t → Bool}
    {set : Time → Change σ t} {ids : List Nat} {found : List (Nat × σ.Row t)}
    (hids : ∀ i ∈ ids, i < κ.floor t ∧ ∀ now r, C.Holds t i r → where_ now r = true →
      C.Allowed req t i now r ((set now).apply r))
    (hfound : ∀ row ∈ found, C.Found p req t where_ κ row) :
    C.Minds p req (fun rows κ' => ∀ row ∈ rows, C.Found p req t where_ κ' row) E
      (Sql.touchEach t where_ set found ids) κ := by
  induction ids generalizing found κ with
  | nil => exact hfound
  | cons i rest ih =>
      obtain ⟨hlt, hallowed⟩ := hids i List.mem_cons_self
      have hgo (κ' : Lore σ) (hle : κ ≤ κ') (found' : List (Nat × σ.Row t))
          (hfound' : ∀ row ∈ found', C.Found p req t where_ κ' row) :=
        ih (fun j hj => ⟨lt_of_lt_of_le (hids j (List.mem_cons_of_mem i hj)).1 (hle.1 t),
          (hids j (List.mem_cons_of_mem i hj)).2⟩) hfound'
      refine ⟨hallowed, fun res hres => ?_⟩
      cases res with
      | error e => exact hE e
      | ok out =>
          cases out with
          | none =>
              show C.Minds p req _ E (Sql.touchEach t where_ set (found ++ []) rest) κ
              rw [List.append_nil]
              exact hgo κ (le_refl κ) found hfound
          | some r =>
              have hle := C.le_learn p req κ (.sql (.touch t i where_ set)) (.ok (some r))
              refine hgo _ hle (found ++ [(i, r)]) fun row hrow => ?_
              rcases List.mem_append.mp hrow with hbefore | hnew
              · exact (hfound row hbefore).mono hle
              · rw [List.mem_singleton.mp hnew]
                exact ⟨hres.1, hlt, hres.2, fun ref href hlasting hforeign =>
                  Or.inr ⟨hlasting, hforeign, href⟩⟩

theorem minds_sweep (t : σ.Tbl) {where_ : Time → σ.Row t → Bool} {set : Time → Change σ t}
    (hset : ∀ i now r, C.Holds t i r → where_ now r = true →
      C.Allowed req t i now r ((set now).apply r)) :
    C.Minds p req (fun rows κ' => ∀ row ∈ rows, C.Found p req t where_ κ' row) E
      (Sql.sweep t where_ set) κ := by
  refine Minds.andThen (minds_read hE .manager) ?_
  rintro s κ' - ⟨hreads, rfl⟩
  refine minds_touchEach hE t (fun i hi => ⟨?_, hset i⟩) fun row hrow => by cases hrow
  obtain ⟨row, hrow, rfl⟩ := List.mem_map.mp hi
  have hget := (Snapshot.mem_rows.mp (List.mem_filter.mp hrow).1).2
  exact lt_of_lt_of_le (hreads.rows t row.1 row.2 hget).2 (le_max_right _ _)

end Rules

end Charter

end Transact
