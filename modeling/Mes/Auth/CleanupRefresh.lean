import Mes.Auth.Cleanup
import Mes.Lessons.Enumeration

/-!
A refresh on two backends that differ only by refresh tokens it never looks at and by the
pointers between tokens. The two runs take the same operations: each lookup by digest
finds the same row, and a new token is refused on both sides or on neither.
-/

namespace Mes

open Transact Transact.Logic RefreshTokensRepository

variable {rt : Runtime}

/-- A token without its pointer. -/
def unlinked (row : RefreshToken) : RefreshToken :=
  { row with replacedById := none }

theorem unlinked_eq {row row' : RefreshToken} (hsame : unlinked row' = unlinked row) :
    row' = { row with replacedById := row'.replacedById } := by
  obtain ⟨userId, familyId, tokenHash, issuedAt, expiresAt, revokedAt, link, userAgent, ip⟩ :=
    row'
  simp only [unlinked, RefreshToken.mk.injEq] at hsame
  simp only [RefreshToken.mk.injEq]
  tauto

/-- The same token but for the pointer, or one that is missing on the second side. -/
def SameToken (gone : String → Prop) (x y : Option RefreshToken) : Prop :=
  y.map unlinked = x.map unlinked ∨ y = none ∧ ∃ row, x = some row ∧ gone row.tokenHash

/-- Two backends that differ only by tokens with a digest in `gone` and by pointers. -/
structure Alike (p : Pid) (gone : String → Prop) (v u : BackendView rt) : Prop where
  clock : u.store.clock = v.store.clock
  mem : u.mem = v.mem
  next : u.store.next = v.store.next
  tx : u.store.tx p = v.store.tx p
  users : u.store.stored Tbl.users = v.store.stored Tbl.users
  others : ∀ t, t ≠ Tbl.refreshTokens → u.store.seen p t = v.store.seen p t
  tokens : ∀ i, SameToken gone (v.store.seen p Tbl.refreshTokens i)
    (u.store.seen p Tbl.refreshTokens i)

namespace Alike

variable {p : Pid} {gone : String → Prop} {v u : BackendView rt}

theorem put (halike : Alike p gone v u) (e e' : Event (schema rt) (platform rt)) :
    Alike p gone (v.put p e v.store) (u.put p e' u.store) where
  clock := halike.clock
  mem := halike.mem
  next := halike.next
  tx := halike.tx
  users := halike.users
  others := halike.others
  tokens := halike.tokens

theorem remember (halike : Alike p gone v u) (e e' : Event (schema rt) (platform rt))
    (mem : Memory) : Alike p gone (v.remember p e mem) (u.remember p e' mem) where
  clock := halike.clock
  mem := rfl
  next := halike.next
  tx := halike.tx
  users := halike.users
  others := halike.others
  tokens := halike.tokens

theorem setTx (halike : Alike p gone v u) (e e' : Event (schema rt) (platform rt))
    (x : Option Tx) :
    Alike p gone (v.put p e (v.store.setTx p x)) (u.put p e' (u.store.setTx p x)) where
  clock := halike.clock
  mem := halike.mem
  next := halike.next
  tx := by simp
  users := halike.users
  others := halike.others
  tokens := halike.tokens

theorem abort (halike : Alike p gone v u) (e e' : Event (schema rt) (platform rt)) :
    Alike p gone (v.put p e (v.store.abort p)) (u.put p e' (u.store.abort p)) := by
  unfold Store.abort
  rw [halike.tx]
  cases v.store.tx p with
  | none => exact halike.put e e'
  | some x => exact halike.setTx e e' _

theorem hold (halike : Alike p gone v u) (e e' : Event (schema rt) (platform rt))
    (i : Nat) {r r' : Option RefreshToken} (hrow : r'.map unlinked = r.map unlinked) :
    Alike p gone (v.put p e (v.store.hold p Tbl.refreshTokens i r))
      (u.put p e' (u.store.hold p Tbl.refreshTokens i r')) where
  clock := halike.clock
  mem := halike.mem
  next := by
    funext t
    rw [View.put_store, View.put_store, Store.hold_next, Store.hold_next]
    exact congrFun halike.next t
  tx := halike.tx
  users := by
    rw [View.put_store, View.put_store, Store.hold_stored, Store.hold_stored]
    exact halike.users
  others := by
    intro t ht
    rw [View.put_store, View.put_store, Store.seen_hold, Store.seen_hold,
      Function.update_of_ne ht, Function.update_of_ne ht]
    exact halike.others t ht
  tokens := by
    intro j
    rw [View.put_store, View.put_store, Store.seen_hold, Store.seen_hold,
      Function.update_self, Function.update_self]
    by_cases hj : j = i
    · rw [hj, Function.update_self, Function.update_self]
      exact Or.inl hrow
    · rw [Function.update_of_ne hj, Function.update_of_ne hj]
      exact halike.tokens j

theorem push (halike : Alike p gone v u) (hv : v.store.Wf) (hu : u.store.Wf)
    (e e' : Event (schema rt) (platform rt)) (r : RefreshToken) :
    Alike p gone (v.put p e (v.store.push p Tbl.refreshTokens r))
      (u.put p e' (u.store.push p Tbl.refreshTokens r)) where
  clock := halike.clock
  mem := halike.mem
  next := by
    funext t
    rw [View.put_store, View.put_store, Store.push_next, Store.push_next, halike.next]
  tx := halike.tx
  users := by
    rw [View.put_store, View.put_store, Store.push_stored _ _ _ _ (hv.vacant _ _ le_rfl).1,
      Store.push_stored _ _ _ _ (hu.vacant _ _ le_rfl).1]
    exact halike.users
  others := by
    intro t ht
    rw [View.put_store, View.put_store, hv.seen_push, hu.seen_push,
      Function.update_of_ne ht, Function.update_of_ne ht]
    exact halike.others t ht
  tokens := by
    intro j
    rw [View.put_store, View.put_store, hv.seen_push, hu.seen_push,
      Function.update_self, Function.update_self, halike.next]
    by_cases hj : j = v.store.next Tbl.refreshTokens
    · rw [hj, Function.update_self, Function.update_self]
      exact Or.inl rfl
    · rw [Function.update_of_ne hj, Function.update_of_ne hj]
      exact halike.tokens j

/-- A digest that is not gone is met on both sides or on neither. -/
theorem hash_iff (halike : Alike p gone v u) {hash : String} (hfresh : ¬ gone hash) :
    (∃ i row, u.store.seen p Tbl.refreshTokens i = some row ∧ hash = row.tokenHash) ↔
      ∃ i row, v.store.seen p Tbl.refreshTokens i = some row ∧ hash = row.tokenHash := by
  constructor
  · rintro ⟨i, row, hrow, hhash⟩
    rcases halike.tokens i with hsame | ⟨hnone, -⟩
    · rw [hrow, Option.map_some, eq_comm, Option.map_eq_some_iff] at hsame
      obtain ⟨row', hrow', hcolumns⟩ := hsame
      refine ⟨i, row', hrow', ?_⟩
      rw [hhash, unlinked_eq hcolumns]
    · rw [hnone] at hrow
      cases hrow
  · rintro ⟨i, row, hrow, hhash⟩
    rcases halike.tokens i with hsame | ⟨-, row', hrow', hgone⟩
    · rw [hrow, Option.map_some, Option.map_eq_some_iff] at hsame
      obtain ⟨row', hrow', hcolumns⟩ := hsame
      refine ⟨i, row', hrow', ?_⟩
      rw [hhash, unlinked_eq hcolumns]
    · rw [hrow] at hrow'
      rw [← Option.some.inj hrow', ← hhash] at hgone
      exact absurd hgone hfresh

end Alike

/-- Two transactions of the same refresh, with the same row in front of them. -/
structure Beside (p : Pid) (gone : String → Prop) (t₀ : Time) (i : Nat) (c : RefreshToken)
    (v u : BackendView rt) : Prop where
  alike : Alike p gone v u
  opened : v.store.tx p = some { startedAt := t₀, aborted := false }
  clock : v.store.clock = t₀
  left : (v.store.seen p Tbl.refreshTokens i).map unlinked = some c
  right : (u.store.seen p Tbl.refreshTokens i).map unlinked = some c

/-- Two transactions that have an error to raise. -/
def Broken (p : Pid) (gone : String → Prop) (v u : BackendView rt) : Prop :=
  Alike p gone v u ∧ (v.store.tx p).isSome = true

section Operations

variable {env : Fortune (platform rt)} {p : Pid} {gone : String → Prop} {t₀ : Time} {i : Nat}
  {c d : RefreshToken} {v u : BackendView rt}

theorem Beside.put (hbeside : Beside p gone t₀ i c v u)
    (e e' : Event (schema rt) (platform rt)) :
    Beside p gone t₀ i c (v.put p e v.store) (u.put p e' u.store) :=
  ⟨hbeside.alike.put e e', hbeside.opened, hbeside.clock, hbeside.left, hbeside.right⟩

theorem Beside.opened' (hbeside : Beside p gone t₀ i c v u) :
    u.store.tx p = some { startedAt := t₀, aborted := false } :=
  hbeside.alike.tx.trans hbeside.opened

theorem Beside.broken (hbeside : Beside p gone t₀ i c v u)
    (e e' : Event (schema rt) (platform rt)) :
    Broken p gone (v.put p e (v.store.abort p)) (u.put p e' (u.store.abort p)) := by
  refine ⟨hbeside.alike.abort e e', ?_⟩
  rw [View.put_store, Store.abort, hbeside.opened]
  simp

theorem Beside.raise (hbeside : Beside p gone t₀ i c v u) : Broken p gone v u :=
  ⟨hbeside.alike, by rw [hbeside.opened]; rfl⟩

theorem beside_read : Lockstep env p (Beside p gone t₀ i c)
    (Sql.read .manager : Method rt (Snapshot (schema rt))) (Sql.read .manager)
    (fun s s' v u => Beside p gone t₀ i c v u ∧
      s = v.store.snapshot t₀ (v.store.seen p) ∧ s' = u.store.snapshot t₀ (u.store.seen p))
    (Broken p gone) := by
  refine Lockstep.statement (T := both (fun s s' v u => Beside p gone t₀ i c v u ∧
      s = v.store.snapshot t₀ (v.store.seen p) ∧ s' = u.store.snapshot t₀ (u.store.seen p))
    (Broken p gone)) ?_ ?_ fun _ _ => Lockstep.answer
  · intro e res v u hbeside hfailure
    rw [← Option.some.inj hfailure]
    exact ⟨rfl, hbeside.broken _ _⟩
  · intro v u _ _ hbeside
    have hrun (w : BackendView rt)
        (hopened : w.store.tx p = some { startedAt := t₀, aborted := false }) :
        w.store.exec p (.read .manager) =
          some (.ok (w.store.snapshot t₀ (w.store.seen p)), w.store) := by
      simp only [Store.exec, Store.execRead, hopened, Bool.false_eq_true, if_false]
      rfl
    rw [hrun v hbeside.opened, hrun u hbeside.opened']
    exact .some ⟨hbeside.put _ _, rfl, rfl⟩

theorem beside_touch {where_ : Time → RefreshToken → Bool}
    {set : Time → Change (schema rt) Tbl.refreshTokens}
    (hwhere : ∀ row, unlinked row = c → where_ t₀ row = true)
    (hset : ∀ row, unlinked row = c → ((set t₀).apply row).map unlinked = some d) :
    Lockstep env p (Beside p gone t₀ i c)
      (Sql.touch (P := platform rt) Tbl.refreshTokens i where_ set)
      (Sql.touch Tbl.refreshTokens i where_ set)
      (fun x y v u => Beside p gone t₀ i d v u ∧ ∃ row row', x = some row ∧ y = some row' ∧
        unlinked row = c ∧ unlinked row' = c)
      (Broken p gone) := by
  refine Lockstep.statement (T := both (fun x y v u => Beside p gone t₀ i d v u ∧
      ∃ row row', x = some row ∧ y = some row' ∧ unlinked row = c ∧ unlinked row' = c)
    (Broken p gone)) ?_ ?_ fun _ _ => Lockstep.answer
  · intro e res v u hbeside hfailure
    rw [← Option.some.inj hfailure]
    exact ⟨rfl, hbeside.broken _ _⟩
  · intro v u halone halone' hbeside
    have hrun (w : BackendView rt) (hw : Alone p w) (row : RefreshToken)
        (hopened : w.store.tx p = some { startedAt := t₀, aborted := false })
        (hseen : w.store.seen p Tbl.refreshTokens i = some row) (hrow : unlinked row = c) :
        w.store.exec p (.touch Tbl.refreshTokens i where_ set) = some (.ok (some row),
          w.store.hold p Tbl.refreshTokens i ((set t₀).apply row)) := by
      have hview : ((w.store.table Tbl.refreshTokens).cell i).view p = some row := hseen
      simp only [Store.exec, Store.execTouch, hopened, hw.unlocked, hview, hwhere row hrow,
        Bool.false_eq_true, if_false, if_true]
    obtain ⟨row, hseen, hrow⟩ := Option.map_eq_some_iff.mp hbeside.left
    obtain ⟨row', hseen', hrow'⟩ := Option.map_eq_some_iff.mp hbeside.right
    rw [hrun v halone row hbeside.opened hseen hrow,
      hrun u halone' row' hbeside.opened' hseen' hrow']
    refine .some ⟨⟨?_, hbeside.opened, hbeside.clock, ?_, ?_⟩, row, row', rfl, rfl, hrow, hrow'⟩
    · exact hbeside.alike.hold _ _ i ((hset row' hrow').trans (hset row hrow).symm)
    · rw [View.put_store, Store.seen_hold, Function.update_self, Function.update_self]
      exact hset row hrow
    · rw [View.put_store, Store.seen_hold, Function.update_self, Function.update_self]
      exact hset row' hrow'

/-- A new token is checked against the same rows, but for those that are gone. -/
theorem Beside.checks (hbeside : Beside p gone t₀ i c v u) (halone : Alone p v)
    (halone' : Alone p u) {row : RefreshToken} (hfresh : ¬ gone row.tokenHash)
    (hlink : row.replacedById = none) :
    u.store.anyCell Tbl.refreshTokens
        (fun cell => cell.always p (Tbl.clash .refreshTokens row)) =
      v.store.anyCell Tbl.refreshTokens
        (fun cell => cell.always p (Tbl.clash .refreshTokens row)) ∧
    u.store.refsVisible p Tbl.refreshTokens row =
      v.store.refsVisible p Tbl.refreshTokens row := by
  constructor
  · rw [Bool.eq_iff_iff, halone'.anyCell_eq, halone.anyCell_eq]
    simpa [Tbl.clash] using hbeside.alike.hash_iff hfresh
  · have hrefs : (schema rt).refs Tbl.refreshTokens row = [(Tbl.users, row.userId)] := by
      simp [schema, Tbl.refs, hlink]
    have husers : u.store.seen p Tbl.users row.userId = v.store.seen p Tbl.users row.userId :=
      congrFun (hbeside.alike.others Tbl.users (by simp)) row.userId
    have hvisible (w : BackendView rt) : w.store.refsVisible p Tbl.refreshTokens row =
        (w.store.seen p Tbl.users row.userId).isSome := by
      rw [Store.refsVisible, hrefs]
      exact Bool.and_true _
    rw [hvisible, hvisible, husers]

theorem Beside.push (hbeside : Beside p gone t₀ i c v u) (halone : Alone p v)
    (halone' : Alone p u) (e e' : Event (schema rt) (platform rt)) (row : RefreshToken) :
    Beside p gone t₀ i c (v.put p e (v.store.push p Tbl.refreshTokens row))
      (u.put p e' (u.store.push p Tbl.refreshTokens row)) := by
  have hkept (w : BackendView rt) (hw : w.store.Wf) (e : Event (schema rt) (platform rt))
      (hseen : (w.store.seen p Tbl.refreshTokens i).map unlinked = some c) :
      (((w.put p e (w.store.push p Tbl.refreshTokens row)).store.seen p
        Tbl.refreshTokens i).map unlinked) = some c := by
    have hold : i ≠ w.store.next Tbl.refreshTokens := by
      rintro rfl
      rw [hw.seen_vacant p le_rfl] at hseen
      cases hseen
    rw [View.put_store, hw.seen_push, Function.update_self, Function.update_of_ne hold]
    exact hseen
  exact
    { alike := hbeside.alike.push halone.wf halone'.wf e e' row
      opened := hbeside.opened
      clock := hbeside.clock
      left := hkept v halone.wf e hbeside.left
      right := hkept u halone'.wf e' hbeside.right }

theorem beside_insert {row : Time → RefreshToken} (hfresh : ¬ gone (row t₀).tokenHash)
    (hlink : (row t₀).replacedById = none) :
    Lockstep env p (Beside p gone t₀ i c)
      (Sql.insert (σ := schema rt) (P := platform rt) Tbl.refreshTokens row)
      (Sql.insert Tbl.refreshTokens row)
      (fun x y v u => Beside p gone t₀ i c v u ∧ x = y) (Broken p gone) := by
  refine Lockstep.statement (T := both (fun x y v u => Beside p gone t₀ i c v u ∧ x = y)
    (Broken p gone)) ?_ ?_ fun _ _ => Lockstep.answer
  · intro e res v u hbeside hfailure
    rw [← Option.some.inj hfailure]
    exact ⟨rfl, hbeside.broken _ _⟩
  · intro v u halone halone' hbeside
    obtain ⟨hclash, hrefs⟩ := hbeside.checks halone halone' hfresh hlink
    have hrefused (e : SqlError) : Option.Rel (fun a b =>
        both (fun x y v u => Beside p gone t₀ i c v u ∧ x = y) (Broken p gone) a.1 b.1
          (v.put p ⟨.sql (.insert Tbl.refreshTokens row), a.1⟩ a.2)
          (u.put p ⟨.sql (.insert Tbl.refreshTokens row), b.1⟩ b.2))
        (some (.error e, v.store.setTx p (some { startedAt := t₀, aborted := true })))
        (some (.error e, u.store.setTx p (some { startedAt := t₀, aborted := true }))) := by
      refine .some ⟨rfl, hbeside.alike.setTx _ _ _, ?_⟩
      rw [View.put_store, Store.setTx_tx_self]
      rfl
    simp only [Store.exec, Store.execInsert, hbeside.opened, hbeside.opened',
      Bool.false_eq_true, if_false, halone.anyCell_maybe, halone'.anyCell_maybe, hclash, hrefs]
    split_ifs with hadmits hconflict hmissing
    · exact hrefused .dataException
    · exact hrefused .uniqueViolation
    · exact hrefused .foreignKeyViolation
    · refine .some ⟨hbeside.push halone halone' _ _ _, ?_⟩
      rw [hbeside.alike.next]

theorem beside_user (userId : Nat) : Lockstep env p (Beside p gone t₀ i c)
    (UsersRepository.findById userId : Method rt _) (UsersRepository.findById userId)
    (fun x y v u => Beside p gone t₀ i c v u ∧ x = y) (Broken p gone) := by
  refine Lockstep.andThen (S := fun s s' v u => Beside p gone t₀ i c v u ∧
    s.rows Tbl.users = s'.rows Tbl.users) (Lockstep.statement (T := both (fun s s' v u =>
      Beside p gone t₀ i c v u ∧ s.rows Tbl.users = s'.rows Tbl.users) (Broken p gone))
        ?_ ?_ fun _ _ => Lockstep.answer) fun s s' => ?_
  · intro e res v u hbeside hfailure
    rw [← Option.some.inj hfailure]
    exact ⟨rfl, (hbeside.put _ _).raise⟩
  · intro v u _ _ hbeside
    refine .some ⟨hbeside.put _ _, ?_⟩
    simp only [Snapshot.rows, Store.snapshot, hbeside.alike.users, hbeside.alike.next]
  · refine Lockstep.given (fun v u _ _ hA => hA.2) fun hrows => ?_
    refine Lockstep.ret fun v u hA => ⟨hA.1, ?_⟩
    rw [hrows]

theorem beside_node (op : NodeOp) : Lockstep env p (Beside p gone t₀ i c)
    (nodeCall op : Method rt op.Res) (nodeCall op)
    (fun x y v u => Beside p gone t₀ i c v u ∧ x = y ∧
      ∃ n mem mem', Memory.exec rt p t₀ op (env.choice n) mem = some (x, mem'))
    (Broken p gone) := by
  refine Lockstep.exec (T := fun x y v u => Beside p gone t₀ i c v u ∧ x = y ∧
      ∃ n mem mem', Memory.exec rt p t₀ op (env.choice n) mem = some (x, mem'))
    (fun _ => rfl) ?_ fun x y => Lockstep.ret fun v u hA => hA
  intro n v u _ _ hbeside
  have hrun (w : BackendView rt) (hclock : w.store.clock = t₀) (hmem : w.mem = v.mem) :
      w.exec p (env.choice n) (.node op) =
        (Memory.exec rt p t₀ op (env.choice n) v.mem).map fun out =>
          (out.1, w.remember p ⟨.node op, out.1⟩ out.2) := by
    rw [← hclock, ← hmem]
    rfl
  rw [hrun v hbeside.clock rfl,
    hrun u (hbeside.alike.clock.trans hbeside.clock) hbeside.alike.mem]
  cases hexec : Memory.exec rt p t₀ op (env.choice n) v.mem with
  | none => exact .none
  | some out =>
      refine .some ⟨?_, rfl, n, v.mem, out.2, hexec⟩
      exact ⟨hbeside.alike.remember _ _ _, hbeside.opened, hbeside.clock, hbeside.left,
        hbeside.right⟩

theorem beside_fork (req : Request) : Lockstep env p (Beside p gone t₀ i c)
    (AuthService.forget req : Method rt Unit) (AuthService.forget req)
    (fun _ _ v u => Beside p gone t₀ i c v u) (Broken p gone) := by
  refine Lockstep.exec (T := fun _ _ v u => Beside p gone t₀ i c v u) (fun _ => rfl) ?_
    fun x y => Lockstep.ret fun v u hA => hA
  intro n v u _ _ hbeside
  exact .some ⟨⟨hbeside.alike.clock, hbeside.alike.mem, hbeside.alike.next, hbeside.alike.tx,
    hbeside.alike.users, hbeside.alike.others, hbeside.alike.tokens⟩, hbeside.opened,
    hbeside.clock, hbeside.left, hbeside.right⟩

/-- A lookup by a digest finds the one row that has it. -/
theorem matching_hash {w : BackendView rt} (hwf : w.store.Wf)
    (hseen : (w.store.seen p Tbl.refreshTokens i).map unlinked = some c) :
    Sql.matching (w.store.snapshot t₀ (w.store.seen p)) Tbl.refreshTokens
      (fun _ row => row.tokenHash == c.tokenHash) = [i] := by
  obtain ⟨row, hrow, rfl⟩ := Option.map_eq_some_iff.mp hseen
  refine List.perm_singleton.mp ((List.perm_ext_iff_of_nodup (Sql.matching_nodup _ _ _)
    (List.nodup_singleton i)).mpr fun j => ?_)
  rw [Sql.mem_matching, List.mem_singleton]
  constructor
  · rintro ⟨-, row', hrow', hhash⟩
    exact hwf.seen_distinct (t := Tbl.refreshTokens) hrow' hrow hhash
  · rintro rfl
    refine ⟨?_, row, hrow, beq_self_eq_true _⟩
    by_contra hlate
    rw [hwf.seen_vacant p (Nat.le_of_not_lt hlate)] at hrow
    cases hrow

theorem beside_select : Lockstep env p (Beside p gone t₀ i c)
    (selectForUpdate c.tokenHash : Method rt _) (selectForUpdate c.tokenHash)
    (fun x y v u => Beside p gone t₀ i c v u ∧ ∃ row row', x = some (i, row) ∧
      y = some (i, row') ∧ unlinked row = c ∧ unlinked row' = c) (Broken p gone) := by
  have htouch : Lockstep env p (Beside p gone t₀ i c)
      (Sql.touchEach (σ := schema rt) (P := platform rt) Tbl.refreshTokens
        (fun _ row => row.tokenHash == c.tokenHash) (fun _ => Change.keep) [] [i])
      (Sql.touchEach (σ := schema rt) Tbl.refreshTokens
        (fun _ row => row.tokenHash == c.tokenHash) (fun _ => Change.keep) [] [i])
      (fun x y v u => Beside p gone t₀ i c v u ∧ ∃ row row', x = [(i, row)] ∧
        y = [(i, row')] ∧ unlinked row = c ∧ unlinked row' = c) (Broken p gone) := by
    refine Lockstep.andThen (beside_touch (d := c) ?_ ?_) fun x y => Lockstep.ret ?_
    · rintro row rfl
      exact beq_self_eq_true _
    · rintro row rfl
      rfl
    · rintro v u ⟨hbeside, row, row', rfl, rfl, hrow, hrow'⟩
      exact ⟨hbeside, row, row', rfl, rfl, hrow, hrow'⟩
  have hsweep : Lockstep env p (Beside p gone t₀ i c)
      (Sql.sweep (σ := schema rt) (P := platform rt) Tbl.refreshTokens
        (fun _ row => row.tokenHash == c.tokenHash) fun _ => Change.keep)
      (Sql.sweep (σ := schema rt) Tbl.refreshTokens
        (fun _ row => row.tokenHash == c.tokenHash) fun _ => Change.keep)
      (fun x y v u => Beside p gone t₀ i c v u ∧ ∃ row row', x = [(i, row)] ∧
        y = [(i, row')] ∧ unlinked row = c ∧ unlinked row' = c) (Broken p gone) := by
    refine Lockstep.andThen beside_read fun s s' => ?_
    refine Lockstep.given (φ := Sql.matching s Tbl.refreshTokens
        (fun _ row => row.tokenHash == c.tokenHash) = [i] ∧ Sql.matching s' Tbl.refreshTokens
          (fun _ row => row.tokenHash == c.tokenHash) = [i]) ?_ fun hfound => ?_
    · rintro v u halone halone' ⟨hbeside, rfl, rfl⟩
      exact ⟨matching_hash halone.wf hbeside.left, matching_hash halone'.wf hbeside.right⟩
    · rw [hfound.1, hfound.2]
      exact Lockstep.weaken htouch fun v u _ _ hA => hA.1
  refine Lockstep.andThen hsweep fun x y => Lockstep.ret ?_
  rintro v u ⟨hbeside, row, row', rfl, rfl, hrow, hrow'⟩
  exact ⟨hbeside, row, row', rfl, rfl, hrow, hrow'⟩

/-- The old token is revoked in favour of its successor. -/
theorem beside_revoke (hactive : c.revokedAt = none) (newId : Nat) :
    Lockstep env p (Beside p gone t₀ i c)
      (revokeRow i newId : Method rt Nat) (revokeRow i newId)
      (fun _ _ v u => Beside p gone t₀ i { c with revokedAt := some t₀ } v u)
      (Broken p gone) := by
  refine Lockstep.andThen beside_read fun s s' => ?_
  have hids (w : BackendView rt) (hwf : w.store.Wf)
      (hseen : (w.store.seen p Tbl.refreshTokens i).map unlinked = some c) :
      (((w.store.snapshot t₀ (w.store.seen p)).rows Tbl.refreshTokens).filter fun row =>
        row.1 == i && row.2.revokedAt.isNone).map Prod.fst = [i] := by
    obtain ⟨row, hrow, rfl⟩ := Option.map_eq_some_iff.mp hseen
    have hold : i < w.store.next Tbl.refreshTokens := by
      by_contra hlate
      rw [hwf.seen_vacant p (Nat.le_of_not_lt hlate)] at hrow
      cases hrow
    have hnone : row.revokedAt = none := hactive
    rw [Snapshot.withId (σ := schema rt) _ Tbl.refreshTokens i fun row => row.revokedAt.isNone]
    exact if_pos ⟨hold, by simp [Store.snapshot, hrow, hnone]⟩
  refine Lockstep.given (φ := ((s.rows Tbl.refreshTokens).filter fun row =>
      row.1 == i && row.2.revokedAt.isNone).map Prod.fst = [i] ∧
        ((s'.rows Tbl.refreshTokens).filter fun row =>
          row.1 == i && row.2.revokedAt.isNone).map Prod.fst = [i]) ?_ fun hfound => ?_
  · rintro v u halone halone' ⟨hbeside, rfl, rfl⟩
    exact ⟨hids v halone.wf hbeside.left, hids u halone'.wf hbeside.right⟩
  · simp only [Prog.bind_eq, Prog.pure_eq]
    rw [hfound.1, hfound.2]
    refine Lockstep.weaken (Lockstep.andThen (Lockstep.andThen (beside_touch
      (d := { c with revokedAt := some t₀ }) ?_ ?_) fun x y => Lockstep.ret fun v u hA => hA.1)
        fun rows rows' => Lockstep.ret fun v u hA => hA) fun v u _ _ hA => hA.1
    · rintro row rfl
      exact Option.isNone_iff_eq_none.mpr hactive
    · rintro row rfl
      rfl

/-- The rotation of an active token, when no draw has the digest of a missing row. -/
theorem beside_rotation (hdraws : ∀ n, ¬ gone (rt.sha256 (env.choice n).text))
    (hactive : c.revokedAt = none) (row : RefreshToken) (requestMeta : RequestMeta)
    (now : Time) : Lockstep env p (Beside p gone t₀ i c)
      (AuthService.buildRotationPayload (i, row) requestMeta now)
      (AuthService.buildRotationPayload (i, row) requestMeta now)
      (fun x y v u => x = y ∧ Broken p gone v u) (Broken p gone) := by
  refine Lockstep.andThen (beside_node .randomBytes) fun raw raw' => ?_
  refine Lockstep.given (φ := raw = raw' ∧ ¬ gone (rt.sha256 raw)) ?_ fun hraw => ?_
  · rintro v u - - ⟨-, rfl, n, mem, mem', hdraw⟩
    have hmint : (mem.mint p (env.choice n).text) = some (raw, mem') := hdraw
    unfold Memory.mint at hmint
    split at hmint
    · cases hmint
    · split at hmint
      · cases hmint
      · obtain ⟨rfl, -⟩ := Prod.mk.inj (Option.some.inj hmint)
        exact ⟨rfl, hdraws n⟩
  obtain ⟨rfl, hfresh⟩ := hraw
  refine Lockstep.weaken (Lockstep.andThen (beside_insert hfresh rfl) fun new new' => ?_)
    fun v u _ _ hA => hA.1
  refine Lockstep.given (fun v u _ _ hA => hA.2) fun hnew => ?_
  subst hnew
  refine Lockstep.weaken (Lockstep.andThen (beside_revoke hactive new.1) fun _ _ =>
    Lockstep.andThen (beside_user row.userId) fun user user' => ?_) fun v u _ _ hA => hA.1
  refine Lockstep.given (fun v u _ _ hA => hA.2) fun huser => ?_
  subst huser
  cases user with
  | none =>
      exact Lockstep.weaken (Lockstep.andThen (beside_fork (.revokeFamily row.familyId))
        fun _ _ => Lockstep.throw fun v u hbeside => hbeside.raise) fun v u _ _ hA => hA.1
  | some user => exact Lockstep.ret fun v u hA => ⟨rfl, hA.1.raise⟩

theorem alike_transaction {α : Type} {x y : Method rt α}
    (hbody : Lockstep env p (Beside p gone t₀ i c) x y
      (fun a b v u => a = b ∧ Broken p gone v u) (Broken p gone)) :
    Lockstep env p
      (fun v u => Beside p gone t₀ i c (v.put p ⟨.sql .begin, ()⟩ (v.store.setTx p
        (some { startedAt := t₀, aborted := false }))) (u.put p ⟨.sql .begin, ()⟩
          (u.store.setTx p (some { startedAt := t₀, aborted := false }))) ∧
        v.store.tx p = none ∧ u.store.tx p = none)
      (Sql.transaction x) (Sql.transaction y)
      (fun a b _ _ => a = b) fun _ _ => True := by
  refine Lockstep.exec (T := fun _ _ => Beside p gone t₀ i c) (fun _ => rfl) ?_ fun _ _ => ?_
  · rintro n v u - - ⟨hbeside, hclosed, hclosed'⟩
    have hopen (w : BackendView rt) (hclock : w.store.clock = t₀)
        (hclosed : w.store.tx p = none) : w.exec p (env.choice n) (.sql .begin) =
          some ((), w.put p ⟨.sql .begin, ()⟩ (w.store.setTx p
            (some { startedAt := t₀, aborted := false }))) := by
      simp only [View.exec, Store.exec, hclosed, hclock, Option.map_some]
      rfl
    have hclock : v.store.clock = t₀ := hbeside.clock
    rw [hopen v hclock hclosed, hopen u (hbeside.alike.clock.trans hclock) hclosed']
    exact .some hbeside
  · refine Lockstep.attempt (Lockstep.andThen hbody fun a b => ?_) fun e => ?_
    · refine Lockstep.exec (T := fun _ _ _ _ => a = b) (fun _ => rfl) ?_
        fun _ _ => Lockstep.ret fun v u hA => hA
      rintro n v u - - ⟨hsame, halike, hopen⟩
      obtain ⟨x, hx⟩ := Option.isSome_iff_exists.mp hopen
      simp only [View.exec, Store.exec, hx, halike.tx, Option.map_some]
      exact .some hsame
    · refine Lockstep.exec (T := fun _ _ _ _ => True) (fun _ => rfl) ?_
        fun _ _ => Lockstep.throw fun v u hA => hA
      rintro n v u - - ⟨halike, hopen⟩
      obtain ⟨x, hx⟩ := Option.isSome_iff_exists.mp hopen
      simp only [View.exec, Store.exec, hx, halike.tx, Option.map_some]
      exact .some trivial

/-- A refresh of an active token answers the same on both sides. -/
theorem refresh_lockstep (hdraws : ∀ n, ¬ gone (rt.sha256 (env.choice n).text))
    (hactive : c.revokedAt = none) (hlive : t₀ < c.expiresAt) {rawToken : String}
    (hhash : c.tokenHash = AuthService.hashToken rt rawToken) (requestMeta : RequestMeta) :
    Lockstep env p
      (fun v u => Beside p gone t₀ i c (v.put p ⟨.sql .begin, ()⟩ (v.store.setTx p
        (some { startedAt := t₀, aborted := false }))) (u.put p ⟨.sql .begin, ()⟩
          (u.store.setTx p (some { startedAt := t₀, aborted := false }))) ∧
        v.store.tx p = none ∧ u.store.tx p = none)
      (AuthService.refresh rawToken requestMeta) (AuthService.refresh rawToken requestMeta)
      (fun a b _ _ => a = b) fun _ _ => True := by
  refine Lockstep.andThen (alike_transaction (c := c) (i := i) ?_) fun x y => ?_
  · rw [← hhash]
    refine Lockstep.andThen beside_select fun x y => ?_
    refine Lockstep.given (fun v u _ _ hA => hA.2) fun hfound => ?_
    obtain ⟨row, row', rfl, rfl, hrow, hrow'⟩ := hfound
    refine Lockstep.weaken (Lockstep.andThen (beside_node .turn) fun read read' => ?_)
      fun v u _ _ hA => hA.1
    refine Lockstep.given (φ := read = read' ∧ read.1 = t₀) ?_ fun hread => ?_
    · rintro v u - - ⟨-, rfl, n, mem, mem', hturn⟩
      exact ⟨rfl, congrArg (fun out => out.1.1) (Option.some.inj hturn).symm⟩
    obtain ⟨rfl, hnow⟩ := hread
    rw [unlinked_eq (hrow'.trans hrow.symm)]
    have hunexpired : ¬ row.expiresAt ≤ read.1 := by
      rw [← hrow] at hlive
      rw [hnow]
      exact Nat.not_le_of_lt hlive
    have hunrevoked : ¬ row.revokedAt.isSome = true := by
      rw [← hrow] at hactive
      rw [show row.revokedAt = none from hactive]
      exact Bool.false_ne_true
    simp only [hunexpired, hunrevoked, if_false]
    exact Lockstep.weaken (beside_rotation hdraws hactive row requestMeta read.1)
      fun v u _ _ hA => hA.1
  · refine Lockstep.given (fun v u _ _ hsame => hsame) fun hsame => ?_
    subst hsame
    cases x with
    | retried loginResult => exact Lockstep.ret fun _ _ _ => rfl
    | rotated loginResult newRaw newExpiresAt =>
        refine Lockstep.exec (T := fun _ _ _ _ => True) (fun _ => rfl) ?_
          fun _ _ => Lockstep.ret fun _ _ _ => rfl
        rintro n v u - - -
        exact .some trivial

end Operations

/-! ### The cleanup and what it leaves alone -/

/-- Expired for more than the grace days, or revoked for more than the forensic days. -/
def Removable (graceDays forensicDays : Nat) (now : Time) (row : RefreshToken) : Prop :=
  row.expiresAt + graceDays * MS_PER_DAY < now ∨
    ∃ revokedAt, row.revokedAt = some revokedAt ∧ revokedAt + forensicDays * MS_PER_DAY < now

/-- Neither revoked nor expired. -/
def Active (now : Time) (row : RefreshToken) : Prop :=
  row.revokedAt = none ∧ now < row.expiresAt

/-- The successor of the row is removed. -/
def Dangling (removable : RefreshToken → Prop) (before : TokenTable) (row : RefreshToken) :
    Prop :=
  ∃ j target, row.replacedById = some j ∧ before j = some target ∧ removable target

/-- Exactly the removable rows are gone, and the others have lost their pointers to them. -/
structure Cleaned (removable : RefreshToken → Prop) (before after : TokenTable) : Prop where
  absent : ∀ i, before i = none → after i = none
  removed : ∀ i row, before i = some row → (after i = none ↔ removable row)
  columns : ∀ i row row', before i = some row → after i = some row' →
    row' = { row with replacedById := row'.replacedById }
  cleared : ∀ i row row', before i = some row → after i = some row' →
    Dangling removable before row → row'.replacedById = none
  pointers : ∀ i row row', before i = some row → after i = some row' →
    ¬ Dangling removable before row → row'.replacedById = row.replacedById

theorem removable_iff {graceDays forensicDays : Nat} {now : Time} {row : RefreshToken} :
    (expiredBefore graceDays now row || revokedBefore forensicDays now row) = true ↔
      Removable graceDays forensicDays now row := by
  simp only [expiredBefore, revokedBefore, Removable, Bool.or_eq_true, decide_eq_true_eq,
    Option.any_eq_true]

theorem Active.not_removable {graceDays forensicDays : Nat} {now : Time} {row : RefreshToken}
    (hactive : Active now row) : ¬ Removable graceDays forensicDays now row := by
  rintro (hexpired | ⟨revokedAt, hrevoked, -⟩)
  · exact Nat.lt_asymm hactive.2 (Nat.lt_of_le_of_lt (Nat.le_add_right _ _) hexpired)
  · rw [hactive.1] at hrevoked
    cases hrevoked

theorem cleaned_prune {removable : RefreshToken → Prop} {bad : RefreshToken → Bool}
    (hbad : ∀ row, bad row = true ↔ removable row) (s : TokenTable) :
    Cleaned removable s (prune bad s) := by
  have hdangling (row : RefreshToken) : Dangling removable s row ↔
      row.replacedById.any (fun id => (s id).any bad) = true := by
    simp only [Dangling, Option.any_eq_true, hbad]
    exact ⟨fun ⟨j, target, hlink, hrow, hgone⟩ => ⟨j, hlink, target, hrow, hgone⟩,
      fun ⟨j, hlink, target, hrow, hgone⟩ => ⟨j, target, hlink, hrow, hgone⟩⟩
  have hkept {i : Nat} {row row' : RefreshToken} (hrow : s i = some row)
      (hrow' : prune bad s i = some row') : cut (fun id => (s id).any bad) row = row' := by
    cases hgood : bad row with
    | true =>
        rw [prune_removed hrow hgood] at hrow'
        cases hrow'
    | false => exact Option.some.inj ((prune_kept hrow hgood).symm.trans hrow')
  constructor
  · exact fun i hrow => prune_absent hrow
  · intro i row hrow
    rw [← hbad]
    cases hgood : bad row with
    | true => simp [prune_removed hrow hgood]
    | false => simp [prune_kept hrow hgood]
  · intro i row row' hrow hrow'
    rw [← hkept hrow hrow']
    rfl
  · intro i row row' hrow hrow' hdangles
    rw [← hkept hrow hrow', cut_eq, if_pos ((hdangling row).mp hdangles)]
  · intro i row row' hrow hrow' hlinked
    rw [← hkept hrow hrow', cut_eq, if_neg (mt (hdangling row).mpr hlinked)]

theorem Pruned.tokens_eq {p : Pid} {bad : RefreshToken → Bool} {v v' : BackendView rt}
    (hpruned : Pruned p bad v v') : tokens v' = prune bad (tokens v) := by
  funext i
  rw [tokens, hpruned.stored, Function.update_self]

/-- After the cleanup a refresh of an active token starts from the same row. -/
theorem Pruned.beside {p q : Pid} {bad : RefreshToken → Bool} {v v' : BackendView rt}
    (hpruned : Pruned p bad v v') (hwf : v.store.Wf) (hwf' : v'.store.Wf)
    (hclosed : ∀ q, v.store.tx q = none) (hclosed' : ∀ q, v'.store.tx q = none) {i : Nat}
    {row : RefreshToken} (hrow : tokens v i = some row) (hgood : bad row = false) :
    Beside q (fun hash => ∃ j target, tokens v j = some target ∧ bad target = true ∧
        target.tokenHash = hash) v.store.clock i (unlinked row)
      (v.put q ⟨.sql .begin, ()⟩ (v.store.setTx q
        (some { startedAt := v.store.clock, aborted := false })))
      (v'.put q ⟨.sql .begin, ()⟩ (v'.store.setTx q
        (some { startedAt := v.store.clock, aborted := false }))) := by
  have hseen (w : BackendView rt) (hw : w.store.Wf) (hnone : w.store.tx q = none)
      (x : Option Tx) : (w.store.setTx q x).seen q = w.store.stored := by
    funext t j
    rw [Store.seen, Store.setTx_draft, (idle_of_closed hw hnone).2]
    rfl
  have hstored : v'.store.stored Tbl.refreshTokens = prune bad (tokens v) :=
    hpruned.tokens_eq
  have hother (t : Tbl) (ht : t ≠ .refreshTokens) :
      v'.store.stored t = v.store.stored t := by
    rw [hpruned.stored, Function.update_of_ne ht]
  refine
    { alike :=
        { clock := hpruned.clock
          mem := hpruned.mem
          next := hpruned.next
          tx := by simp
          users := hother Tbl.users (by simp)
          others := fun t ht => ?_
          tokens := fun j => ?_ }
      opened := Store.setTx_tx_self _ _ _
      clock := rfl
      left := ?_
      right := ?_ }
  · rw [View.put_store, View.put_store, hseen v hwf (hclosed q), hseen v' hwf' (hclosed' q)]
    exact hother t ht
  · rw [View.put_store, View.put_store, hseen v hwf (hclosed q), hseen v' hwf' (hclosed' q),
      hstored]
    show SameToken _ (tokens v j) _
    cases htoken : tokens v j with
    | none => exact Or.inl (by rw [prune_absent htoken])
    | some target =>
        cases hbad : bad target with
        | true =>
            exact Or.inr ⟨prune_removed htoken hbad, target, rfl, j, target, htoken, hbad, rfl⟩
        | false => exact Or.inl (by rw [prune_kept htoken hbad]; rfl)
  · rw [View.put_store, hseen v hwf (hclosed q)]
    exact congrArg (Option.map unlinked) hrow
  · rw [View.put_store, hseen v' hwf' (hclosed' q), hstored, prune_kept hrow hgood]
    rfl

/-- What the cleanup leaves was not revoked longer ago than any later threshold. -/
theorem Cleaned.none_past {graceDays forensicDays thresholdDays : Nat} {now : Time}
    {before after : TokenTable} (hcleaned : Cleaned (Removable graceDays forensicDays now)
      before after) (hdays : forensicDays ≤ thresholdDays) (i : Nat) (row : RefreshToken)
    (hrow : after i = some row) : revokedBefore thresholdDays now row = false := by
  cases hbefore : before i with
  | none =>
      rw [hcleaned.absent i hbefore] at hrow
      cases hrow
  | some old =>
      rw [hcleaned.columns i old row hbefore hrow]
      refine Bool.eq_false_iff.mpr fun hpast => ?_
      obtain ⟨revokedAt, hrevoked, hlate⟩ := (Option.any_eq_true _ _).mp hpast
      have hremovable : Removable graceDays forensicDays now old :=
        Or.inr ⟨revokedAt, hrevoked, Nat.lt_of_le_of_lt
          (Nat.add_le_add_left (Nat.mul_le_mul_right _ hdays) _) (of_decide_eq_true hlate)⟩
      rw [(hcleaned.removed i old hbefore).mpr hremovable] at hrow
      cases hrow

/-- Nothing is left that was revoked longer ago than the threshold. -/
theorem countPastForensicWindow_total {env : Fortune (platform rt)} {p : Pid}
    (hserved : ∀ n, env.fault n = none) (thresholdDays : Nat) :
    Total env p (fun v => ∀ i row, tokens v i = some row →
        revokedBefore thresholdDays v.store.clock row = false)
      (countPastForensicWindow thresholdDays) (ends (fun count _ => count = 0)
        fun _ _ => False) := by
  refine Total.read_pool hserved (S := fun s _ => ∀ entry ∈ s.rows Tbl.refreshTokens,
    revokedBefore thresholdDays s.now entry.2 = false) ?_ fun s => ?_
  · intro v _ hnone entry hentry
    exact hnone entry.1 entry.2 (Snapshot.mem_rows.mp hentry).2
  · refine Total.ret fun v hnone => ?_
    rw [ends_ok, List.length_eq_zero_iff, List.filter_eq_nil_iff]
    intro entry hentry
    rw [hnone entry hentry]
    exact Bool.false_ne_true

theorem expiredBefore_free (graceDays : Nat) (now : Time) :
    PointerFree (expiredBefore graceDays now) :=
  fun _ _ => rfl

theorem revokedBefore_free (forensicDays : Nat) (now : Time) :
    PointerFree (revokedBefore forensicDays now) :=
  fun _ _ => rfl

/-- The cleanup removes exactly the rows that it may, in either order of its deletes, and
clears exactly the pointers to them. An active token stays and its refresh ends as it
would have ended before, as long as no draw has the digest of a removed row. Nothing past
the breach threshold is left. -/
theorem cleanup_exact {env : Fortune (platform rt)} (hserved : ∀ n, env.fault n = none)
    {v : BackendView rt} (hwf : v.store.Wf) (hclosed : ∀ q, v.store.tx q = none) (p : Pid) :
    ∃ counts m v',
      solo env p (deleteExpiredAndStaleRevoked 7 30) 0 v = some (.ok counts, m, v') ∧
      Cleaned (Removable 7 30 v.store.clock) (tokens v) (tokens v') ∧
      counts.1 + counts.2 =
        {i | ∃ row, tokens v i = some row ∧ Removable 7 30 v.store.clock row}.ncard ∧
      (∃ counts' m' v'', solo env p (deleteBoth (revokedBefore 30) (expiredBefore 7)) 0 v =
          some (.ok counts', m', v'') ∧
        tokens v'' = tokens v' ∧ counts'.1 + counts'.2 = counts.1 + counts.2) ∧
      (∀ i row, tokens v i = some row → Active v.store.clock row →
        (tokens v' i).isSome = true ∧
        ∀ (env' : Fortune (platform rt)) q rawToken requestMeta,
          row.tokenHash = AuthService.hashToken rt rawToken →
          (∀ n j removed, tokens v j = some removed → Removable 7 30 v.store.clock removed →
            removed.tokenHash ≠ rt.sha256 (env'.choice n).text) →
          reply env' q (AuthService.refresh rawToken requestMeta) v' =
            reply env' q (AuthService.refresh rawToken requestMeta) v) ∧
      v'.store.clock = v.store.clock ∧
      reply env p (countPastForensicWindow 60) v' = some (.ok 0) ∧
      reply env p AuthService.runCleanup v = some (.ok (.cleaned counts.1 counts.2 0)) := by
  have halone : Alone p v := ⟨hwf, fun q _ => hclosed q⟩
  obtain ⟨out, m, v', hrun, halone', hend⟩ := deleteBoth_total (u := v) hserved
    (expiredBefore 7) (revokedBefore 30) (revokedBefore_free 30) 0 v halone ⟨rfl, hclosed p⟩
  obtain ⟨out', m', v'', hrun', -, hend'⟩ := deleteBoth_total (u := v) hserved
    (revokedBefore 30) (expiredBefore 7) (expiredBefore_free 7) 0 v halone ⟨rfl, hclosed p⟩
  cases out with
  | error e => exact hend.elim
  | ok counts =>
  cases out' with
  | error e => exact hend'.elim
  | ok counts' =>
  obtain ⟨hsum, hpruned⟩ := hend
  obtain ⟨hsum', hpruned'⟩ := hend'
  have horder : (fun row => revokedBefore 30 v.store.clock row ||
      expiredBefore 7 v.store.clock row) = fun row => expiredBefore 7 v.store.clock row ||
        revokedBefore 30 v.store.clock row := funext fun row => Bool.or_comm _ _
  rw [horder] at hsum' hpruned'
  have hcleaned : Cleaned (Removable 7 30 v.store.clock) (tokens v) (tokens v') := by
    rw [hpruned.tokens_eq]
    exact cleaned_prune (fun row => removable_iff) (tokens v)
  have hclosed' (q : Pid) : v'.store.tx q = none := by
    by_cases hq : q = p
    · rw [hq, hpruned.closed]
    · exact halone'.others q hq
  refine ⟨counts, m, v', hrun, hcleaned, ?_, ⟨counts', m', v'', hrun', ?_, ?_⟩, ?_,
    hpruned.clock, ?_⟩
  · simp only [hsum, Option.any_eq_true, removable_iff]
  · rw [hpruned'.tokens_eq, hpruned.tokens_eq]
  · rw [hsum', hsum]
  · intro i row hrow hactive
    have hgood : (expiredBefore 7 v.store.clock row ||
        revokedBefore 30 v.store.clock row) = false :=
      Bool.eq_false_iff.mpr (mt removable_iff.mp hactive.not_removable)
    refine ⟨by rw [hpruned.tokens_eq, prune_kept hrow hgood]; rfl, ?_⟩
    intro env' q rawToken requestMeta hhash hdraws
    have hfresh (n : Nat) : ¬ ∃ j target, tokens v j = some target ∧
        (expiredBefore 7 v.store.clock target || revokedBefore 30 v.store.clock target) = true ∧
          target.tokenHash = rt.sha256 (env'.choice n).text := by
      rintro ⟨j, target, htarget, hbad, hsame⟩
      exact hdraws n j target htarget (removable_iff.mp hbad) hsame
    exact (Lockstep.reply (refresh_lockstep hfresh (c := unlinked row) hactive.1 hactive.2
      hhash requestMeta) ⟨hwf, fun q _ => hclosed q⟩ ⟨halone'.wf, fun q _ => hclosed' q⟩
        ⟨hpruned.beside hwf halone'.wf hclosed hclosed' hrow hgood, hclosed q,
          hclosed' q⟩).symm
  · have hnone (i : Nat) (row : RefreshToken) (hrow : tokens v' i = some row) :
        revokedBefore 60 v'.store.clock row = false := by
      rw [hpruned.clock]
      exact hcleaned.none_past (by decide) i row hrow
    have hcount (n : Nat) : ∃ m'' u, solo env p (countPastForensicWindow 60) n v' =
        some (.ok 0, m'', u) := by
      obtain ⟨out, m'', u, hcount, -, hzero⟩ :=
        countPastForensicWindow_total hserved 60 n v' halone' hnone
      cases out with
      | error e => exact hzero.elim
      | ok count =>
          obtain rfl : count = 0 := hzero
          exact ⟨m'', u, hcount⟩
    constructor
    · obtain ⟨m'', u, hcount⟩ := hcount 0
      rw [reply, hcount, Option.map_some]
    · obtain ⟨m'', u, hcount⟩ := hcount m
      have hdelete : solo env p (deleteExpiredAndStaleRevoked AuthService.REFRESH_TOKEN_GRACE_DAYS
          AuthService.REFRESH_TOKEN_FORENSIC_DAYS) 0 v = some (.ok counts, m, v') := hrun
      have hpast : solo env p (countPastForensicWindow
          AuthService.REFRESH_TOKEN_RETENTION_BREACH_DAYS) m v' = some (.ok 0, m'', u) := hcount
      rw [reply, AuthService.runCleanup, Prog.bind_eq, solo_andThen, hdelete, Option.bind_some]
      dsimp only
      rw [Prog.bind_eq, solo_andThen, hpast]
      rfl

/-! ### A table that no run produces -/

/-- A backend at the time `now` with these refresh tokens and no open transaction. -/
def stocked (rt : Runtime) (seed : Seed) (now : Time) (rows : List RefreshToken) :
    BackendView rt :=
  { (boot rt seed).view with
    store := shelved rt now (Function.update seed.rows Tbl.refreshTokens rows) }

theorem stocked_wf (rt : Runtime) (seed : Seed) (now : Time) (rows : List RefreshToken)
    (hdistinct : rows.Pairwise fun a b => Tbl.clash .refreshTokens a b = false) :
    (stocked rt seed now rows).store.Wf := by
  refine shelved_wf rt now fun t => ?_
  by_cases ht : t = Tbl.refreshTokens
  · subst ht
    rw [Function.update_self]
    exact hdistinct
  · rw [Function.update_of_ne ht]
    exact seed.distinct t

/-- A token of the sample table. -/
def sampleRow (tokenHash : String) (expiresAt : Time) (revokedAt : Option Time)
    (replacedById : Option Nat) : RefreshToken where
  userId := 0
  familyId := "F1"
  tokenHash := tokenHash
  issuedAt := 0
  expiresAt := expiresAt
  revokedAt := revokedAt
  replacedById := replacedById
  userAgent := none
  ip := none

/-- Expired long ago, revoked long ago in favour of the first, revoked lately in favour of
the second, and active; the days are those of a year. -/
def sampleRows : List RefreshToken :=
  [sampleRow "a" (100 * MS_PER_DAY) none none,
    sampleRow "b" (365 * MS_PER_DAY) (some (300 * MS_PER_DAY)) (some 0),
    sampleRow "c" (365 * MS_PER_DAY) (some (350 * MS_PER_DAY)) (some 1),
    sampleRow "d" (366 * MS_PER_DAY) none none]

theorem sample_cleanup_exact : ∃ counts m v',
    solo sampleFortune 0 (deleteExpiredAndStaleRevoked 7 30) 0
        (stocked sampleRuntime sampleSeed (365 * MS_PER_DAY) sampleRows) =
      some (.ok counts, m, v') ∧
    tokens v' 0 = none ∧ tokens v' 1 = none ∧
      tokens v' 2 = some (sampleRow "c" (365 * MS_PER_DAY) (some (350 * MS_PER_DAY)) none) ∧
      (tokens v' 3).isSome = true := by
  obtain ⟨counts, m, v', hrun, hcleaned, -, -, hactive, -⟩ :=
    cleanup_exact (show ∀ n, sampleFortune.fault n = none from fun _ => rfl)
      (stocked_wf sampleRuntime sampleSeed (365 * MS_PER_DAY) sampleRows (by decide))
      (fun _ => rfl) 0
  have hexpired : Removable 7 30 (365 * MS_PER_DAY) (sampleRow "a" (100 * MS_PER_DAY) none none) :=
    Or.inl (by decide)
  have hrevoked : Removable 7 30 (365 * MS_PER_DAY)
      (sampleRow "b" (365 * MS_PER_DAY) (some (300 * MS_PER_DAY)) (some 0)) :=
    Or.inr ⟨_, rfl, by decide⟩
  have hlate : ¬ Removable 7 30 (365 * MS_PER_DAY)
      (sampleRow "c" (365 * MS_PER_DAY) (some (350 * MS_PER_DAY)) (some 1)) := by
    rw [← removable_iff]
    decide
  refine ⟨counts, m, v', hrun, (hcleaned.removed 0 _ rfl).mpr hexpired,
    (hcleaned.removed 1 _ rfl).mpr hrevoked, ?_, (hactive 3 _ rfl ⟨rfl, by decide⟩).1⟩
  cases hrow : tokens v' 2 with
  | none => exact absurd ((hcleaned.removed 2 _ rfl).mp hrow) hlate
  | some row =>
      rw [hcleaned.columns 2 _ row rfl hrow,
        hcleaned.cleared 2 _ row rfl hrow ⟨1, _, rfl, rfl, hrevoked⟩]
      rfl

end Mes
