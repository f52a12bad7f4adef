import Mes.Auth.TokenFamilies
import Mes.Transact.Lockstep
import Mes.Transact.Sweep

/-!
The cleanup of the refresh tokens, from any table at any time. Each `DELETE` clears the
pointers to the rows that it removes; the second one sees what the first has left. A token
that is neither revoked nor expired stays, and a refresh of it answers what it would have
answered before: the removed rows could only be met again by a draw with one of their
digests.
-/

namespace Mes

open Transact Transact.Logic RefreshTokensRepository

variable {rt : Runtime}

/-- The refresh tokens as one statement sees them. -/
abbrev TokenTable := Nat → Option RefreshToken

/-- Whether the rows of a table are worth keeping does not depend on the pointers
between them. -/
def PointerFree (bad : RefreshToken → Bool) : Prop :=
  ∀ row id, bad { row with replacedById := id } = bad row

/-- A row without its pointer to a removed row. -/
def cut (gone : Nat → Bool) (row : RefreshToken) : RefreshToken :=
  { row with replacedById := row.replacedById.filter fun id => !gone id }

/-- The table without the rows in `bad` and without the pointers to them. -/
def prune (bad : RefreshToken → Bool) (s : TokenTable) : TokenTable :=
  fun i => ((s i).filter fun row => !bad row).map (cut fun id => (s id).any bad)

theorem cut_cut (gone gone' : Nat → Bool) (row : RefreshToken) :
    cut gone' (cut gone row) = cut (fun id => gone id || gone' id) row := by
  simp only [cut, Option.filter_filter, Bool.not_or]

section Prune

variable {a b bad : RefreshToken → Bool} {s : TokenTable} {i : Nat} {row : RefreshToken}

theorem prune_absent (hrow : s i = none) : prune bad s i = none := by
  simp [prune, hrow]

theorem prune_removed (hrow : s i = some row) (hbad : bad row = true) :
    prune bad s i = none := by
  simp [prune, hrow, Option.filter, hbad]

theorem prune_kept (hrow : s i = some row) (hgood : bad row = false) :
    prune bad s i = some (cut (fun id => (s id).any bad) row) := by
  simp [prune, hrow, Option.filter, hgood]

theorem prune_any (hb : PointerFree b) :
    (prune a s i).any b = (s i).any fun row => !a row && b row := by
  cases hrow : s i with
  | none => rw [prune_absent hrow]; rfl
  | some row =>
      cases ha : a row with
      | true => simp [prune_removed hrow ha, ha]
      | false =>
          rw [prune_kept hrow ha, Option.any_some, Option.any_some, ha, Bool.not_false,
            Bool.true_and]
          exact hb row _

/-- Two cleanups in a row are one. -/
theorem prune_prune (hb : PointerFree b) :
    prune b (prune a s) = prune (fun row => a row || b row) s := by
  have hgone (id : Nat) : ((s id).any a || (prune a s id).any b) =
      (s id).any fun row => a row || b row := by
    rw [prune_any hb]
    cases s id with
    | none => rfl
    | some row => cases ha : a row <;> simp [ha]
  funext i
  cases hrow : s i with
  | none => rw [prune_absent hrow, prune_absent (prune_absent hrow)]
  | some row =>
      cases ha : a row with
      | true =>
          rw [prune_absent (prune_removed hrow ha), prune_removed hrow (by simp [ha])]
      | false =>
          have hkept := prune_kept hrow ha
          have hsame : b (cut (fun id => (s id).any a) row) = b row := hb row _
          cases hbad : b row with
          | true =>
              rw [prune_removed hkept (hsame.trans hbad), prune_removed hrow (by simp [hbad])]
          | false =>
              rw [prune_kept hkept (hsame.trans hbad), cut_cut,
                prune_kept hrow (by simp [ha, hbad])]
              simp only [hgone]

end Prune

/-! ### The deletes -/

/-- The action of the foreign key on one row. -/
theorem cut_eq (gone : Nat → Bool) (row : RefreshToken) :
    cut gone row =
      if row.replacedById.any gone then { row with replacedById := none } else row := by
  obtain ⟨userId, familyId, tokenHash, issuedAt, expiresAt, revokedAt, link, userAgent, ip⟩ :=
    row
  cases link with
  | none => rfl
  | some id => cases hgone : gone id <;> simp [cut, Option.filter, hgone]

/-- The deletion and the action of the foreign key together. -/
theorem edited_edited (rt : Runtime) (bad : RefreshToken → Bool) (s : TokenTable) :
    edited (fun row => row.replacedById.any fun id => (s id).any bad)
      (clearReplacedBy rt).apply (edited bad (fun _ => none) s) = prune bad s := by
  funext i
  cases hrow : s i with
  | none => simp [edited, prune_absent hrow, hrow]
  | some row =>
      cases hbad : bad row with
      | true => simp [edited, prune_removed hrow hbad, hrow, hbad]
      | false =>
          rw [prune_kept hrow hbad, cut_eq]
          simp only [edited, hrow, hbad, clearReplacedBy, Change.modify, Option.bind_some,
            Bool.false_eq_true, if_false]
          split <;> rfl

/-- `deleteExpiredAndStaleRevoked` with its two clauses as parameters. -/
def deleteBoth (first second : Time → RefreshToken → Bool) : Method rt (Nat × Nat) :=
  Sql.transaction do
    let a ← deleteWhere first
    let b ← deleteWhere second
    pure (a, b)

/-- The view `v` differs from `u` by the rows in `bad`. -/
structure Pruned (p : Pid) (bad : RefreshToken → Bool) (u v : BackendView rt) : Prop where
  stored : v.store.stored =
    Function.update u.store.stored Tbl.refreshTokens (prune bad (tokens u))
  clock : v.store.clock = u.store.clock
  next : v.store.next = u.store.next
  mem : v.mem = u.mem
  closed : v.store.tx p = none

/-- What the second delete removes is what the first has left of its rows. -/
theorem removed_twice {u : BackendView rt} (hwf : u.store.Wf) {a b : RefreshToken → Bool}
    (hb : PointerFree b) :
    {i | (tokens u i).any a = true}.ncard + {i | (prune a (tokens u) i).any b = true}.ncard =
      {i | (tokens u i).any (fun row => a row || b row) = true}.ncard := by
  have hfinite (bad : RefreshToken → Bool) : {i | (tokens u i).any bad = true}.Finite := by
    refine (Finset.range (u.store.next Tbl.refreshTokens)).finite_toSet.subset ?_
    intro i hi
    obtain ⟨row, hrow, -⟩ := (Option.any_eq_true _ _).mp hi
    exact Finset.mem_coe.mpr (Finset.mem_range.mpr (hwf.lt_next hrow))
  simp only [prune_any hb]
  rw [← Set.ncard_union_eq _ (hfinite _) (hfinite _)]
  · congr 1
    ext i
    simp only [Set.mem_union, Set.mem_ofPred_eq]
    cases tokens u i with
    | none => simp
    | some row => cases ha : a row <;> simp [ha]
  · rw [Set.disjoint_left]
    intro i hfirst hsecond
    obtain ⟨row, hrow, ha⟩ := (Option.any_eq_true _ _).mp hfirst
    rw [Set.mem_ofPred_eq, hrow, Option.any_some, ha] at hsecond
    cases hsecond

section Deletes

variable {env : Fortune (platform rt)} {p : Pid} {u : BackendView rt}
  {cur : (t : Tbl) → Nat → Option t.Row} {E : AppError → BackendView rt → Prop}
  (hserved : ∀ n, env.fault n = none)
include hserved

theorem deleteWhere_total (where_ : Time → RefreshToken → Bool) :
    Total env p (Editing p u cur) (deleteWhere where_)
      (ends (fun count v =>
          count = {i | (cur .refreshTokens i).any (where_ u.store.clock) = true}.ncard ∧
            Editing p u (Function.update cur .refreshTokens
              (prune (where_ u.store.clock) (cur .refreshTokens))) v) E) := by
  refine Total.andThen (E := E) (Total.sweep (σ := schema rt) hserved Tbl.refreshTokens where_
    fun _ => Change.delete) (fun rows => ?_) fun _ _ hE => hE
  refine Total.given (fun v _ hA => hA.1) fun hlists => ?_
  refine Total.weaken (Total.andThen (E := E) (Total.sweep (σ := schema rt) hserved
    Tbl.refreshTokens (fun _ row => row.replacedById.any fun id => (rows.map Prod.fst).contains id)
    fun _ => clearReplacedBy rt) (fun _ => Total.ret fun v hA => ?_) fun _ _ hE => hE)
    fun v _ hA => hA.2
  refine ⟨?_, ?_⟩
  · rw [← hlists.length, List.length_map]
  · have hediting := hA.2
    rw [Function.update_idem, Function.update_self] at hediting
    convert hediting using 2
    funext i
    have hcontains (id : Nat) : (rows.map Prod.fst).contains id =
        (cur .refreshTokens id).any (where_ u.store.clock) := by
      rw [Bool.eq_iff_iff, List.contains_iff_mem]
      exact hlists.iff id
    simp only [hcontains]
    exact (congrFun (edited_edited rt _ _) i).symm

theorem deleteBoth_total (first second : Time → RefreshToken → Bool)
    (hfree : ∀ now, PointerFree (second now)) :
    Total env p (fun v => v = u ∧ u.store.tx p = none) (deleteBoth first second)
      (ends (fun counts v =>
          counts.1 + counts.2 = {i | (tokens u i).any
            (fun row => first u.store.clock row || second u.store.clock row) = true}.ncard ∧
          Pruned p (fun row => first u.store.clock row || second u.store.clock row) u v)
        fun _ _ => False) := by
  refine Total.given (φ := u.store.Wf) (fun v halone hA => hA.1 ▸ halone.wf) fun hwf => ?_
  refine Total.transaction (B := Editing p u u.store.stored)
    (C := fun counts v => counts.1 + counts.2 = {i | (tokens u i).any
        (fun row => first u.store.clock row || second u.store.clock row) = true}.ncard ∧
      Editing p u (Function.update u.store.stored Tbl.refreshTokens (prune (fun row =>
        first u.store.clock row || second u.store.clock row) (tokens u))) v)
    (E := fun _ _ => False) hserved ?_ ?_ ?_ fun _ _ hfalse => hfalse.elim
  · rintro v ⟨rfl, hclosed⟩
    exact ⟨hclosed, Editing.opened hwf hclosed _⟩
  · refine Total.andThen (E := fun _ _ => False) (deleteWhere_total hserved first)
      (fun a => ?_) fun _ _ hfalse => hfalse.elim
    refine Total.given (fun v _ hA => hA.1) fun ha => ?_
    refine Total.weaken (Total.andThen (E := fun _ _ => False)
      (deleteWhere_total hserved second) (fun b => Total.ret fun v hA => ?_)
      fun _ _ hfalse => hfalse.elim) fun v _ hA => hA.2
    obtain ⟨hb, hediting⟩ := hA
    rw [Function.update_self] at hb hediting
    rw [Function.update_idem, prune_prune (hfree _)] at hediting
    refine ⟨?_, hediting⟩
    rw [ha, hb]
    exact removed_twice hwf (hfree _)
  · rintro counts v ⟨hcount, hediting⟩
    obtain ⟨W, hopen, -⟩ := hediting.inside
    refine ⟨_, hopen, hcount, ?_⟩
    exact
      { stored := hediting.commit
        clock := hediting.clock
        next := hediting.next
        mem := hediting.mem
        closed := Store.finish_tx_self _ _ _ }

end Deletes

end Mes
