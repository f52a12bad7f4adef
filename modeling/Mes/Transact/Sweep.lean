import Mes.Transact.Alone

/-!
What an `UPDATE` or a `DELETE` does when nobody else moves: the rows that satisfy its
clause are changed, each of them once, and everything else stays.
-/

namespace Transact

variable {σ : Schema} {P : Platform} {α : Type}

theorem Store.seen_hold (s : Store σ) (p : Pid) (t : σ.Tbl) (i : Nat)
    (r : Option (σ.Row t)) : (s.hold p t i r).seen p =
      Function.update (s.seen p) t (Function.update (s.seen p t) i r) := by
  have hseen (s : Store σ) : s.seen p = (s.draft p).onto s.stored := rfl
  rw [hseen, hold_draft_self, hold_stored]
  funext t'
  by_cases htable : t' = t
  · subst htable
    rw [Drafts.onto_set_same, Function.update_self]
    rfl
  · rw [Drafts.onto_set_other _ _ _ _ htable, Function.update_of_ne htable]
    rfl

theorem Store.Wf.seen_vacant {s : Store σ} (hwf : s.Wf) (p : Pid) {t : σ.Tbl} {i : Nat}
    (hnext : s.next t ≤ i) : s.seen p t i = none := by
  obtain ⟨hstored, -, hdraft⟩ := hwf.vacant t i hnext
  rw [seen, hdraft p, hstored]
  rfl

theorem Store.Wf.seen_push {s : Store σ} (hwf : s.Wf) (p : Pid) (t : σ.Tbl)
    (r : σ.Row t) : (s.push p t r).seen p =
      Function.update (s.seen p) t (Function.update (s.seen p t) (s.next t) (some r)) := by
  have hseen (s : Store σ) : s.seen p = (s.draft p).onto s.stored := rfl
  rw [hseen, push_draft_self, push_stored _ _ _ _ (hwf.vacant t _ le_rfl).1]
  funext t'
  by_cases htable : t' = t
  · subst htable
    rw [Drafts.onto_set_same, Function.update_self]
    rfl
  · rw [Drafts.onto_set_other _ _ _ _ htable, Function.update_of_ne htable]
    rfl

/-- A `WHERE` clause finds each row once. -/
theorem Sql.matching_nodup (s : Snapshot σ) (t : σ.Tbl) (where_ : Time → σ.Row t → Bool) :
    (Sql.matching s t where_).Nodup := by
  refine List.Nodup.map_on ?_ (List.Nodup.filter _ ?_)
  · rintro ⟨i, r⟩ hr ⟨j, r'⟩ hr' rfl
    obtain ⟨-, hget⟩ := Snapshot.mem_rows.mp (List.mem_of_mem_filter hr)
    obtain ⟨-, hget'⟩ := Snapshot.mem_rows.mp (List.mem_of_mem_filter hr')
    rw [Option.some.inj (hget.symm.trans hget')]
  · refine List.Nodup.filterMap ?_ List.nodup_range
    rintro i j ⟨k, r⟩ hi hj
    simp only [Option.mem_def, Option.map_eq_some_iff, Prod.mk.injEq] at hi hj
    obtain ⟨-, -, rfl, -⟩ := hi
    obtain ⟨-, -, rfl, -⟩ := hj
    rfl

/-- One version of a table after a sweep. -/
def edited {ρ : Type} (test : ρ → Bool) (set : ρ → Option ρ) (s : Nat → Option ρ) :
    Nat → Option ρ :=
  fun i => (s i).bind fun r => if test r then set r else some r

/-- The identifiers of the rows that satisfy a test, each of them once. -/
structure Lists {ρ : Type} (test : ρ → Bool) (s : Nat → Option ρ) (ids : List Nat) :
    Prop where
  once : ids.Nodup
  iff : ∀ i, i ∈ ids ↔ (s i).any test = true

theorem Lists.length {ρ : Type} {test : ρ → Bool} {s : Nat → Option ρ} {ids : List Nat}
    (hlists : Lists test s ids) : ids.length = {i | (s i).any test = true}.ncard := by
  have hset : {i | (s i).any test = true} = ids.toFinset := by
    ext i
    rw [Finset.mem_coe, List.mem_toFinset]
    exact (hlists.iff i).symm
  rw [hset, Set.ncard_coe_finset, List.toFinset_card_of_nodup hlists.once]

/-- The transaction that `p` opened in the view `u` has the tables in front of it as
`cur`. -/
structure Editing (p : Pid) (u : View σ P) (cur : (t : σ.Tbl) → Nat → Option (σ.Row t))
    (v : View σ P) : Prop where
  inside : ∃ W, Inside p u.store.clock W v
  seen : v.store.seen p = cur
  clock : v.store.clock = u.store.clock
  next : v.store.next = u.store.next
  mem : v.mem = u.mem

variable {env : Fortune P} {p : Pid} {u : View σ P}
  {cur : (t : σ.Tbl) → Nat → Option (σ.Row t)}

theorem Editing.opened (hwf : u.store.Wf) (hclosed : u.store.tx p = none)
    (e : Event σ P) : Editing p u u.store.stored (u.put p e (u.store.setTx p
      (some { startedAt := u.store.clock, aborted := false }))) := by
  have hidle := idle_of_closed hwf hclosed
  refine ⟨⟨Drafts.empty, Store.setTx_tx_self _ _ _, hidle.2⟩, ?_, rfl, rfl, rfl⟩
  funext t i
  rw [View.put_store, Store.seen, Store.setTx_draft, hidle.2]
  rfl

theorem Editing.put {v : View σ P} (hediting : Editing p u cur v) (e : Event σ P) :
    Editing p u cur (v.put p e v.store) :=
  ⟨hediting.inside, hediting.seen, hediting.clock, hediting.next, hediting.mem⟩

theorem Editing.hold {v : View σ P} (hediting : Editing p u cur v) (e : Event σ P)
    (t : σ.Tbl) (i : Nat) (r : Option (σ.Row t)) :
    Editing p u (Function.update cur t (Function.update (cur t) i r))
      (v.put p e (v.store.hold p t i r)) := by
  obtain ⟨W, hinside⟩ := hediting.inside
  refine ⟨⟨_, Logic.inside_hold hinside e t i r⟩, ?_, hediting.clock, ?_, hediting.mem⟩
  · rw [View.put_store, Store.seen_hold, hediting.seen]
  · funext t'
    rw [View.put_store, Store.hold_next]
    exact congrFun hediting.next t'

/-- The commit stores what the transaction has in front of it. -/
theorem Editing.commit {v : View σ P} (hediting : Editing p u cur v) :
    (v.store.finish p true).stored = cur := by
  rw [Store.finish_stored_keep, ← hediting.seen]
  rfl

/-- The loop of a sweep: the rows found so far are changed, those that are left are not. -/
structure Sweeping (p : Pid) (u : View σ P) (cur : (t : σ.Tbl) → Nat → Option (σ.Row t))
    (t : σ.Tbl) (test : σ.Row t → Bool) (set : σ.Row t → Option (σ.Row t))
    (rest : List Nat) (found : List (Nat × σ.Row t)) (v : View σ P) : Prop where
  lists : Lists test (cur t) (found.map Prod.fst ++ rest)
  editing : Editing p u (Function.update cur t fun i =>
    if i ∈ found.map Prod.fst then (cur t i).bind set else cur t i) v

namespace Sweeping

variable {t : σ.Tbl} {test : σ.Row t → Bool} {set : σ.Row t → Option (σ.Row t)}
  {i : Nat} {rest : List Nat} {found : List (Nat × σ.Row t)} {v : View σ P}

/-- The next row still is as the sweep found it. -/
theorem head (hsweeping : Sweeping p u cur t test set (i :: rest) found v) :
    ∃ r, cur t i = some r ∧ test r = true ∧ v.store.seen p t i = some r := by
  have hlisted : i ∈ found.map Prod.fst ++ i :: rest := by simp
  obtain ⟨r, hrow, htest⟩ := Option.any_eq_true _ _ |>.mp ((hsweeping.lists.iff i).mp hlisted)
  have hfresh : i ∉ found.map Prod.fst := fun hfound =>
    (List.nodup_append.mp hsweeping.lists.once).2.2 i hfound i (List.mem_cons_self) rfl
  refine ⟨r, hrow, htest, ?_⟩
  rw [hsweeping.editing.seen, Function.update_self]
  simp only [hfresh, if_false, hrow]

theorem hit (hsweeping : Sweeping p u cur t test set (i :: rest) found v) {r : σ.Row t}
    (hseen : v.store.seen p t i = some r) (e : Event σ P) :
    Sweeping p u cur t test set rest (found ++ [(i, r)])
      (v.put p e (v.store.hold p t i (set r))) := by
  obtain ⟨r', hrow, -, hseen'⟩ := hsweeping.head
  obtain rfl : r' = r := Option.some.inj (hseen'.symm.trans hseen)
  refine ⟨?_, ?_⟩
  · simpa using hsweeping.lists
  · have hheld := hsweeping.editing.hold e t i (set r')
    rw [Function.update_self, Function.update_idem] at hheld
    convert hheld using 2
    funext j
    by_cases hj : j = i
    · subst hj
      simp [hrow]
    · have hlisted : j ∈ (found ++ [(i, r')]).map Prod.fst ↔ j ∈ found.map Prod.fst := by
        simp [hj]
      rw [Function.update_of_ne hj]
      simp only [hlisted]

end Sweeping

open Logic in
theorem Total.sweep (hserved : ∀ n, env.fault n = none) (t : σ.Tbl)
    (where_ : Time → σ.Row t → Bool) (set : Time → Change σ t)
    {E : P.Err → View σ P → Prop} :
    Total env p (Editing p u cur) (Sql.sweep t where_ set)
      (ends (fun found v => Lists (where_ u.store.clock) (cur t) (found.map Prod.fst) ∧
          Editing p u (Function.update cur t
            (edited (where_ u.store.clock) (set u.store.clock).apply (cur t))) v) E) := by
  refine Total.read_manager hserved (S := fun s v =>
      Sweeping p u cur t (where_ u.store.clock) (set u.store.clock).apply
        (Sql.matching s t where_) [] v) (fun v hediting => hediting.inside) ?_ fun s => ?_
  · intro v s halone hediting hs
    subst hs
    refine ⟨⟨?_, fun i => ?_⟩, ?_⟩
    · exact Sql.matching_nodup _ _ _
    · rw [List.map_nil, List.nil_append, Sql.mem_matching, ← hediting.seen,
        Option.any_eq_true]
      constructor
      · rintro ⟨-, r, hget, hwhere⟩
        exact ⟨r, hget, hwhere⟩
      · rintro ⟨r, hget, hwhere⟩
        refine ⟨?_, r, hget, hwhere⟩
        by_contra hlate
        rw [halone.wf.seen_vacant p (Nat.le_of_not_lt hlate)] at hget
        cases hget
    · simpa using hediting.put _
  · have hmiss (i : Nat) (rest : List Nat) (found : List (Nat × σ.Row t)) (v : View σ P)
        (e : Event σ P) (_ : Alone p v) (hsweeping : Sweeping p u cur t
          (where_ u.store.clock) (set u.store.clock).apply (i :: rest) found v)
        (hmissed : ∀ r, v.store.seen p t i = some r → where_ u.store.clock r = false) :
        Sweeping p u cur t (where_ u.store.clock) (set u.store.clock).apply rest found
          (v.put p e v.store) := by
      obtain ⟨r, -, htest, hseen⟩ := hsweeping.head
      rw [hmissed r hseen] at htest
      cases htest
    refine Total.weaken (Total.post (Total.touchEach (E := E) hserved
      (fun rest found v hsweeping => hsweeping.editing.inside) hmiss
      (fun i rest found v r e _ hsweeping hseen _ => hsweeping.hit hseen e) _ []) ?_)
      fun v _ hsweeping => hsweeping
    · rintro (e | found) v hend
      · exact hend
      · obtain ⟨hlists, hediting⟩ := hend
        rw [List.append_nil] at hlists
        refine ⟨hlists, ?_⟩
        convert hediting using 3
        rename_i i
        rw [edited]
        cases hrow : cur t i with
        | none => simp
        | some r =>
            have hiff := hlists.iff i
            rw [hrow, Option.any_some] at hiff
            by_cases htest : where_ u.store.clock r = true
            · simp [hiff, htest]
            · simp [hiff, htest]

end Transact
