import Mes.Transact.Charter

/-!
Runs under a charter. `Charter.Rows` is what the charter makes of a store: every row stands
where it may, every uncommitted version is one that its program may make, and every row was
inserted by a program that may insert it. `Charter.Kept` adds the programs.

The run lemma looks at worlds on the way to a last one: that a row stands where it may
follows from its insertion once the last world is known to contain it.
-/

namespace Transact

variable {σ : Schema} {P : Platform} {body : P.Req → Code σ P P.Ans} {sc : Scope σ P}

namespace Charter

variable (C : Charter σ P)

/-- What a program has learnt is true. -/
structure Learnt (κ : Lore σ) (v : View σ P) : Prop where
  floor : ∀ t, κ.floor t ≤ v.store.next t
  there : ∀ t i, κ.there t i → C.lasting t ∧ (v.store.stored t i).isSome = true

/-- The uncommitted versions are ones that the requests may make. -/
def Versions (reqs : Pid → Option P.Req) (s : Store σ) : Prop :=
  ∀ p t i x, s.draft p t i = some x → ∃ req y, reqs p = some req ∧ s.tx p = some y ∧
    ∀ a, s.stored t i = some a → C.permits req t i y.startedAt a x

/-- The rows stand where they may, committed or not. -/
structure Placed (s : Store σ) : Prop where
  rows : ∀ t i r, s.stored t i = some r → C.Holds t i r
  drafts : ∀ p t i r, s.draft p t i = some (some r) → C.Holds t i r

/-- Every row was inserted for a request that may do so. -/
def Signed (reqs : Pid → Option P.Req) (s : Store σ) : Prop :=
  ∀ t i q r, s.born t i = some (q, r) → ∃ req, reqs q = some req ∧ C.inserts q req t i r

structure Rows (reqs : Pid → Option P.Req) (v : View σ P) : Prop where
  wf : v.store.Wf
  anchored : v.store.Anchored C.lasting
  mem : C.Knows v.mem
  versions : C.Versions reqs v.store
  placed : C.Placed v.store
  signed : C.Signed reqs v.store

variable {C} {reqs reqs' : Pid → Option P.Req} {v v' : View σ P} {p : Pid} {req : P.Req}

theorem Rows.grow (hrows : C.Rows reqs v)
    (hgrow : ∀ q req, reqs q = some req → reqs' q = some req) : C.Rows reqs' v where
  wf := hrows.wf
  anchored := hrows.anchored
  mem := hrows.mem
  versions := fun q t i x hdraft => by
    obtain ⟨req, y, hreq, hrest⟩ := hrows.versions q t i x hdraft
    exact ⟨req, y, hgrow q req hreq, hrest⟩
  placed := hrows.placed
  signed := fun t i q r hborn => by
    obtain ⟨req, hreq, hinserts⟩ := hrows.signed t i q r hborn
    exact ⟨req, hgrow q req hreq, hinserts⟩

/-- A visible row stands where it may. -/
theorem Placed.seen {s : Store σ} (hplaced : C.Placed s) {t : σ.Tbl} {i : Nat} {r : σ.Row t}
    (hseen : s.seen p t i = some r) : C.Holds t i r := by
  rw [Store.seen] at hseen
  cases hdraft : s.draft p t i with
  | none =>
      rw [hdraft] at hseen
      exact hplaced.rows t i r hseen
  | some x =>
      rw [hdraft, Option.getD_some] at hseen
      subst hseen
      exact hplaced.drafts p t i r hdraft

/-- A version of a visible row is a version of the committed one. -/
theorem Versions.seen {s : Store σ} (hversions : C.Versions reqs s) (hreq : reqs p = some req)
    {t : σ.Tbl} {i : Nat} {y : Tx} {r : σ.Row t} {x : Option (σ.Row t)}
    (hopen : s.tx p = some y) (hseen : s.seen p t i = some r)
    (hpermits : C.permits req t i y.startedAt r x) {a : σ.Row t}
    (hstored : s.stored t i = some a) : C.permits req t i y.startedAt a x := by
  rw [Store.seen] at hseen
  cases hdraft : s.draft p t i with
  | none =>
      rw [hdraft, Option.getD_none, hstored] at hseen
      rw [Option.some.inj hseen]
      exact hpermits
  | some z =>
      rw [hdraft, Option.getD_some] at hseen
      subst hseen
      obtain ⟨req', y', hreq', hopen', hallowed⟩ := hversions p t i (some r) hdraft
      obtain rfl := Option.some.inj (hreq'.symm.trans hreq)
      obtain rfl := Option.some.inj (hopen'.symm.trans hopen)
      exact C.trans req' t i _ a r x (hallowed a hstored) hpermits

/-- A row of a lasting table that the program did not insert is committed. -/
theorem Rows.stored_of_seen (hrows : C.Rows reqs v) (hreq : reqs p = some req) {t : σ.Tbl}
    {i : Nat} (hforeign : C.Foreign p req t)
    (hseen : (v.store.seen p t i).isSome = true) : (v.store.stored t i).isSome = true := by
  rw [Store.seen] at hseen
  cases hdraft : v.store.draft p t i with
  | none =>
      rw [hdraft] at hseen
      exact hseen
  | some x =>
      cases hstored : v.store.stored t i with
      | some a => rfl
      | none =>
          obtain ⟨r, hborn⟩ := hrows.wf.drafted p t i x hstored hdraft
          obtain ⟨req', hreq', hinserts⟩ := hrows.signed t i p r hborn
          obtain rfl := Option.some.inj (hreq'.symm.trans hreq)
          exact absurd hinserts (hforeign i r)

theorem Rows.lt_of_seen (hrows : C.Rows reqs v) {t : σ.Tbl} {i : Nat} {r : σ.Row t}
    (hseen : v.store.seen p t i = some r) : i < v.store.next t := by
  refine Nat.lt_of_not_le fun hle => ?_
  obtain ⟨hstored, -, hdrafts⟩ := hrows.wf.vacant t i hle
  rw [Store.seen, hdrafts p, hstored] at hseen
  cases hseen

/-! ### Queries -/

/-- A query on the pool. -/
theorem Rows.reads_pool (hrows : C.Rows reqs v) {κ : Lore σ} (hlearnt : C.Learnt κ v)
    (now : Time) : C.Reads κ (v.store.snapshot now v.store.stored) where
  rows := fun _ _ _ hget => ⟨hrows.placed.rows _ _ _ hget, hrows.wf.lt_next hget⟩
  there := fun t i hthere => (hlearnt.there t i hthere).2
  refs := hrows.anchored.rows

/-- A query inside a transaction. -/
theorem Rows.reads_manager (hrows : C.Rows reqs v) {κ : Lore σ} (hlearnt : C.Learnt κ v)
    (now : Time) : C.Reads κ (v.store.snapshot now (v.store.seen p)) where
  rows := fun _ _ _ hget => ⟨hrows.placed.seen hget, hrows.lt_of_seen hget⟩
  there := fun t i hthere =>
    hrows.anchored.seen_of_stored (hlearnt.there t i hthere).1 (hlearnt.there t i hthere).2
  refs := fun _ _ _ hget _ href hlasting => hrows.anchored.seen_refs hget href hlasting

/-- A lasting row that is committed stays, whatever statement is run. -/
theorem Rows.stored_stays (hrows : C.Rows reqs v) {e : Event σ P} (hacts : ActsOn p e v v')
    {t : σ.Tbl} {i : Nat} (hlasting : C.lasting t)
    (hstored : (v.store.stored t i).isSome = true) :
    (v'.store.stored t i).isSome = true := by
  rcases hacts.store.stored t i with hsame | hdraft
  · rw [hsame]
    exact hstored
  · cases hrow : v'.store.stored t i with
    | some r => rfl
    | none =>
        rw [hrow] at hdraft
        exact absurd hdraft (hrows.anchored.kept p t i hlasting)

theorem Learnt.acts {κ : Lore σ} (hlearnt : C.Learnt κ v) (hrows : C.Rows reqs v)
    {e : Event σ P} (hacts : ActsOn p e v v') : C.Learnt κ v' where
  floor := fun t => le_trans (hlearnt.floor t) (hacts.store.next t)
  there := fun t i hthere => by
    obtain ⟨hlasting, hstored⟩ := hlearnt.there t i hthere
    exact ⟨hlasting, hrows.stored_stays hacts hlasting hstored⟩

/-- The answers that a program gets are ones that it can get, and what it learns from
them is true. -/
theorem Rows.told (hrows : C.Rows reqs v) (hreq : reqs p = some req) {κ : Lore σ}
    (hlearnt : C.Learnt κ v) {choice : P.Choice} {c : Call σ P} {res : c.Res}
    (hallows : C.Allows p req κ c) (hexec : v.exec p choice c = some (res, v'))
    (hbirths : ∀ t i r, v'.store.born t i = some (p, r) → C.inserts p req t i r →
      C.Born p t i r ∧ C.Holds t i r) :
    C.Tells p κ c res ∧ C.Learnt (C.learn p req κ c res) v' := by
  have hkept := hlearnt.acts hrows (View.exec_base hrows.wf hexec).2
  cases c with
  | fork req' => exact ⟨trivial, hkept⟩
  | node op =>
      refine ⟨⟨v.store.clock, choice, v.mem, v'.mem, hrows.mem, ?_⟩, hkept⟩
      exact (View.exec_node hexec).1
  | sql stmt =>
      have hstmt := (View.exec_sql hexec).1
      cases stmt with
      | begin | commit | rollback => exact ⟨trivial, hkept⟩
      | read conn =>
          obtain ⟨hstore, hres⟩ := Store.read_cases hstmt
          cases conn with
          | pool =>
              obtain rfl : res = .ok (v.store.snapshot v.store.clock v.store.stored) := hres
              refine ⟨hrows.reads_pool hlearnt _, ?_, ?_⟩
              · exact fun t => max_le (hkept.floor t) (le_of_eq (by rw [hstore]; rfl))
              · rintro t i (hbefore | ⟨hlasting, -, hsome⟩)
                · exact hkept.there t i hbefore
                · rw [hstore]
                  exact ⟨hlasting, hsome⟩
          | manager =>
              obtain ⟨x, -, ⟨-, rfl⟩ | ⟨-, rfl⟩⟩ := hres
              · exact ⟨trivial, hkept⟩
              · refine ⟨hrows.reads_manager hlearnt _, ?_, ?_⟩
                · exact fun t => max_le (hkept.floor t) (le_of_eq (by rw [hstore]; rfl))
                · rintro t i (hbefore | ⟨hlasting, hpublic, hsome⟩)
                  · exact hkept.there t i hbefore
                  · rw [hstore]
                    refine ⟨hlasting, hrows.stored_of_seen hreq ?_ hsome⟩
                    exact hpublic.resolve_left nofun
      | touch t i where_ set =>
          obtain ⟨y, -, hcases⟩ := Store.touch_cases hstmt
          rcases hcases with ⟨-, rfl, -⟩ | ⟨-, -, ⟨rfl, -, -⟩ | ⟨r, hseen, hwhere, rfl, -⟩⟩
          · exact ⟨trivial, hkept⟩
          · exact ⟨trivial, hkept⟩
          · refine ⟨⟨hrows.placed.seen hseen, y.startedAt, hwhere⟩, hkept.floor, ?_⟩
            rintro t' j (hbefore | ⟨hlasting, hforeign, href⟩)
            · exact hkept.there t' j hbefore
            · have hvisible := hrows.anchored.seen_refs hseen href hlasting
              refine ⟨hlasting, hrows.stored_stays (View.exec_base hrows.wf hexec).2 hlasting ?_⟩
              exact hrows.stored_of_seen hreq hforeign hvisible
      | insert t row =>
          obtain ⟨y, -, hcases⟩ := Store.insert_cases hstmt
          rcases hcases with ⟨-, rfl, -⟩ | ⟨-, ⟨e, -, rfl, -⟩ | ⟨-, rfl, hstore⟩⟩
          · exact ⟨trivial, hkept⟩
          · exact ⟨trivial, hkept⟩
          · have hborn : v'.store.born t (v.store.next t) = some (p, row y.startedAt) := by
              rw [hstore, Store.push_born_self, if_pos rfl]
            obtain ⟨hown, hholds⟩ :=
              hbirths t _ _ hborn (hallows y.startedAt _ (hlearnt.floor t))
            exact ⟨⟨hlearnt.floor t, hown, hholds, y.startedAt, rfl⟩, hkept⟩

/-! ### Statements -/

/-- What an operation of the program may do to the rows. -/
structure Effects (C : Charter σ P) (req : P.Req) (p : Pid) (s : Store σ) (c : Call σ P) :
    Prop where
  touches : ∀ t i where_ set y r, c = .sql (.touch t i where_ set) → s.tx p = some y →
    s.seen p t i = some r → where_ y.startedAt r = true →
      C.Allowed req t i y.startedAt r ((set y.startedAt).apply r)
  inserts : ∀ t row y, c = .sql (.insert t row) → s.tx p = some y →
    C.inserts p req t (s.next t) (row y.startedAt)

theorem Rows.effects (hrows : C.Rows reqs v) {κ : Lore σ} (hlearnt : C.Learnt κ v)
    {c : Call σ P} (hallows : C.Allows p req κ c) : C.Effects req p v.store c where
  touches := by
    rintro t i where_ set y r rfl - hseen hwhere
    exact hallows y.startedAt r (hrows.placed.seen hseen) hwhere
  inserts := by
    rintro t row y rfl -
    exact hallows y.startedAt _ (hlearnt.floor t)

/-- The drafts after a touch. -/
theorem draft_hold {s : Store σ} {q : Pid} {t t' : σ.Tbl} {i j : Nat} {x : Option (σ.Row t)}
    {z : Option (σ.Row t')} (hfree : ((s.table t).cell i).lockedAgainst p = false)
    (hdraft : (s.hold p t i x).draft q t' j = some z)
    (A : (t : σ.Tbl) → Nat → Option (σ.Row t) → Prop) (hnew : q = p → A t i x)
    (hold : s.draft q t' j = some z → A t' j z) : A t' j z := by
  rcases eq_or_ne q p with rfl | hq
  · rw [Store.hold_draft_self] at hdraft
    rcases eq_or_ne t' t with rfl | htable
    · rw [Drafts.set_apply] at hdraft
      split at hdraft
      · rename_i hrow
        rw [hrow, ← Option.some.inj hdraft]
        exact hnew rfl
      · exact hold hdraft
    · rw [Drafts.set_other _ _ _ htable] at hdraft
      exact hold hdraft
  · rw [Store.hold_draft_other s t i x hq hfree] at hdraft
    exact hold hdraft

/-- The drafts after an insert. -/
theorem draft_push {s : Store σ} (hwf : s.Wf) {q : Pid} {t t' : σ.Tbl} {j : Nat} {r : σ.Row t}
    {z : Option (σ.Row t')} (hdraft : (s.push p t r).draft q t' j = some z)
    (A : (t : σ.Tbl) → Nat → Option (σ.Row t) → Prop) (hnew : q = p → A t (s.next t) (some r))
    (hold : s.draft q t' j = some z → A t' j z) : A t' j z := by
  rcases eq_or_ne q p with rfl | hq
  · rw [Store.push_draft_self] at hdraft
    rcases eq_or_ne t' t with rfl | htable
    · rw [Drafts.set_apply] at hdraft
      split at hdraft
      · rename_i hrow
        rw [hrow, ← Option.some.inj hdraft]
        exact hnew rfl
      · exact hold hdraft
    · rw [Drafts.set_other _ _ _ htable] at hdraft
      exact hold hdraft
  · rw [Store.push_draft_other s p t r hq ((hwf.vacant t _ (le_refl _)).2.2 q)] at hdraft
    exact hold hdraft

theorem Versions.exec {s s' : Store σ} (hversions : C.Versions reqs s) (hwf : s.Wf)
    (hreq : reqs p = some req) {stmt : Stmt σ} {res : stmt.Res}
    (heffects : C.Effects req p s (.sql stmt)) (hexec : s.exec p stmt = some (res, s')) :
    C.Versions reqs s' := by
  refine Store.exec_rule hexec hversions ?_ ?_ ?_ ?_ ?_
  · intro hclosed q t i x hdraft
    obtain ⟨req', y, hreq', hopen, hallowed⟩ := hversions q t i x hdraft
    refine ⟨req', y, hreq', ?_, hallowed⟩
    have hq : q ≠ p := by
      rintro rfl
      cases hclosed.symm.trans hopen
    rw [Store.setTx_tx_other s _ hq]
    exact hopen
  · intro z hz q t i x hdraft
    obtain ⟨req', y, hreq', hopen, hallowed⟩ := hversions q t i x hdraft
    rcases eq_or_ne q p with rfl | hq
    · obtain rfl := Option.some.inj (hz.symm.trans hopen)
      exact ⟨req', _, hreq', Store.setTx_tx_self s q _, hallowed⟩
    · refine ⟨req', y, hreq', ?_, hallowed⟩
      rw [Store.setTx_tx_other s _ hq]
      exact hopen
  · rintro t i where_ set y r rfl hopen hfree hseen hwhere q t' j x hdraft
    rw [Store.hold_stored, Store.hold_tx]
    refine draft_hold hfree hdraft (fun t' j x => ∃ req' y', reqs q = some req' ∧
      s.tx q = some y' ∧ ∀ a, s.stored t' j = some a → C.permits req' t' j y'.startedAt a x)
      ?_ (hversions q t' j x)
    rintro rfl
    have hallowed := (heffects.touches t i where_ set y r rfl hopen hseen hwhere).1
    exact ⟨req, y, hreq, hopen, fun a ha => hversions.seen hreq hopen hseen hallowed ha⟩
  · rintro t row y rfl hopen - q t' j x hdraft
    have hvacant := (hwf.vacant t _ (le_refl _)).1
    rw [Store.push_stored s p t _ hvacant, Store.push_tx]
    refine draft_push hwf hdraft (fun t' j x => ∃ req' y', reqs q = some req' ∧
      s.tx q = some y' ∧ ∀ a, s.stored t' j = some a → C.permits req' t' j y'.startedAt a x)
      ?_ (hversions q t' j x)
    rintro rfl
    refine ⟨req, y, hreq, hopen, fun a ha => ?_⟩
    cases hvacant.symm.trans ha
  · intro keep q t i x hdraft
    rcases eq_or_ne q p with rfl | hq
    · rw [Store.finish_draft_self] at hdraft
      cases hdraft
    · rw [Store.finish_draft_other s keep hq] at hdraft
      obtain ⟨req', y, hreq', hopen, hallowed⟩ := hversions q t i x hdraft
      refine ⟨req', y, hreq', (Store.finish_tx_other s keep hq).trans hopen, fun a ha => ?_⟩
      -- the row is locked by `q`, so the end of the transaction leaves it alone
      have hsame := (Store.acts_finish s p keep).stored_locked hq hdraft
      rw [hsame] at ha
      exact hallowed a ha

theorem Placed.exec {s s' : Store σ} (hplaced : C.Placed s) (hwf : s.Wf) {stmt : Stmt σ}
    {res : stmt.Res} (heffects : C.Effects req p s (.sql stmt))
    (hexec : s.exec p stmt = some (res, s'))
    (hbirths : ∀ t i r, s'.born t i = some (p, r) → C.inserts p req t i r →
      C.Born p t i r ∧ C.Holds t i r) : C.Placed s' := by
  refine Store.exec_rule (I := fun s' => (∀ t i r, s'.born t i = some (p, r) →
    C.inserts p req t i r → C.Born p t i r ∧ C.Holds t i r) → C.Placed s') hexec
    (fun _ => hplaced) ?_ ?_ ?_ ?_ ?_ hbirths
  · exact fun _ _ => ⟨hplaced.rows, hplaced.drafts⟩
  · exact fun _ _ _ => ⟨hplaced.rows, hplaced.drafts⟩
  · rintro t i where_ set y r rfl hopen hfree hseen hwhere -
    constructor
    · rw [Store.hold_stored]
      exact hplaced.rows
    · intro q t' j b hdraft
      refine draft_hold hfree hdraft (fun t' j x => ∀ b, x = some b → C.Holds t' j b) ?_ ?_ b rfl
      · exact fun _ => (heffects.touches t i where_ set y r rfl hopen hseen hwhere).2
      · rintro hbefore b' hb
        exact hplaced.drafts q t' j b' (hbefore.trans (congrArg some hb))
  · rintro t row y rfl hopen - hbirths
    constructor
    · rw [Store.push_stored s p t _ (hwf.vacant t _ (le_refl _)).1]
      exact hplaced.rows
    · intro q t' j b hdraft
      refine draft_push hwf hdraft (fun t' j x => ∀ b, x = some b → C.Holds t' j b) ?_ ?_ b rfl
      · rintro - b hb
        rw [← Option.some.inj hb]
        refine (hbirths t _ _ ?_ (heffects.inserts t row y rfl hopen)).2
        rw [Store.push_born_self, if_pos rfl]
      · rintro hbefore b' hb
        exact hplaced.drafts q t' j b' (hbefore.trans (congrArg some hb))
  · intro keep _
    constructor
    · intro t i r hstored
      cases keep with
      | false =>
          rw [Store.finish_stored_drop] at hstored
          exact hplaced.rows t i r hstored
      | true =>
          rw [Store.finish_stored_keep] at hstored
          exact hplaced.seen (p := p) hstored
    · intro q t i r hdraft
      rcases eq_or_ne q p with rfl | hq
      · rw [Store.finish_draft_self] at hdraft
        cases hdraft
      · rw [Store.finish_draft_other s keep hq] at hdraft
        exact hplaced.drafts q t i r hdraft

theorem Signed.exec {s s' : Store σ} (hsigned : C.Signed reqs s) (hreq : reqs p = some req)
    {stmt : Stmt σ} {res : stmt.Res} (heffects : C.Effects req p s (.sql stmt))
    (hexec : s.exec p stmt = some (res, s')) : C.Signed reqs s' := by
  refine Store.exec_rule hexec hsigned ?_ ?_ ?_ ?_ ?_
  · exact fun _ => hsigned
  · exact fun _ _ => hsigned
  · rintro t i where_ set y r - - - - - t' j q b hborn
    rw [Store.hold_born] at hborn
    exact hsigned t' j q b hborn
  · rintro t row y rfl hopen - t' j q b hborn
    rcases eq_or_ne t' t with rfl | htable
    · rw [Store.push_born_self] at hborn
      split at hborn
      · rename_i hplace
        obtain ⟨rfl, rfl⟩ := Prod.mk.inj (Option.some.inj hborn)
        exact ⟨req, hreq, hplace ▸ heffects.inserts t' row y rfl hopen⟩
      · exact hsigned t' j q b hborn
    · rw [Store.push_born_other s p t _ htable] at hborn
      exact hsigned t' j q b hborn
  · intro keep t i q r hborn
    rw [Store.finish_born] at hborn
    exact hsigned t i q r hborn

/-- Every operation that the charter allows keeps the rows. -/
theorem Rows.exec (hrows : C.Rows reqs v) (hreq : reqs p = some req) {κ : Lore σ}
    (hlearnt : C.Learnt κ v) {choice : P.Choice} {c : Call σ P} {res : c.Res}
    (hallows : C.Allows p req κ c) (hexec : v.exec p choice c = some (res, v'))
    (hbirths : ∀ t i r, v'.store.born t i = some (p, r) → C.inserts p req t i r →
      C.Born p t i r ∧ C.Holds t i r) : C.Rows reqs v' := by
  have hwf := (View.exec_base hrows.wf hexec).1
  cases c with
  | fork req' =>
      obtain ⟨hstore, hmem, -⟩ := View.exec_fork hexec
      refine ⟨?_, ?_, ?_, ?_, ?_, ?_⟩
      · exact hstore ▸ hrows.wf
      · exact hstore ▸ hrows.anchored
      · exact hmem ▸ hrows.mem
      · exact hstore ▸ hrows.versions
      · exact hstore ▸ hrows.placed
      · exact hstore ▸ hrows.signed
  | node op =>
      obtain ⟨hop, hstore, -⟩ := View.exec_node hexec
      refine ⟨?_, ?_, ?_, ?_, ?_, ?_⟩
      · exact hstore ▸ hrows.wf
      · exact hstore ▸ hrows.anchored
      · exact hallows _ _ _ _ _ hrows.mem hop
      · exact hstore ▸ hrows.versions
      · exact hstore ▸ hrows.placed
      · exact hstore ▸ hrows.signed
  | sql stmt =>
      obtain ⟨hstmt, hmem, -⟩ := View.exec_sql hexec
      have heffects := hrows.effects hlearnt hallows
      refine ⟨hwf, hrows.anchored.exec hrows.wf hstmt ?_, hmem ▸ hrows.mem,
        hrows.versions.exec hrows.wf hreq heffects hstmt,
        hrows.placed.exec hrows.wf heffects hstmt hbirths,
        hrows.signed.exec hreq heffects hstmt⟩
      rintro t i where_ set y r rfl hopen hseen hwhere
      exact C.spares req t i _ r _ (heffects.touches t i where_ set y r rfl hopen hseen hwhere).1

end Charter

/-! ### Worlds -/

/-- The requests by the numbers of their programs. -/
def World.requests (w : World σ P) (p : Pid) : Option P.Req :=
  w.procs[p]?.map Proc.req

variable {w w' : World σ P}

theorem World.requests_kept {a : Action P} (hstep : w.step body a = some w') {p : Pid}
    {req : P.Req} (hreq : w.requests p = some req) : w'.requests p = some req := by
  obtain ⟨proc, hproc, rfl⟩ := Option.map_eq_some_iff.mp hreq
  obtain ⟨proc', hproc', hsame, -⟩ := World.step_kept body hstep hproc
  exact Option.map_eq_some_iff.mpr ⟨proc', hproc', hsame⟩

theorem Reach.requests (hreach : Reach body sc w w') {p : Pid} {req : P.Req}
    (hreq : w.requests p = some req) : w'.requests p = some req := by
  induction hreach with
  | refl => exact hreq
  | tail _ hmoves ih =>
      obtain ⟨a, hstep, -⟩ := hmoves
      exact World.requests_kept hstep ih

theorem Reach.ended (hreach : Reach body sc w w') {p : Pid} {req : P.Req}
    {out : Except P.Err P.Ans} (hended : w.Ended p req out) : w'.Ended p req out := by
  induction hreach with
  | refl => exact hended
  | tail _ hmoves ih =>
      obtain ⟨a, hstep, -⟩ := hmoves
      exact World.step_ended body hstep ih

/-- A program that is run asks for its next operation. -/
theorem World.run_cases {p : Pid} {choice : P.Choice}
    (hstep : w.step body (.run p choice) = some w') :
    ∃ req c, ∃ k : Call.Res c → Code σ P P.Ans, ∃ res,
      w.procs[p]? = some { req := req, prog := .step c k } ∧
        w.view.exec p choice c = some (res, w'.view) := by
  simp only [World.step, World.runProc] at hstep
  split at hstep
  · rename_i req c k hactor
    obtain ⟨out, hexec, rfl⟩ := Option.map_eq_some_iff.mp hstep
    exact ⟨req, c, k, out.1, hactor, hexec⟩
  · cases hstep

/-- A step keeps the record of the rows. -/
theorem World.born_kept (hwf : w.view.store.Wf) {a : Action P}
    (hstep : w.step body a = some w') {t : σ.Tbl} {i : Nat} {b : Pid × σ.Row t}
    (hborn : w.view.store.born t i = some b) : w'.view.store.born t i = some b := by
  cases a with
  | spawn req =>
      rw [← Option.some.inj hstep]
      exact hborn
  | tick n =>
      rw [← Option.some.inj hstep]
      exact hborn
  | fire timer =>
      obtain ⟨mem, -, rfl⟩ := Option.map_eq_some_iff.mp hstep
      exact hborn
  | run p choice =>
      obtain ⟨e, hacts⟩ := World.run_acts hwf hstep
      exact hacts.store.bornKept t i b hborn

theorem Reach.born (hwf : w.view.store.Wf) (hreach : Reach body sc w w') {t : σ.Tbl} {i : Nat}
    {b : Pid × σ.Row t} (hborn : w.view.store.born t i = some b) :
    w'.view.store.Wf ∧ w'.view.store.born t i = some b := by
  induction hreach with
  | refl => exact ⟨hwf, hborn⟩
  | tail _ hmoves ih =>
      obtain ⟨a, hstep, -⟩ := hmoves
      exact ⟨World.step_wf ih.1 hstep, World.born_kept ih.1 hstep ih.2⟩

namespace Charter

variable (C : Charter σ P) (answers : Pid → P.Req → P.Ans → Lore σ → Prop)
  (refuses : Pid → P.Req → P.Err → Prop)

/-- The world is under the charter. -/
structure Kept (w : World σ P) : Prop where
  rows : C.Rows w.requests w.view
  progs : ∀ (p : Pid) proc, w.procs[p]? = some proc → C.starts proc.req ∧
    ∃ κ, C.Learnt κ w.view ∧ C.Minds p proc.req (answers p proc.req)
      (refuses p proc.req) proc.prog κ

/-- What the last world of a run has to agree with. -/
structure Ratified (body : P.Req → Code σ P P.Ans) (fin : World σ P) : Prop where
  births : ∀ p req t i r, fin.requests p = some req →
    fin.view.store.born t i = some (p, r) → C.inserts p req t i r →
      C.Born p t i r ∧ C.Holds t i r
  minds : ∀ p req, fin.requests p = some req → C.starts req →
    C.Minds p req (answers p req) (refuses p req) (body req) Lore.start

variable {C answers refuses} {fin : World σ P}

theorem learnt_start (v : View σ P) : C.Learnt Lore.start v where
  floor := fun _ => Nat.zero_le _
  there := fun _ _ hthere => hthere.elim

theorem Learnt.same {κ : Lore σ} {v v' : View σ P} (hlearnt : C.Learnt κ v)
    (hnext : v'.store.next = v.store.next) (hstored : v'.store.stored = v.store.stored) :
    C.Learnt κ v' where
  floor := fun t => hnext ▸ hlearnt.floor t
  there := fun t i hthere => hstored ▸ hlearnt.there t i hthere

/-- What the next operation of a program does. -/
theorem Kept.run (hkept : C.Kept answers refuses w)
    (hratified : C.Ratified answers refuses body fin)
    {p : Pid} {choice : P.Choice} (hstep : w.step body (.run p choice) = some w')
    (hlater : Reach body sc w' fin) {req : P.Req} {c : Call σ P} {k : c.Res → Code σ P P.Ans}
    {res : c.Res} (hactor : w.procs[p]? = some { req := req, prog := .step c k })
    (hexec : w.view.exec p choice c = some (res, w'.view)) :
    C.Rows w.requests w'.view ∧ (∀ req', c = .fork req' → C.starts req') ∧
      ∃ κ, C.Learnt κ w'.view ∧
        C.Minds p req (answers p req) (refuses p req) (k res) κ := by
  have hreq : w.requests p = some req := Option.map_eq_some_iff.mpr ⟨_, hactor, rfl⟩
  have hlast := hlater.requests (World.requests_kept hstep hreq)
  obtain ⟨-, κ, hlearnt, hallows, hrest⟩ := hkept.progs p _ hactor
  have hbirths (t : σ.Tbl) (i : Nat) (r : σ.Row t)
      (hborn : w'.view.store.born t i = some (p, r)) (hinserts : C.inserts p req t i r) :
      C.Born p t i r ∧ C.Holds t i r := by
    have hwf := World.step_wf hkept.rows.wf hstep
    exact hratified.births p req t i r hlast (hlater.born hwf hborn).2 hinserts
  obtain ⟨htells, hlearnt'⟩ := hkept.rows.told hreq hlearnt hallows hexec hbirths
  refine ⟨hkept.rows.exec hreq hlearnt hallows hexec hbirths, ?_, _, hlearnt', hrest res htells⟩
  rintro req' rfl
  exact hallows

theorem Kept.step (hkept : C.Kept answers refuses w)
    (hratified : C.Ratified answers refuses body fin) {a : Action P}
    (hspawn : ∀ req, a = .spawn req → C.starts req) (hstep : w.step body a = some w')
    (hlater : Reach body sc w' fin) : C.Kept answers refuses w' := by
  have hgrow (q : Pid) (req : P.Req) (hreq : w.requests q = some req) :
      w'.requests q = some req := World.requests_kept hstep hreq
  have hrows : C.Rows w.requests w'.view ∧
      ∀ κ, C.Learnt κ w.view → C.Learnt κ w'.view := by
    cases a with
    | spawn req =>
        rw [← Option.some.inj hstep]
        exact ⟨hkept.rows, fun κ hlearnt => hlearnt⟩
    | tick n =>
        rw [← Option.some.inj hstep]
        exact ⟨⟨Store.wf_tick hkept.rows.wf n, hkept.rows.anchored.tick n, hkept.rows.mem,
          hkept.rows.versions, ⟨hkept.rows.placed.rows, hkept.rows.placed.drafts⟩,
          hkept.rows.signed⟩, fun κ hlearnt => hlearnt.same rfl rfl⟩
    | fire timer =>
        obtain ⟨mem, hfire, rfl⟩ := Option.map_eq_some_iff.mp hstep
        exact ⟨{ hkept.rows with mem := C.fires _ _ _ _ hkept.rows.mem hfire },
          fun κ hlearnt => hlearnt.same rfl rfl⟩
    | run p choice =>
        obtain ⟨e, hacts⟩ := World.run_acts hkept.rows.wf hstep
        obtain ⟨req, c, k, res, hactor, hexec⟩ := World.run_cases hstep
        exact ⟨(hkept.run hratified hstep hlater hactor hexec).1,
          fun κ hlearnt => hlearnt.acts hkept.rows hacts⟩
  refine ⟨hrows.1.grow hgrow, fun p proc hproc => ?_⟩
  rcases World.step_procs hstep hproc with ⟨hold, -⟩ |
    ⟨choice, req, c, k, res, rfl, hold, hexec, rfl⟩ | ⟨-, req, rfl, hstarted⟩
  · obtain ⟨hstarts, κ, hlearnt, hminds⟩ := hkept.progs p proc hold
    exact ⟨hstarts, κ, hrows.2 κ hlearnt, hminds⟩
  · exact ⟨(hkept.progs p _ hold).1, (hkept.run hratified hstep hlater hold hexec).2.2⟩
  · have hstarts : C.starts req := by
      rcases hstarted with rfl | ⟨q, choice, req', k, rfl, hforker⟩
      · exact hspawn req rfl
      · obtain ⟨-, κ, -, hallows, -⟩ := hkept.progs q _ hforker
        exact hallows
    have hreq : w'.requests p = some req := Option.map_eq_some_iff.mpr ⟨_, hproc, rfl⟩
    exact ⟨hstarts, Lore.start, learnt_start _,
      hratified.minds p req (hlater.requests hreq) hstarts⟩

/-- Every world on the way to the last one is under the charter. -/
theorem Kept.reach (hkept : C.Kept answers refuses w)
    (hratified : C.Ratified answers refuses body fin) (hspawns : ∀ req, sc.spawn req → C.starts req)
    (hreach : Reach body sc w w') (hlater : Reach body sc w' fin) :
    C.Kept answers refuses w' := by
  induction hreach with
  | refl => exact hkept
  | tail _ hmoves ih =>
      obtain ⟨a, hstep, hadmits⟩ := id hmoves
      refine (ih (Relation.ReflTransGen.head hmoves hlater)).step hratified ?_ hstep hlater
      rintro req rfl
      exact hspawns req hadmits

/-- A committed row changes only when a program commits whose request may do so. -/
theorem Kept.changes (hkept : C.Kept answers refuses w) {act : Action P}
    (hstep : w.step body act = some w') {t : σ.Tbl} {i : Nat} {a : σ.Row t}
    (hstored : w.view.store.stored t i = some a) :
    w'.view.store.stored t i = some a ∨ ∃ p choice req k y, act = .run p choice ∧
      w.procs[p]? = some { req := req, prog := .step (.sql .commit) k } ∧
      w.view.store.tx p = some y ∧
        C.permits req t i y.startedAt a (w'.view.store.stored t i) := by
  cases act with
  | spawn req =>
      rw [← Option.some.inj hstep]
      exact Or.inl hstored
  | tick n =>
      rw [← Option.some.inj hstep]
      exact Or.inl hstored
  | fire timer =>
      obtain ⟨mem, -, rfl⟩ := Option.map_eq_some_iff.mp hstep
      exact Or.inl hstored
  | run p choice =>
      obtain ⟨req, c, k, res, hactor, hexec⟩ := World.run_cases hstep
      have hacts := (View.exec_base hkept.rows.wf hexec).2
      rcases hacts.store.stored t i with hsame | hdraft
      · exact Or.inl (hsame.trans hstored)
      · rcases hacts.committed with hsame | hcommit
        · rw [hsame]
          exact Or.inl hstored
        · obtain rfl : c = .sql .commit := congrArg Sigma.fst hcommit
          obtain ⟨req', y, hreq, hopen, hallowed⟩ := hkept.rows.versions p t i _ hdraft
          obtain ⟨proc, hproc, rfl⟩ := Option.map_eq_some_iff.mp hreq
          obtain rfl := Option.some.inj (hactor.symm.trans hproc)
          exact Or.inr ⟨p, choice, req, k, y, rfl, hactor, hopen, hallowed a hstored⟩

/-- What the ended requests have answered. -/
theorem Kept.answered (hkept : C.Kept answers refuses w) {p : Pid} {req : P.Req} {a : P.Ans}
    (hended : w.Ended p req (.ok a)) : ∃ κ, C.Learnt κ w.view ∧ answers p req a κ := by
  obtain ⟨proc, hproc, rfl, hout⟩ := hended
  obtain ⟨-, κ, hlearnt, hminds⟩ := hkept.progs p proc hproc
  rw [Prog.eq_ret_of_outcome hout] at hminds
  exact ⟨κ, hlearnt, hminds⟩

theorem Kept.refused (hkept : C.Kept answers refuses w) {p : Pid} {req : P.Req} {e : P.Err}
    (hended : w.Ended p req (.error e)) : refuses p req e := by
  obtain ⟨proc, hproc, rfl, hout⟩ := hended
  obtain ⟨-, κ, -, hminds⟩ := hkept.progs p proc hproc
  rw [Prog.eq_throw_of_outcome hout] at hminds
  exact hminds

end Charter

end Transact
