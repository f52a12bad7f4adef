import Mes.Auth.TokenLogic

/-!
Proof rules for the queries on refresh tokens, in any logic whose participants
keep to the rules of the tokens. A call is a sequence of small steps between a
few milestones: reading the clock, committing, writing a grace entry. A
`Context` is an assertion that survives the small steps, one's own and those of
the others, so a rule for a query only has to carry it along.
-/

namespace Mes

open Transact Transact.Logic

variable {rt : Runtime} {L : Logic (schema rt) (platform rt)} {p : Pid}

/-- What an assertion about the common state sees of a small step of `p`. -/
structure Calm (p : Pid) (v v' : BackendView rt) : Prop where
  tokens : tokens v' = tokens v
  users : v'.store.stored Tbl.users = v.store.stored Tbl.users
  graceCache : v'.mem.graceCache = v.mem.graceCache
  clock : v'.store.clock = v.store.clock
  mintKept : ∀ s q, v.mem.minted s = some q → v'.mem.minted s = some q
  history : ∃ e, ¬ Milestone e ∧ v'.history = (p, e) :: v.history

structure Context (L : Logic (schema rt) (platform rt)) (p : Pid)
    (K : BackendView rt → Prop) : Prop where
  stable : L.Stable p K
  calm : ∀ v v', Calm p v v' → K v → K v'

theorem Calm.put {v : BackendView rt} {e : Event (schema rt) (platform rt)}
    {s : Store (schema rt)} (hevent : ¬ Milestone e)
    (hstored : s.stored = v.store.stored) (hclock : s.clock = v.store.clock) :
    Calm p v (v.put p e s) where
  tokens := congrFun hstored Tbl.refreshTokens
  users := congrFun hstored Tbl.users
  graceCache := rfl
  clock := hclock
  mintKept := fun _ _ hminted => hminted
  history := ⟨e, hevent, rfl⟩

theorem Calm.remember {v : BackendView rt} {e : Event (schema rt) (platform rt)}
    {mem : Memory} (hevent : ¬ Milestone e)
    (hcache : mem.graceCache = v.mem.graceCache)
    (hkept : ∀ s q, v.mem.minted s = some q → mem.minted s = some q) :
    Calm p v (v.remember p e mem) where
  tokens := rfl
  users := rfl
  graceCache := hcache
  clock := rfl
  mintKept := hkept
  history := ⟨e, hevent, rfl⟩

/-- A small step is no milestone. -/
theorem Calm.milestone {v v' : BackendView rt} (hcalm : Calm p v v')
    {e : Event (schema rt) (platform rt)} (hmilestone : Milestone e) :
    (p, e) ∈ v'.history ↔ (p, e) ∈ v.history := by
  obtain ⟨e', hevent, hhistory⟩ := hcalm.history
  rw [hhistory, List.mem_cons, or_iff_right]
  intro heq
  have he : e = e' := congrArg Prod.snd heq
  subst he
  exact hevent hmilestone

theorem Context.true : Context L p fun _ => True :=
  ⟨fun _ _ _ _ _ _ => trivial, fun _ _ _ _ => trivial⟩

theorem Context.and {K M : BackendView rt → Prop} (hK : Context L p K)
    (hM : Context L p M) : Context L p fun v => K v ∧ M v where
  stable := hK.stable.and hM.stable
  calm := fun v v' hcalm hboth =>
    ⟨hK.calm v v' hcalm hboth.1, hM.calm v v' hcalm hboth.2⟩

theorem context_clock (now : Time) : Context L p fun v : BackendView rt => now ≤ v.store.clock where
  stable := stable_clock now
  calm := fun _ _ hcalm hclock => hcalm.clock ▸ hclock

/-! ### Locks -/

section Locks

variable {v : BackendView rt} {e : Event (schema rt) (platform rt)} {t₀ : Time}

theorem tokens_hold (i : Nat) (x : Option RefreshToken) :
    tokens (v.put p e (v.store.hold p Tbl.refreshTokens i x)) = tokens v :=
  congrFun (Store.hold_stored v.store p Tbl.refreshTokens i x) Tbl.refreshTokens

theorem tokenDraft_hold (i k : Nat) (x : Option RefreshToken) :
    tokenDraft p (v.put p e (v.store.hold p Tbl.refreshTokens i x)) k =
      if k = i then some x else tokenDraft p v k := by
  unfold tokenDraft
  rw [View.put_store, Store.hold_draft_self, Drafts.set_apply]

/-- The transaction of `p` has locked tokens at most, and `p` has inserted none. -/
structure LocksOnly (p : Pid) (t₀ : Time) (v : BackendView rt) : Prop where
  opened : Open p t₀ v
  barren : Barren p v
  kept : ∀ k x, tokenDraft p v k = some x → ∃ a, x = some a ∧ tokens v k = some a
  noUsers : ∀ k, v.store.draft p Tbl.users k = none

theorem stable_locksOnly (t₀ : Time) : L.Stable p (LocksOnly p t₀) :=
  fun a v v' hactor hstep hlocks =>
    { opened := stable_open t₀ a v v' hactor hstep hlocks.opened
      barren := stable_barren a v v' hactor hstep hlocks.barren
      kept := fun k x hdraft => by
        rw [draft_kept hactor hstep] at hdraft
        rw [tokens_locked hactor hstep hdraft]
        exact hlocks.kept k x hdraft
      noUsers := by
        rw [(hstep.own_tx hactor).2]
        exact hlocks.noUsers }

/-- Outside a transaction nothing is locked. -/
theorem no_drafts (hwf : v.store.Wf) (hidle : v.store.tx p = none) (t : Tbl) (k : Nat) :
    v.store.draft p t k = none := by
  cases hdraft : v.store.draft p t k with
  | none => rfl
  | some x =>
      have hopen := hwf.inTx p t k x hdraft
      rw [hidle] at hopen
      cases hopen

theorem LocksOnly.begin (hwf : v.store.Wf) (hidle : v.store.tx p = none)
    (hbarren : Barren p v) :
    LocksOnly p v.store.clock (v.put p e (v.store.setTx p
      (some { startedAt := v.store.clock, aborted := false }))) where
  opened := Function.update_self _ _ _
  barren := hbarren
  kept := fun k x hdraft => by
    have hnone : tokenDraft p v k = none := no_drafts hwf hidle Tbl.refreshTokens k
    have hsome : tokenDraft p v k = some x := hdraft
    rw [hnone] at hsome
    cases hsome
  noUsers := no_drafts hwf hidle Tbl.users

theorem LocksOnly.put (hlocks : LocksOnly p t₀ v) :
    LocksOnly p t₀ (v.put p e v.store) :=
  ⟨hlocks.opened, hlocks.barren, hlocks.kept, hlocks.noUsers⟩

theorem LocksOnly.remember (hlocks : LocksOnly p t₀ v) (mem : Memory) :
    LocksOnly p t₀ (v.remember p e mem) :=
  ⟨hlocks.opened, hlocks.barren, hlocks.kept, hlocks.noUsers⟩

theorem LocksOnly.same (hlocks : LocksOnly p t₀ v) (k : Nat) :
    (tokenDraft p v k).getD (tokens v k) = tokens v k := by
  cases hdraft : tokenDraft p v k with
  | none => rfl
  | some x =>
      obtain ⟨a, rfl, ha⟩ := hlocks.kept k x hdraft
      exact ha.symm

theorem LocksOnly.tame (hlocks : LocksOnly p t₀ v) : TameWrites p v := by
  intro k x hdraft
  obtain ⟨a, rfl, ha⟩ := hlocks.kept k x hdraft
  exact ⟨a, ha, .kept⟩

/-- The version that a statement of `p` sees is the committed one. -/
theorem LocksOnly.seen (hlocks : LocksOnly p t₀ v) {W : Drafts (schema rt)}
    (hin : Inside p t₀ W v) (k : Nat) :
    (W Tbl.refreshTokens k).getD (v.store.stored Tbl.refreshTokens k) = tokens v k := by
  rw [← hin.2]
  exact hlocks.same k

theorem LocksOnly.hold (hlocks : LocksOnly p t₀ v) {i : Nat} {a : RefreshToken}
    (ha : tokens v i = some a) :
    LocksOnly p t₀ (v.put p e (v.store.hold p Tbl.refreshTokens i (some a))) where
  opened := hlocks.opened
  barren := fun k b hb => hlocks.barren k b (by
    unfold tokenBorn at hb ⊢
    rw [← hb, View.put_store, Store.hold_born])
  kept := fun k x hdraft => by
    rw [tokenDraft_hold] at hdraft
    rw [tokens_hold]
    split at hdraft
    · rename_i hk
      exact ⟨a, (Option.some.inj hdraft).symm, by rw [hk, ha]⟩
    · exact hlocks.kept k x hdraft
  noUsers := fun k => by
    rw [View.put_store, Store.hold_draft_self,
      Drafts.set_other _ _ _ (by decide : Tbl.users ≠ Tbl.refreshTokens)]
    exact hlocks.noUsers k

/-- `p` has locked the token `i`. -/
def HoldsToken (p : Pid) (i : Nat) (a : RefreshToken) (v : BackendView rt) : Prop :=
  tokenDraft p v i = some (some a)

theorem stable_holdsToken (i : Nat) (a : RefreshToken) :
    L.Stable p (HoldsToken p i a) :=
  fun _ _ _ hactor hstep hholds => (congrFun (draft_kept hactor hstep) i).trans hholds

theorem LocksOnly.committed (hlocks : LocksOnly p t₀ v) {i : Nat} {a : RefreshToken}
    (hholds : HoldsToken p i a v) : tokens v i = some a := by
  obtain ⟨b, hb, hrow⟩ := hlocks.kept i (some a) hholds
  rw [hrow, ← hb]

/-- A row that `p` has found under a hash and locked. -/
def Found (p : Pid) (hash : String) (row : Nat × RefreshToken) (v : BackendView rt) :
    Prop :=
  HoldsToken p row.1 row.2 v ∧ row.2.tokenHash = hash

theorem stable_found (hash : String) (row : Nat × RefreshToken) :
    L.Stable p (Found p hash row) :=
  (stable_holdsToken row.1 row.2).and (Stable.const _)

/-- Locking one more token as it is keeps the locks that `p` has. -/
theorem Found.hold {hash : String} {row : Nat × RefreshToken}
    (hlocks : LocksOnly p t₀ v) (hfound : Found p hash row v) {i : Nat}
    {a : RefreshToken} (ha : tokens v i = some a) :
    Found p hash row (v.put p e (v.store.hold p Tbl.refreshTokens i (some a))) := by
  refine ⟨?_, hfound.2⟩
  unfold HoldsToken
  rw [tokenDraft_hold]
  split
  · rename_i hrow
    rw [← ha, ← hrow, hlocks.committed hfound.1]
  · exact hfound.1

theorem Found.new {hash : String} {i : Nat} {a : RefreshToken}
    (hhash : a.tokenHash = hash) :
    Found p hash (i, a) (v.put p e (v.store.hold p Tbl.refreshTokens i (some a))) := by
  refine ⟨?_, hhash⟩
  unfold HoldsToken
  rw [tokenDraft_hold, if_pos rfl]

end Locks

/-! ### Queries -/

section Queries

variable {K : BackendView rt → Prop} {t₀ : Time}

/-- A query on the pool for at most one row. -/
theorem findOne_rule {t : Tbl} {where_ : Nat → t.Row → Bool}
    {A : BackendView rt → Prop} {R : Option (Entity t) → BackendView rt → Prop}
    {E : AppError → BackendView rt → Prop} (hstable : L.Stable p A)
    (hR : ∀ x, L.Stable p (R x))
    (hnext : ∀ v s x, v.store.Wf → L.Inv v → A v →
      Picks (v.store.stored t) where_ x →
        R x (v.put p ⟨.sql (.read .pool), .ok s⟩ v.store)) :
    L.Triple p A (BaseRepository.findOne t where_) (ends R E) := by
  refine Triple.read_pool
    (R := fun s v => R ((s.rows t).find? fun row => where_ row.1 row.2) v)
    hstable ?_ fun s => Triple.ret (hR _) fun _ hR => hR
  intro v s hwf hinv hA hs
  refine hnext v s _ hwf hinv hA ?_
  rw [hs]
  exact Snapshot.picks hwf _ t where_

/-- The lock on a token with a given hash. `presented` is a token with this hash
that is known to be there. -/
theorem selectForUpdate_rule (hK : Context L p K) {hash : String}
    {presented : Option Nat} (hpresented : ∀ v i, K v → presented = some i →
      ∃ a, tokens v i = some a ∧ a.tokenHash = hash)
    {E : AppError → BackendView rt → Prop} :
    L.Triple p (fun v => K v ∧ LocksOnly p t₀ v)
      (RefreshTokensRepository.selectForUpdate hash)
      (ends (fun found v => (K v ∧ LocksOnly p t₀ v) ∧
        (found = none → presented = none) ∧
          ∀ row, found = some row → Found p hash row v) E) := by
  have hstart : L.Stable p fun v => K v ∧ LocksOnly p t₀ v :=
    hK.stable.and (stable_locksOnly t₀)
  have hrows (found : List (Nat × RefreshToken)) :
      L.Stable p fun v => ∀ row ∈ found, Found p hash row v :=
    fun a v v' hactor hstep hfound row hrow =>
      stable_found hash row a v v' hactor hstep (hfound row hrow)
  refine Triple.read_manager
    (R := fun s v => (K v ∧ LocksOnly p t₀ v) ∧ ∀ i, presented = some i →
      i ∈ Sql.matching s Tbl.refreshTokens fun _ row => row.tokenHash == hash)
    hstart (fun v hA => hA.2.opened.inside) ?_ fun s => ?_
  · intro v s W hwf hinv hA hin hs
    have hcalm : Calm p v (v.put p ⟨.sql (.read .manager), .ok s⟩ v.store) :=
      Calm.put (fun hmilestone => hmilestone) rfl rfl
    refine ⟨⟨hK.calm _ _ hcalm hA.1, hA.2.put⟩, ?_⟩
    intro i hi
    obtain ⟨a, ha, hhash⟩ := hpresented v i hA.1 hi
    have hget : s.get Tbl.refreshTokens i = some a := by
      rw [hs]
      exact (hA.2.seen hin i).trans ha
    have hlt : i < s.next Tbl.refreshTokens := by
      rw [hs]
      exact hwf.lt_next ha
    exact Sql.mem_matching.mpr ⟨hlt, a, hget, by simp [hhash]⟩
  · -- `found` collects locked rows; until one is found, a presented row is still ahead
    refine Triple.weaken (Triple.touchEach (σ := schema rt) (t := Tbl.refreshTokens)
      (J := fun rest found v => (K v ∧ LocksOnly p t₀ v) ∧
        (∀ row ∈ found, Found p hash row v) ∧
          ∀ i, presented = some i → found = [] → i ∈ rest)
      (fun rest found => hstart.and ((hrows found).and (Stable.const _)))
      (fun rest found v hJ => hJ.1.2.opened.inside) ?_ ?_ (fun found => ?_) _ []) ?_
    · rintro id rest found v W hwf hinv ⟨hA, hfound, hahead⟩ hin hmissed
      refine ⟨⟨hK.calm _ _ (Calm.put (fun hmilestone => hmilestone) rfl rfl) hA.1,
        hA.2.put⟩, hfound, ?_⟩
      intro i hi hnone
      obtain ⟨a, ha, hhash⟩ := hpresented v i hA.1 hi
      rcases List.mem_cons.mp (hahead i hi hnone) with heq | hrest
      · have hmiss := hmissed a (by rw [← heq, hA.2.seen hin, ha])
        simp [hhash] at hmiss
      · exact hrest
    · rintro id rest found v W r hwf hinv ⟨hA, hfound, hahead⟩ hin hfree hview hwhere
      have hr : tokens v id = some r := by rw [← hA.2.seen hin, hview]
      refine ⟨⟨hK.calm _ _ (Calm.put (fun hmilestone => hmilestone)
        (Store.hold_stored _ _ _ _ _) rfl) hA.1, hA.2.hold hr⟩, ?_, ?_⟩
      · intro row hrow
        rcases List.mem_append.mp hrow with hold | hnew
        · exact (hfound row hold).hold hA.2 hr
        · rw [List.mem_singleton.mp hnew]
          exact Found.new (by simpa using hwhere)
      · intro i hi hnone
        simp at hnone
    · refine Triple.ret (hstart.and ((hrows found).and (Stable.const _))) ?_
      rintro v ⟨hA, hfound, hahead⟩
      refine ⟨hA, ?_, ?_⟩
      · intro hnone
        cases hpres : presented with
        | none => rfl
        | some i => cases hahead i hpres (List.head?_eq_none_iff.mp hnone)
      · intro row hrow
        exact hfound row (List.mem_of_mem_head? hrow)
    · rintro v hwf hinv ⟨hA, hmatch⟩
      exact ⟨hA, by simp, fun i hi _ => hmatch i hi⟩

/-- The transaction of `p` only revokes, unlinks or deletes tokens. -/
structure Tame (p : Pid) (t₀ : Time) (v : BackendView rt) : Prop where
  opened : Open p t₀ v
  barren : Barren p v
  writes : TameWrites p v

theorem LocksOnly.toTame {v : BackendView rt} (hlocks : LocksOnly p t₀ v) : Tame p t₀ v :=
  ⟨hlocks.opened, hlocks.barren, hlocks.tame⟩

theorem stable_tame (t₀ : Time) : L.Stable p (@Tame rt p t₀) :=
  fun a v v' hactor hstep htame =>
    ⟨stable_open t₀ a v v' hactor hstep htame.opened,
      stable_barren a v v' hactor hstep htame.barren,
      stable_tameWrites a v v' hactor hstep htame.writes⟩

theorem Tame.put {v : BackendView rt} {e : Event (schema rt) (platform rt)}
    (htame : Tame p t₀ v) : Tame p t₀ (v.put p e v.store) :=
  ⟨htame.opened, htame.barren, htame.writes⟩

/-- A deleted row is not seen any more, so it stays deleted. -/
theorem Deletes.hold {v : BackendView rt} {e : Event (schema rt) (platform rt)}
    {W : Drafts (schema rt)} (hin : Inside p t₀ W v) {i : Nat} {r : RefreshToken}
    {x : Option RefreshToken}
    (hview : (W Tbl.refreshTokens i).getD (v.store.stored Tbl.refreshTokens i) = some r)
    {j : Nat} (hj : Deletes p v j) :
    Deletes p (v.put p e (v.store.hold p Tbl.refreshTokens i x)) j := by
  have hne : j ≠ i := by
    rintro rfl
    rw [← hin.2, show v.store.draft p Tbl.refreshTokens j = some none from hj] at hview
    cases hview
  exact (tokenDraft_hold i j x).trans ((if_neg hne).trans hj)

/-- One more tame version, of the row as `p` sees it. -/
theorem Tame.hold {v : BackendView rt} {e : Event (schema rt) (platform rt)}
    (htame : Tame p t₀ v) {W : Drafts (schema rt)} (hin : Inside p t₀ W v) {i : Nat}
    {r : RefreshToken} {x : Option RefreshToken}
    (hview : (W Tbl.refreshTokens i).getD (v.store.stored Tbl.refreshTokens i) = some r)
    (hversion : ∀ a, tokens v i = some a → TameVersion (Deletes p v) a (some r) →
      TameVersion (Deletes p v) a x) :
    Tame p t₀ (v.put p e (v.store.hold p Tbl.refreshTokens i x)) where
  opened := htame.opened
  barren := fun k b hb => htame.barren k b (by
    unfold tokenBorn at hb ⊢
    rw [← hb, View.put_store, Store.hold_born])
  writes := by
    have hkeep (a : RefreshToken) (y : Option RefreshToken)
        (hy : TameVersion (Deletes p v) a y) :
        TameVersion (Deletes p (v.put p e (v.store.hold p Tbl.refreshTokens i x))) a y := by
      cases hy with
      | kept => exact .kept
      | revoked t hactive => exact .revoked t hactive
      | unlinked j hlink hgone => exact .unlinked j hlink (hgone.hold hin hview)
      | deleted => exact .deleted
    intro k y hdraft
    have hdraft' := (tokenDraft_hold (v := v) (p := p) (e := e) i k x).symm.trans hdraft
    rw [tokens_hold]
    split at hdraft'
    · rename_i hk
      subst hk
      rw [← Option.some.inj hdraft']
      cases hown : tokenDraft p v k with
      | none =>
          have hcommitted : tokens v k = some r := by
            rw [← hin.2, show v.store.draft p Tbl.refreshTokens k = none from hown] at hview
            exact hview
          exact ⟨r, hcommitted, hkeep r x (hversion r hcommitted .kept)⟩
      | some z =>
          obtain ⟨a, ha, hz⟩ := htame.writes k z hown
          have hr : z = some r := by
            rw [← hin.2, show v.store.draft p Tbl.refreshTokens k = some z from hown] at hview
            exact hview
          rw [hr] at hz
          exact ⟨a, ha, hkeep a x (hversion a ha hz)⟩
    · obtain ⟨a, ha, hy⟩ := htame.writes k y hdraft'
      exact ⟨a, ha, hkeep a y hy⟩

/-- Revoking an active version is tame. -/
theorem TameVersion.revoke {v : BackendView rt} (hinv : TokenInv v) {i : Nat}
    {a r : RefreshToken} (ha : tokens v i = some a) (hactive : r.revokedAt = none)
    (hversion : TameVersion (Deletes p v) a (some r)) (t : Time) :
    TameVersion (Deletes p v) a (some { r with revokedAt := some t }) := by
  cases hversion with
  | kept => exact .revoked t hactive
  | revoked t' _ => cases hactive
  | unlinked j hlink _ =>
      obtain ⟨-, r', q, b, hr', -⟩ := hinv.links i j a ha hlink
      have hrevoked : a.revokedAt = none := hactive
      rw [hrevoked] at hr'
      cases hr'

/-- Revoking a family, whoever has revoked some of it meanwhile. -/
theorem revokeFamily_rule (hL : OverTokens L) (hK : Context L p K) (familyId : String)
    {E : AppError → BackendView rt → Prop} :
    L.Triple p (fun v => K v ∧ Tame p t₀ v)
      (RefreshTokensRepository.revokeFamily familyId)
      (ends (fun _ v => K v ∧ Tame p t₀ v) E) := by
  have hstable : L.Stable p fun v => K v ∧ Tame p t₀ v :=
    hK.stable.and (stable_tame t₀)
  refine Triple.read_manager (R := fun _ v => K v ∧ Tame p t₀ v) hstable
    (fun v hA => hA.2.opened.inside) ?_ fun s => ?_
  · intro v s W hwf hinv hA hin hs
    exact ⟨hK.calm _ _ (Calm.put (fun hmilestone => hmilestone) rfl rfl) hA.1, hA.2.put⟩
  · refine Triple.touchEach (σ := schema rt) (t := Tbl.refreshTokens)
      (J := fun _ _ v => K v ∧ Tame p t₀ v) (fun _ _ => hstable)
      (fun _ _ v hA => hA.2.opened.inside) ?_ ?_ (fun found => ?_) _ []
    · intro id rest found v W hwf hinv hA hin hmissed
      exact ⟨hK.calm _ _ (Calm.put (fun hmilestone => hmilestone) rfl rfl) hA.1, hA.2.put⟩
    · intro id rest found v W r hwf hinv hA hin hfree hview hwhere
      have hactive : r.revokedAt = none := by
        simp only [Bool.and_eq_true, Option.isNone_iff_eq_none] at hwhere
        exact hwhere.2
      refine ⟨hK.calm _ _ (Calm.put (fun hmilestone => hmilestone)
        (Store.hold_stored _ _ _ _ _) rfl) hA.1, hA.2.hold hin hview ?_⟩
      exact fun a ha hversion => hversion.revoke (hL.inv v hinv) ha hactive t₀
    · exact Triple.ret hstable fun v hA => hA

/-- A user by id. `owner` says that the user is known to exist. -/
theorem findById_rule {A : BackendView rt → Prop} (hstable : L.Stable p A)
    (hread : ∀ v s, A v → A (v.put p ⟨.sql (.read .pool), .ok s⟩ v.store))
    {userId : Nat} (owner : Prop)
    (howner : ∀ v, A v → owner → (v.store.stored Tbl.users userId).isSome = true)
    {E : AppError → BackendView rt → Prop} :
    L.Triple p A (UsersRepository.findById userId)
      (ends (fun found v => A v ∧ (found = none → ¬ owner) ∧
        ∀ user, found = some user → user.1 = userId) E) := by
  refine findOne_rule hstable (fun found => hstable.and (Stable.const _)) ?_
  intro v s found hwf hinv hA hpicks
  refine ⟨hread v s hA, ?_, ?_⟩
  · rintro rfl hknown
    obtain ⟨user, huser⟩ := Option.isSome_iff_exists.mp (howner v hA hknown)
    have hmiss := hpicks userId user huser
    simp at hmiss
  · rintro user rfl
    have hmatch := hpicks.2
    simpa using hmatch

/-- `p` has drawn the value `raw`. -/
structure Drawn (p : Pid) (raw : String) (v v' : BackendView rt) : Prop where
  store : v'.store = v.store
  fresh : v.mem.minted raw = none
  drawn : v'.mem.minted raw = some p
  calm : Calm p v v'

theorem drawn_of_mint (hL : OverTokens L) {v v' : BackendView rt} (hwf : v.store.Wf)
    (hinv : L.Inv v) {mem : Memory} {text raw : String}
    {e : Event (schema rt) (platform rt)}
    (hmint : v.mem.mint p text = some (raw, mem)) (hrun : L.scope.run v p v')
    (hacts : ActsOn p e v v') (hevent : ¬ Milestone e) (hv' : v' = v.remember p e mem) :
    L.Inv v' ∧ L.Guar (some p) v v' ∧ Drawn p raw v v' := by
  subst hv'
  obtain ⟨hinv', hguar, hcache, hdrawn⟩ := mint_step hwf (hL.inv v hinv) hmint e
  obtain ⟨hfresh, -, -⟩ := Memory.mint_cases hmint
  have hcalm : Calm p v (v.remember p e mem) :=
    Calm.remember hevent hcache (mint_kept hmint).1
  obtain ⟨hL', hG'⟩ := hL.minor p v _ hwf hinv
    ⟨⟨e, hacts, hevent⟩, rfl, hcache, hguar, hinv'⟩ hrun
  exact ⟨hL', hG', rfl, hfresh, hdrawn, hcalm⟩

theorem randomBytes_rule (hL : OverTokens L) {A : BackendView rt → Prop}
    {R : String → BackendView rt → Prop} {E : AppError → BackendView rt → Prop}
    (hstable : L.Stable p A) (hR : ∀ raw, L.Stable p (R raw))
    (hnext : ∀ v v' raw, v.store.Wf → L.Inv v → A v → Drawn p raw v v' → R raw v') :
    L.Triple p A randomBytes (ends R E) := by
  refine Triple.node hstable ?_ fun raw => Triple.ret (hR raw) fun _ hR => hR
  intro v choice raw mem v' hwf hinv hA hmint hrun hacts hv'
  obtain ⟨hinv', hguar, hdrawn⟩ := drawn_of_mint hL hwf hinv hmint hrun hacts
    (fun hmilestone => hmilestone) hv'
  exact ⟨hinv', hguar, hnext v v' raw hwf hinv hA hdrawn⟩

theorem randomUUID_rule (hL : OverTokens L) {A : BackendView rt → Prop}
    {R : String → BackendView rt → Prop} {E : AppError → BackendView rt → Prop}
    (hstable : L.Stable p A) (hR : ∀ raw, L.Stable p (R raw))
    (hnext : ∀ v v' raw, v.store.Wf → L.Inv v → A v → Drawn p raw v v' → R raw v') :
    L.Triple p A randomUUID (ends R E) := by
  refine Triple.node hstable ?_ fun raw => Triple.ret (hR raw) fun _ hR => hR
  intro v choice raw mem v' hwf hinv hA hmint hrun hacts hv'
  obtain ⟨hinv', hguar, hdrawn⟩ := drawn_of_mint hL hwf hinv hmint hrun hacts
    (fun hmilestone => hmilestone) hv'
  exact ⟨hinv', hguar, hnext v v' raw hwf hinv hA hdrawn⟩

end Queries

/-! ### New tokens -/

section NewTokens

/-- The row that `insertNew` writes at the time `now`. -/
def newToken (values : RefreshTokensRepository.InsertRefreshTokenValues) (now : Time) :
    RefreshToken where
  userId := values.userId
  familyId := values.familyId
  tokenHash := values.tokenHash
  issuedAt := now
  expiresAt := values.expiresAt
  revokedAt := none
  replacedById := none
  userAgent := values.userAgent
  ip := values.ip

/-- The insertion of `b` by `p`. -/
structure Inserted (p : Pid) (b : RefreshToken) (v v' : BackendView rt) : Prop where
  tokens : tokens v' = tokens v
  born : ∀ i, tokenBorn v' i =
    if i = v.store.next Tbl.refreshTokens then some (p, b) else tokenBorn v i
  draft : ∀ i, tokenDraft p v' i =
    if i = v.store.next Tbl.refreshTokens then some (some b) else tokenDraft p v i
  users : ∀ i, v'.store.draft p Tbl.users i = v.store.draft p Tbl.users i
  tx : v'.store.tx = v.store.tx
  minted : v'.mem.minted = v.mem.minted
  calm : Calm p v v'

theorem inserted_push {v : BackendView rt} (hwf : v.store.Wf) (b : RefreshToken)
    {e : Event (schema rt) (platform rt)} (hevent : ¬ Milestone e) :
    Inserted p b v (v.put p e (v.store.push p Tbl.refreshTokens b)) where
  tokens := tokens_push hwf e b
  born := tokenBorn_push e b
  draft := fun i => by
    unfold tokenDraft
    rw [View.put_store, Store.push_draft_self, Drafts.set_apply]
  users := fun i => by
    rw [View.put_store, Store.push_draft_self,
      Drafts.set_other _ _ _ (by decide : Tbl.users ≠ Tbl.refreshTokens)]
  tx := rfl
  minted := rfl
  calm := Calm.put hevent
    (Store.push_stored v.store p Tbl.refreshTokens b (hwf.vacant _ _ (le_refl _)).1) rfl

/-- An insertion that is refused leaves everything but the transaction alone. -/
structure Refused (p : Pid) (v v' : BackendView rt) : Prop where
  tokens : tokens v' = tokens v
  born : tokenBorn v' = tokenBorn v
  draft : tokenDraft p v' = tokenDraft p v
  calm : Calm p v v'

theorem insertNew_rule (hL : OverTokens L) {t₀ : Time} {s : String}
    {values : RefreshTokensRepository.InsertRefreshTokenValues}
    {A : BackendView rt → Prop} {R : Nat → BackendView rt → Prop}
    {E : BackendView rt → Prop} (hstable : L.Stable p A)
    (hopen : ∀ v, A v → Open p t₀ v)
    (hbirth : ∀ v, A v → TokenBirth p s (newToken values t₀) v)
    (hR : ∀ j, L.Stable p (R j)) (hE : L.Stable p E)
    (haccepted : ∀ v v', v.store.Wf → L.Inv v → A v →
      v.store.Accepts p Tbl.refreshTokens (newToken values t₀) →
      Inserted p (newToken values t₀) v v' → R (v.store.next Tbl.refreshTokens) v')
    (hrefused : ∀ v v' e, v.store.Wf → L.Inv v → A v →
      v.store.Refuses p Tbl.refreshTokens (newToken values t₀) e →
      Refused p v v' → E v') :
    L.Triple p A (RefreshTokensRepository.insertNew values)
      (ends (fun row v => row.2 = newToken values t₀ ∧ R row.1 v) fun _ => E) := by
  refine Triple.insert (R := R) (E := fun _ => E) hstable
    (fun v hA => (hopen v hA).inside) ?_ ?_ ?_ ?_
  · intro v v' W e hwf hinv hA hin hrefuses hrun hv'
    subst hv'
    refine hrefused v _ e hwf hinv hA hrefuses ⟨rfl, rfl, rfl, ?_⟩
    exact Calm.put (fun hmilestone => hmilestone) rfl rfl
  · intro v v' e W hwf hinv hA hin haccepts hrun hacts hevent hv'
    have hnot : ¬ Milestone e := by
      rw [hevent]
      exact fun hmilestone => hmilestone
    have hbirth' := hbirth v hA
    have hinserted := inserted_push (p := p) hwf (newToken values t₀) hnot
    subst hv'
    obtain ⟨hinv', hguar⟩ := hL.minor p v _ hwf hinv
      { acts := ⟨e, hacts, hnot⟩
        tokens := hinserted.tokens
        graceCache := rfl
        guar := birth_guar hwf hbirth' e
        inv := birth_inv hwf (hL.inv v hinv) hbirth' e } hrun
    exact ⟨hinv', hguar, haccepted v _ hwf hinv hA haccepts hinserted⟩
  · exact fun j => Triple.ret (hR j) fun v hR => ⟨rfl, hR⟩
  · exact fun e => Triple.throw hE fun v hE => hE

end NewTokens

end Mes
