import Mes.Auth.TokenRules

/-!
The proof outline of a refresh, once for every logic over the tokens. What
differs between two uses is what is known about the common state before the
clock is read, after it, after a rotation has been committed and at the end;
`RefreshProof` collects these assertions and what has to be shown at the
milestones. `refresh_rule` walks through the program.
-/

namespace Mes

open Transact Transact.Logic

variable {rt : Runtime} {L : Logic (schema rt) (platform rt)} {p : Pid}

/-! ### The rotation -/

section Rotation

variable {M : BackendView rt → Prop} {i : Nat} {a : RefreshToken} {t₀ now : Time}
  {requestMeta : RequestMeta} {owner : Prop}

/-- The successor of the token `a`, with the raw value `raw`. -/
def successor (rt : Runtime) (a : RefreshToken) (raw : String)
    (requestMeta : RequestMeta) (now t₀ : Time) : RefreshToken where
  userId := a.userId
  familyId := a.familyId
  tokenHash := rt.sha256 raw
  issuedAt := t₀
  expiresAt := now + TOKEN_TTL
  revokedAt := none
  replacedById := none
  userAgent := requestMeta.userAgent
  ip := requestMeta.ip

/-- Why a rotation can fail: two values have the same hash, the address is not
one, or the user may be unknown. -/
def Unlucky (requestMeta : RequestMeta) (owner : Prop) (v : BackendView rt) : Prop :=
  ¬ CollisionFree v ∨ requestMeta.ip.all rt.isInet = false ∨ ¬ owner

/-- What `p` has inserted is not committed, and nobody else has touched it. -/
def Hidden (p : Pid) (v : BackendView rt) : Prop :=
  ∀ j b, tokenBorn v j = some (p, b) → tokens v j = none ∧
    (tokenDraft p v j).isSome = true

/-- `p` has inserted no token but `j`. -/
def OnlyChild (p : Pid) (j : Nat) (v : BackendView rt) : Prop :=
  ∀ k c, tokenBorn v k = some (p, c) → k = j

/-- The transaction of `p` has inserted the successor; `x` is its version of the
old token. -/
structure Rotating (p : Pid) (i : Nat) (a x : RefreshToken) (raw : String)
    (requestMeta : RequestMeta) (now t₀ : Time) (j : Nat) (v : BackendView rt) : Prop where
  opened : Open p t₀ v
  minted : v.mem.minted raw = some p
  inet : requestMeta.ip.all rt.isInet = true
  noUsers : ∀ k, v.store.draft p Tbl.users k = none
  only : OnlyChild p j v
  writes : RotationWrites p i j a x (successor rt a raw requestMeta now t₀) t₀ v

theorem stable_unlucky (hL : OverTokens L) :
    L.Stable p (@Unlucky rt requestMeta owner) := by
  intro actor v v' hactor hstep hunlucky
  rcases hunlucky with hcollision | hrest
  · refine Or.inl fun hfree => hcollision (hfree.earlier fun s q hs => ?_)
    have hrule := hL.guar actor v v' hstep.guar
    cases actor with
    | none => rw [hrule.minted, hs]
    | some r => exact hrule.mintKept s q hs
  · exact Or.inr hrest

theorem context_unlucky (hL : OverTokens L) :
    Context L p (@Unlucky rt requestMeta owner) where
  stable := stable_unlucky hL
  calm := fun v v' hcalm hunlucky => by
    rcases hunlucky with hcollision | hrest
    · exact Or.inl fun hfree => hcollision (hfree.earlier hcalm.mintKept)
    · exact Or.inr hrest

theorem stable_hidden : L.Stable p (@Hidden rt p) := by
  intro actor v v' hactor hstep hhidden j b hb
  obtain ⟨hnone, hdraft⟩ := hhidden j b (born_earlier hactor hstep hb)
  obtain ⟨x, hx⟩ := Option.isSome_iff_exists.mp hdraft
  rw [tokens_locked hactor hstep hx, draft_kept hactor hstep]
  exact ⟨hnone, hdraft⟩

theorem stable_onlyChild (j : Nat) : L.Stable p (@OnlyChild rt p j) :=
  fun _ _ _ hactor hstep honly k c hc => honly k c (born_earlier hactor hstep hc)

theorem stable_rotating (hL : OverTokens L) (x : RefreshToken) (raw : String) (j : Nat) :
    L.Stable p (@Rotating rt p i a x raw requestMeta now t₀ j) := by
  intro actor v v' hactor hstep hrotating
  exact
    { opened := stable_open t₀ actor v v' hactor hstep hrotating.opened
      minted := stable_minted hL raw p actor v v' hactor hstep hrotating.minted
      inet := hrotating.inet
      noUsers := by
        rw [(hstep.own_tx hactor).2]
        exact hrotating.noUsers
      only := stable_onlyChild j actor v v' hactor hstep hrotating.only
      writes := stable_rotationWrites i j a x _ t₀ actor v v' hactor hstep
        hrotating.writes }

theorem Barren.hidden {v : BackendView rt} (hbarren : Barren p v) : Hidden p v :=
  fun j b hb => absurd hb (hbarren j b)

theorem Rotating.hidden {v : BackendView rt} {x : RefreshToken} {raw : String} {j : Nat}
    (hrotating : Rotating p i a x raw requestMeta now t₀ j v) : Hidden p v := by
  intro k c hc
  have hk := hrotating.only k c hc
  subst hk
  refine ⟨hrotating.writes.vacant, ?_⟩
  unfold tokenDraft
  rw [hrotating.writes.newDraft]
  rfl

theorem Rotating.put {v : BackendView rt} {x : RefreshToken} {raw : String} {j : Nat}
    {e : Event (schema rt) (platform rt)}
    (hrotating : Rotating p i a x raw requestMeta now t₀ j v) :
    Rotating p i a x raw requestMeta now t₀ j (v.put p e v.store) where
  opened := hrotating.opened
  minted := hrotating.minted
  inet := hrotating.inet
  noUsers := hrotating.noUsers
  only := hrotating.only
  writes :=
    { hrotating.writes with
      old := hrotating.writes.old }

/-- The insertion of the successor is accepted. -/
theorem rotating_of_inserted {v v' : BackendView rt} {raw : String} (hwf : v.store.Wf)
    (hlocks : LocksOnly p t₀ v) (hholds : HoldsToken p i a v)
    (hactive : a.revokedAt = none) (hclock : t₀ ≤ now)
    (hminted : v.mem.minted raw = some p)
    (haccepts : v.store.Accepts p Tbl.refreshTokens
      (successor rt a raw requestMeta now t₀))
    (hinserted : Inserted p (successor rt a raw requestMeta now t₀) v v') :
    Rotating p i a a raw requestMeta now t₀ (v.store.next Tbl.refreshTokens) v' := by
  have hold := hlocks.committed hholds
  have hlt : i < v.store.next Tbl.refreshTokens := hwf.lt_next hold
  constructor
  · unfold Open
    rw [hinserted.tx]
    exact hlocks.opened
  · rw [hinserted.minted, hminted]
  · exact haccepts.admitted
  · intro k
    rw [hinserted.users, hlocks.noUsers]
  · intro k c hc
    rw [hinserted.born] at hc
    split at hc
    · assumption
    · exact absurd hc (hlocks.barren k c)
  · constructor
    · rw [hinserted.tokens, hold]
    · exact hactive
    · have hdraft := hinserted.draft i
      rw [if_neg (Nat.ne_of_lt hlt)] at hdraft
      exact hdraft.trans hholds
    · have hdraft := hinserted.draft (v.store.next Tbl.refreshTokens)
      rw [if_pos rfl] at hdraft
      exact hdraft
    · intro k hki hkj
      have hdraft := hinserted.draft k
      rw [if_neg hkj] at hdraft
      have hsame := hlocks.same k
      rw [← hdraft, ← hinserted.tokens] at hsame
      exact hsame
    · rw [hinserted.tokens]
      exact (hwf.vacant Tbl.refreshTokens _ (le_refl _)).1
    · rw [hinserted.born, if_pos rfl]
    · rfl
    · rfl
    · exact hlt
    · rfl
    · rfl
    · exact Nat.add_le_add_right hclock TOKEN_TTL

/-- The insertion of the successor is refused. -/
theorem unlucky_of_refused {v : BackendView rt} {raw : String} {e : SqlError}
    (hinv : TokenInv v) (hlocks : LocksOnly p t₀ v)
    (hbirth : TokenBirth p raw (successor rt a raw requestMeta now t₀) v)
    (howner : owner → (v.store.stored Tbl.users a.userId).isSome = true)
    (hrefuses : v.store.Refuses p Tbl.refreshTokens
      (successor rt a raw requestMeta now t₀) e) :
    @Unlucky rt requestMeta owner v := by
  cases e with
  | dataException => exact Or.inr (Or.inl hrefuses)
  | uniqueViolation =>
      obtain ⟨k, c, hclash, hrow⟩ := hrefuses
      refine Or.inl fun hfree => ?_
      have hc : tokens v k = some c := by
        rcases hrow with hstored | hdraft
        · exact hstored
        · have hsame := hlocks.same k
          have hdraft' : tokenDraft p v k = some (some c) := hdraft
          rw [hdraft'] at hsame
          exact hsame.symm
      obtain ⟨q, d, hd, hfixed⟩ := hinv.bornAs k c hc
      have hhash : (successor rt a raw requestMeta now t₀).tokenHash = c.tokenHash := by
        simpa [Tbl.clash] using hclash
      exact hbirth.unborn hinv hfree hd ((fixed_eq hfixed).2.2.1.trans hhash.symm)
  | foreignKeyViolation =>
      obtain ⟨ref, hmem, hunseen⟩ := hrefuses
      have href : ref = (Tbl.users, a.userId) := by
        simpa [Tbl.refs, successor] using hmem
      refine Or.inr (Or.inr fun hknown => ?_)
      obtain ⟨user, huser⟩ := Option.isSome_iff_exists.mp (howner hknown)
      have hseen : v.store.seen p Tbl.users a.userId = some user := by
        unfold Store.seen
        rw [hlocks.noUsers, huser]
        rfl
      rw [href] at hunseen
      rw [hunseen] at hseen
      cases hseen
  | inFailedTransaction => cases hrefuses

/-- The old token, which `p` sees as active, is revoked and linked. -/
theorem revokeRow_rule (hL : OverTokens L) (hM : Context L p M) {raw : String} {j : Nat}
    {E : AppError → BackendView rt → Prop} :
    L.Triple p (fun v => M v ∧ Rotating p i a a raw requestMeta now t₀ j v)
      (RefreshTokensRepository.revokeRow i j)
      (ends (fun _ v => M v ∧
        Rotating p i a (a.rotatedTo j t₀) raw requestMeta now t₀ j v) E) := by
  have hstable : L.Stable p fun v =>
      M v ∧ Rotating p i a a raw requestMeta now t₀ j v :=
    hM.stable.and (stable_rotating hL a raw j)
  refine Triple.read_manager (R := fun s v =>
    (M v ∧ Rotating p i a a raw requestMeta now t₀ j v) ∧
      i < s.next Tbl.refreshTokens ∧ s.get Tbl.refreshTokens i = some a)
    hstable (fun v hA => hA.2.opened.inside) ?_ fun s => ?_
  · intro v s W hwf hinv hA hin hs
    refine ⟨⟨hM.calm _ _ (Calm.put (fun hmilestone => hmilestone) rfl rfl) hA.1,
      hA.2.put⟩, ?_⟩
    subst hs
    refine ⟨hwf.lt_next hA.2.writes.old, ?_⟩
    show (W Tbl.refreshTokens i).getD _ = some a
    rw [← hin.2, hA.2.writes.oldDraft]
    rfl
  · refine Triple.given (fun v _ _ hR => hR.2) fun hfacts => ?_
    have hactive (v : BackendView rt)
        (hA : M v ∧ Rotating p i a a raw requestMeta now t₀ j v) : a.revokedAt = none :=
      hA.2.writes.active
    refine Triple.given (fun v _ _ hR => hactive v hR.1) fun hrevoked => ?_
    have hids : ((s.rows Tbl.refreshTokens).filter fun row =>
        row.1 == i && row.2.revokedAt.isNone).map Prod.fst = [i] := by
      rw [s.withId Tbl.refreshTokens i fun row : RefreshToken => row.revokedAt.isNone,
        if_pos ⟨hfacts.1, by rw [hfacts.2]; simp [hrevoked]⟩]
    show L.Triple p _ ((Sql.touchEach (σ := schema rt) Tbl.refreshTokens _ _ []
      (((s.rows Tbl.refreshTokens).filter fun row =>
        row.1 == i && row.2.revokedAt.isNone).map Prod.fst)).andThen _) _
    rw [hids]
    refine Triple.touch (R := fun _ v => M v ∧
      Rotating p i a (a.rotatedTo j t₀) raw requestMeta now t₀ j v)
      (hstable.and (Stable.const _)) (fun v hR => hR.1.2.opened.inside) ?_ ?_ ?_
    · rintro v W hwf hinv ⟨hA, -⟩ hin hmissed
      have hmiss := hmissed a (by rw [← hin.2, hA.2.writes.oldDraft]; rfl)
      simp [hrevoked] at hmiss
    · rintro v W r hwf hinv ⟨hA, -⟩ hin hfree hview hwhere
      have hr : r = a := by
        rw [← hin.2, hA.2.writes.oldDraft] at hview
        exact (Option.some.inj hview).symm
      subst hr
      have hrotating := hA.2
      have hji : j ≠ i := Nat.ne_of_gt hrotating.writes.order
      refine ⟨hM.calm _ _ (Calm.put (fun hmilestone => hmilestone)
        (Store.hold_stored _ _ _ _ _) rfl) hA.1, hrotating.opened, hrotating.minted,
        hrotating.inet, fun k => ?_, ?_, ?_⟩
      · rw [View.put_store, Store.hold_draft_self,
          Drafts.set_other _ _ _ (by decide : Tbl.users ≠ Tbl.refreshTokens),
          hrotating.noUsers]
      · intro k c hc
        refine hrotating.only k c ?_
        unfold tokenBorn at hc ⊢
        rw [← hc, View.put_store, Store.hold_born]
      · exact
          { hrotating.writes with
            old := by rw [tokens_hold, hrotating.writes.old]
            oldDraft := (tokenDraft_hold i i _).trans (if_pos rfl)
            newDraft := (tokenDraft_hold i j _).trans
              ((if_neg hji).trans hrotating.writes.newDraft)
            others := fun k hki hkj => by
              have hdraft := tokenDraft_hold (v := v) (p := p) (e := ⟨.sql (.touch
                Tbl.refreshTokens i (fun _ row => row.revokedAt.isNone) fun now =>
                  RefreshTokensRepository.revoke rt now (some j)), .ok (some r)⟩) i k
                (some (r.rotatedTo j t₀))
              rw [if_neg hki] at hdraft
              rw [tokens_hold]
              exact (congrArg (fun d => d.getD (tokens v k)) hdraft).trans
                (hrotating.writes.others k hki hkj)
            vacant := by rw [tokens_hold, hrotating.writes.vacant]
            born := by
              have hborn := hrotating.writes.born
              unfold tokenBorn at hborn ⊢
              rw [View.put_store, Store.hold_born, hborn] }
    · intro found
      exact Triple.ret (hM.stable.and (stable_rotating hL _ raw j)) fun v hR => hR

/-- The session that a rotation hands out. -/
def rotationOutcome (rt : Runtime) (user : Entity .users) (raw : String) (now : Time) :
    AuthService.RotationOutcome :=
  .rotated
    { accessToken := AuthService.issueToken rt user
      refreshToken := { raw := raw, expiresAt := now + TOKEN_TTL } }
    raw (now + TOKEN_TTL)

theorem buildRotationPayload_rule (hL : OverTokens L) (hM : Context L p M)
    (hforks : ∀ req, L.starts req)
    (howner : ∀ v, M v → owner → (v.store.stored Tbl.users a.userId).isSome = true)
    (hactive : a.revokedAt = none) (hclock : t₀ ≤ now)
    (hpassed : ∀ v, M v → now ≤ v.store.clock) :
    L.Triple p (fun v => (M v ∧ LocksOnly p t₀ v) ∧ HoldsToken p i a v)
      (AuthService.buildRotationPayload (i, a) requestMeta now)
      (ends (fun outcome v => ∃ user raw j, outcome = rotationOutcome rt user raw now ∧
          M v ∧ Rotating p i a (a.rotatedTo j t₀) raw requestMeta now t₀ j v)
        fun _ v => M v ∧ @Unlucky rt requestMeta owner v ∧ Hidden p v) := by
  have hpre : L.Stable p fun v => (M v ∧ LocksOnly p t₀ v) ∧ HoldsToken p i a v :=
    (hM.stable.and (stable_locksOnly t₀)).and (stable_holdsToken i a)
  have hfail : L.Stable p fun v =>
      M v ∧ @Unlucky rt requestMeta owner v ∧ Hidden p v :=
    hM.stable.and ((stable_unlucky hL).and stable_hidden)
  -- the raw value of the successor
  refine Triple.andThen (randomBytes_rule hL (R := fun raw v =>
      ((M v ∧ LocksOnly p t₀ v) ∧ HoldsToken p i a v) ∧ v.mem.minted raw = some p)
    (E := fun _ _ => False) hpre (fun raw => hpre.and (stable_minted hL raw p)) ?_)
    (fun raw => ?_) fun _ _ hfalse => hfalse.elim
  · intro v v' raw hwf hinv hA hdrawn
    have hdraft : tokenDraft p v' = tokenDraft p v := by
      unfold tokenDraft
      rw [hdrawn.store]
    have hlocks := hA.1.2
    refine ⟨⟨⟨hM.calm v v' hdrawn.calm hA.1.1, ?_⟩, ?_⟩, hdrawn.drawn⟩
    · constructor
      · unfold Open
        rw [hdrawn.store]
        exact hlocks.opened
      · unfold Barren tokenBorn
        rw [hdrawn.store]
        exact hlocks.barren
      · rw [hdraft, hdrawn.calm.tokens]
        exact hlocks.kept
      · rw [hdrawn.store]
        exact hlocks.noUsers
    · exact (congrFun hdraft i).trans hA.2
  -- the new row
  have hbirth (v : BackendView rt)
      (hA : ((M v ∧ LocksOnly p t₀ v) ∧ HoldsToken p i a v) ∧ v.mem.minted raw = some p) :
      TokenBirth p raw (successor rt a raw requestMeta now t₀) v :=
    ⟨hA.2, rfl, Or.inr ⟨i, a, hA.1.1.2.committed hA.1.2, rfl⟩, hA.1.1.2.barren,
      Nat.add_le_add_right (hpassed v hA.1.1.1) TOKEN_TTL⟩
  refine Triple.andThen (insertNew_rule (s := raw) hL
    (R := fun j v => M v ∧ Rotating p i a a raw requestMeta now t₀ j v)
    (hpre.and (stable_minted hL raw p)) (fun v hA => hA.1.1.2.opened) hbirth
    (fun j => hM.stable.and (stable_rotating hL a raw j)) hfail ?_ ?_)
    (fun new => ?_) fun _ _ herror => herror
  · intro v v' hwf hinv hA haccepts hinserted
    exact ⟨hM.calm v v' hinserted.calm hA.1.1.1, rotating_of_inserted hwf hA.1.1.2 hA.1.2
      hactive hclock hA.2 haccepts hinserted⟩
  · intro v v' e hwf hinv hA hrefuses hrefused
    have hunlucky := unlucky_of_refused (hL.inv v hinv) hA.1.1.2 (hbirth v hA)
      (howner v hA.1.1.1) hrefuses
    refine ⟨hM.calm v v' hrefused.calm hA.1.1.1,
      (context_unlucky (p := p) hL).calm v v' hrefused.calm hunlucky, ?_⟩
    intro j b hb
    rw [hrefused.born] at hb
    exact absurd hb (hA.1.1.2.barren j b)
  -- the old row
  refine Triple.given (fun v _ _ hR => hR.1) fun hnew => ?_
  refine Triple.weaken (B := fun v => M v ∧ Rotating p i a a raw requestMeta now t₀ new.1 v)
    ?_ fun v _ _ hR => hR.2
  refine Triple.andThen (revokeRow_rule (E := fun _ _ => False) hL hM) (fun _ => ?_)
    fun _ _ hfalse => hfalse.elim
  -- the user
  have hdone : L.Stable p fun v => M v ∧
      Rotating p i a (a.rotatedTo new.1 t₀) raw requestMeta now t₀ new.1 v :=
    hM.stable.and (stable_rotating hL _ raw new.1)
  refine Triple.andThen (findById_rule hdone ?_ owner ?_ (E := fun _ _ => False))
    (fun found => ?_) fun _ _ hfalse => hfalse.elim
  · intro v s hA
    exact ⟨hM.calm _ _ (Calm.put (fun hmilestone => hmilestone) rfl rfl) hA.1, hA.2.put⟩
  · exact fun v hA => howner v hA.1
  · cases found with
    | none =>
        refine Triple.fork (R := fun v => M v ∧ @Unlucky rt requestMeta owner v ∧
          Hidden p v) (hdone.and (Stable.const _)) (hforks _) ?_
          (Triple.throw hfail fun v hR => hR)
        rintro v hwf hinv ⟨hA, hunknown, -⟩
        refine ⟨hM.calm _ _ (Calm.put (fun hmilestone => hmilestone) rfl rfl) hA.1,
          Or.inr (Or.inr (hunknown rfl)), ?_⟩
        exact hA.2.hidden
    | some user =>
        refine Triple.ret (hdone.and (Stable.const _)) ?_
        rintro v ⟨hA, -⟩
        exact ⟨user, raw, new.1, rfl, hA⟩

end Rotation

/-! ### The whole call -/

/-- What `p` has inserted is gone. -/
def Vanished (p : Pid) (v : BackendView rt) : Prop :=
  ∀ j b, tokenBorn v j = some (p, b) → Gone v j

theorem stable_vanished : L.Stable p (@Vanished rt p) := by
  intro actor v v' hactor hstep hvanished j b hb
  exact stable_gone j actor v v' hactor hstep
    (hvanished j b (born_earlier hactor hstep hb))

/-- A rollback removes what was hidden. -/
theorem Hidden.rollback {v : BackendView rt} {e : Event (schema rt) (platform rt)}
    (hwf : v.store.Wf) (hhidden : Hidden p v) :
    Vanished p (v.put p e (v.store.finish p false)) := by
  intro j b hb
  have hborn : tokenBorn v j = some (p, b) := hb
  obtain ⟨hnone, hdraft⟩ := hhidden j b hborn
  obtain ⟨x, hx⟩ := Option.isSome_iff_exists.mp hdraft
  refine ⟨?_, ?_, ?_⟩
  · by_contra hlate
    have hvacant := (hwf.vacant Tbl.refreshTokens j (Nat.le_of_not_lt hlate)).2.1
    have hsome : v.store.born Tbl.refreshTokens j = some (p, b) := hborn
    rw [hvacant] at hsome
    cases hsome
  · unfold tokens at hnone ⊢
    rw [View.put_store, Store.finish_stored_drop, hnone]
  · intro q
    rw [View.put_store]
    rcases eq_or_ne q p with hq | hq
    · rw [hq, Store.finish_draft_self]
      rfl
    · rw [Store.finish_draft_other v.store false hq]
      exact Cell.draft_exclusive hq hx

/-- The answer to a retry within the grace window. -/
structure Retry (rt : Runtime) (raw : String) (requestMeta : RequestMeta)
    (a : RefreshToken) (now : Time) (graceCache : String → Option GraceEntry)
    (r : LoginResult) : Prop where
  cached : ∃ entry, graceCache (rt.sha256 raw) = some entry ∧
    r.refreshToken = { raw := entry.successorRaw, expiresAt := entry.successorExpiresAt }
  within : AuthService.withinGraceWindow a now = true
  userAgent : a.userAgent = requestMeta.userAgent
  user : r.accessToken.accessToken.sub = a.userId

/-- Reading the clock and the grace cache. -/
abbrev clockRead (rt : Runtime) (now : Time) (g : String → Option GraceEntry) :
    Event (schema rt) (platform rt) :=
  ⟨.node NodeOp.turn, (now, g)⟩

/-- A commit that is kept. -/
abbrev committed (rt : Runtime) : Event (schema rt) (platform rt) :=
  ⟨.sql .commit, true⟩

/-- Writing a grace entry. -/
abbrev graceWritten (rt : Runtime) (oldHash successorRaw : String)
    (successorExpiresAt : Time) : Event (schema rt) (platform rt) :=
  ⟨.node (NodeOp.setGraceEntry oldHash successorRaw successorExpiresAt), ()⟩

/-- The assertions of a refresh call of `p` and what they owe to the milestones.
`presented` is a token with the presented hash that is known to be there, `owner`
says that the owner of the token is known to exist. -/
structure RefreshProof (L : Logic (schema rt) (platform rt)) (p : Pid) (raw : String)
    (requestMeta : RequestMeta) where
  start : BackendView rt → Prop
  checked : Nat → RefreshToken → Time → (String → Option GraceEntry) →
    BackendView rt → Prop
  rotated : LoginResult → String → Time → BackendView rt → Prop
  success : LoginResult → BackendView rt → Prop
  failure : BackendView rt → Prop
  presented : Option Nat
  owner : Prop
  startContext : Context L p start
  checkedContext : ∀ i a now g, Context L p (checked i a now g)
  rotatedStable : ∀ r s t, L.Stable p (rotated r s t)
  successStable : ∀ r, L.Stable p (success r)
  failureStable : L.Stable p failure
  there : ∀ v i, start v → presented = some i →
    ∃ a, tokens v i = some a ∧ a.tokenHash = rt.sha256 raw
  known : ∀ i a now g v, checked i a now g v → owner →
    (v.store.stored Tbl.users a.userId).isSome = true
  turn : ∀ v v' t₀ i a, v.store.Wf → L.Inv v → start v → LocksOnly p t₀ v →
    Found p (rt.sha256 raw) (i, a) v → L.scope.run v p v' →
    ActsOn p (clockRead rt v.store.clock v.mem.graceCache) v v' →
    v' = v.remember p (clockRead rt v.store.clock v.mem.graceCache) v.mem →
      L.Inv v' ∧ L.Guar (some p) v v' ∧
        checked i a v.store.clock v.mem.graceCache v'
  retried : ∀ v v' t₀ i a now g r, v.store.Wf → L.Inv v → checked i a now g v →
    LocksOnly p t₀ v → HoldsToken p i a v → Retry rt raw requestMeta a now g r →
    now < a.expiresAt → L.scope.run v p v' → ActsOn p (committed rt) v v' →
    v' = v.put p (committed rt) (v.store.finish p true) →
      L.Inv v' ∧ L.Guar (some p) v v' ∧ success r v'
  rotation : ∀ v v' t₀ i a now g user s j, v.store.Wf → L.Inv v → checked i a now g v →
    Rotating p i a (a.rotatedTo j t₀) s requestMeta now t₀ j v → now < a.expiresAt →
    L.scope.run v p v' → ActsOn p (committed rt) v v' →
    v' = v.put p (committed rt) (v.store.finish p true) →
      L.Inv v' ∧ L.Guar (some p) v v' ∧
        rotated { accessToken := AuthService.issueToken rt user
                  refreshToken := { raw := s, expiresAt := now + TOKEN_TTL } }
          s (now + TOKEN_TTL) v'
  grace : ∀ v v' r s t, v.store.Wf → L.Inv v → rotated r s t v →
    L.scope.run v p v' → ActsOn p (graceWritten rt (rt.sha256 raw) s t) v v' →
    v' = v.remember p (graceWritten rt (rt.sha256 raw) s t)
      { v.mem with graceCache := Function.update v.mem.graceCache (rt.sha256 raw) (some
        { successorRaw := s, successorExpiresAt := t,
          timer := v.store.clock + GRACE_MS }) } →
      L.Inv v' ∧ L.Guar (some p) v v' ∧ success r v'
  missing : ∀ v, start v → presented = none → Vanished p v → failure v
  rejected : ∀ v i a now g, checked i a now g v → Vanished p v →
    (a.expiresAt ≤ now ∨
      (a.revokedAt.isSome = true ∧
        (¬ ((g (rt.sha256 raw)).isSome = true ∧
            AuthService.withinGraceWindow a now = true ∧
            a.userAgent = requestMeta.userAgent) ∨ ¬ owner)) ∨
      (a.revokedAt = none ∧ @Unlucky rt requestMeta owner v)) → failure v

namespace RefreshProof

variable {raw : String} {requestMeta : RequestMeta}

/-- Why the call of `P` fails. -/
def Fails (P : RefreshProof L p raw requestMeta) (v : BackendView rt) : Prop :=
  P.start v ∧ P.presented = none ∨
    ∃ i a now g, P.checked i a now g v ∧
      (a.expiresAt ≤ now ∨
        (a.revokedAt.isSome = true ∧
          (¬ ((g (rt.sha256 raw)).isSome = true ∧
              AuthService.withinGraceWindow a now = true ∧
              a.userAgent = requestMeta.userAgent) ∨ ¬ P.owner)) ∨
        (a.revokedAt = none ∧ @Unlucky rt requestMeta P.owner v))

theorem fails_context (P : RefreshProof L p raw requestMeta) (hL : OverTokens L) :
    Context L p P.Fails where
  stable := by
    rintro actor v v' hactor hstep (⟨hstart, hnone⟩ | ⟨i, a, now, g, hchecked, hreason⟩)
    · exact Or.inl ⟨P.startContext.stable actor v v' hactor hstep hstart, hnone⟩
    · refine Or.inr ⟨i, a, now, g,
        (P.checkedContext i a now g).stable actor v v' hactor hstep hchecked, ?_⟩
      rcases hreason with hlate | hrevoked | ⟨hactive, hunlucky⟩
      · exact Or.inl hlate
      · exact Or.inr (Or.inl hrevoked)
      · exact Or.inr (Or.inr ⟨hactive, stable_unlucky hL actor v v' hactor hstep hunlucky⟩)
  calm := by
    rintro v v' hcalm (⟨hstart, hnone⟩ | ⟨i, a, now, g, hchecked, hreason⟩)
    · exact Or.inl ⟨P.startContext.calm v v' hcalm hstart, hnone⟩
    · refine Or.inr ⟨i, a, now, g, (P.checkedContext i a now g).calm v v' hcalm hchecked, ?_⟩
      rcases hreason with hlate | hrevoked | ⟨hactive, hunlucky⟩
      · exact Or.inl hlate
      · exact Or.inr (Or.inl hrevoked)
      · exact Or.inr (Or.inr ⟨hactive, (context_unlucky hL).calm v v' hcalm hunlucky⟩)

/-- The state in which the body of the transaction ends with a value. -/
def Ready (P : RefreshProof L p raw requestMeta) :
    AuthService.RotationOutcome → BackendView rt → Prop
  | .retried r, v => ∃ t₀ i a now g, (P.checked i a now g v ∧ LocksOnly p t₀ v ∧
      HoldsToken p i a v) ∧ Retry rt raw requestMeta a now g r ∧ now < a.expiresAt
  | .rotated r s t, v => ∃ t₀ i a now g user j, (P.checked i a now g v ∧
      Rotating p i a (a.rotatedTo j t₀) s requestMeta now t₀ j v) ∧
      .rotated r s t = rotationOutcome rt user s now ∧ now < a.expiresAt

/-- The state after the commit. -/
def Done (P : RefreshProof L p raw requestMeta) :
    AuthService.RotationOutcome → BackendView rt → Prop
  | .retried r => P.success r
  | .rotated r s t => P.rotated r s t

theorem commit_rule (P : RefreshProof L p raw requestMeta) (hL : OverTokens L)
    (outcome : AuthService.RotationOutcome) {E : AppError → BackendView rt → Prop} :
    L.Triple p (P.Ready outcome) (.step (.sql .commit) fun _ => .ret outcome)
      (ends P.Done E) := by
  cases outcome with
  | retried r =>
      refine Triple.exists fun t₀ => Triple.exists fun i => Triple.exists fun a =>
        Triple.exists fun now => Triple.exists fun g => ?_
      refine Triple.commit (R := P.success r) ?_ (fun v hA => hA.1.2.1.opened.insideTx) ?_
        (Triple.ret (P.successStable r) fun v hR => hR)
      · exact ((P.checkedContext i a now g).stable.and ((stable_locksOnly t₀).and
          (stable_holdsToken i a))).and (Stable.const _)
      · rintro v v' hwf hinv ⟨⟨hchecked, hlocks, hholds⟩, hretry, hlive⟩ hrun hacts hv'
        exact P.retried v v' t₀ i a now g r hwf hinv hchecked hlocks hholds hretry hlive
          hrun hacts hv'
  | rotated r s t =>
      refine Triple.exists fun t₀ => Triple.exists fun i => Triple.exists fun a =>
        Triple.exists fun now => Triple.exists fun g => Triple.exists fun user =>
          Triple.exists fun j => ?_
      refine Triple.given (fun v _ _ hA => hA.2.1) fun houtcome => ?_
      obtain ⟨rfl, rfl⟩ : r = _ ∧ t = _ := by
        simpa [rotationOutcome] using houtcome
      refine Triple.commit (R := P.rotated _ s _) ?_
        (fun v hA => hA.1.2.opened.insideTx) ?_
        (Triple.ret (P.rotatedStable _ s _) fun v hR => hR)
      · exact ((P.checkedContext i a now g).stable.and (stable_rotating hL _ s j)).and
          (Stable.const _)
      · rintro v v' hwf hinv ⟨⟨hchecked, hrotating⟩, -, hlive⟩ hrun hacts hv'
        exact P.rotation v v' t₀ i a now g user s j hwf hinv hchecked hrotating hlive
          hrun hacts hv'

theorem rollback_rule (P : RefreshProof L p raw requestMeta) (hL : OverTokens L)
    {α : Type} (e : AppError) {R : α → BackendView rt → Prop} :
    L.Triple p (fun v => P.Fails v ∧ Hidden p v)
      (.step (.sql .rollback) fun _ => .throw e) (ends R fun _ => P.failure) := by
  have hcontext := P.fails_context hL
  refine Triple.rollback (R := fun v => P.Fails v ∧ Vanished p v)
    (hcontext.stable.and stable_hidden) ?_
    (Triple.weaken (Triple.throw P.failureStable fun v hfailure => hfailure) ?_)
  · rintro v hwf hinv ⟨hfails, hhidden⟩
    refine ⟨hcontext.calm _ _ ?_ hfails, hhidden.rollback hwf⟩
    exact Calm.put (fun hmilestone => hmilestone)
      (Store.finish_stored_drop v.store p) rfl
  · rintro v hwf hinv ⟨hfails, hvanished⟩
    rcases hfails with ⟨hstart, hnone⟩ | ⟨i, a, now, g, hchecked, hreason⟩
    · exact P.missing v hstart hnone hvanished
    · exact P.rejected v i a now g hchecked hvanished hreason

/-- A presented token that has been revoked: a retry, or theft. -/
theorem handleRevokedToken_rule (P : RefreshProof L p raw requestMeta) (hL : OverTokens L)
    {t₀ now : Time} {i : Nat} {a : RefreshToken} {g : String → Option GraceEntry}
    (hrevoked : a.revokedAt.isSome = true) (hlive : now < a.expiresAt) :
    L.Triple p (fun v => (P.checked i a now g v ∧ LocksOnly p t₀ v) ∧ HoldsToken p i a v)
      (AuthService.handleRevokedToken a (rt.sha256 raw) requestMeta now g)
      (ends (fun r => P.Ready (.retried r)) fun _ v => P.Fails v ∧ Hidden p v) := by
  have hcontext := P.checkedContext i a now g
  have hpre : L.Stable p fun v =>
      (P.checked i a now g v ∧ LocksOnly p t₀ v) ∧ HoldsToken p i a v :=
    (hcontext.stable.and (stable_locksOnly t₀)).and (stable_holdsToken i a)
  have hfails : L.Stable p fun v => P.Fails v ∧ Hidden p v :=
    (P.fails_context hL).stable.and stable_hidden
  unfold AuthService.handleRevokedToken
  dsimp only
  split
  · rename_i entry hentry hgrace
    have hmatch : AuthService.withinGraceWindow a now = true ∧
        a.userAgent = requestMeta.userAgent := by
      simpa using hgrace
    refine Triple.andThen (findById_rule hpre ?_ P.owner ?_
      (E := fun _ _ => False)) (fun found => ?_) fun _ _ hfalse => hfalse.elim
    · intro v s hA
      have hcalm : Calm p v (v.put p ⟨.sql (.read .pool), .ok s⟩ v.store) :=
        Calm.put (fun hmilestone => hmilestone) rfl rfl
      exact ⟨⟨hcontext.calm _ _ hcalm hA.1.1, hA.1.2.put⟩, hA.2⟩
    · exact fun v hA => P.known i a now g v hA.1.1
    · cases found with
      | none =>
          refine Triple.weaken (Triple.throw hfails fun v hE => hE) ?_
          rintro v hwf hinv ⟨hA, hunknown, -⟩
          exact ⟨Or.inr ⟨i, a, now, g, hA.1.1,
            Or.inr (Or.inl ⟨hrevoked, Or.inr (hunknown rfl)⟩)⟩, hA.1.2.barren.hidden⟩
      | some user =>
          refine Triple.ret (hpre.and (Stable.const _)) ?_
          rintro v ⟨hA, -, huser⟩
          exact ⟨t₀, i, a, now, g, ⟨hA.1.1, hA.1.2, hA.2⟩,
            ⟨⟨entry, hentry, rfl⟩, hmatch.1, hmatch.2, huser user rfl⟩, hlive⟩
  · rename_i hmiss
    have hreason : ¬ ((g (rt.sha256 raw)).isSome = true ∧
        AuthService.withinGraceWindow a now = true ∧
        a.userAgent = requestMeta.userAgent) := by
      rintro ⟨hsome, hwithin, hagent⟩
      obtain ⟨entry, hentry⟩ := Option.isSome_iff_exists.mp hsome
      exact hmiss entry hentry (by simp [hwithin, hagent])
    refine Triple.weaken (B := fun v => P.checked i a now g v ∧ Tame p t₀ v) ?_
      fun v _ _ hA => ⟨hA.1.1, hA.1.2.toTame⟩
    refine Triple.andThen (revokeFamily_rule (E := fun _ _ => False) hL hcontext _)
      (fun _ => ?_) fun _ _ hfalse => hfalse.elim
    refine Triple.weaken (Triple.throw hfails fun v hE => hE) ?_
    rintro v hwf hinv ⟨hchecked, htame⟩
    exact ⟨Or.inr ⟨i, a, now, g, hchecked, Or.inr (Or.inl ⟨hrevoked, Or.inl hreason⟩)⟩,
      htame.barren.hidden⟩

/-- After the clock has been read. -/
theorem checked_rule (P : RefreshProof L p raw requestMeta) (hL : OverTokens L)
    (hforks : ∀ req, L.starts req) {t₀ now : Time} {i : Nat} {a : RefreshToken}
    {g : String → Option GraceEntry} (hclock : t₀ ≤ now) :
    L.Triple p (fun v => ((P.checked i a now g v ∧ now ≤ v.store.clock) ∧ LocksOnly p t₀ v) ∧
        HoldsToken p i a v)
      (if a.expiresAt ≤ now then throwDomain (.refreshToken .expired)
        else if a.revokedAt.isSome then do
          let result ← AuthService.handleRevokedToken a (rt.sha256 raw) requestMeta now g
          pure (.retried result)
        else AuthService.buildRotationPayload (i, a) requestMeta now)
      (ends P.Ready fun _ v => P.Fails v ∧ Hidden p v) := by
  have hcontext := P.checkedContext i a now g
  have hfails : L.Stable p fun v => P.Fails v ∧ Hidden p v :=
    (P.fails_context hL).stable.and stable_hidden
  split
  · rename_i hlate
    refine Triple.weaken (Triple.throw hfails fun v hE => hE) ?_
    rintro v hwf hinv hA
    exact ⟨Or.inr ⟨i, a, now, g, hA.1.1.1, Or.inl hlate⟩, hA.1.2.barren.hidden⟩
  · rename_i hlive
    have hlive' : now < a.expiresAt := Nat.lt_of_not_le hlive
    split
    · rename_i hrevoked
      refine Triple.andThen (Triple.weaken (P.handleRevokedToken_rule hL hrevoked hlive')
        fun v _ _ hA => ⟨⟨hA.1.1.1, hA.1.2⟩, hA.2⟩) (fun r => ?_) fun _ _ herror => herror
      refine Triple.ret ?_ fun v hready => hready
      rintro actor v v' hactor hstep ⟨t₁, j, b, t, h, ⟨hchecked, hlocks, hholds⟩, hrest⟩
      exact ⟨t₁, j, b, t, h, ⟨(P.checkedContext j b t h).stable actor v v' hactor hstep
        hchecked, stable_locksOnly t₁ actor v v' hactor hstep hlocks,
        stable_holdsToken j b actor v v' hactor hstep hholds⟩, hrest⟩
    · rename_i hnot
      have hactive : a.revokedAt = none := by simpa using hnot
      refine Triple.post (buildRotationPayload_rule hL (hcontext.and (context_clock now)) hforks
        (fun v hM => P.known i a now g v hM.1) hactive hclock fun v hM => hM.2) ?_
      rintro (e | outcome) v hpost
      · obtain ⟨⟨hchecked, -⟩, hunlucky, hhidden⟩ := hpost
        exact ⟨Or.inr ⟨i, a, now, g, hchecked, Or.inr (Or.inr ⟨hactive, hunlucky⟩)⟩,
          hhidden⟩
      · obtain ⟨user, s, j, rfl, ⟨hchecked, -⟩, hrotating⟩ := hpost
        exact ⟨t₀, i, a, now, g, user, j, ⟨hchecked, hrotating⟩, rfl, hlive'⟩

theorem transaction_rule (P : RefreshProof L p raw requestMeta) (hL : OverTokens L)
    (hforks : ∀ req, L.starts req) :
    L.Triple p (fun v => P.start v ∧ Barren p v)
      (AuthService.executeRotationTransaction (rt.sha256 raw) requestMeta)
      (ends P.Done fun _ => P.failure) := by
  have hfails : L.Stable p fun v => P.Fails v ∧ Hidden p v :=
    (P.fails_context hL).stable.and stable_hidden
  refine Triple.transaction (B := fun t₀ v => P.start v ∧ LocksOnly p t₀ v)
    (C := P.Ready) (E := fun _ v => P.Fails v ∧ Hidden p v)
    (P.startContext.stable.and stable_barren) ?_ (fun t₀ => ?_)
    (fun outcome => P.commit_rule hL outcome) fun e => P.rollback_rule hL e
  · rintro v hwf hinv ⟨hstart, hbarren⟩ hidle
    exact ⟨P.startContext.calm _ _ (Calm.put (fun hmilestone => hmilestone) rfl rfl) hstart,
      LocksOnly.begin hwf hidle hbarren⟩
  · refine Triple.andThen (selectForUpdate_rule (E := fun _ _ => False) P.startContext
      P.there) (fun found => ?_) fun _ _ hfalse => hfalse.elim
    have hstable : L.Stable p fun v => P.start v ∧ LocksOnly p t₀ v :=
      P.startContext.stable.and (stable_locksOnly t₀)
    cases found with
    | none =>
        refine Triple.weaken (Triple.throw hfails fun v hE => hE) ?_
        rintro v hwf hinv ⟨⟨hstart, hlocks⟩, hnone, -⟩
        exact ⟨Or.inl ⟨hstart, hnone rfl⟩, hlocks.barren.hidden⟩
    | some row =>
        obtain ⟨i, a⟩ := row
        refine Triple.weaken (B := fun v => (P.start v ∧ LocksOnly p t₀ v) ∧
          Found p (rt.sha256 raw) (i, a) v) ?_ fun v _ _ hA => ⟨hA.1, hA.2.2 _ rfl⟩
        refine Triple.node (R := fun answer v => (((P.checked i a answer.1 answer.2 v ∧
          answer.1 ≤ v.store.clock) ∧ LocksOnly p t₀ v) ∧ HoldsToken p i a v) ∧ t₀ ≤ answer.1)
          (hstable.and (stable_found _ (i, a))) ?_ fun answer => ?_
        · rintro v choice answer mem v' hwf hinv ⟨⟨hstart, hlocks⟩, hfound⟩ hturn hrun
            hacts hv'
          obtain ⟨rfl, rfl⟩ : answer = (v.store.clock, v.mem.graceCache) ∧ mem = v.mem := by
            have hpair := Option.some.inj hturn
            exact ⟨(congrArg Prod.fst hpair).symm, (congrArg Prod.snd hpair).symm⟩
          obtain ⟨hinv', hguar, hchecked⟩ :=
            P.turn v v' t₀ i a hwf hinv hstart hlocks hfound hrun hacts hv'
          subst hv'
          exact ⟨hinv', hguar, ⟨⟨⟨hchecked, le_refl _⟩, hlocks.remember _⟩, hfound.1⟩,
            hwf.started p _ hlocks.opened⟩
        · obtain ⟨now, g⟩ := answer
          refine Triple.given (fun v _ _ hR => hR.2) fun hclock => ?_
          exact Triple.weaken (P.checked_rule hL hforks hclock) fun v _ _ hR => hR.1

/-- The outline of a refresh call. -/
theorem refresh_rule (P : RefreshProof L p raw requestMeta) (hL : OverTokens L)
    (hforks : ∀ req, L.starts req) :
    L.Triple p (fun v => P.start v ∧ Barren p v) (AuthService.refresh raw requestMeta)
      (ends P.success fun _ => P.failure) := by
  refine Triple.andThen (P.transaction_rule hL hforks) (fun outcome => ?_)
    fun _ _ herror => herror
  cases outcome with
  | retried r => exact Triple.ret (P.successStable r) fun v hR => hR
  | rotated r s t =>
      refine Triple.node (R := fun _ => P.success r) (P.rotatedStable r s t) ?_
        fun _ => Triple.ret (P.successStable r) fun v hR => hR
      intro v choice res mem v' hwf hinv hrotated hset hrun hacts hv'
      have hmem := (congrArg Prod.snd (Option.some.inj hset)).symm
      subst hmem
      exact P.grace v v' r s t hwf hinv hrotated hrun hacts hv'

end RefreshProof

end Mes
