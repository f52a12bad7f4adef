import Mes.Auth.RefreshRules

/-!
Every request keeps to the rules of the tokens. Requests that write no token
are framed away by their footprint; the others are walked through. A refresh
leaves behind exactly what it answers: after an error nothing of it is
committed, after a success at most the token that it hands out.
-/

namespace Mes

open Transact Transact.Logic

variable {rt : Runtime} {p : Pid}

/-! ### Requests that write no token -/

theorem frame_rule {α : Type} {x : Method rt α} {fp : Footprint} (hwithin : Within fp x)
    (htable : Tbl.refreshTokens ∉ fp.tables) (hgrace : fp.graceCache = false) :
    (tokenLogic rt).Triple p (Untouched p) x fun _ => Untouched p := by
  refine Triple.uses hwithin stable_untouched ?_
  intro v choice c res v' hallows hwf hinv huntouched hexec _
  obtain ⟨-, hacts⟩ := View.exec_base hwf hexec
  have hsame (hstore : v'.store = v.store) (hminted : v'.mem.minted = v.mem.minted)
      (hcache : v'.mem.graceCache = v.mem.graceCache) :
      TokenInv v' ∧ TokenGuar p v v' ∧ Untouched p v' := by
    have htokens : TokensSame v v' :=
      { tokens := by unfold tokens; rw [hstore]
        born := by unfold tokenBorn; rw [hstore]
        minted := hminted
        graceCache := hcache }
    refine ⟨hinv.of_same hwf hacts.store htokens, htokens.guar, ?_⟩
    unfold Untouched Barren tokenBorn tokenDraft
    rw [hstore]
    exact huntouched
  have hmint (text raw : String) (mem : Memory) (hdraw : v.mem.mint p text = some (raw, mem))
      (e : Event (schema rt) (platform rt)) (hv' : v' = v.remember p e mem) :
      TokenInv v' ∧ TokenGuar p v v' ∧ Untouched p v' := by
    subst hv'
    obtain ⟨hinv', hguar, -, -⟩ := mint_step hwf hinv hdraw e
    exact ⟨hinv', hguar, huntouched⟩
  refine ⟨by cases c <;> trivial, ?_⟩
  cases c with
  | fork req =>
      obtain ⟨hstore, hmem, -⟩ := View.exec_fork hexec
      exact hsame hstore (by rw [hmem]) (by rw [hmem])
  | sql stmt =>
      obtain ⟨hstmt, hmem, -⟩ := View.exec_sql hexec
      have hwrites : ¬ Store.WritesTo Tbl.refreshTokens stmt := by
        intro hwrites
        cases stmt with
        | touch t id where_ set =>
            have ht : t = Tbl.refreshTokens := hwrites
            exact htable (ht ▸ hallows)
        | insert t row =>
            have ht : t = Tbl.refreshTokens := hwrites
            exact htable (ht ▸ hallows)
        | begin | commit | rollback | read => exact hwrites
      obtain ⟨hstored, hborn, hclean⟩ :=
        Store.exec_elsewhere hwf hstmt hwrites huntouched.2
      have htokens : TokensSame v v' :=
        { tokens := hstored, born := hborn, minted := by rw [hmem]
          graceCache := by rw [hmem] }
      refine ⟨hinv.of_same hwf hacts.store htokens, htokens.guar, ?_, hclean⟩
      unfold Barren
      rw [htokens.born]
      exact huntouched.1
  | node op =>
      obtain ⟨hop, hstore, hhistory⟩ := View.exec_node hexec
      have hview : v' = v.remember p ⟨.node op, res⟩ v'.mem := by
        rw [View.remember, ← hstore, ← hhistory]
      cases op with
      | turn =>
          have hmem : v'.mem = v.mem := (congrArg Prod.snd (Option.some.inj hop)).symm
          exact hsame hstore (by rw [hmem]) (by rw [hmem])
      | argon2Hash plain =>
          have hmem : v'.mem = v.mem := (congrArg Prod.snd (Option.some.inj hop)).symm
          exact hsame hstore (by rw [hmem]) (by rw [hmem])
      | randomBytes => exact hmint _ _ _ hop _ hview
      | randomUUID => exact hmint _ _ _ hop _ hview
      | setGraceEntry oldHash successorRaw successorExpiresAt =>
          have hallowed : fp.graceCache = true := hallows
          rw [hgrace] at hallowed
          cases hallowed
      | addJob job =>
          have hjob : Memory.exec rt p v.store.clock (.addJob job) choice v.mem =
              some (res, v'.mem) := hop
          simp only [Memory.exec] at hjob
          split at hjob
          · have hmem : v'.mem = { v.mem with
                invitationEmailQueue := v.mem.invitationEmailQueue ++ [job] } :=
              (congrArg Prod.snd (Option.some.inj hjob)).symm
            exact hsame hstore (by rw [hmem]) (by rw [hmem])
          · have hmem : v'.mem = v.mem := (congrArg Prod.snd (Option.some.inj hjob)).symm
            exact hsame hstore (by rw [hmem]) (by rw [hmem])

/-! ### The first token of a family -/

theorem turn_step {v v' : BackendView rt} {e : Event (schema rt) (platform rt)}
    (hwf : v.store.Wf) (hinv : TokenInv v) (hv' : v' = v.remember p e v.mem) :
    TokenInv v' ∧ TokenGuar p v v' := by
  subst hv'
  have hsame : TokensSame v (v.remember p e v.mem) := ⟨rfl, rfl, rfl, rfl⟩
  exact ⟨hinv.of_same hwf (Store.Acts.refl p v.store) hsame, hsame.guar⟩

/-- Reading the clock and the grace cache. The moment that was read has passed. -/
theorem turn_rule {A : BackendView rt → Prop} (hstable : (tokenLogic rt).Stable p A)
    (hkeeps : ∀ v e, A v → A (v.remember p e v.mem)) :
    (tokenLogic rt).Triple p A turn
      (ends (fun answer v => A v ∧ answer.1 ≤ v.store.clock) fun _ _ => False) := by
  have hread (now : Time) : (tokenLogic rt).Stable p fun v => A v ∧ now ≤ v.store.clock :=
    hstable.and (stable_clock now)
  refine Triple.node (R := fun answer v => A v ∧ answer.1 ≤ v.store.clock) hstable ?_
    fun answer => Triple.ret (hread answer.1) fun _ hA => hA
  intro v choice answer mem v' hwf hinv hA hturn hrun hacts hv'
  obtain ⟨rfl, hmem⟩ := Prod.mk.inj (Option.some.inj hturn)
  rw [← hmem] at hv'
  obtain ⟨hinv', hguar⟩ := turn_step hwf hinv hv'
  rw [hv']
  rw [hv'] at hinv' hguar
  exact ⟨hinv', hguar, hkeeps v _ hA, le_refl _⟩

/-- Before the root of a family is inserted. -/
def RootDrawn (p : Pid) (raw familyId : String) (v : BackendView rt) : Prop :=
  (Untouched p v ∧ v.mem.minted raw = some p) ∧ OwnFamily p familyId none v ∧
    ∀ i, some i = (none : Option Nat) → tokens v i = none ∧ (tokenDraft p v i).isSome = true

theorem stable_rootDrawn (raw familyId : String) :
    (tokenLogic rt).Stable p (RootDrawn p raw familyId) :=
  (stable_untouched.and (stable_minted (overTokens rt) raw p)).and
    (stable_ownFamily (overTokens rt) familyId none)

theorem issueRefreshToken_rule (userId : Nat) (requestMeta : RequestMeta) :
    (tokenLogic rt).Triple p (Untouched p)
      (AuthService.issueRefreshToken userId requestMeta) fun _ _ => True := by
  have hL := overTokens rt
  -- the raw value and the family
  refine Triple.andThen (randomBytes_rule (E := fun _ _ => True) hL
    (R := fun raw v => Untouched p v ∧ v.mem.minted raw = some p) stable_untouched
    (fun raw => stable_untouched.and (stable_minted hL raw p)) ?_) (fun raw => ?_)
    fun _ _ _ => trivial
  · intro v v' raw hwf hinv huntouched hdrawn
    refine ⟨?_, hdrawn.drawn⟩
    unfold Untouched Barren tokenBorn tokenDraft
    rw [hdrawn.store]
    exact huntouched
  refine Triple.andThen (randomUUID_rule (E := fun _ _ => True) hL
    (R := fun familyId v => RootDrawn p raw familyId v)
    (stable_untouched.and (stable_minted hL raw p)) (stable_rootDrawn raw) ?_)
    (fun familyId => ?_) fun _ _ _ => trivial
  · rintro v v' familyId hwf hinv ⟨huntouched, hminted⟩ hdrawn
    refine ⟨⟨?_, hdrawn.calm.mintKept raw p hminted⟩, ⟨hdrawn.drawn, ?_⟩,
      fun i hi => by cases hi⟩
    · unfold Untouched Barren tokenBorn tokenDraft
      rw [hdrawn.store]
      exact huntouched
    · intro i q c hc hfamily
      have hc' : tokenBorn v i = some (q, c) := by
        unfold tokenBorn at hc ⊢
        rwa [← hdrawn.store]
      obtain ⟨r, hr⟩ := hinv.familyMinted i q c hc'
      rw [hfamily, hdrawn.fresh] at hr
      cases hr
  -- the clock
  refine Triple.andThen (turn_rule (stable_rootDrawn raw familyId) fun v e hroot => hroot)
    (fun answer => ?_) fun _ _ hfalse => hfalse.elim
  -- the transaction
  let values : RefreshTokensRepository.InsertRefreshTokenValues :=
    { userId := userId
      familyId := familyId
      tokenHash := rt.sha256 raw
      expiresAt := answer.1 + TOKEN_TTL
      userAgent := requestMeta.userAgent
      ip := requestMeta.ip }
  have hread : (tokenLogic rt).Stable p
      fun v => RootDrawn p raw familyId v ∧ answer.1 ≤ v.store.clock :=
    (stable_rootDrawn raw familyId).and (stable_clock answer.1)
  have hopened (t₀ : Time) : (tokenLogic rt).Stable p fun v =>
      Open p t₀ v ∧ RootDrawn p raw familyId v ∧ answer.1 ≤ v.store.clock :=
    (stable_open t₀).and hread
  have hwritten (t₀ : Time) (j : Nat) : (tokenLogic rt).Stable p
      fun v => Open p t₀ v ∧ RootWrites p j (newToken values t₀) v :=
    (stable_open t₀).and (stable_rootWrites hL j _)
  refine Triple.andThen (Q := fun _ _ => True) (Triple.transaction
    (B := fun t₀ v => Open p t₀ v ∧ RootDrawn p raw familyId v ∧ answer.1 ≤ v.store.clock)
    (C := fun _ v => ∃ t₀ j, Open p t₀ v ∧ RootWrites p j (newToken values t₀) v)
    (E := fun _ _ => True) hread ?_ (fun t₀ => ?_) (fun _ => ?_)
    fun e => ?_) (fun _ => ?_) fun _ _ _ => trivial
  · intro v hwf hinv hroot hidle
    exact ⟨Function.update_self _ _ _, hroot⟩
  · refine Triple.andThen (insertNew_rule (s := raw) hL
      (R := fun j v => Open p t₀ v ∧ RootWrites p j (newToken values t₀) v)
      (E := fun _ => True) (hopened t₀) (fun v hA => hA.1) ?_ (hwritten t₀)
      (Stable.const True) ?_ fun _ _ _ _ _ _ _ _ => trivial) (fun row => ?_)
      fun _ _ _ => trivial
    · rintro v ⟨-, ⟨⟨⟨hbarren, -⟩, hminted⟩, hfamily, -⟩, hclock⟩
      exact ⟨hminted, rfl, Or.inl hfamily.1, hbarren, Nat.add_le_add_right hclock TOKEN_TTL⟩
    · rintro v v' hwf hinv ⟨hopen, ⟨⟨⟨hbarren, hclean⟩, hminted⟩, hfamily, -⟩, -⟩ haccepts
        hinserted
      refine ⟨?_, ?_⟩
      · unfold Open
        rw [hinserted.tx]
        exact hopen
      · constructor
        · intro k
          have hdraft := hinserted.draft k
          rw [hclean k] at hdraft
          exact hdraft
        · rw [hinserted.tokens]
          exact (hwf.vacant Tbl.refreshTokens _ (le_refl _)).1
        · rw [hinserted.born, if_pos rfl]
          rfl
        · rfl
        · rfl
        · rw [hinserted.minted]
          exact hfamily.1
        · intro k q c hc hsame
          rw [hinserted.born] at hc
          split at hc
          · assumption
          · cases hfamily.2 k q c hc hsame
    · refine Triple.ret ((Stable.const _).and (hwritten t₀ row.1)) ?_
      exact fun v hR => ⟨t₀, row.1, hR.2⟩
  · refine Triple.exists fun t₀ => Triple.exists fun j => ?_
    refine Triple.commit (R := fun _ => True) (hwritten t₀ j)
      (fun v hA => hA.1.insideTx) ?_ (Triple.ret (Stable.const True) fun _ _ => trivial)
    rintro v v' hwf hinv ⟨-, hwrites⟩ hrun hacts rfl
    exact ⟨root_commit_inv hwf hinv hwrites, root_commit_guar hwrites, trivial⟩
  · exact Triple.rollback (R := fun _ => True) (Stable.const True)
      (fun _ _ _ _ => trivial) (Triple.throw (Stable.const True) fun _ _ => trivial)
  · exact Triple.ret (Stable.const True) fun _ _ => trivial

theorem signup_rule (input : SignupDto) (requestMeta : RequestMeta) :
    (tokenLogic rt).Triple p (Untouched p) (AuthService.signup input requestMeta)
      fun _ _ => True := by
  have hframe {α : Type} {x : Method rt α} (hx : Within { tables := [.users] } x) :
      (tokenLogic rt).Triple p (Untouched p) x fun _ => Untouched p :=
    frame_rule hx (by decide) rfl
  refine Triple.andThen (hframe (keeps_findOne _ _).within) (fun found => ?_)
    fun _ _ _ => trivial
  cases found with
  | some user => exact Triple.throw stable_untouched fun _ _ => trivial
  | none =>
      refine Triple.andThen (hframe (keeps_hashPassword _).within) (fun passwordHash => ?_)
        fun _ _ _ => trivial
      refine Triple.andThen (hframe (keeps_insertParent (by decide) _).within) (fun user => ?_)
        fun _ _ _ => trivial
      refine Triple.andThen (issueRefreshToken_rule _ _) (fun pair => ?_)
        fun _ _ _ => trivial
      exact Triple.ret (Stable.const True) fun _ _ => trivial

theorem login_rule (input : LoginDto) (requestMeta : RequestMeta) :
    (tokenLogic rt).Triple p (Untouched p) (AuthService.login input requestMeta)
      fun _ _ => True := by
  have hframe {α : Type} {x : Method rt α} (hx : Within { rehash := true } x) :
      (tokenLogic rt).Triple p (Untouched p) x fun _ => Untouched p :=
    frame_rule hx (by decide) rfl
  refine Triple.andThen (hframe (keeps_findOne _ _).within) (fun found => ?_)
    fun _ _ _ => trivial
  cases found with
  | none => exact Triple.throw stable_untouched fun _ _ => trivial
  | some user =>
      refine Triple.andThen (hframe (keeps_argon2Verify _ _).within) (fun matched => ?_)
        fun _ _ _ => trivial
      split
      · exact Triple.throw stable_untouched fun _ _ => trivial
      · refine Triple.andThen (hframe ⟨rfl, fun _ => trivial⟩) (fun _ => ?_)
          fun _ _ _ => trivial
        refine Triple.andThen (issueRefreshToken_rule _ _) (fun pair => ?_)
          fun _ _ _ => trivial
        exact Triple.ret (Stable.const True) fun _ _ => trivial

/-! ### Cleanup and family revocation -/

/-- The transaction of `p` has deleted these tokens. -/
def Deleted (p : Pid) (rows : List (Nat × RefreshToken)) (v : BackendView rt) : Prop :=
  ∀ row ∈ rows, Deletes p v row.1

theorem stable_deleted (rows : List (Nat × RefreshToken)) :
    (tokenLogic rt).Stable p (Deleted p rows) :=
  fun _ _ _ hactor hstep hdeleted row hrow =>
    (congrFun (draft_kept hactor hstep) row.1).trans (hdeleted row hrow)

/-- Clearing a link to a deleted token is tame. -/
theorem TameVersion.unlink {v : BackendView rt} (hinv : TokenInv v) {i j : Nat}
    {a r : RefreshToken} (ha : tokens v i = some a) (hlink : r.replacedById = some j)
    (hgone : Deletes p v j) (hversion : TameVersion (Deletes p v) a (some r)) :
    TameVersion (Deletes p v) a (some { r with replacedById := none }) := by
  cases hversion with
  | kept => exact .unlinked j hlink hgone
  | revoked t hactive =>
      obtain ⟨-, r', q, b, hr', -⟩ := hinv.links i j a ha hlink
      rw [hactive] at hr'
      cases hr'
  | unlinked k _ _ => cases hlink

theorem deleteWhere_rule {t₀ : Time} (where_ : Time → RefreshToken → Bool)
    {E : AppError → BackendView rt → Prop} :
    (tokenLogic rt).Triple p (Tame p t₀) (RefreshTokensRepository.deleteWhere where_)
      (ends (fun _ => Tame p t₀) E) := by
  have hstable : (tokenLogic rt).Stable p (Tame p t₀) := stable_tame t₀
  have hgone (rows : List (Nat × RefreshToken)) : (tokenLogic rt).Stable p fun v =>
      Tame p t₀ v ∧ Deleted p rows v := hstable.and (stable_deleted rows)
  refine Triple.read_manager (R := fun _ => Tame p t₀) hstable
    (fun v hA => hA.opened.inside) (fun v s W hwf hinv hA hin hs => hA.put) fun s => ?_
  show (tokenLogic rt).Triple p _ (((Sql.touchEach (σ := schema rt)
    Tbl.refreshTokens _ _ [] _)).andThen _) _
  refine Triple.weaken (Triple.touchEach (σ := schema rt) (t := Tbl.refreshTokens)
    (J := fun _ found v => Tame p t₀ v ∧ Deleted p found v) (fun _ found => hgone found)
    (fun _ _ v hJ => hJ.1.opened.inside) ?_ ?_ (fun found => ?_) _ [])
    fun v _ _ hA => ⟨hA, fun row hrow => by cases hrow⟩
  · rintro id rest found v W hwf hinv ⟨htame, hdeleted⟩ hin hmissed
    exact ⟨htame.put, hdeleted⟩
  · rintro id rest found v W r hwf hinv ⟨htame, hdeleted⟩ hin hfree hview hwhere
    refine ⟨htame.hold hin hview fun _ _ _ => .deleted, ?_⟩
    intro row hrow
    rcases List.mem_append.mp hrow with hold | hnew
    · exact (hdeleted row hold).hold hin hview
    · rw [List.mem_singleton.mp hnew]
      exact (tokenDraft_hold id id none).trans (if_pos rfl)
  -- `ON DELETE SET NULL`
  refine Triple.read_manager (R := fun _ v => Tame p t₀ v ∧ Deleted p found v)
    (hgone found) (fun v hA => hA.1.opened.inside)
    (fun v s W hwf hinv hA hin hs => ⟨hA.1.put, hA.2⟩) fun s => ?_
  refine Triple.touchEach (σ := schema rt) (t := Tbl.refreshTokens)
    (J := fun _ _ v => Tame p t₀ v ∧ Deleted p found v) (fun _ _ => hgone found)
    (fun _ _ v hJ => hJ.1.opened.inside) ?_ ?_ (fun _ => ?_) _ []
  · rintro id rest rows v W hwf hinv ⟨htame, hdeleted⟩ hin hmissed
    exact ⟨htame.put, hdeleted⟩
  · rintro id rest rows v W r hwf hinv ⟨htame, hdeleted⟩ hin hfree hview hwhere
    refine ⟨htame.hold hin hview ?_, fun row hrow => (hdeleted row hrow).hold hin hview⟩
    intro a ha hversion
    obtain ⟨j, hlink, hmem⟩ : ∃ j, r.replacedById = some j ∧ j ∈ found.map Prod.fst := by
      simpa [Option.any_eq_true] using hwhere
    obtain ⟨row, hrow, hj⟩ := List.mem_map.mp hmem
    subst hj
    exact hversion.unlink hinv ha hlink (hdeleted row hrow)
  · exact Triple.ret (hgone found) fun v hA => hA.1

theorem tame_commit_rule {t₀ : Time} {α : Type} (a : α)
    {E : AppError → BackendView rt → Prop} :
    (tokenLogic rt).Triple p (Tame p t₀) (.step (.sql .commit) fun _ => .ret a)
      (ends (fun _ => Barren p) E) := by
  refine Triple.commit (R := Barren p) (stable_tame t₀) (fun v hA => hA.opened.insideTx)
    ?_ (Triple.ret stable_barren fun _ hbarren => hbarren)
  rintro v v' hwf hinv htame hrun hacts rfl
  exact ⟨tame_commit_inv hwf hinv htame.writes, tame_commit_guar hwf htame.writes,
    htame.barren⟩

theorem tame_begin {v : BackendView rt} {e : Event (schema rt) (platform rt)}
    (hwf : v.store.Wf) (hidle : v.store.tx p = none) (hbarren : Barren p v) :
    Tame p v.store.clock (v.put p e (v.store.setTx p
      (some { startedAt := v.store.clock, aborted := false }))) :=
  (LocksOnly.begin hwf hidle hbarren).toTame

theorem rollback_anyway {α : Type} (e : AppError) :
    (tokenLogic rt).Triple p (fun _ => True)
      (.step (.sql .rollback) fun _ => .throw e : Method rt α) fun _ _ => True :=
  Triple.rollback (R := fun _ => True) (Stable.const True) (fun _ _ _ _ => trivial)
    (Triple.throw (Stable.const True) fun _ _ => trivial)

theorem runCleanup_rule :
    (tokenLogic rt).Triple p (Barren p) AuthService.runCleanup fun _ _ => True := by
  refine Triple.andThen (Q := fun _ _ => True) (Triple.transaction (B := fun t₀ => Tame p t₀)
    (C := fun _ v => ∃ t₀, Tame p t₀ v) (E := fun _ _ => True) stable_barren
    (fun v hwf hinv hA hidle => tame_begin hwf hidle hA) (fun t₀ => ?_) (fun a => ?_)
    fun e => rollback_anyway e) (fun counts => ?_) fun _ _ _ => trivial
  · refine Triple.andThen (deleteWhere_rule (E := fun _ _ => True) _) (fun expired => ?_)
      fun _ _ _ => trivial
    refine Triple.andThen (deleteWhere_rule (E := fun _ _ => True) _) (fun revoked => ?_)
      fun _ _ _ => trivial
    exact Triple.ret (stable_tame t₀) fun v htame => ⟨t₀, htame⟩
  · refine Triple.exists fun t₀ => ?_
    refine Triple.post (tame_commit_rule (E := fun _ _ => True) a) ?_
    rintro (e | b) v hpost
    · trivial
    · trivial
  · exact Triple.read_pool (R := fun _ _ => True) (Stable.const True)
      (fun _ _ _ _ _ _ => trivial) fun s => Triple.ret (Stable.const True) fun _ _ => trivial

theorem revokeFamilyTask_rule (familyId : String) :
    (tokenLogic rt).Triple p (Barren p) (AuthService.revokeFamilyTask familyId)
      fun _ _ => True := by
  refine Triple.attempt (Q := fun _ _ => True) (Triple.transaction (B := fun t₀ => Tame p t₀)
    (C := fun _ v => ∃ t₀, Tame p t₀ v) (E := fun _ _ => True) stable_barren
    (fun v hwf hinv hA hidle => tame_begin hwf hidle hA) (fun t₀ => ?_) (fun a => ?_)
    fun e => rollback_anyway e) (fun _ _ _ => trivial)
    fun e => Triple.ret (Stable.const True) fun _ _ => trivial
  · refine Triple.weaken (Triple.andThen (revokeFamily_rule (E := fun _ _ => True)
      (overTokens rt) Context.true familyId) (fun count => ?_) fun _ _ _ => trivial)
      fun v _ _ htame => ⟨trivial, htame⟩
    exact Triple.ret ((Stable.const True).and (stable_tame t₀)) fun v hA => ⟨t₀, hA.2⟩
  · refine Triple.exists fun t₀ => ?_
    refine Triple.post (tame_commit_rule (E := fun _ _ => True) a) ?_
    rintro (e | b) v hpost
    · trivial
    · trivial

/-! ### Logout -/

section Logout

variable {raw : String} {presented : Option Nat}

/-- The token `i` has this hash, or is gone. -/
def KnownAs (hash : String) (i : Nat) (v : BackendView rt) : Prop :=
  Lasting i (fun a => a.tokenHash = hash) v

theorem persistent_knownAs (hash : String) (i : Nat) :
    (tokenLogic rt).Persistent (KnownAs hash i) :=
  persistent_lasting (overTokens rt) fun _ _ _ hevolves hhash =>
    (fixed_eq hevolves.fixed).2.2.1.trans hhash

/-- In the transaction of logout: the row is spent already, or this transaction
revokes it. -/
def LogoutWrote (p : Pid) (t₀ : Time) (k : Nat) (v : BackendView rt) : Prop :=
  Tame p t₀ v ∧ (Spent k v ∨ ∃ r t, tokenDraft p v k = some (some r) ∧
    r.revokedAt = some t)

theorem stable_logoutWrote (t₀ : Time) (k : Nat) :
    (tokenLogic rt).Stable p (LogoutWrote p t₀ k) := by
  refine (stable_tame t₀).and ?_
  intro actor v v' hactor hstep hwrote
  rcases hwrote with hspent | ⟨r, t, hdraft, hr⟩
  · exact Or.inl (persistent_spent (overTokens rt) k actor v v' hstep hspent)
  · exact Or.inr ⟨r, t, (congrFun (draft_kept hactor hstep) k).trans hdraft, hr⟩

/-- The conditional update: afterwards the row is spent. -/
theorem revokeRowForLogout_rule {t₀ : Time} (hash : String) {k : Nat}
    {E : AppError → BackendView rt → Prop} :
    (tokenLogic rt).Triple p (fun v => LocksOnly p t₀ v ∧ KnownAs hash k v)
      (RefreshTokensRepository.revokeRowForLogout k)
      (ends (fun _ => LogoutWrote p t₀ k) E) := by
  have hstable : (tokenLogic rt).Stable p fun v => LocksOnly p t₀ v ∧ KnownAs hash k v :=
    (stable_locksOnly t₀).and (persistent_knownAs hash k).stable
  -- a row that is not active when logout looks at it is spent
  have hspent (v : BackendView rt) (hknown : KnownAs hash k v)
      (hinactive : ∀ r, tokens v k = some r → r.revokedAt ≠ none) : Spent k v := by
    rcases hknown with hgone | ⟨a, ha, -⟩
    · exact Or.inl hgone
    · exact Or.inr ⟨a, ha, Option.isSome_iff_ne_none.mpr (hinactive a ha)⟩
  refine Triple.read_manager (R := fun s v => (LocksOnly p t₀ v ∧ KnownAs hash k v) ∧
    (((s.rows Tbl.refreshTokens).filter fun row =>
      row.1 == k && row.2.revokedAt.isNone).map Prod.fst = [k] ∨
    ((s.rows Tbl.refreshTokens).filter fun row =>
      row.1 == k && row.2.revokedAt.isNone).map Prod.fst = [] ∧ Spent k v))
    hstable (fun v hA => hA.1.opened.inside) ?_ fun s => ?_
  · rintro v s W hwf hinv ⟨hlocks, hknown⟩ hin hs
    refine ⟨⟨hlocks.put, hknown⟩, ?_⟩
    rw [s.withId Tbl.refreshTokens k fun row : RefreshToken => row.revokedAt.isNone]
    split
    · exact Or.inl rfl
    · rename_i hmiss
      refine Or.inr ⟨rfl, hspent v hknown fun r hr hactive => hmiss ?_⟩
      have hget : s.get Tbl.refreshTokens k = some r := by
        rw [hs]
        exact (hlocks.seen hin k).trans hr
      refine ⟨?_, by rw [hget]; simp [hactive]⟩
      rw [hs]
      exact hwf.lt_next hr
  · have hJ (rest : List Nat) : (tokenLogic rt).Stable p fun v =>
        (rest = [k] ∧ LocksOnly p t₀ v ∧ KnownAs hash k v) ∨
          rest = [] ∧ LogoutWrote p t₀ k v := by
      intro actor v v' hactor hstep hcases
      rcases hcases with ⟨hrest, hboth⟩ | ⟨hrest, hwrote⟩
      · exact Or.inl ⟨hrest, hstable actor v v' hactor hstep hboth⟩
      · exact Or.inr ⟨hrest, stable_logoutWrote t₀ k actor v v' hactor hstep hwrote⟩
    have hinside (rest : List Nat) (v : BackendView rt)
        (hcases : (rest = [k] ∧ LocksOnly p t₀ v ∧ KnownAs hash k v) ∨
          rest = [] ∧ LogoutWrote p t₀ k v) : ∃ W, Inside p t₀ W v := by
      rcases hcases with ⟨-, hlocks, -⟩ | ⟨-, htame, -⟩
      · exact hlocks.opened.inside
      · exact htame.opened.inside
    refine Triple.weaken (Triple.touchEach (σ := schema rt) (t := Tbl.refreshTokens)
      (fun rest _ => hJ rest) (fun rest _ => hinside rest) ?_ ?_ (fun found => ?_) _ []) ?_
    · rintro id rest found v W hwf hinv (⟨hrest, hlocks, hknown⟩ | ⟨hrest, -⟩) hin hmissed
      · obtain ⟨rfl, rfl⟩ := List.cons.inj hrest
        refine Or.inr ⟨rfl, hlocks.toTame.put, Or.inl (hspent v hknown ?_)⟩
        intro r hr hactive
        have hmiss := hmissed r ((hlocks.seen hin id).trans hr)
        simp [hactive] at hmiss
      · cases hrest
    · rintro id rest found v W r hwf hinv (⟨hrest, hlocks, hknown⟩ | ⟨hrest, -⟩) hin hfree
        hview hwhere
      · obtain ⟨rfl, rfl⟩ := List.cons.inj hrest
        have hactive : r.revokedAt = none := by simpa using hwhere
        let r' : RefreshToken := { (r : RefreshToken) with revokedAt := some t₀ }
        refine Or.inr ⟨rfl, hlocks.toTame.hold hin hview ?_, Or.inr ⟨r', t₀, ?_, rfl⟩⟩
        · exact fun a ha hversion => hversion.revoke hinv ha hactive t₀
        · exact (tokenDraft_hold id id _).trans (if_pos rfl)
      · cases hrest
    · refine Triple.weaken (Triple.ret (stable_logoutWrote t₀ k) fun v hA => hA) ?_
      rintro v hwf hinv (⟨hrest, -⟩ | ⟨-, hwrote⟩)
      · cases hrest
      · exact hwrote
    · rintro v hwf hinv ⟨⟨hlocks, hknown⟩, hone | ⟨hnil, hdone⟩⟩
      · exact Or.inl ⟨hone, hlocks, hknown⟩
      · exact Or.inr ⟨hnil, hlocks.toTame, Or.inl hdone⟩

theorem logout_commit_rule {t₀ : Time} {k : Nat} {E : AppError → BackendView rt → Prop} :
    (tokenLogic rt).Triple p (LogoutWrote p t₀ k) (.step (.sql .commit) fun _ => .ret ())
      (ends (fun _ v => Barren p v ∧ Spent k v) E) := by
  have hspent : (tokenLogic rt).Stable p (Spent k) :=
    (persistent_spent (overTokens rt) k).stable
  refine Triple.commit (R := fun v => Barren p v ∧ Spent k v) (stable_logoutWrote t₀ k)
    (fun v hA => hA.1.opened.insideTx) ?_
    (Triple.ret (stable_barren.and hspent) fun _ hR => hR)
  rintro v v' hwf hinv ⟨htame, hwrote⟩ hrun hacts hv'
  have hinv' : TokenInv v' := by
    rw [hv']
    exact tame_commit_inv hwf hinv htame.writes
  have hguar : TokenGuar p v v' := by
    rw [hv']
    exact tame_commit_guar hwf htame.writes
  refine ⟨hinv', hguar, ?_, ?_⟩
  · rw [hv']
    exact htame.barren
  · rcases hwrote with hdone | ⟨r, t, hdraft, hr⟩
    · exact hdone.step (fun _ _ _ hevolves => hevolves.isSome) hwf hacts.store hguar
    · refine Or.inr ⟨r, ?_, by simp [hr]⟩
      rw [hv', tokens_commit, show v.store.draft p Tbl.refreshTokens k = some (some r)
        from hdraft]
      rfl

/-- Every token that was presented is spent. -/
def AllSpent (presented : Option Nat) (v : BackendView rt) : Prop :=
  ∀ i, presented = some i → Spent i v

theorem persistent_allSpent : (tokenLogic rt).Persistent (AllSpent presented) :=
  fun actor v v' hstep hdone i hi =>
    persistent_spent (overTokens rt) i actor v v' hstep (hdone i hi)

/-- When logout has found the row `k`: it is the one presented, or that one is
spent already. -/
def PresentedOr (presented : Option Nat) (k : Nat) (v : BackendView rt) : Prop :=
  ∀ i, presented = some i → i = k ∨ Spent i v

theorem persistent_presentedOr (k : Nat) :
    (tokenLogic rt).Persistent (PresentedOr presented k) := by
  intro actor v v' hstep hfound i hi
  rcases hfound i hi with heq | hdone
  · exact Or.inl heq
  · exact Or.inr (persistent_spent (overTokens rt) i actor v v' hstep hdone)

theorem PresentedOr.allSpent {k : Nat} {v : BackendView rt}
    (hfound : PresentedOr presented k v) (hk : Spent k v) : AllSpent presented v := by
  intro i hi
  rcases hfound i hi with heq | hdone
  · rw [heq]
    exact hk
  · exact hdone

/-- What logout knows after looking for its row. -/
def LogoutLooked (p : Pid) (presented : Option Nat) (hash : String) :
    Option (Entity .refreshTokens) → BackendView rt → Prop
  | none, v => Barren p v ∧ AllSpent presented v
  | some row, v => (Barren p v ∧ KnownAs hash row.1 v) ∧ PresentedOr presented row.1 v ∧
      (row.2.revokedAt.isSome = true → Spent row.1 v)

theorem stable_logoutLooked (hash : String) (found : Option (Entity .refreshTokens)) :
    (tokenLogic rt).Stable p (LogoutLooked p presented hash found) := by
  cases found with
  | none => exact stable_barren.and persistent_allSpent.stable
  | some row =>
      refine (stable_barren.and (persistent_knownAs hash row.1).stable).and
        ((persistent_presentedOr row.1).stable.and ?_)
      exact fun actor v v' hactor hstep hdone hrevoked =>
        persistent_spent (overTokens rt) row.1 actor v v' hstep (hdone hrevoked)

theorem logoutLooked_of_picks {v : BackendView rt} {hash : String}
    {found : Option (Entity .refreshTokens)} (hwf : v.store.Wf) (hbarren : Barren p v)
    (hknown : ∀ i, presented = some i → KnownAs hash i v)
    (hpicks : Picks (v.store.stored Tbl.refreshTokens)
      (fun _ row => row.tokenHash == hash) found) :
    LogoutLooked p presented hash found v := by
  cases found with
  | none =>
      refine ⟨hbarren, fun i hi => ?_⟩
      rcases hknown i hi with hgone | ⟨a, ha, hhash⟩
      · exact Or.inl hgone
      · have hmiss := hpicks i a ha
        simp [hhash] at hmiss
  | some row =>
      obtain ⟨hrow, hmatch⟩ := hpicks
      have hhash : row.2.tokenHash = hash := by simpa using hmatch
      refine ⟨⟨hbarren, Or.inr ⟨row.2, hrow, hhash⟩⟩, fun i hi => ?_, fun hrevoked =>
        Or.inr ⟨row.2, hrow, hrevoked⟩⟩
      rcases hknown i hi with hgone | ⟨a, ha, hhash'⟩
      · exact Or.inr (Or.inl hgone)
      · refine Or.inl (hwf.stored_distinct ha hrow ?_)
        simp [Tbl.clash, hhash, hhash']

/-- The transaction of logout. -/
theorem logout_transaction_rule (hash : String) (k : Nat) :
    (tokenLogic rt).Triple p (fun v => Barren p v ∧ KnownAs hash k v)
      (Sql.transaction do
        let _ ← RefreshTokensRepository.revokeRowForLogout k
        pure ())
      (ends (fun _ v => Barren p v ∧ Spent k v) fun _ _ => False) := by
  refine Triple.transaction (B := fun t₀ v => LocksOnly p t₀ v ∧ KnownAs hash k v)
    (C := fun _ v => ∃ t₀, LogoutWrote p t₀ k v) (E := fun _ _ => False)
    (stable_barren.and (persistent_knownAs hash k).stable) ?_ (fun t₀ => ?_)
    (fun _ => Triple.exists fun t₀ => logout_commit_rule)
    fun e v _ _ hfalse => hfalse.elim
  · rintro v hwf hinv ⟨hbarren, hknown⟩ hidle
    exact ⟨LocksOnly.begin hwf hidle hbarren, hknown⟩
  · refine Triple.andThen (revokeRowForLogout_rule hash (E := fun _ _ => False))
      (fun count => ?_) fun _ _ hfalse => hfalse
    exact Triple.ret (stable_logoutWrote t₀ k) fun v hwrote => ⟨t₀, hwrote⟩

/-- Logout inserts no token and cannot fail, and the token presented to it is spent
afterwards. -/
theorem logout_rule (presented : Option Nat) (hraw : raw ≠ "") :
    (tokenLogic rt).Triple p
      (fun v => Barren p v ∧ ∀ i, presented = some i → KnownAs (rt.sha256 raw) i v)
      (AuthService.logout (some raw))
      (ends (fun _ v => Barren p v ∧ AllSpent presented v) fun _ _ => False) := by
  have hpre : (tokenLogic rt).Stable p fun v =>
      Barren p v ∧ ∀ i, presented = some i → KnownAs (rt.sha256 raw) i v :=
    stable_barren.and fun actor v v' hactor hstep hknown i hi =>
      persistent_knownAs (rt.sha256 raw) i actor v v' hstep (hknown i hi)
  have hpost : (tokenLogic rt).Stable p fun v => Barren p v ∧ AllSpent presented v :=
    stable_barren.and persistent_allSpent.stable
  unfold AuthService.logout
  dsimp only
  rw [if_neg hraw]
  refine Triple.andThen (findOne_rule (R := LogoutLooked p presented (rt.sha256 raw))
    (E := fun _ _ => False) hpre (stable_logoutLooked _) ?_) (fun found => ?_)
    fun _ _ hfalse => hfalse
  · rintro v s found hwf hinv ⟨hbarren, hknown⟩ hpicks
    cases found with
    | none => exact logoutLooked_of_picks hwf hbarren hknown hpicks
    | some row => exact logoutLooked_of_picks hwf hbarren hknown hpicks
  cases found with
  | none => exact Triple.ret hpost fun v hdone => hdone
  | some row =>
      dsimp only
      split
      · rename_i hrevoked
        refine Triple.ret (stable_logoutLooked (rt.sha256 raw) (some row)) fun v hfound => ?_
        exact ⟨hfound.1.1, hfound.2.1.allSpent (hfound.2.2 hrevoked)⟩
      · refine Triple.weaken (Triple.post (Triple.persist (persistent_presentedOr row.1)
          (logout_transaction_rule (rt.sha256 raw) row.1)) ?_)
          fun v _ _ hfound => ⟨hfound.1, hfound.2.1⟩
        rintro (e | u) v hpost
        · exact hpost.1.elim
        · exact ⟨hpost.1.1, hpost.2.allSpent hpost.1.2⟩

end Logout

/-! ### Refresh -/

/-- `p` has committed nothing. -/
def Silent (p : Pid) (v : BackendView rt) : Prop :=
  (p, committed rt) ∉ v.history

theorem context_silent {L : Logic (schema rt) (platform rt)} :
    Context L p (@Silent rt p) where
  stable := fun _ _ _ hactor hstep hsilent hmem =>
    hsilent ((hstep.own_history hactor _).mp hmem)
  calm := fun _ _ hcalm hsilent hmem =>
    hsilent ((hcalm.milestone (e := committed rt) trivial).mp hmem)

/-- `p` has inserted at most one token, and it is gone or the token `raw`. -/
structure HandedOut (p : Pid) (raw : String) (v : BackendView rt) : Prop where
  only : ∀ j k b c, tokenBorn v j = some (p, b) → tokenBorn v k = some (p, c) → j = k
  handed : ∀ j b, tokenBorn v j = some (p, b) → Gone v j ∨ b.tokenHash = rt.sha256 raw

theorem stable_handedOut {L : Logic (schema rt) (platform rt)} (raw : String) :
    L.Stable p (@HandedOut rt p raw) := by
  intro actor v v' hactor hstep hhanded
  constructor
  · intro j k b c hb hc
    exact hhanded.only j k b c (born_earlier hactor hstep hb) (born_earlier hactor hstep hc)
  · intro j b hb
    rcases hhanded.handed j b (born_earlier hactor hstep hb) with hgone | hhash
    · exact Or.inl (stable_gone j actor v v' hactor hstep hgone)
    · exact Or.inr hhash

theorem Barren.handedOut {v : BackendView rt} (hbarren : Barren p v) (raw : String) :
    HandedOut p raw v where
  only := fun j _ b _ hb => absurd hb (hbarren j b)
  handed := fun j b hb => absurd hb (hbarren j b)

/-- Between the commit of a rotation and its grace entry. -/
structure RotationDone (p : Pid) (raw : String) (r : LoginResult) (s : String) (t : Time)
    (v : BackendView rt) : Prop where
  cached : ∀ timer, CachedRotation v (rt.sha256 raw)
    { successorRaw := s, successorExpiresAt := t, timer := timer }
  handed : HandedOut p r.refreshToken.raw v

theorem stable_rotationDone {L : Logic (schema rt) (platform rt)} (hL : OverTokens L)
    {raw s : String} {r : LoginResult} {t : Time} :
    L.Stable p (@RotationDone rt p raw r s t) := by
  intro actor v v' hactor hstep hdone
  refine ⟨fun timer => ?_, stable_handedOut _ actor v v' hactor hstep hdone.handed⟩
  obtain ⟨i, j, q, a, r', b, hi, hhash, hj, hhash', hexpires, hminted, hrotated⟩ :=
    hdone.cached timer
  exact ⟨i, j, q, a, r', b, hstep.born_kept hi, hhash, hstep.born_kept hj, hhash', hexpires,
    stable_minted hL _ r' actor v v' hactor hstep hminted,
    stable_rotated hL i j actor v v' hactor hstep hrotated⟩

/-- The grace entry of a committed rotation may be written. -/
theorem grace_step {v v' : BackendView rt} {e : Event (schema rt) (platform rt)}
    {raw s : String} {t : Time} (hwf : v.store.Wf) (hinv : TokenInv v)
    (hcached : ∀ timer, CachedRotation v (rt.sha256 raw)
      { successorRaw := s, successorExpiresAt := t, timer := timer })
    (hv' : v' = v.remember p e { v.mem with
      graceCache := Function.update v.mem.graceCache (rt.sha256 raw) (some
        { successorRaw := s, successorExpiresAt := t,
          timer := v.store.clock + GRACE_MS }) }) :
    TokenInv v' ∧ TokenGuar p v v' := by
  subst hv'
  refine ⟨remember_inv hwf hinv (fun _ _ hs => hs) (fun s q hnone hsome => ?_) ?_,
    remember_guar (fun _ _ hs => hs) fun s q hnone hsome => ?_⟩
  · rw [hnone] at hsome
    cases hsome
  · intro h entry hentry
    rcases eq_or_ne h (rt.sha256 raw) with heq | hne
    · subst heq
      simp only [Function.update_self, Option.some.injEq] at hentry
      subst hentry
      exact Or.inr (hcached _)
    · simp only [Function.update_of_ne hne] at hentry
      exact Or.inl hentry
  · rw [hnone] at hsome
    cases hsome

/-- What a committed rotation leaves behind. -/
theorem rotation_done {v v' : BackendView rt} {raw s : String} {requestMeta : RequestMeta}
    {t₀ now : Time} {i j : Nat} {a : RefreshToken} (user : Entity .users)
    (hinv : TokenInv v) (hhash : a.tokenHash = rt.sha256 raw)
    (hrotating : Rotating p i a (a.rotatedTo j t₀) s requestMeta now t₀ j v)
    (hv' : v' = v.put p (committed rt) (v.store.finish p true)) :
    RotationDone p raw
      { accessToken := AuthService.issueToken rt user
        refreshToken := { raw := s, expiresAt := now + TOKEN_TTL } }
      s (now + TOKEN_TTL) v' := by
  obtain ⟨q, c, hc, hfixed⟩ := hinv.bornAs i a hrotating.writes.old
  have hrow : tokens v' i = some (a.rotatedTo j t₀) := by
    rw [hv', rotation_commit_tokens hrotating.writes,
      if_neg (Nat.ne_of_lt hrotating.writes.order), if_pos rfl]
  subst hv'
  refine ⟨fun timer => ⟨i, j, q, c, p, _, hc, (fixed_eq hfixed).2.2.1.trans hhash,
    hrotating.writes.born, rfl, rfl, hrotating.minted,
    Or.inr ⟨_, hrow, rfl, Or.inl rfl⟩⟩, ?_⟩
  constructor
  · intro k m d e hd he
    exact (hrotating.only k d hd).trans (hrotating.only m e he).symm
  · intro k d hd
    have hborn : tokenBorn v k = some (p, d) := hd
    have hk := hrotating.only k d hborn
    subst hk
    rw [hrotating.writes.born] at hborn
    have hd' : successor rt a s requestMeta now t₀ = d :=
      congrArg Prod.snd (Option.some.inj hborn)
    subst hd'
    exact Or.inr rfl

/-- The outline of a refresh among arbitrary other requests. -/
def tokenRefresh (p : Pid) (raw : String) (requestMeta : RequestMeta) :
    RefreshProof (tokenLogic rt) p raw requestMeta where
  start := Silent p
  checked := fun _ a _ _ v => Silent p v ∧ a.tokenHash = rt.sha256 raw
  rotated := fun r s t => RotationDone p raw r s t
  success := fun r => HandedOut p r.refreshToken.raw
  failure := fun v => Silent p v ∧ Vanished p v
  presented := none
  owner := False
  startContext := context_silent
  checkedContext := fun _ a _ _ =>
    Context.and context_silent
      ⟨Stable.const (a.tokenHash = rt.sha256 raw), fun _ _ _ hhash => hhash⟩
  rotatedStable := fun _ _ _ => stable_rotationDone (overTokens rt)
  successStable := fun _ => stable_handedOut _
  failureStable := context_silent.stable.and stable_vanished
  there := fun _ _ _ hnone => by cases hnone
  known := fun _ _ _ _ _ _ hfalse => hfalse.elim
  turn := fun v v' t₀ i a hwf hinv hsilent _ hfound _ _ hv' => by
    obtain ⟨hinv', hguar⟩ := turn_step hwf hinv hv'
    refine ⟨hinv', hguar, ?_, hfound.2⟩
    subst hv'
    intro hmem
    rcases List.mem_cons.mp hmem with heq | hold
    · cases heq
    · exact hsilent hold
  retried := fun v v' t₀ i a now g r hwf hinv _ hlocks _ _ _ _ _ hv' => by
    subst hv'
    have hbarren : Barren p (v.put p (committed rt) (v.store.finish p true)) :=
      fun j b hb => hlocks.barren j b hb
    exact ⟨tame_commit_inv hwf hinv hlocks.tame, tame_commit_guar hwf hlocks.tame,
      hbarren.handedOut _⟩
  rotation := fun v v' t₀ i a now g user s j hwf hinv hchecked hrotating _ _ _ hv' => by
    have hdone := rotation_done user hinv hchecked.2 hrotating hv'
    subst hv'
    exact ⟨rotation_commit_inv hwf hinv hrotating.writes,
      rotation_commit_guar hrotating.writes, hdone⟩
  grace := fun v v' r s t hwf hinv hdone _ _ hv' => by
    obtain ⟨hinv', hguar⟩ := grace_step hwf hinv hdone.cached hv'
    subst hv'
    exact ⟨hinv', hguar, hdone.handed.only, hdone.handed.handed⟩
  missing := fun v hsilent _ hvanished => ⟨hsilent, hvanished⟩
  rejected := fun v i a now g hchecked hvanished _ => ⟨hchecked.1, hvanished⟩

/-! ### All requests -/

/-- How a request leaves the tokens when it has ended. -/
def tokenPost (p : Pid) :
    Request → Except AppError Response → BackendView rt → Prop
  | .refresh _ _, .ok (.session r), v => HandedOut p r.refreshToken.raw v
  | .refresh _ _, .ok _, _ => False
  | .refresh _ _, .error _, v => Silent p v ∧ Vanished p v
  | .logout _, _, v => Barren p v
  | _, _, _ => True

theorem barren_of_unused {v : BackendView rt} (hunused : Unused p v) : Barren p v :=
  hunused.childless Tbl.refreshTokens

theorem untouched_of_unused {v : BackendView rt} (hunused : Unused p v) : Untouched p v := by
  refine ⟨barren_of_unused hunused, fun i => ?_⟩
  unfold tokenDraft
  rw [hunused.idle.2]
  rfl

theorem tokens_covered :
    (tokenLogic rt).Covers (handler rt) (fun _ _ => True) tokenPost := by
  intro p req _
  have hframed (htable : Tbl.refreshTokens ∉ (footprint req).tables)
      (hgrace : (footprint req).graceCache = false)
      (hpost : ∀ out v, @tokenPost rt p req out v) :
      (tokenLogic rt).Triple p (fun v => Unused p v ∧ True) (handler rt req)
        (tokenPost p req) :=
    Triple.post (Triple.weaken (frame_rule (handler_within rt req) htable hgrace)
      fun v _ _ hfresh => untouched_of_unused hfresh.1) fun out v _ => hpost out v
  have hwalked {α : Type} {A : BackendView rt → Prop} {x : Method rt α} {f : α → Response}
      (hA : ∀ v, Unused p v → A v)
      (hx : (tokenLogic rt).Triple p A x fun _ _ => True) :
      (tokenLogic rt).Triple p (fun v => Unused p v ∧ True) (x >>= fun a => pure (f a))
        fun _ _ => True :=
    Triple.weaken (Triple.andThen hx (fun _ => Triple.ret (Stable.const True)
      fun _ _ => trivial) fun _ _ _ => trivial) fun v _ _ hfresh => hA v hfresh.1
  cases req with
  | signup input requestMeta =>
      exact hwalked (fun v hunused => untouched_of_unused hunused) (signup_rule input requestMeta)
  | login input requestMeta =>
      exact hwalked (fun v hunused => untouched_of_unused hunused) (login_rule input requestMeta)
  | refresh raw requestMeta =>
      refine Triple.weaken (Triple.andThen ((tokenRefresh p raw requestMeta).refresh_rule
        (overTokens rt) fun _ => trivial) (fun r => ?_) fun _ _ hfailure => hfailure)
        fun v _ _ hfresh => ⟨hfresh.1.silent _, barren_of_unused hfresh.1⟩
      exact Triple.ret (stable_handedOut _) fun v hhanded => hhanded
  | logout raw =>
      refine Triple.weaken (B := Barren p) ?_ fun v _ _ hfresh => barren_of_unused hfresh.1
      refine Triple.andThen (Q := fun _ => Barren p) ?_
        (fun _ => Triple.ret stable_barren fun _ hbarren => hbarren) fun _ _ hbarren => hbarren
      cases raw with
      | none => exact Triple.ret stable_barren fun _ hbarren => hbarren
      | some raw =>
          rcases eq_or_ne raw "" with hempty | hraw
          · unfold AuthService.logout
            dsimp only
            rw [if_pos hempty]
            exact Triple.ret stable_barren fun _ hbarren => hbarren
          · refine Triple.weaken (Triple.post (logout_rule none hraw) ?_)
              fun v _ _ hbarren => ⟨hbarren, fun i hi => by cases hi⟩
            rintro (e | u) v hpost
            · exact hpost.elim
            · exact hpost.1
  | cleanup =>
      exact Triple.weaken runCleanup_rule fun v _ _ hfresh => barren_of_unused hfresh.1
  | revokeFamily familyId =>
      exact hwalked (fun v hunused => barren_of_unused hunused) (revokeFamilyTask_rule familyId)
  | createPurchase | listMine | redeem | listLessonsForCourse | getLesson | sendInvitationEmail
  | rehashIfNeeded =>
      exact hframed (by simp [footprint]) rfl fun _ _ => trivial

end Mes
