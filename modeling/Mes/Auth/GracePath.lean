import Mes.Auth.RefreshDuel
import Mes.Transact.Pinned

/-!
The grace path of a refresh. A call that succeeds on a token that had already
been revoked is a retry: it hands out what the grace cache holds for the token.
The entries of the cache come from rotations that have been committed, so a retry
gets the token of that rotation with its lifetime, and it writes nothing.

The call is watched at the step at which it reads the clock. The row of the token
is locked there, and the run knows this step by its history.
-/

namespace Mes

open Transact Transact.Logic

variable {rt : Runtime} {seed : Seed}

/-! ### Cached rotations -/

/-- `q` has rotated the token `i`, inserted as `a`, into the token `j`, inserted
as `b` with the raw value `raw`. -/
structure RotatedInto (i j : Nat) (q : Pid) (a b : RefreshToken) (raw : String)
    (v : BackendView rt) : Prop where
  old : ∃ p, tokenBorn v i = some (p, a)
  new : tokenBorn v j = some (q, b)
  hash : b.tokenHash = rt.sha256 raw
  minted : v.mem.minted raw = some q
  user : b.userId = a.userId
  family : b.familyId = a.familyId
  rotated : Rotated v i j

/-- Every grace entry holds the raw value and the expiry of a rotation. -/
def CacheHolds (v : BackendView rt) : Prop :=
  ∀ h entry, v.mem.graceCache h = some entry →
    ∃ i j q a b, a.tokenHash = h ∧ b.expiresAt = entry.successorExpiresAt ∧
      RotatedInto i j q a b entry.successorRaw v

section Cached

variable {i j : Nat} {q : Pid} {a b : RefreshToken} {raw : String} {v v' : BackendView rt}

theorem persistent_rotatedInto {L : Logic (schema rt) (platform rt)} (hL : OverTokens L) :
    L.Persistent (@RotatedInto rt i j q a b raw) := by
  intro actor v v' hstep hinto
  obtain ⟨p, hp⟩ := hinto.old
  exact
    { hinto with
      old := ⟨p, hstep.born_kept hp⟩
      new := hstep.born_kept hinto.new
      minted := persistent_minted hL raw q actor v v' hstep hinto.minted
      rotated := persistent_rotated hL i j actor v v' hstep hinto.rotated }

/-- A step that writes no grace entry. -/
theorem CacheHolds.step {actor : Option Pid} (hholds : CacheHolds v)
    (hstep : (tokenLogic rt).Step actor v v')
    (hcache : ∀ h entry, v'.mem.graceCache h = some entry →
      v.mem.graceCache h = some entry) : CacheHolds v' := by
  intro h entry hentry
  obtain ⟨i, j, q, a, b, hhash, hexpires, hinto⟩ := hholds h entry (hcache h entry hentry)
  exact ⟨i, j, q, a, b, hhash, hexpires,
    persistent_rotatedInto (overTokens rt) actor v v' hstep hinto⟩

end Cached

/-! ### The logic -/

variable {u u' : BackendView rt}

theorem CacheHolds.tick {v : BackendView rt} (hholds : CacheHolds v) (n : Time) :
    CacheHolds { v with store := v.store.tick n } := by
  intro h entry hentry
  obtain ⟨i, j, q, a, b, hhash, hexpires, hinto⟩ := hholds h entry hentry
  exact ⟨i, j, q, a, b, hhash, hexpires,
    { hinto with old := hinto.old, new := hinto.new, minted := hinto.minted,
                 rotated := hinto.rotated }⟩

theorem CacheHolds.fire {v : BackendView rt} (hholds : CacheHolds v) {timer : String}
    {mem : Memory} (hfire : v.mem.fire v.store.clock timer = some mem) :
    CacheHolds { v with mem := mem } := by
  obtain ⟨expired, -, -, rfl⟩ := Memory.fire_cases hfire
  intro h entry hentry
  have hbefore : v.mem.graceCache h = some entry := by
    rcases eq_or_ne h timer with heq | hne
    · simp [heq] at hentry
    · simpa [Function.update_of_ne hne] using hentry
  obtain ⟨i, j, q, a, b, hhash, hexpires, hinto⟩ := hholds h entry hbefore
  exact ⟨i, j, q, a, b, hhash, hexpires,
    { hinto with old := hinto.old, new := hinto.new, minted := hinto.minted,
                 rotated := hinto.rotated }⟩

/-- Any interleaving of any requests, in a run through the step from `u` to `u'`. -/
def graceLogic (u u' : BackendView rt) : Logic (schema rt) (platform rt) where
  scope := (tokenLogic rt).layered.pinned u u'
  starts := fun _ => True
  Inv := fun v => TokenInv v ∧ CacheHolds v
  Guar := TokenRule
  spawns := fun _ _ => trivial
  quiet := fun p e v v' hwf hinv hacts _ hquiet hrun =>
    ⟨⟨hrun.1.inv', hinv.2.step hrun.1 fun h entry hentry => by rwa [hquiet.mem] at hentry⟩,
      hrun.1.guar⟩
  tick := fun v n hwf hinv => by
    obtain ⟨hinv', hguar⟩ := (tokenLogic rt).tick v n hwf hinv.1
    exact ⟨⟨hinv', hinv.2.tick n⟩, hguar⟩
  fire := fun v timer mem hwf hinv hfire => by
    obtain ⟨hinv', hguar⟩ := (tokenLogic rt).fire v timer mem hwf hinv.1 hfire
    exact ⟨⟨hinv', hinv.2.fire hfire⟩, hguar⟩

/-- A step of a request that writes no grace entry keeps to the logic. -/
theorem graceLogic_step {p : Pid} {v v' : BackendView rt} (hinv : (graceLogic u u').Inv v)
    (hrun : (graceLogic u u').scope.run v p v')
    (hcache : v'.mem.graceCache = v.mem.graceCache) :
    (graceLogic u u').Inv v' ∧ (graceLogic u u').Guar (some p) v v' :=
  ⟨⟨hrun.1.inv', hinv.2.step hrun.1 fun h entry hentry => by rwa [hcache] at hentry⟩,
    hrun.1.guar⟩

theorem overGrace (u u' : BackendView rt) : OverTokens (graceLogic u u') where
  inv := fun _ hinv => hinv.1
  guar := fun _ _ _ hguar => hguar
  minor := fun _ _ _ _ hinv hminor hrun => graceLogic_step hinv hrun hminor.graceCache

/-! ### The assertions of a refresh -/

section Refresh

variable {p : Pid} {raw : String} {requestMeta : RequestMeta}

/-- `p` has read the clock at `now` and the grace cache as `g`. If that was the
step from `u`, the row `i` stood as `a`. -/
def Looked (p : Pid) (u : BackendView rt) (i : Nat) (a : RefreshToken) (now : Time)
    (g : String → Option GraceEntry) : BackendView rt → Prop :=
  Recorded p fun e earlier => ∀ t h, e = clockRead rt t h →
    t = now ∧ h = g ∧ (earlier = u.history → tokens u i = some a)

/-- If `p` has committed in the step from `u` to `u'`, it wrote no token. -/
def Unwritten (p : Pid) (u u' : BackendView rt) : BackendView rt → Prop :=
  Recorded p fun e earlier => e = committed rt → earlier = u.history →
    tokens u' = tokens u

/-- `p` has rotated the token `a`, and this is what it hands out. -/
structure HandsOver (p : Pid) (a : RefreshToken) (r : LoginResult) (v : BackendView rt) :
    Prop where
  active : a.revokedAt = none
  once : InsertsOnce p v
  minted : v.mem.minted r.refreshToken.raw = some p
  born : ∃ j b, tokenBorn v j = some (p, b) ∧
    b.tokenHash = rt.sha256 r.refreshToken.raw ∧ b.expiresAt = r.refreshToken.expiresAt

/-- `p` has answered a retry. -/
structure Regrants (p : Pid) (raw : String) (requestMeta : RequestMeta)
    (u u' : BackendView rt) (a : RefreshToken) (now : Time)
    (g : String → Option GraceEntry) (r : LoginResult) (v : BackendView rt) : Prop where
  retry : Retry rt raw requestMeta a now g r
  barren : Barren p v
  unwritten : Unwritten p u u' v

/-- How a refresh call succeeds. -/
def RefreshDone (p : Pid) (raw : String) (requestMeta : RequestMeta)
    (u u' : BackendView rt) (r : LoginResult) (v : BackendView rt) : Prop :=
  ∃ i a now g, (Looked p u i a now g v ∧ a.tokenHash = rt.sha256 raw) ∧
    (HandsOver p a r v ∨ Regrants p raw requestMeta u u' a now g r v)

/-- Between the commit of a rotation and its grace entry. -/
def RotationDue (p : Pid) (raw : String) (requestMeta : RequestMeta)
    (u u' : BackendView rt) (r : LoginResult) (s : String) (t : Time)
    (v : BackendView rt) : Prop :=
  RefreshDone p raw requestMeta u u' r v ∧ ∃ i j a b, a.tokenHash = rt.sha256 raw ∧
    b.expiresAt = t ∧ RotatedInto i j p a b s v

theorem stable_insertsOnce {L : Logic (schema rt) (platform rt)} :
    L.Stable p (@InsertsOnce rt p) :=
  fun _ _ _ hactor hstep honce j k b c hb hc =>
    honce j k b c (born_earlier hactor hstep hb) (born_earlier hactor hstep hc)

theorem context_looked {L : Logic (schema rt) (platform rt)} (i : Nat) (a : RefreshToken)
    (now : Time) (g : String → Option GraceEntry) :
    Context L p (@Looked rt p u i a now g) where
  stable := stable_recorded _
  calm := by
    intro v v' hcalm hlooked
    obtain ⟨e, hminor, hhistory⟩ := hcalm.history
    refine hlooked.cons hhistory fun _ t h heq => ?_
    rw [heq] at hminor
    exact absurd trivial hminor

theorem stable_refreshDone (r : LoginResult) :
    (graceLogic u u').Stable p (RefreshDone p raw requestMeta u u' r) := by
  rintro actor v v' hactor hstep ⟨i, a, now, g, ⟨hlooked, hhash⟩, hdone⟩
  refine ⟨i, a, now, g,
    ⟨(context_looked i a now g).stable actor v v' hactor hstep hlooked, hhash⟩, ?_⟩
  rcases hdone with hover | hgrant
  · obtain ⟨j, b, hb, hpair⟩ := hover.born
    refine Or.inl ⟨hover.active, ?_, ?_, j, b, hstep.born_kept hb, hpair⟩
    · exact stable_insertsOnce actor v v' hactor hstep hover.once
    · exact stable_minted (overGrace u u') _ p actor v v' hactor hstep hover.minted
  · refine Or.inr ⟨hgrant.retry, ?_, ?_⟩
    · exact stable_barren actor v v' hactor hstep hgrant.barren
    · exact stable_recorded _ actor v v' hactor hstep hgrant.unwritten

theorem stable_rotationDue (r : LoginResult) (s : String) (t : Time) :
    (graceLogic u u').Stable p (RotationDue p raw requestMeta u u' r s t) := by
  rintro actor v v' hactor hstep ⟨hdone, i, j, a, b, hhash, hexpires, hinto⟩
  exact ⟨stable_refreshDone r actor v v' hactor hstep hdone, i, j, a, b, hhash, hexpires,
    persistent_rotatedInto (overGrace u u') actor v v' hstep hinto⟩

/-- What a committed rotation leaves behind. -/
theorem rotatedInto_of_commit {v v' : BackendView rt} {s : String} {t₀ now : Time}
    {i j : Nat} {a : RefreshToken} (hinv : TokenInv v)
    (hrotating : Rotating p i a (a.rotatedTo j t₀) s requestMeta now t₀ j v)
    (hv' : v' = v.put p (committed rt) (v.store.finish p true)) :
    ∃ c, c.tokenHash = a.tokenHash ∧
      RotatedInto i j p c (successor rt a s requestMeta now t₀) s v' := by
  obtain ⟨q, c, hc, hfixed⟩ := hinv.bornAs i a hrotating.writes.old
  obtain ⟨huser, hfamily, hhash, -⟩ := fixed_eq hfixed
  have hrow : tokens v' i = some (a.rotatedTo j t₀) := by
    rw [hv', rotation_commit_tokens hrotating.writes,
      if_neg (Nat.ne_of_lt hrotating.writes.order), if_pos rfl]
  subst hv'
  exact ⟨c, hhash,
    { old := ⟨q, hc⟩
      new := hrotating.writes.born
      hash := rfl
      minted := hrotating.minted
      user := huser.symm
      family := hfamily.symm
      rotated := Or.inr ⟨_, hrow, rfl, Or.inl rfl⟩ }⟩

/-- The outline of a refresh, watched at the step from `u` to `u'`. -/
def graceRefresh (p : Pid) (raw : String) (requestMeta : RequestMeta)
    (u u' : BackendView rt) : RefreshProof (graceLogic u u') p raw requestMeta where
  start := fun v => Unread p v ∧ Silent p v
  checked := fun i a now g v => Silent p v ∧ Looked p u i a now g v ∧
    a.tokenHash = rt.sha256 raw
  rotated := RotationDue p raw requestMeta u u'
  success := RefreshDone p raw requestMeta u u'
  failure := fun _ => True
  presented := none
  owner := False
  startContext := Context.and context_unread context_silent
  checkedContext := fun i a now g => Context.and context_silent
    (Context.and (context_looked i a now g) ⟨Stable.const _, fun _ _ _ hhash => hhash⟩)
  rotatedStable := stable_rotationDue
  successStable := stable_refreshDone
  failureStable := Stable.const True
  there := fun _ _ _ hnone => by cases hnone
  known := fun _ _ _ _ _ _ hfalse => hfalse.elim
  turn := fun v v' t₀ i a hwf hinv hstart hlocks hfound hrun hacts hv' => by
    have hcache : v'.mem.graceCache = v.mem.graceCache := by rw [hv']; rfl
    obtain ⟨hinv', hguar⟩ := graceLogic_step hinv hrun hcache
    refine ⟨hinv', hguar, ?_, ?_, hfound.2⟩
    · intro hmem
      rw [hacts.history] at hmem
      rcases List.mem_cons.mp hmem with heq | hold
      · cases heq
      · exact hstart.2 hold
    · -- the first reading of the clock, so it is the only one
      have hnone : Looked p u i a v.store.clock v.mem.graceCache v := by
        intro later e earlier hsplit t h heq
        refine absurd ?_ (hstart.1 t h)
        rw [hsplit, heq]
        simp
      refine hnone.cons hacts.history fun _ t h heq => ?_
      simp only [Sigma.mk.injEq, heq_eq_eq, true_and] at heq
      obtain ⟨rfl, rfl⟩ := Prod.mk.inj heq
      refine ⟨rfl, rfl, fun hsame => ?_⟩
      rw [← (hrun.2 hsame).1]
      exact hlocks.committed hfound.1
  retried := fun v v' t₀ i a now g r hwf hinv hchecked hlocks hholds hretry hlive hrun hacts
      hv' => by
    have hcache : v'.mem.graceCache = v.mem.graceCache := by rw [hv']; rfl
    obtain ⟨hinv', hguar⟩ := graceLogic_step hinv hrun hcache
    refine ⟨hinv', hguar, i, a, now, g, ⟨?_, hchecked.2.2⟩, Or.inr ⟨hretry, ?_, ?_⟩⟩
    · exact hchecked.2.1.cons hacts.history fun _ t h heq => by cases heq
    · rw [hv']
      exact fun j b hb => hlocks.barren j b hb
    · have hnone : Unwritten p u u' v := by
        intro later e earlier hsplit heq
        refine absurd ?_ hchecked.1
        rw [hsplit, heq]
        simp
      refine hnone.cons hacts.history fun _ _ hsame => ?_
      obtain ⟨rfl, rfl⟩ := hrun.2 hsame
      rw [hv']
      exact tokens_locks_commit hlocks _
  rotation := fun v v' t₀ i a now g user s j hwf hinv hchecked hrotating hlive hrun hacts
      hv' => by
    have hcache : v'.mem.graceCache = v.mem.graceCache := by rw [hv']; rfl
    obtain ⟨hinv', hguar⟩ := graceLogic_step hinv hrun hcache
    obtain ⟨c, hhash, hinto⟩ := rotatedInto_of_commit hinv.1 hrotating hv'
    refine ⟨hinv', hguar, ⟨i, a, now, g, ⟨?_, hchecked.2.2⟩, Or.inl ?_⟩,
      i, j, c, _, hhash.trans hchecked.2.2, rfl, hinto⟩
    · exact hchecked.2.1.cons hacts.history fun _ t h heq => by cases heq
    · refine ⟨hrotating.writes.active, ?_, hinto.minted, j, _, hinto.new, rfl, rfl⟩
      rw [hv']
      exact fun k m d e hd he => (hrotating.only k d hd).trans (hrotating.only m e he).symm
  grace := fun v v' r s t hwf hinv hdue hrun hacts hv' => by
    obtain ⟨⟨i, a, now, g, ⟨hlooked, hhash⟩, hdone⟩, k, j, c, b, hhash', hexpires, hinto⟩ :=
      hdue
    have hlooked' : Looked p u i a now g v' :=
      hlooked.cons hacts.history fun _ t h heq => by cases heq
    have hinto' := persistent_rotatedInto (overTokens rt) (some p) v v' hrun.1 hinto
    refine ⟨⟨hrun.1.inv', ?_⟩, hrun.1.guar, i, a, now, g, ⟨hlooked', hhash⟩, ?_⟩
    · intro h entry hentry
      rcases eq_or_ne h (rt.sha256 raw) with rfl | hne
      · rw [hv'] at hentry
        simp only [View.remember, Function.update_self, Option.some.injEq] at hentry
        subst hentry
        exact ⟨k, j, p, c, b, hhash', hexpires, hinto'⟩
      · have hbefore : v.mem.graceCache h = some entry := by
          rw [hv'] at hentry
          simpa [View.remember, Function.update_of_ne hne] using hentry
        obtain ⟨k', j', q, c', b', hh, he, hold⟩ := hinv.2 h entry hbefore
        exact ⟨k', j', q, c', b', hh, he,
          persistent_rotatedInto (overTokens rt) (some p) v v' hrun.1 hold⟩
    · subst hv'
      rcases hdone with hover | hgrant
      · exact Or.inl ⟨hover.active, hover.once, hover.minted, hover.born⟩
      · exact Or.inr ⟨hgrant.retry, hgrant.barren,
          hgrant.unwritten.cons hacts.history fun _ heq => by cases heq⟩
  missing := fun _ _ _ _ => trivial
  rejected := fun _ _ _ _ _ _ _ _ => trivial

end Refresh

/-! ### Watched runs -/

/-- How a request leaves the views of a watched run. -/
def gracePost (u u' : BackendView rt) (p : Pid) :
    Request → Except AppError Response → BackendView rt → Prop
  | .refresh raw requestMeta, .ok (.session r), v =>
      RefreshDone p raw requestMeta u u' r v
  | _, _, _ => True

/-- Only a grace entry that is written changes the grace cache. -/
theorem exec_graceCache {fp : Footprint} {p : Pid} {v v' : BackendView rt} {choice : Choice}
    {c : Call (schema rt) (platform rt)} {res : c.Res} (hallows : fp.allows c)
    (hgrace : fp.graceCache = false) (hexec : v.exec p choice c = some (res, v')) :
    v'.mem.graceCache = v.mem.graceCache := by
  cases c with
  | sql stmt => rw [(View.exec_sql hexec).2.1]
  | fork req => rw [(View.exec_fork hexec).2.1]
  | node op =>
      obtain ⟨hop, -, -⟩ := View.exec_node hexec
      cases op with
      | turn | argon2Hash =>
          exact (congrArg (fun out => Memory.graceCache out.2) (Option.some.inj hop)).symm
      | randomBytes | randomUUID =>
          obtain ⟨-, -, hmem⟩ := Memory.mint_cases hop
          rw [hmem]
      | setGraceEntry oldHash successorRaw successorExpiresAt =>
          have hallowed : fp.graceCache = true := hallows
          rw [hgrace] at hallowed
          cases hallowed
      | addJob job =>
          have hjob : Memory.exec rt p v.store.clock (.addJob job) choice v.mem =
              some (res, v'.mem) := hop
          simp only [Memory.exec] at hjob
          split at hjob
          · exact (congrArg (fun out => Memory.graceCache out.2) (Option.some.inj hjob)).symm
          · exact (congrArg (fun out => Memory.graceCache out.2) (Option.some.inj hjob)).symm

theorem graceless_rule {p : Pid} {α : Type} {x : Method rt α} {fp : Footprint}
    (hwithin : Within fp x) (hgrace : fp.graceCache = false) :
    (graceLogic u u').Triple p (fun _ => True) x fun _ _ => True := by
  refine Triple.uses hwithin (Stable.const True) ?_
  intro v choice c res v' hallows hwf hinv _ hexec hrun
  obtain ⟨hinv', hguar⟩ := graceLogic_step hinv hrun (exec_graceCache hallows hgrace hexec)
  exact ⟨by cases c <;> trivial, hinv', hguar, trivial⟩

theorem grace_covered (u u' : BackendView rt) :
    (graceLogic u u').Covers (handler rt) (fun _ _ => True) (gracePost u u') := by
  intro p req _
  have hgraceless (hgrace : (footprint req).graceCache = false)
      (hpost : ∀ out v, gracePost u u' p req out v) :
      (graceLogic u u').Triple p (fun v => Unused p v ∧ True) (handler rt req)
        (gracePost u u' p req) :=
    Triple.post (Triple.weaken (graceless_rule (handler_within rt req) hgrace)
      fun _ _ _ _ => trivial) fun out v _ => hpost out v
  cases req with
  | refresh raw requestMeta =>
      refine Triple.weaken (Triple.andThen ((graceRefresh p raw requestMeta u u').refresh_rule
        (overGrace u u') fun _ => trivial) (fun r => ?_) fun _ _ _ => trivial)
        fun v _ _ hfresh => ⟨⟨fun t g => hfresh.1.silent _, hfresh.1.silent _⟩,
          barren_of_unused hfresh.1⟩
      exact Triple.ret (stable_refreshDone r) fun v hdone => hdone
  | signup | login | logout | cleanup | revokeFamily | createPurchase | listMine | redeem
  | listLessonsForCourse | getLesson | sendInvitationEmail | rehashIfNeeded =>
      exact hgraceless rfl fun _ _ => trivial

theorem boot_grace (u u' : BackendView rt) (seed : Seed) :
    (graceLogic u u').Verified (fun _ _ => True) (gracePost u u') (boot rt seed) where
  wf := boot_wf rt seed
  inv := ⟨boot_tokenInv rt seed, fun h entry hentry => by cases hentry⟩
  safe := fun p proc hproc => by cases hproc
  fresh := fun p _ => ⟨boot_unused rt seed p, trivial⟩

variable {w w₁ w₂ : BackendWorld rt} {p : Pid} {choice : Choice}

theorem runs_layered (hbefore : Runs rt (boot rt seed) w₁) (hruns : Runs rt w₁ w) :
    Reach (handler rt) (tokenLogic rt).layered w₁ w :=
  (reached_verified hbefore).layered (fun _ => Stable.const True) tokens_covered hruns

/-- A run through a step satisfies what was shown about it. -/
theorem watched_verified (hbefore : Runs rt (boot rt seed) w₁)
    (hrun : w₁.step (handler rt) (.run p choice) = some w₂) (hafter : Runs rt w₂ w) :
    (graceLogic w₁.view w₂.view).Verified (fun _ _ => True)
      (gracePost w₁.view w₂.view) w := by
  have hmoves : Moves (handler rt) (Scope.any fun _ => True) w₁ w₂ :=
    ⟨.run p choice, hrun, trivial⟩
  have hreach : Reach (handler rt) ((tokenLogic rt).layered.pinned w₁.view w₂.view)
      (boot rt seed) w := by
    obtain ⟨-, hview⟩ := (reached_verified hbefore).acts (fun _ => Stable.const True)
      tokens_covered hrun trivial
    rcases hview with ⟨hnone, -⟩ | hstep
    · cases hnone
    · exact Reach.pinned (runs_layered Relation.ReflTransGen.refl hbefore) hrun hstep
        (runs_layered (hbefore.tail hmoves) hafter)
  exact ((boot_grace _ _ seed).reach (fun _ => Stable.const True)
    (grace_covered _ _) hreach).1

/-- In every reachable state the grace cache is about rotations. -/
theorem reached_cacheHolds (hreach : Runs rt (boot rt seed) w) : CacheHolds w.view := by
  have hpinned : Reach (handler rt) ((tokenLogic rt).layered.pinned w.view w.view)
      (boot rt seed) w :=
    Reach.pinned_before (runs_layered Relation.ReflTransGen.refl hreach) (Nat.le_refl _)
  exact ((boot_grace _ _ seed).reach (fun _ => Stable.const True)
    (grace_covered _ _) hpinned).1.inv.2

/-! ### The law -/

/-- In the run to `w` the refresh call `p` with the token `raw` reads the clock at
`now`; the row of the token is `i`, and stands as `a`. -/
structure LooksAt (seed : Seed) (p : Pid) (raw : String) (now : Time) (i : Nat)
    (a : RefreshToken) (w₁ w : BackendWorld rt) : Prop where
  before : Runs rt (boot rt seed) w₁
  reads : ∃ choice w₂ g, w₁.step (handler rt) (.run p choice) = some w₂ ∧
    w₂.view.history = (p, clockRead rt now g) :: w₁.view.history ∧ Runs rt w₂ w
  row : tokens w₁.view i = some a
  hash : a.tokenHash = rt.sha256 raw

/-- `r` is handed out as the rotation of the token `i`, which stands as `a`, made
it. The successor is the token `j` of the call `q`. -/
structure Successor (i : Nat) (a : RefreshToken) (r : RefreshTokenPair) (j : Nat) (q : Pid)
    (w₁ w : BackendWorld rt) : Prop where
  linked : a.replacedById = some j ∨ a.replacedById = none ∧ Gone w₁.view j
  inserted : ∃ b, tokenBorn w₁.view j = some (q, b) ∧ b.tokenHash = rt.sha256 r.raw ∧
    b.expiresAt = r.expiresAt ∧ b.userId = a.userId ∧ b.familyId = a.familyId
  answered : ∀ raw requestMeta s,
    w.Ended q (.refresh raw requestMeta) (.ok (.session s)) → s.refreshToken = r

/-- What the call `p` does that answers with `r`, having found its token revoked. -/
structure GracePath (seed : Seed) (p : Pid) (requestMeta : RequestMeta) (now : Time)
    (i : Nat) (a : RefreshToken) (revokedAt : Time) (r : LoginResult)
    (w₁ w : BackendWorld rt) : Prop where
  within : now < revokedAt + GRACE_MS
  userAgent : a.userAgent = requestMeta.userAgent
  successor : ∃ j q, Successor i a r.refreshToken j q w₁ w
  user : r.accessToken.accessToken.sub = a.userId
  barren : Barren p w.view
  unwritten : ∀ choice x x', Runs rt (boot rt seed) x →
    x.step (handler rt) (.run p choice) = some x' → Runs rt x' w →
      tokens x'.view = tokens x.view

/-- A grace entry is about a committed rotation of the token with this hash, and
about the row that it is linked to, while that is there. -/
structure MatchesRotation (v : BackendView rt) (h : String) (entry : GraceEntry) : Prop where
  rotation : CachedRotation v h entry
  successor : ∀ i j a b, tokens v i = some a → a.tokenHash = h →
    a.replacedById = some j → tokens v j = some b →
      b.tokenHash = rt.sha256 entry.successorRaw ∧
        b.expiresAt = entry.successorExpiresAt

/-- The rotation of a token that is there. -/
theorem RotatedInto.of_row {i k j : Nat} {q : Pid} {a c b : RefreshToken} {raw : String}
    {v : BackendView rt} (hinv : TokenInv v) (hfree : CollisionFree v)
    (hinto : RotatedInto k j q c b raw v) (hrow : tokens v i = some a)
    (hhash : c.tokenHash = a.tokenHash) :
    (a.replacedById = some j ∨ a.replacedById = none ∧ Gone v j) ∧
      b.userId = a.userId ∧ b.familyId = a.familyId := by
  obtain ⟨x, d, hd, hfixed⟩ := hinv.bornAs i a hrow
  obtain ⟨y, hc⟩ := hinto.old
  have hk : k = i :=
    hinv.hashedOnce hfree k i y x c d hc hd (hhash.trans (fixed_eq hfixed).2.2.1.symm)
  subst hk
  rw [hd] at hc
  have hdc : d = c := congrArg Prod.snd (Option.some.inj hc)
  subst hdc
  obtain ⟨huser, hfamily, -⟩ := fixed_eq hfixed
  refine ⟨?_, hinto.user.trans huser, hinto.family.trans hfamily⟩
  rcases hinto.rotated with hgone | ⟨e, he, -, hlink⟩
  · rw [hgone.2.1] at hrow
    cases hrow
  · rw [hrow] at he
    rw [Option.some.inj he]
    exact hlink

theorem CacheHolds.matches {v : BackendView rt} (hinv : TokenInv v) (hfree : CollisionFree v)
    (hholds : CacheHolds v) {h : String} {entry : GraceEntry}
    (hentry : v.mem.graceCache h = some entry) : MatchesRotation v h entry := by
  refine ⟨hinv.cached h entry hentry, ?_⟩
  rintro i j a b ha rfl hlink hb
  obtain ⟨k, m, q, c, d, hhash, hexpires, hinto⟩ := hholds _ entry hentry
  obtain ⟨hm, -⟩ := hinto.of_row hinv hfree ha hhash
  rw [hlink] at hm
  rcases hm with hm | ⟨hnone, -⟩
  · obtain ⟨x, e, he, hfixed⟩ := hinv.bornAs j b hb
    rw [Option.some.inj hm, hinto.new] at he
    have hde : d = e := congrArg Prod.snd (Option.some.inj he)
    subst hde
    obtain ⟨-, -, hhash', hexpires', -⟩ := fixed_eq hfixed
    exact ⟨hhash'.symm.trans hinto.hash, hexpires'.symm.trans hexpires⟩
  · cases hnone

/-- The answer of the call that made the rotation. -/
theorem RotatedInto.answered {i j : Nat} {q : Pid} {a b : RefreshToken} {raw raw' : String}
    {requestMeta : RequestMeta} {v : BackendView rt} {s : LoginResult}
    (hfree : CollisionFree v) (hinto : RotatedInto i j q a b raw v)
    (hdone : RefreshDone q raw' requestMeta u u' s v) :
    s.refreshToken = { raw := raw, expiresAt := b.expiresAt } := by
  obtain ⟨_, _, _, _, _, hover | hgrant⟩ := hdone
  · obtain ⟨k, c, hc, hhash, hexpires⟩ := hover.born
    have hk : k = j := hover.once k j c b hc hinto.new
    subst hk
    rw [hinto.new] at hc
    have hbc : b = c := congrArg Prod.snd (Option.some.inj hc)
    subst hbc
    have hraw : s.refreshToken.raw = raw :=
      hfree _ _ (by rw [hover.minted]; rfl) (by rw [hinto.minted]; rfl)
        (hhash.symm.trans hinto.hash)
    rw [← hraw, hexpires]
  · exact absurd hinto.new (hgrant.barren j b)

/-- A call that inserts no token writes none. -/
theorem unwritten_of_barren {raw : String} {requestMeta : RequestMeta} {r : LoginResult}
    (hbefore : Runs rt (boot rt seed) w₁)
    (hrun : w₁.step (handler rt) (.run p choice) = some w₂) (hafter : Runs rt w₂ w)
    (hended : w.Ended p (.refresh raw requestMeta) (.ok (.session r)))
    (hbarren : Barren p w.view) : tokens w₂.view = tokens w₁.view := by
  obtain ⟨e, hacts⟩ := World.run_acts (reached_verified hbefore).wf hrun
  rcases hacts.committed with hsame | rfl
  · exact congrFun hsame Tbl.refreshTokens
  · obtain ⟨_, _, _, _, _, hover | hgrant⟩ :=
      (watched_verified hbefore hrun hafter).ended hended
    · obtain ⟨j, b, hb, -⟩ := hover.born
      exact absurd hb (hbarren j b)
    · obtain ⟨later, hlater⟩ := Reach.history hafter
      rw [hacts.history] at hlater
      exact hgrant.unwritten later _ _ hlater rfl rfl

/-- In every run, every grace entry is about a rotation that has been committed, and
every refresh that succeeds on a revoked token is a retry. -/
theorem grace_path_law (hreach : Runs rt (boot rt seed) w) (hfree : CollisionFree w.view) :
    (∀ h entry, w.view.mem.graceCache h = some entry → MatchesRotation w.view h entry) ∧
      ∀ (p : Pid) raw requestMeta r now i a revokedAt w₁,
        w.Ended p (.refresh raw requestMeta) (.ok (.session r)) →
        LooksAt seed p raw now i a w₁ w → a.revokedAt = some revokedAt →
          GracePath seed p requestMeta now i a revokedAt r w₁ w := by
  have hverified := reached_verified hreach
  refine ⟨fun h entry hentry => (reached_cacheHolds hreach).matches hverified.inv hfree hentry,
    ?_⟩
  intro p raw requestMeta r now i a revokedAt w₁ hended hlooks hrevoked
  obtain ⟨choice, w₂, g, hrun, hread, hafter⟩ := hlooks.reads
  have hwatched := watched_verified hlooks.before hrun hafter
  have hverified₁ := reached_verified hlooks.before
  have hpath : (tokenLogic rt).Path w₁.view w.view :=
    (runs_verified hverified₁ (Relation.ReflTransGen.head
      ⟨.run p choice, hrun, trivial⟩ hafter)).2
  have hfree₁ : CollisionFree w₁.view := hfree.earlier fun s q hs =>
    hpath.preserves (persistent_minted (overTokens rt) s q) hs
  obtain ⟨k, b, t, h, ⟨hlooked, hhash⟩, hdone⟩ := hwatched.ended hended
  -- the row that the call has found is the row `i`
  obtain ⟨later, hlater⟩ := Reach.history hafter
  rw [hread] at hlater
  obtain ⟨rfl, rfl, hrow⟩ := hlooked later _ _ hlater now g rfl
  obtain ⟨rfl, rfl⟩ :=
    same_hash hverified₁.wf hlooks.row (hrow rfl) (hlooks.hash.trans hhash.symm)
  rcases hdone with hover | hgrant
  · rw [hover.active] at hrevoked
    cases hrevoked
  obtain ⟨⟨entry, hentry, hpair⟩, hwithin, hagent, huser⟩ := hgrant.retry
  -- the cache that it has read
  have hcache : w₁.view.mem.graceCache = g := by
    obtain ⟨e, hacts⟩ := World.run_acts hverified₁.wf hrun
    have he : e = clockRead rt now g := by
      have hsame := hacts.history.symm.trans hread
      exact congrArg Prod.snd (List.cons.inj hsame).1
    subst he
    obtain ⟨choice', hexec⟩ := hacts.ran
    have hturn := Option.some.inj (View.exec_node hexec).1
    exact congrArg (fun out => out.1.2) hturn
  rw [← hcache] at hentry
  obtain ⟨k, j, q, c, d, hhash', hexpires, hinto⟩ :=
    reached_cacheHolds hlooks.before _ entry hentry
  obtain ⟨hlink, huser', hfamily⟩ :=
    hinto.of_row hverified₁.inv hfree₁ hlooks.row (hhash'.trans hlooks.hash.symm)
  have hlasting : RotatedInto k j q c d entry.successorRaw w.view :=
    hpath.preserves (persistent_rotatedInto (overTokens rt)) hinto
  refine ⟨?_, hagent, ⟨j, q, ?_⟩, huser, hgrant.barren, ?_⟩
  · simpa [AuthService.withinGraceWindow, hrevoked] using hwithin
  · rw [hpair]
    refine ⟨hlink, ⟨d, hinto.new, hinto.hash, hexpires, huser', hfamily⟩, ?_⟩
    intro raw' requestMeta' s hother
    rw [← hexpires]
    exact hlasting.answered hfree (hwatched.ended hother)
  · intro choice' x x' hx hstep hlast
    exact unwritten_of_barren hx hstep hlast hended hgrant.barren

/-! ### A retry one second later -/

/-- One second after its rotation `T1` is presented again, and its row is locked. -/
def sampleLocked : List (Action (platform sampleRuntime)) :=
  sampleRotation ++ .tick 1000 :: .spawn (.refresh "T1" sampleMeta) :: operations 2 3 ""

theorem sample_regrant : ∃ w₁ w : BackendWorld sampleRuntime,
    Runs sampleRuntime (boot sampleRuntime sampleSeed) w ∧
      w.Ended 2 (.refresh "T1" sampleMeta) (.ok (.session (sampleSession "T2"))) ∧
      LooksAt sampleSeed 2 "T1" 1000 0
        { sampleToken "T1" with revokedAt := some 0, replacedById := some 1 } w₁ w := by
  have hrun : ((boot sampleRuntime sampleSeed).run (handler sampleRuntime)
      sampleLocked).any (fun w₁ => (w₁.step (handler sampleRuntime) (.run 2 {})).any fun w₂ =>
        (w₂.run (handler sampleRuntime) (operations 2 2 "")).any fun w => decide (
          w₂.view.history.head?.any (readsClock 2 1000) = true ∧
          w.status 2 = some (.refresh "T1" sampleMeta,
            some (.ok (.session (sampleSession "T2")))) ∧
          tokens w₁.view 0 = some
            { sampleToken "T1" with revokedAt := some 0, replacedById := some 1 })) = true := by
    decide
  obtain ⟨w₁, hw₁, hrest⟩ := (Option.any_eq_true _ _).mp hrun
  obtain ⟨w₂, hw₂, hlast⟩ := (Option.any_eq_true _ _).mp hrest
  obtain ⟨w, hw, hfacts⟩ := (Option.any_eq_true _ _).mp hlast
  obtain ⟨hhead, hstatus, hrow⟩ := of_decide_eq_true hfacts
  obtain ⟨head, hfirst, hreads⟩ := (Option.any_eq_true _ _).mp hhead
  obtain ⟨g, rfl⟩ := readsClock_cases hreads
  obtain ⟨e, hhistory⟩ := World.run_history hw₂
  have he : (2, e) = (2, clockRead sampleRuntime 1000 g) := by
    rw [hhistory] at hfirst
    exact Option.some.inj hfirst
  rw [he] at hhistory
  have hbefore : Runs sampleRuntime (boot sampleRuntime sampleSeed) w₁ := runs_of_run hw₁
  have hafter : Runs sampleRuntime w₂ w := runs_of_run hw
  have hreach : Runs sampleRuntime w₁ w :=
    Relation.ReflTransGen.head ⟨.run 2 {}, hw₂, trivial⟩ hafter
  exact ⟨w₁, w, hbefore.trans hreach, World.ended_of_status hstatus,
    { before := hbefore, reads := ⟨{}, w₂, g, hw₂, hhistory, hafter⟩, row := hrow
      hash := rfl }⟩

theorem sample_grace_path : ∃ w₁ w : BackendWorld sampleRuntime,
    (∀ h entry, w.view.mem.graceCache h = some entry → MatchesRotation w.view h entry) ∧
      GracePath sampleSeed 2 sampleMeta 1000 0
        { sampleToken "T1" with revokedAt := some 0, replacedById := some 1 } 0
        (sampleSession "T2") w₁ w := by
  obtain ⟨w₁, w, hreach, hended, hlooks⟩ := sample_regrant
  obtain ⟨hcache, hretry⟩ := grace_path_law hreach (sample_collisionFree w.view)
  exact ⟨w₁, w, hcache, hretry 2 _ _ _ _ _ _ _ _ hended hlooks rfl⟩

end Mes
