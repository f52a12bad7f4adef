import Mes.Auth.LogoutRace

/-!
A refresh that runs alone from any reachable state, and whether the token it
hands out belongs to a live session. A rotation hands out the token it has just
committed. A retry hands out whatever the grace cache holds, and nothing looks at
the row of that token: it can have been revoked by a logout or with its family.
-/

namespace Mes

open Transact Transact.Logic

variable {rt : Runtime} {seed : Seed}

/-! ### What a program alone can rely on -/

/-- Nobody but `p` runs. -/
abbrev aloneLogic (rt : Runtime) (p : Pid) : Logic (schema rt) (platform rt) :=
  tokenLogicOf rt fun q => q = p

section Alone

variable {p : Pid}

/-- The clock and the timers are all that is left of the others. -/
theorem alone_drift {actor : Option Pid} {v v' : BackendView rt} (hactor : actor ≠ some p)
    (hstep : (aloneLogic rt p).Step actor v v') : TokenDrift v v' := by
  cases actor with
  | none => exact hstep.guar.1
  | some q => exact absurd (congrArg some (hstep.guar.2 q rfl)) hactor

/-- `p` has not read the clock. -/
def Unread (p : Pid) (v : BackendView rt) : Prop :=
  ∀ t g, (p, clockRead rt t g) ∉ v.history

/-- `p` has read the clock once, with this answer. -/
def ReadAt (p : Pid) (now : Time) (g : String → Option GraceEntry) (v : BackendView rt) :
    Prop :=
  ∀ t h, (p, clockRead rt t h) ∈ v.history ↔ t = now ∧ h = g

theorem context_unread {L : Logic (schema rt) (platform rt)} :
    Context L p (@Unread rt p) where
  stable := fun _ _ _ hactor hstep hunread t g hmem =>
    hunread t g ((hstep.own_history hactor _).mp hmem)
  calm := fun _ _ hcalm hunread t g hmem =>
    hunread t g ((hcalm.milestone (e := clockRead rt t g) trivial).mp hmem)

theorem context_readAt {L : Logic (schema rt) (platform rt)} (now : Time)
    (g : String → Option GraceEntry) : Context L p (@ReadAt rt p now g) where
  stable := fun _ _ _ hactor hstep hread t h =>
    (hstep.own_history hactor _).trans (hread t h)
  calm := fun _ _ hcalm hread t h =>
    (hcalm.milestone (e := clockRead rt t h) trivial).trans (hread t h)

theorem Unread.read {v v' : BackendView rt} (hunread : Unread p v) {now : Time}
    {g : String → Option GraceEntry}
    (hhistory : v'.history = (p, clockRead rt now g) :: v.history) : ReadAt p now g v' := by
  intro t h
  rw [hhistory, List.mem_cons, or_iff_left (hunread t h)]
  constructor
  · intro heq
    simp only [Prod.mk.injEq, true_and, Sigma.mk.injEq, heq_eq_eq] at heq
    exact ⟨congrArg Prod.fst heq, congrArg Prod.snd heq⟩
  · rintro ⟨rfl, rfl⟩
    rfl

/-- Any other event leaves the reading of the clock as it is. -/
theorem ReadAt.other {v v' : BackendView rt} {now : Time} {g : String → Option GraceEntry}
    {e : Event (schema rt) (platform rt)} (hread : ReadAt p now g v)
    (hevent : ∀ t h, clockRead rt t h ≠ e) (hhistory : v'.history = (p, e) :: v.history) :
    ReadAt p now g v' := by
  intro t h
  rw [hhistory, List.mem_cons, or_iff_right]
  · exact hread t h
  · exact fun heq => hevent t h (congrArg Prod.snd heq)

end Alone

/-! ### The assertions of the call -/

/-- The token with the raw value `raw` belongs to a live session. -/
def LiveToken (raw : String) (v : BackendView rt) : Prop :=
  ∃ j b, tokens v j = some b ∧ b.tokenHash = rt.sha256 raw ∧ b.revokedAt = none ∧
    v.store.clock < b.expiresAt

section Call

variable {p : Pid} {raw : String} {requestMeta : RequestMeta} {old : Nat → Option RefreshToken}

/-- The row of the successor `s` of a token with this row: its id is `j`, as far
as hashes do not collide. -/
def CachedFor (old : Nat → Option RefreshToken) (a : RefreshToken) (s : String)
    (v : BackendView rt) : Prop :=
  CollisionFree v → ∃ j, (∀ k c, old k = some c → (c.tokenHash = rt.sha256 s ↔ k = j)) ∧
    (a.replacedById = some j ∨ a.replacedById = none ∧ old j = none)

/-- The call has read the clock at the row `i` with the committed version `a`. -/
structure AloneChecked (p : Pid) (raw : String) (old : Nat → Option RefreshToken) (i : Nat)
    (a : RefreshToken) (now : Time) (g : String → Option GraceEntry) (v : BackendView rt) :
    Prop where
  same : tokens v = old
  read : ReadAt p now g v
  row : old i = some a
  hash : a.tokenHash = rt.sha256 raw
  cached : ∀ entry, g (rt.sha256 raw) = some entry → CachedFor old a entry.successorRaw v

/-- The call has rotated an active token into the new row `j`. -/
structure AloneRotated (p : Pid) (raw : String) (old : Nat → Option RefreshToken) (s : String)
    (i j : Nat) (a b : RefreshToken) (now : Time) (g : String → Option GraceEntry)
    (v : BackendView rt) : Prop where
  read : ReadAt p now g v
  row : old i = some a
  hash : a.tokenHash = rt.sha256 raw
  active : a.revokedAt = none
  new : tokens v j = some b
  newHash : b.tokenHash = rt.sha256 s
  newActive : b.revokedAt = none
  lifetime : b.expiresAt = now + TOKEN_TTL

/-- The call has found its token revoked, and the successor in the grace cache. -/
structure AloneRetried (raw : String) (old : Nat → Option RefreshToken) (s : String)
    (i : Nat) (a : RefreshToken) (v : BackendView rt) : Prop where
  same : tokens v = old
  row : old i = some a
  hash : a.tokenHash = rt.sha256 raw
  revoked : a.revokedAt.isSome = true
  cached : CachedFor old a s v

/-- How a call that runs alone succeeds. -/
def AloneDone (p : Pid) (raw : String) (old : Nat → Option RefreshToken) (s : String)
    (v : BackendView rt) : Prop :=
  (∃ i j a b now g, AloneRotated p raw old s i j a b now g v) ∨
    ∃ i a, AloneRetried raw old s i a v

theorem CachedFor.drift {a : RefreshToken} {s : String} {v v' : BackendView rt}
    (hkept : ∀ x q, v.mem.minted x = some q → v'.mem.minted x = some q)
    (hcached : CachedFor old a s v) : CachedFor old a s v' :=
  fun hfree => hcached (hfree.earlier hkept)

theorem context_aloneChecked (i : Nat) (a : RefreshToken) (now : Time)
    (g : String → Option GraceEntry) :
    Context (aloneLogic rt p) p (@AloneChecked rt p raw old i a now g) where
  stable := by
    intro actor v v' hactor hstep hchecked
    have hdrift := alone_drift hactor hstep
    exact
      { same := hdrift.tokens.trans hchecked.same
        read := (context_readAt now g).stable actor v v' hactor hstep hchecked.read
        row := hchecked.row
        hash := hchecked.hash
        cached := fun entry hentry => (hchecked.cached entry hentry).drift
          fun x q hx => by rw [hdrift.minted, hx] }
  calm := by
    intro v v' hcalm hchecked
    exact
      { same := hcalm.tokens.trans hchecked.same
        read := (@context_readAt rt p (aloneLogic rt p) now g).calm v v' hcalm hchecked.read
        row := hchecked.row
        hash := hchecked.hash
        cached := fun entry hentry => (hchecked.cached entry hentry).drift hcalm.mintKept }

theorem stable_aloneDone (s : String) :
    (aloneLogic rt p).Stable p (@AloneDone rt p raw old s) := by
  intro actor v v' hactor hstep hdone
  have hdrift := alone_drift hactor hstep
  rcases hdone with ⟨i, j, a, b, now, g, hrotated⟩ | ⟨i, a, hretried⟩
  · refine Or.inl ⟨i, j, a, b, now, g, { hrotated with
      read := (context_readAt now g).stable actor v v' hactor hstep hrotated.read
      new := ?_ }⟩
    rw [hdrift.tokens, hrotated.new]
  · refine Or.inr ⟨i, a, { hretried with
      same := hdrift.tokens.trans hretried.same
      cached := hretried.cached.drift fun x q hx => ?_ }⟩
    rw [hdrift.minted, hx]

/-- A grace entry for the hash of a committed token is about its successor. -/
theorem cachedFor_of_entry {v : BackendView rt} {i : Nat} {a : RefreshToken}
    {entry : GraceEntry} (hinv : TokenInv v) (hrow : tokens v i = some a)
    (hentry : v.mem.graceCache a.tokenHash = some entry) :
    CachedFor (tokens v) a entry.successorRaw v := by
  intro hfree
  obtain ⟨i', j, q, c, r, d, hc, hhash, hd, hhash', -, -, hrotated⟩ :=
    hinv.cached a.tokenHash entry hentry
  obtain ⟨x, e, he, hfixed⟩ := hinv.bornAs i a hrow
  have hi : i' = i := hinv.hashedOnce hfree i' i q x c e hc he
    (hhash.trans (fixed_eq hfixed).2.2.1.symm)
  subst hi
  refine ⟨j, fun k f hf => ?_, ?_⟩
  · obtain ⟨y, f₀, hf₀, hfixed'⟩ := hinv.bornAs k f hf
    rw [← (fixed_eq hfixed').2.2.1, ← hhash']
    constructor
    · exact fun hsame => hinv.hashedOnce hfree k j y r f₀ d hf₀ hd hsame
    · rintro rfl
      rw [hd] at hf₀
      have hsame : d = f₀ := congrArg Prod.snd (Option.some.inj hf₀)
      rw [hsame]
  · rcases hrotated with hgone | ⟨b, hb, -, hto | ⟨hnone, hgone⟩⟩
    · rw [hgone.2.1] at hrow
      cases hrow
    · rw [hrow] at hb
      exact Or.inl (by rw [Option.some.inj hb, hto])
    · rw [hrow] at hb
      exact Or.inr ⟨by rw [Option.some.inj hb, hnone], hgone.2.1⟩

theorem tokens_locks_commit {v : BackendView rt} {t₀ : Time} (hlocks : LocksOnly p t₀ v)
    (e : Event (schema rt) (platform rt)) :
    tokens (v.put p e (v.store.finish p true)) = tokens v := by
  funext k
  rw [tokens_commit]
  exact hlocks.same k

/-- The outline of a refresh that runs alone. -/
def aloneRefresh (p : Pid) (raw : String) (requestMeta : RequestMeta)
    (old : Nat → Option RefreshToken) : RefreshProof (aloneLogic rt p) p raw requestMeta where
  start := fun v => tokens v = old ∧ Unread p v
  checked := AloneChecked p raw old
  rotated := fun r s t v => RotationDone p raw r s t v ∧ AloneDone p raw old r.refreshToken.raw v
  success := fun r => AloneDone p raw old r.refreshToken.raw
  failure := fun _ => True
  presented := none
  owner := False
  startContext := Context.and
    ⟨fun _ _ _ hactor hstep hsame => (alone_drift hactor hstep).tokens.trans hsame,
      fun _ _ hcalm hsame => hcalm.tokens.trans hsame⟩ context_unread
  checkedContext := context_aloneChecked
  rotatedStable := fun r s t => ((stable_rotationDone (overTokens rt)).narrow).and
    (stable_aloneDone r.refreshToken.raw)
  successStable := fun r => stable_aloneDone r.refreshToken.raw
  failureStable := Stable.const True
  there := fun _ _ _ hnone => by cases hnone
  known := fun _ _ _ _ _ _ hfalse => hfalse.elim
  turn := fun v v' t₀ i a hwf hinv hstart hlocks hfound hrun hacts hv' => by
    obtain ⟨hinv', hguar⟩ := turn_step hwf hinv hv'
    have hrow : tokens v i = some a := hlocks.committed hfound.1
    have hread := hstart.2.read hacts.history
    subst hv'
    refine ⟨hinv', ⟨hguar, fun q hq => by rw [← Option.some.inj hq]; exact hrun⟩, ?_⟩
    refine ⟨hstart.1, hread, by rw [← hstart.1, hrow], hfound.2, fun entry hentry => ?_⟩
    rw [← hfound.2] at hentry
    rw [← hstart.1]
    exact (cachedFor_of_entry hinv hrow hentry).drift fun _ _ hx => hx
  retried := fun v v' t₀ i a now g r hwf hinv hchecked hlocks hholds hretry hlive hrun hacts
      hv' => by
    subst hv'
    refine ⟨tame_commit_inv hwf hinv hlocks.tame, ⟨tame_commit_guar hwf hlocks.tame,
      fun q hq => by rw [← Option.some.inj hq]; exact hrun⟩, Or.inr ⟨i, a, ?_⟩⟩
    obtain ⟨entry, hentry, hpair⟩ := hretry.cached
    have hrevoked : a.revokedAt.isSome = true := by
      have hwithin := hretry.within
      unfold AuthService.withinGraceWindow at hwithin
      cases hr : a.revokedAt with
      | none => simp [hr] at hwithin
      | some r => rfl
    rw [hpair]
    exact
      { same := (tokens_locks_commit hlocks _).trans hchecked.same
        row := hchecked.row
        hash := hchecked.hash
        revoked := hrevoked
        cached := (hchecked.cached entry hentry).drift fun _ _ hx => hx }
  rotation := fun v v' t₀ i a now g user s j hwf hinv hchecked hrotating hlive hrun hacts
      hv' => by
    have hdone := rotation_done user hinv hchecked.hash hrotating hv'
    have hread := hchecked.read.other (by simp) hacts.history
    subst hv'
    refine ⟨rotation_commit_inv hwf hinv hrotating.writes,
      ⟨rotation_commit_guar hrotating.writes, fun q hq => by
        rw [← Option.some.inj hq]; exact hrun⟩, hdone,
      Or.inl ⟨i, j, a, successor rt a s requestMeta now t₀, now, g, ?_⟩⟩
    exact
      { read := hread
        row := hchecked.row
        hash := hchecked.hash
        active := hrotating.writes.active
        new := by rw [rotation_commit_tokens hrotating.writes, if_pos rfl]
        newHash := rfl
        newActive := rfl
        lifetime := rfl }
  grace := fun v v' r s t hwf hinv hdone hrun hacts hv' => by
    obtain ⟨hinv', hguar⟩ := grace_step hwf hinv hdone.1.cached hv'
    have hother (now : Time) (g : String → Option GraceEntry) (hread : ReadAt p now g v) :
        ReadAt p now g v' := hread.other (by simp) hacts.history
    subst hv'
    refine ⟨hinv', ⟨hguar, fun q hq => by rw [← Option.some.inj hq]; exact hrun⟩, ?_⟩
    rcases hdone.2 with ⟨i, j, a, b, now, g, hrotated⟩ | ⟨i, a, hretried⟩
    · exact Or.inl ⟨i, j, a, b, now, g, { hrotated with
        read := hother now g hrotated.read
        new := hrotated.new }⟩
    · exact Or.inr ⟨i, a, { hretried with
        same := hretried.same
        cached := hretried.cached.drift fun _ _ hx => hx }⟩
  missing := fun _ _ _ _ => trivial
  rejected := fun _ _ _ _ _ _ _ _ => trivial

theorem alone_called (raw : String) (requestMeta : RequestMeta) {w₀ : BackendWorld rt}
    (hverified : (tokenLogic rt).Verified (fun _ _ => True) tokenPost w₀)
    (hp : p = w₀.procs.length) :
    (aloneLogic rt p).Called (handler rt) (fun q => q = p)
      (fun q _ out v => q = p → ∀ r, out = .ok (.session r) →
        AloneDone p raw (tokens w₀.view) r.refreshToken.raw v)
      w₀ [.refresh raw requestMeta] := by
  have hunused (q : Pid) (hq : w₀.procs.length ≤ q) : Unused q w₀.view :=
    (hverified.fresh q hq).1
  refine ⟨hverified.wf, hverified.inv, hunused, fun _ _ _ hrun => hrun, ?_, ?_, ?_⟩
  · rintro q rfl
    simp [hp]
  · intro k req hreq hk
    have hzero : k = 0 := by
      have hlt := (List.getElem?_eq_some_iff.mp hreq).1
      simpa using hlt
    subst hzero
    have hsame : Request.refresh raw requestMeta = req := Option.some.inj hreq
    subst hsame
    rw [hk]
    have hrule : (aloneLogic rt p).Triple p
        (fun v => (tokens v = tokens w₀.view ∧ Unread p v) ∧ Barren p v)
        (handler rt (.refresh raw requestMeta)) fun out v => p = p → ∀ r,
          out = .ok (.session r) → AloneDone p raw (tokens w₀.view) r.refreshToken.raw v := by
      refine Triple.andThen ((aloneRefresh p raw requestMeta (tokens w₀.view)).refresh_rule
        (overTokens rt).narrow fun _ => trivial) (fun result => ?_) fun e v _ _ r hout => ?_
      · refine Triple.ret (stable_aloneDone result.refreshToken.raw) fun v hdone _ r hout => ?_
        have hsame : result = r := by simpa using hout
        rw [← hsame]
        exact hdone
      · cases hout
    have hp' := hunused p (le_of_eq hp.symm)
    exact hrule w₀.view hverified.wf hverified.inv
      ⟨⟨rfl, fun t g => hp'.silent _⟩, barren_of_unused hp'⟩
  · exact fun q _ out v hq hp => absurd hp hq

/-- A committed token is known by its hash. -/
theorem same_hash {v : BackendView rt} (hwf : v.store.Wf) {i k : Nat} {a c : RefreshToken}
    (ha : tokens v i = some a) (hc : tokens v k = some c) (hhash : a.tokenHash = c.tokenHash) :
    i = k ∧ a = c := by
  have hik : i = k := hwf.stored_distinct (t := Tbl.refreshTokens) ha hc
    (by simp [Tbl.clash, hhash])
  subst hik
  rw [ha] at hc
  exact ⟨rfl, Option.some.inj hc⟩

/-- A refresh that runs alone hands out the token of a live session exactly when
the presented token had not been revoked, and the call returned within the
lifetime of its successor, or when the successor it had been replaced by was still
there, not revoked and not expired. -/
theorem refresh_hands_out_live_iff {w₀ w : BackendWorld rt} {r : LoginResult}
    (hreach : Runs rt (boot rt seed) w₀)
    (hcall : Reach (handler rt) (Scope.only fun q => q = w₀.procs.length)
      (w₀.call (handler rt) [.refresh raw requestMeta]) w)
    (hended : w.Ended w₀.procs.length (.refresh raw requestMeta) (.ok (.session r)))
    (hfree : CollisionFree w.view) :
    LiveToken r.refreshToken.raw w.view ↔
      ∃ i a, tokens w₀.view i = some a ∧ a.tokenHash = rt.sha256 raw ∧
        ((a.revokedAt = none ∧ ∃ t g, (w₀.procs.length, clockRead rt t g) ∈ w.view.history ∧
            w.view.store.clock < t + TOKEN_TTL) ∨
          ∃ j b, a.replacedById = some j ∧ tokens w₀.view j = some b ∧
            b.revokedAt = none ∧ w.view.store.clock < b.expiresAt) := by
  have hverified := reached_verified hreach
  obtain ⟨hlater, -⟩ := (alone_called raw requestMeta hverified rfl).reach hcall
  have hdone := (hlater.ended hended) rfl r rfl
  have hinv₀ : TokenInv w₀.view := hverified.inv
  rcases hdone with ⟨i, j, a, b, now, g, hrotated⟩ | ⟨i, a, hretried⟩
  · constructor
    · rintro ⟨k, c, hc, hhash, -, hlive⟩
      obtain ⟨-, hcb⟩ := same_hash hlater.wf hc hrotated.new (hhash.trans hrotated.newHash.symm)
      rw [hcb, hrotated.lifetime] at hlive
      exact ⟨i, a, hrotated.row, hrotated.hash, Or.inl ⟨hrotated.active, now, g,
        (hrotated.read now g).mpr ⟨rfl, rfl⟩, hlive⟩⟩
    · rintro ⟨k, c, hc, hhash, hcase⟩
      obtain ⟨-, hca⟩ := same_hash hverified.wf hc hrotated.row
        (hhash.trans hrotated.hash.symm)
      subst hca
      rcases hcase with ⟨-, t, h, hread, hlive⟩ | ⟨m, d, hlink, -⟩
      · obtain ⟨rfl, -⟩ := (hrotated.read t h).mp hread
        exact ⟨j, b, hrotated.new, hrotated.newHash, hrotated.newActive,
          by rw [hrotated.lifetime]; exact hlive⟩
      · obtain ⟨-, x, -, -, hrevoked, -⟩ := hinv₀.links k m c hc hlink
        rw [hrotated.active] at hrevoked
        cases hrevoked
  · obtain ⟨j, hj, hlink⟩ := hretried.cached hfree
    constructor
    · rintro ⟨k, c, hc, hhash, hactive, hlive⟩
      rw [hretried.same] at hc
      have hk := (hj k c hc).mp hhash
      subst hk
      rcases hlink with hto | ⟨-, hgone⟩
      · exact ⟨i, a, hretried.row, hretried.hash, Or.inr ⟨k, c, hto, hc, hactive, hlive⟩⟩
      · rw [hgone] at hc
        cases hc
    · rintro ⟨k, c, hc, hhash, hcase⟩
      obtain ⟨-, hca⟩ := same_hash hverified.wf hc hretried.row
        (hhash.trans hretried.hash.symm)
      subst hca
      rcases hcase with ⟨hactive, -⟩ | ⟨m, d, hto, hd, hactive, hlive⟩
      · have hrevoked := hretried.revoked
        rw [hactive] at hrevoked
        cases hrevoked
      · rcases hlink with hto' | ⟨hnone, -⟩
        · rw [hto'] at hto
          rw [← Option.some.inj hto] at hd
          refine ⟨j, d, by rw [hretried.same, hd], (hj j d hd).mpr rfl, hactive, hlive⟩
        · rw [hnone] at hto
          cases hto

end Call

/-! ### A session that has been logged out -/

theorem sample_collisionFree (v : BackendView sampleRuntime) : CollisionFree v :=
  fun _ _ _ _ hhash => sampleSha256_injective hhash

/-- `T1` is rotated into `T2`, and then `T2` is logged out. -/
def sampleLogout : List (Action (platform sampleRuntime)) :=
  sampleRotation ++ .spawn (.logout (some "T2")) :: operations 2 5 ""

theorem sample_retry : ∃ w₀ w : BackendWorld sampleRuntime,
    Runs sampleRuntime (boot sampleRuntime sampleSeed) w₀ ∧
      Reach (handler sampleRuntime) (Scope.only fun q => q = w₀.procs.length)
        (w₀.call (handler sampleRuntime) [.refresh "T1" sampleMeta]) w ∧
      w.Ended w₀.procs.length (.refresh "T1" sampleMeta)
        (.ok (.session (sampleSession "T2"))) ∧
      w₀.Ended 2 (.logout (some "T2")) (.ok .done) ∧
      tokens w.view 1 = some { sampleToken "T2" with revokedAt := some 0 } := by
  have hrun : ((boot sampleRuntime sampleSeed).run (handler sampleRuntime)
      sampleLogout).any (fun w₀ => ((w₀.call (handler sampleRuntime)
        [.refresh "T1" sampleMeta]).run (handler sampleRuntime) (operations 3 6 "")).any
          fun w => decide (w₀.procs.length = 3 ∧
            w.status 3 = some (.refresh "T1" sampleMeta,
              some (.ok (.session (sampleSession "T2")))) ∧
            w₀.status 2 = some (.logout (some "T2"), some (.ok .done)) ∧
            tokens w.view 1 = some { sampleToken "T2" with revokedAt := some 0 })) = true := by
    decide
  obtain ⟨w₀, hw₀, hrest⟩ := (Option.any_eq_true _ _).mp hrun
  obtain ⟨w, hw, hfacts⟩ := (Option.any_eq_true _ _).mp hrest
  obtain ⟨hlength, hstatus, hdone, hrow⟩ := of_decide_eq_true hfacts
  refine ⟨w₀, w, runs_of_run hw₀, ?_, ?_, World.ended_of_status hdone, hrow⟩
  · rw [hlength]
    refine World.reach_of_run ?_ hw
    exact fun a ha => @operations_admitted (fun q => q = 3) 3 rfl 6 "" a ha
  · rw [hlength]
    exact World.ended_of_status hstatus

/-- After the logout of `T2`, the current token of the family, a retry with `T1`
still gets `T2` and an access token. -/
theorem dead_session_refreshed : ∃ w₀ w : BackendWorld sampleRuntime,
    Runs sampleRuntime (boot sampleRuntime sampleSeed) w₀ ∧
      Reach (handler sampleRuntime) (Scope.only fun q => q = w₀.procs.length)
        (w₀.call (handler sampleRuntime) [.refresh "T1" sampleMeta]) w ∧
      w.Ended w₀.procs.length (.refresh "T1" sampleMeta)
        (.ok (.session (sampleSession "T2"))) ∧
      w₀.Ended 2 (.logout (some "T2")) (.ok .done) ∧
      ¬ LiveToken (sampleSession "T2").refreshToken.raw w.view := by
  obtain ⟨w₀, w, hreach, hcall, hended, hdone, hrow⟩ := sample_retry
  refine ⟨w₀, w, hreach, hcall, hended, hdone, ?_⟩
  rintro ⟨j, b, hb, hhash, hactive, -⟩
  have hverified := reached_verified hreach
  have hwf := ((alone_called "T1" sampleMeta hverified rfl).reach hcall).1.wf
  obtain ⟨-, hsame⟩ := same_hash hwf hb hrow hhash
  rw [hsame] at hactive
  cases hactive

theorem sample_refresh_alone : ∃ w₀ w : BackendWorld sampleRuntime,
    w.Ended w₀.procs.length (.refresh "T1" sampleMeta)
        (.ok (.session (sampleSession "T2"))) ∧
      (LiveToken "T2" w.view ↔
        ∃ i a, tokens w₀.view i = some a ∧ a.tokenHash = sampleRuntime.sha256 "T1" ∧
          ((a.revokedAt = none ∧ ∃ t g, (w₀.procs.length, clockRead sampleRuntime t g) ∈
              w.view.history ∧ w.view.store.clock < t + TOKEN_TTL) ∨
            ∃ j b, a.replacedById = some j ∧ tokens w₀.view j = some b ∧
              b.revokedAt = none ∧ w.view.store.clock < b.expiresAt)) := by
  obtain ⟨w₀, w, hreach, hcall, hended, -, -⟩ := sample_retry
  exact ⟨w₀, w, hended,
    refresh_hands_out_live_iff hreach hcall hended (sample_collisionFree w.view)⟩

end Mes
