import Mes.Auth.GracePath
import Mes.Ledger
import Mes.Transact.Under

/-!
A session that nobody else touches. As long as the other requests present no token of the
family, the active token of a session stays as it is, whatever they are and however they are
interleaved; and a refresh that presents it is only ever answered with the next token of the
session.
-/

namespace Mes

open Transact Transact.Logic

variable {rt : Runtime} {seed : Seed} {w w' fin : BackendWorld rt}

/-- The request presents a token of the family. -/
def PresentsFamily (seed : Seed) (w : BackendWorld rt) (familyId : String) : Request → Prop
  | .refresh raw _ | .logout (some raw) =>
      ∃ i row, Presents seed w raw i row ∧ row.familyId = familyId
  | _ => False

/-- The rest of a run through its moments. -/
theorem Serves.clock_le (hserves : Serves rt (boot rt seed) w) (hlater : Serves rt w w') :
    w.view.store.clock ≤ w'.view.store.clock := by
  obtain ⟨-, hpath⟩ := runs_verified (reached_verified hserves.runs) hlater.runs
  exact hpath.preserves (fun _ _ _ hstep hle => le_trans hle hstep.clock_le) (le_refl _)

/-- No cleanup takes an active token before the days of grace are over. -/
theorem not_cleaned {now until_ : Time} {b : RefreshToken} (hactive : b.revokedAt = none)
    (hnow : now ≤ until_)
    (hclock : until_ ≤ b.expiresAt + AuthService.REFRESH_TOKEN_GRACE_DAYS * MS_PER_DAY) :
    ¬ (RefreshTokensRepository.expiredBefore AuthService.REFRESH_TOKEN_GRACE_DAYS now b = true ∨
      RefreshTokensRepository.revokedBefore AuthService.REFRESH_TOKEN_FORENSIC_DAYS now b =
        true) := by
  rintro (hexpired | hrevoked)
  · rw [RefreshTokensRepository.expiredBefore, decide_eq_true_eq] at hexpired
    exact absurd (lt_of_lt_of_le hexpired (le_trans hnow hclock)) (lt_irrefl _)
  · rw [RefreshTokensRepository.revokedBefore, hactive] at hrevoked
    cases hrevoked

/-- An active token is touched only by the commit of a request that presents a token of its
family. -/
theorem active_stays (hserves : Serves rt (boot rt seed) w) {act : Action (platform rt)}
    (hstep : w.step (handler rt) act = some w') (hadmits : (Scope.any Incoming).admits act w w')
    (hlater : Serves rt w' fin) {k : Nat} {b : RefreshToken} (hb : tokens w.view k = some b)
    (hactive : b.revokedAt = none)
    (hclock : fin.view.store.clock ≤
      b.expiresAt + AuthService.REFRESH_TOKEN_GRACE_DAYS * MS_PER_DAY) :
    tokens w'.view k = some b ∨ ∃ q choice req k', act = .run q choice ∧
      w.procs[q]? = some { req := req, prog := .step (.sql .commit) k' } ∧
        PresentsFamily seed fin b.familyId req := by
  have hmoves : Moves (handler rt) (Scope.any Incoming) w w' := ⟨act, hstep, hadmits⟩
  have hkept := kept_of_serves hserves (Relation.ReflTransGen.head hmoves hlater)
  rcases changes_ratified hserves hstep hadmits hlater hb with
    hsame | ⟨q, choice, req, k', y, hact, hproc, hopen, -, hchange⟩
  · exact Or.inl hsame
  · have hpresents (hfamily : PresentsFamily seed fin b.familyId req) :
        tokens w'.view k = some b ∨ ∃ q choice req k', act = .run q choice ∧
          w.procs[q]? = some { req := req, prog := .step (.sql .commit) k' } ∧
            PresentsFamily seed fin b.familyId req :=
      Or.inr ⟨q, choice, req, k', hact, hproc, hfamily⟩
    cases req with
    | refresh raw requestMeta =>
        rcases hchange with hsame | ⟨-, i, row, hrow, hfamily⟩
        · exact Or.inl hsame
        · exact hpresents ⟨i, row, hrow, hfamily⟩
    | logout rawToken =>
        rcases hchange with hsame | ⟨-, raw, rfl, hhash⟩
        · exact Or.inl hsame
        · obtain ⟨row, hrow, -, hfamily, hsame⟩ :=
            (hkept.rows.placed.rows Tbl.refreshTokens k b hb).1.token
          exact hpresents ⟨k, row, ⟨hrow, hsame.symm.trans hhash⟩, hfamily.symm⟩
    | cleanup =>
        rcases hchange with hsame | hunlinked | ⟨-, hold⟩
        · exact Or.inl hsame
        · -- an active token has no successor to be unlinked from
          refine Or.inl (hunlinked.trans (congrArg some ?_))
          cases hlink : b.replacedById with
          | none => rw [← hlink]
          | some j =>
              obtain ⟨-, r, q', c, hrevoked, -⟩ :=
                (reached_verified hserves.runs).inv.links k j b hb hlink
              cases hactive.symm.trans hrevoked
        · have hnow : y.startedAt ≤ fin.view.store.clock :=
            le_trans (hkept.rows.wf.started q y hopen)
              (hserves.clock_le (Relation.ReflTransGen.head hmoves hlater))
          exact absurd hold (not_cleaned hactive hnow hclock)
    | signup | login | createPurchase | listMine | redeem | listLessonsForCourse | getLesson
    | sendInvitationEmail | revokeFamily | rehashIfNeeded => exact Or.inl hchange

/-- A session is left alone by everybody who presents no token of its family: its active
token stays as it is until the cleanup may take it. -/
theorem session_undisturbed (hserves : Serves rt (boot rt seed) w) (hlater : Serves rt w w')
    {k : Nat} {b : RefreshToken} (hb : tokens w.view k = some b) (hactive : b.revokedAt = none)
    (hclock : w'.view.store.clock ≤
      b.expiresAt + AuthService.REFRESH_TOKEN_GRACE_DAYS * MS_PER_DAY)
    (hquiet : ∀ q req, w'.requests q = some req → PresentsFamily seed w' b.familyId req →
      ∃ out, w.Ended q req out) : tokens w'.view k = some b := by
  have hrun (u : BackendWorld rt) (hbefore : Serves rt w u) (hafter : Serves rt u w') :
      tokens u.view k = some b := by
    induction hbefore with
    | refl => exact hb
    | tail hbefore hmoves ih =>
        have hrest := Relation.ReflTransGen.head hmoves hafter
        obtain ⟨act, hstep, hadmits⟩ := hmoves
        rcases active_stays (hserves.trans hbefore) hstep hadmits hafter (ih hrest) hactive hclock
          with hsame | ⟨q, choice, req, k', -, hproc, hpresents⟩
        · exact hsame
        · -- whoever presents a token of the family has nothing left to run
          have hreq := Reach.requests hrest (Option.map_eq_some_iff.mpr ⟨_, hproc, rfl⟩)
          obtain ⟨out, hended⟩ := hquiet q req hreq hpresents
          obtain ⟨proc, hproc', -, hout⟩ := Reach.ended hbefore hended
          obtain rfl := Option.some.inj (hproc.symm.trans hproc')
          cases hout
  exact hrun w' hlater Relation.ReflTransGen.refl

/-- The cleanup comes by while the parent who signed up is away. -/
def sampleAway : List (Action (platform loginRuntime)) :=
  .tick TOKEN_TTL :: .spawn .cleanup :: List.replicate 7 (.run 1 { text := "" })

theorem sample_opened : ∃ w : BackendWorld loginRuntime,
    Serves loginRuntime (boot loginRuntime sampleSeed) w ∧
      tokens w.view 0 = some (sampleToken "T1") ∧ w.procs.length = 1 ∧
      (∃ w', w.run (handler loginRuntime) sampleAway = some w' ∧
        w'.procs.map Proc.req = [.signup ⟨"parent@example.com", "abcdefghijk1", none, none⟩
          sampleMeta, .cleanup] ∧ w'.view.store.clock = TOKEN_TTL ∧
        w'.Ended 1 .cleanup (.ok (.cleaned 0 0 0))) ∧
      ∃ w', (w.call (handler loginRuntime) [.refresh "T1" sampleMeta]).run
            (handler loginRuntime) (List.replicate 11 (.run 1 { text := "T2" })) = some w' ∧
        w'.procs.map Proc.req = [.signup ⟨"parent@example.com", "abcdefghijk1", none, none⟩
          sampleMeta, .refresh "T1" sampleMeta] ∧ w'.view.store.clock = 0 ∧
        w'.Ended 1 (.refresh "T1" sampleMeta) (.ok (.session (sampleSession "T2"))) := by
  have hrun : ((boot loginRuntime sampleSeed).run (handler loginRuntime) sampleOpening).any
      (fun w => decide (tokens w.view 0 = some (sampleToken "T1")) &&
        decide (w.procs.length = 1) &&
        (w.run (handler loginRuntime) sampleAway).any (fun w' =>
          decide (w'.procs.map Proc.req = [.signup
            ⟨"parent@example.com", "abcdefghijk1", none, none⟩ sampleMeta, .cleanup]) &&
          decide (w'.view.store.clock = TOKEN_TTL) &&
          decide (w'.status 1 = some (.cleanup, some (.ok (.cleaned 0 0 0))))) &&
        ((w.call (handler loginRuntime) [.refresh "T1" sampleMeta]).run
          (handler loginRuntime) (List.replicate 11 (.run 1 { text := "T2" }))).any fun w' =>
            decide (w'.procs.map Proc.req = [.signup
              ⟨"parent@example.com", "abcdefghijk1", none, none⟩ sampleMeta,
              .refresh "T1" sampleMeta]) &&
            decide (w'.view.store.clock = 0) &&
            decide (w'.status 1 = some (.refresh "T1" sampleMeta,
              some (.ok (.session (sampleSession "T2")))))) = true := by decide +kernel
  obtain ⟨w, hw, hchecks⟩ := (Option.any_eq_true _ _).mp hrun
  simp only [Bool.and_eq_true, decide_eq_true_eq] at hchecks
  obtain ⟨⟨⟨hrow, hlen⟩, haway⟩, hback⟩ := hchecks
  obtain ⟨w₁, hw₁, hchecks₁⟩ := (Option.any_eq_true _ _).mp haway
  obtain ⟨w₂, hw₂, hchecks₂⟩ := (Option.any_eq_true _ _).mp hback
  simp only [Bool.and_eq_true, decide_eq_true_eq] at hchecks₁ hchecks₂
  refine ⟨w, serves_of_run (fun a ha u u' => ?_) hw, hrow, hlen,
    ⟨w₁, hw₁, hchecks₁.1.1, hchecks₁.1.2, World.ended_of_status hchecks₁.2⟩,
    w₂, hw₂, hchecks₂.1.1, hchecks₂.1.2, World.ended_of_status hchecks₂.2⟩
  simp only [sampleOpening, List.mem_cons, List.mem_append, List.mem_replicate] at ha
  rcases ha with rfl | ⟨-, rfl⟩ | ⟨-, rfl⟩ <;> trivial

theorem requests_listed {reqs : List Request} (hreqs : w.procs.map Proc.req = reqs) {q : Pid}
    {req : Request} (hreq : w.requests q = some req) : reqs[q]? = some req := by
  rw [← hreqs, List.getElem?_map]
  exact hreq

theorem session_undisturbed_away : ∃ w' : BackendWorld loginRuntime,
    w'.view.store.clock = TOKEN_TTL ∧ tokens w'.view 0 = some (sampleToken "T1") := by
  obtain ⟨w, hserves, hrow, -, ⟨w', hrun, hreqs, hclock, -⟩, -⟩ := sample_opened
  have hlater : Serves loginRuntime w w' := by
    refine serves_of_run (fun a ha u u' => ?_) hrun
    simp only [sampleAway, List.mem_cons, List.mem_replicate] at ha
    rcases ha with rfl | rfl | ⟨-, rfl⟩ <;> trivial
  refine ⟨w', hclock, session_undisturbed hserves hlater hrow rfl ?_ ?_⟩
  · rw [hclock]
    decide
  · intro q req hreq hpresents
    have hmem := List.mem_of_getElem? (requests_listed hreqs hreq)
    simp only [List.mem_cons, List.not_mem_nil, or_false] at hmem
    rcases hmem with rfl | rfl <;> exact hpresents.elim

/-! ### The refresh of a session -/

/-- The step of `q` leaves a session to `p`: an active token of the family that lives until
then stays, and no account goes. -/
structure LeavesSession (p : Pid) (familyId : String) (until_ : Time) (v : BackendView rt)
    (q : Pid) (v' : BackendView rt) : Prop where
  active : q ≠ p → ∀ k b, tokens v k = some b → b.familyId = familyId → b.revokedAt = none →
    until_ ≤ b.expiresAt → tokens v' k = some b
  users : ∀ k, (v.store.stored Tbl.users k).isSome = true →
    (v'.store.stored Tbl.users k).isSome = true

/-- The runs in which the others leave the session to `p`. -/
abbrev quietLogic (rt : Runtime) (p : Pid) (familyId : String) (until_ : Time) :
    Logic (schema rt) (platform rt) :=
  (tokenLogic rt).under (LeavesSession p familyId until_)

theorem overQuiet (p : Pid) (familyId : String) (until_ : Time) :
    OverTokens (quietLogic rt p familyId until_) where
  inv := fun _ hinv => hinv
  guar := fun _ _ _ hguar => hguar.1
  minor := fun _ _ _ _ _ _ hrun => under_granted hrun

section Refresh

variable {p : Pid} {raw : String} {requestMeta : RequestMeta} {a : RefreshToken} {i : Nat}
  {until_ since : Time} {v v' : BackendView rt}

/-- The others leave an active token of the family where it is. -/
theorem quiet_active {actor : Option Pid} {familyId : String} (hactor : actor ≠ some p)
    (hstep : (quietLogic rt p familyId until_).Step actor v v') {k : Nat} {b : RefreshToken}
    (hb : tokens v k = some b) (hfamily : b.familyId = familyId) (hactive : b.revokedAt = none)
    (hlives : until_ ≤ b.expiresAt) : tokens v' k = some b := by
  cases actor with
  | none =>
      have hdrift : TokenDrift v v' := hstep.of_under.1.guar
      rw [hdrift.tokens, hb]
  | some q =>
      have hq : q ≠ p := fun heq => hactor (congrArg some heq)
      exact (hstep.of_under.2 q rfl).active hq k b hb hfamily hactive hlives

/-- The token is there, and so is its account. -/
structure SessionHeld (i : Nat) (a : RefreshToken) (since : Time) (v : BackendView rt) :
    Prop where
  row : tokens v i = some a
  owner : (v.store.stored Tbl.users a.userId).isSome = true
  since : since ≤ v.store.clock

theorem context_sessionHeld (hactive : a.revokedAt = none) (hlives : until_ ≤ a.expiresAt) :
    Context (quietLogic rt p a.familyId until_) p (@SessionHeld rt i a since) where
  stable := by
    intro actor v v' hactor hstep hheld
    refine ⟨quiet_active hactor hstep hheld.row rfl hactive hlives, ?_,
      le_trans hheld.since hstep.clock_le⟩
    cases actor with
    | none =>
        obtain ⟨-, n, hstore⟩ := hstep.base
        rw [hstore]
        exact hheld.owner
    | some q => exact (hstep.of_under.2 q rfl).users _ hheld.owner
  calm := by
    intro v v' hcalm hheld
    exact ⟨hcalm.tokens ▸ hheld.row, hcalm.users ▸ hheld.owner, hcalm.clock ▸ hheld.since⟩

/-- The call has read the clock with the token locked. -/
def SessionRead (i : Nat) (a : RefreshToken) (since : Time) (i' : Nat) (a' : RefreshToken)
    (now : Time) (_ : String → Option GraceEntry) (v : BackendView rt) : Prop :=
  SessionHeld i a since v ∧ (i' = i ∧ a' = a ∧ since ≤ now) ∧ now ≤ v.store.clock

theorem context_sessionRead (hactive : a.revokedAt = none) (hlives : until_ ≤ a.expiresAt)
    (i' : Nat) (a' : RefreshToken) (now : Time) (g : String → Option GraceEntry) :
    Context (quietLogic rt p a.familyId until_) p (@SessionRead rt i a since i' a' now g) where
  stable := (context_sessionHeld hactive hlives).stable.and
    ((Stable.const _).and (stable_clock now))
  calm := fun v v' hcalm hread =>
    ⟨(context_sessionHeld hactive hlives (p := p)).calm v v' hcalm hread.1, hread.2.1,
      hcalm.clock ▸ hread.2.2⟩

/-- The result of the call is the next token of the session. -/
def Renewed (a : RefreshToken) (since : Time) (r : LoginResult) (v : BackendView rt) : Prop :=
  ∃ j b, tokens v j = some b ∧ b.userId = a.userId ∧ b.familyId = a.familyId ∧
    b.revokedAt = none ∧ b.tokenHash = rt.sha256 r.refreshToken.raw ∧
      b.expiresAt = r.refreshToken.expiresAt ∧ since + TOKEN_TTL ≤ b.expiresAt

theorem stable_renewed (huntil : until_ ≤ since + TOKEN_TTL) (r : LoginResult) :
    (quietLogic rt p a.familyId until_).Stable p (@Renewed rt a since r) := by
  intro actor v v' hactor hstep hrenewed
  obtain ⟨j, b, hrow, huser, hfamily, hactive, hhash, hexpires, hsince⟩ := hrenewed
  exact ⟨j, b, quiet_active hactor hstep hrow hfamily hactive (le_trans huntil hsince), huser,
    hfamily, hactive, hhash, hexpires, hsince⟩

/-- The reasons for a refresh of a session to fail. -/
def SessionLost (a : RefreshToken) (requestMeta : RequestMeta) (v : BackendView rt) : Prop :=
  a.expiresAt ≤ v.store.clock ∨ ¬ CollisionFree v ∨ requestMeta.ip.all rt.isInet = false

theorem stable_sessionLost {L : Logic (schema rt) (platform rt)} (hL : OverTokens L) :
    L.Stable p (@SessionLost rt a requestMeta) := by
  intro actor v v' _ hstep hlost
  rcases hlost with hexpired | hcollision | hip
  · exact Or.inl (le_trans hexpired hstep.clock_le)
  · refine Or.inr (Or.inl fun hfree => hcollision (hfree.earlier ?_))
    exact fun s q hs => persistent_minted hL s q actor v v' hstep hs
  · exact Or.inr (Or.inr hip)

/-- The outline of a refresh that has the session to itself. -/
def quietRefresh (hactive : a.revokedAt = none) (hlives : until_ ≤ a.expiresAt)
    (huntil : until_ ≤ since + TOKEN_TTL) (hhash : a.tokenHash = rt.sha256 raw) :
    RefreshProof (quietLogic rt p a.familyId until_) p raw requestMeta where
  start := SessionHeld i a since
  checked := SessionRead i a since
  rotated := fun r _ _ => Renewed a since r
  success := Renewed a since
  failure := SessionLost a requestMeta
  presented := some i
  owner := True
  startContext := context_sessionHeld hactive hlives
  checkedContext := context_sessionRead hactive hlives
  rotatedStable := fun r _ _ => stable_renewed huntil r
  successStable := stable_renewed huntil
  failureStable := stable_sessionLost (overQuiet p a.familyId until_)
  there := fun v k hheld hk => ⟨a, Option.some.inj hk ▸ hheld.row, hhash⟩
  known := fun k b now g v hread _ => hread.2.1.2.1 ▸ hread.1.owner
  turn := fun v v' t₀ k b hwf _ hheld hlocks hfound hrun hacts hv' => by
    obtain ⟨rfl, rfl⟩ := same_hash hwf (hlocks.committed hfound.1) hheld.row
      (hfound.2.trans hhash.symm)
    refine ⟨(under_granted hrun).1, (under_granted hrun).2, ?_⟩
    subst hv'
    exact ⟨⟨hheld.row, hheld.owner, hheld.since⟩, ⟨rfl, rfl, hheld.since⟩, le_refl _⟩
  retried := fun v v' t₀ k b now g r _ _ hread _ _ hretry _ _ _ _ => by
    -- the grace window is only open for a revoked token
    have hwithin := hretry.within
    rw [hread.2.1.2.1, AuthService.withinGraceWindow, hactive] at hwithin
    cases hwithin
  rotation := fun v v' t₀ k b now g user s j _ _ hread hrotating _ hrun _ hv' => by
    refine ⟨(under_granted hrun).1, (under_granted hrun).2, ?_⟩
    obtain ⟨rfl, rfl, hsince⟩ := hread.2.1
    subst hv'
    refine ⟨j, successor rt b s requestMeta now t₀, ?_, rfl, rfl, rfl, rfl, rfl,
      Nat.add_le_add_right hsince TOKEN_TTL⟩
    rw [rotation_commit_tokens hrotating.writes, if_pos rfl]
  grace := fun v v' r s t _ _ hrenewed hrun _ hv' => by
    refine ⟨(under_granted hrun).1, (under_granted hrun).2, ?_⟩
    subst hv'
    exact hrenewed
  missing := fun _ _ hnone _ => by cases hnone
  rejected := fun v k b now g hread _ hwhy => by
    obtain ⟨-, ⟨-, rfl, -⟩, hnow⟩ := hread
    rcases hwhy with hexpired | ⟨hrevoked, -⟩ | ⟨-, hunlucky⟩
    · exact Or.inl (le_trans hexpired hnow)
    · rw [hactive] at hrevoked
      cases hrevoked
    · rcases hunlucky with hcollision | hip | howner
      · exact Or.inr (Or.inl hcollision)
      · exact Or.inr (Or.inr hip)
      · exact absurd trivial howner

end Refresh

/-- No refresh token is seeded. -/
theorem origin_token {i : Nat} {row : RefreshToken}
    (horigin : origin seed w Tbl.refreshTokens i = some row) :
    ∃ q, tokenBorn w.view i = some (q, row) := by
  rw [origin] at horigin
  cases hborn : w.view.store.born Tbl.refreshTokens i with
  | none =>
      rw [hborn] at horigin
      cases horigin
  | some b =>
      rw [hborn] at horigin
      obtain rfl := Option.some.inj horigin
      exact ⟨b.1, hborn⟩

section Session

variable {raw : String} {requestMeta : RequestMeta} {a : RefreshToken} {i : Nat}

/-- The steps of a run in which nobody else presents a token of the family. -/
theorem serves_leavesSession (hserves : Serves rt (boot rt seed) w) {p : Pid} {familyId : String}
    (hquiet : ∀ q req, q ≠ p → w'.requests q = some req → PresentsFamily seed w' familyId req →
      ∃ out, w.Ended q req out)
    {u u' : BackendWorld rt} {q : Pid} {choice : (platform rt).Choice} (hbefore : Serves rt w u)
    (hstep : u.step (handler rt) (.run q choice) = some u') (hafter : Serves rt u' w') :
    LeavesSession p familyId w'.view.store.clock u.view q u'.view := by
  have hmoves : Moves (handler rt) (Scope.any Incoming) u u' := ⟨.run q choice, hstep, trivial⟩
  have hreached : Serves rt (boot rt seed) u := hserves.trans hbefore
  constructor
  · intro hq k b hb hfamily hactive hlives
    rcases active_stays hreached hstep trivial hafter hb hactive
      (le_trans hlives (Nat.le_add_right _ _)) with
      hsame | ⟨q', choice', req, k', hact, hproc, hpresents⟩
    · exact hsame
    · obtain ⟨rfl, -⟩ := Action.run.inj hact
      have hreq := Reach.requests (Relation.ReflTransGen.head hmoves hafter)
        (Option.map_eq_some_iff.mpr ⟨_, hproc, rfl⟩)
      obtain ⟨out, hended⟩ := hquiet q req hq hreq (hfamily ▸ hpresents)
      obtain ⟨proc, hproc', -, hout⟩ := Reach.ended hbefore hended
      obtain rfl := Option.some.inj (hproc.symm.trans hproc')
      cases hout
  · intro k hthere
    obtain ⟨user, huser⟩ := Option.isSome_iff_exists.mp hthere
    obtain ⟨user', huser', -⟩ := hreached.lasts (Relation.ReflTransGen.single hmoves)
      (t := Tbl.users) (by decide) huser
    exact Option.isSome_iff_exists.mpr ⟨user', huser'⟩

/-- A refresh with the active token of a session, that arrives at `w`, is only ever answered
with the next token of the session, as long as no other request presents a token of the
family and the token has not expired. -/
theorem quiet_refresh_renews (hserves : Serves rt (boot rt seed) w)
    (ha : tokens w.view i = some a) (hactive : a.revokedAt = none)
    (hhash : a.tokenHash = rt.sha256 raw) (hip : requestMeta.ip.all rt.isInet = true)
    (hlater : Serves rt (w.call (handler rt) [.refresh raw requestMeta]) w')
    (hquiet : ∀ q req, q ≠ w.procs.length → w'.requests q = some req →
      PresentsFamily seed w' a.familyId req → ∃ out, w.Ended q req out)
    (hlive : w'.view.store.clock < a.expiresAt) (hfree : CollisionFree w'.view)
    {out : Except AppError Response}
    (hended : w'.Ended w.procs.length (.refresh raw requestMeta) out) :
    ∃ r, out = .ok (.session r) ∧ r.accessToken.accessToken.sub = a.userId ∧
      @Renewed rt a w.view.store.clock r w'.view := by
  have hcalled : Serves rt w (w.call (handler rt) [.refresh raw requestMeta]) :=
    World.call_reach w _ fun req hreq => by rw [List.mem_singleton.mp hreq]; trivial
  have harrived : Serves rt (boot rt seed) (w.call (handler rt) [.refresh raw requestMeta]) :=
    hserves.trans hcalled
  have hverified := reached_verified harrived.runs
  have howner : (w.view.store.stored Tbl.users a.userId).isSome = true :=
    (rows_chartered hserves).anchored.rows Tbl.refreshTokens i a ha (Tbl.users, a.userId)
      List.mem_cons_self (by decide : Tbl.Lasting .users)
  have hbase := reached_verified hserves.runs
  obtain ⟨q', b, hb, hfixed⟩ := hbase.inv.bornAs i a ha
  obtain ⟨huser, -, hhash', hexpires, -⟩ := fixed_eq hfixed
  -- the token has at most its whole lifetime left
  have huntil : w'.view.store.clock ≤ w.view.store.clock + TOKEN_TTL := by
    have hlifetime := hbase.inv.lifetime i q' b hb
    rw [hexpires] at hlifetime
    exact le_trans (Nat.le_of_lt hlive) hlifetime
  -- the run leaves the session to the call
  have hunder : Reach (handler rt)
      ((tokenLogic rt).under (LeavesSession w.procs.length a.familyId w'.view.store.clock)).scope
      (w.call (handler rt) [.refresh raw requestMeta]) w' :=
    (Reach.under (L := tokenLogic rt) (fun _ => Stable.const True) tokens_covered hverified
      (fun _ _ => trivial) (fun _ _ _ => trivial) hlater
      fun u u' q choice hbefore hstep _ hafter =>
        serves_leavesSession hserves hquiet (hcalled.trans hbefore) hstep hafter).1
  have htriple : (quietLogic rt w.procs.length a.familyId w'.view.store.clock).Triple
      w.procs.length (fun v => SessionHeld i a w.view.store.clock v ∧ Barren w.procs.length v)
      (handler rt (.refresh raw requestMeta))
      (ends (fun response v => ∃ r, response = .session r ∧
        Renewed a w.view.store.clock r v)
          fun _ => SessionLost a requestMeta) := by
    refine Triple.andThen ((quietRefresh hactive (Nat.le_of_lt hlive) huntil hhash).refresh_rule
      (overQuiet _ _ _) fun _ => trivial) (fun r => ?_) fun _ _ hlost => hlost
    exact Triple.ret (stable_renewed huntil r) fun v hrenewed => ⟨r, rfl, hrenewed⟩
  have hend := under_ended (under_call hbase (fun _ => trivial) rfl htriple
    ⟨⟨ha, howner, le_refl _⟩, barren_of_unused (hbase.fresh _ (le_refl _)).1⟩)
    (fun _ => trivial) hunder hended
  cases out with
  | error e =>
      rcases hend with hexpired | hcollision | hbad
      · exact absurd hlive (Nat.not_lt_of_le hexpired)
      · exact absurd hfree hcollision
      · rw [hip] at hbad
        cases hbad
  | ok response =>
      obtain ⟨r, rfl, hrenewed⟩ := hend
      refine ⟨r, rfl, ?_, hrenewed⟩
      have hreached : Serves rt (boot rt seed) w' := harrived.trans hlater
      obtain ⟨-, κ, -, -, ⟨k, row, ⟨hrow, hsame⟩, howns⟩, -⟩ :=
        vouched_of_ended hreached hended rfl
      -- the token that was presented is the row `i`
      obtain ⟨q, hq⟩ := origin_token hrow
      have hb' := (Reach.born (rows_chartered hserves).wf (hcalled.trans hlater) hb).2
      have hki := (reached_verified hreached.runs).inv.hashedOnce hfree k i q q' row b hq hb'
        (hsame.trans (hhash'.trans hhash).symm)
      subst hki
      obtain ⟨-, rfl⟩ := Prod.mk.inj (Option.some.inj (hq.symm.trans hb'))
      exact howns.symm.trans huser

end Session

theorem quiet_refresh_renews_back : ∃ (w w' : BackendWorld loginRuntime) (r : LoginResult),
    w'.Ended 1 (.refresh "T1" sampleMeta) (.ok (.session r)) ∧
      r.accessToken.accessToken.sub = 0 ∧
      Renewed (sampleToken "T1") w.view.store.clock r w'.view := by
  obtain ⟨w, hserves, hrow, hlen, -, w', hrun, hreqs, hclock, hended⟩ := sample_opened
  have hlater : Serves loginRuntime (w.call (handler loginRuntime) [.refresh "T1" sampleMeta])
      w' := by
    refine serves_of_run (fun a ha u u' => ?_) hrun
    rw [List.eq_of_mem_replicate ha]
    trivial
  obtain ⟨r, hr, hsub, hrenewed⟩ := quiet_refresh_renews hserves hrow rfl rfl rfl hlater
    (fun q req hq hreq hpresents => by
      have hat := requests_listed hreqs hreq
      rw [hlen] at hq
      rcases q with _ | _ | q
      · obtain rfl := Option.some.inj hat
        exact hpresents.elim
      · exact absurd rfl hq
      · cases hat)
    (by rw [hclock]; decide) (fun _ _ _ _ hhash => sampleSha256_injective hhash) (hlen ▸ hended)
  obtain rfl := Response.session.inj (Except.ok.inj hr)
  exact ⟨w, w', _, hended, hsub, hrenewed⟩

end Mes
