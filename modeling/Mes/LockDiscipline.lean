import Mes.Auth.TokenChains
import Mes.Lessons.Dashboard
import Mes.Transact.Climbing
import Mes.Transact.Waiting

/-!
The order in which requests take their locks. Purchases, invitations, users and enrolments
are written in this order, and a transaction on the refresh tokens takes them in ascending
order: in a family the active token is the youngest, so the response to a reused token holds
an older token than the one that it goes on to revoke.

The cleanup of the refresh tokens is left out of the order: it deletes rows, and goes back to
older rows after its first deletions.
-/

namespace Mes

open Transact Transact.Logic

variable {rt : Runtime} {seed : Seed} {w w' : BackendWorld rt}

/-! ### The active token of a family is the youngest -/

def FamilyOrder (v : BackendView rt) : Prop :=
  ∀ i j a b, tokens v i = some a → tokens v j = some b → a.revokedAt.isSome = true →
    b.revokedAt = none → b.familyId = a.familyId → i < j

theorem familyOrder_step {actor : Option Pid} {v v' : BackendView rt}
    (hstep : (tokenLogic rt).Step actor v v') (horder : FamilyOrder v) : FamilyOrder v' := by
  have hrule : TokenRule actor v v' := hstep.guar
  intro i j a b ha hb hrevoked hactive hfamily
  -- a revoked token was committed before this step
  obtain ⟨a₀, ha₀⟩ : ∃ a₀, tokens v i = some a₀ := by
    cases hi : tokens v i with
    | some a₀ => exact ⟨a₀, rfl⟩
    | none =>
        exfalso
        cases actor with
        | none =>
            rw [hrule.tokens, hi] at ha
            cases ha
        | some p =>
            have hnew := (hrule.appears i a hi ha).2.1
            rw [hnew] at hrevoked
            cases hrevoked
  have hfamily₀ : a.familyId = a₀.familyId := (fixed_eq (step_evolves hstep ha₀ ha).fixed).2.1
  have hbelow (k : Nat) (c : RefreshToken) (hc : tokens v k = some c) (hopen : c.revokedAt = none)
      (hsame : c.familyId = a₀.familyId) : i ≤ k := by
    cases hold : a₀.revokedAt with
    | none => exact (hstep.inv.activeUnique i k a₀ c ha₀ hc hold hopen hsame.symm).le
    | some r => exact (horder i k a₀ c ha₀ hc (by rw [hold]; rfl) hopen hsame).le
  have hdiffer : i ≠ j := by
    rintro rfl
    rw [ha] at hb
    rw [Option.some.inj hb, hactive] at hrevoked
    cases hrevoked
  cases hj : tokens v j with
  | some b₀ =>
      have hevolves := step_evolves hstep hj hb
      have hopen : b₀.revokedAt = none := by
        cases hold : b₀.revokedAt with
        | none => rfl
        | some r =>
            rw [hevolves.revoked r hold] at hactive
            cases hactive
      refine lt_of_le_of_ne (hbelow j b₀ hj hopen ?_) hdiffer
      rw [← (fixed_eq hevolves.fixed).2.1, hfamily, hfamily₀]
  | none =>
      rcases step_origin hstep hj hb with hroot | ⟨k, c, c', hc, hopen, hc', hto, -, hsame⟩
      · exact absurd (hroot i a (Or.inr ha) hfamily.symm) hdiffer
      · have hlater : k < j := (hstep.inv'.links k j c' hc' hto).1
        refine lt_of_le_of_lt (hbelow k c hc hopen ?_) hlater
        rw [← hsame, hfamily, hfamily₀]

theorem families_ordered (hruns : Runs rt (boot rt seed) w) : FamilyOrder w.view := by
  have hpath := (runs_verified (boot_verified rt seed) hruns).2
  refine hpath.preserves (fun _ _ _ hstep => familyOrder_step hstep) ?_
  intro i j a b ha
  cases ha

/-! ### The order of the locks -/

def Tbl.lockRank : Tbl → Nat
  | .purchases => 0
  | .invitations => 1
  | .idempotencyKeys => 2
  | .users => 2
  | .enrolments => 3
  | .refreshTokens => 0
  | .courses => 0
  | .lessons => 0

/-- What a transaction sees: rows that do not clash, and no active token below a revoked one
that it holds, unless it holds both. -/
structure InSight (held : Holdings (schema rt)) (s : Snapshot (schema rt)) : Prop where
  distinct : ∀ (t : Tbl) i j a b, s.get t i = some a → s.get t j = some b →
    t.clash a b = true → i = j
  younger : ∀ i h (a : RefreshToken), held Tbl.refreshTokens i = some h → h.base = some a →
    a.revokedAt.isSome = true → ∀ j (b : RefreshToken), s.get Tbl.refreshTokens j = some b →
      b.revokedAt = none → b.familyId = a.familyId → held Tbl.refreshTokens j = none → i < j

/-- The two tasks that a handler starts and does not wait for. -/
def Request.IsTask : Request → Prop
  | .revokeFamily _ => True
  | .rehashIfNeeded _ _ _ => True
  | _ => False

def lockOrder (rt : Runtime) : LockOrder (schema rt) (platform rt) where
  rank := Tbl.lockRank
  Shows := InSight
  careful := fun req => req ≠ .cleanup
  tasks := Request.IsTask

theorem honest_of_runs (hruns : Runs rt (boot rt seed) w) :
    (lockOrder rt).Honest w.view.store := by
  have hwf := (reached_verified hruns).wf
  intro p held now htracks
  constructor
  · intro t i j a b ha hb hclash
    exact hwf.seen_distinct ha hb hclash
  · intro i h a hheld hbase hrevoked j b hb hactive hfamily hfree
    have ha : tokens w.view i = some a :=
      (htracks.base held Tbl.refreshTokens i h rfl hheld).trans hbase
    have hseen : w.view.store.seen p Tbl.refreshTokens j = some b := hb
    rw [htracks.seen, hfree] at hseen
    exact families_ordered hruns i j a b ha hseen hrevoked hactive hfamily

/-! ### Every handler takes its locks in order -/

section Handlers

variable {α β : Type}

/-- Outside a transaction before and after. -/
abbrev Clear (strict : Prop) (x : Method rt α) : Prop :=
  (lockOrder rt).Climbs strict (fun _ H => H = none) (fun H => H = none) none x

variable {strict : Prop} {n m : Nat}

theorem clear_bind {x : Method rt β} {f : β → Method rt α} (hx : Clear strict x)
    (hf : ∀ b, Clear strict (f b)) : Clear strict (x >>= f) := by
  refine LockOrder.Climbs.andThen hx ?_
  rintro b H rfl
  exact hf b

theorem clear_apart {x : Method rt α} (hx : x.Uses (lockOrder rt).Apart) : Clear strict x :=
  climbs_apart hx

theorem clear_attempt {x : Method rt α} {handler : AppError → Method rt α}
    (hx : Clear strict x) (hhandler : ∀ e, Clear strict (handler e)) :
    Clear strict (Prog.attempt x handler) := by
  refine LockOrder.Climbs.attempt hx ?_
  rintro e H rfl
  exact hhandler e

theorem apart_findOne (t : Tbl) (where_ : Nat → t.Row → Bool) :
    (@BaseRepository.findOne rt t where_).Uses (lockOrder rt).Apart :=
  Prog.Uses.andThen apart_pool fun _ => trivial

theorem apart_findAll (t : Tbl) (where_ : Nat → t.Row → Bool) :
    (@BaseRepository.findAll rt t where_).Uses (lockOrder rt).Apart :=
  Prog.Uses.andThen apart_pool fun _ => trivial

theorem apart_node (op : NodeOp) : (nodeCall op : Method rt op.Res).Uses (lockOrder rt).Apart :=
  ⟨trivial, fun _ => trivial⟩

theorem apart_queries {x : Method rt α} (hx : x.Uses Call.Queries) :
    x.Uses (lockOrder rt).Apart :=
  hx.mono fun c hc => by
    cases c with
    | node op => trivial
    | fork req => exact hc.elim
    | sql stmt =>
        cases stmt with
        | read conn =>
            cases conn with
            | pool => trivial
            | manager => exact hc.elim
        | begin | commit | rollback | touch | insert => exact hc.elim

theorem rises_save {t : Tbl} (hn : n ≤ t.lockRank) (hm : t.lockRank < m)
    (row : Time → t.Row) : (lockOrder rt).Rises n m (@BaseRepository.save rt t row) :=
  rises_insert hn hm row

theorem rises_update {t : Tbl} {where_ : Time → t.Row → Bool}
    {set : Time → Change (schema rt) t} {ids : List Nat} (hn : n ≤ t.lockRank)
    (hm : t.lockRank < m) (hkeeps : ∀ now r, ((set now).apply r).isSome = true)
    (hascend : ids.Pairwise (· < ·)) :
    (lockOrder rt).Rises n m
      (Sql.touchEach (σ := schema rt) (P := platform rt) t where_ set [] ids) :=
  rises_touchEach hn hm hkeeps hascend []

/-- A row is inserted in a transaction of its own. -/
theorem clear_create (t : Tbl) (row : Time → t.Row) :
    Clear strict (@BaseRepository.create rt t row) :=
  climbs_transaction (rises_save (Nat.zero_le _) (Nat.lt_succ_self _) row)

theorem rises_revokeById (id : Nat) (replacedById : Option Nat) :
    (lockOrder rt).Rises 0 1 (@RefreshTokensRepository.revokeById rt id replacedById) := by
  refine rises_bind rises_read (fun s => ?_) (Nat.zero_le _)
  exact rises_map (rises_update (Nat.zero_le _) (by decide) (fun _ _ => rfl)
    (s.rows_ascend _ _)) _

theorem clear_issueRefreshToken (userId : Nat) (requestMeta : RequestMeta) :
    Clear strict (@AuthService.issueRefreshToken rt userId requestMeta) := by
  refine clear_bind (clear_apart (apart_node _)) fun raw =>
    clear_bind (clear_apart (apart_node _)) fun family =>
    clear_bind (clear_apart (apart_node _)) fun now => ?_
  refine clear_bind (climbs_transaction (m := 1) ?_) fun _ => rfl
  exact rises_map (rises_save (Nat.zero_le _) (by decide) _) _

/-- What is held when the presented token has been locked. -/
def presented (rt : Runtime) (row : Entity .refreshTokens) : Holdings (schema rt) :=
  Holdings.empty.lock Tbl.refreshTokens row.1 row.2 (some row.2)

theorem presented_held (row : Entity .refreshTokens) :
    presented rt row Tbl.refreshTokens row.1 =
      some { base := some row.2, draft := some row.2 } :=
  @Holdings.set_self (schema rt) Holdings.empty Tbl.refreshTokens row.1 _

theorem presented_below {row : Entity .refreshTokens} {place' : Place}
    (hlt : rowPlace (lockOrder rt).rank Tbl.refreshTokens false row.1 < place') :
    (presented rt row).Below (lockOrder rt).rank place' :=
  Holdings.lock_empty_below hlt

theorem climbs_selectForUpdate (hash : String) :
    (lockOrder rt).Climbs strict
      (fun found H => H.isSome = true ∧ ∀ row, found = some row → H = some (presented rt row))
      (fun H => H.isSome = true) (some Holdings.empty)
      (@RefreshTokensRepository.selectForUpdate rt hash) := by
  unfold RefreshTokensRepository.selectForUpdate Sql.sweep
  simp only [Prog.bind_eq, Prog.pure_eq, Prog.andThen_assoc]
  refine climbs_read rfl fun s hshows => ?_
  -- the hash is unique, so there is one row at most
  have hone : ∀ i ∈ Sql.matching s Tbl.refreshTokens (fun _ row => row.tokenHash == hash),
      ∀ j ∈ Sql.matching s Tbl.refreshTokens (fun _ row => row.tokenHash == hash), i = j := by
    intro i hi j hj
    obtain ⟨-, a, ha, hhash⟩ := Sql.mem_matching.mp hi
    obtain ⟨-, b, hb, hhash'⟩ := Sql.mem_matching.mp hj
    refine InSight.distinct hshows .refreshTokens i j a b ha hb ?_
    exact beq_iff_eq.mpr ((beq_iff_eq.mp hhash).trans (beq_iff_eq.mp hhash').symm)
  have hascend : (Sql.matching s Tbl.refreshTokens
    (fun _ row => row.tokenHash == hash)).Pairwise (· < ·) := s.rows_ascend _ _
  revert hone hascend
  generalize Sql.matching s Tbl.refreshTokens (fun _ row => row.tokenHash == hash) = ids
  intro hone hascend
  cases ids with
  | nil => exact ⟨rfl, nofun⟩
  | cons i rest =>
      obtain rfl : rest = [] := by
        refine List.eq_nil_iff_forall_not_mem.mpr fun j hj => ?_
        have hlt := (List.pairwise_cons.mp hascend).1 j hj
        exact absurd (hone i List.mem_cons_self j (List.mem_cons_of_mem i hj)) (Nat.ne_of_lt hlt)
      simp only [Sql.touchEach, Prog.andThen_assoc]
      refine climbs_touch (fun _ _ => rfl) (Or.inr (Holdings.empty_below _)) rfl ?_
      intro row held htouched
      cases row with
      | none =>
          rw [show held = Holdings.empty from htouched]
          exact ⟨rfl, nofun⟩
      | some r =>
          obtain ⟨now, -, -, rfl⟩ := htouched
          refine ⟨rfl, ?_⟩
          rintro row hrow
          obtain rfl : (i, r) = row := Option.some.inj hrow
          rfl

/-- The response to a reused token takes younger tokens only. -/
theorem climbs_revokeFamily {row : Entity .refreshTokens}
    (hrevoked : row.2.revokedAt.isSome = true) :
    (lockOrder rt).Climbs strict (fun _ H => H.isSome = true) (fun H => H.isSome = true)
      (some (presented rt row)) (@RefreshTokensRepository.revokeFamily rt row.2.familyId) := by
  unfold RefreshTokensRepository.revokeFamily Sql.sweep
  simp only [Prog.bind_eq, Prog.pure_eq, Prog.andThen_assoc]
  refine climbs_read rfl fun s hshows => ?_
  refine LockOrder.Climbs.andThen (S := fun _ H => H.isSome = true)
    (climbs_touchEach_open (σ := schema rt) (t := Tbl.refreshTokens) (fun _ _ => rfl)
      (Sql.matching_ascend s _ _) (fun j hj => ?_) []) fun _ _ hopen => hopen
  obtain ⟨-, b, hb, hmatches⟩ := Sql.mem_matching.mp hj
  obtain ⟨hfamily, hactive⟩ := Bool.and_eq_true_iff.mp hmatches
  cases hheld : presented rt row Tbl.refreshTokens j with
  | some h => exact Or.inl rfl
  | none =>
      refine Or.inr (presented_below (place_id ?_ false))
      exact InSight.younger hshows row.1 _ row.2 (presented_held row) rfl hrevoked j b hb
        (Option.isNone_iff_eq_none.mp hactive) (beq_iff_eq.mp hfamily) hheld

/-- A rotation inserts above the presented token, and touches no other. -/
theorem climbs_buildRotationPayload (row : Entity .refreshTokens) (requestMeta : RequestMeta)
    (now : Time) :
    (lockOrder rt).Climbs strict (fun _ H => H.isSome = true) (fun H => H.isSome = true)
      (some (presented rt row)) (@AuthService.buildRotationPayload rt row requestMeta now) := by
  refine climbs_after (apart_node _) rfl fun newRaw => ?_
  refine climbs_insert (presented_below (place_fresh _ _)) rfl fun i new => ?_
  have hheld : ((presented rt row).add Tbl.refreshTokens i new Tbl.refreshTokens row.1).isSome =
      true :=
    Holdings.set_isSome (by rw [presented_held]; rfl)
  refine LockOrder.Climbs.andThen (S := fun _ H => H.isSome = true) ?_ ?_
  · refine climbs_read rfl fun s _ => ?_
    refine LockOrder.Climbs.andThen (climbs_touchEach_open (fun _ _ => rfl)
      (s.rows_ascend _ _) (fun j hj => Or.inl ?_) []) fun _ _ hopen => hopen
    obtain ⟨found, hfound, rfl⟩ := List.mem_map.mp hj
    have hpicked := (Bool.and_eq_true_iff.mp (List.mem_filter.mp hfound).2).1
    rw [beq_iff_eq.mp hpicked]
    exact hheld
  · intro _ H hopen
    refine climbs_after (apart_findOne _ _) hopen fun user => ?_
    cases user with
    | none => exact climbs_after ⟨trivial, fun _ => trivial⟩ hopen fun _ => hopen
    | some user => exact hopen

theorem climbs_handleRevokedToken {row : Entity .refreshTokens}
    (hrevoked : row.2.revokedAt.isSome = true) (hash : String) (requestMeta : RequestMeta)
    (now : Time) (graceCache : String → Option GraceEntry) :
    (lockOrder rt).Climbs strict (fun _ H => H.isSome = true) (fun H => H.isSome = true)
      (some (presented rt row))
      (@AuthService.handleRevokedToken rt row.2 hash requestMeta now graceCache) := by
  unfold AuthService.handleRevokedToken
  dsimp only
  split
  · refine climbs_after (apart_findOne _ _) rfl fun user => ?_
    cases user <;> exact rfl
  · exact LockOrder.Climbs.andThen (climbs_revokeFamily hrevoked) fun _ _ hopen => hopen

theorem clear_refresh (rawToken : String) (requestMeta : RequestMeta) :
    Clear strict (@AuthService.refresh rt rawToken requestMeta) := by
  refine clear_bind (LockOrder.Climbs.transaction ?_) fun outcome => ?_
  · refine LockOrder.Climbs.andThen (climbs_selectForUpdate _) fun found H hfound => ?_
    cases found with
    | none => exact hfound.1
    | some row =>
        rw [hfound.2 row rfl]
        refine climbs_after (apart_node _) rfl fun instant => ?_
        dsimp only
        split
        · exact rfl
        · split
          · rename_i hrevoked
            exact LockOrder.Climbs.andThen (climbs_handleRevokedToken hrevoked _ _ _ _)
              fun _ _ hopen => hopen
          · exact climbs_buildRotationPayload row requestMeta _
  · cases outcome with
    | retried result => exact rfl
    | rotated result newRaw newExpiresAt =>
        exact clear_bind (clear_apart (apart_node _)) fun _ => rfl

theorem clear_logout (rawToken : Option String) :
    Clear strict (@AuthService.logout rt rawToken) := by
  unfold AuthService.logout
  cases rawToken with
  | none => exact rfl
  | some raw =>
      dsimp only
      split
      · exact rfl
      · refine clear_bind (clear_apart (apart_findOne _ _)) fun found => ?_
        cases found with
        | none => exact rfl
        | some row =>
            dsimp only
            split
            · exact rfl
            · exact climbs_transaction (rises_map (rises_revokeById _ _) _)

theorem clear_signup (input : SignupDto) (requestMeta : RequestMeta) :
    Clear strict (@AuthService.signup rt input requestMeta) := by
  refine clear_bind (clear_apart (apart_findOne _ _)) fun found => ?_
  cases found with
  | some user => exact rfl
  | none =>
      refine clear_bind (clear_apart (apart_node _)) fun passwordHash => clear_bind ?_ fun user =>
        clear_bind (clear_issueRefreshToken _ _) fun _ => rfl
      refine clear_attempt (clear_create _ _) fun error => ?_
      split <;> exact rfl

theorem clear_login (input : LoginDto) (requestMeta : RequestMeta) :
    Clear strict (@AuthService.login rt input requestMeta) := by
  refine clear_bind (clear_apart (apart_findOne _ _)) fun found => ?_
  cases found with
  | none => exact rfl
  | some user =>
      refine clear_bind (clear_apart ?_) fun matched => ?_
      · unfold argon2Verify
        split <;> trivial
      · split
        · exact rfl
        · exact clear_bind (clear_apart ⟨trivial, fun _ => trivial⟩) fun _ =>
            clear_bind (clear_issueRefreshToken _ _) fun _ => rfl

theorem clear_rehashIfNeeded (userId : Nat) (passwordHash plain : String) :
    Clear strict (@AuthService.rehashIfNeeded rt userId passwordHash plain) := by
  unfold AuthService.rehashIfNeeded
  split
  · exact rfl
  · refine clear_attempt (clear_bind (clear_apart (apart_node _)) fun fresh => ?_) fun _ => rfl
    refine climbs_transaction (m := 3) (rises_bind rises_read (fun s => ?_) (Nat.zero_le _))
    exact rises_map (rises_update (Nat.zero_le _) (by decide) (fun _ _ => rfl)
      (s.rows_ascend _ _)) _

theorem clear_revokeFamilyTask (familyId : String) :
    Clear strict (@AuthService.revokeFamilyTask rt familyId) := by
  refine clear_attempt (climbs_transaction (m := 1) ?_) fun _ => rfl
  refine rises_map (rises_map (rises_bind rises_read (fun s => ?_) (Nat.zero_le _)) _) _
  exact rises_update (Nat.zero_le _) (by decide) (fun _ _ => rfl)
    (Sql.matching_ascend s _ _)

theorem clear_process (job : InvitationEmailJob) :
    Clear strict ((InvitationEmailProcessor.process job).method : Method rt _) := by
  rw [process_method]
  refine clear_bind (clear_apart (apart_findOne _ _)) fun found => ?_
  split
  · refine clear_bind (climbs_transaction (m := 2) ?_) fun _ => rfl
    refine rises_bind rises_read (fun s => ?_) (Nat.zero_le _)
    exact rises_map (rises_update (Nat.zero_le _) (by decide) (fun _ _ => rfl)
      (s.rows_ascend _ _)) _
  · exact rfl

/-- The cleanup ends its transaction, and that is all. -/
theorem clear_runCleanup : Clear False (@AuthService.runCleanup rt) := by
  have hsweep (where_ : Time → RefreshToken → Bool)
      (set : Time → Change (schema rt) Tbl.refreshTokens) :
      (Sql.sweep Tbl.refreshTokens where_ set : Method rt _).Uses Call.Plain :=
    Prog.Uses.andThen (Prog.plain_read .manager) fun _ => Prog.plain_touchEach _ _ _ _ _
  have hdelete (where_ : Time → RefreshToken → Bool) :
      (@RefreshTokensRepository.deleteWhere rt where_).Uses Call.Plain :=
    Prog.Uses.andThen (hsweep _ _) fun _ => Prog.Uses.andThen (hsweep _ _) fun _ => trivial
  refine clear_bind (LockOrder.Climbs.transaction (loose_plain ?_)) fun counts => ?_
  · exact Prog.Uses.andThen (hdelete _) fun _ => Prog.Uses.andThen (hdelete _) fun _ => trivial
  · exact clear_bind (clear_bind (clear_apart apart_pool) fun _ => rfl) fun _ => rfl

theorem clear_requireRole (user : JwtPayload) (role : UserRole) {next : Method rt Response}
    (hnext : Clear strict next) :
    Clear strict (PurchasesController.requireRole user role next) := by
  unfold PurchasesController.requireRole
  split
  · exact hnext
  · exact rfl

theorem apart_findCourseOrThrow (courseId : Nat) :
    (@PurchasesService.findCourseOrThrow rt courseId).Uses (lockOrder rt).Apart := by
  refine Prog.Uses.andThen (apart_findOne _ _) fun found => ?_
  cases found <;> trivial

/-- A purchase, its invitation and its idempotency row, in this order. -/
theorem clear_runCreateTransaction (args : PurchasesService.CreateArgs)
    (course : Entity .courses) :
    Clear strict (@PurchasesService.runCreateTransaction rt args course) := by
  refine climbs_transaction (m := 3) ?_
  refine rises_bind (k := 1) (rises_save (Nat.zero_le _) (by decide) _) (fun purchase => ?_)
    (by decide)
  refine rises_bind (k := 2) ?_ (fun issued => ?_) (by decide)
  · refine rises_bind (rises_apart (apart_node _) (le_refl 1)) (fun _ => ?_) (by decide)
    refine rises_bind (rises_apart (apart_node _) (le_refl 1)) (fun _ => ?_) (by decide)
    exact rises_map (rises_save (by decide) (by decide) _) _
  · refine rises_map (rises_attempt (rises_save (by decide) (by decide) _) fun error => ?_) _
    split
    · refine rises_bind (rises_apart (apart_findOne _ _) (le_refl 3)) (fun existing => ?_)
        (le_refl 3)
      split <;> exact rises_throw _ (le_refl 3)
    · exact rises_throw _ (le_refl 3)

theorem clear_post (user : JwtPayload) (header : Option String) (body : String) :
    Clear strict (@PurchasesController.post rt user header body) := by
  refine clear_requireRole user .parent ?_
  unfold IdempotencyInterceptor.intercept
  split
  · exact rfl
  · split
    · exact rfl
    · refine clear_bind (clear_apart (apart_findOne _ _)) fun found => ?_
      cases found with
      | some existing =>
          dsimp only
          split <;> exact rfl
      | none =>
          dsimp only
          unfold PurchasesController.create
          split
          · exact rfl
          · refine clear_bind ?_ fun _ => rfl
            refine clear_bind (clear_apart (apart_findCourseOrThrow _)) fun course =>
              clear_bind (clear_apart ?_) fun _ => ?_
            · refine Prog.Uses.andThen (Prog.Uses.andThen apart_pool fun _ => trivial)
                fun found => ?_
              split <;> trivial
            · exact clear_bind (clear_runCreateTransaction _ _) fun result =>
                clear_bind (clear_bind (clear_apart (apart_node _)) fun _ => rfl) fun _ => rfl

theorem clear_listMine (user : JwtPayload) :
    Clear strict (@PurchasesController.listMine rt user) := by
  have hcourses (ids : List Nat) :
      (@PurchasesService.coursesByIds rt ids).Uses (lockOrder rt).Apart := by
    induction ids with
    | nil => trivial
    | cons id rest ih =>
        exact Prog.Uses.andThen (apart_findCourseOrThrow id) fun _ =>
          Prog.Uses.andThen ih fun _ => trivial
  refine clear_requireRole user .parent (clear_bind (clear_apart ?_) fun _ => rfl)
  refine Prog.Uses.andThen (Prog.Uses.andThen (apart_findAll _ _) fun _ => trivial)
    fun purchases => ?_
  split
  · trivial
  · refine Prog.Uses.andThen (hcourses _) fun courses => Prog.Uses.andThen ?_ fun invitations => ?_
    · unfold InvitationsRepository.findManyByPurchaseIds
      split
      · trivial
      · exact apart_findAll _ _
    · split <;> trivial

/-- The conditional update of an invitation. -/
theorem rises_resolveOrThrow (tokenHash : String) :
    (lockOrder rt).Rises 0 2 (@InvitationsService.resolveOrThrow rt tokenHash) := by
  refine rises_bind (k := 2) ?_ (fun redeemed => ?_) (le_refl 2)
  · refine rises_bind rises_read (fun s => ?_) (Nat.zero_le _)
    exact rises_map (rises_update (Nat.zero_le _) (by decide) (fun _ _ => rfl)
      (Sql.matching_ascend s _ _)) _
  · cases redeemed with
    | some redeemed => exact rises_ret _ (le_refl 2)
    | none =>
        refine rises_bind (rises_apart (apart_findOne _ _) (le_refl 2)) (fun found => ?_)
          (le_refl 2)
        cases found with
        | none => exact rises_throw _ (le_refl 2)
        | some existing =>
            dsimp only
            split <;> exact rises_throw _ (le_refl 2)

theorem rises_resolveCourseId (invitation : Entity .invitations) :
    (lockOrder rt).Rises n n (@InvitationsService.resolveCourseId rt invitation) := by
  refine rises_bind rises_read (fun s => ?_) (le_refl n)
  split
  · exact rises_throw _ (le_refl n)
  · exact rises_ret _ (le_refl n)

theorem rises_insertEnrolment (hn : n ≤ 3) (input : Enrolment) :
    (lockOrder rt).Rises n 4 (@EnrolmentsRepository.insertWithinTransaction rt input) := by
  refine rises_attempt (rises_save hn (by decide) _) fun error => ?_
  split <;> exact rises_throw _ (le_refl 4)

theorem rises_redeemForExistingUser (invitation : Entity .invitations)
    (existingUser : Entity .users) (password : String) :
    (lockOrder rt).Rises 2 4
      (@InvitationsService.redeemForExistingUser rt invitation existingUser password) := by
  unfold InvitationsService.redeemForExistingUser
  split
  · exact rises_throw _ (by decide)
  · split
    · exact rises_throw _ (by decide)
    · refine rises_bind (rises_resolveCourseId _) (fun courseId => ?_) (by decide)
      refine rises_map (rises_attempt (rises_map (rises_insertEnrolment (by decide) _) _)
        fun error => ?_) _
      split
      · exact rises_ret _ (le_refl 4)
      · exact rises_throw _ (le_refl 4)

theorem rises_redeemForNewUser (invitation : Entity .invitations)
    (params : RedeemInvitationDto) :
    (lockOrder rt).Rises 2 4 (@InvitationsService.redeemForNewUser rt invitation params) := by
  unfold InvitationsService.redeemForNewUser
  split
  · exact rises_throw _ (by decide)
  · refine rises_bind (rises_apart (apart_node _) (le_refl 2)) (fun passwordHash => ?_)
      (by decide)
    refine rises_bind (k := 3) ?_ (fun student => ?_) (by decide)
    · refine rises_attempt (rises_save (by decide) (by decide) _) fun error => ?_
      split <;> exact rises_throw _ (le_refl 3)
    · refine rises_bind (rises_resolveCourseId _) (fun courseId => ?_) (by decide)
      exact rises_map (rises_insertEnrolment (le_refl 3) _) _

/-- An invitation, the new account and its enrolment, in this order. -/
theorem clear_redeem (dto : RedeemInvitationDto) :
    Clear strict (@InvitationsService.redeem rt dto) := by
  refine clear_bind (climbs_transaction (m := 4) ?_) fun _ => rfl
  refine rises_bind (rises_resolveOrThrow _) (fun invitation => ?_) (by decide)
  refine rises_bind (rises_apart (apart_findOne _ _) (le_refl 2)) (fun existing => ?_)
    (by decide)
  cases existing with
  | some student => exact rises_redeemForExistingUser _ _ _
  | none => exact rises_redeemForNewUser _ _

end Handlers

/-- Every request keeps to the order, the cleanup apart. -/
theorem handlers_disciplined (rt : Runtime) : (lockOrder rt).Disciplined (handler rt) := by
  have hdone {α β : Type} {strict : Prop} {x : Method rt α} {f : α → β}
      (hx : Clear strict x) : Clear strict (x >>= fun a => pure (f a)) :=
    clear_bind hx fun _ => rfl
  intro req
  show Clear (req ≠ .cleanup) (handler rt req)
  cases req with
  | signup input requestMeta => exact hdone (clear_signup _ _)
  | login input requestMeta => exact hdone (clear_login _ _)
  | refresh rawToken requestMeta => exact hdone (clear_refresh _ _)
  | logout rawToken => exact hdone (clear_logout _)
  | cleanup =>
      rw [eq_false (fun hne : Request.cleanup ≠ .cleanup => hne rfl)]
      exact clear_runCleanup
  | createPurchase user idempotencyKey body => exact clear_post _ _ _
  | listMine user => exact clear_listMine _
  | redeem dto => exact hdone (clear_redeem _)
  | listLessonsForCourse user courseId =>
      exact clear_requireRole user .student
        (hdone (clear_apart (apart_queries (reads_findLessonsForCourse _ _))))
  | getLesson user lessonId =>
      exact clear_requireRole user .student
        (hdone (clear_apart (apart_queries (reads_findLessonById _ _))))
  | sendInvitationEmail job => exact clear_bind (clear_process job) fun _ => rfl
  | revokeFamily familyId => exact hdone (clear_revokeFamilyTask _)
  | rehashIfNeeded userId passwordHash plain => exact hdone (clear_rehashIfNeeded _ _ _)

end Mes
