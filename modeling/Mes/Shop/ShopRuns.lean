import Mes.Auth.TokenChains
import Mes.Shop.ListingProof
import Mes.Shop.PurchaseProof
import Mes.Shop.RedeemCall
import Mes.Transact.Alone

/-!
Runs of the shop. Every request keeps to the rules of the shop: a sale and a
redemption by their own proofs, the worker of the email queue because it marks
committed invitations and does nothing else, every other request because its footprint leaves the
tables of the shop alone. So a run from the seeded tables keeps the shop sound, and a
request that has ended satisfies its postcondition.

The postconditions are relative to an earlier moment of the run. A request that
arrived after that moment has found everything that was committed by then.
-/

namespace Mes

open Transact Transact.Logic

variable {rt : Runtime} {sc : Scope (schema rt) (platform rt)} {p : Pid}

/-! ### Requests that leave the shop alone -/

/-- The tables of the shop, except the accounts. -/
def shopTables : List Tbl := [.courses, .purchases, .invitations, .idempotencyKeys, .enrolments]

/-- The footprint meets the shop in its accounts only. -/
structure Aside (fp : Footprint) : Prop where
  queue : fp.queue = false
  tables : ∀ t ∈ shopTables, t ∉ fp.tables

/-- The transaction of `p` has written none of the tables. -/
def Clean (p : Pid) (v : BackendView rt) : Prop :=
  ∀ t ∈ shopTables, ∀ i, v.store.draft p t i = none

theorem stable_clean {L : Logic (schema rt) (platform rt)} : L.Stable p (Clean p) := by
  intro actor v v' hactor hstep hclean t ht i
  rw [(hstep.own_tx hactor).2]
  exact hclean t ht i

theorem clean_of_unused {v : BackendView rt} (hunused : Unused p v) : Clean p v := by
  intro t _ i
  rw [hunused.idle.2]
  rfl

/-- Only one operation on the memory changes the queue. -/
theorem exec_queue {now : Time} {op : NodeOp} {choice : Choice} {m m' : Memory}
    {res : op.Res} (hexec : Memory.exec rt p now op choice m = some (res, m')) :
    m'.invitationEmailQueue = m.invitationEmailQueue ∨ ∃ job, op = .addJob job := by
  cases op with
  | addJob job => exact Or.inr ⟨job, rfl⟩
  | randomBytes | randomUUID => exact Or.inl (mint_queue hexec)
  | turn | argon2Hash | setGraceEntry =>
      obtain ⟨-, rfl⟩ := Prod.mk.inj (Option.some.inj hexec)
      exact Or.inl rfl

/-- An operation within such a footprint leaves the tables and the queue alone. -/
theorem aside_exec {fp : Footprint} (haside : Aside fp) {v v' : BackendView rt}
    {choice : Choice} {c : Call (schema rt) (platform rt)} {res : c.Res}
    (hc : fp.allows c) (hwf : v.store.Wf) (hclean : Clean p v)
    (hexec : v.exec p choice c = some (res, v')) :
    (∀ t ∈ shopTables, v'.store.stored t = v.store.stored t) ∧
      v'.mem.invitationEmailQueue = v.mem.invitationEmailQueue ∧ Clean p v' := by
  cases c with
  | sql stmt =>
      obtain ⟨hstmt, hmem, -⟩ := View.exec_sql hexec
      have hwrites (t : Tbl) (ht : t ∈ shopTables) : ¬ Store.WritesTo t stmt := by
        intro hwrites
        cases stmt with
        | touch t' id where_ set =>
            obtain rfl : t' = t := hwrites
            exact haside.tables t' ht hc
        | insert t' row =>
            obtain rfl : t' = t := hwrites
            exact haside.tables t' ht hc
        | begin | commit | rollback | read => exact hwrites
      have htable (t : Tbl) (ht : t ∈ shopTables) :=
        Store.exec_elsewhere hwf hstmt (hwrites t ht) (hclean t ht)
      exact ⟨fun t ht => (htable t ht).1, by rw [hmem], fun t ht => (htable t ht).2.2⟩
  | node op =>
      obtain ⟨hop, hstore, -⟩ := View.exec_node hexec
      refine ⟨fun t _ => by rw [hstore], ?_, fun t ht i => ?_⟩
      · rcases exec_queue hop with hsame | ⟨job, rfl⟩
        · exact hsame
        · have hqueue : fp.queue = true := hc
          rw [haside.queue] at hqueue
          cases hqueue
      · rw [hstore]
        exact hclean t ht i
  | fork req =>
      obtain ⟨hstore, hmem, -⟩ := View.exec_fork hexec
      refine ⟨fun t _ => by rw [hstore], by rw [hmem], fun t ht i => ?_⟩
      rw [hstore]
      exact hclean t ht i

/-- The accounts change only as their rows may. -/
theorem accounts_step {v v' : BackendView rt} (hrevises : (rowVersions rt).Revises p v v')
    (htables : ∀ t ∈ shopTables, v'.store.stored t = v.store.stored t)
    (hqueue : v'.mem.invitationEmailQueue = v.mem.invitationEmailQueue) :
    Shop.Step rt (shop v) (shop v') := by
  have hshop : shop v' = { shop v with users := v'.store.stored Tbl.users } := by
    unfold shop
    rw [htables .courses (by simp [shopTables]), htables .purchases (by simp [shopTables]),
      htables .invitations (by simp [shopTables]),
      htables .idempotencyKeys (by simp [shopTables]),
      htables .enrolments (by simp [shopTables]), hqueue]
  rw [hshop]
  refine .accounts _ fun id user huser => ?_
  rcases hrevises Tbl.users id user huser with hsame | hreplaces
  · rw [hsame]
    exact ⟨user.passwordHash, rfl⟩
  · obtain ⟨y, -, hallowed⟩ := hreplaces.allowed
    exact hallowed

/-- The frame rule of the shop. -/
theorem aside_rule {fp : Footprint} (haside : Aside fp) {α : Type} {x : Method rt α}
    (hwithin : Within fp x) : (shopLogic rt sc).Triple p (Clean p) x fun _ => Clean p := by
  refine Triple.uses hwithin stable_clean ?_
  intro v choice c res v' hc hwf hinv hclean hexec hrun
  obtain ⟨htables, hqueue, hclean'⟩ := aside_exec haside hc hwf hclean hexec
  have hmove := accounts_step hrun.guar.2 htables hqueue
  refine ⟨by cases c <;> trivial, hmove.sound hinv, ⟨⟨hrun.guar.2, Or.inl hqueue, Or.inr hmove⟩,
    fun q hq => by rwa [← Option.some.inj hq]⟩, hclean'⟩

/-! ### Accounts -/

/-- The account is committed, and `p` has inserted it. -/
def SignedUp (p : Pid) (id : Nat) (v : BackendView rt) : Prop :=
  (∃ user, v.store.stored Tbl.users id = some user) ∧
    ∃ r, v.store.born Tbl.users id = some (p, r)

theorem persistent_signedUp {L : Logic (schema rt) (platform rt)} (hL : OverShop L) (id : Nat) :
    L.Persistent (SignedUp p id) := by
  intro actor v v' hstep hsigned
  obtain ⟨⟨user, huser⟩, r, hborn⟩ := hsigned
  obtain ⟨user', huser', -⟩ :=
    persistent_user hL id user.email user.role actor v v' hstep ⟨user, huser, rfl, rfl⟩
  exact ⟨⟨user', huser'⟩, r, hstep.born_kept hborn⟩

/-- The account that `p` has inserted into its open transaction. -/
def Opening (p : Pid) (id : Nat) (v : BackendView rt) : Prop :=
  ∃ t₀ r, Inside p t₀ (Drafts.empty.set Tbl.users id (some r)) v ∧
    v.store.born Tbl.users id = some (p, r)

theorem stable_opening {L : Logic (schema rt) (platform rt)} (id : Nat) :
    L.Stable p (Opening p id) := by
  intro actor v v' hactor hstep hopening
  obtain ⟨t₀, r, hinside, hborn⟩ := hopening
  exact ⟨t₀, r, stable_inside t₀ _ actor v v' hactor hstep hinside, hstep.born_kept hborn⟩

/-- The commit of an account. -/
theorem opening_commit {v : BackendView rt} {id : Nat} (hopening : Opening p id v)
    (e : Event (schema rt) (platform rt)) :
    SignedUp p id (v.put p e (v.store.finish p true)) ∧
      Clean p (v.put p e (v.store.finish p true)) ∧
      ∀ t ∈ shopTables, (v.store.finish p true).stored t = v.store.stored t := by
  obtain ⟨t₀, r, hinside, hborn⟩ := hopening
  have hstored (t : Tbl) : (v.store.finish p true).stored t =
      ((Drafts.empty : Drafts (schema rt)).set Tbl.users id (some r)).onto v.store.stored t := by
    rw [Store.finish_stored_keep, hinside.2]
  refine ⟨⟨⟨r, ?_⟩, r, hborn⟩, fun t _ i => ?_, fun t ht => ?_⟩
  · rw [View.put_store, hstored, Drafts.onto_set_same, Function.update_self]
  · rw [View.put_store, Store.finish_draft_self]
    rfl
  · have htable : t ≠ Tbl.users := by
      rintro rfl
      simp [shopTables] at ht
    rw [hstored, Drafts.onto_set_other _ _ _ _ htable, Drafts.onto_empty]

theorem insertParent_rule (user : User) :
    (shopLogic rt sc).Triple p (Clean p) (AuthService.insertParent user)
      (ends (fun row v => Clean p v ∧ SignedUp p row.1 v) fun _ _ => True) := by
  refine Triple.attempt (Q := ends (fun row v => Clean p v ∧ SignedUp p row.1 v)
    fun _ _ => True) ?_ (fun _ _ hends => hends) fun e => ?_
  · refine Triple.transaction (B := fun t₀ => Inside p t₀ Drafts.empty)
      (C := fun row => Opening p row.1) (E := fun _ _ => True) stable_clean ?_ (fun t₀ => ?_)
      (fun row => ?_) fun e => ?_
    · intro v hwf _ _ hclosed
      exact ⟨Store.setTx_tx_self v.store p _, (idle_of_closed hwf hclosed).2⟩
    · refine Triple.post (save_rule (R := fun id => Opening p id) (E := fun _ _ => True)
        (overShop rt sc) (stable_inside t₀ Drafts.empty) (fun v hinside => ⟨_, hinside⟩)
        (fun id => stable_opening id) (fun _ => Stable.const True) ?_
        fun _ _ _ _ _ _ _ _ _ _ _ => trivial) ?_
      · intro v W hwf _ hinside _ _
        refine ⟨t₀, _, inside_push hinside _ Tbl.users _, ?_⟩
        rw [View.put_store, Store.push_born_self, if_pos rfl]
      · rintro (e | row) v hends
        · trivial
        · exact hends.2
    · refine Triple.commit (R := fun v => Clean p v ∧ SignedUp p row.1 v)
        (stable_opening row.1) (fun v hopening => ?_) ?_ ?_
      · obtain ⟨t₀, r, hinside, -⟩ := hopening
        exact ⟨t₀, _, hinside⟩
      · intro v v' hwf hinv hopening hrun _ hv'
        subst hv'
        obtain ⟨hsigned, hclean, htables⟩ := opening_commit hopening ⟨.sql .commit, true⟩
        have hmove := accounts_step hrun.guar.2 htables rfl
        exact ⟨hmove.sound hinv, ⟨⟨hrun.guar.2, Or.inl rfl, Or.inr hmove⟩,
          fun q hq => by rwa [← Option.some.inj hq]⟩, hclean, hsigned⟩
      · exact Triple.ret (stable_clean.and (persistent_signedUp (overShop rt sc) _).stable)
          fun v hends => hends
    · refine Triple.rollback (R := fun _ => True) (Stable.const True) (fun _ _ _ _ => trivial) ?_
      exact Triple.throw (Stable.const True) fun _ _ => trivial
  · split <;> exact Triple.throw (Stable.const True) fun _ _ => trivial

/-- A successful signup has committed its account. -/
theorem signup_shop_rule (input : SignupDto) (requestMeta : RequestMeta) :
    (shopLogic rt sc).Triple p (Clean p) (AuthService.signup input requestMeta)
      (ends (fun result v => SignedUp p result.accessToken.accessToken.sub v)
        fun _ _ => True) := by
  have hframe {fp : Footprint} (haside : Aside fp) {α : Type} {x : Method rt α}
      (hkeeps : Keeps fp x) : (shopLogic rt sc).Triple p (Clean p) x fun _ => Clean p :=
    aside_rule haside hkeeps.within
  have hnothing : Aside {} := ⟨rfl, by simp⟩
  refine Triple.andThen (hframe hnothing (keeps_findOne _ _)) (fun found => ?_)
    fun _ _ _ => trivial
  cases found with
  | some user => exact Triple.throw stable_clean fun _ _ => trivial
  | none =>
      refine Triple.andThen (hframe hnothing (keeps_hashPassword _)) (fun digest => ?_)
        fun _ _ _ => trivial
      refine Triple.andThen (insertParent_rule _) (fun user => ?_) fun _ _ _ => trivial
      have htokens : Aside { tables := [.refreshTokens] } := ⟨rfl, by simp [shopTables]⟩
      refine Triple.andThen (Triple.persist (persistent_signedUp (overShop rt sc) user.1)
        (hframe htokens (keeps_issueRefreshToken (by simp) _ _))) (fun pair => ?_)
        fun _ _ _ => trivial
      exact Triple.ret (stable_clean.and (persistent_signedUp (overShop rt sc) _).stable)
        fun v hsigned => hsigned.2

/-! ### Emails -/

/-- The open transaction of `p` has marked committed invitations, and that is all. -/
structure Marking (p : Pid) (t₀ : Time) (W : Drafts (schema rt)) (v : BackendView rt) : Prop where
  inside : Inside p t₀ W v
  apart : ∀ t, t ≠ Tbl.invitations → ∀ j, W t j = none
  marks : ∀ j x, W Tbl.invitations j = some x → ∃ I, v.store.stored Tbl.invitations j = some I ∧
    x = some (InvitationsRepository.setEmailSentAt t₀ I)

theorem stable_marking {L : Logic (schema rt) (platform rt)} (t₀ : Time) :
    L.Stable p fun v => ∃ W, Marking p t₀ W v := by
  rintro actor v v' hactor hstep ⟨W, hmarking⟩
  refine ⟨W, stable_inside t₀ W actor v v' hactor hstep hmarking.inside, hmarking.apart, ?_⟩
  intro j x hx
  obtain ⟨I, hI, hmark⟩ := hmarking.marks j x hx
  have hdraft : v.store.draft p Tbl.invitations j = some x := by rw [hmarking.inside.2, hx]
  exact ⟨I, by rw [hstep.stored_locked hactor hdraft]; exact hI, hmark⟩

theorem Marking.put {t₀ : Time} {W : Drafts (schema rt)} {v : BackendView rt}
    (hmarking : Marking p t₀ W v) (e : Event (schema rt) (platform rt)) :
    Marking p t₀ W (v.put p e v.store) :=
  ⟨hmarking.inside, hmarking.apart, hmarking.marks⟩

/-- A row that is marked again is still a committed row with a mark. -/
theorem Marking.hold {t₀ : Time} {W : Drafts (schema rt)} {v : BackendView rt}
    (hmarking : Marking p t₀ W v) {id : Nat} {r : Invitation}
    (hseen : (W Tbl.invitations id).getD (v.store.stored Tbl.invitations id) = some r)
    (e : Event (schema rt) (platform rt)) :
    Marking p t₀ (W.set Tbl.invitations id (some (InvitationsRepository.setEmailSentAt t₀ r)))
      (v.put p e (v.store.hold p Tbl.invitations id
        (some (InvitationsRepository.setEmailSentAt t₀ r)))) where
  inside := inside_hold hmarking.inside e Tbl.invitations id _
  apart := fun t ht j => by
    rw [Drafts.set_other _ _ _ ht]
    exact hmarking.apart t ht j
  marks := fun j x hx => by
    rw [View.put_store, Store.hold_stored]
    rw [Drafts.set_apply] at hx
    split at hx
    · rename_i hsame
      subst hsame
      obtain rfl := Option.some.inj hx
      cases hdraft : W Tbl.invitations j with
      | none =>
          rw [hdraft] at hseen
          exact ⟨r, hseen, rfl⟩
      | some y =>
          rw [hdraft] at hseen
          obtain ⟨I, hI, rfl⟩ := hmarking.marks j y hdraft
          obtain rfl := Option.some.inj hseen
          exact ⟨I, hI, rfl⟩
    · exact hmarking.marks j x hx

/-- The shop after the commit of the marks. -/
theorem Marking.commit {t₀ : Time} {W : Drafts (schema rt)} {v : BackendView rt}
    (hmarking : Marking p t₀ W v) (e : Event (schema rt) (platform rt)) :
    Shop.Step rt (shop v) (shop (v.put p e (v.store.finish p true))) := by
  have htables (t : Tbl) : (v.store.finish p true).stored t = W.onto v.store.stored t := by
    rw [Store.finish_stored_keep, hmarking.inside.2]
  have helsewhere (t : Tbl) (ht : t ≠ Tbl.invitations) :
      W.onto v.store.stored t = v.store.stored t := by
    funext j
    exact Drafts.onto_of_none (hmarking.apart t ht j)
  have hshop : shop (v.put p e (v.store.finish p true)) =
      { shop v with invitations := W.onto v.store.stored Tbl.invitations } := by
    unfold shop
    simp only [View.put_store, View.put_mem, htables, helsewhere, ne_eq, reduceCtorEq,
      not_false_eq_true]
  rw [hshop]
  refine .emails _ fun id => ?_
  cases hdraft : W Tbl.invitations id with
  | none =>
      rw [Drafts.onto_of_none hdraft]
      cases hI : v.store.stored Tbl.invitations id with
      | none => exact ⟨none, by rw [show (shop v).invitations id = none from hI]; rfl⟩
      | some I => exact ⟨I.emailSentAt, by rw [show (shop v).invitations id = some I from hI]; rfl⟩
  | some x =>
      obtain ⟨I, hI, rfl⟩ := hmarking.marks id x hdraft
      refine ⟨some t₀, ?_⟩
      rw [show (shop v).invitations id = some I from hI]
      exact Drafts.onto_of_some hdraft

theorem markEmailSent_rule (invitationId : Nat) :
    (shopLogic rt sc).Triple p (Idle p) (InvitationsRepository.markEmailSent invitationId)
      fun _ _ => True := by
  refine Triple.transaction (B := fun t₀ v => ∃ W, Marking p t₀ W v)
    (C := fun _ v => ∃ t₀ W, Marking p t₀ W v) (E := fun _ _ => True) stable_idle ?_
    (fun t₀ => ?_) (fun affected => ?_) fun e => ?_
  · intro v _ _ hidle _
    exact ⟨Drafts.empty, ⟨Store.setTx_tx_self v.store p _, hidle.2⟩, fun _ _ _ => rfl,
      fun j x hx => by cases hx⟩
  · refine Triple.read_manager (R := fun _ v => ∃ W, Marking p t₀ W v) (stable_marking t₀)
      (fun v ⟨W, hmarking⟩ => ⟨W, hmarking.inside⟩) ?_ fun s => ?_
    · rintro v s _ _ _ ⟨W, hmarking⟩ _ _
      exact ⟨W, hmarking.put _⟩
    · refine Triple.touchEach (σ := schema rt) (t := Tbl.invitations)
        (J := fun _ _ v => ∃ W, Marking p t₀ W v) (fun _ _ => stable_marking t₀)
        (fun _ _ v ⟨W, hmarking⟩ => ⟨W, hmarking.inside⟩) ?_ ?_ (fun found => ?_) _ []
      · rintro id rest found v _ _ _ ⟨W, hmarking⟩ _ _
        exact ⟨W, hmarking.put _⟩
      · rintro id rest found v W' r _ _ ⟨W, hmarking⟩ hinside _ hseen _
        obtain rfl : W' = W := hinside.2.symm.trans hmarking.inside.2
        exact ⟨_, hmarking.hold hseen _⟩
      · exact Triple.ret (stable_marking t₀) fun v hmarking => ⟨t₀, hmarking⟩
  · refine Triple.exists fun t₀ => ?_
    refine Triple.commit (R := fun _ => True) (stable_marking t₀)
      (fun v ⟨W, hmarking⟩ => ⟨t₀, W, hmarking.inside⟩) ?_
      (Triple.ret (Stable.const True) fun _ _ => True.intro)
    rintro v v' _ hinv ⟨W, hmarking⟩ hrun _ hv'
    subst hv'
    have hmove := hmarking.commit ⟨.sql .commit, true⟩
    exact ⟨hmove.sound hinv, ⟨⟨hrun.guar.2, Or.inl rfl, Or.inr hmove⟩,
      fun q hq => by rwa [← Option.some.inj hq]⟩, True.intro⟩
  · exact Triple.rollback (R := fun _ => True) (Stable.const True) (fun _ _ _ _ => True.intro)
      (Triple.throw (Stable.const True) fun _ _ => True.intro)

/-- The worker reads an invitation, and marks it if it is unsent. -/
theorem process_rule (job : InvitationEmailJob) :
    (shopLogic rt sc).Triple p (Idle p)
      (InvitationEmailProcessor.process job).method fun _ _ => True := by
  rw [process_method]
  refine Triple.andThen (findOne_rule (R := fun _ => Idle p) (E := fun _ _ => False) stable_idle
    (fun _ => stable_idle) fun _ _ _ _ _ hidle _ => hidle) (fun found => ?_)
    fun _ _ hfalse => hfalse.elim
  split
  · exact Triple.andThen (markEmailSent_rule job.invitationId)
      (fun _ => Triple.ret (Stable.const True) fun _ _ => True.intro) fun _ _ _ => True.intro
  · exact Triple.ret stable_idle fun _ _ => True.intro

/-! ### How requests end -/

/-- How a request has ended that arrived when `s₀` was committed already. -/
def ShopEnd (sc : Scope (schema rt) (platform rt)) (s₀ : Snapshot (schema rt)) (p : Pid) :
    Request → Except AppError Response → BackendView rt → Prop
  | .signup _ _, out, v =>
      ends (fun response v => ∃ result, response = .session result ∧
        SignedUp p result.accessToken.accessToken.sub v) (fun _ _ => True) out v
  | .createPurchase user header body, out, v => PurchaseEnd p s₀ user header body v out
  | .redeem dto, out, v =>
      ends (fun response v => ∃ user, response = .token (AuthService.issueToken rt user) ∧
        RedeemEnd sc p dto user v)
        (fun e v => RedeemFailure rt dto e v.store.stored ∧ Harmless p v) out v
  | .listMine user, out, v =>
      ends (fun response v => ∃ list, response = .purchases list ∧ Listed s₀ user.sub list v)
        (fun e _ => user.role ≠ .parent ∧ e = .domain .forbidden) out v
  | .listLessonsForCourse user _, out, v =>
      ends (fun response v => ∃ course, response = .course course ∧
        ∀ lesson ∈ course.lessons, LessonShown user.sub lesson v) (fun _ _ => True) out v
  | .getLesson user _, out, v =>
      ends (fun response v => ∃ lesson, response = .lesson lesson ∧
        LessonShown user.sub lesson v) (fun _ _ => True) out v
  | _, _, _ => True

/-- The requests of students, behind the check of their role. -/
theorem student_rule {user : JwtPayload} {x : Method rt Response}
    {R : Response → BackendView rt → Prop}
    (htriple : (shopLogic rt sc).Triple p (fun _ => True) x (ends R fun _ _ => True)) :
    (shopLogic rt sc).Triple p (fun _ => True)
      (PurchasesController.requireRole user .student x) (ends R fun _ _ => True) := by
  unfold PurchasesController.requireRole
  split
  · exact htriple
  · exact Triple.throw (Stable.const True) fun _ _ => True.intro

theorem shop_covers (sc : Scope (schema rt) (platform rt)) (s₀ : Snapshot (schema rt)) :
    (shopLogic rt sc).Covers (handler rt) (fun _ => Past s₀) (ShopEnd sc s₀) := by
  have hL := overShop rt sc
  have haside (p : Pid) (req : Request) (haside : Aside (footprint req)) :
      (shopLogic rt sc).Triple p (fun v => Unused p v ∧ Past s₀ v) (handler rt req)
        fun _ _ => True :=
    Triple.post (Triple.weaken (aside_rule haside (handler_within rt req))
      fun v _ _ hfresh => clean_of_unused hfresh.1) fun _ _ _ => True.intro
  intro p req _
  cases req with
  | signup input requestMeta =>
      refine Triple.weaken (Triple.andThen (signup_shop_rule input requestMeta)
        (fun result => ?_) fun _ _ _ => True.intro) fun v _ _ hfresh => clean_of_unused hfresh.1
      exact Triple.ret (persistent_signedUp hL _).stable fun v hsigned => ⟨result, rfl, hsigned⟩
  | createPurchase user header body =>
      exact Triple.weaken (purchase_rule s₀ user header body) fun v _ _ hfresh =>
        ⟨hfresh.1.idle, trail_of_unused hfresh.1, hfresh.2⟩
  | redeem dto =>
      exact Triple.weaken (redeemCall_rule sc dto) fun v _ _ hfresh =>
        ⟨hfresh.1.idle, harmless_of_silent hfresh.1.silent⟩
  | listMine user =>
      exact Triple.weaken (listMine_rule s₀ user) fun v _ _ hfresh => hfresh.2
  | listLessonsForCourse user courseId =>
      refine Triple.weaken (student_rule (Triple.andThen
        (findLessonsForCourse_rule user.sub courseId) (fun course => ?_) fun _ _ _ => True.intro))
        fun _ _ _ _ => True.intro
      have hstable : (shopLogic rt sc).Persistent fun v =>
          ∀ lesson ∈ course.lessons, LessonShown user.sub lesson v :=
        fun a v v' hstep hshown lesson hmem =>
          persistent_lessonShown _ lesson a v v' hstep (hshown lesson hmem)
      exact Triple.ret hstable.stable fun v hshown => ⟨course, rfl, hshown⟩
  | getLesson user lessonId =>
      refine Triple.weaken (student_rule (Triple.andThen
        (findLessonById_rule user.sub lessonId) (fun lesson => ?_) fun _ _ _ => True.intro))
        fun _ _ _ _ => True.intro
      exact Triple.ret (persistent_lessonShown _ lesson).stable fun v hshown =>
        ⟨lesson, rfl, hshown⟩
  | sendInvitationEmail job =>
      exact Triple.weaken (Triple.andThen (process_rule job)
        (fun _ => Triple.ret (Stable.const True) fun _ _ => True.intro) fun _ _ _ => True.intro)
        fun v _ _ hfresh => hfresh.1.idle
  | login | refresh | logout | cleanup | revokeFamily | rehashIfNeeded =>
      exact haside p _ ⟨rfl, by simp [shopTables, footprint]⟩

/-! ### Runs -/

theorem boot_sound (rt : Runtime) (seed : Seed) : (shop (boot rt seed).view).Sound rt where
  stocked := fun i P hP => by simp [shop, boot, Seed.rows, Store.stored] at hP
  bundled := fun i P hP => by simp [shop, boot, Seed.rows, Store.stored] at hP
  invited := fun j I hI => by simp [shop, boot, Seed.rows, Store.stored] at hI
  invitedOnce := fun j j' I I' hI => by simp [shop, boot, Seed.rows, Store.stored] at hI
  keyed := fun k K hK => by simp [shop, boot, Seed.rows, Store.stored] at hK
  keyedOnce := fun i i' P P' hP => by simp [shop, boot, Seed.rows, Store.stored] at hP
  rowOnce := fun k k' K K' hK => by simp [shop, boot, Seed.rows, Store.stored] at hK
  granted := fun k e he => by simp [shop, boot, Seed.rows, Store.stored] at he
  enrols := fun i I hI => by simp [shop, boot, Seed.rows, Store.stored] at hI
  announced := fun job hjob => by cases hjob
  announcedOnce := List.nodup_nil

/-- The rows that are committed in a world. -/
def committedIn (w : BackendWorld rt) : Snapshot (schema rt) :=
  w.view.store.snapshot w.view.store.clock w.view.store.stored

/-- A world under the control of the shop's logic. `w₀` is the moment that the ends of
later requests refer to. -/
def Trading (sc : Scope (schema rt) (platform rt)) (w₀ : BackendWorld rt) :
    BackendWorld rt → Prop :=
  (shopLogic rt sc).Verified (fun _ => Past (committedIn w₀))
    fun p req out v => w₀.procs.length ≤ p → ShopEnd sc (committedIn w₀) p req out v

/-- The rows of the backend change as they may on every schedule. -/
theorem shop_schedule {seed : Seed} {w w' : BackendWorld rt}
    (hreach : Reach (handler rt) sc (boot rt seed) w) (hlater : Reach (handler rt) sc w w') :
    Reach (handler rt) (shopLogic rt sc).scope w w' := by
  have hcovers : ((rowVersions rt).logic sc).Covers (handler rt) _ _ :=
    Revision.covered fun req => (handler_keeps rt req).obeys
  have hstart : ((rowVersions rt).logic sc).Verified _ _ (boot rt seed) :=
    Revision.verified_start (boot_wf rt seed) rfl (boot_unused rt seed)
  have hhere := (hstart.reach (fun _ => Stable.const True) hcovers hreach).1
  exact hhere.layered (fun _ => Stable.const True) hcovers hlater

theorem trading_boot (seed : Seed) : Trading sc (boot rt seed) (boot rt seed) where
  wf := boot_wf rt seed
  inv := boot_sound rt seed
  safe := fun p proc hproc => by cases hproc
  fresh := fun p _ => ⟨boot_unused rt seed p, past_snapshot _⟩

theorem Trading.reach {w₀ w w' : BackendWorld rt} (htrading : Trading sc w₀ w)
    (hreach : Reach (handler rt) (shopLogic rt sc).scope w w') :
    Trading sc w₀ w' ∧ (shopLogic rt sc).Path w.view w'.view := by
  have hcovers : (shopLogic rt sc).Covers (handler rt) (fun _ => Past (committedIn w₀))
      fun p req out v => w₀.procs.length ≤ p → ShopEnd sc (committedIn w₀) p req out v :=
    fun p req hstarts => Triple.post (shop_covers sc (committedIn w₀) p req hstarts)
      fun _ _ hend _ => hend
  exact Verified.reach (fun p => (persistent_past (overShop rt sc) _).stable) hcovers htrading
    hreach

/-- The requests that arrive later refer to this moment. -/
theorem Trading.rebase {w₀ w : BackendWorld rt} (htrading : Trading sc w₀ w) :
    Trading sc w w where
  wf := htrading.wf
  inv := htrading.inv
  safe := fun p proc hproc => by
    have hlen := (List.getElem?_eq_some_iff.mp hproc).1
    exact Safe.post (fun _ _ _ hlate => absurd hlen (Nat.not_lt_of_le hlate))
      (htrading.safe p proc hproc)
  fresh := fun p hp => ⟨(htrading.fresh p hp).1, past_snapshot _⟩

/-- A run of the backend, seen from one of its moments. -/
theorem trading_run {seed : Seed} {w w' : BackendWorld rt}
    (hreach : Reach (handler rt) sc (boot rt seed) w) (hlater : Reach (handler rt) sc w w') :
    Trading sc w w' ∧ (shopLogic rt sc).Path w.view w'.view := by
  have hhere := ((trading_boot seed).reach (shop_schedule Relation.ReflTransGen.refl hreach)).1
  exact hhere.rebase.reach (shop_schedule hreach hlater)

theorem Trading.sound {w₀ w : BackendWorld rt} (htrading : Trading sc w₀ w) :
    (shop w.view).Sound rt :=
  htrading.inv

/-- Whatever a program has done stays recorded. -/
theorem persistent_event {L : Logic (schema rt) (platform rt)}
    (entry : Pid × Event (schema rt) (platform rt)) :
    L.Persistent fun v => entry ∈ v.history := by
  intro actor v v' hstep hmem
  cases actor with
  | none => rw [hstep.base.1]; exact hmem
  | some q =>
      obtain ⟨e, hacts⟩ := hstep.base
      rw [hacts.history]
      exact List.mem_cons_of_mem _ hmem

/-- No operation of `p` between two moments has changed a table or the queue. -/
def ChangesNothing (p : Pid) (w₀ w : BackendWorld rt) : Prop :=
  ∀ u u' choice, Runs rt w₀ u → u.step (handler rt) (.run p choice) = some u' → Runs rt u' w →
    u'.view.store.stored = u.view.store.stored ∧
      u'.view.mem.invitationEmailQueue = u.view.mem.invitationEmailQueue

/-- A request that has committed and enqueued nothing has changed nothing. -/
theorem Harmless.changesNothing {seed : Seed} {w : BackendWorld rt}
    (hharmless : Harmless p w.view) : ChangesNothing p (boot rt seed) w := by
  intro u u' choice hruns hstep hlater
  have htrading := (trading_run Relation.ReflTransGen.refl hruns).1
  obtain ⟨e, hacts⟩ := World.run_acts htrading.wf hstep
  have hmoves : Runs rt u u' := Relation.ReflTransGen.single ⟨_, hstep, trivial⟩
  obtain ⟨-, hpath⟩ := trading_run (hruns.trans hmoves) hlater
  have hlast : (p, e) ∈ u'.view.history := by
    rw [hacts.history]
    exact List.mem_cons_self
  have hquiet : ¬ Durable e := hharmless e (hpath.preserves (persistent_event (p, e)) hlast)
  constructor
  · rcases hacts.committed with hsame | rfl
    · exact hsame
    · exact absurd True.intro hquiet
  · rcases hacts.mem with hsame | ⟨op, res, rfl⟩
    · rw [hsame]
    · obtain ⟨choice', hexec⟩ := hacts.ran
      rcases exec_queue (View.exec_node hexec).1 with hsame | ⟨job, rfl⟩
      · exact hsame
      · exact absurd True.intro hquiet

end Mes
