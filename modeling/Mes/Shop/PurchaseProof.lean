import Mes.Shop.ShopRules

/-!
The proof of `POST /purchases`. A sale is three inserts in one transaction and one
email after its commit. The insert of the idempotency row never meets a unique
violation: whoever holds such a row also holds a purchase with the same parent and
key, and the insert of the purchase has been refused by then.

`PurchaseEnd` lists the ways in which a request can end, each with the snapshots
that it has read on the way: the lookup of the interceptor, the course, the guard
against duplicates.
-/

namespace Mes

open Transact Transact.Logic PurchasesService

variable {rt : Runtime}

/-- The rows of a sale. -/
def saleRow (args : CreateArgs) (course : Entity .courses) (t₀ : Time) : Purchase where
  parentUserId := args.parentUserId
  courseId := course.1
  status := .completed
  amountPence := course.2.pricePence
  idempotencyKey := args.idempotency.key
  createdAt := t₀

def invitationRow (rt : Runtime) (purchaseId : Nat) (token studentEmail : String)
    (now : Time) : Invitation :=
  InvitationsRepository.normaliseEmail rt
    { purchaseId := purchaseId
      tokenHash := InvitationsService.hashToken rt token
      studentEmail := studentEmail
      status := .issued
      expiresAt := InvitationsService.computeExpiryDate now
      redeemedAt := none
      emailSentAt := none }

def keyRow (args : CreateArgs) (purchaseId invitationId : Nat) : IdempotencyKey where
  key := args.idempotency.key
  userId := args.parentUserId
  endpoint := args.idempotency.endpoint
  requestHash := args.idempotency.requestHash
  responseStatus := PURCHASE_CREATED_STATUS
  responseBody := { purchaseId := purchaseId, invitationId := invitationId }

theorem invitationRow_columns (rt : Runtime) (purchaseId : Nat)
    (token studentEmail : String) (now : Time) :
    (invitationRow rt purchaseId token studentEmail now).purchaseId = purchaseId ∧
      (invitationRow rt purchaseId token studentEmail now).tokenHash =
        InvitationsService.hashToken rt token ∧
      (invitationRow rt purchaseId token studentEmail now).status = .issued ∧
      (invitationRow rt purchaseId token studentEmail now).studentEmail =
        rt.normaliseEmail studentEmail := by
  unfold invitationRow InvitationsRepository.normaliseEmail
  split
  · rename_i hempty
    have hempty' : studentEmail = "" := hempty
    refine ⟨rfl, rfl, rfl, ?_⟩
    rw [hempty']
    exact rt.normalise_empty.symm
  · exact ⟨rfl, rfl, rfl, rfl⟩

/-- What a transaction result says about its sale. -/
structure SaleOf (rt : Runtime) (args : CreateArgs) (course : Entity .courses)
    (t₀ : Time) (result : TransactionResult) : Prop where
  purchase : result.purchase.2 = saleRow args course t₀
  invitation : ∃ now, result.invitation.2 = invitationRow rt result.purchase.1
    result.plaintextToken args.body.studentEmail now
  url : result.invitationUrl =
    InvitationsService.buildInvitationUrl rt result.plaintextToken

/-- The uncommitted rows of a sale. -/
def saleWrites (rt : Runtime) (args : CreateArgs) (result : TransactionResult) (k : Nat) :
    Drafts (schema rt) :=
  ((Drafts.empty.set Tbl.purchases result.purchase.1 (some result.purchase.2)).set
    Tbl.invitations result.invitation.1 (some result.invitation.2)).set
      Tbl.idempotencyKeys k (some (keyRow args result.purchase.1 result.invitation.1))

theorem SaleOf.bundle {args : CreateArgs} {course : Entity .courses} {t₀ : Time}
    {result : TransactionResult} (hsale : SaleOf rt args course t₀ result)
    (hendpoint : args.idempotency.endpoint = PURCHASE_ENDPOINT_SIGNATURE) :
    Bundle result.purchase.1 result.purchase.2 result.invitation.1 result.invitation.2
      (keyRow args result.purchase.1 result.invitation.1) := by
  obtain ⟨now, hinvitation⟩ := hsale.invitation
  rw [hinvitation, hsale.purchase]
  exact ⟨(invitationRow_columns rt _ _ _ _).1, rfl, rfl, hendpoint, rfl, rfl⟩

section Transaction

variable {L : Logic (schema rt) (platform rt)} {p : Pid} {t₀ : Time}
  {ss : List (Snapshot (schema rt))} {args : CreateArgs} {course : Entity .courses}

/-- Another purchase with the parent and the key of an uncommitted one would clash
with it. -/
theorem own_purchase_unique {W : Drafts (schema rt)} {v : BackendView rt} {i i' : Nat}
    {P P' : Purchase} (hwf : v.store.Wf) (hwriting : Writing p t₀ W ss v)
    (hP : W Tbl.purchases i = some (some P))
    (honly : ∀ i', i' ≠ i → W Tbl.purchases i' = none)
    (hP' : v.store.stored Tbl.purchases i' = some P')
    (hparent : P'.parentUserId = P.parentUserId) : P'.idempotencyKey ≠ P.idempotencyKey := by
  intro hkey
  have hfresh := hwriting.fresh Tbl.purchases i _ hP
  have hne : i' ≠ i := by
    rintro rfl
    rw [hfresh] at hP'
    cases hP'
  have hclash : Tbl.clash .purchases P P' = true := by
    simp [Tbl.clash, hparent, hkey]
  have hown : v.store.seen p Tbl.purchases i = some P := by
    rw [Store.seen, hwriting.inside.2, hP]
    rfl
  have hother : v.store.seen p Tbl.purchases i' = some P' := by
    rw [Store.seen, hwriting.inside.2, honly i' hne]
    exact hP'
  exact hne (hwf.seen_distinct hown hother hclash).symm

/-- The second look at a racing request is never needed. -/
theorem persist_rule (hL : OverShop L) {W : Drafts (schema rt)} {i j : Nat} {P : Purchase}
    (hP : W Tbl.purchases i = some (some P))
    (honly : ∀ i', i' ≠ i → W Tbl.purchases i' = none)
    (hnone : ∀ k, W Tbl.idempotencyKeys k = none)
    (hparent : P.parentUserId = args.parentUserId)
    (hkey : P.idempotencyKey = args.idempotency.key) :
    L.Triple p (Writing p t₀ W ss)
      (IdempotencyService.persistWithinTransaction (keyRow args i j))
      (ends (fun entity v => Writing p t₀
          (W.set Tbl.idempotencyKeys entity.1 (some (keyRow args i j))) ss v)
        fun error v => (∃ e, error = .queryFailed e) ∧ Trail p ss v) := by
  have hnever (v : BackendView rt) (e : SqlError) (hwf : v.store.Wf) (hinv : L.Inv v)
      (hwriting : Writing p t₀ W ss v)
      (hrefuses : v.store.Refuses p Tbl.idempotencyKeys (keyRow args i j) e) :
      e ≠ .uniqueViolation := by
    rintro rfl
    obtain ⟨k, K, hclash, hrow⟩ := hrefuses
    have hK : v.store.stored Tbl.idempotencyKeys k = some K := by
      rcases hrow with hstored | hdraft
      · exact hstored
      · rw [hwriting.inside.2, hnone k] at hdraft
        cases hdraft
    obtain ⟨P', I, hP', -, hbundle⟩ := (hL.inv v hinv).keyed k K hK
    have hcolumns : args.parentUserId = K.userId ∧ args.idempotency.key = K.key := by
      have hclash' : Tbl.clash .idempotencyKeys (keyRow args i j) K = true := hclash
      simp only [Tbl.clash, keyRow, Bool.and_eq_true, beq_iff_eq] at hclash'
      exact ⟨hclash'.1.1, hclash'.2⟩
    refine own_purchase_unique hwf hwriting hP honly hP' ?_ ?_
    · rw [← hbundle.userId, ← hcolumns.1, hparent]
    · rw [← hbundle.key, ← hcolumns.2, hkey]
  refine Triple.attempt (insert_rule hL hnever) (fun entity v hdone => ?_) fun error => ?_
  · exact hdone.1 ▸ hdone.2
  refine Triple.exists fun e => ?_
  refine Triple.given (φ := error = .queryFailed e ∧ e ≠ .uniqueViolation)
    (fun v _ _ hA => ⟨hA.1, hA.2.1⟩) fun hfacts => ?_
  obtain ⟨rfl, hnot⟩ := hfacts
  cases e with
  | uniqueViolation => exact absurd rfl hnot
  | foreignKeyViolation | dataException | inFailedTransaction =>
      exact Triple.throw ((Stable.const _).and ((Stable.const _).and (stable_trail ss)))
        fun v hA => ⟨⟨_, rfl⟩, hA.2.2⟩

theorem issue_rule (hL : OverShop L) {W : Drafts (schema rt)} (purchaseId : Nat)
    (studentEmail : String) :
    L.Triple p (Writing p t₀ W ss)
      (InvitationsService.issueWithinTransaction purchaseId studentEmail)
      (ends (fun issued v =>
          (∃ now, issued.entity.2 =
            invitationRow rt purchaseId issued.plaintextToken studentEmail now) ∧
          issued.invitationUrl =
            InvitationsService.buildInvitationUrl rt issued.plaintextToken ∧
          Writing p t₀ (W.set Tbl.invitations issued.entity.1 (some issued.entity.2)) ss v)
        fun error v => (∃ e, error = .queryFailed e) ∧ Trail p ss v) := by
  let E : AppError → BackendView rt → Prop :=
    fun error v => (∃ e, error = .queryFailed e) ∧ Trail p ss v
  refine Triple.andThen (randomBytes_quiet_rule (E := E) hL stable_writing
    fun v raw mem hwriting => ?_) (fun token => ?_) fun _ _ herror => herror
  · exact hwriting.remember mem (fun hdurable => hdurable) rfl
  refine Triple.andThen (turn_quiet_rule (E := E) hL stable_writing
    fun v answer mem hwriting => ?_) (fun answer => ?_) fun _ _ herror => herror
  · exact hwriting.remember mem (fun hdurable => hdurable) rfl
  have hinsert : L.Triple p (Writing p t₀ W ss)
      (InvitationsRepository.insertWithinTransaction
        { purchaseId := purchaseId
          tokenHash := InvitationsService.hashToken rt token
          studentEmail := studentEmail
          status := .issued
          expiresAt := InvitationsService.computeExpiryDate answer.1
          redeemedAt := none
          emailSentAt := none }) _ :=
    insert_rule hL fun _ _ _ _ _ _ => True.intro
  refine Triple.andThen hinsert (fun entity => ?_) fun error v herror => ?_
  · refine Triple.ret ((Stable.const _).and stable_writing) fun v hdone => ?_
    obtain ⟨hentity, hwriting⟩ := hdone
    exact ⟨⟨answer.1, hentity⟩, rfl, hentity ▸ hwriting⟩
  · obtain ⟨e, rfl, -, htrail⟩ := herror
    exact ⟨⟨e, rfl⟩, htrail⟩

/-- The body of the transaction. -/
theorem sale_body (hL : OverShop L) :
    L.Triple p (Writing p t₀ Drafts.empty ss)
      (do
        let purchase ← PurchasesRepository.insertWithinTransaction (saleRow args course)
        let issued ← InvitationsService.issueWithinTransaction
          purchase.1 args.body.studentEmail
        let _ ← IdempotencyService.persistWithinTransaction
          (keyRow args purchase.1 issued.entity.1)
        pure
          ({ purchase := purchase
             invitation := issued.entity
             plaintextToken := issued.plaintextToken
             invitationUrl := issued.invitationUrl } : TransactionResult))
      (ends (fun result v => SaleOf rt args course t₀ result ∧
          ∃ k, Writing p t₀ (saleWrites rt args result k) ss v)
        fun error v => (∃ e, error = .queryFailed e) ∧ Trail p ss v) := by
  have hpurchase : L.Triple p (Writing p t₀ Drafts.empty ss)
      (PurchasesRepository.insertWithinTransaction (saleRow args course)) _ :=
    insert_rule hL fun _ _ _ _ _ _ => True.intro
  refine Triple.andThen hpurchase (fun purchase => ?_) fun error v herror => ?_
  · refine Triple.given (φ := purchase.2 = saleRow args course t₀)
      (fun _ _ _ hA => hA.1) fun hrow => ?_
    refine Triple.weaken ?_ fun v _ _ hA => hA.2
    rw [← hrow]
    refine Triple.andThen (issue_rule hL purchase.1 args.body.studentEmail)
      (fun issued => ?_) fun _ _ herror => herror
    refine Triple.given (φ := (∃ now, issued.entity.2 =
        invitationRow rt purchase.1 issued.plaintextToken args.body.studentEmail now) ∧
        issued.invitationUrl =
          InvitationsService.buildInvitationUrl rt issued.plaintextToken)
      (fun _ _ _ hA => ⟨hA.1, hA.2.1⟩) fun hissued => ?_
    refine Triple.weaken ?_ fun v _ _ hA => hA.2.2
    refine Triple.andThen (persist_rule (P := purchase.2) hL ?_ ?_ ?_ ?_ ?_) (fun row => ?_)
      fun _ _ herror => herror
    · rw [Drafts.set_other _ _ _ (by simp)]
      exact Drafts.set_same _ _ _ _
    · intro i' hne
      rw [Drafts.set_other _ _ _ (by simp), Drafts.set_apply, if_neg hne]
      rfl
    · intro k
      rw [Drafts.set_other _ _ _ (by simp), Drafts.set_other _ _ _ (by simp)]
      rfl
    · rw [hrow]
      rfl
    · rw [hrow]
      rfl
    · refine Triple.ret stable_writing fun v hwriting => ?_
      exact ⟨⟨hrow, hissued.1, hissued.2⟩, row.1, hwriting⟩
  · obtain ⟨e, rfl, -, htrail⟩ := herror
    exact ⟨⟨e, rfl⟩, htrail⟩

/-! ### The commit -/

/-- The rows of a sale are committed, and `p` has inserted the purchase. -/
structure Sold (p : Pid) (ss : List (Snapshot (schema rt))) (args : CreateArgs)
    (result : TransactionResult) (v : BackendView rt) : Prop where
  reads : reads p v = ss
  purchase : v.store.stored Tbl.purchases result.purchase.1 = some result.purchase.2
  owner : v.store.born Tbl.purchases result.purchase.1 = some (p, result.purchase.2)
  invitation : ∃ J, v.store.stored Tbl.invitations result.invitation.1 = some J ∧
    Becomes result.invitation.2 J
  row : ∃ k, v.store.stored Tbl.idempotencyKeys k =
      some (keyRow args result.purchase.1 result.invitation.1) ∧
    v.store.born Tbl.idempotencyKeys k =
      some (p, keyRow args result.purchase.1 result.invitation.1)

/-- `p` has inserted the invitation at `j` and enqueued no email for it. -/
def Unannounced (p : Pid) (j : Nat) (I : Invitation) (v : BackendView rt) : Prop :=
  v.store.born Tbl.invitations j = some (p, I) ∧
    j ∉ v.mem.invitationEmailQueue.map InvitationEmailJob.invitationId

theorem stable_sold (hL : OverShop L) (result : TransactionResult) :
    L.Stable p (Sold p ss args result) := by
  intro actor v v' hactor hstep hsold
  obtain ⟨k, hk, hborn⟩ := hsold.row
  exact
    { reads := stable_reads ss actor v v' hactor hstep hsold.reads
      purchase := persistent_purchase hL _ _ actor v v' hstep hsold.purchase
      owner := hstep.born_kept hsold.owner
      invitation := persistent_invitation hL _ _ actor v v' hstep hsold.invitation
      row := ⟨k, persistent_idempotencyKey hL _ _ actor v v' hstep hk, hstep.born_kept hborn⟩ }

/-- The shop after the commit of a sale. -/
theorem shop_sale {v : BackendView rt} {result : TransactionResult} {k : Nat}
    (hwriting : Writing p t₀ (saleWrites rt args result k) ss v)
    (e : Event (schema rt) (platform rt)) :
    shop (v.put p e (v.store.finish p true)) =
      { shop v with
        purchases := Function.update (shop v).purchases result.purchase.1
          (some result.purchase.2)
        invitations := Function.update (shop v).invitations result.invitation.1
          (some result.invitation.2)
        idempotencyKeys := Function.update (shop v).idempotencyKeys k
          (some (keyRow args result.purchase.1 result.invitation.1)) } := by
  have htables (t : Tbl) : (v.store.finish p true).stored t =
      (saleWrites rt args result k).onto v.store.stored t := by
    rw [Store.finish_stored_keep, hwriting.inside.2]
  unfold shop
  simp only [View.put_store, View.put_mem, htables, saleWrites, Drafts.onto_set_same,
    Drafts.onto_set_other, Drafts.onto_empty, ne_eq, reduceCtorEq, not_false_eq_true]

theorem sale_commit {sc : Scope (schema rt) (platform rt)} {result : TransactionResult}
    {k : Nat} (hsale : SaleOf rt args course t₀ result)
    (hendpoint : args.idempotency.endpoint = PURCHASE_ENDPOINT_SIGNATURE) :
    (shopLogic rt sc).Triple p
      (fun v => Writing p t₀ (saleWrites rt args result k) ss v ∧
        v.store.stored Tbl.courses course.1 = some course.2)
      (.step (.sql .commit) fun _ => .ret result)
      (fun out v => out = .ok result ∧ Sold p ss args result v ∧
        Unannounced p result.invitation.1 result.invitation.2 v) := by
  have hL := overShop rt sc
  have hP : saleWrites rt args result k Tbl.purchases result.purchase.1 =
      some (some result.purchase.2) := by
    simp [saleWrites, Drafts.set_other]
  have hI : saleWrites rt args result k Tbl.invitations result.invitation.1 =
      some (some result.invitation.2) := by
    simp [saleWrites, Drafts.set_other]
  have hK : saleWrites rt args result k Tbl.idempotencyKeys k =
      some (some (keyRow args result.purchase.1 result.invitation.1)) := by
    simp [saleWrites]
  have honly (i' : Nat) (hne : i' ≠ result.purchase.1) :
      saleWrites rt args result k Tbl.purchases i' = none := by
    simp [saleWrites, Drafts.set_other, Drafts.set_apply, hne]
  have hbundle := hsale.bundle hendpoint
  have hissued : result.invitation.2.status = .issued := by
    obtain ⟨now, hrow⟩ := hsale.invitation
    rw [hrow]
    exact (invitationRow_columns rt _ _ _ _).2.2.1
  refine Triple.commit (stable_writing.and (persistent_course hL _ _).stable)
    (fun v hA => ⟨t₀, _, hA.1.inside⟩) ?_
    (Triple.ret ((stable_sold hL result).and (stable_unannounced hL _ _))
      fun _ hA => ⟨rfl, hA⟩)
  intro v v' hwf hinv hA hrun hacts hv'
  obtain ⟨hwriting, hcourse⟩ := hA
  subst hv'
  have hshop := shop_sale hwriting ⟨.sql .commit, true⟩
  have hmove : Shop.Step rt (shop v)
      (shop (v.put p ⟨.sql .commit, true⟩ (v.store.finish p true))) := by
    rw [hshop]
    refine Shop.Step.buy _ _ k _ _ _ course.2 ?_ (hwriting.fresh _ _ _ hP)
      (hwriting.fresh _ _ _ hI) (hwriting.fresh _ _ _ hK) hbundle hissued ?_
    · rw [hsale.purchase]
      exact hcourse
    intro i' P' hP' hparent
    exact own_purchase_unique hwf hwriting hP honly hP' hparent
  refine ⟨hmove.sound hinv, ⟨⟨hrun.guar.2, Or.inl rfl, Or.inr hmove⟩,
    fun q hq => by rwa [← Option.some.inj hq]⟩, ?_, ?_⟩
  · have hpurchases := congrArg Shop.purchases hshop
    have hinvitations := congrArg Shop.invitations hshop
    have hkeys := congrArg Shop.idempotencyKeys hshop
    refine ⟨?_, ?_, hwriting.born _ _ _ hP, ⟨result.invitation.2, ?_, Becomes.refl _⟩, k, ?_,
      hwriting.born _ _ _ hK⟩
    · rw [reads_grow rfl, hwriting.trail.reads]
      exact List.append_nil ss
    · exact (congrFun hpurchases result.purchase.1).trans (Function.update_self _ _ _)
    · exact (congrFun hinvitations result.invitation.1).trans (Function.update_self _ _ _)
    · exact (congrFun hkeys k).trans (Function.update_self _ _ _)
  · -- an email would name a committed invitation
    refine ⟨hwriting.born _ _ _ hI, fun hqueued => ?_⟩
    obtain ⟨job, hjob, hsame⟩ := List.mem_map.mp hqueued
    obtain ⟨J, -, hJ, -⟩ := (hL.inv v hinv).announced job hjob
    rw [hsame] at hJ
    have hnone := hwriting.fresh _ _ _ hI
    rw [show v.store.stored Tbl.invitations result.invitation.1 = some J from hJ] at hnone
    cases hnone

theorem runCreate_rule {sc : Scope (schema rt) (platform rt)}
    (hendpoint : args.idempotency.endpoint = PURCHASE_ENDPOINT_SIGNATURE) :
    (shopLogic rt sc).Triple p
      (fun v => (Idle p v ∧ Trail p ss v) ∧
        v.store.stored Tbl.courses course.1 = some course.2)
      (runCreateTransaction args course)
      (ends (fun result v => (∃ t₀, SaleOf rt args course t₀ result) ∧
          Sold p ss args result v ∧
          Unannounced p result.invitation.1 result.invitation.2 v)
        fun error v => (∃ e, error = .queryFailed e) ∧ Trail p ss v) := by
  have hL := overShop rt sc
  have hcourse := persistent_course hL course.1 course.2
  refine Triple.transaction
    (B := fun t₀ v => Writing p t₀ Drafts.empty ss v ∧
      v.store.stored Tbl.courses course.1 = some course.2)
    (C := fun result v => ∃ t₀, SaleOf rt args course t₀ result ∧
      ∃ k, Writing p t₀ (saleWrites rt args result k) ss v ∧
        v.store.stored Tbl.courses course.1 = some course.2)
    (E := fun error v => (∃ e, error = .queryFailed e) ∧ Trail p ss v)
    ((stable_idle.and (stable_trail ss)).and hcourse.stable) ?_ (fun t₀ => ?_)
    (fun result => ?_) fun error => ?_
  · exact fun v _ _ hA _ => ⟨writing_begin hA.1.1 hA.1.2, hA.2⟩
  · refine Triple.post (Triple.persist hcourse (sale_body hL)) ?_
    rintro (error | result) v ⟨hpost, hthere⟩
    · exact hpost
    · obtain ⟨hsale, k, hwriting⟩ := hpost
      exact ⟨t₀, hsale, k, hwriting, hthere⟩
  · refine Triple.exists fun t₀ => ?_
    refine Triple.given (φ := SaleOf rt args course t₀ result) (fun _ _ _ hA => hA.1)
      fun hsale => ?_
    refine Triple.weaken (Triple.exists fun k => ?_) fun v _ _ hA => hA.2
    refine Triple.post (sale_commit hsale hendpoint) ?_
    rintro out v ⟨rfl, hpost⟩
    exact ⟨⟨t₀, hsale⟩, hpost⟩
  · refine Triple.rollback (R := fun v => (∃ e, error = .queryFailed e) ∧ Trail p ss v)
      ((Stable.const _).and (stable_trail ss)) (fun v _ _ hA => ⟨hA.1, ?_⟩)
      (Triple.throw ((Stable.const _).and (stable_trail ss)) fun _ hA => hA)
    exact hA.2.grow (e := ⟨.sql .rollback, ()⟩) (fun hdurable => hdurable) rfl rfl

/-- The email after the sale, whether the queue takes it or not. -/
theorem enqueue_rule {sc : Scope (schema rt) (platform rt)} {result : TransactionResult}
    (hsale : SaleOf rt args course t₀ result) (courseTitle : String) :
    (shopLogic rt sc).Triple p
      (fun v => Sold p ss args result v ∧
        Unannounced p result.invitation.1 result.invitation.2 v)
      (enqueueInvitationEmail result courseTitle)
      (ends (fun _ => Sold p ss args result) fun _ _ => False) := by
  have hL := overShop rt sc
  refine Triple.node (R := fun _ => Sold p ss args result)
    ((stable_sold hL result).and (stable_unannounced hL _ _)) ?_
    fun _ => Triple.ret (stable_sold hL result) fun _ hsold => hsold
  intro v choice res mem v' hwf hinv hA hjob hrun hacts hv'
  obtain ⟨hsold, hborn, hfirst⟩ := hA
  subst hv'
  have hkept : Sold p ss args result (v.remember p ⟨.node (.addJob _), res⟩ mem) := by
    refine { hsold with reads := ?_ }
    rw [reads_grow rfl, hsold.reads]
    exact List.append_nil ss
  simp only [Memory.exec] at hjob
  split at hjob
  · obtain rfl := congrArg Prod.snd (Option.some.inj hjob)
    obtain ⟨J, hJ, hcolumns⟩ := hsold.invitation
    obtain ⟨now, hrow⟩ := hsale.invitation
    obtain ⟨-, htokenHash, hstudentEmail⟩ := hcolumns.same
    let job : InvitationEmailJob :=
      { invitationId := result.invitation.1
        recipientEmail := result.invitation.2.studentEmail
        courseTitle := courseTitle
        invitationUrl := result.invitationUrl }
    have hannounces : (shop v).Announces rt job := by
      refine ⟨J, result.plaintextToken, hJ, hstudentEmail.symm, hsale.url, ?_⟩
      rw [htokenHash, hrow]
      exact (invitationRow_columns rt _ _ _ _).2.1
    have hmove : Shop.Step rt (shop v)
        { shop v with queue := (shop v).queue ++ [job] } := .enqueue job hannounces hfirst
    exact ⟨hmove.sound hinv, ⟨⟨hrun.guar.2, Or.inr ⟨job, _, rfl, hborn⟩, Or.inr hmove⟩,
      fun q hq => by rwa [← Option.some.inj hq]⟩, hkept⟩
  · obtain rfl := congrArg Prod.snd (Option.some.inj hjob)
    exact ⟨hinv, ⟨ShopRule.quiet rfl rfl, fun q hq => by rwa [← Option.some.inj hq]⟩, hkept⟩

end Transaction

/-! ### The whole request -/

/-- The lookup of the interceptor. -/
def replayRow (userId : Nat) (key : String) (s : Snapshot (schema rt)) :
    Option (Entity .idempotencyKeys) :=
  (s.rows Tbl.idempotencyKeys).find? fun row =>
    row.2.userId == userId && row.2.endpoint == PURCHASE_ENDPOINT_SIGNATURE &&
      row.2.key == key

/-- The guard against duplicates. -/
def duplicateIn (parentUserId courseId : Nat) (studentEmail : String)
    (s : Snapshot (schema rt)) : Bool :=
  (s.rows Tbl.purchases).any fun p => (s.rows Tbl.invitations).any fun i =>
    i.2.purchaseId == p.1 && p.2.parentUserId == parentUserId &&
      p.2.courseId == courseId && p.2.status == .completed &&
      i.2.studentEmail == rt.normaliseEmail studentEmail

/-- The answer to a request whose key has a committed row. -/
def replay (rt : Runtime) (body : String) (K : IdempotencyKey) : Except AppError Response :=
  if K.requestHash ≠ IdempotencyInterceptor.hashCanonicalBody rt body then
    .error (.domain .idempotencyBodyMismatch)
  else .ok (.purchase K.responseStatus (.replayed K.responseBody))

def createArgs (rt : Runtime) (user : JwtPayload) (key body : String)
    (dto : CreatePurchaseDto) : CreateArgs where
  parentUserId := user.sub
  body := dto
  idempotency :=
    { key := key
      endpoint := PURCHASE_ENDPOINT_SIGNATURE
      requestHash := IdempotencyInterceptor.hashCanonicalBody rt body }

/-- The assertion between two queries on the pool. `s₀` is what was committed at some
earlier time. -/
structure Asking (p : Pid) (s₀ : Snapshot (schema rt)) (ss : List (Snapshot (schema rt)))
    (v : BackendView rt) : Prop where
  idle : Idle p v
  trail : Trail p ss v
  past : Past s₀ v

theorem Asking.read {p : Pid} {s₀ s : Snapshot (schema rt)}
    {ss : List (Snapshot (schema rt))} {v : BackendView rt} (hasking : Asking p s₀ ss v) :
    Asking p s₀ (ss ++ [s]) (v.put p ⟨.sql (.read .pool), .ok s⟩ v.store) :=
  ⟨hasking.idle, hasking.trail.read v.store, { hasking.past with }⟩

theorem stable_asking {L : Logic (schema rt) (platform rt)} (hL : OverShop L) {p : Pid}
    (s₀ : Snapshot (schema rt)) (ss : List (Snapshot (schema rt))) :
    L.Stable p (Asking p s₀ ss) :=
  fun actor v v' hactor hstep hasking =>
    ⟨stable_idle actor v v' hactor hstep hasking.idle,
      stable_trail ss actor v v' hactor hstep hasking.trail,
      persistent_past hL s₀ actor v v' hstep hasking.past⟩

/-- The request passes the role check and the check of its key. -/
structure Admitted (rt : Runtime) (user : JwtPayload) (header : Option String)
    (key : String) : Prop where
  role : user.role = .parent
  header : header.map rt.trim = some key
  valid : IdempotencyInterceptor.validKey key = true

/-- How a request ends that began after `s₀`: `s` is the snapshot of the lookup, `c` that
of the course and `g` that of the guard. -/
inductive PurchaseEnd (p : Pid) (s₀ : Snapshot (schema rt)) (user : JwtPayload)
    (header : Option String) (body : String) (v : BackendView rt) :
    Except AppError Response → Prop
  | refused (e : DomainError) (htrail : Trail p [] v)
      (hrefused : ∀ key, ¬ Admitted rt user header key) :
      PurchaseEnd p s₀ user header body v (.error (.domain e))
  | answered (s : Snapshot (schema rt)) (key : String) (row : Entity .idempotencyKeys)
      (hkey : Admitted rt user header key) (htrail : Trail p [s] v)
      (hfound : replayRow user.sub key s = some row)
      (hrow : v.store.stored Tbl.idempotencyKeys row.1 = some row.2) :
      PurchaseEnd p s₀ user header body v (replay rt body row.2)
  | invalid (s : Snapshot (schema rt)) (key : String)
      (hkey : Admitted rt user header key) (hdto : rt.createPurchaseDto body = none)
      (htrail : Trail p [s] v)
      (hmiss : replayRow user.sub key s = none) :
      PurchaseEnd p s₀ user header body v (.error (.domain (.validationFailed [])))
  | unknownCourse (s c : Snapshot (schema rt)) (key : String) (dto : CreatePurchaseDto)
      (hkey : Admitted rt user header key) (hdto : rt.createPurchaseDto body = some dto)
      (htrail : Trail p [s, c] v) (hmiss : replayRow user.sub key s = none)
      (hunknown : s₀.get Tbl.courses dto.courseId = none) :
      PurchaseEnd p s₀ user header body v (.error (.domain (.courseNotFound dto.courseId)))
  | duplicate (s c g : Snapshot (schema rt)) (key : String) (dto : CreatePurchaseDto)
      (hkey : Admitted rt user header key) (hdto : rt.createPurchaseDto body = some dto)
      (htrail : Trail p [s, c, g] v) (hmiss : replayRow user.sub key s = none)
      (hguard : duplicateIn user.sub dto.courseId dto.studentEmail g = true) :
      PurchaseEnd p s₀ user header body v (.error (.domain .duplicatePurchaseForStudent))
  | failed (s c g : Snapshot (schema rt)) (key : String) (dto : CreatePurchaseDto)
      (e : SqlError) (hkey : Admitted rt user header key)
      (hdto : rt.createPurchaseDto body = some dto)
      (htrail : Trail p [s, c, g] v) (hmiss : replayRow user.sub key s = none)
      (hfirst : duplicateIn user.sub dto.courseId dto.studentEmail s₀ = false)
      (hguard : duplicateIn user.sub dto.courseId dto.studentEmail g = false) :
      PurchaseEnd p s₀ user header body v (.error (.queryFailed e))
  | created (s c g : Snapshot (schema rt)) (key : String) (dto : CreatePurchaseDto)
      (course : Entity .courses) (t₀ : Time) (result : TransactionResult)
      (hkey : Admitted rt user header key) (hdto : rt.createPurchaseDto body = some dto)
      (hmiss : replayRow user.sub key s = none) (hcourse : course.1 = dto.courseId)
      (hfirst : duplicateIn user.sub dto.courseId dto.studentEmail s₀ = false)
      (hguard : duplicateIn user.sub dto.courseId dto.studentEmail g = false)
      (hsale : SaleOf rt (createArgs rt user key body dto) course t₀ result)
      (hsold : Sold p [s, c, g] (createArgs rt user key body dto) result v) :
      PurchaseEnd p s₀ user header body v (.ok (.purchase PURCHASE_CREATED_STATUS
        (.created (composeCreateResponse rt result.purchase course result.invitation
          result.plaintextToken))))

section Request

variable {p : Pid} {sc : Scope (schema rt) (platform rt)} {user : JwtPayload}
  {header : Option String} {body key : String} {s₀ s : Snapshot (schema rt)}

theorem stable_purchaseEnd (out : Except AppError Response) :
    (shopLogic rt sc).Stable p fun v => PurchaseEnd p s₀ user header body v out := by
  have hL := overShop rt sc
  intro actor v v' hactor hstep hend
  have htrail (ss : List (Snapshot (schema rt))) (ht : Trail p ss v) : Trail p ss v' :=
    stable_trail ss actor v v' hactor hstep ht
  cases hend with
  | refused e ht hrefused => exact .refused e (htrail _ ht) hrefused
  | answered s key row hkey ht hfound hrow =>
      exact .answered s key row hkey (htrail _ ht) hfound
        (persistent_idempotencyKey hL _ _ actor v v' hstep hrow)
  | invalid s key hkey hdto ht hmiss => exact .invalid s key hkey hdto (htrail _ ht) hmiss
  | unknownCourse s c key dto hkey hdto ht hmiss hunknown =>
      exact .unknownCourse s c key dto hkey hdto (htrail _ ht) hmiss hunknown
  | duplicate s c g key dto hkey hdto ht hmiss hguard =>
      exact .duplicate s c g key dto hkey hdto (htrail _ ht) hmiss hguard
  | failed s c g key dto e hkey hdto ht hmiss hfirst hguard =>
      exact .failed s c g key dto e hkey hdto (htrail _ ht) hmiss hfirst hguard
  | created s c g key dto course t₀ result hkey hdto hmiss hcourse hfirst hguard hsale hsold =>
      exact .created s c g key dto course t₀ result hkey hdto hmiss hcourse hfirst hguard hsale
        (stable_sold hL result actor v v' hactor hstep hsold)

theorem findCourse_rule {dto : CreatePurchaseDto} (hkey : Admitted rt user header key)
    (hdto : rt.createPurchaseDto body = some dto) (hmiss : replayRow user.sub key s = none) :
    (shopLogic rt sc).Triple p (Asking p s₀ [s]) (findCourseOrThrow dto.courseId)
      (ends (fun course v => ∃ c, course.1 = dto.courseId ∧ Asking p s₀ [s, c] v ∧
          v.store.stored Tbl.courses course.1 = some course.2)
        fun e v => PurchaseEnd p s₀ user header body v (.error e)) := by
  have hL := overShop rt sc
  refine Triple.read_pool (R := fun c v => (Asking p s₀ [s, c] v ∧ Past c v) ∧
      (((c.rows Tbl.courses).find? fun row => row.1 == dto.courseId) = none →
        s₀.get Tbl.courses dto.courseId = none)) (stable_asking hL s₀ [s]) ?_ fun c => ?_
  · intro v c hwf hinv hasking hc
    refine ⟨⟨hasking.read, past_read hc⟩, fun hnone => ?_⟩
    have hpicks := Snapshot.picks hwf v.store.clock Tbl.courses
      fun id _ => id == dto.courseId
    rw [← hc, hnone] at hpicks
    cases hcourse : s₀.get Tbl.courses dto.courseId with
    | none => rfl
    | some course =>
        have hstored := hasking.past.fixed Tbl.courses (fun _ _ _ hallowed => hallowed)
          _ _ hcourse
        have hother := hpicks dto.courseId course hstored
        simp at hother
  cases hfound : (c.rows Tbl.courses).find? fun row => row.1 == dto.courseId with
  | none =>
      refine Triple.given (fun v _ _ hA => hA.2 rfl) fun hunknown => ?_
      simp only [Sql.answer, Prog.andThen_ret, Prog.pure_eq, hfound]
      refine Triple.weaken (Triple.throw (stable_asking hL s₀ [s, c]) fun v hasking => ?_)
        fun v _ _ hA => hA.1.1
      exact .unknownCourse s c key dto hkey hdto hasking.trail hmiss hunknown
  | some course =>
      have hlisted : course ∈ c.rows Tbl.courses := List.mem_of_find?_eq_some hfound
      refine Triple.weaken ?_ fun v _ _ hA => hA.1
      simp only [Sql.answer, Prog.andThen_ret, Prog.pure_eq, hfound]
      refine Triple.ret ((stable_asking hL s₀ [s, c]).and (persistent_past hL c).stable)
        fun v hA => ⟨c, by simpa using List.find?_some hfound, hA.1, ?_⟩
      exact hA.2.fixed Tbl.courses (fun _ _ _ hallowed => hallowed) _ _
        (Snapshot.mem_rows.mp hlisted).2

/-- A duplicate that was committed when the request arrived is found by the guard. -/
theorem duplicateIn_later {g : Snapshot (schema rt)} {v : BackendView rt} (hwf : v.store.Wf)
    (hpast : Past s₀ v) (hg : g = v.store.snapshot v.store.clock v.store.stored)
    {parentUserId courseId : Nat} {studentEmail : String}
    (hguard : duplicateIn parentUserId courseId studentEmail g = false) :
    duplicateIn parentUserId courseId studentEmail s₀ = false := by
  rw [Bool.eq_false_iff] at hguard ⊢
  intro hfirst
  apply hguard
  simp only [duplicateIn, List.any_eq_true] at hfirst ⊢
  obtain ⟨purchase, hpurchase, invitation, hinvitation, hmatch⟩ := hfirst
  have hP := hpast.fixed Tbl.purchases (fun _ _ _ hallowed => hallowed) _ _
    (Snapshot.mem_rows.mp hpurchase).2
  obtain ⟨J, hJ, hcolumns⟩ := hpast.invitations _ _ (Snapshot.mem_rows.mp hinvitation).2
  subst hg
  refine ⟨purchase, Snapshot.mem_rows.mpr ⟨hwf.lt_next hP, hP⟩, (invitation.1, J),
    Snapshot.mem_rows.mpr ⟨hwf.lt_next hJ, hJ⟩, ?_⟩
  obtain ⟨sent, rfl | ⟨now, rfl⟩⟩ := hcolumns
  · exact hmatch
  · exact hmatch

theorem guard_rule {dto : CreatePurchaseDto} {c : Snapshot (schema rt)}
    {course : Entity .courses} (hkey : Admitted rt user header key)
    (hdto : rt.createPurchaseDto body = some dto) (hmiss : replayRow user.sub key s = none)
    (hcourse : course.1 = dto.courseId) :
    (shopLogic rt sc).Triple p (Asking p s₀ [s, c])
      (assertNoDuplicatePurchaseByParent user.sub course.1 dto.studentEmail)
      (ends (fun _ v => ∃ g, (duplicateIn user.sub dto.courseId dto.studentEmail s₀ = false ∧
            duplicateIn user.sub dto.courseId dto.studentEmail g = false) ∧
          Asking p s₀ [s, c, g] v)
        fun e v => PurchaseEnd p s₀ user header body v (.error e)) := by
  have hL := overShop rt sc
  rw [hcourse]
  refine Triple.read_pool (R := fun g v =>
      (duplicateIn user.sub dto.courseId dto.studentEmail g = false →
        duplicateIn user.sub dto.courseId dto.studentEmail s₀ = false) ∧
      Asking p s₀ [s, c, g] v) (stable_asking hL s₀ [s, c])
    (fun v g hwf _ hasking hg => ⟨duplicateIn_later hwf hasking.past hg, hasking.read⟩)
    fun g => Triple.given (fun v _ _ hA => hA.1) fun hlater => ?_
  refine Triple.weaken ?_ fun v _ _ hA => hA.2
  show (shopLogic rt sc).Triple p _ (if duplicateIn user.sub dto.courseId dto.studentEmail g
    then throwDomain .duplicatePurchaseForStudent else pure ()) _
  cases hguard : duplicateIn user.sub dto.courseId dto.studentEmail g with
  | true =>
      exact Triple.throw (stable_asking hL s₀ [s, c, g]) fun v hasking =>
        .duplicate s c g key dto hkey hdto hasking.trail hmiss hguard
  | false =>
      exact Triple.ret (stable_asking hL s₀ [s, c, g]) fun v hasking =>
        ⟨g, ⟨hlater hguard, hguard⟩, hasking⟩

theorem createPurchase_rule {dto : CreatePurchaseDto}
    (hkey : Admitted rt user header key) (hdto : rt.createPurchaseDto body = some dto)
    (hmiss : replayRow user.sub key s = none) :
    (shopLogic rt sc).Triple p (Asking p s₀ [s])
      (createPurchase (createArgs rt user key body dto))
      (ends (fun response v => PurchaseEnd p s₀ user header body v
          (.ok (.purchase PURCHASE_CREATED_STATUS (.created response))))
        fun e v => PurchaseEnd p s₀ user header body v (.error e)) := by
  have hL := overShop rt sc
  refine Triple.andThen (findCourse_rule hkey hdto hmiss) (fun course => ?_)
    fun _ _ herror => herror
  refine Triple.exists fun c => ?_
  refine Triple.given (φ := course.1 = dto.courseId) (fun _ _ _ hA => hA.1) fun hcourse => ?_
  refine Triple.weaken ?_ fun v _ _ hA => hA.2
  have hstocked := persistent_course hL course.1 course.2
  refine Triple.andThen (Triple.persist hstocked (guard_rule hkey hdto hmiss hcourse))
    (fun _ => ?_) fun _ _ herror => herror.1
  have hchecked (v : BackendView rt)
      (hA : ∃ g, (duplicateIn user.sub dto.courseId dto.studentEmail s₀ = false ∧
          duplicateIn user.sub dto.courseId dto.studentEmail g = false) ∧
        Asking p s₀ [s, c, g] v) (hthere : v.store.stored Tbl.courses course.1 = some course.2) :
      ∃ g, (duplicateIn user.sub dto.courseId dto.studentEmail s₀ = false ∧
          duplicateIn user.sub dto.courseId dto.studentEmail g = false) ∧
        Asking p s₀ [s, c, g] v ∧ v.store.stored Tbl.courses course.1 = some course.2 := by
    obtain ⟨g, hguard, hasking⟩ := hA
    exact ⟨g, hguard, hasking, hthere⟩
  refine Triple.weaken (Triple.exists fun g => ?_) fun v _ _ hA => hchecked v hA.1 hA.2
  refine Triple.given (φ := duplicateIn user.sub dto.courseId dto.studentEmail s₀ = false ∧
      duplicateIn user.sub dto.courseId dto.studentEmail g = false)
    (fun _ _ _ hA => hA.1) fun hguards => ?_
  obtain ⟨hfirst, hguard⟩ := hguards
  have hrun : (shopLogic rt sc).Triple p (fun v =>
      (duplicateIn user.sub dto.courseId dto.studentEmail s₀ = false ∧
          duplicateIn user.sub dto.courseId dto.studentEmail g = false) ∧
        Asking p s₀ [s, c, g] v ∧ v.store.stored Tbl.courses course.1 = some course.2)
      (runCreateTransaction (createArgs rt user key body dto) course) _ :=
    Triple.weaken (runCreate_rule rfl) fun v _ _ hA =>
      ⟨⟨hA.2.1.idle, hA.2.1.trail⟩, hA.2.2⟩
  refine Triple.andThen hrun (fun result => ?_) fun error v herror => ?_
  · refine Triple.given (φ := ∃ t₀, SaleOf rt (createArgs rt user key body dto) course t₀ result)
      (fun _ _ _ hA => hA.1) fun hsale => ?_
    obtain ⟨t₀, hsale⟩ := hsale
    refine Triple.weaken ?_ fun v _ _ hA => hA.2
    refine Triple.andThen (enqueue_rule hsale course.2.title) (fun _ => ?_)
      fun _ _ hfalse => hfalse.elim
    exact Triple.ret (stable_sold hL result) fun v hsold =>
      .created s c g key dto course t₀ result hkey hdto hmiss hcourse hfirst hguard hsale hsold
  · obtain ⟨⟨e, rfl⟩, htrail⟩ := herror
    exact .failed s c g key dto e hkey hdto htrail hmiss hfirst hguard

/-- The controller behind the interceptor, after a lookup that found nothing. -/
theorem create_rule (hkey : Admitted rt user header key)
    (hmiss : replayRow user.sub key s = none) :
    (shopLogic rt sc).Triple p (Asking p s₀ [s])
      (PurchasesController.create user body
        { key := key
          endpoint := PURCHASE_ENDPOINT_SIGNATURE
          requestHash := IdempotencyInterceptor.hashCanonicalBody rt body })
      fun out v => PurchaseEnd p s₀ user header body v out := by
  unfold PurchasesController.create
  cases hdto : rt.createPurchaseDto body with
  | none =>
      exact Triple.throw (stable_asking (overShop rt sc) s₀ [s]) fun v hasking =>
        .invalid s key hkey hdto hasking.trail hmiss
  | some dto =>
      refine Triple.andThen (createPurchase_rule hkey hdto hmiss) (fun response => ?_)
        fun _ _ herror => herror
      exact Triple.ret (stable_purchaseEnd _) fun v hend => hend

/-- The interceptor after its lookup. -/
theorem lookup_rule (hkey : Admitted rt user header key) :
    (shopLogic rt sc).Triple p (fun v => Asking p s₀ [s] v ∧ Past s v)
      (match replayRow user.sub key s with
        | some existing =>
            if existing.2.requestHash ≠ IdempotencyInterceptor.hashCanonicalBody rt body then
              throwDomain .idempotencyBodyMismatch
            else pure (.purchase existing.2.responseStatus (.replayed existing.2.responseBody))
        | none => PurchasesController.create user body
            { key := key
              endpoint := PURCHASE_ENDPOINT_SIGNATURE
              requestHash := IdempotencyInterceptor.hashCanonicalBody rt body })
      fun out v => PurchaseEnd p s₀ user header body v out := by
  have hL := overShop rt sc
  have hstable : (shopLogic rt sc).Stable p fun v => Asking p s₀ [s] v ∧ Past s v :=
    (stable_asking hL s₀ [s]).and (persistent_past hL s).stable
  cases hfound : replayRow user.sub key s with
  | none => exact Triple.weaken (create_rule hkey hfound) fun _ _ _ hA => hA.1
  | some existing =>
      have hlisted : existing ∈ s.rows Tbl.idempotencyKeys :=
        List.mem_of_find?_eq_some hfound
      have hrow (v : BackendView rt) (hpast : Past s v) :
          v.store.stored Tbl.idempotencyKeys existing.1 = some existing.2 :=
        hpast.fixed Tbl.idempotencyKeys (fun _ _ _ hallowed => hallowed) _ _
          (Snapshot.mem_rows.mp hlisted).2
      have hanswered (v : BackendView rt) (hA : Asking p s₀ [s] v ∧ Past s v) :
          PurchaseEnd p s₀ user header body v (replay rt body existing.2) :=
        .answered s key existing hkey hA.1.trail hfound (hrow v hA.2)
      dsimp only
      unfold replay at hanswered
      split
      · rename_i hhash
        rw [if_pos hhash] at hanswered
        exact Triple.throw hstable hanswered
      · rename_i hhash
        rw [if_neg hhash] at hanswered
        exact Triple.ret hstable hanswered

theorem purchase_rule (s₀ : Snapshot (schema rt)) (user : JwtPayload) (header : Option String)
    (body : String) :
    (shopLogic rt sc).Triple p (Asking p s₀ [])
      (PurchasesController.post user header body)
      fun out v => PurchaseEnd p s₀ user header body v out := by
  have hstable : (shopLogic rt sc).Stable p (Asking p s₀ []) :=
    stable_asking (overShop rt sc) s₀ []
  unfold PurchasesController.post PurchasesController.requireRole
  split
  · rename_i hrole
    unfold IdempotencyInterceptor.intercept
    cases hheader : header.map rt.trim with
    | none =>
        refine Triple.throw hstable fun v hA => .refused _ hA.trail fun key hadmitted => ?_
        have hsome := hadmitted.header
        rw [hheader] at hsome
        cases hsome
    | some key =>
        dsimp only
        split
        · rename_i hinvalid
          refine Triple.throw hstable fun v hA => .refused _ hA.trail fun key' hadmitted => ?_
          obtain rfl := Option.some.inj (hheader.symm.trans hadmitted.header)
          rw [hadmitted.valid] at hinvalid
          cases hinvalid
        · rename_i hvalid
          have hkey : Admitted rt user header key :=
            ⟨hrole, hheader, Bool.eq_true_of_not_eq_false hvalid⟩
          refine Triple.read_pool
            (R := fun s v => Asking p s₀ [s] v ∧ Past s v) hstable
            (fun v s _ _ hasking hs => ⟨hasking.read, past_read hs⟩)
            fun s => ?_
          exact lookup_rule hkey
  · rename_i hrole
    exact Triple.throw hstable fun v hA =>
      .refused _ hA.trail fun key hadmitted => hrole hadmitted.role

end Request

end Mes
