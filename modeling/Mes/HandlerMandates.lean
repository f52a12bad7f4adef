import Mes.UnderMandate

/-!
The walk over the remaining handlers, and its result for all of them: `handler_minding`.
-/

namespace Mes

open Transact

variable {rt : Runtime} {seed : Seed} {w : BackendWorld rt} {p : Pid} {req : Request}
  {κ : Lore (schema rt)} {α β : Type}

theorem minding_pure_bind {x : Method rt α} {f : α → β} {R : α → Lore (schema rt) → Prop}
    {Q : β → Lore (schema rt) → Prop} {E : AppError → Prop} (hx : Minding seed w p req x κ R E)
    (hf : ∀ a κ', R a κ' → Q (f a) κ') :
    Minding seed w p req (x >>= fun a => pure (f a)) κ Q E :=
  minding_bind hx fun a κ' _ hR => hf a κ' hR

section Tokens

theorem minding_logout (rawToken : Option String) :
    Minding seed w p (.logout rawToken) (AuthService.logout rawToken) κ
      (fun _ _ => True) Regular := by
  cases rawToken with
  | none => exact trivial
  | some raw =>
      unfold AuthService.logout
      dsimp only
      split
      · exact trivial
      · refine minding_bind (minding_findOne regular_query .refreshTokens
          fun _ row => row.tokenHash == rt.sha256 raw) fun found κ₁ _ hfound => ?_
        cases found with
        | none => exact trivial
        | some row =>
            obtain ⟨hknown, hhash⟩ := hfound.hit row rfl
            dsimp only
            split
            · exact trivial
            · refine minding_transaction (minding_pure_bind (R := fun _ _ => True)
                (minding_revokeById fun now a hagrees hactive => ?_) fun _ _ _ => trivial)
              obtain ⟨-, -, hsame, -⟩ := fixed_eq (hagrees.same hknown.agrees)
              exact Or.inr ⟨⟨hactive, a.replacedById, rfl⟩, raw, rfl,
                hsame.trans (beq_iff_eq.mp hhash)⟩

theorem minding_deleteWhere {where_ : Time → RefreshToken → Bool}
    (hold : ∀ now a, where_ now a = true →
      RefreshTokensRepository.expiredBefore AuthService.REFRESH_TOKEN_GRACE_DAYS now a = true ∨
        RefreshTokensRepository.revokedBefore AuthService.REFRESH_TOKEN_FORENSIC_DAYS now a =
          true) :
    Minding seed w p .cleanup (RefreshTokensRepository.deleteWhere where_) κ
      (fun _ _ => True) Regular := by
  refine minding_bind (Charter.minds_sweep (C := charter seed w) regular_query
    Tbl.refreshTokens ?_) fun rows _ _ _ => minding_pure_bind (R := fun _ _ => True)
      (Charter.Minds.post (Charter.minds_sweep (C := charter seed w) regular_query
        Tbl.refreshTokens ?_) fun _ _ _ _ => trivial) fun _ _ _ => trivial
  · intro i now a _ hmatch
    exact ⟨Or.inr (Or.inr ⟨rfl, hold now a hmatch⟩), fun b hb => by cases hb⟩
  · rintro i now a ⟨hagrees, -⟩ -
    refine ⟨Or.inr (Or.inl rfl), ?_⟩
    rintro b hb
    obtain rfl := Option.some.inj hb
    exact ⟨hagrees, trivial⟩

theorem minding_runCleanup :
    Minding seed w p .cleanup AuthService.runCleanup κ
      (fun response _ => ∃ a b c, response = .cleaned a b c) Regular := by
  refine minding_bind (R := fun _ _ => True) (minding_transaction (minding_bind
    (minding_deleteWhere fun _ _ hexpired => Or.inl hexpired) fun _ _ _ _ => minding_pure_bind
      (minding_deleteWhere fun _ _ hstale => Or.inr hstale) fun _ _ _ => trivial))
      fun counts κ₁ _ _ => ?_
  exact minding_bind (R := fun _ _ => True) (minding_pure_bind (minding_query regular_query)
    fun _ _ _ => trivial) fun count _ _ _ => ⟨counts.1, counts.2, count, rfl⟩

end Tokens

section Purchases

open PurchasesService

/-- A course that was found is the one that was seeded. -/
theorem Agrees.course {i : Nat} {course : Course} (hagrees : Agrees seed w .courses i course) :
    origin seed w Tbl.courses i = some course := by
  obtain ⟨b, hb, hsame⟩ := hagrees
  exact hb.trans (congrArg some hsame.symm)

theorem Agrees.purchase {i : Nat} {purchase : Purchase}
    (hagrees : Agrees seed w .purchases i purchase) :
    origin seed w Tbl.purchases i = some purchase := by
  obtain ⟨b, hb, hsame⟩ := hagrees
  exact hb.trans (congrArg some hsame.symm)

theorem minding_findCourseOrThrow {E : AppError → Prop} (hE : ∀ e, E (.queryFailed e))
    (hmissing : ∀ id, E (.domain (.courseNotFound id))) (courseId : Nat) :
    Minding seed w p req (findCourseOrThrow courseId) κ
      (fun course _ => course.1 = courseId ∧
        origin seed w Tbl.courses course.1 = some course.2) E := by
  refine minding_bind (minding_findOne hE .courses fun id _ => id == courseId)
    fun found κ' _ hfound => ?_
  cases found with
  | none => exact hmissing courseId
  | some row =>
      obtain ⟨hknown, hid⟩ := hfound.hit row rfl
      exact ⟨beq_iff_eq.mp hid, hknown.agrees.course⟩

/-- The email of an invitation is in normal form. -/
theorem normaliseEmail_invitation (invitation : Invitation) :
    (InvitationsRepository.normaliseEmail rt invitation).studentEmail =
      rt.normaliseEmail invitation.studentEmail := by
  unfold InvitationsRepository.normaliseEmail
  split
  · rename_i hempty
    rw [hempty, Runtime.normaliseEmail, rt.normalise_empty]
  · rfl

variable {user : JwtPayload} {header : Option String} {body : String} {dto : CreatePurchaseDto}

theorem minding_issueWithinTransaction {purchaseId : Nat}
    (hdto : rt.createPurchaseDto body = some dto)
    (hown : ∃ purchase, w.view.store.born Tbl.purchases purchaseId = some (p, purchase)) :
    Minding seed w p (.createPurchase user header body)
      (InvitationsService.issueWithinTransaction purchaseId dto.studentEmail) κ
      (fun _ _ => True) Regular := by
  refine minding_bind (minding_node .randomBytes) fun plaintext _ _ _ =>
    minding_bind (minding_node .turn) fun out _ _ _ => minding_bind
      (minding_save regular_query .invitations fun _ _ _ => ?_) fun _ _ _ _ => trivial
  refine ⟨?_, ?_, dto, hdto, normaliseEmail_invitation _⟩
  · unfold InvitationsRepository.normaliseEmail
    split <;> rfl
  · obtain ⟨purchase, hpurchase⟩ := hown
    refine ⟨purchase, ?_⟩
    unfold InvitationsRepository.normaliseEmail
    split <;> exact hpurchase

theorem minding_persistWithinTransaction {args : IdempotencyKey} (howner : args.userId = user.sub) :
    Minding seed w p (.createPurchase user header body)
      (IdempotencyService.persistWithinTransaction args) κ (fun _ _ => True) Regular := by
  refine minding_attempt (E := Regular) (Charter.Minds.post (minding_save regular_query
    .idempotencyKeys fun _ _ _ => howner) fun _ _ _ _ => trivial) fun e κ' _ he => ?_
  split
  · refine minding_bind (minding_findOne regular_query .idempotencyKeys _) fun found _ _ _ => ?_
    split <;> exact trivial
  · exact he

theorem minding_runCreateTransaction {args : CreateArgs} {course : Entity .courses}
    (hrole : user.role = .parent) (howner : args.parentUserId = user.sub)
    (hdto : rt.createPurchaseDto body = some args.body) (hcourse : course.1 = args.body.courseId)
    (hprice : origin seed w Tbl.courses course.1 = some course.2) :
    Minding seed w p (.createPurchase user header body) (runCreateTransaction args course) κ
      (fun _ _ => True) Regular := by
  refine minding_transaction (minding_bind (minding_save regular_query .purchases fun now j _ => ?_)
    fun purchase κ₁ _ hinserted => minding_bind (minding_issueWithinTransaction hdto
      ⟨purchase.2, hinserted.born⟩) fun issued κ₂ _ _ => minding_bind
        (minding_persistWithinTransaction howner) fun _ _ _ _ => trivial)
  exact ⟨hrole, howner, ⟨args.body, hdto, hcourse⟩, course.2, hprice, rfl⟩

theorem minding_createPurchase {args : CreateArgs} (hrole : user.role = .parent)
    (howner : args.parentUserId = user.sub) (hdto : rt.createPurchaseDto body = some args.body) :
    Minding seed w p (.createPurchase user header body) (createPurchase args) κ
      (fun _ _ => True) Regular := by
  refine minding_bind (minding_findCourseOrThrow regular_query (fun _ => trivial) _)
    fun course κ₁ _ hcourse => minding_bind (R := fun _ _ => True) (minding_bind
      (minding_pure_bind (R := fun _ _ => True) (Q := fun _ _ => True)
        (Charter.Minds.post (minding_query regular_query) fun _ _ _ _ => trivial)
        fun _ _ _ => trivial) fun found _ _ _ => ?_) fun _ κ₂ _ _ => minding_bind
          (minding_runCreateTransaction hrole howner hdto hcourse.1 hcourse.2)
          fun result κ₃ _ _ => minding_bind (R := fun _ _ => True) (minding_pure_bind
            (minding_node _) fun _ _ _ => trivial) fun _ _ _ _ => trivial
  split <;> exact trivial

theorem minding_post (user : JwtPayload) (header : Option String) (body : String) :
    Minding seed w p (.createPurchase user header body) (PurchasesController.post user header body)
      κ (fun response _ => ∃ status answer, response = .purchase status answer) Regular := by
  unfold PurchasesController.post PurchasesController.requireRole
  split
  · rename_i hrole
    unfold IdempotencyInterceptor.intercept
    split
    · exact trivial
    · rename_i key _
      split
      · exact trivial
      · refine minding_bind (minding_findOne regular_query .idempotencyKeys _)
          fun found κ₁ _ _ => ?_
        cases found with
        | some existing =>
            dsimp only
            split
            · exact trivial
            · exact ⟨_, _, rfl⟩
        | none =>
            dsimp only [PurchasesController.create]
            split
            · exact trivial
            · rename_i dto hdto
              exact minding_pure_bind (minding_createPurchase hrole rfl hdto)
                fun response _ _ => ⟨_, _, rfl⟩
  · exact trivial

theorem minding_coursesByIds (ids : List Nat) :
    Minding seed w p req (coursesByIds ids) κ (fun _ _ => True) fun _ => True := by
  induction ids generalizing κ with
  | nil => exact trivial
  | cons id rest ih =>
      exact minding_bind (minding_findCourseOrThrow (fun _ => trivial) (fun _ => trivial) id)
        fun course _ _ _ => minding_pure_bind ih fun _ _ _ => trivial

theorem minding_listMine (user : JwtPayload) :
    Minding seed w p req (PurchasesController.listMine user) κ
      (fun response _ => ∃ list, response = .purchases list) fun _ => True := by
  have hquery (e : SqlError) : (fun _ : AppError => True) (.queryFailed e) := trivial
  unfold PurchasesController.listMine PurchasesController.requireRole
  split
  · refine minding_pure_bind (R := fun _ _ => True) (minding_bind (R := fun _ _ => True)
      (minding_pure_bind (minding_findAll hquery .purchases _) fun _ _ _ => trivial)
      fun purchases κ₁ _ _ => ?_) fun list _ _ => ⟨list, rfl⟩
    split
    · exact trivial
    · refine minding_bind (minding_coursesByIds _) fun courses κ₂ _ _ =>
        minding_bind (R := fun _ _ => True) ?_ fun invitations κ₃ _ _ => ?_
      · unfold InvitationsRepository.findManyByPurchaseIds
        split
        · exact trivial
        · exact Charter.Minds.post (minding_findAll hquery .invitations _) fun _ _ _ _ => trivial
      · split <;> exact trivial
  · exact trivial

end Purchases

section Students

open InvitationsService

variable {dto : RedeemInvitationDto}

/-- What a redemption knows of the invitation that it has marked. -/
structure Marked (seed : Seed) (w : BackendWorld rt) (dto : RedeemInvitationDto)
    (κ : Lore (schema rt)) (invitation : Entity .invitations) : Prop where
  invites : ∃ b, Invites seed w dto.token invitation.1 b ∧
    b.studentEmail = invitation.2.studentEmail ∧ b.purchaseId = invitation.2.purchaseId
  paid : κ.there Tbl.purchases invitation.2.purchaseId

theorem Marked.mono {κ' : Lore (schema rt)} {invitation : Entity .invitations}
    (hmarked : Marked seed w dto κ invitation) (hle : κ ≤ κ') :
    Marked seed w dto κ' invitation :=
  ⟨hmarked.invites, hle.2 _ _ hmarked.paid⟩

theorem Agrees.invitation {i : Nat} {a : Invitation} (ha : Agrees seed w .invitations i a) :
    ∃ b, origin seed w Tbl.invitations i = some b ∧ b.tokenHash = a.tokenHash ∧
      b.studentEmail = a.studentEmail ∧ b.purchaseId = a.purchaseId := by
  obtain ⟨b, hb, hsame⟩ := ha
  have hfield {γ : Type} (f : Invitation → γ)
      (hf : ∀ r : Invitation, f (Tbl.frozen .invitations r) = f r) : f b = f a :=
    (hf b).symm.trans ((congrArg f hsame.symm).trans (hf a))
  exact ⟨b, hb, hfield _ fun _ => rfl, hfield _ fun _ => rfl, hfield _ fun _ => rfl⟩

theorem minding_atomicRedeem : Minding seed w p (.redeem dto)
    (InvitationsRepository.atomicRedeem (rt.sha256 dto.token)) κ
    (fun found κ' => ∀ invitation, found = some invitation →
      Marked seed w dto κ' invitation) Regular := by
  refine minding_bind (Charter.minds_read regular_query .manager) ?_
  rintro s κ₁ - ⟨hreads, rfl⟩
  refine minding_bind (Charter.minds_touchEach (C := charter seed w) regular_query
    Tbl.invitations (fun i hi => ⟨?_, ?_⟩) fun row hnone => by cases hnone) ?_
  · obtain ⟨row, hmem, rfl⟩ := List.mem_map.mp hi
    have hrow := (Snapshot.mem_rows.mp (List.mem_filter.mp hmem).1).1
    exact lt_of_lt_of_le hrow (le_max_right _ _)
  · rintro now a ⟨hagrees, -⟩ hmatch
    simp only [InvitationsRepository.redeemable, Bool.and_eq_true, beq_iff_eq,
      decide_eq_true_eq] at hmatch
    refine ⟨Or.inr ⟨hmatch.1.1, hmatch.1.2, hmatch.2, rfl⟩, ?_⟩
    rintro b hb
    obtain rfl := Option.some.inj hb
    exact ⟨hagrees, trivial⟩
  · rintro rows κ' - hfound invitation hinvitation
    obtain ⟨row, hrow, rfl⟩ := Option.map_eq_some_iff.mp hinvitation
    obtain ⟨⟨hagrees, -⟩, -, ⟨now, hmatch⟩, hrefs⟩ :=
      hfound row (List.mem_of_mem_head? hrow)
    simp only [InvitationsRepository.redeemable, Bool.and_eq_true, beq_iff_eq,
      decide_eq_true_eq] at hmatch
    obtain ⟨b, hb, hhash, hemail, hpurchase⟩ := hagrees.invitation
    refine ⟨⟨b, ⟨hb, hhash.trans hmatch.1.1⟩, hemail, hpurchase⟩, ?_⟩
    exact hrefs (Tbl.purchases, row.2.purchaseId) List.mem_cons_self
      (by decide : Tbl.Lasting .purchases) fun _ _ hadds => hadds

theorem minding_resolveOrThrow : Minding seed w p (.redeem dto)
    (resolveOrThrow (rt.sha256 dto.token)) κ (fun invitation κ' =>
      Marked seed w dto κ' invitation) Regular := by
  refine minding_bind minding_atomicRedeem fun found κ₁ _ hfound => ?_
  cases found with
  | some invitation => exact hfound invitation rfl
  | none =>
      refine minding_bind (minding_findOne regular_query .invitations _) fun existing κ₂ _ _ => ?_
      cases existing with
      | none => exact trivial
      | some row =>
          dsimp only
          split <;> exact trivial

/-- The purchase of an invitation is found. -/
theorem minding_resolveCourseId {invitation : Entity .invitations}
    (hmarked : Marked seed w dto κ invitation) :
    Minding seed w p (.redeem dto) (resolveCourseId invitation) κ
      (fun courseId _ => ∃ purchase, origin seed w Tbl.purchases invitation.2.purchaseId =
        some purchase ∧ courseId = purchase.courseId) Regular := by
  refine minding_bind (Charter.minds_read regular_query .manager) ?_
  rintro s κ₁ - ⟨hreads, rfl⟩
  obtain ⟨purchase, hget⟩ := Option.isSome_iff_exists.mp (hreads.there _ _ hmarked.paid)
  obtain ⟨-, hlt⟩ := hreads.rows _ _ _ hget
  split
  · rename_i hnone
    have hmiss := List.find?_eq_none.mp hnone _ (Snapshot.mem_rows.mpr ⟨hlt, hget⟩)
    simp at hmiss
  · rename_i row hfound
    have hid := List.find?_some hfound
    have hrow := (Snapshot.mem_rows.mp (List.mem_of_find?_eq_some hfound)).2
    rw [beq_iff_eq.mp hid] at hrow
    exact ⟨row.2, (hreads.rows _ _ _ hrow).1.1.purchase, rfl⟩

theorem minding_insertEnrolment {student courseId : Nat} {invitation : Entity .invitations}
    (hmarked : Marked seed w dto κ invitation)
    (hcourse : ∃ purchase, origin seed w Tbl.purchases invitation.2.purchaseId = some purchase ∧
      courseId = purchase.courseId) :
    Minding seed w p (.redeem dto) (EnrolmentsRepository.insertWithinTransaction
      { studentUserId := student
        courseId := courseId
        sourceInvitationId := some invitation.1 }) κ (fun _ _ => True) Regular := by
  refine minding_attempt (E := Regular) (Charter.Minds.post (minding_save regular_query
    .enrolments fun _ _ _ => ?_) fun _ _ _ _ => trivial) fun e κ' _ he => ?_
  · obtain ⟨b, hinvites, -, hsame⟩ := hmarked.invites
    obtain ⟨purchase, hpurchase, hcourse⟩ := hcourse
    exact ⟨invitation.1, b, purchase, hinvites, rfl, hsame ▸ hpurchase, hcourse⟩
  · split
    · exact trivial
    · exact he

/-- A redemption for an account that exists proves its password. -/
theorem minding_redeemForExistingUser {invitation : Entity .invitations} {user : Entity .users}
    (hmarked : Marked seed w dto κ invitation) (hknown : Known seed w κ .users user) :
    Minding seed w p (.redeem dto) (redeemForExistingUser invitation user dto.password) κ
      (fun student κ' => Vouched seed w p (.redeem dto)
        (AuthService.issueToken rt student).accessToken κ') Regular := by
  unfold redeemForExistingUser
  split
  · exact trivial
  · split
    · exact trivial
    · rename_i hmatches
      refine minding_bind (minding_resolveCourseId hmarked) fun courseId κ₁ hle hcourse =>
        minding_bind (R := fun _ _ => True) (minding_attempt (E := Regular)
          (minding_bind (minding_insertEnrolment (hmarked.mono hle) hcourse)
            fun _ _ _ _ => trivial) fun e κ₂ _ he => ?_) fun _ κ₃ _ _ => ?_
      · split
        · exact trivial
        · exact he
      · obtain ⟨b, hb, hrole, -⟩ := hknown.agrees.role
        refine ⟨⟨b, hb, hrole⟩, fun hhonest => hknown.guarded hhonest dto.password ?_⟩
        -- an exception of the password library counts as a mismatch
        unfold passwordMatches at hmatches
        cases hverify : rt.argon2Verify user.2.passwordHash dto.password with
        | none => simp [hverify] at hmatches
        | some matched => simpa [hverify] using hmatches

theorem minding_redeemForNewUser {invitation : Entity .invitations}
    (hreq : w.requests p = some (.redeem dto)) (hmarked : Marked seed w dto κ invitation) :
    Minding seed w p (.redeem dto) (redeemForNewUser invitation dto) κ
      (fun student κ' => Vouched seed w p (.redeem dto)
        (AuthService.issueToken rt student).accessToken κ') Regular := by
  unfold redeemForNewUser
  split
  · exact trivial
  · rename_i hfields
    refine minding_bind (minding_hashPassword dto.password) fun digest κ₁ hle₁ hdigest =>
      minding_bind (R := fun student _ => w.view.store.born Tbl.users student.1 =
        some (p, student.2)) (minding_attempt (E := Regular) (Charter.Minds.post
          (minding_save regular_query .users fun _ _ _ => ?_) fun _ _ _ hinserted => ?_)
            fun e κ₂ _ he => ?_) fun student κ₂ hle₂ hborn => ?_
    · obtain ⟨salt, rfl⟩ := hdigest
      obtain ⟨b, hinvites, hemail, -⟩ := hmarked.invites
      exact ⟨not_not.mp hfields, invitation.1, b, salt, hinvites, by rw [hemail]; rfl⟩
    · exact hinserted.born
    · split
      · exact trivial
      · exact he
    · have hlater := hmarked.mono (le_trans hle₁ hle₂)
      refine minding_bind (minding_resolveCourseId hlater) fun courseId κ₃ hle₃ hcourse =>
        minding_pure_bind (minding_insertEnrolment (hlater.mono hle₃) hcourse) fun _ _ _ => ?_
      refine ⟨⟨student.2, ?_, rfl⟩, fun _ => Or.inl ⟨p, student.2, _, hborn, hreq, rfl⟩⟩
      rw [AuthService.issueToken, origin, hborn]

theorem minding_redeem (hreq : w.requests p = some (.redeem dto)) :
    Minding seed w p (.redeem dto) (redeem dto) κ
      (fun token κ' => Vouched seed w p (.redeem dto) token.accessToken κ') Regular := by
  refine minding_pure_bind (minding_transaction (minding_bind minding_resolveOrThrow
    fun invitation κ₁ _ hmarked => minding_bind (minding_findByEmail _)
      fun existing κ₂ hle hexisting => ?_)) fun _ _ hvouched => hvouched
  cases existing with
  | some user =>
      exact minding_redeemForExistingUser (hmarked.mono hle) (hexisting user rfl).1
  | none => exact minding_redeemForNewUser hreq (hmarked.mono hle)

/-- An enrolment and its course are read together, so the course is there. -/
theorem minding_assertEnrolled (userId courseId : Nat) :
    Minding seed w p req (LessonsService.assertEnrolled userId courseId) κ
      (fun enrolment _ => ∃ course, enrolment.2 = some course) Regular := by
  refine minding_bind (R := fun (found : Option (Entity .enrolments × Option (Entity .courses)))
      _ => ∀ enrolment, found = some enrolment → ∃ course, enrolment.2 = some course)
    (minding_bind (minding_query regular_query) ?_) fun found κ₁ _ hfound => ?_
  · rintro s κ' - ⟨hreads, -⟩ enrolment henrolment
    obtain ⟨row, hrow, rfl⟩ := Option.map_eq_some_iff.mp henrolment
    have hget := (Snapshot.mem_rows.mp (List.mem_of_find?_eq_some hrow)).2
    obtain ⟨course, hcourse⟩ := Option.isSome_iff_exists.mp (hreads.refs _ _ _ hget
      (Tbl.courses, row.2.courseId) (by simp [Tbl.refs]) (by decide : Tbl.Lasting .courses))
    have hlt := (hreads.rows _ _ _ hcourse).2
    refine Option.isSome_iff_exists.mp (List.find?_isSome.mpr
      ⟨(row.2.courseId, course), Snapshot.mem_rows.mpr ⟨hlt, hcourse⟩, ?_⟩)
    exact beq_self_eq_true row.2.courseId
  · cases found with
    | none => exact trivial
    | some enrolment => exact hfound enrolment rfl

theorem minding_findLessonsForCourse (userId courseId : Nat) :
    Minding seed w p req (LessonsService.findLessonsForCourse userId courseId) κ
      (fun _ _ => True) Regular := by
  refine minding_bind (minding_assertEnrolled userId courseId) fun enrolment κ₁ _ hcourse =>
    minding_bind (R := fun _ _ => True) (minding_pure_bind (minding_findAll regular_query
      .lessons _) fun _ _ _ => trivial) fun lessons κ₂ _ _ => ?_
  obtain ⟨course, hcourse⟩ := hcourse
  rw [hcourse]
  exact trivial

theorem minding_findLessonById (userId lessonId : Nat) :
    Minding seed w p req (LessonsService.findLessonById userId lessonId) κ
      (fun _ _ => True) Regular := by
  refine minding_bind (R := fun _ _ => True) (minding_attempt (E := Regular) (minding_bind
    (minding_findOne regular_query .lessons _) fun found κ₁ _ _ => ?_) fun e κ₂ _ he => ?_)
    fun lesson κ₃ _ _ => minding_pure_bind (R := fun _ _ => True) (minding_attempt (E := Regular)
      (Charter.Minds.post (minding_assertEnrolled userId lesson.2.courseId)
        fun _ _ _ _ => trivial) fun e κ₄ _ he => ?_) fun _ _ _ => trivial
  · cases found <;> exact trivial
  · split
    · exact trivial
    · exact he
  · split
    · exact trivial
    · exact he

end Students

/-- The worker marks the invitation of its job. -/
theorem minding_process (job : InvitationEmailJob) :
    Minding seed w p (.sendInvitationEmail job) (InvitationEmailProcessor.process job).method κ
      (fun _ _ => True) Regular := by
  rw [process_method]
  refine minding_bind (minding_findOne regular_query .invitations _) fun found κ₁ _ _ => ?_
  split
  · refine minding_bind (R := fun _ _ => True) (minding_transaction (minding_bind
      (Charter.minds_read regular_query .manager) ?_)) fun _ _ _ _ => trivial
    rintro s κ₂ - ⟨hreads, rfl⟩
    refine minding_bind (Charter.minds_touchEach (C := charter seed w) regular_query
      Tbl.invitations (fun i hi => ?_) fun row hnone => by cases hnone) fun _ _ _ _ => trivial
    obtain ⟨row, hmem, rfl⟩ := List.mem_map.mp hi
    obtain ⟨hrows, hmatch⟩ := List.mem_filter.mp hmem
    have hid : row.1 = job.invitationId := beq_iff_eq.mp (Bool.and_eq_true_iff.mp hmatch).1
    refine ⟨lt_of_lt_of_le (Snapshot.mem_rows.mp hrows).1 (le_max_right _ _), ?_⟩
    rintro now a ⟨hagrees, -⟩ hunsent
    refine ⟨Or.inr ⟨hid, Option.isNone_iff_eq_none.mp hunsent, rfl⟩, ?_⟩
    rintro b hb
    obtain rfl := Option.some.inj hb
    exact ⟨hagrees, trivial⟩
  · exact trivial

/-- The account of the access token in a response. -/
def Response.accessTokenOf : Response → Option JwtPayload
  | .session result => some result.accessToken.accessToken
  | .token out => some out.accessToken
  | _ => none

/-- An access token is handed out only to who has earned it. -/
def Earns (seed : Seed) (w : BackendWorld rt) (p : Pid) (req : Request) (response : Response)
    (κ : Lore (schema rt)) : Prop :=
  ∀ token, response.accessTokenOf = some token → Vouched seed w p req token κ

/-- The listing of purchases needs more than the foreign keys. -/
def Refuses (_ : Pid) (req : Request) (e : AppError) : Prop :=
  (∀ user, req ≠ .listMine user) → Regular e

theorem minding_requireRole {user : JwtPayload} {role : UserRole} {x : Method rt Response}
    {R : Response → Lore (schema rt) → Prop} (hx : Minding seed w p req x κ R Regular) :
    Minding seed w p req (PurchasesController.requireRole user role x) κ R Regular := by
  unfold PurchasesController.requireRole
  split
  · exact hx
  · exact trivial

theorem earns_none {response : Response} {κ' : Lore (schema rt)}
    (hnone : response.accessTokenOf = none) : Earns seed w p req response κ' := by
  intro token htoken
  rw [hnone] at htoken
  cases htoken

/-- Every request keeps to its mandate. -/
theorem handler_minding (hreq : w.requests p = some req) (hstarts : Starts seed w req) :
    (charter seed w).Minds p req (Earns seed w p req) (Refuses p req) (handler rt req) κ := by
  have hregular {x : Method rt Response} (hx : Minding seed w p req x κ
      (fun response κ' => Earns seed w p req response κ') Regular) :
      (charter seed w).Minds p req (Earns seed w p req) (Refuses p req) x κ :=
    Charter.Minds.errors hx fun e he _ => he
  cases req with
  | signup input requestMeta =>
      refine hregular (minding_pure_bind (minding_signup input requestMeta) ?_)
      rintro result κ' hvouched token ⟨⟩
      exact hvouched
  | login input requestMeta =>
      refine hregular (minding_pure_bind (minding_login input requestMeta) ?_)
      rintro result κ' hvouched token ⟨⟩
      exact hvouched
  | refresh raw requestMeta =>
      refine hregular (minding_pure_bind minding_refresh ?_)
      rintro result κ' hvouched token ⟨⟩
      exact hvouched
  | redeem dto =>
      refine hregular (minding_pure_bind (minding_redeem hreq) ?_)
      rintro result κ' hvouched token ⟨⟩
      exact hvouched
  | logout rawToken =>
      exact hregular (minding_pure_bind (minding_logout rawToken) fun _ _ _ => earns_none rfl)
  | cleanup =>
      refine hregular (Charter.Minds.post minding_runCleanup ?_)
      rintro response κ' - ⟨a, b, c, rfl⟩
      exact earns_none rfl
  | createPurchase user header body =>
      refine hregular (Charter.Minds.post (minding_post user header body) ?_)
      rintro response κ' - ⟨status, answer, rfl⟩
      exact earns_none rfl
  | listMine user =>
      refine Charter.Minds.errors (Charter.Minds.post (minding_listMine user) ?_)
        fun e _ hother => absurd rfl (hother user)
      rintro response κ' - ⟨list, rfl⟩
      exact earns_none rfl
  | listLessonsForCourse user courseId =>
      exact hregular (minding_requireRole (minding_pure_bind (minding_findLessonsForCourse _ _)
        fun _ _ _ => earns_none rfl))
  | getLesson user lessonId =>
      exact hregular (minding_requireRole (minding_pure_bind (minding_findLessonById _ _)
        fun _ _ _ => earns_none rfl))
  | sendInvitationEmail job =>
      exact hregular (minding_bind (minding_process job) fun _ _ _ _ => earns_none rfl)
  | revokeFamily familyId => exact hstarts.elim
  | rehashIfNeeded userId digest plain =>
      exact hregular (minding_pure_bind (minding_rehashIfNeeded hstarts)
        fun _ _ _ => earns_none rfl)

end Mes
