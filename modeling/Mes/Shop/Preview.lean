import Mes.Lessons.Dashboard

/-!
What is shown about accounts and invitations. A profile never changes. The preview of an
invitation joins it with its purchase, the course and the parent, which are always there, and
it tells what a redemption leads to: the account of the student and the course that the
dashboard lists from then on.
-/

namespace Mes

open Transact InvitationsService

variable {rt : Runtime} {seed : Seed} {w w' w₁ w₂ fin : BackendWorld rt} {token : String}

/-! ### Profiles -/

def profileOf (userId : Nat) (user : User) : AuthService.AuthUserProfile where
  id := userId
  email := user.email
  role := user.role
  firstName := user.firstName
  lastName := user.lastName

theorem profileOf_frozen (userId : Nat) {user user' : User}
    (hsame : Tbl.frozen .users user = Tbl.frozen .users user') :
    profileOf userId user = profileOf userId user' :=
  @congrArg User _ (Tbl.frozen .users user) (Tbl.frozen .users user') (profileOf userId) hsame

/-- An account that is there has its profile. -/
theorem getProfile_answers (hserves : Serves rt (boot rt seed) w) {userId : Nat} {user : User}
    (hstored : w.view.store.stored Tbl.users userId = some user)
    {out : Except AppError AuthService.AuthUserProfile}
    (hanswers : Answers rt (AuthService.getProfile userId) w out w') :
    out = .ok (profileOf userId user) := by
  rcases Observes.of_andThen hanswers with ⟨found, mid, hfirst, hrest⟩ | ⟨e, rfl, hfirst⟩
  · obtain ⟨mid', hbefore, -, hfound⟩ := findById_answers hserves hfirst
    obtain ⟨user', huser', hsame⟩ :=
      hserves.lasts hbefore (by decide : Tbl.Lasting .users) hstored
    rw [huser'] at hfound
    obtain rfl := Except.ok.inj hfound
    rw [← profileOf_frozen _ hsame]
    exact hrest.of_ret.1
  · obtain ⟨mid, -, -, hfound⟩ := findById_answers hserves hfirst
    cases hfound

/-- Whoever holds an access token has a profile, of the account and with the role of the token,
and every call for it answers the same. -/
theorem profile_settled (hserves : Serves rt (boot rt seed) w) {p : Pid} {req : Request}
    {response : Response} {payload : JwtPayload} (hended : w.Ended p req (.ok response))
    (htoken : response.accessTokenOf = some payload) :
    ∃ profile : AuthService.AuthUserProfile, profile.id = payload.sub ∧
      profile.role = payload.role ∧ ∀ u out u', Serves rt w u →
        Answers rt (AuthService.getProfile payload.sub) u out u' → out = .ok profile := by
  obtain ⟨user, huser, hrole⟩ := subject_stored hserves hended htoken
  refine ⟨profileOf payload.sub user, rfl, hrole, fun u out u' hlater hanswers => ?_⟩
  obtain ⟨user', huser', hsame⟩ := hserves.lasts hlater (by decide : Tbl.Lasting .users) huser
  rw [← profileOf_frozen _ hsame]
  exact getProfile_answers (hserves.trans hlater) huser' hanswers

theorem profile_settled_learning : ∃ (w : BackendWorld sampleRuntime)
    (profile : AuthService.AuthUserProfile), profile.id = 1 ∧ profile.role = .student ∧
      Answers sampleRuntime (AuthService.getProfile 1) w (.ok profile) w := by
  obtain ⟨w, hserves, -, hredeemed⟩ := sample_learning
  obtain ⟨profile, hid, hrole, hanswers⟩ := profile_settled hserves hredeemed rfl
  have hreads : (@AuthService.getProfile sampleRuntime 1).Uses Call.Queries :=
    Prog.Uses.andThen (reads_findOne _ _) fun found => by cases found <;> trivial
  obtain ⟨out, hobserved⟩ : ∃ out, Answers sampleRuntime (AuthService.getProfile 1) w out w :=
    hreads.observed w
  obtain rfl := hanswers w out w .refl hobserved
  exact ⟨w, profile, hid, hrole, hobserved⟩

/-! ### The rows behind an invitation -/

/-- The invitation with the token, and the rows that it leads to. -/
structure Linked (seed : Seed) (w : BackendWorld rt) (token : String) (k : Nat) (J : Invitation)
    (P : Purchase) (course : Course) (parent : User) : Prop where
  invitation : w.view.store.stored Tbl.invitations k = some J
  tokenHash : J.tokenHash = hashToken rt token
  purchase : w.view.store.stored Tbl.purchases J.purchaseId = some P
  course : seed.courses[P.courseId]? = some course
  parent : w.view.store.stored Tbl.users P.parentUserId = some parent

theorem invitation_frozen {J J' : Invitation}
    (hsame : Tbl.frozen .invitations J' = Tbl.frozen .invitations J) :
    J'.purchaseId = J.purchaseId ∧ J'.tokenHash = J.tokenHash ∧
      J'.studentEmail = J.studentEmail ∧ J'.expiresAt = J.expiresAt := by
  obtain ⟨purchaseId, tokenHash, studentEmail, status, expiresAt, _, _⟩ := J
  obtain ⟨purchaseId', tokenHash', studentEmail', status', expiresAt', _, _⟩ := J'
  simp only [Tbl.frozen, Invitation.mk.injEq] at hsame
  exact ⟨hsame.1, hsame.2.1, hsame.2.2.1, hsame.2.2.2.2.1⟩

theorem linked_of_stored (hserves : Serves rt (boot rt seed) w) {k : Nat} {J : Invitation}
    (hJ : w.view.store.stored Tbl.invitations k = some J)
    (hhash : J.tokenHash = hashToken rt token) :
    ∃ P course parent, Linked seed w token k J P course parent := by
  have hpurchase := (rows_chartered hserves).anchored.rows Tbl.invitations k J hJ
    (Tbl.purchases, J.purchaseId) List.mem_cons_self (by decide : Tbl.Lasting .purchases)
  obtain ⟨P, hP⟩ := Option.isSome_iff_exists.mp hpurchase
  have hparent := (rows_chartered hserves).anchored.rows Tbl.purchases _ P hP
    (Tbl.users, P.parentUserId) List.mem_cons_self (by decide : Tbl.Lasting .users)
  have hcourse := (rows_chartered hserves).anchored.rows Tbl.purchases _ P hP
    (Tbl.courses, P.courseId) (List.mem_cons_of_mem _ List.mem_cons_self)
    (by decide : Tbl.Lasting .courses)
  obtain ⟨parent, hparent⟩ := Option.isSome_iff_exists.mp hparent
  rw [printed_rows hserves (Or.inl rfl)] at hcourse
  obtain ⟨course, hcourse⟩ := Option.isSome_iff_exists.mp hcourse
  exact ⟨P, course, parent, hJ, hhash, hP, hcourse, hparent⟩

/-- The join finds the invitation with all its rows, or there is none. -/
theorem withRelations_answers (hserves : Serves rt (boot rt seed) w)
    {out : Except AppError (Option InvitationsRepository.WithRelations)}
    (hanswers : Answers rt (InvitationsRepository.findByTokenHashWithRelations
      (hashToken rt token)) w out w') :
    ∃ mid, Serves rt w mid ∧ Serves rt mid w' ∧
      ((∀ k J, mid.view.store.stored Tbl.invitations k = some J →
          J.tokenHash ≠ hashToken rt token) ∧ out = .ok none ∨
        ∃ k J P course parent, Linked seed mid token k J P course parent ∧
          out = .ok (some
            { invitation := (k, J)
              purchase := some (J.purchaseId, P)
              course := some (P.courseId, course)
              parent := some (P.parentUserId, parent) })) := by
  obtain ⟨mid, hbefore, hrest⟩ := Observes.of_read hanswers
  obtain ⟨rfl, hafter⟩ := hrest.of_ret
  have hmid : Serves rt (boot rt seed) mid := hserves.trans hbefore
  refine ⟨mid, hbefore, hafter, ?_⟩
  cases hfound : (mid.view.store.committed.rows Tbl.invitations).find? (fun row =>
      row.2.tokenHash == hashToken rt token) with
  | none =>
      refine Or.inl ⟨fun k J hJ hhash => ?_, rfl⟩
      have hmiss := List.find?_eq_none.mp hfound (k, J) (hmid.wf.mem_committed.mpr hJ)
      exact hmiss (beq_iff_eq.mpr hhash)
  | some row =>
      obtain ⟨k, J⟩ := row
      have hhash : J.tokenHash = hashToken rt token := by
        simpa using List.find?_some hfound
      obtain ⟨P, course, parent, hlinked⟩ := linked_of_stored hmid
        (hmid.wf.mem_committed.mp (List.mem_of_find?_eq_some hfound)) hhash
      have hrow (t : Tbl) (i : Nat) (r : t.Row) (hstored : mid.view.store.stored t i = some r) :
          (mid.view.store.committed.rows t).find? (fun row => row.1 == i) = some (i, r) :=
        (hmid.wf.find_committed t i).trans (congrArg _ hstored)
      have hcourse := (printed_rows hmid (Or.inl rfl) P.courseId).trans hlinked.course
      refine Or.inr ⟨k, J, P, course, parent, hlinked, ?_⟩
      simp only [Option.map_some, hrow Tbl.purchases _ P hlinked.purchase, Option.bind_some,
        hrow Tbl.courses _ course hcourse, hrow Tbl.users _ parent hlinked.parent]

/-- The student has an account with this email. -/
def StudentAccount (w : BackendWorld rt) (email : String) (userId : Nat) : Prop :=
  ∃ user : User, w.view.store.stored Tbl.users userId = some user ∧ user.email = email ∧
    user.role = .student

/-- An account is found by its email, and there is no other with it. -/
theorem findByEmail_student (hserves : Serves rt (boot rt seed) w) (email : String) :
    (((w.view.store.committed.rows Tbl.users).find? fun row => row.2.email == email).any
      fun user => user.2.role == .student) = true ↔ ∃ i, StudentAccount w email i := by
  rw [Option.any_eq_true]
  constructor
  · rintro ⟨⟨i, user⟩, hfound, hrole⟩
    have hemail : user.email = email := by simpa using List.find?_some hfound
    have hlisted : (i, user) ∈ w.view.store.committed.rows Tbl.users :=
      List.mem_of_find?_eq_some hfound
    exact ⟨i, user, hserves.wf.mem_committed.mp hlisted, hemail, beq_iff_eq.mp hrole⟩
  · rintro ⟨i, user, hstored, hemail, hrole⟩
    cases hfound : (w.view.store.committed.rows Tbl.users).find?
        fun row => row.2.email == email with
    | none =>
        have hmiss := List.find?_eq_none.mp hfound (i, user) (hserves.wf.mem_committed.mpr hstored)
        exact absurd (beq_iff_eq.mpr hemail) hmiss
    | some row =>
        obtain ⟨j, other⟩ := row
        have hother : other.email = email := by simpa using List.find?_some hfound
        have hlisted := hserves.wf.mem_committed.mp (List.mem_of_find?_eq_some hfound)
        have hplace : i = j := by
          refine hserves.wf.stored_distinct hstored hlisted ?_
          simp [Tbl.clash, hemail, hother]
        rw [← hplace, hstored] at hlisted
        rw [← Option.some.inj hlisted]
        exact ⟨(j, user), rfl, beq_iff_eq.mpr hrole⟩

/-- The preview answers with the rows behind the invitation, whatever its status. -/
theorem preview_shown (hserves : Serves rt (boot rt seed) w)
    {out : Except AppError InvitationMetaResponse}
    (hanswers : Answers rt (getMetaByToken token) w out w') :
    ∃ mid last, Serves rt w mid ∧ Serves rt mid last ∧ Serves rt last w' ∧
      ((∀ k J, mid.view.store.stored Tbl.invitations k = some J →
          J.tokenHash ≠ hashToken rt token) ∧ out = .error (.domain .invitationNotFound) ∨
        ∃ k J P course parent known, Linked seed mid token k J P course parent ∧
          (known = true ↔ ∃ i, StudentAccount last (rt.normaliseEmail J.studentEmail) i) ∧
          out = .ok
            { courseTitle := course.title
              parentEmail := parent.email
              studentEmail := J.studentEmail
              expiresAt := rt.toISOString J.expiresAt
              status := J.status
              hasExistingStudentAccount := known }) := by
  rcases Observes.of_andThen hanswers with ⟨found, u, hfirst, hrest⟩ | ⟨e, rfl, hfirst⟩
  · obtain ⟨mid, hbefore, hafter, hfound⟩ := withRelations_answers hserves hfirst
    rcases hfound with ⟨hnone, hout⟩ | ⟨k, J, P, course, parent, hlinked, hout⟩
    · obtain rfl := Except.ok.inj hout
      obtain ⟨rfl, hlater⟩ := Observes.of_throw hrest
      exact ⟨mid, u, hbefore, hafter, hlater, Or.inl ⟨hnone, rfl⟩⟩
    · obtain rfl := Except.ok.inj hout
      obtain ⟨found, hquery, rfl⟩ := Observes.of_map hrest
      obtain ⟨last, hu, hlater, rfl⟩ := findOne_answers hquery
      refine ⟨mid, last, hbefore, hafter.trans hu, hlater, Or.inr ⟨k, J, P, course, parent, _,
        hlinked, ?_, rfl⟩⟩
      exact findByEmail_student (((hserves.trans hbefore).trans hafter).trans hu) _
  · obtain ⟨mid, -, -, ⟨-, hnone⟩ | ⟨k, J, P, course, parent, -, hnone⟩⟩ :=
      withRelations_answers hserves hfirst
    · cases hnone
    · cases hnone

/-! ### What a redemption leads to -/

theorem StudentAccount.lasts {email : String} {i : Nat} (hserves : Serves rt (boot rt seed) w)
    (hlater : Serves rt w w') (haccount : StudentAccount w email i) :
    StudentAccount w' email i := by
  obtain ⟨user, hstored, rfl, hrole⟩ := haccount
  obtain ⟨user', hstored', hsame⟩ :=
    hserves.lasts hlater (by decide : Tbl.Lasting .users) hstored
  have hprofile := profileOf_frozen i hsame
  exact ⟨user', hstored', congrArg AuthService.AuthUserProfile.email hprofile,
    (congrArg AuthService.AuthUserProfile.role hprofile).trans hrole⟩

theorem StudentAccount.unique {email : String} {i j : Nat} (hserves : Serves rt (boot rt seed) w)
    (hi : StudentAccount w email i) (hj : StudentAccount w email j) : i = j := by
  obtain ⟨user, hstored, hemail, -⟩ := hi
  obtain ⟨other, hother, hemail', -⟩ := hj
  refine hserves.wf.stored_distinct hstored hother ?_
  simp [Tbl.clash, hemail, hemail']

/-- Whoever has redeemed an invitation is its student, and enrolled in the course of its
purchase. -/
theorem redeemed_enrolled (hserves : Serves rt (boot rt seed) w) {p : Pid}
    {dto : RedeemInvitationDto} {answer : AuthTokenResponse}
    (hended : w.Ended p (.redeem dto) (.ok (.token answer))) :
    ∃ k J P, w.view.store.stored Tbl.invitations k = some J ∧
      J.tokenHash = hashToken rt dto.token ∧
      w.view.store.stored Tbl.purchases J.purchaseId = some P ∧
      StudentAccount w (rt.normaliseEmail J.studentEmail) answer.accessToken.sub ∧
      Enrolled w.view.store answer.accessToken.sub P.courseId := by
  obtain ⟨user, hanswer, hend⟩ :=
    (trading_run Relation.ReflTransGen.refl hserves).1.ended hended (Nat.zero_le p)
  obtain rfl := Response.token.inj hanswer
  cases hend with
  | enrolled i J Q k hpresented _ hrow =>
      exact ⟨i, J, Q, hpresented.invitation, hpresented.tokenHash, hpresented.purchase,
        hpresented.student, k, _, hrow, rfl, rfl⟩
  | swallowed i J Q k other hpresented _ _ hrow hstudent hcourse =>
      exact ⟨i, J, Q, hpresented.invitation, hpresented.tokenHash, hpresented.purchase,
        hpresented.student, k, other, hrow, hstudent, hcourse⟩

/-- The rows behind an invitation stay, but for its status and for the password of the parent. -/
theorem Linked.lasts {k : Nat} {J : Invitation} {P : Purchase} {course : Course} {parent : User}
    (hlinked : Linked seed w token k J P course parent) (hserves : Serves rt (boot rt seed) w)
    (hlater : Serves rt w w') :
    ∃ J' parent', Linked seed w' token k J' P course parent' ∧
      J'.studentEmail = J.studentEmail ∧ J'.expiresAt = J.expiresAt ∧
      parent'.email = parent.email := by
  obtain ⟨J', hJ', hsame⟩ :=
    hserves.lasts hlater (by decide : Tbl.Lasting .invitations) hlinked.invitation
  obtain ⟨P', hP', hkept⟩ :=
    hserves.lasts hlater (by decide : Tbl.Lasting .purchases) hlinked.purchase
  obtain ⟨parent', hparent', hprofile⟩ :=
    hserves.lasts hlater (by decide : Tbl.Lasting .users) hlinked.parent
  obtain rfl : P' = P := hkept
  obtain ⟨hpurchaseId, hhash, hemail, hexpires⟩ := invitation_frozen hsame
  refine ⟨J', parent', ⟨hJ', hhash.trans hlinked.tokenHash, ?_, hlinked.course, hparent'⟩, hemail,
    hexpires, congrArg AuthService.AuthUserProfile.email (profileOf_frozen 0 hprofile)⟩
  rw [hpurchaseId]
  exact hP'

/-- One invitation has the token. -/
theorem Linked.unique {k i : Nat} {J I : Invitation} {P : Purchase} {course : Course}
    {parent : User} (hlinked : Linked seed w token k J P course parent)
    (hserves : Serves rt (boot rt seed) w) (hI : w.view.store.stored Tbl.invitations i = some I)
    (hhash : I.tokenHash = hashToken rt token) : I = J := by
  have hplace : i = k := by
    refine hserves.wf.stored_distinct hI hlinked.invitation ?_
    simp [Tbl.clash, hhash, hlinked.tokenHash]
  rw [hplace, hlinked.invitation] at hI
  exact (Option.some.inj hI).symm

/-- A redemption with the token has ended as the preview said: the account has the email of the
preview, and is the one that the preview knew of; the course of the preview is on its dashboard
from then on, and can be opened. -/
structure LeadsTo (rt : Runtime) (seed : Seed) (w₁ w₂ : BackendWorld rt)
    (preview : InvitationMetaResponse) (userId : Nat) : Prop where
  account : StudentAccount w₂ (rt.normaliseEmail preview.studentEmail) userId
  known : preview.hasExistingStudentAccount = true →
    StudentAccount w₁ (rt.normaliseEmail preview.studentEmail) userId
  listed : ∀ out w₃, Answers rt (LessonsService.findEnrolledCoursesForUser userId) w₂ out w₃ →
    ∃ list, ∃ c ∈ list, out = .ok list ∧ c.title = preview.courseTitle ∧
      OpensPage rt seed ⟨userId, .student⟩ c w₃

/-- The preview is kept. Either nobody has an invitation with the token, or the preview shows
the invitation, and every redemption with the token leads to what was shown. -/
theorem preview_kept (hserves : Serves rt (boot rt seed) w)
    {out : Except AppError InvitationMetaResponse}
    (hanswers : Answers rt (getMetaByToken token) w out w') :
    (out = .error (.domain .invitationNotFound) ∧ ∀ k J,
      w.view.store.stored Tbl.invitations k = some J → J.tokenHash ≠ hashToken rt token) ∨
    ∃ preview k J P course parent, out = .ok preview ∧
      Linked seed w' token k J P course parent ∧ preview.courseTitle = course.title ∧
      preview.parentEmail = parent.email ∧ preview.studentEmail = J.studentEmail ∧
      preview.expiresAt = rt.toISOString J.expiresAt ∧
      ∀ fin p dto answer, Serves rt w' fin → dto.token = token →
        fin.Ended p (.redeem dto) (.ok (.token answer)) →
        LeadsTo rt seed w' fin preview answer.accessToken.sub := by
  obtain ⟨mid, last, hbefore, hmid', hlater, hshown⟩ := preview_shown hserves hanswers
  have hmid : Serves rt (boot rt seed) mid := hserves.trans hbefore
  have hlast : Serves rt (boot rt seed) last := hmid.trans hmid'
  have hw' : Serves rt (boot rt seed) w' := hlast.trans hlater
  rcases hshown with ⟨hnone, rfl⟩ | ⟨k, J, P, course, parent, known, hlinked, hknown, rfl⟩
  · refine Or.inl ⟨rfl, fun k J hJ hhash => ?_⟩
    obtain ⟨J', hJ', hsame⟩ := hserves.lasts hbefore (by decide : Tbl.Lasting .invitations) hJ
    exact hnone k J' hJ' ((invitation_frozen hsame).2.1.trans hhash)
  · obtain ⟨J', parent', hlinked', hemail, hexpires, hparent⟩ :=
      hlinked.lasts hmid (hmid'.trans hlater)
    refine Or.inr ⟨_, k, J', P, course, parent', rfl, hlinked', rfl, hparent.symm, hemail.symm,
      congrArg rt.toISOString hexpires.symm, ?_⟩
    intro fin p dto answer hfin htoken hended
    have hreached : Serves rt (boot rt seed) fin := hw'.trans hfin
    obtain ⟨J₂, parent₂, hlinked₂, hemail₂, -⟩ := hlinked'.lasts hw' hfin
    obtain ⟨i, I, Q, hI, hhash, hQ, haccount, henrolled⟩ := redeemed_enrolled hreached hended
    rw [htoken] at hhash
    obtain rfl := hlinked₂.unique hreached hI hhash
    obtain rfl := Option.some.inj (hQ.symm.trans hlinked₂.purchase)
    rw [hemail₂, hemail] at haccount
    refine ⟨haccount, fun hhas => ?_, fun out w₃ hdashboard => ?_⟩
    · obtain ⟨j, hj⟩ := hknown.mp hhas
      have hthere := hj.lasts hlast hlater
      exact haccount.unique hreached (hthere.lasts hw' hfin) ▸ hthere
    · obtain ⟨mid₃, list, hfirst, hafter, rfl, -, hoffers, hids⟩ :=
        dashboard_shown hreached hdashboard
      obtain ⟨c, hlisted, hid⟩ :=
        List.mem_map.mp ((hids _).mpr (henrolled.lasts hreached hfirst))
      obtain ⟨offer, hoffer, hc⟩ := hoffers c hlisted
      rw [hid, hlinked.course] at hoffer
      refine ⟨list, c, hlisted, rfl, ?_, ?_⟩
      · rw [hc, ← Option.some.inj hoffer]
        rfl
      · have hstill := henrolled.lasts hreached (hfirst.trans hafter)
        exact enrolled_opens (hreached.trans (hfirst.trans hafter)) rfl (hoffers c hlisted)
          (hid ▸ hstill)

theorem preview_kept_learning : ∃ (w : BackendWorld sampleRuntime)
    (preview : InvitationMetaResponse), LeadsTo sampleRuntime sampleLessons w w preview 1 := by
  obtain ⟨w, hserves, -, hredeemed⟩ := sample_learning
  have hreads : (@getMetaByToken sampleRuntime "I1").Uses Call.Queries := by
    refine Prog.Uses.andThen ⟨trivial, fun res => by cases res <;> trivial⟩ fun found => ?_
    dsimp only
    split
    · trivial
    · split
      · exact Prog.Uses.andThen (reads_findOne _ _) fun _ => trivial
      · trivial
  obtain ⟨out, hanswers⟩ : ∃ out, Answers sampleRuntime (getMetaByToken "I1") w out w :=
    hreads.observed w
  rcases preview_kept hserves hanswers with ⟨-, hnone⟩ |
    ⟨preview, k, J, P, course, parent, -, -, -, -, -, -, hleads⟩
  · obtain ⟨k, J, P, hJ, hhash, -⟩ := redeemed_enrolled hserves hredeemed
    exact absurd hhash (hnone k J hJ)
  · exact ⟨w, preview, hleads w 2 sampleStudent _ .refl rfl hredeemed⟩

end Mes
