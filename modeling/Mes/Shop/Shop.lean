import Mes.RowVersions

/-!
The shop as one state: the accounts, the courses, what was bought, the invitations
and the idempotency rows that came with it, the enrolments, and the emails that
wait to be sent. `Shop.Sound` says what these are meant to satisfy together, and
`Shop.Step` lists the changes that a request makes at once. Every step keeps a
shop sound.

Nothing here mentions a program or a transaction.
-/

namespace Mes

open Transact

structure Shop where
  users : Nat → Option User
  courses : Nat → Option Course
  purchases : Nat → Option Purchase
  invitations : Nat → Option Invitation
  idempotencyKeys : Nat → Option IdempotencyKey
  enrolments : Nat → Option Enrolment
  queue : List InvitationEmailJob

/-- The invitation `I` at `j` and the idempotency row `K` belong to the purchase
`P` at `i`. -/
structure Bundle (i : Nat) (P : Purchase) (j : Nat) (I : Invitation) (K : IdempotencyKey) :
    Prop where
  invites : I.purchaseId = i
  userId : K.userId = P.parentUserId
  key : K.key = P.idempotencyKey
  endpoint : K.endpoint = PurchasesService.PURCHASE_ENDPOINT_SIGNATURE
  status : K.responseStatus = PurchasesService.PURCHASE_CREATED_STATUS
  body : K.responseBody = { purchaseId := i, invitationId := j }

namespace Shop

variable (rt : Runtime)

/-- The enrolment `e` was granted by the invitation at `i`: it is redeemed, it was
made out to the student, and its purchase is a purchase of the course. -/
structure Grant (s : Shop) (e : Enrolment) (i : Nat) (I : Invitation) (user : User)
    (P : Purchase) : Prop where
  source : e.sourceInvitationId = some i
  invitation : s.invitations i = some I
  redeemed : I.status = .redeemed
  student : s.users e.studentUserId = some user
  email : user.email = rt.normaliseEmail I.studentEmail
  role : user.role = .student
  purchase : s.purchases I.purchaseId = some P
  completed : P.status = .completed
  course : P.courseId = e.courseId

/-- The job names a committed invitation, goes to its recipient and carries a link
with its token. -/
def Announces (s : Shop) (job : InvitationEmailJob) : Prop :=
  ∃ I token, s.invitations job.invitationId = some I ∧ job.recipientEmail = I.studentEmail ∧
    job.invitationUrl = InvitationsService.buildInvitationUrl rt token ∧
    I.tokenHash = InvitationsService.hashToken rt token

structure Sound (s : Shop) : Prop where
  stocked : ∀ i P, s.purchases i = some P → ∃ course, s.courses P.courseId = some course
  bundled : ∀ i P, s.purchases i = some P →
    ∃ j I k K, s.invitations j = some I ∧ s.idempotencyKeys k = some K ∧ Bundle i P j I K
  invited : ∀ j I, s.invitations j = some I → ∃ P, s.purchases I.purchaseId = some P
  invitedOnce : ∀ j j' I I', s.invitations j = some I → s.invitations j' = some I' →
    I.purchaseId = I'.purchaseId → j = j'
  keyed : ∀ k K, s.idempotencyKeys k = some K → ∃ P I,
    s.purchases K.responseBody.purchaseId = some P ∧
      s.invitations K.responseBody.invitationId = some I ∧
      Bundle K.responseBody.purchaseId P K.responseBody.invitationId I K
  keyedOnce : ∀ i i' P P', s.purchases i = some P → s.purchases i' = some P' →
    P.parentUserId = P'.parentUserId → P.idempotencyKey = P'.idempotencyKey → i = i'
  rowOnce : ∀ k k' K K', s.idempotencyKeys k = some K → s.idempotencyKeys k' = some K' →
    K.userId = K'.userId → K.key = K'.key → k = k'
  granted : ∀ k e, s.enrolments k = some e → ∃ i I user P, s.Grant rt e i I user P
  enrols : ∀ i I, s.invitations i = some I → I.status = .redeemed →
    ∃ k e, s.enrolments k = some e ∧ e.sourceInvitationId = some i
  announced : ∀ job ∈ s.queue, s.Announces rt job
  announcedOnce : (s.queue.map InvitationEmailJob.invitationId).Nodup

/-- Accounts stay; only their password hashes change. -/
def AccountsKept (before after : Nat → Option User) : Prop :=
  ∀ id user, before id = some user → Rehashed user (after id)

/-- Invitations stay; only the marks of their emails change. -/
def EmailsMarked (before after : Nat → Option Invitation) : Prop :=
  ∀ id, ∃ sent, after id = (before id).map fun I => { I with emailSentAt := sent }

/-- What a request may do to the shop at once. -/
inductive Step (s : Shop) : Shop → Prop
  | accounts (users : Nat → Option User) (hkept : AccountsKept s.users users) :
      Step s { s with users := users }
  | buy (i j k : Nat) (P : Purchase) (I : Invitation) (K : IdempotencyKey)
      (course : Course) (hcourse : s.courses P.courseId = some course)
      (hpurchase : s.purchases i = none) (hinvitation : s.invitations j = none)
      (hrow : s.idempotencyKeys k = none) (hbundle : Bundle i P j I K)
      (hissued : I.status = .issued)
      (hkey : ∀ i' P', s.purchases i' = some P' → P'.parentUserId = P.parentUserId →
        P'.idempotencyKey ≠ P.idempotencyKey) :
      Step s
        { s with
          purchases := Function.update s.purchases i (some P)
          invitations := Function.update s.invitations j (some I)
          idempotencyKeys := Function.update s.idempotencyKeys k (some K) }
  | redeem (users : Nat → Option User) (now : Time) (i k : Nat) (I : Invitation)
      (e : Enrolment) (user : User) (P : Purchase) (hkept : AccountsKept s.users users)
      (hinvitation : s.invitations i = some I) (hissued : I.status = .issued)
      (hpurchase : s.purchases I.purchaseId = some P) (hcourse : P.courseId = e.courseId)
      (hstudent : users e.studentUserId = some user)
      (hemail : user.email = rt.normaliseEmail I.studentEmail)
      (hrole : user.role = .student) (hsource : e.sourceInvitationId = some i)
      (henrolment : s.enrolments k = none) :
      Step s
        { s with
          users := users
          invitations := Function.update s.invitations i
            (some (InvitationsRepository.markRedeemed now I))
          enrolments := Function.update s.enrolments k (some e) }
  | enqueue (job : InvitationEmailJob) (hjob : s.Announces rt job)
      (hfirst : job.invitationId ∉ s.queue.map InvitationEmailJob.invitationId) :
      Step s { s with queue := s.queue ++ [job] }
  | emails (invitations : Nat → Option Invitation)
      (hmarked : EmailsMarked s.invitations invitations) :
      Step s { s with invitations := invitations }

section Update

variable {ρ : Type} {f : Nat → Option ρ} {i : Nat} {x : ρ}

theorem update_eq_some {k : Nat} {y : ρ} (hy : Function.update f i (some x) k = some y) :
    k = i ∧ x = y ∨ k ≠ i ∧ f k = some y := by
  rcases eq_or_ne k i with rfl | hne
  · rw [Function.update_self] at hy
    exact Or.inl ⟨rfl, Option.some.inj hy⟩
  · rw [Function.update_of_ne hne] at hy
    exact Or.inr ⟨hne, hy⟩

/-- A new row leaves the others. -/
theorem update_fresh (hfresh : f i = none) {k : Nat} {y : ρ} (hy : f k = some y) :
    Function.update f i (some x) k = some y := by
  have hne : k ≠ i := by
    rintro rfl
    rw [hfresh] at hy
    cases hy
  rw [Function.update_of_ne hne, hy]

end Update

variable {rt} {s : Shop}

/-- A redeemed invitation keeps all columns but its status. -/
theorem markRedeemed_kept {i : Nat} {I : Invitation} (now : Time)
    (hinvitation : s.invitations i = some I) {j : Nat} {J : Invitation}
    (hJ : s.invitations j = some J) :
    ∃ J', Function.update s.invitations i
        (some (InvitationsRepository.markRedeemed now I)) j = some J' ∧
      J'.purchaseId = J.purchaseId ∧ J'.tokenHash = J.tokenHash ∧
      J'.studentEmail = J.studentEmail ∧ (J.status = .redeemed → J'.status = .redeemed) := by
  rcases eq_or_ne j i with rfl | hne
  · rw [hinvitation] at hJ
    obtain rfl := Option.some.inj hJ
    exact ⟨_, Function.update_self _ _ _, rfl, rfl, rfl, fun _ => rfl⟩
  · exact ⟨J, by rw [Function.update_of_ne hne, hJ], rfl, rfl, rfl, fun hstatus => hstatus⟩

theorem Sound.accounts (hsound : s.Sound rt) {users : Nat → Option User}
    (hkept : AccountsKept s.users users) : Sound rt { s with users := users } :=
  { hsound with
    granted := fun k e he => by
      obtain ⟨i, I, user, P, hgrant⟩ := hsound.granted k e he
      obtain ⟨passwordHash, huser⟩ := hkept _ user hgrant.student
      exact ⟨i, I, _, P, { hgrant with student := huser, email := hgrant.email } ⟩
    announced := hsound.announced }

theorem Sound.buy (hsound : s.Sound rt) {i j k : Nat} {P : Purchase} {I : Invitation}
    {K : IdempotencyKey} {course : Course} (hcourse : s.courses P.courseId = some course)
    (hpurchase : s.purchases i = none) (hinvitation : s.invitations j = none)
    (hrow : s.idempotencyKeys k = none) (hbundle : Bundle i P j I K) (hissued : I.status = .issued)
    (hkey : ∀ i' P', s.purchases i' = some P' → P'.parentUserId = P.parentUserId →
      P'.idempotencyKey ≠ P.idempotencyKey) :
    Sound rt
      { s with
        purchases := Function.update s.purchases i (some P)
        invitations := Function.update s.invitations j (some I)
        idempotencyKeys := Function.update s.idempotencyKeys k (some K) } where
  stocked := fun i' P' hP' => by
    rcases update_eq_some hP' with ⟨-, rfl⟩ | ⟨-, hold⟩
    · exact ⟨course, hcourse⟩
    · exact hsound.stocked i' P' hold
  bundled := fun i' P' hP' => by
    rcases update_eq_some hP' with ⟨rfl, rfl⟩ | ⟨-, hold⟩
    · exact ⟨j, I, k, K, Function.update_self _ _ _, Function.update_self _ _ _, hbundle⟩
    · obtain ⟨j', I', k', K', hI', hK', hbundle'⟩ := hsound.bundled i' P' hold
      exact ⟨j', I', k', K', update_fresh hinvitation hI', update_fresh hrow hK', hbundle'⟩
  invited := fun j' I' hI' => by
    rcases update_eq_some hI' with ⟨-, rfl⟩ | ⟨-, hold⟩
    · rw [hbundle.invites]
      exact ⟨P, Function.update_self _ _ _⟩
    · obtain ⟨P', hP'⟩ := hsound.invited j' I' hold
      exact ⟨P', update_fresh hpurchase hP'⟩
  invitedOnce := fun j₁ j₂ I₁ I₂ h₁ h₂ hsame => by
    -- an old invitation belongs to an old purchase
    have hother (j' : Nat) (I' : Invitation) (hI' : s.invitations j' = some I')
        (hpurchaseId : I'.purchaseId = I.purchaseId) : False := by
      obtain ⟨P', hP'⟩ := hsound.invited j' I' hI'
      rw [hpurchaseId, hbundle.invites, hpurchase] at hP'
      cases hP'
    rcases update_eq_some h₁ with ⟨rfl, rfl⟩ | ⟨-, hold₁⟩
    · rcases update_eq_some h₂ with ⟨rfl, -⟩ | ⟨-, hold₂⟩
      · rfl
      · exact (hother j₂ I₂ hold₂ hsame.symm).elim
    · rcases update_eq_some h₂ with ⟨rfl, rfl⟩ | ⟨-, hold₂⟩
      · exact (hother j₁ I₁ hold₁ hsame).elim
      · exact hsound.invitedOnce j₁ j₂ I₁ I₂ hold₁ hold₂ hsame
  keyed := fun k' K' hK' => by
    rcases update_eq_some hK' with ⟨-, rfl⟩ | ⟨-, hold⟩
    · rw [hbundle.body]
      exact ⟨P, I, Function.update_self _ _ _, Function.update_self _ _ _, hbundle⟩
    · obtain ⟨P', I', hP', hI', hbundle'⟩ := hsound.keyed k' K' hold
      exact ⟨P', I', update_fresh hpurchase hP', update_fresh hinvitation hI', hbundle'⟩
  keyedOnce := fun i₁ i₂ P₁ P₂ h₁ h₂ hparent hkeys => by
    rcases update_eq_some h₁ with ⟨rfl, rfl⟩ | ⟨-, hold₁⟩
    · rcases update_eq_some h₂ with ⟨rfl, -⟩ | ⟨-, hold₂⟩
      · rfl
      · exact absurd hkeys.symm (hkey i₂ P₂ hold₂ hparent.symm)
    · rcases update_eq_some h₂ with ⟨rfl, rfl⟩ | ⟨-, hold₂⟩
      · exact absurd hkeys (hkey i₁ P₁ hold₁ hparent)
      · exact hsound.keyedOnce i₁ i₂ P₁ P₂ hold₁ hold₂ hparent hkeys
  rowOnce := fun k₁ k₂ K₁ K₂ h₁ h₂ huser hkeys => by
    have hother (k' : Nat) (K' : IdempotencyKey) (hK' : s.idempotencyKeys k' = some K')
        (huser' : K'.userId = K.userId) (hkey' : K'.key = K.key) : False := by
      obtain ⟨P', I', hP', -, hbundle'⟩ := hsound.keyed k' K' hK'
      refine hkey _ P' hP' ?_ ?_
      · rw [← hbundle'.userId, huser', hbundle.userId]
      · rw [← hbundle'.key, hkey', hbundle.key]
    rcases update_eq_some h₁ with ⟨rfl, rfl⟩ | ⟨-, hold₁⟩
    · rcases update_eq_some h₂ with ⟨rfl, -⟩ | ⟨-, hold₂⟩
      · rfl
      · exact (hother k₂ K₂ hold₂ huser.symm hkeys.symm).elim
    · rcases update_eq_some h₂ with ⟨rfl, rfl⟩ | ⟨-, hold₂⟩
      · exact (hother k₁ K₁ hold₁ huser hkeys).elim
      · exact hsound.rowOnce k₁ k₂ K₁ K₂ hold₁ hold₂ huser hkeys
  granted := fun k' e he => by
    obtain ⟨i', I', user, P', hgrant⟩ := hsound.granted k' e he
    exact ⟨i', I', user, P',
      { hgrant with
        invitation := update_fresh hinvitation hgrant.invitation
        purchase := update_fresh hpurchase hgrant.purchase }⟩
  enrols := fun i' I' hI' hredeemed => by
    rcases update_eq_some hI' with ⟨-, rfl⟩ | ⟨-, hold⟩
    · rw [hissued] at hredeemed
      cases hredeemed
    · exact hsound.enrols i' I' hold hredeemed
  announced := fun job hjob => by
    obtain ⟨I', token, hI', hrest⟩ := hsound.announced job hjob
    exact ⟨I', token, update_fresh hinvitation hI', hrest⟩
  announcedOnce := hsound.announcedOnce

theorem Sound.redeem (hsound : s.Sound rt) {users : Nat → Option User} (now : Time)
    {i k : Nat} {I : Invitation} {e : Enrolment} {user : User} {P : Purchase}
    (hkept : AccountsKept s.users users) (hinvitation : s.invitations i = some I)
    (hpurchase : s.purchases I.purchaseId = some P) (hcourse : P.courseId = e.courseId)
    (hstudent : users e.studentUserId = some user)
    (hemail : user.email = rt.normaliseEmail I.studentEmail)
    (hrole : user.role = .student) (hsource : e.sourceInvitationId = some i)
    (henrolment : s.enrolments k = none) :
    Sound rt
      { s with
        users := users
        invitations := Function.update s.invitations i
          (some (InvitationsRepository.markRedeemed now I))
        enrolments := Function.update s.enrolments k (some e) } where
  stocked := hsound.stocked
  bundled := fun i' P' hP' => by
    obtain ⟨j, J, k', K, hJ, hK, hbundle⟩ := hsound.bundled i' P' hP'
    obtain ⟨J', hJ', hpurchaseId, -⟩ := markRedeemed_kept now hinvitation hJ
    exact ⟨j, J', k', K, hJ', hK, { hbundle with invites := hpurchaseId.trans hbundle.invites }⟩
  invited := fun j J' hJ' => by
    rcases update_eq_some hJ' with ⟨-, rfl⟩ | ⟨-, hold⟩
    · exact hsound.invited i I hinvitation
    · exact hsound.invited j J' hold
  invitedOnce := fun j₁ j₂ J₁ J₂ h₁ h₂ hsame => by
    rcases update_eq_some h₁ with ⟨rfl, rfl⟩ | ⟨-, hold₁⟩
    · rcases update_eq_some h₂ with ⟨rfl, -⟩ | ⟨-, hold₂⟩
      · rfl
      · exact hsound.invitedOnce _ j₂ I J₂ hinvitation hold₂ hsame
    · rcases update_eq_some h₂ with ⟨rfl, rfl⟩ | ⟨-, hold₂⟩
      · exact hsound.invitedOnce j₁ _ J₁ I hold₁ hinvitation hsame
      · exact hsound.invitedOnce j₁ j₂ J₁ J₂ hold₁ hold₂ hsame
  keyed := fun k' K hK => by
    obtain ⟨P', J, hP', hJ, hbundle⟩ := hsound.keyed k' K hK
    obtain ⟨J', hJ', hpurchaseId, -⟩ := markRedeemed_kept now hinvitation hJ
    exact ⟨P', J', hP', hJ', { hbundle with invites := hpurchaseId.trans hbundle.invites }⟩
  keyedOnce := hsound.keyedOnce
  rowOnce := hsound.rowOnce
  granted := fun k' e' he' => by
    rcases update_eq_some he' with ⟨-, rfl⟩ | ⟨-, hold⟩
    · exact ⟨i, _, user, P,
        { source := hsource
          invitation := Function.update_self _ _ _
          redeemed := rfl
          student := hstudent
          email := hemail
          role := hrole
          purchase := hpurchase
          completed := by cases P.status; rfl
          course := hcourse }⟩
    · obtain ⟨i', J, user', P', hgrant⟩ := hsound.granted k' e' hold
      obtain ⟨J', hJ', hpurchaseId, -, hstudentEmail, hstatus⟩ :=
        markRedeemed_kept now hinvitation hgrant.invitation
      obtain ⟨passwordHash, huser'⟩ := hkept _ user' hgrant.student
      refine ⟨i', J', _, P',
        { source := hgrant.source
          invitation := hJ'
          redeemed := hstatus hgrant.redeemed
          student := huser'
          email := ?_
          role := hgrant.role
          purchase := ?_
          completed := hgrant.completed
          course := hgrant.course }⟩
      · rw [hstudentEmail]
        exact hgrant.email
      · rw [hpurchaseId]
        exact hgrant.purchase
  enrols := fun i' J hJ hredeemed => by
    rcases update_eq_some hJ with ⟨rfl, -⟩ | ⟨-, hold⟩
    · exact ⟨k, e, Function.update_self _ _ _, hsource⟩
    · obtain ⟨k', e', he', hsource'⟩ := hsound.enrols i' J hold hredeemed
      exact ⟨k', e', update_fresh henrolment he', hsource'⟩
  announced := fun job hjob => by
    obtain ⟨J, token, hJ, hrecipient, hurl, hhash⟩ := hsound.announced job hjob
    obtain ⟨J', hJ', -, hhash', hemail', -⟩ := markRedeemed_kept now hinvitation hJ
    exact ⟨J', token, hJ', hrecipient.trans hemail'.symm, hurl, hhash'.trans hhash⟩
  announcedOnce := hsound.announcedOnce

theorem Sound.enqueue (hsound : s.Sound rt) {job : InvitationEmailJob}
    (hjob : s.Announces rt job)
    (hfirst : job.invitationId ∉ s.queue.map InvitationEmailJob.invitationId) :
    Sound rt { s with queue := s.queue ++ [job] } :=
  { hsound with
    granted := fun k e he => by
      obtain ⟨i, I, user, P, hgrant⟩ := hsound.granted k e he
      exact ⟨i, I, user, P, { hgrant with }⟩
    announced := fun job' hjob' => by
      rcases List.mem_append.mp hjob' with hold | hnew
      · exact hsound.announced job' hold
      · rw [List.mem_singleton.mp hnew]
        exact hjob
    announcedOnce := by
      rw [List.map_append, List.map_singleton]
      apply List.Nodup.append hsound.announcedOnce (List.nodup_singleton _)
      intro id hold hnew
      rw [List.mem_singleton.mp hnew] at hold
      exact hfirst hold }

theorem EmailsMarked.forth {before after : Nat → Option Invitation}
    (hmarked : EmailsMarked before after) {i : Nat} {I : Invitation} (hI : before i = some I) :
    ∃ sent, after i = some { I with emailSentAt := sent } := by
  obtain ⟨sent, hafter⟩ := hmarked i
  rw [hI] at hafter
  exact ⟨sent, hafter⟩

theorem EmailsMarked.back {before after : Nat → Option Invitation}
    (hmarked : EmailsMarked before after) {i : Nat} {J : Invitation} (hJ : after i = some J) :
    ∃ I sent, before i = some I ∧ J = { I with emailSentAt := sent } := by
  obtain ⟨sent, hafter⟩ := hmarked i
  rw [hJ] at hafter
  obtain ⟨I, hI, hsame⟩ := Option.map_eq_some_iff.mp hafter.symm
  exact ⟨I, sent, hI, hsame.symm⟩

theorem Sound.emails (hsound : s.Sound rt) {invitations : Nat → Option Invitation}
    (hmarked : EmailsMarked s.invitations invitations) :
    Sound rt { s with invitations := invitations } where
  stocked := hsound.stocked
  bundled := fun i P hP => by
    obtain ⟨j, I, k, K, hI, hK, hbundle⟩ := hsound.bundled i P hP
    obtain ⟨sent, hafter⟩ := hmarked.forth hI
    exact ⟨j, _, k, K, hafter, hK, { hbundle with invites := hbundle.invites }⟩
  invited := fun j J hJ => by
    obtain ⟨I, sent, hI, rfl⟩ := hmarked.back hJ
    exact hsound.invited j I hI
  invitedOnce := fun j₁ j₂ J₁ J₂ h₁ h₂ hsame => by
    obtain ⟨I₁, sent₁, hI₁, rfl⟩ := hmarked.back h₁
    obtain ⟨I₂, sent₂, hI₂, rfl⟩ := hmarked.back h₂
    exact hsound.invitedOnce j₁ j₂ I₁ I₂ hI₁ hI₂ hsame
  keyed := fun k K hK => by
    obtain ⟨P, I, hP, hI, hbundle⟩ := hsound.keyed k K hK
    obtain ⟨sent, hafter⟩ := hmarked.forth hI
    exact ⟨P, _, hP, hafter, { hbundle with invites := hbundle.invites }⟩
  keyedOnce := hsound.keyedOnce
  rowOnce := hsound.rowOnce
  granted := fun k e he => by
    obtain ⟨i, I, user, P, hgrant⟩ := hsound.granted k e he
    obtain ⟨sent, hafter⟩ := hmarked.forth hgrant.invitation
    exact ⟨i, _, user, P,
      { source := hgrant.source
        invitation := hafter
        redeemed := hgrant.redeemed
        student := hgrant.student
        email := hgrant.email
        role := hgrant.role
        purchase := hgrant.purchase
        completed := hgrant.completed
        course := hgrant.course }⟩
  enrols := fun i J hJ hredeemed => by
    obtain ⟨I, sent, hI, rfl⟩ := hmarked.back hJ
    exact hsound.enrols i I hI hredeemed
  announced := fun job hjob => by
    obtain ⟨I, token, hI, hrest⟩ := hsound.announced job hjob
    obtain ⟨sent, hafter⟩ := hmarked.forth hI
    exact ⟨_, token, hafter, hrest⟩
  announcedOnce := hsound.announcedOnce

/-- Every step keeps a shop sound. -/
theorem Step.sound {s' : Shop} (hstep : Step rt s s') (hsound : s.Sound rt) :
    s'.Sound rt := by
  cases hstep with
  | accounts users hkept => exact hsound.accounts hkept
  | buy i j k P I K course hcourse hpurchase hinvitation hrow hbundle hissued hkey =>
      exact hsound.buy hcourse hpurchase hinvitation hrow hbundle hissued hkey
  | redeem users now i k I e user P hkept hinvitation _ hpurchase hcourse hstudent hemail
      hrole hsource henrolment =>
      exact hsound.redeem now hkept hinvitation hpurchase hcourse hstudent hemail hrole
        hsource henrolment
  | enqueue job hjob hfirst => exact hsound.enqueue hjob hfirst
  | emails invitations hmarked => exact hsound.emails hmarked

end Shop

end Mes
