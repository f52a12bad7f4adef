import Mes.Shop.RedeemAnswers
import Mes.Transact.Brackets

/-!
Redeem calls that race for one account. Each of them presents its own invitation, all of
which are made out to one email that nobody has registered yet. The lookup of the account
runs outside the transaction, so several calls may find nobody and go on to create it; the
unique email stops all but one of them, after they have marked their invitations.

`Racing` is the invariant of the race. An invitation is as it was before as long as its
call has committed nothing, and whoever has the email is a student with the password of
one of the calls.
-/

namespace Mes

open Transact Transact.Logic InvitationsService

variable {rt : Runtime}

/-- One call of the race, with the invitation that it presents. -/
structure Ticket where
  dto : RedeemInvitationDto
  id : Nat
  invitation : Invitation
  purchase : Purchase

/-- The invitation is open and made out to `email`, and the call is complete. -/
structure Entered (rt : Runtime) (email : String) (stored : Committed rt) (t : Ticket) :
    Prop where
  row : stored Tbl.invitations t.id = some t.invitation
  tokenHash : t.invitation.tokenHash = hashToken rt t.dto.token
  issued : t.invitation.status = .issued
  studentEmail : rt.normaliseEmail t.invitation.studentEmail = email
  purchase : stored Tbl.purchases t.invitation.purchaseId = some t.purchase
  complete : missingFields t.dto = []
  fits : storable rt t.dto t.invitation = true

/-- The field of the race: different invitations to different courses, for a student who
has no account. -/
structure Lineup (rt : Runtime) (email : String) (stored : Committed rt)
    (tickets : List Ticket) : Prop where
  entered : ∀ t ∈ tickets, Entered rt email stored t
  apart : (tickets.map Ticket.id).Nodup
  courses : (tickets.map fun t => t.purchase.courseId).Nodup
  nobody : ∀ id user, stored Tbl.users id = some user → user.email ≠ email

/-- The call of the ticket is `p`; the calls are numbered from `n`. -/
def Holds (n : Nat) (tickets : List Ticket) (p : Pid) (t : Ticket) : Prop :=
  ∃ k, p = n + k ∧ tickets[k]? = some t

/-- The calls of the race. -/
def Runners (n : Nat) (tickets : List Ticket) (p : Pid) : Prop :=
  n ≤ p ∧ p < n + tickets.length

/-- An account with the email. -/
def Registered (rt : Runtime) (email : String) (stored : Committed rt) (id : Nat)
    (user : User) : Prop :=
  stored Tbl.users id = some user ∧ user.email = email

section Tickets

variable {n : Nat} {tickets : List Ticket} {p q : Pid} {s t : Ticket}

theorem Holds.mem (hholds : Holds n tickets p t) : t ∈ tickets := by
  obtain ⟨k, -, hk⟩ := hholds
  exact List.mem_of_getElem? hk

theorem Holds.runs (hholds : Holds n tickets p t) : Runners n tickets p := by
  obtain ⟨k, rfl, hk⟩ := hholds
  have hlt := (List.getElem?_eq_some_iff.mp hk).1
  exact ⟨Nat.le_add_right n k, Nat.add_lt_add_left hlt n⟩

theorem holds_of_mem (n : Nat) (ht : t ∈ tickets) : ∃ p, Holds n tickets p t := by
  obtain ⟨k, hk⟩ := List.mem_iff_getElem?.mp ht
  exact ⟨n + k, k, rfl, hk⟩

/-- The call has one ticket. -/
theorem Holds.unique (hs : Holds n tickets p s) (ht : Holds n tickets p t) : s = t := by
  obtain ⟨k, rfl, hk⟩ := hs
  obtain ⟨l, hl, ht⟩ := ht
  rw [← Nat.add_left_cancel hl, hk] at ht
  exact Option.some.inj ht

/-- Tickets that agree on something that is different for all of them. -/
theorem holds_apart {α : Type} {f : Ticket → α} (hnodup : (tickets.map f).Nodup)
    (hs : Holds n tickets p s) (ht : Holds n tickets q t) (hsame : f s = f t) : p = q := by
  obtain ⟨k, rfl, hk⟩ := hs
  obtain ⟨l, rfl, hl⟩ := ht
  have hlt : k < (tickets.map f).length := by
    rw [List.length_map]
    exact (List.getElem?_eq_some_iff.mp hk).1
  have hplaces : (tickets.map f)[k]? = (tickets.map f)[l]? := by
    rw [List.getElem?_map, List.getElem?_map, hk, hl, Option.map_some, Option.map_some, hsame]
  rw [(List.getElem?_inj hlt hnodup).mp hplaces]

end Tickets

/-- The rows of the race, given the rows `stored₀` from before. -/
structure Racing (rt : Runtime) (email : String) (n : Nat) (tickets : List Ticket)
    (stored₀ : Committed rt) (v : BackendView rt) : Prop where
  sound : (shop v).Sound rt
  own : ∀ p t, Holds n tickets p t →
    v.store.stored Tbl.invitations t.id = some t.invitation ∨
      (∃ now, v.store.stored Tbl.invitations t.id =
        some (InvitationsRepository.markRedeemed now t.invitation)) ∧ ¬ Harmless p v
  others : ∀ j, (∀ t ∈ tickets, t.id ≠ j) →
    v.store.stored Tbl.invitations j = stored₀ Tbl.invitations j
  purchases : ∀ t ∈ tickets,
    v.store.stored Tbl.purchases t.invitation.purchaseId = some t.purchase
  accounts : ∀ id user, Registered rt email v.store.stored id user →
    user.role = .student ∧ ∃ p t salt, Holds n tickets p t ∧
      user.passwordHash = rt.argon2Hash t.dto.password salt

section Race

variable {email : String} {n : Nat} {tickets : List Ticket} {stored₀ : Committed rt}
  {v v' : BackendView rt}

/-- A step that leaves the tables and the queue alone. -/
theorem Racing.same (hracing : Racing rt email n tickets stored₀ v)
    (hstored : v'.store.stored = v.store.stored)
    (hqueue : v'.mem.invitationEmailQueue = v.mem.invitationEmailQueue)
    (hhistory : ∀ entry ∈ v.history, entry ∈ v'.history) :
    Racing rt email n tickets stored₀ v' where
  sound := by
    rw [shop_same hstored hqueue]
    exact hracing.sound
  own := fun p t hholds => by
    rw [hstored]
    rcases hracing.own p t hholds with hsame | ⟨hmarked, hharm⟩
    · exact Or.inl hsame
    · exact Or.inr ⟨hmarked, fun hharmless => hharm fun e hmem => hharmless e (hhistory _ hmem)⟩
  others := by
    rw [hstored]
    exact hracing.others
  purchases := by
    rw [hstored]
    exact hracing.purchases
  accounts := by
    rw [hstored]
    exact hracing.accounts

/-- The rules of the shop, for the calls of the race only. -/
def raceLogic (rt : Runtime) (email : String) (n : Nat) (tickets : List Ticket)
    (stored₀ : Committed rt) : Logic (schema rt) (platform rt) where
  scope := ((rowVersions rt).logic (Scope.only (Runners n tickets))).layered
  starts := fun _ => True
  Inv := Racing rt email n tickets stored₀
  Guar := fun a v v' => ShopRule a v v' ∧ ∀ p, a = some p →
    ((rowVersions rt).logic (Scope.only (Runners n tickets))).layered.run v p v'
  spawns := fun _ _ => trivial
  quiet := fun p e v v' _ hracing hacts _ hquiet hrun => by
    have hqueue := congrArg Memory.invitationEmailQueue hquiet.mem
    refine ⟨hracing.same hquiet.store.stored hqueue fun entry hmem => ?_,
      ShopRule.quiet hquiet.store.stored hqueue, fun q hq => by rwa [← Option.some.inj hq]⟩
    rw [hacts.history]
    exact List.mem_cons_of_mem _ hmem
  tick := fun v k _ hracing =>
    ⟨hracing.same rfl rfl fun _ hmem => hmem, ⟨rfl, rfl⟩, fun q hq => by cases hq⟩
  fire := fun v timer mem _ hracing hfire => by
    have hqueue := fire_queue hfire
    exact ⟨hracing.same rfl hqueue fun _ hmem => hmem, ⟨rfl, hqueue⟩, fun q hq => by cases hq⟩

theorem overRace (rt : Runtime) (email : String) (n : Nat) (tickets : List Ticket)
    (stored₀ : Committed rt) : OverShop (raceLogic rt email n tickets stored₀) where
  inv := fun _ hracing => hracing.sound
  guar := fun _ _ _ hguar => hguar.1
  run := fun _ _ _ hrun => hrun.guar.2
  minor := fun p v v' _ hracing hacts hstored hqueue hrun => by
    obtain ⟨e, hacts⟩ := hacts
    refine ⟨hracing.same hstored hqueue fun entry hmem => ?_, ShopRule.quiet hstored hqueue,
      fun q hq => by rwa [← Option.some.inj hq]⟩
    rw [hacts.history]
    exact List.mem_cons_of_mem _ hmem

/-- The transaction of a call is about its own invitation. -/
theorem Racing.redeeming (hracing : Racing rt email n tickets stored₀ v) (hwf : v.store.Wf)
    (hlineup : Lineup rt email stored₀ tickets) {p : Pid} {t : Ticket}
    (hholds : Holds n tickets p t) {t₀ : Time} {i : Nat} {I : Invitation}
    {X : Drafts (schema rt)}
    (hredeeming : Redeeming p t₀ (hashToken rt t.dto.token) i I X v) :
    i = t.id ∧ I = t.invitation := by
  have hrow : v.store.stored Tbl.invitations t.id = some t.invitation := by
    rcases hracing.own p t hholds with hsame | ⟨-, hharm⟩
    · exact hsame
    · exact absurd hredeeming.harmless hharm
  have htoken : I.tokenHash = t.invitation.tokenHash :=
    (redeemable_iff.mp hredeeming.redeemable).1.trans
      (hlineup.entered t hholds.mem).tokenHash.symm
  have hclash : Tbl.clash .invitations I t.invitation = true := by simp [Tbl.clash, htoken]
  have hid : i = t.id := hwf.stored_distinct hredeeming.invitation hrow hclash
  refine ⟨hid, ?_⟩
  have hI := hredeeming.invitation
  rw [hid] at hI
  exact Option.some.inj (hI.symm.trans hrow)

/-- The commit of a call. -/
theorem Racing.commit (hracing : Racing rt email n tickets stored₀ v) (hwf : v.store.Wf)
    (hlineup : Lineup rt email stored₀ tickets) {p : Pid} {t : Ticket}
    (hholds : Holds n tickets p t) {t₀ : Time} {i k : Nat} {I : Invitation}
    {X : Drafts (schema rt)} {user : Entity .users} {Q : Purchase}
    (hredeeming : Redeeming p t₀ (hashToken rt t.dto.token) i I
      (X.set Tbl.enrolments k (some (enrolmentRow user.1 Q.courseId i))) v)
    (hQ : v.store.stored Tbl.purchases I.purchaseId = some Q)
    (henrols : Enrols rt t.dto I v.store.stored X user) :
    Racing rt email n tickets stored₀
      (v.put p ⟨.sql .commit, true⟩ (v.store.finish p true)) := by
  obtain ⟨rfl, rfl⟩ := hracing.redeeming hwf hlineup hholds hredeeming
  have hshop := shop_redemption ⟨.sql .commit, true⟩ hredeeming henrols
  have hrow (j : Nat) := congrFun (congrArg Shop.invitations hshop) j
  refine
    { sound := (redemption_step ⟨.sql .commit, true⟩ hredeeming hQ henrols).sound hracing.sound
      own := fun q s hs => ?_
      others := fun j hj => ?_
      purchases := fun s hs =>
        (congrFun (congrArg Shop.purchases hshop) _).trans (hracing.purchases s hs)
      accounts := fun id account hregistered => ?_ }
  · rcases eq_or_ne s.id t.id with hsame | hother
    · obtain rfl : q = p := holds_apart hlineup.apart hs hholds hsame
      obtain rfl := hs.unique hholds
      refine Or.inr ⟨⟨t₀, (hrow s.id).trans (Function.update_self _ _ _)⟩, fun hharmless => ?_⟩
      exact hharmless ⟨.sql .commit, true⟩ List.mem_cons_self True.intro
    · have hkept := (hrow s.id).trans (Function.update_of_ne hother _ _)
      rcases hracing.own q s hs with hsame | ⟨⟨now, hmarked⟩, hharm⟩
      · exact Or.inl (hkept.trans hsame)
      · exact Or.inr ⟨⟨now, hkept.trans hmarked⟩, fun hharmless => hharm fun e hmem =>
          hharmless e (List.mem_cons_of_mem _ hmem)⟩
  · have hother : j ≠ t.id := fun hsame => hj t hholds.mem hsame.symm
    exact ((hrow j).trans (Function.update_of_ne hother _ _)).trans (hracing.others j hj)
  · obtain ⟨haccount, hemail⟩ := hregistered
    have husers : X.onto v.store.stored Tbl.users id = some account :=
      (congrFun (congrArg Shop.users hshop) id).symm.trans haccount
    cases henrols with
    | known user hknown => exact hracing.accounts id account ⟨husers, hemail⟩
    | new id' salt =>
        rw [Drafts.onto_set_same, Drafts.onto_empty] at husers
        rcases Shop.update_eq_some husers with ⟨-, rfl⟩ | ⟨-, hold⟩
        · have hcolumns := studentRow_columns rt t.dto t.invitation.studentEmail
            (rt.argon2Hash t.dto.password salt)
          exact ⟨hcolumns.2.1, p, t, salt, hholds, hcolumns.2.2⟩
        · exact hracing.accounts id account ⟨hold, hemail⟩

/-! ### What the rows say -/

section Rows

variable (hracing : Racing rt email n tickets stored₀ v) {p : Pid} {t : Ticket}
  (hholds : Holds n tickets p t) {id : Nat} {user : User}
include hracing hholds

/-- The columns of an invitation that its redemption keeps. -/
theorem Racing.columns : ∃ J, v.store.stored Tbl.invitations t.id = some J ∧
    J.purchaseId = t.invitation.purchaseId ∧ J.studentEmail = t.invitation.studentEmail ∧
    J.tokenHash = t.invitation.tokenHash := by
  rcases hracing.own p t hholds with hsame | ⟨⟨now, hmarked⟩, -⟩
  · exact ⟨_, hsame, rfl, rfl, rfl⟩
  · exact ⟨_, hmarked, rfl, rfl, rfl⟩

/-- A call that has committed nothing has left its invitation alone. -/
theorem Racing.untouched (hharmless : Harmless p v) :
    v.store.stored Tbl.invitations t.id = some t.invitation := by
  rcases hracing.own p t hholds with hsame | ⟨-, hharm⟩
  · exact hsame
  · exact absurd hharmless hharm

/-- Nobody is enrolled in the course of an invitation that is still open. -/
theorem Racing.enrolled_redeemed {v₀ : BackendView rt} (hbefore : (shop v₀).Sound rt)
    (hlineup : Lineup rt email v₀.store.stored tickets) (hstored₀ : stored₀ = v₀.store.stored)
    (haccount : Registered rt email v.store.stored id user) {k : Nat} {e : Enrolment}
    (hrow : v.store.stored Tbl.enrolments k = some e) (hstudent : e.studentUserId = id)
    (hcourse : e.courseId = t.purchase.courseId) :
    ∃ J, v.store.stored Tbl.invitations t.id = some J ∧ J.status = .redeemed := by
  obtain ⟨j, J, U, Q, hgrant⟩ := hracing.sound.granted k e hrow
  by_cases hmine : ∃ s ∈ tickets, s.id = j
  · -- the call of another ticket is about another course
    obtain ⟨s, hs, rfl⟩ := hmine
    obtain ⟨q, hq⟩ := holds_of_mem n hs
    obtain ⟨J', hJ', hpurchase, -⟩ := hracing.columns hq
    obtain rfl := Option.some.inj (hJ'.symm.trans hgrant.invitation)
    have hQ : v.store.stored Tbl.purchases J'.purchaseId = some Q := hgrant.purchase
    rw [hpurchase, hracing.purchases s hs] at hQ
    obtain rfl := Option.some.inj hQ
    have hpid : q = p := holds_apart hlineup.courses hq hholds (hgrant.course.trans hcourse)
    rw [hpid] at hq
    obtain rfl := hq.unique hholds
    exact ⟨J', hJ', hgrant.redeemed⟩
  · -- an older redemption would have an older account
    have hold : v₀.store.stored Tbl.invitations j = some J := by
      rw [← hstored₀, ← hracing.others j fun s hs hid => hmine ⟨s, hs, hid⟩]
      exact hgrant.invitation
    obtain ⟨k₀, e₀, he₀, hsource₀⟩ := hbefore.enrols j J hold hgrant.redeemed
    obtain ⟨j', J', U₀, Q₀, hgrant₀⟩ := hbefore.granted k₀ e₀ he₀
    obtain rfl : j = j' := Option.some.inj (hsource₀.symm.trans hgrant₀.source)
    obtain rfl : J = J' := Option.some.inj (hold.symm.trans hgrant₀.invitation)
    have hU : v.store.stored Tbl.users e.studentUserId = some U := hgrant.student
    rw [hstudent, haccount.1] at hU
    obtain rfl := Option.some.inj hU
    have hemail : U₀.email = email := by rw [hgrant₀.email, ← hgrant.email, haccount.2]
    exact absurd hemail (hlineup.nobody _ U₀ hgrant₀.student)

/-- A call that has returned a token has enrolled its student. -/
theorem Racing.returned (hwf : v.store.Wf) {v₀ : BackendView rt}
    (hbefore : (shop v₀).Sound rt) (hlineup : Lineup rt email v₀.store.stored tickets)
    (hstored₀ : stored₀ = v₀.store.stored) {sc : Scope (schema rt) (platform rt)}
    {account : Entity .users} (hend : RedeemEnd sc p t.dto account v) :
    ∃ user k, Registered rt email v.store.stored account.1 user ∧
      v.store.stored Tbl.enrolments k =
        some (enrolmentRow account.1 t.purchase.courseId t.id) ∧
      v.store.born Tbl.enrolments k =
        some (p, enrolmentRow account.1 t.purchase.courseId t.id) := by
  have hentered := hlineup.entered t hholds.mem
  have hpresents {i : Nat} {J : Invitation} {Q : Purchase}
      (hpresented : Presented t.dto account i J Q v.store.stored) :
      i = t.id ∧ Q = t.purchase ∧
        ∃ user, Registered rt email v.store.stored account.1 user := by
    obtain ⟨J', hJ', hpurchase, hstudentEmail, htoken⟩ := hracing.columns hholds
    have hclash : Tbl.clash .invitations J J' = true := by
      simp [Tbl.clash, htoken, hpresented.tokenHash, hentered.tokenHash]
    have hid : i = t.id := hwf.stored_distinct hpresented.invitation hJ' hclash
    have hJ := hpresented.invitation
    rw [hid, hJ'] at hJ
    obtain rfl := Option.some.inj hJ
    have hQ := hpresented.purchase
    rw [hpurchase, hracing.purchases t hholds.mem] at hQ
    obtain ⟨U, hU, hemail, -⟩ := hpresented.student
    refine ⟨hid, (Option.some.inj hQ).symm, U, hU, ?_⟩
    rw [hemail, hstudentEmail, hentered.studentEmail]
  cases hend with
  | enrolled i J Q k hpresented hredeemed hrow hborn =>
      obtain ⟨rfl, rfl, user, haccount⟩ := hpresents hpresented
      exact ⟨user, k, haccount, hrow, hborn⟩
  | swallowed i J Q k other hpresented hharmless hagain hrow hstudent hcourse =>
      obtain ⟨rfl, rfl, user, haccount⟩ := hpresents hpresented
      obtain ⟨J', hJ', hredeemed⟩ := hracing.enrolled_redeemed hholds hbefore hlineup hstored₀
        haccount hrow hstudent hcourse
      rw [hracing.untouched hholds hharmless] at hJ'
      obtain rfl := Option.some.inj hJ'
      rw [hentered.issued] at hredeemed
      cases hredeemed

end Rows

/-! ### The calls -/

/-- How a call of the race fails: its invitation has expired, or the account is there. -/
inductive RaceFailure (rt : Runtime) (email : String) (t : Ticket) (e : AppError) (now : Time)
    (stored : Committed rt) : Prop
  | expired (d : DomainError) (herror : e = .domain d) (hd : Unredeemable d)
      (hlate : t.invitation.expiresAt ≤ now) : RaceFailure rt email t e now stored
  | taken (herror : e = .domain .invitationEmailConflict) (id : Nat) (user : User)
      (haccount : Registered rt email stored id user) : RaceFailure rt email t e now stored

theorem persistent_raceFailure {L : Logic (schema rt) (platform rt)} (hL : OverShop L)
    (t : Ticket) (e : AppError) :
    L.Persistent fun v => RaceFailure rt email t e v.store.clock v.store.stored := by
  intro actor v v' hstep hfailure
  cases hfailure with
  | expired d herror hd hlate => exact .expired d herror hd (hlate.trans hstep.clock_le)
  | taken herror id user haccount =>
      obtain ⟨user', huser', hemail, -⟩ := persistent_user hL id user.email user.role actor v v'
        hstep ⟨user, haccount.1, rfl, rfl⟩
      exact .taken herror id user' ⟨huser', hemail.trans haccount.2⟩

/-- A call whose update has found no row came too late. -/
theorem Racing.missed (hracing : Racing rt email n tickets stored₀ v) (hwf : v.store.Wf)
    (hlineup : Lineup rt email stored₀ tickets) {p : Pid} {t : Ticket}
    (hholds : Holds n tickets p t) {t₀ : Time} (hinside : Inside p t₀ Drafts.empty v)
    (hharmless : Harmless p v)
    (hnone : ∀ i I, v.store.stored Tbl.invitations i = some I →
      InvitationsRepository.redeemable (hashToken rt t.dto.token) t₀ I = false) :
    t.invitation.expiresAt ≤ v.store.clock := by
  have hentered := hlineup.entered t hholds.mem
  rcases hracing.own p t hholds with hrow | ⟨-, hharm⟩
  · have hclosed := hnone t.id t.invitation hrow
    rw [← Bool.not_eq_true, redeemable_iff] at hclosed
    have hlate : t.invitation.expiresAt ≤ t₀ :=
      Nat.le_of_not_lt fun hopen => hclosed ⟨hentered.tokenHash, hentered.issued, hopen⟩
    exact hlate.trans (hwf.started p _ hinside.1)
  · exact absurd hharmless hharm

/-- A call whose account is refused finds the email taken. -/
theorem Racing.refused (hargon : ∀ plain salt, (rt.argon2Hash plain salt).length ≤ 255)
    (hracing : Racing rt email n tickets stored₀ v) (hwf : v.store.Wf)
    (hlineup : Lineup rt email stored₀ tickets) {p : Pid} {t : Ticket}
    (hholds : Holds n tickets p t) {t₀ : Time} {i : Nat} {I : Invitation}
    {salt : String} {e : SqlError}
    (hredeeming : Redeeming p t₀ (hashToken rt t.dto.token) i I Drafts.empty v)
    (hrefuses : v.store.Refuses p Tbl.users (studentRow rt t.dto I.studentEmail
      (rt.argon2Hash t.dto.password salt)) e) :
    accountError e = .domain .invitationEmailConflict ∧
      ∃ id user, Registered rt email v.store.stored id user := by
  obtain ⟨rfl, rfl⟩ := hracing.redeeming hwf hlineup hholds hredeeming
  have hentered := hlineup.entered t hholds.mem
  cases e with
  | inFailedTransaction => exact hrefuses.elim
  | foreignKeyViolation =>
      obtain ⟨ref, hmem, -⟩ := hrefuses
      cases hmem
  | dataException =>
      have hmisfit : Tbl.admits rt .users (studentRow rt t.dto t.invitation.studentEmail
        (rt.argon2Hash t.dto.password salt)) = false := hrefuses
      rw [student_admitted hargon, hentered.fits] at hmisfit
      cases hmisfit
  | uniqueViolation =>
      obtain ⟨id, other, hclash, hstored | hdraft⟩ := hrefuses
      · have hcolumns := studentRow_columns rt t.dto t.invitation.studentEmail
          (rt.argon2Hash t.dto.password salt)
        have hemail : (studentRow rt t.dto t.invitation.studentEmail
          (rt.argon2Hash t.dto.password salt)).email = other.email := eq_of_beq hclash
        exact ⟨rfl, id, other, hstored, by rw [← hemail, hcolumns.1, hentered.studentEmail]⟩
      · rw [hredeeming.inside.2, Drafts.set_other _ _ _ (by simp)] at hdraft
        cases hdraft

/-- A call of the race keeps to its rules. -/
def raceProof (hargon : ∀ plain salt, (rt.argon2Hash plain salt).length ≤ 255)
    (hlineup : Lineup rt email stored₀ tickets) {p : Pid} {t : Ticket}
    (hholds : Holds n tickets p t) :
    RedeemProof (raceLogic rt email n tickets stored₀) p t.dto where
  failure := RaceFailure rt email t
  duplicate := Swallowed (Scope.only (Runners n tickets)) p t.dto
  success := RedeemEnd (Scope.only (Runners n tickets)) p t.dto
  failurePersistent := persistent_raceFailure (overRace rt email n tickets stored₀) t
  duplicatePersistent := persistent_swallowed (overRace rt email n tickets stored₀) _ p t.dto
  successStable := stable_redeemEnd (overRace rt email n tickets stored₀) _ p t.dto
  missed := fun _ _ hwf hracing hinside hharmless hnone e he =>
    .expired e rfl he (hracing.missed hwf hlineup hholds hinside hharmless hnone)
  conflict := by
    intro v t₀ i I user hwf hracing hredeeming huser hemail hreason
    obtain ⟨rfl, rfl⟩ := hracing.redeeming hwf hlineup hholds hredeeming
    exact .taken rfl user.1 user.2
      ⟨huser, hemail.trans (hlineup.entered t hholds.mem).studentEmail⟩
  incomplete := fun hmissing => absurd (hlineup.entered t hholds.mem).complete hmissing
  refused := by
    intro v t₀ i I salt e hwf hracing hredeeming hrefuses
    obtain ⟨herror, id, user, haccount⟩ :=
      hracing.refused hargon hwf hlineup hholds hredeeming hrefuses
    exact .taken herror id user haccount
  again := fun _ _ _ _ _ _ _ _ _ _ hredeeming hQ hknown hrow hstudent hcourse hrun =>
    swallowed_of_again hredeeming hQ hknown hrow hstudent hcourse hrun.guar.1
  repeated := fun _ _ hswallowed hharmless => hswallowed.ends hharmless
  enrolled := by
    intro v v' t₀ i I X user Q k hwf hracing hredeeming hQ henrols hrun hv'
    subst hv'
    exact ⟨hracing.commit hwf hlineup hholds hredeeming hQ henrols,
      ⟨⟨hrun.guar.2, Or.inl rfl,
        Or.inr (redemption_step ⟨.sql .commit, true⟩ hredeeming hQ henrols)⟩,
        fun q hq => by rwa [← Option.some.inj hq]⟩,
      redeemEnd_commit _ hredeeming hQ henrols⟩

/-- How the call of a ticket ends. -/
def RunnerPost (rt : Runtime) (email : String) (n : Nat) (tickets : List Ticket) (p : Pid)
    (_ : Request) (out : Except AppError Response) (v : BackendView rt) : Prop :=
  ∀ t, Holds n tickets p t →
    ends (fun response v => ∃ user, response = .token (AuthService.issueToken rt user) ∧
        RedeemEnd (Scope.only (Runners n tickets)) p t.dto user v)
      (fun e v => RaceFailure rt email t e v.store.clock v.store.stored ∧ Harmless p v) out v

/-- The request of a ticket. -/
def Ticket.request (t : Ticket) : Request :=
  .redeem t.dto

/-- Where the race starts. -/
theorem Lineup.racing (hlineup : Lineup rt email v.store.stored tickets)
    (hsound : (shop v).Sound rt) : Racing rt email n tickets v.store.stored v where
  sound := hsound
  own := fun _ t hholds => Or.inl (hlineup.entered t hholds.mem).row
  others := fun _ _ => rfl
  purchases := fun t ht => (hlineup.entered t ht).purchase
  accounts := fun id user hregistered =>
    absurd hregistered.2 (hlineup.nobody id user hregistered.1)

variable {w₀ w : BackendWorld rt}

/-- The calls of the race are under the control of its logic. -/
theorem runners_called (hargon : ∀ plain salt, (rt.argon2Hash plain salt).length ≤ 255)
    (hwf : w₀.view.store.Wf) (hsound : (shop w₀.view).Sound rt)
    (hunused : ∀ p, w₀.procs.length ≤ p → Unused p w₀.view)
    (hlineup : Lineup rt email w₀.view.store.stored tickets) :
    (raceLogic rt email w₀.procs.length tickets w₀.view.store.stored).Called (handler rt)
      (Runners w₀.procs.length tickets) (RunnerPost rt email w₀.procs.length tickets) w₀
      (tickets.map Ticket.request) where
  wf := hwf
  inv := hlineup.racing hsound
  unused := hunused
  scope := fun _ _ _ hrun => hrun.guar.1
  new := fun p hp => by rwa [List.length_map]
  safe := by
    intro k req hreq _
    rw [List.getElem?_map, Option.map_eq_some_iff] at hreq
    obtain ⟨t, ht, rfl⟩ := hreq
    have hholds : Holds w₀.procs.length tickets (w₀.procs.length + k) t := ⟨k, rfl, ht⟩
    have hfresh := hunused (w₀.procs.length + k) (Nat.le_add_right _ _)
    have hsafe := (raceProof hargon hlineup hholds).call_rule (overRace rt email _ tickets _)
      w₀.view hwf (hlineup.racing hsound) ⟨hfresh.idle, harmless_of_silent hfresh.silent⟩
    refine Safe.post (fun out v hpost s hs => ?_) hsafe
    obtain rfl := hs.unique hholds
    exact hpost
  others := fun _ _ _ _ hother _ hholds => absurd hholds.runs hother

end Race

/-! ### Transactions of the calls -/

theorem redeemInTransaction_plain (dto : RedeemInvitationDto) :
    (redeemInTransaction dto : Method rt _).Uses Call.Plain := by
  have hcourse (invitation : Entity .invitations) :
      (resolveCourseId invitation : Method rt Nat).Uses Call.Plain := by
    refine Prog.Uses.andThen (Prog.plain_read .manager) fun s => ?_
    split <;> trivial
  have hinsert (row : Enrolment) :
      (EnrolmentsRepository.insertWithinTransaction row : Method rt _).Uses Call.Plain := by
    refine Prog.Uses.attempt ⟨trivial, Prog.plain_answer⟩ fun error => ?_
    split <;> trivial
  have hresolve : (resolveOrThrow (hashToken rt dto.token) : Method rt _).Uses Call.Plain := by
    refine Prog.Uses.andThen (Prog.Uses.andThen (Prog.plain_read .manager) fun s =>
      Prog.Uses.andThen (Prog.plain_touchEach _ _ _ _ _) fun _ => trivial) fun redeemed => ?_
    cases redeemed with
    | some row => trivial
    | none =>
        refine Prog.Uses.andThen (Prog.Uses.andThen (Prog.plain_read .pool) fun _ => trivial)
          fun found => ?_
        cases found with
        | none => trivial
        | some existing =>
            dsimp only
            split <;> trivial
  refine Prog.Uses.andThen hresolve fun invitation => ?_
  refine Prog.Uses.andThen (Prog.Uses.andThen (Prog.plain_read .pool) fun _ => trivial)
    fun existing => ?_
  cases existing with
  | some student =>
      show (redeemForExistingUser invitation student dto.password).Uses Call.Plain
      unfold redeemForExistingUser
      split
      · trivial
      · split
        · trivial
        · refine Prog.Uses.andThen (hcourse _) fun courseId =>
            Prog.Uses.andThen ?_ fun _ => trivial
          refine Prog.Uses.attempt (Prog.Uses.andThen (hinsert _) fun _ => trivial) fun error => ?_
          split <;> trivial
  | none =>
      show (redeemForNewUser invitation dto).Uses Call.Plain
      unfold redeemForNewUser
      split
      · trivial
      · refine Prog.Uses.andThen ⟨trivial, fun _ => trivial⟩ fun passwordHash =>
          Prog.Uses.andThen ?_ fun student => ?_
        · refine Prog.Uses.attempt ⟨trivial, Prog.plain_answer⟩ fun error => ?_
          split <;> trivial
        · exact Prog.Uses.andThen (hcourse _) fun courseId =>
            Prog.Uses.andThen (hinsert _) fun _ => trivial

/-- A redeem call closes the transaction that it opens. -/
theorem redeem_leaves (dto : RedeemInvitationDto) (starts : Request → Prop) :
    (handler rt (.redeem dto)).Leaves starts false :=
  Prog.Leaves.andThen (Prog.Leaves.andThen
    (Prog.leaves_transaction (redeemInTransaction_plain dto)) fun _ => rfl) fun _ => rfl

/-! ### The second attempt -/

/-- A student with an account redeems another open invitation. -/
theorem redeem_again {env : Fortune (platform rt)} (hserved : ∀ n, env.fault n = none)
    (p : Pid) {dto : RedeemInvitationDto} {v : BackendView rt} (hwf : v.store.Wf)
    (hquiet : ∀ q, v.store.tx q = none) (hfurnished : Furnished v.store.stored)
    {I : Invitation} (hI : Invited rt dto v.store.stored I)
    (hopen : I.status = .issued ∧ v.store.clock < I.expiresAt) {id : Nat} {user : User}
    (huser : v.store.stored Tbl.users id = some user)
    (hemail : user.email = rt.normaliseEmail I.studentEmail) (hrole : user.role = .student)
    (hpassword : rt.argon2Verify user.passwordHash dto.password = some true) :
    ∃ token n v', solo env p (redeem dto) 0 v = some (.ok token, n, v') ∧
      token.accessToken.sub = id ∧ ∃ (P : Purchase) (k : Nat) (row : Enrolment),
        v.store.stored Tbl.purchases I.purchaseId = some P ∧
        v'.store.stored Tbl.enrolments k = some row ∧ row.studentUserId = id ∧
        row.courseId = P.courseId := by
  have haccount : AccountOf rt I v.store.stored (id, user) := ⟨huser, hemail⟩
  obtain ⟨out, n, v', hrun, halone, hout⟩ := RedeemAlone.redeem_total (p := p) hserved
    hfurnished 0 v ⟨hwf, fun q _ => hquiet q⟩ ⟨hquiet p, rfl, rfl⟩
  cases out with
  | error e =>
      exfalso
      obtain ⟨hrefused, -⟩ := hout
      cases hrefused with
      | notFound hnone => exact hnone I hI
      | alreadyRedeemed J hJ hstatus =>
          obtain rfl := Invited.unique hwf hI hJ
          rw [hopen.1] at hstatus
          cases hstatus
      | expired J hJ hstatus hlate =>
          obtain rfl := Invited.unique hwf hI hJ
          exact hlate hopen
      | conflict J hJ hopen' known hknown hreason =>
          obtain rfl := Invited.unique hwf hI hJ
          obtain rfl : known = (id, user) := AccountOf.unique hwf hknown haccount
          rcases hreason with hother | hmismatch
          · exact hother hrole
          · rw [passwordMatches, hpassword] at hmismatch
            cases hmismatch
      | incomplete J hJ hopen' hnobody =>
          obtain rfl := Invited.unique hwf hI hJ
          exact hnobody _ haccount
      | misfit J hJ hopen' hnobody =>
          obtain rfl := Invited.unique hwf hI hJ
          exact hnobody _ haccount
  | ok token =>
      obtain ⟨account, J, rfl, hadmitted⟩ := hout
      obtain rfl := Invited.unique hwf hI hadmitted.invited
      obtain ⟨P, k, row, hP, hrow, hstudent, hcourse⟩ := hadmitted.enrolled
      -- the account is still there, so the token is for it
      have hkeeps : Keeps { tables := [.invitations, .users, .enrolments] }
          (redeem dto : Method rt _) := keeps_redeem (by simp) (by simp) (by simp) dto
      have hkept : ∃ kept, v'.store.stored Tbl.users id = some kept ∧
          kept.email = user.email := by
        refine Revision.solo_kept hserved (fun now a x hallowed ha => ?_) hkeeps.obeys hwf
          (Revision.revising_of_clean (idle_of_closed hwf (hquiet p)).2) ⟨user, huser, rfl⟩ hrun
        obtain ⟨passwordHash, rfl⟩ := hallowed
        exact ⟨_, rfl, ha⟩
      obtain ⟨kept, hkept, hsame⟩ := hkept
      have hclash : Tbl.clash .users account.2 kept = true := by
        simp [Tbl.clash, hadmitted.account.2, hsame, hemail]
      have hid : account.1 = id := halone.wf.stored_distinct hadmitted.account.1 hkept hclash
      exact ⟨_, n, v', hrun, hid, P, k, row, hP, hrow, hstudent.trans hid, hcourse⟩

/-! ### The race -/

section Finish

variable {seed : Seed} {email : String} {tickets : List Ticket} {w₀ w : BackendWorld rt}

/-- The calls keep to the rules of the race, and stay within the runs of the backend. -/
theorem race_verified (hargon : ∀ plain salt, (rt.argon2Hash plain salt).length ≤ 255)
    (hreach : Runs rt (boot rt seed) w₀)
    (hlineup : Lineup rt email w₀.view.store.stored tickets)
    (hcalls : Reach (handler rt) (Scope.only (Runners w₀.procs.length tickets))
      (w₀.call (handler rt) (tickets.map Ticket.request)) w) :
    (raceLogic rt email w₀.procs.length tickets w₀.view.store.stored).Verified
      (fun p _ => ¬ Runners w₀.procs.length tickets p)
      (RunnerPost rt email w₀.procs.length tickets) w := by
  have hbefore := (trading_run Relation.ReflTransGen.refl hreach).1
  have hunused (p : Pid) (hp : w₀.procs.length ≤ p) : Unused p w₀.view :=
    (hbefore.fresh p hp).1
  have hlayered := (Revision.called (fun req => (handler_keeps rt req).obeys)
    (Runners w₀.procs.length tickets) (tickets.map Ticket.request) hbefore.wf hunused
    fun p hp => by rwa [List.length_map]).layered hcalls
  exact ((runners_called hargon hbefore.wf hbefore.sound hunused hlineup).reach hlayered).1

/-- Once all calls have ended, no transaction is open. -/
theorem race_closed (hreach : Runs rt (boot rt seed) w₀)
    (hquiet : ∀ q, q < w₀.procs.length → (w₀.view.store.tx q).isNone = true)
    (hcalls : Reach (handler rt) (Scope.only (Runners w₀.procs.length tickets))
      (w₀.call (handler rt) (tickets.map Ticket.request)) w)
    (hended : ∀ p t, Holds w₀.procs.length tickets p t → ∃ out, w.Ended p t.request out)
    (q : Pid) : w.view.store.tx q = none := by
  have hbefore := (trading_run Relation.ReflTransGen.refl hreach).1
  have hnone (p : Pid) : w₀.view.store.tx p = none := hbefore.closed hquiet p
  have hstart : (w₀.call (handler rt) (tickets.map Ticket.request)).Settles
      (Scope.only (Runners w₀.procs.length tickets)) fun _ => False := by
    rintro p ⟨v, v', hrun⟩
    have hp : Runners w₀.procs.length tickets p := hrun
    refine ⟨fun proc hproc => ?_, fun _ => hnone p⟩
    obtain ⟨k, rfl⟩ := Nat.exists_eq_add_of_le hp.1
    simp only [World.call] at hproc
    rw [List.getElem?_append_right hp.1, Nat.add_sub_cancel_left, List.getElem?_map,
      Option.map_eq_some_iff] at hproc
    obtain ⟨req, hreq, rfl⟩ := hproc
    rw [List.getElem?_map, Option.map_eq_some_iff] at hreq
    obtain ⟨t, -, rfl⟩ := hreq
    show Prog.Leaves _ (w₀.view.store.tx _).isSome _
    rw [hnone]
    exact redeem_leaves t.dto _
  rcases em (Runners w₀.procs.length tickets q) with hq | hq
  · obtain ⟨-, hsettles⟩ := hstart.reach (fun _ hfalse => False.elim hfalse)
      (fun _ hfalse => hfalse) hbefore.wf hcalls
    refine (hsettles q ⟨w.view, w.view, hq⟩).closed fun proc hproc => ?_
    obtain ⟨k, rfl⟩ := Nat.exists_eq_add_of_le hq.1
    have hk : k < tickets.length := Nat.lt_of_add_lt_add_left hq.2
    obtain ⟨out, proc', hproc', -, hout⟩ := hended _ tickets[k]
      ⟨k, rfl, List.getElem?_eq_getElem hk⟩
    obtain rfl := Option.some.inj (hproc.symm.trans hproc')
    exact ⟨out, hout⟩
  · obtain ⟨-, hkept⟩ := World.Reach.tx_kept (p := q)
      (w := w₀.call (handler rt) (tickets.map Ticket.request)) (fun _ _ hrun => hq hrun)
      hbefore.wf hcalls
    exact hkept.trans (hnone q)

/-- Some call was not told that its invitation cannot be redeemed, or the invitation has
not expired yet. -/
def Timely (n : Nat) (tickets : List Ticket) (w : BackendWorld rt) : Prop :=
  ∃ p t, Holds n tickets p t ∧ ∀ e, Unredeemable e →
    w.Ended p t.request (.error (.domain e)) → w.view.store.clock < t.invitation.expiresAt

/-- One email has one account. -/
theorem Registered.unique {s : Store (schema rt)} (hwf : s.Wf) {id id' : Nat}
    {user user' : User} (huser : Registered rt email s.stored id user)
    (huser' : Registered rt email s.stored id' user') : id = id' := by
  have hclash : Tbl.clash .users user user' = true := by
    simp [Tbl.clash, huser.2, huser'.2]
  exact hwf.stored_distinct huser.1 huser'.1 hclash

/-- However the calls interleave, one account comes of them. A call that fails has changed
nothing and leaves its invitation open, a call that returns has enrolled the student, and
once all have ended the student gets the other courses with the same password. -/
theorem redeem_race (hargon : ∀ plain salt, (rt.argon2Hash plain salt).length ≤ 255)
    (hverify : ∀ plain salt, rt.argon2Verify (rt.argon2Hash plain salt) plain = some true)
    (hreach : Runs rt (boot rt seed) w₀)
    (hquiet : ∀ q, q < w₀.procs.length → (w₀.view.store.tx q).isNone = true)
    (hlineup : Lineup rt email w₀.view.store.stored tickets)
    (hcalls : Reach (handler rt) (Scope.only (Runners w₀.procs.length tickets))
      (w₀.call (handler rt) (tickets.map Ticket.request)) w) :
    (∀ id id' user user', Registered rt email w.view.store.stored id user →
      Registered rt email w.view.store.stored id' user' → id = id') ∧
    (∀ p t e, Holds w₀.procs.length tickets p t → w.Ended p t.request (.error e) →
      w.view.store.stored Tbl.invitations t.id = some t.invitation ∧
        ChangesNothing p (boot rt seed) w) ∧
    (∀ p t response, Holds w₀.procs.length tickets p t → w.Ended p t.request (.ok response) →
      ∃ token user k, response = .token token ∧
        Registered rt email w.view.store.stored token.accessToken.sub user ∧
        w.view.store.stored Tbl.enrolments k =
          some (enrolmentRow token.accessToken.sub t.purchase.courseId t.id) ∧
        w.view.store.born Tbl.enrolments k =
          some (p, enrolmentRow token.accessToken.sub t.purchase.courseId t.id)) ∧
    ((∀ p t, Holds w₀.procs.length tickets p t → ∃ out, w.Ended p t.request out) →
      Timely w₀.procs.length tickets w →
      ∃ id user, Registered rt email w.view.store.stored id user ∧
        ∃ c ∈ tickets, (∃ salt, user.passwordHash = rt.argon2Hash c.dto.password salt) ∧
          ∀ t ∈ tickets, ∀ J, w.view.store.stored Tbl.invitations t.id = some J →
            J.status = .issued → w.view.store.clock < J.expiresAt →
            ∀ dto, dto.token = t.dto.token → dto.password = c.dto.password →
            ∀ (env : Fortune (platform rt)) (p : Pid), (∀ n, env.fault n = none) →
              ∃ token n v', solo env p (redeem dto) 0 w.view = some (.ok token, n, v') ∧
                token.accessToken.sub = id ∧ ∃ (k : Nat) (row : Enrolment),
                  v'.store.stored Tbl.enrolments k = some row ∧ row.studentUserId = id ∧
                  row.courseId = t.purchase.courseId) := by
  have hbefore := (trading_run Relation.ReflTransGen.refl hreach).1
  have hverified := race_verified hargon hreach hlineup hcalls
  have hracing : Racing rt email w₀.procs.length tickets w₀.view.store.stored w.view :=
    hverified.inv
  have hreturns {p : Pid} {t : Ticket} {response : Response}
      (hholds : Holds w₀.procs.length tickets p t)
      (hended : w.Ended p t.request (.ok response)) :
      ∃ account, response = .token (AuthService.issueToken rt account) ∧
        ∃ user k, Registered rt email w.view.store.stored account.1 user ∧
          w.view.store.stored Tbl.enrolments k =
            some (enrolmentRow account.1 t.purchase.courseId t.id) ∧
          w.view.store.born Tbl.enrolments k =
            some (p, enrolmentRow account.1 t.purchase.courseId t.id) := by
    obtain ⟨account, hresponse, hend⟩ := hverified.ended hended t hholds
    exact ⟨account, hresponse,
      hracing.returned hholds hverified.wf hbefore.sound hlineup rfl hend⟩
  refine ⟨fun id id' user user' huser huser' => huser.unique hverified.wf huser', ?_, ?_, ?_⟩
  · intro p t e hholds hended
    obtain ⟨-, hharmless⟩ := hverified.ended hended t hholds
    exact ⟨hracing.untouched hholds hharmless, hharmless.changesNothing⟩
  · intro p t response hholds hended
    obtain ⟨account, rfl, user, k, hrows⟩ := hreturns hholds hended
    exact ⟨_, user, k, rfl, hrows⟩
  · intro hall htimely
    have haccount : ∃ id user, Registered rt email w.view.store.stored id user := by
      obtain ⟨p, t, hholds, hopen⟩ := htimely
      obtain ⟨out, hended⟩ := hall p t hholds
      cases out with
      | ok response =>
          obtain ⟨account, -, user, k, huser, -⟩ := hreturns hholds hended
          exact ⟨_, user, huser⟩
      | error e =>
          obtain ⟨hfailure, -⟩ := hverified.ended hended t hholds
          cases hfailure with
          | expired d herror hd hlate =>
              rw [herror] at hended
              exact absurd (hopen d hd hended) (Nat.not_lt_of_le hlate)
          | taken herror id user huser => exact ⟨id, user, huser⟩
    obtain ⟨id, user, huser⟩ := haccount
    obtain ⟨hrole, p, c, salt, hc, hhash⟩ := hracing.accounts id user huser
    refine ⟨id, user, huser, c, hc.mem, ⟨salt, hhash⟩, ?_⟩
    intro t ht J hJ hissued hunexpired dto htoken hpassword env q hserved
    have hentered := hlineup.entered t ht
    obtain ⟨r, hr⟩ := holds_of_mem w₀.procs.length ht
    obtain ⟨J', hJ', hpurchase, hemail, htokenHash⟩ := hracing.columns hr
    obtain rfl := Option.some.inj (hJ.symm.trans hJ')
    have hinvited : Invited rt dto w.view.store.stored J :=
      ⟨t.id, hJ, by rw [htokenHash, hentered.tokenHash, htoken]⟩
    have hright : rt.argon2Verify user.passwordHash dto.password = some true := by
      rw [hhash, hpassword]
      exact hverify _ _
    obtain ⟨token, n, v', hsolo, hsub, P, k, row, hP, hrow, hstudent, hcourse⟩ :=
      redeem_again hserved q hverified.wf (race_closed hreach hquiet hcalls hall)
        hracing.sound.furnished hinvited ⟨hissued, hunexpired⟩ huser.1
        (by rw [huser.2, hemail, hentered.studentEmail]) hrole hright
    rw [hpurchase, hracing.purchases t ht] at hP
    obtain rfl := Option.some.inj hP
    exact ⟨token, n, v', hsolo, hsub, k, row, hrow, hstudent, hcourse⟩

end Finish

/-! ### A race of two calls -/

/-- Digests that tell the password and fit their column, and a second course. -/
def raceRuntime : Runtime :=
  { sampleRuntime with
    argon2Hash := fun plain _ => String.ofList (plain.toList.take 97)
    argon2Verify := fun digest plain => some (digest == String.ofList (plain.toList.take 97))
    createPurchaseDto := fun body =>
      some
        { courseId := if body = "second" then 1 else 0
          studentEmail := "student@example.com" } }

def raceSeed : Seed :=
  { sampleSeed with
    courses := [sampleCourse, { sampleCourse with yearFrom := 5, yearTo := 6 }]
    distinctCourses := by decide
    coursesOfLessons := by simp [sampleSeed] }

/-- A parent buys both courses for one student. -/
def raceSales : List (Action (platform raceRuntime)) :=
  .spawn (.signup ⟨"parent@example.com", "secret", none, none⟩ sampleMeta) ::
    (List.replicate 6 (.run 0 { text := "T1" }) ++
      (List.replicate 5 (.run 0 { text := "F1" }) ++
        .spawn (.createPurchase ⟨0, .parent⟩ (some "checkout-1") "first") ::
          (List.replicate 11 (.run 1 { text := "I1" }) ++
            .spawn (.createPurchase ⟨0, .parent⟩ (some "checkout-2") "second") ::
              List.replicate 11 (.run 2 { text := "I2" }))))

def raceTicket (k : Nat) (token password idempotencyKey : String) : Ticket where
  dto := { sampleStudent with token := token, password := password }
  id := k
  invitation :=
    { purchaseId := k
      tokenHash := sampleSha256 token
      studentEmail := "student@example.com"
      status := .issued
      expiresAt := computeExpiryDate 0
      redeemedAt := none
      emailSentAt := none }
  purchase :=
    { parentUserId := 0
      courseId := k
      status := .completed
      amountPence := 1999
      idempotencyKey := idempotencyKey
      createdAt := 0 }

def raceFirst : Ticket := raceTicket 0 "I1" "First1234" "checkout-1"

def raceSecond : Ticket := raceTicket 1 "I2" "Second123" "checkout-2"

/-- Both calls find nobody, and the second insert of the account is refused. -/
def raceSchedule : List (Action (platform raceRuntime)) :=
  List.replicate 5 (.run 3 {}) ++ (List.replicate 5 (.run 4 {}) ++
    (List.replicate 4 (.run 3 {}) ++ List.replicate 2 (.run 4 {})))

def raceFortune : Fortune (platform raceRuntime) where
  choice := fun _ => {}

/-- The second call fails, and succeeds with the password of the first. -/
theorem redeem_race_sample : ∃ w₀ w : BackendWorld raceRuntime,
    Runs raceRuntime (boot raceRuntime raceSeed) w₀ ∧
      Reach (handler raceRuntime) (Scope.only (Runners w₀.procs.length [raceFirst, raceSecond]))
        (w₀.call (handler raceRuntime) ([raceFirst, raceSecond].map Ticket.request)) w ∧
      (∃ e, w.Ended 4 raceSecond.request (.error e)) ∧
      ∃ c ∈ [raceFirst, raceSecond], ∃ token n v', solo raceFortune 5
        (redeem { raceSecond.dto with password := c.dto.password }) 0 w.view =
          some (.ok token, n, v') := by
  have hrun : ((boot raceRuntime raceSeed).run (handler raceRuntime) raceSales).any (fun w₀ =>
      decide (w₀.procs.length = 3) &&
      decide (∀ q, q < w₀.procs.length → (w₀.view.store.tx q).isNone = true) &&
      decide (∀ id, id < w₀.view.store.next Tbl.users →
        (w₀.view.store.stored Tbl.users id).all (fun user =>
          user.email != "student@example.com") = true) &&
      decide (∀ t ∈ [raceFirst, raceSecond],
        w₀.view.store.stored Tbl.invitations t.id = some t.invitation ∧
          w₀.view.store.stored Tbl.purchases t.invitation.purchaseId = some t.purchase) &&
      ((w₀.call (handler raceRuntime) ([raceFirst, raceSecond].map Ticket.request)).run
        (handler raceRuntime) raceSchedule).any fun w =>
          decide (w.status 3 = some (raceFirst.request, some (.ok (.token
            { accessToken := { sub := 1, role := .student }, expiresIn := 900 })))) &&
          decide (w.status 4 = some (raceSecond.request,
            some (.error (.domain .invitationEmailConflict)))) &&
          decide (w.view.store.clock = 0)) = true := by decide +kernel
  obtain ⟨w₀, hw₀, hchecks⟩ := (Option.any_eq_true _ _).mp hrun
  simp only [Bool.and_eq_true, decide_eq_true_eq] at hchecks
  obtain ⟨⟨⟨⟨hprocs, hquiet⟩, hnobody⟩, hrows⟩, hrace⟩ := hchecks
  obtain ⟨w, hw, hends⟩ := (Option.any_eq_true _ _).mp hrace
  simp only [Bool.and_eq_true, decide_eq_true_eq] at hends
  obtain ⟨⟨hfirst, hsecond⟩, hclock⟩ := hends
  have hruns := runs_of_run hw₀
  have hwf := (trading_run Relation.ReflTransGen.refl hruns).1.wf
  have hlineup : Lineup raceRuntime "student@example.com" w₀.view.store.stored
      [raceFirst, raceSecond] := by
    refine ⟨fun t ht => ?_, by decide, by decide, fun id user huser hemail => ?_⟩
    · have hrow := hrows t ht
      simp only [List.mem_cons, List.not_mem_nil, or_false] at ht
      rcases ht with rfl | rfl
      · exact ⟨hrow.1, rfl, rfl, by decide, hrow.2, by decide, by decide⟩
      · exact ⟨hrow.1, rfl, rfl, by decide, hrow.2, by decide, by decide⟩
    · have hother := hnobody id (hwf.lt_next huser)
      rw [huser] at hother
      simp [hemail] at hother
  have hcalls : Reach (handler raceRuntime)
      (Scope.only (Runners w₀.procs.length [raceFirst, raceSecond]))
      (w₀.call (handler raceRuntime) ([raceFirst, raceSecond].map Ticket.request)) w := by
    refine World.reach_of_run (fun a ha u u' => ?_) hw
    simp only [raceSchedule, List.mem_append, List.mem_replicate] at ha
    rw [hprocs]
    rcases ha with ⟨-, rfl⟩ | ⟨-, rfl⟩ | ⟨-, rfl⟩ | ⟨-, rfl⟩ <;>
      exact ⟨by decide, by decide⟩
  have hholds (p : Pid) (t : Ticket)
      (ht : Holds w₀.procs.length [raceFirst, raceSecond] p t) :
      p = 3 ∧ t = raceFirst ∨ p = 4 ∧ t = raceSecond := by
    obtain ⟨k, rfl, hk⟩ := ht
    rw [hprocs]
    match k, hk with
    | 0, hk => exact Or.inl ⟨rfl, (Option.some.inj hk).symm⟩
    | 1, hk => exact Or.inr ⟨rfl, (Option.some.inj hk).symm⟩
  have hloser : Holds w₀.procs.length [raceFirst, raceSecond] 4 raceSecond :=
    ⟨1, by rw [hprocs], rfl⟩
  have hfails := World.ended_of_status hsecond
  have hargon (plain salt : String) : (raceRuntime.argon2Hash plain salt).length ≤ 255 := by
    simp [raceRuntime]
  obtain ⟨-, hthrows, -, hafter⟩ := redeem_race hargon
    (fun plain salt => by simp [raceRuntime]) hruns hquiet hlineup hcalls
  obtain ⟨id, user, -, c, hc, -, hagain⟩ := hafter
    (fun p t ht => by
      rcases hholds p t ht with ⟨rfl, rfl⟩ | ⟨rfl, rfl⟩
      · exact ⟨_, World.ended_of_status hfirst⟩
      · exact ⟨_, hfails⟩)
    ⟨4, raceSecond, hloser, fun _ _ _ => by rw [hclock]; decide⟩
  obtain ⟨token, n, v', hsolo, -⟩ := hagain raceSecond (by simp) _
    (hthrows 4 raceSecond _ hloser hfails).1 rfl (by rw [hclock]; decide)
    { raceSecond.dto with password := c.dto.password } rfl rfl raceFortune 5 fun _ => rfl
  exact ⟨w₀, w, hruns, hcalls, ⟨_, hfails⟩, c, hc, token, n, v', hsolo⟩

end Mes
