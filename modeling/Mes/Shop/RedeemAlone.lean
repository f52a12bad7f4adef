import Mes.Lessons.Enumeration
import Mes.Shop.RedeemProof
import Mes.Transact.Alone

/-!
`POST /invitations/redeem` while nobody else moves. The invitation is marked first, so
every later refusal has to take the mark back; the rollback does. `RedeemRefused`
and `RedeemAdmitted` are the two halves of the decision table, over the committed rows and the
time at which the transaction begins.
-/

namespace Mes

open Transact Transact.Logic InvitationsService

variable {rt : Runtime}

/-- A committed account with the email of the invitation. -/
def AccountOf (rt : Runtime) (I : Invitation) (stored : Committed rt)
    (user : Entity .users) : Prop :=
  stored Tbl.users user.1 = some user.2 ∧ user.2.email = rt.normaliseEmail I.studentEmail

/-- What a redemption needs of the foreign keys. -/
structure Furnished (stored : Committed rt) : Prop where
  purchased : ∀ (i : Nat) (I : Invitation), stored Tbl.invitations i = some I →
    ∃ P : Purchase, stored Tbl.purchases I.purchaseId = some P ∧
      (stored Tbl.courses P.courseId).isSome = true
  attended : ∀ (k : Nat) (row : Enrolment), stored Tbl.enrolments k = some row →
    (stored Tbl.users row.studentUserId).isSome = true

/-- The account that the request may create fits its columns. -/
def AccountFits (rt : Runtime) (dto : RedeemInvitationDto) (stored : Committed rt) : Prop :=
  missingFields dto = [] → ∀ I, Invited rt dto stored I → ∀ salt,
    Tbl.admits rt .users (studentRow rt dto I.studentEmail (rt.argon2Hash dto.password salt)) =
      true

/-- An account of another role, or another password. -/
def Unauthorised (rt : Runtime) (dto : RedeemInvitationDto) (user : Entity .users) : Prop :=
  user.2.role ≠ .student ∨ passwordMatches rt user dto.password = false

/-- Which error the request ends in, and when. -/
inductive RedeemRefused (rt : Runtime) (dto : RedeemInvitationDto) (now : Time)
    (stored : Committed rt) : AppError → Prop
  | notFound (hnone : ∀ I, ¬ Invited rt dto stored I) :
      RedeemRefused rt dto now stored (.domain .invitationNotFound)
  | alreadyRedeemed (I : Invitation) (hI : Invited rt dto stored I)
      (hstatus : I.status = .redeemed) :
      RedeemRefused rt dto now stored (.domain .invitationAlreadyRedeemed)
  | expired (I : Invitation) (hI : Invited rt dto stored I) (hstatus : I.status ≠ .redeemed)
      (hlate : ¬ (I.status = .issued ∧ now < I.expiresAt)) :
      RedeemRefused rt dto now stored (.domain .invitationExpired)
  | conflict (I : Invitation) (hI : Invited rt dto stored I)
      (hopen : I.status = .issued ∧ now < I.expiresAt) (user : Entity .users)
      (huser : AccountOf rt I stored user) (hreason : Unauthorised rt dto user) :
      RedeemRefused rt dto now stored (.domain .invitationEmailConflict)
  | incomplete (I : Invitation) (hI : Invited rt dto stored I)
      (hopen : I.status = .issued ∧ now < I.expiresAt)
      (hnobody : ∀ user, ¬ AccountOf rt I stored user) (hmissing : missingFields dto ≠ []) :
      RedeemRefused rt dto now stored (.domain (.validationFailed (missingFields dto)))
  | misfit (I : Invitation) (hI : Invited rt dto stored I)
      (hopen : I.status = .issued ∧ now < I.expiresAt)
      (hnobody : ∀ user, ¬ AccountOf rt I stored user) (hcomplete : missingFields dto = [])
      (salt : String) (hrejected : Tbl.admits rt .users (studentRow rt dto I.studentEmail
        (rt.argon2Hash dto.password salt)) = false) :
      RedeemRefused rt dto now stored (.queryFailed .dataException)

/-- The request succeeds for `user`: what was there before, and what is there after. -/
structure RedeemAdmitted (rt : Runtime) (dto : RedeemInvitationDto) (now : Time)
    (stored after : Committed rt) (user : Entity .users) (I : Invitation) : Prop where
  invited : Invited rt dto stored I
  redeemable : I.status = .issued ∧ now < I.expiresAt
  entitled : (∃ known, AccountOf rt I stored known ∧ ¬ Unauthorised rt dto known) ∨
    (∀ known, ¬ AccountOf rt I stored known) ∧ missingFields dto = [] ∧
      ∃ salt, Tbl.admits rt .users (studentRow rt dto I.studentEmail
        (rt.argon2Hash dto.password salt)) = true
  account : AccountOf rt I after user
  student : user.2.role = .student
  enrolled : ∃ (P : Purchase) (k : Nat) (row : Enrolment),
    stored Tbl.purchases I.purchaseId = some P ∧ after Tbl.enrolments k = some row ∧
      row.studentUserId = user.1 ∧ row.courseId = P.courseId

namespace RedeemAlone

section Rules

variable {env : Fortune (platform rt)} {p : Pid} {now : Time} {base : Committed rt}
  {W : Drafts (schema rt)} {dto : RedeemInvitationDto} {i : Nat} {I : Invitation}

/-- The open transaction of `p` has written `W` over the committed rows. -/
structure Working (p : Pid) (now : Time) (base : Committed rt) (W : Drafts (schema rt))
    (v : BackendView rt) : Prop where
  inside : Inside p now W v
  stored : v.store.stored = base

theorem Working.put {v : BackendView rt} (hworking : Working p now base W v)
    (e : Event (schema rt) (platform rt)) : Working p now base W (v.put p e v.store) :=
  ⟨hworking.inside, hworking.stored⟩

theorem Working.hold {v : BackendView rt} (hworking : Working p now base W v)
    (e : Event (schema rt) (platform rt)) (t : Tbl) (k : Nat) (r : Option t.Row) :
    Working p now base (W.set t k r) (v.put p e (v.store.hold p t k r)) := by
  refine ⟨inside_hold hworking.inside e t k r, ?_⟩
  rw [View.put_store, Store.hold_stored]
  exact hworking.stored

theorem Working.push {v : BackendView rt} (hworking : Working p now base W v)
    (hwf : v.store.Wf) (e : Event (schema rt) (platform rt)) (t : Tbl) (r : t.Row) :
    Working p now base (W.set t (v.store.next t) (some r))
      (v.put p e (v.store.push p t r)) := by
  refine ⟨inside_push hworking.inside e t r, ?_⟩
  rw [View.put_store, Store.push_stored v.store p t r (hwf.vacant t _ (le_refl _)).1]
  exact hworking.stored

theorem Working.seen {v : BackendView rt} (hworking : Working p now base W v) (t : Tbl)
    (k : Nat) : v.store.seen p t k = (W t k).getD (base t k) := by
  rw [Store.seen, hworking.inside.2, hworking.stored]

/-- The body of the transaction fails. -/
def Failing (p : Pid) (dto : RedeemInvitationDto) (now : Time) (base : Committed rt)
    (e : AppError) (v : BackendView rt) : Prop :=
  RedeemRefused rt dto now base e ∧ (v.store.tx p).isSome = true ∧ v.store.stored = base

theorem Working.failing {v : BackendView rt} {e : AppError}
    (hworking : Working p now base W v) (hrefused : RedeemRefused rt dto now base e) :
    Failing p dto now base e v :=
  ⟨hrefused, by rw [hworking.inside.1]; rfl, hworking.stored⟩

/-- The mark of the invitation, and nothing else. -/
def Mark (rt : Runtime) (now : Time) (i : Nat) (I : Invitation) : Drafts (schema rt) :=
  Drafts.empty.set Tbl.invitations i (some (InvitationsRepository.markRedeemed now I))

/-- The invitation at `i` can be redeemed. -/
structure Opens (rt : Runtime) (dto : RedeemInvitationDto) (now : Time)
    (base : Committed rt) (i : Nat) (I : Invitation) : Prop where
  row : base Tbl.invitations i = some I
  token : I.tokenHash = hashToken rt dto.token
  redeemable : I.status = .issued ∧ now < I.expiresAt

theorem Opens.invited (hopens : Opens rt dto now base i I) : Invited rt dto base I :=
  ⟨i, hopens.row, hopens.token⟩

theorem opens_iff : Opens rt dto now base i I ↔ base Tbl.invitations i = some I ∧
    InvitationsRepository.redeemable (hashToken rt dto.token) now I = true := by
  rw [redeemable_iff]
  exact ⟨fun hopens => ⟨hopens.row, hopens.token, hopens.redeemable⟩,
    fun ⟨hrow, htoken, hredeemable⟩ => ⟨hrow, htoken, hredeemable⟩⟩

/-- The loop of the conditional update over the rows that are left. -/
def Resolving (p : Pid) (dto : RedeemInvitationDto) (now : Time) (base : Committed rt)
    (rest : List Nat) : List (Entity .invitations) → BackendView rt → Prop
  | [], v => Working p now base Drafts.empty v ∧
      ∀ j J, Opens rt dto now base j J → j ∈ rest
  | [(i, I)], v => Working p now base (Mark rt now i I) v ∧ Opens rt dto now base i I
  | _, _ => False

theorem resolving_inside (rest : List Nat) (found : List (Entity .invitations))
    (v : BackendView rt) (hresolving : Resolving p dto now base rest found v) :
    ∃ W, Inside p now W v := by
  match found with
  | [] => exact ⟨_, hresolving.1.inside⟩
  | [(i, I)] => exact ⟨_, hresolving.1.inside⟩
  | _ :: _ :: _ => exact hresolving.elim

theorem resolving_miss {v : BackendView rt} {k : Nat} {rest : List Nat}
    {found : List (Entity .invitations)} (e : Event (schema rt) (platform rt))
    (hresolving : Resolving p dto now base (k :: rest) found v)
    (hmissed : ∀ r : Invitation, v.store.seen p Tbl.invitations k = some r →
      InvitationsRepository.redeemable (hashToken rt dto.token) now r = false) :
    Resolving p dto now base rest found (v.put p e v.store) := by
  match found with
  | [(i, I)] => exact ⟨hresolving.1.put e, hresolving.2⟩
  | _ :: _ :: _ => exact hresolving
  | [] =>
      obtain ⟨hworking, hlisted⟩ := hresolving
      refine ⟨hworking.put e, fun j J hopens => ?_⟩
      rcases List.mem_cons.mp (hlisted j J hopens) with rfl | hrest
      · obtain ⟨hrow, hmatch⟩ := opens_iff.mp hopens
        rw [hmissed J (by rw [hworking.seen]; exact hrow)] at hmatch
        cases hmatch
      · exact hrest

theorem resolving_hit {v : BackendView rt} {k : Nat} {rest : List Nat}
    {found : List (Entity .invitations)} {r : Invitation}
    (e : Event (schema rt) (platform rt)) (hwf : v.store.Wf)
    (hresolving : Resolving p dto now base (k :: rest) found v)
    (hseen : v.store.seen p Tbl.invitations k = some r)
    (hmatch : InvitationsRepository.redeemable (hashToken rt dto.token) now r = true) :
    Resolving p dto now base rest (found ++ [(k, r)]) (v.put p e
      (v.store.hold p Tbl.invitations k (some (InvitationsRepository.markRedeemed now r)))) := by
  match found with
  | _ :: _ :: _ => exact hresolving.elim
  | [] =>
      obtain ⟨hworking, -⟩ := hresolving
      refine ⟨hworking.hold e Tbl.invitations k _, opens_iff.mpr ⟨?_, hmatch⟩⟩
      rw [← hseen, hworking.seen]
      rfl
  | [(i, I)] =>
      -- the first hit has marked the only row with this token
      obtain ⟨hworking, hopens⟩ := hresolving
      have hown : v.store.seen p Tbl.invitations i =
          some (InvitationsRepository.markRedeemed now I) := by
        rw [hworking.seen, Mark, Drafts.set_same]
        rfl
      obtain rfl : i = k := by
        refine RedeemProof.same_invitation hwf hown hseen ?_
        rw [(redeemable_iff.mp hmatch).1]
        exact hopens.token
      obtain rfl := Option.some.inj (hown.symm.trans hseen)
      have hissued := (redeemable_iff.mp hmatch).2.1
      cases hissued

/-- What the conditional update found. -/
def Attempted (p : Pid) (dto : RedeemInvitationDto) (now : Time) (base : Committed rt) :
    Option (Entity .invitations) → BackendView rt → Prop
  | none, v => Working p now base Drafts.empty v ∧ ∀ j J, ¬ Opens rt dto now base j J
  | some row, v => ∃ I, row.2 = InvitationsRepository.markRedeemed now I ∧
      Working p now base (Mark rt now row.1 I) v ∧ Opens rt dto now base row.1 I

theorem resolving_attempted {found : List (Entity .invitations)} {v : BackendView rt}
    (hresolving : Resolving p dto now base [] found v) :
    Attempted p dto now base
      (found.head?.map fun row => (row.1, InvitationsRepository.markRedeemed now row.2)) v := by
  match found with
  | [] => exact ⟨hresolving.1, fun j J hopens => List.not_mem_nil (hresolving.2 j J hopens)⟩
  | [(i, I)] => exact ⟨I, rfl, hresolving⟩
  | _ :: _ :: _ => exact hresolving.elim

variable (hserved : ∀ n, env.fault n = none)
include hserved

theorem atomicRedeem_total : Total env p (Working p now base Drafts.empty)
    (InvitationsRepository.atomicRedeem (hashToken rt dto.token))
    (ends (Attempted p dto now base) fun _ _ => False) := by
  refine Total.read_manager hserved (S := fun s v => s.now = now ∧
      Resolving p dto now base (Sql.matching s Tbl.invitations
        (InvitationsRepository.redeemable (hashToken rt dto.token))) [] v)
    (fun v hworking => ⟨_, hworking.inside⟩) ?_ fun s => ?_
  · intro v s halone hworking hs
    subst hs
    refine ⟨rfl, hworking.put _, fun j J hopens => ?_⟩
    obtain ⟨hrow, hmatch⟩ := opens_iff.mp hopens
    have hstored : v.store.stored Tbl.invitations j = some J := by rw [hworking.stored]; exact hrow
    refine Sql.mem_matching.mpr ⟨halone.wf.lt_next hstored, J, ?_, hmatch⟩
    show v.store.seen p Tbl.invitations j = some J
    rw [hworking.seen]
    exact hrow
  · refine Total.given (fun v _ hA => hA.1) fun hnow => ?_
    refine Total.weaken ?_ fun v _ hA => hA.2
    simp only [Sql.answer, Prog.andThen_ret, Prog.bind_eq, Prog.pure_eq]
    refine Total.andThen (Total.touchEach (σ := schema rt) (t := Tbl.invitations)
      (J := Resolving p dto now base) (E := fun _ _ => False) hserved resolving_inside
      ?_ ?_ _ []) (fun found => ?_) fun _ _ hfalse => hfalse
    · intro k rest found v e halone hresolving hmissed
      exact resolving_miss e hresolving hmissed
    · intro k rest found v r e halone hresolving hseen hmatch
      exact resolving_hit e halone.wf hresolving hseen hmatch
    · rw [hnow]
      exact Total.ret fun v hresolving => resolving_attempted hresolving

theorem resolveOrThrow_total : Total env p (Working p now base Drafts.empty)
    (resolveOrThrow (hashToken rt dto.token))
    (ends (fun row v => ∃ I, row.2 = InvitationsRepository.markRedeemed now I ∧
        Working p now base (Mark rt now row.1 I) v ∧ Opens rt dto now base row.1 I)
      (Failing p dto now base)) := by
  refine Total.andThen (atomicRedeem_total hserved) (fun found => ?_) fun _ _ hfalse =>
    hfalse.elim
  cases found with
  | some row => exact Total.ret fun v hA => hA
  | none =>
      refine Total.read_pool hserved (S := fun s v => Working p now base Drafts.empty v ∧
        (∀ j J, ¬ Opens rt dto now base j J) ∧ v.store.Wf ∧
          Picks (v.store.stored Tbl.invitations)
            (fun _ (row : Invitation) => row.tokenHash == hashToken rt dto.token)
            ((s.rows Tbl.invitations).find? fun row =>
              row.2.tokenHash == hashToken rt dto.token)) ?_ fun s => ?_
      · intro v halone hA
        exact ⟨hA.1.put _, hA.2, halone.wf, Snapshot.picks (σ := schema rt) halone.wf _ _ _⟩
      · simp only [Sql.answer, Prog.andThen_ret, Prog.pure_eq]
        cases hfound : (s.rows Tbl.invitations).find? fun row =>
            row.2.tokenHash == hashToken rt dto.token with
        | none =>
            refine Total.throw fun v hA => hA.1.failing (.notFound ?_)
            rintro I ⟨i, hI, htoken⟩
            have hmiss := hA.2.2.2 i I (by rw [hA.1.stored]; exact hI)
            simp [htoken] at hmiss
        | some row =>
            obtain ⟨i, I⟩ := row
            have hrow (v : BackendView rt) (hstored : v.store.stored = base)
                (hpicks : Picks (v.store.stored Tbl.invitations)
                  (fun _ (row : Invitation) => row.tokenHash == hashToken rt dto.token)
                  (some (i, I))) :
                base Tbl.invitations i = some I ∧ I.tokenHash = hashToken rt dto.token := by
              rw [← hstored]
              exact ⟨hpicks.1, by simpa using hpicks.2⟩
            dsimp only
            split
            · rename_i hstatus
              refine Total.throw fun v hA => hA.1.failing ?_
              obtain ⟨hI, htoken⟩ := hrow v hA.1.stored hA.2.2.2
              exact .alreadyRedeemed I ⟨i, hI, htoken⟩ hstatus
            · rename_i hstatus
              refine Total.throw fun v hA => hA.1.failing ?_
              obtain ⟨hI, htoken⟩ := hrow v hA.1.stored hA.2.2.2
              exact .expired I ⟨i, hI, htoken⟩ hstatus fun hopen =>
                hA.2.1 i I ⟨hI, htoken, hopen⟩

theorem resolveCourseId_total (hfurnished : Furnished base) (hopens : Opens rt dto now base i I)
    (hW : ∀ k, W Tbl.purchases k = none) :
    Total env p (Working p now base W)
      (resolveCourseId (i, InvitationsRepository.markRedeemed now I))
      (ends (fun courseId v => Working p now base W v ∧ ∃ P : Purchase,
          courseId = P.courseId ∧ base Tbl.purchases I.purchaseId = some P ∧
            (base Tbl.courses P.courseId).isSome = true)
        fun _ _ => False) := by
  obtain ⟨P, hP, hcourse⟩ := hfurnished.purchased i I hopens.row
  refine Total.read_manager hserved (S := fun s v => Working p now base W v ∧
      (s.rows Tbl.purchases).find? (fun row => row.1 == I.purchaseId) =
        some (I.purchaseId, P)) (fun v hworking => ⟨_, hworking.inside⟩) ?_ fun s => ?_
  · intro v s halone hworking hs
    subst hs
    have hstored : v.store.stored Tbl.purchases I.purchaseId = some P := by
      rw [hworking.stored]
      exact hP
    refine ⟨hworking.put _, Snapshot.find_row (halone.wf.lt_next hstored) ?_⟩
    show v.store.seen p Tbl.purchases I.purchaseId = some P
    rw [hworking.seen, hW]
    exact hP
  · refine Total.given (fun v _ hA => hA.2) fun hfound => ?_
    have hfound' : (s.rows Tbl.purchases).find? (fun row => row.1 ==
        (i, InvitationsRepository.markRedeemed now I).2.purchaseId) =
          some (I.purchaseId, P) := hfound
    simp only [Sql.answer, Prog.andThen_ret, Prog.pure_eq, hfound']
    exact Total.ret fun v hA => ⟨hA.1, P, rfl, hP, hcourse⟩

/-- The body of the transaction ends with a value; so will the commit. -/
def Finishing (p : Pid) (dto : RedeemInvitationDto) (now : Time) (base : Committed rt)
    (user : Entity .users) (v : BackendView rt) : Prop :=
  ∃ x I, v.store.tx p = some x ∧
    RedeemAdmitted rt dto now base (v.store.finish p (!x.aborted)).stored user I

omit hserved in
theorem Working.commits {v : BackendView rt} (hworking : Working p now base W v) :
    (v.store.finish p true).stored = W.onto base := by
  rw [Store.finish_stored_keep, hworking.inside.2, hworking.stored]

/-- An insert into the open transaction. -/
theorem save_total {t : Tbl} {row : Time → t.Row} {A : BackendView rt → Prop}
    {R : Nat → BackendView rt → Prop} {E : SqlError → BackendView rt → Prop}
    (hinside : ∀ v, A v → ∃ W, Inside p now W v)
    (haccepted : ∀ v e, Alone p v → A v → v.store.Accepts p t (row now) →
      R (v.store.next t) (v.put p e (v.store.push p t (row now))))
    (hrefused : ∀ v e err, Alone p v → A v → v.store.Refuses p t (row now) err →
      E err (v.put p e (v.store.setTx p (some { startedAt := now, aborted := true })))) :
    Total env p A (BaseRepository.save t row)
      (ends (fun entity v => entity.2 = row now ∧ R entity.1 v)
        fun error v => ∃ err, error = .queryFailed err ∧ E err v) := by
  refine Total.insert hserved (S := fun res v => (∃ err, res = .error err ∧ E err v) ∨
    ∃ k, res = .ok (k, row now) ∧ R k v) hinside ?_ ?_ ?_
  · exact fun v halone hA haccepts => Or.inr ⟨_, rfl, haccepted v _ halone hA haccepts⟩
  · exact fun v err halone hA hrefuses => Or.inl ⟨err, rfl, hrefused v _ err halone hA hrefuses⟩
  · rintro (err | entity)
    · refine Total.throw fun v hA => ?_
      rcases hA with ⟨err', herr, hE⟩ | ⟨k, hk, -⟩
      · obtain rfl := Except.error.inj herr
        exact ⟨err, rfl, hE⟩
      · cases hk
    · refine Total.ret fun v hA => ?_
      rcases hA with ⟨err', herr, -⟩ | ⟨k, hk, hR⟩
      · cases herr
      · obtain rfl := Except.ok.inj hk
        exact ⟨rfl, hR⟩

omit hserved in
/-- The enrolment is refused only as a duplicate. -/
theorem enrolment_refusal {v : BackendView rt} {userId courseId : Nat} {err : SqlError}
    (hworking : Working p now base W v)
    (hW : ∀ t : Tbl, t ≠ .users → t ≠ .invitations → ∀ k, W t k = none)
    (huser : ((W Tbl.users userId).getD (base Tbl.users userId)).isSome = true)
    (hcourse : (base Tbl.courses courseId).isSome = true)
    (hmark : ((W Tbl.invitations i).getD (base Tbl.invitations i)).isSome = true)
    (hrefuses : v.store.Refuses p Tbl.enrolments (enrolmentRow userId courseId i) err) :
    err = .uniqueViolation ∧ ∃ (k : Nat) (row : Enrolment),
      base Tbl.enrolments k = some row ∧ row.studentUserId = userId ∧
        row.courseId = courseId := by
  cases err with
  | dataException => cases hrefuses
  | inFailedTransaction => exact hrefuses.elim
  | foreignKeyViolation =>
      obtain ⟨ref, href, hnone⟩ := hrefuses
      rw [hworking.seen] at hnone
      have hrefs : ref = (Tbl.users, userId) ∨ ref = (Tbl.courses, courseId) ∨
          ref = (Tbl.invitations, i) := by
        simpa [Tbl.refs, enrolmentRow] using href
      rcases hrefs with rfl | rfl | rfl
      · rw [hnone] at huser
        cases huser
      · rw [hW _ (by simp) (by simp), Option.getD_none] at hnone
        rw [hnone] at hcourse
        cases hcourse
      · rw [hnone] at hmark
        cases hmark
  | uniqueViolation =>
      obtain ⟨k, other, hclash, hrow⟩ := hrefuses
      have hother : base Tbl.enrolments k = some other := by
        rcases hrow with hstored | hdraft
        · rw [← hworking.stored]
          exact hstored
        · rw [hworking.inside.2, hW _ (by simp) (by simp)] at hdraft
          cases hdraft
      have hcolumns : userId = other.studentUserId ∧ courseId = other.courseId := by
        have hclash' : Tbl.clash .enrolments (enrolmentRow userId courseId i) other = true :=
          hclash
        simpa [Tbl.clash, enrolmentRow] using hclash'
      exact ⟨rfl, k, other, hother, hcolumns.1.symm, hcolumns.2.symm⟩

/-- The enrolment that is there already, with the transaction that it has aborted. -/
def Repeated (p : Pid) (now : Time) (base : Committed rt) (userId courseId : Nat)
    (v : BackendView rt) : Prop :=
  (v.store.tx p = some { startedAt := now, aborted := true } ∧ v.store.stored = base) ∧
    ∃ (k : Nat) (row : Enrolment), base Tbl.enrolments k = some row ∧
      row.studentUserId = userId ∧ row.courseId = courseId

theorem insertEnrolment_total {userId courseId : Nat}
    (hW : ∀ t : Tbl, t ≠ .users → t ≠ .invitations → ∀ k, W t k = none)
    (huser : ((W Tbl.users userId).getD (base Tbl.users userId)).isSome = true)
    (hcourse : (base Tbl.courses courseId).isSome = true)
    (hmark : ((W Tbl.invitations i).getD (base Tbl.invitations i)).isSome = true) :
    Total env p (Working p now base W)
      (EnrolmentsRepository.insertWithinTransaction (enrolmentRow userId courseId i))
      (ends (fun _ v => ∃ k, Working p now base
            (W.set Tbl.enrolments k (some (enrolmentRow userId courseId i))) v)
        fun e v => e = .domain .enrolmentAlreadyExists ∧
          Repeated p now base userId courseId v) := by
  have hsave : Total env p (Working p now base W)
      (BaseRepository.save .enrolments fun _ => enrolmentRow userId courseId i)
      (ends (fun entity v => entity.2 = enrolmentRow userId courseId i ∧
          Working p now base
            (W.set Tbl.enrolments entity.1 (some (enrolmentRow userId courseId i))) v)
        fun error v => ∃ err, error = .queryFailed err ∧ err = .uniqueViolation ∧
          Repeated p now base userId courseId v) := by
    refine save_total (A := Working p now base W)
      (R := fun k => Working p now base
        (W.set Tbl.enrolments k (some (enrolmentRow userId courseId i))))
      (E := fun err v => err = .uniqueViolation ∧ Repeated p now base userId courseId v)
      hserved (fun v hworking => ⟨_, hworking.inside⟩) ?_ ?_
    · exact fun v e halone hworking _ => hworking.push halone.wf e Tbl.enrolments _
    · intro v e err halone hworking hrefuses
      obtain ⟨herr, hrow⟩ := enrolment_refusal hworking hW huser hcourse hmark hrefuses
      exact ⟨herr, ⟨Store.setTx_tx_self v.store p _, hworking.stored⟩, hrow⟩
  refine Total.attempt hsave (fun row v hA => ⟨row.1, hA.2⟩) fun error => ?_
  refine Total.given (φ := error = .queryFailed .uniqueViolation) (fun v _ hA => ?_)
    fun herror => ?_
  · obtain ⟨err, rfl, rfl, -⟩ := hA
    rfl
  · subst herror
    refine Total.throw fun v hA => ⟨rfl, ?_⟩
    obtain ⟨err, -, -, hrepeated⟩ := hA
    exact hrepeated

theorem redeemForExistingUser_total (hfurnished : Furnished base)
    (hopens : Opens rt dto now base i I) {user : Entity .users}
    (huser : AccountOf rt I base user) :
    Total env p (Working p now base (Mark rt now i I))
      (redeemForExistingUser (i, InvitationsRepository.markRedeemed now I) user dto.password)
      (ends (Finishing p dto now base) (Failing p dto now base)) := by
  have hrefuse (hreason : Unauthorised rt dto user) :
      Total env p (Working p now base (Mark rt now i I))
        (throwDomain .invitationEmailConflict : Method rt (Entity .users))
        (ends (Finishing p dto now base) (Failing p dto now base)) :=
    Total.throw fun v hworking => hworking.failing
      (.conflict I hopens.invited hopens.redeemable user huser hreason)
  unfold redeemForExistingUser
  split
  · rename_i hrole
    exact hrefuse (Or.inl hrole)
  · rename_i hrole
    split
    · rename_i hpassword
      exact hrefuse (Or.inr hpassword)
    · rename_i hpassword
      have hentitled : ¬ Unauthorised rt dto user := by
        rintro (hother | hmismatch)
        · exact hrole hother
        · exact hpassword hmismatch
      have hW (t : Tbl) (_ : t ≠ .users) (hinvitations : t ≠ .invitations) (k : Nat) :
          Mark rt now i I t k = none := by
        rw [Mark, Drafts.set_other _ _ _ hinvitations]
        rfl
      have husers (k : Nat) : Mark rt now i I Tbl.users k = none := by
        rw [Mark, Drafts.set_other _ _ _ (by simp)]
        rfl
      refine Total.andThen (resolveCourseId_total hserved hfurnished hopens fun k =>
        hW _ (by simp) (by simp) k) (fun courseId => ?_) fun _ _ hfalse => hfalse.elim
      refine Total.given (fun v _ hA => hA.2) fun hcourse => ?_
      obtain ⟨P, rfl, hP, hsome⟩ := hcourse
      -- what the commit will leave behind, whether it keeps the rows or drops them
      have hadmitted (after : Committed rt) (haccount : after Tbl.users = base Tbl.users)
          (henrolled : ∃ (k : Nat) (row : Enrolment), after Tbl.enrolments k = some row ∧
            row.studentUserId = user.1 ∧ row.courseId = P.courseId) :
          RedeemAdmitted rt dto now base after user I := by
        obtain ⟨k, row, hrow, hcolumns⟩ := henrolled
        refine
          { invited := hopens.invited
            redeemable := hopens.redeemable
            entitled := Or.inl ⟨user, huser, hentitled⟩
            account := ⟨?_, huser.2⟩
            student := not_not.mp hrole
            enrolled := ⟨P, k, row, hP, hrow, hcolumns⟩ }
        rw [haccount]
        exact huser.1
      have hkept (v : BackendView rt) (k : Nat) (hworking : Working p now base ((Mark rt now i
          I).set Tbl.enrolments k (some (enrolmentRow user.1 P.courseId i))) v) :
          Finishing p dto now base user v := by
        refine ⟨_, I, hworking.inside.1, ?_⟩
        rw [Bool.not_false, hworking.commits]
        refine hadmitted _ ?_ ⟨k, enrolmentRow user.1 P.courseId i, ?_, rfl, rfl⟩
        · rw [Drafts.onto_set_other _ _ _ _ (by simp), Mark,
            Drafts.onto_set_other _ _ _ _ (by simp), Drafts.onto_empty]
        · rw [Drafts.onto_set_same, Function.update_self]
      have hrepeated (v : BackendView rt) (hrepeated : Repeated p now base user.1 P.courseId v) :
          Finishing p dto now base user v := by
        obtain ⟨⟨htx, hstored⟩, henrolled⟩ := hrepeated
        refine ⟨_, I, htx, ?_⟩
        rw [Bool.not_true, Store.finish_stored_drop, hstored]
        exact hadmitted base rfl henrolled
      have henrol : Total env p (Working p now base (Mark rt now i I))
          (enrolExisting user P.courseId i)
          (ends (fun _ => Finishing p dto now base user) fun _ _ => False) := by
        refine Total.attempt (R := fun _ => Finishing p dto now base user)
          (E := fun e v => e = .domain .enrolmentAlreadyExists ∧
            Repeated p now base user.1 P.courseId v)
          (Total.andThen (insertEnrolment_total hserved hW
            (by rw [husers, Option.getD_none, huser.1]; rfl) hsome
            (by rw [Mark, Drafts.set_same]; rfl))
            (fun row => Total.ret fun v hA => ?_) fun e v hE => hE)
          (fun _ v hfinishing => hfinishing) fun e => ?_
        · obtain ⟨k, hworking⟩ := hA
          exact hkept v k hworking
        · refine Total.given (fun v _ hA => hA.1) fun he => ?_
          subst he
          exact Total.ret fun v hA => hrepeated v hA.2
      refine Total.weaken (Total.andThen henrol (fun _ => ?_) fun _ _ hfalse => hfalse.elim)
        fun v _ hA => hA.1
      exact Total.ret fun v hfinishing => hfinishing

/-- Only the column types can refuse a new account. -/
theorem insertStudentUser_total (hnobody : ∀ user, ¬ AccountOf rt I base user)
    (digest : String) :
    Total env p (Working p now base (Mark rt now i I))
      (insertStudentUser dto I.studentEmail digest)
      (ends (fun user v => (user.2 = studentRow rt dto I.studentEmail digest ∧
          base Tbl.users user.1 = none ∧
          Tbl.admits rt .users (studentRow rt dto I.studentEmail digest) = true) ∧
          Working p now base ((Mark rt now i I).set Tbl.users
            user.1 (some (studentRow rt dto I.studentEmail digest))) v)
        fun error v => error = .queryFailed .dataException ∧
          Tbl.admits rt .users (studentRow rt dto I.studentEmail digest) = false ∧
          (v.store.tx p).isSome = true ∧ v.store.stored = base) := by
  have hrow := studentRow_columns rt dto I.studentEmail digest
  have hsave : Total env p (Working p now base (Mark rt now i I))
      (UsersRepository.insertUserWithinTransaction
        { email := I.studentEmail
          passwordHash := digest
          role := .student
          firstName := dto.firstName
          lastName := dto.lastName
          dateOfBirth := dto.dateOfBirth })
      (ends (fun user v => user.2 = studentRow rt dto I.studentEmail digest ∧
          (base Tbl.users user.1 = none ∧
            Tbl.admits rt .users (studentRow rt dto I.studentEmail digest) = true) ∧
          Working p now base ((Mark rt now i I).set Tbl.users
            user.1 (some (studentRow rt dto I.studentEmail digest))) v)
        fun error v => ∃ err, error = .queryFailed err ∧ err = .dataException ∧
          Tbl.admits rt .users (studentRow rt dto I.studentEmail digest) = false ∧
          (v.store.tx p).isSome = true ∧ v.store.stored = base) := by
    refine save_total (A := Working p now base (Mark rt now i I))
      (R := fun k v => (base Tbl.users k = none ∧
          Tbl.admits rt .users (studentRow rt dto I.studentEmail digest) = true) ∧
        Working p now base ((Mark rt now i I).set
          Tbl.users k (some (studentRow rt dto I.studentEmail digest))) v)
      (E := fun err v => err = .dataException ∧
        Tbl.admits rt .users (studentRow rt dto I.studentEmail digest) = false ∧
        (v.store.tx p).isSome = true ∧ v.store.stored = base)
      hserved (fun v hworking => ⟨_, hworking.inside⟩) ?_ ?_
    · intro v e halone hworking haccepts
      refine ⟨⟨?_, haccepts.admitted⟩, hworking.push halone.wf e Tbl.users _⟩
      rw [← hworking.stored]
      exact (halone.wf.vacant Tbl.users _ (le_refl _)).1
    · intro v e err halone hworking hrefuses
      cases err with
      | dataException =>
          refine ⟨rfl, hrefuses, ?_, hworking.stored⟩
          rw [View.put_store, Store.setTx_tx_self]
          rfl
      | inFailedTransaction => exact hrefuses.elim
      | foreignKeyViolation =>
          obtain ⟨ref, href, -⟩ := hrefuses
          cases href
      | uniqueViolation =>
          obtain ⟨k, other, hclash, hstored | hdraft⟩ := hrefuses
          · have hemail : (studentRow rt dto I.studentEmail digest).email = other.email :=
              eq_of_beq hclash
            rw [hworking.stored] at hstored
            exact (hnobody (k, other) ⟨hstored, by rw [← hemail, hrow.1]⟩).elim
          · rw [hworking.inside.2, Mark, Drafts.set_other _ _ _ (by simp)] at hdraft
            cases hdraft
  refine Total.attempt hsave (fun user v hA => ⟨⟨hA.1, hA.2.1⟩, hA.2.2⟩) fun error => ?_
  refine Total.given (φ := error = .queryFailed .dataException) (fun v _ hA => ?_)
    fun herror => ?_
  · obtain ⟨err, rfl, rfl, -⟩ := hA
    rfl
  · subst herror
    refine Total.throw fun v hA => ⟨rfl, ?_⟩
    obtain ⟨err, -, -, hrejected⟩ := hA
    exact hrejected

theorem redeemForNewUser_total (hfurnished : Furnished base)
    (hopens : Opens rt dto now base i I) (hnobody : ∀ user, ¬ AccountOf rt I base user) :
    Total env p (Working p now base (Mark rt now i I))
      (redeemForNewUser (i, InvitationsRepository.markRedeemed now I) dto)
      (ends (Finishing p dto now base) (Failing p dto now base)) := by
  unfold redeemForNewUser
  split
  · rename_i hmissing
    exact Total.throw fun v hworking => hworking.failing
      (.incomplete I hopens.invited hopens.redeemable hnobody hmissing)
  · rename_i hcomplete
    have hpresent : missingFields dto = [] := not_not.mp hcomplete
    refine Total.node hserved (S := fun digest v => (∃ salt, digest =
        rt.argon2Hash dto.password salt) ∧ Working p now base (Mark rt now i I) v)
      (fun n v _ hworking => ⟨_, _, rfl, ⟨_, rfl⟩, hworking.inside, hworking.stored⟩)
      fun digest => ?_
    refine Total.given (fun v _ hA => hA.1) fun hdigest => ?_
    obtain ⟨salt, rfl⟩ := hdigest
    refine Total.weaken ?_ fun v _ hA => hA.2
    simp only [Prog.andThen_ret]
    refine Total.andThen (insertStudentUser_total hserved hnobody
      (rt.argon2Hash dto.password salt)) (fun user => ?_) fun e v hE => ?_
    rotate_left
    · obtain ⟨rfl, hrejected, hopen, hstored⟩ := hE
      exact ⟨.misfit I hopens.invited hopens.redeemable hnobody hpresent salt hrejected, hopen,
        hstored⟩
    refine Total.given (fun v _ hA => hA.1) fun huser => ?_
    refine Total.weaken ?_ fun v _ hA => hA.2
    obtain ⟨id, row⟩ := user
    obtain ⟨hrow, hfresh, hadmitted⟩ := huser
    obtain rfl : row = _ := hrow
    have hcolumns := studentRow_columns rt dto I.studentEmail (rt.argon2Hash dto.password salt)
    have hW (t : Tbl) (husers : t ≠ .users) (hinvitations : t ≠ .invitations) (k : Nat) :
        ((Mark rt now i I).set Tbl.users id (some (studentRow rt dto I.studentEmail
          (rt.argon2Hash dto.password salt)))) t k = none := by
      rw [Drafts.set_other _ _ _ husers, Mark, Drafts.set_other _ _ _ hinvitations]
      rfl
    refine Total.andThen (resolveCourseId_total hserved hfurnished hopens fun k =>
      hW _ (by simp) (by simp) k) (fun courseId => ?_) fun _ _ hfalse => hfalse.elim
    refine Total.given (fun v _ hA => hA.2) fun hcourse => ?_
    obtain ⟨P, rfl, hP, hsome⟩ := hcourse
    refine Total.andThen (Total.weaken (insertEnrolment_total hserved hW
      (by rw [Drafts.set_same]; rfl) hsome
      (by rw [Drafts.set_other _ _ _ (by simp), Mark, Drafts.set_same]; rfl))
      fun v _ hA => hA.1) (fun enrolment => Total.ret fun v hA => ?_) fun e v hrepeated => ?_
    · obtain ⟨k, hworking⟩ := hA
      refine ⟨_, I, hworking.inside.1, ?_⟩
      rw [Bool.not_false, hworking.commits]
      refine
        { invited := hopens.invited
          redeemable := hopens.redeemable
          entitled := Or.inr ⟨hnobody, hpresent, salt, hadmitted⟩
          account := ⟨?_, hcolumns.1⟩
          student := hcolumns.2.1
          enrolled := ⟨P, k, enrolmentRow id P.courseId i, hP, ?_, rfl, rfl⟩ }
      · rw [Drafts.onto_set_other _ _ _ _ (by simp), Drafts.onto_set_same, Function.update_self]
      · rw [Drafts.onto_set_same, Function.update_self]
    · -- a new account has no enrolment yet
      obtain ⟨-, -, k, other, hother, hstudent, -⟩ := hrepeated
      have hknown := hfurnished.attended k other hother
      rw [hstudent, hfresh] at hknown
      cases hknown

theorem redeemInTransaction_total (hfurnished : Furnished base) :
    Total env p (Working p now base Drafts.empty) (redeemInTransaction dto)
      (ends (Finishing p dto now base) (Failing p dto now base)) := by
  refine Total.andThen (resolveOrThrow_total hserved) (fun row => ?_) fun _ _ herror => herror
  obtain ⟨i, marked⟩ := row
  refine Total.given (φ := ∃ I, marked = InvitationsRepository.markRedeemed now I ∧
    Opens rt dto now base i I) (fun v _ hA => ?_) fun hfacts => ?_
  · obtain ⟨I, hmarked, -, hopens⟩ := hA
    exact ⟨I, hmarked, hopens⟩
  obtain ⟨I, rfl, hopens⟩ := hfacts
  refine Total.read_pool hserved (S := fun s v => Working p now base (Mark rt now i I) v ∧
      Picks (base Tbl.users)
        (fun _ (user : User) => user.email == rt.normaliseEmail I.studentEmail)
        ((s.rows Tbl.users).find? fun row =>
          row.2.email == rt.normaliseEmail I.studentEmail)) ?_ fun s => ?_
  · intro v halone hA
    obtain ⟨J, hJ, hworking, hopens'⟩ := hA
    obtain rfl : I = J :=
      Option.some.inj (hopens.row.symm.trans hopens'.row)
    refine ⟨hworking.put _, ?_⟩
    have hpicks := Snapshot.picks (σ := schema rt) halone.wf v.store.clock Tbl.users
      fun _ (user : User) => user.email == rt.normaliseEmail I.studentEmail
    rw [hworking.stored] at hpicks
    rw [Store.committed, hworking.stored]
    exact hpicks
  · refine Total.given (fun v _ hA => hA.2) fun hpicks => ?_
    refine Total.weaken ?_ fun v _ hA => hA.1
    simp only [Sql.answer, Prog.andThen_ret, Prog.pure_eq]
    cases hfound : (s.rows Tbl.users).find? fun row =>
        row.2.email == rt.normaliseEmail I.studentEmail with
    | none =>
        rw [hfound] at hpicks
        have hnobody (user : Entity .users) : ¬ AccountOf rt I base user := by
          rintro ⟨hrow, hemail⟩
          have hmiss := hpicks user.1 user.2 hrow
          simp [hemail] at hmiss
        have hmissed : (s.rows Tbl.users).find? (fun row => row.2.email ==
            rt.normaliseEmail (InvitationsRepository.markRedeemed now I).studentEmail) = none :=
          hfound
        rw [hmissed]
        exact redeemForNewUser_total hserved hfurnished hopens hnobody
    | some user =>
        rw [hfound] at hpicks
        have haccount : AccountOf rt I base user := ⟨hpicks.1, by simpa using hpicks.2⟩
        have hhit : (s.rows Tbl.users).find? (fun row => row.2.email ==
            rt.normaliseEmail (InvitationsRepository.markRedeemed now I).studentEmail) =
              some user := hfound
        rw [hhit]
        exact redeemForExistingUser_total hserved hfurnished hopens haccount

/-- How a redemption ends. -/
theorem redeem_total (hfurnished : Furnished base) :
    Total env p (fun v => v.store.tx p = none ∧ v.store.clock = now ∧ v.store.stored = base)
      (redeem dto)
      (ends (fun token v => ∃ user I, token = AuthService.issueToken rt user ∧
          RedeemAdmitted rt dto now base v.store.stored user I)
        fun e v => RedeemRefused rt dto now base e ∧ v.store.stored = base) := by
  have htransaction : Total env p
      (fun v => Idle p v ∧ v.store.clock = now ∧ v.store.stored = base)
      (Sql.transaction (redeemInTransaction dto))
      (ends (fun user v => ∃ I, RedeemAdmitted rt dto now base v.store.stored user I)
        fun e v => RedeemRefused rt dto now base e ∧ v.store.stored = base) := by
    refine Total.transaction hserved (B := Working p now base Drafts.empty) ?_
      (redeemInTransaction_total hserved hfurnished) ?_ ?_
    · intro v hA
      obtain ⟨hidle, hclock, hstored⟩ := hA
      refine ⟨hidle.1, ⟨?_, hidle.2⟩, hstored⟩
      rw [View.put_store, Store.setTx_tx_self, hclock]
    · intro user v hfinishing
      obtain ⟨x, I, htx, hadmitted⟩ := hfinishing
      exact ⟨x, htx, I, hadmitted⟩
    · intro e v hfailing
      refine ⟨hfailing.2.1, hfailing.1, ?_⟩
      rw [View.put_store, Store.finish_stored_drop]
      exact hfailing.2.2
  refine Total.andThen (Total.weaken htransaction fun v halone hA => ?_)
    (fun user => Total.ret fun v hA => ?_) fun e v hE => hE
  · exact ⟨idle_of_closed halone.wf hA.1, hA.2⟩
  · obtain ⟨I, hadmitted⟩ := hA
    exact ⟨user, I, rfl, hadmitted⟩

end Rules

end RedeemAlone

end Mes
