import Mes.Auth.SignupSolo
import Mes.Shop.RedeemProof
import Mes.Transact.Sealed

/-!
The passwords of the accounts that requests have created. The hash of such an account is
made with the current parameters, so a login never finds it due for a new hash, and no
other request writes the accounts that exist. The account stays as it was inserted.
-/

namespace Mes

open Transact InvitationsService

variable {rt : Runtime} {n : Nat}

/-- The accounts behind the `n` seeded ones. -/
def Joined (n : Nat) : Tbl → Nat → Prop
  | .users, id => n ≤ id
  | .courses, _ | .lessons, _ | .purchases, _ | .invitations, _ | .idempotencyKeys, _
  | .enrolments, _ | .refreshTokens, _ => False

/-- The password that a request gives to the account that it creates. -/
def GivesPassword : Request → String → Prop
  | .signup input _, plain => plain = input.password
  | .redeem dto, plain => plain = dto.password
  | _, _ => False

/-- The account was created with a password of the request. -/
def Registers (rt : Runtime) (req : Request) : (t : Tbl) → t.Row → Prop
  | .users, user => ∃ plain salt, GivesPassword req plain ∧
      user.passwordHash = rt.argon2Hash plain salt
  | .courses, _ | .lessons, _ | .purchases, _ | .invitations, _ | .idempotencyKeys, _
  | .enrolments, _ | .refreshTokens, _ => True

/-- A new hash is made for a seeded account only. -/
def Rehashes (rt : Runtime) (n : Nat) : Request → Prop
  | .rehashIfNeeded id digest _ => n ≤ id → rt.argon2NeedsRehash digest = false
  | .signup _ _ | .login _ _ | .refresh _ _ | .logout _ | .cleanup | .createPurchase _ _ _
  | .listMine _ | .redeem _ | .listLessonsForCourse _ _ | .getLesson _ _
  | .sendInvitationEmail _ | .revokeFamily _ =>
      True

/-- The programs of a backend whose hashes are up to date. -/
abbrev Registering (rt : Runtime) (n : Nat) (req : Request) {α : Type} (x : Method rt α)
    (R : α → Prop) : Prop :=
  x.Conducts (Tells (P := platform rt) (σ := schema rt) (Joined n) (Registers rt))
    (Seals (P := platform rt) (σ := schema rt) (Joined n) (Registers rt) (Rehashes rt n) req) R

section Programs

variable {α β : Type} {req : Request}

/-- Whoever leaves the accounts alone. -/
theorem registering_within (fp : Footprint) {x : Method rt α} (hwithin : Within fp x)
    (husers : .users ∉ fp.tables) (hrehash : fp.rehash = false) :
    Registering rt n req x fun _ => True := by
  refine hwithin.conducts fun c hc => ?_
  cases c with
  | node op => trivial
  | fork req' =>
      cases req' with
      | rehashIfNeeded id digest plain =>
          have hrehashes : fp.rehash = true := hc
          rw [hrehash] at hrehashes
          cases hrehashes
      | signup | login | refresh | logout | cleanup | createPurchase | listMine | redeem
      | listLessonsForCourse | getLesson | sendInvitationEmail | revokeFamily => trivial
  | sql stmt =>
      cases stmt with
      | begin | commit | rollback | read => trivial
      | touch t i where_ set =>
          cases t with
          | users => exact absurd hc husers
          | courses | lessons | purchases | invitations | idempotencyKeys | enrolments
          | refreshTokens => exact fun hjoined => hjoined
      | insert t row =>
          cases t with
          | users => exact absurd hc husers
          | courses | lessons | purchases | invitations | idempotencyKeys | enrolments
          | refreshTokens => exact fun _ => trivial

theorem registering_bind {x : Method rt α} {f : α → Method rt β} {R : α → Prop} {Q : β → Prop}
    (hx : Registering rt n req x R) (hf : ∀ a, R a → Registering rt n req (f a) Q) :
    Registering rt n req (x >>= f) Q :=
  Prog.Conducts.andThen hx hf

theorem registering_attempt {x : Method rt α} {handler : AppError → Method rt α}
    {R : α → Prop} (hx : Registering rt n req x R)
    (hhandler : ∀ e, Registering rt n req (handler e) R) :
    Registering rt n req (x.attempt handler) R :=
  Prog.Conducts.attempt hx hhandler

theorem registering_hashPassword (plain : String) :
    Registering rt n req (AuthService.hashPassword plain) fun digest =>
      ∃ salt, digest = rt.argon2Hash plain salt := by
  refine ⟨trivial, fun digest hdigest => ?_⟩
  obtain ⟨p, now, choice, m, m', hexec⟩ := hdigest
  exact ⟨choice.text, (Prod.mk.inj (Option.some.inj hexec)).1.symm⟩

/-- A user who is looked up and has joined has an up-to-date hash. -/
theorem registering_findByEmail (email : String) :
    Registering rt n req (UsersRepository.findByEmail email) fun found =>
      ∀ user, found = some user → n ≤ user.1 →
        ∃ plain salt, user.2.passwordHash = rt.argon2Hash plain salt := by
  refine registering_bind (conducts_read .pool) fun s hrows user hfound hjoined => ?_
  obtain ⟨req', plain, salt, -, hhash⟩ :=
    hrows Tbl.users user.1 user.2 (List.mem_of_find?_eq_some hfound) hjoined
  exact ⟨plain, salt, hhash⟩

theorem registering_save (user : User)
    (huser : ∃ plain salt, GivesPassword req plain ∧
      user.passwordHash = rt.argon2Hash plain salt) :
    Registering rt n req (BaseRepository.save .users fun _ =>
      UsersRepository.normaliseEmail rt user) fun _ => True := by
  refine conducts_insert (σ := schema rt) (P := platform rt) Tbl.users fun now => ?_
  obtain ⟨plain, salt, hgives, hhash⟩ := huser
  refine ⟨plain, salt, hgives, ?_⟩
  rw [← hhash]
  unfold UsersRepository.normaliseEmail
  split <;> rfl

theorem registering_signup (input : SignupDto) (requestMeta : RequestMeta) :
    Registering rt n (.signup input requestMeta) (AuthService.signup input requestMeta)
      fun _ => True := by
  refine registering_bind (registering_findByEmail _) fun found _ => ?_
  cases found with
  | some user => trivial
  | none =>
      refine registering_bind (registering_hashPassword _) fun digest hdigest => ?_
      obtain ⟨salt, rfl⟩ := hdigest
      refine registering_bind (R := fun _ => True) ?_ fun user _ => ?_
      · refine registering_attempt (conducts_transaction
          (registering_save _ ⟨input.password, salt, rfl, rfl⟩)) fun e => ?_
        split <;> trivial
      · refine registering_bind (registering_within { tables := [.refreshTokens] }
          (keeps_issueRefreshToken (by simp) _ _).within (by simp) rfl) fun _ _ => trivial

/-- The hash that a login finds is up to date, unless the account is a seeded one. -/
theorem registering_login
    (hrehash : ∀ plain salt, rt.argon2NeedsRehash (rt.argon2Hash plain salt) = false)
    (input : LoginDto) (requestMeta : RequestMeta) :
    Registering rt n (.login input requestMeta) (AuthService.login input requestMeta)
      fun _ => True := by
  refine registering_bind (registering_findByEmail _) fun found hfound => ?_
  cases found with
  | none => trivial
  | some user =>
      refine registering_bind (registering_within {}
        (keeps_argon2Verify _ _).within (by simp) rfl) fun matched _ => ?_
      split
      · trivial
      · refine registering_bind (R := fun _ => True) ⟨fun hjoined => ?_, fun _ _ => trivial⟩
          fun _ _ => ?_
        · obtain ⟨plain, salt, hhash⟩ := hfound user rfl hjoined
          rw [hhash]
          exact hrehash plain salt
        · refine registering_bind (registering_within { tables := [.refreshTokens] }
            (keeps_issueRefreshToken (by simp) _ _).within (by simp) rfl) fun _ _ => trivial

theorem registering_redeem (dto : RedeemInvitationDto) :
    Registering rt n (.redeem dto) (redeem dto) fun _ => True := by
  have hframe {γ : Type} {x : Method rt γ}
      (hwithin : Within { tables := [.invitations, .enrolments] } x) :
      Registering rt n (.redeem dto) x fun _ => True :=
    registering_within _ hwithin (by simp) rfl
  refine registering_bind (conducts_transaction (R := fun _ => True) ?_) fun _ _ => trivial
  refine registering_bind (hframe (keeps_resolveOrThrow (by simp) _).within) fun invitation _ => ?_
  refine registering_bind (registering_findByEmail _) fun found _ => ?_
  cases found with
  | some user =>
      exact hframe (keeps_redeemForExistingUser (by simp) _ _ _).within
  | none =>
      show Registering rt n (.redeem dto) (redeemForNewUser invitation dto) fun _ => True
      unfold redeemForNewUser
      split
      · trivial
      · refine registering_bind (registering_hashPassword _) fun digest hdigest => ?_
        obtain ⟨salt, rfl⟩ := hdigest
        refine registering_bind (R := fun _ => True) ?_ fun user _ => hframe ?_
        · refine registering_attempt
            (registering_save _ ⟨dto.password, salt, rfl, rfl⟩) fun e => ?_
          split <;> trivial
        · refine Keeps.within (keeps_bind (keeps_resolveCourseId _) fun courseId => ?_)
          exact keeps_bind (keeps_insertEnrolment (by simp) _) fun _ => trivial

theorem registering_rehashIfNeeded {userId : Nat} {digest plain : String}
    (hstarts : Rehashes rt n (.rehashIfNeeded userId digest plain)) :
    Registering rt n req (AuthService.rehashIfNeeded userId digest plain) fun _ => True := by
  unfold AuthService.rehashIfNeeded
  split
  · trivial
  · rename_i hdue
    refine registering_attempt (registering_bind (registering_hashPassword _)
      fun fresh _ => conducts_transaction (registering_bind (conducts_read .manager)
        fun s _ => registering_bind (conducts_touchEach (σ := schema rt) (P := platform rt)
          Tbl.users _ _ [] _ ?_) fun _ _ => trivial)) fun _ => trivial
    intro i hi hjoined
    obtain ⟨row, hrow, rfl⟩ := List.mem_map.mp hi
    have hid : row.1 = userId := by simpa using (List.mem_filter.mp hrow).2
    exact hdue (hstarts (hid ▸ hjoined))

end Programs

theorem handler_registering
    (hrehash : ∀ plain salt, rt.argon2NeedsRehash (rt.argon2Hash plain salt) = false)
    {req : Request} (hstarts : Rehashes rt n req) :
    Registering rt n req (handler rt req) fun _ => True := by
  have hdone {α β : Type} {x : Method rt α} {f : α → β}
      (hx : Registering rt n req x fun _ => True) :
      Registering rt n req (x >>= fun a => pure (f a)) fun _ => True :=
    registering_bind hx fun _ _ => trivial
  cases req with
  | signup input requestMeta => exact hdone (registering_signup input requestMeta)
  | login input requestMeta => exact hdone (registering_login hrehash input requestMeta)
  | redeem dto => exact hdone (registering_redeem dto)
  | rehashIfNeeded userId digest plain => exact hdone (registering_rehashIfNeeded hstarts)
  | refresh | logout | cleanup | createPurchase | listMine | listLessonsForCourse | getLesson
  | sendInvitationEmail | revokeFamily =>
      exact registering_within _ (handler_within rt _) (by simp [footprint]) rfl

end Mes
