import Mes.Backend
import Mes.Transact.Revision

/-!
Which versions of a row the statements of the backend may write. Most rows never
change once they are committed. A user may get another password hash, an issued
invitation may be redeemed before it expires, its email is marked as sent at most
once, and a refresh token is revoked at most once, may lose the link to its
successor, and is deleted only when one of the two retention thresholds has passed.
-/

namespace Mes

open Transact

/-- What one transaction that began at `now` may make of a refresh token. -/
def Aged (now : Time) (a : RefreshToken) : Option RefreshToken → Prop
  | some b => b.expiresAt = a.expiresAt ∧
      (b.revokedAt = a.revokedAt ∨ a.revokedAt = none ∧ b.revokedAt = some now)
  | none =>
      RefreshTokensRepository.expiredBefore AuthService.REFRESH_TOKEN_GRACE_DAYS now a = true ∨
        RefreshTokensRepository.revokedBefore AuthService.REFRESH_TOKEN_FORENSIC_DAYS now a =
          true

/-- An invitation as it is, or redeemed. -/
def Redeemed (now : Time) (a b : Invitation) : Prop :=
  b = a ∨ a.status = .issued ∧ now < a.expiresAt ∧ b = InvitationsRepository.markRedeemed now a

/-- An invitation as it is, or with its email sent. -/
def EmailSent (now : Time) (a b : Invitation) : Prop :=
  b = a ∨ a.emailSentAt = none ∧ b = InvitationsRepository.setEmailSentAt now a

/-- What one transaction may make of an invitation. -/
def Handled (now : Time) (a : Invitation) (x : Option Invitation) : Prop :=
  ∃ b c, Redeemed now a b ∧ EmailSent now b c ∧ x = some c

/-- What one transaction may make of a user: only the password hash changes. -/
def Rehashed (a : User) (x : Option User) : Prop :=
  ∃ passwordHash, x = some { a with passwordHash := passwordHash }

def Tbl.allows : (t : Tbl) → Time → t.Row → Option t.Row → Prop
  | .users, _, a, x => Rehashed a x
  | .invitations, now, a, x => Handled now a x
  | .refreshTokens, now, a, x => Aged now a x
  | .courses, _, a, x => x = some a
  | .lessons, _, a, x => x = some a
  | .purchases, _, a, x => x = some a
  | .idempotencyKeys, _, a, x => x = some a
  | .enrolments, _, a, x => x = some a

theorem Aged.refl (now : Time) (a : RefreshToken) : Aged now a (some a) :=
  ⟨rfl, Or.inl rfl⟩

/-- A token that the transaction itself has revoked is not yet old. -/
theorem revokedBefore_now (forensicDays : Nat) {now : Time} {row : RefreshToken}
    (hrevoked : row.revokedAt = some now) :
    RefreshTokensRepository.revokedBefore forensicDays now row = false := by
  rw [RefreshTokensRepository.revokedBefore, hrevoked, Option.any_some,
    decide_eq_false_iff_not]
  exact Nat.not_lt_of_le (Nat.le_add_right now _)

theorem Aged.trans {now : Time} {a b : RefreshToken} {x : Option RefreshToken}
    (hfirst : Aged now a (some b)) (hsecond : Aged now b x) : Aged now a x := by
  obtain ⟨hexpires, hrevoked⟩ := hfirst
  cases x with
  | some c =>
      obtain ⟨hexpires', hrevoked'⟩ := hsecond
      refine ⟨hexpires'.trans hexpires, ?_⟩
      rcases hrevoked' with hsame' | ⟨hactive', hnow'⟩
      · rw [hsame']
        exact hrevoked
      · rcases hrevoked with hsame | ⟨-, hnow⟩
        · exact Or.inr ⟨hsame.symm.trans hactive', hnow'⟩
        · rw [hactive'] at hnow
          cases hnow
  | none =>
      rcases hsecond with hexpired | hstale
      · left
        simp only [RefreshTokensRepository.expiredBefore, hexpires] at hexpired ⊢
        exact hexpired
      · rcases hrevoked with hsame | ⟨-, hnow⟩
        · right
          simp only [RefreshTokensRepository.revokedBefore, hsame] at hstale ⊢
          exact hstale
        · rw [revokedBefore_now _ hnow] at hstale
          cases hstale

theorem Redeemed.trans {now : Time} {a b c : Invitation} (hfirst : Redeemed now a b)
    (hsecond : Redeemed now b c) : Redeemed now a c := by
  rcases hfirst with rfl | ⟨hissued, hvalid, rfl⟩
  · exact hsecond
  · rcases hsecond with rfl | ⟨hissued', -, -⟩
    · exact Or.inr ⟨hissued, hvalid, rfl⟩
    · cases hissued'

theorem EmailSent.trans {now : Time} {a b c : Invitation} (hfirst : EmailSent now a b)
    (hsecond : EmailSent now b c) : EmailSent now a c := by
  rcases hfirst with rfl | ⟨hunsent, rfl⟩
  · exact hsecond
  · rcases hsecond with rfl | ⟨hunsent', -⟩
    · exact Or.inr ⟨hunsent, rfl⟩
    · cases hunsent'

/-- The redemption and the email concern different columns. -/
theorem EmailSent.swap {now : Time} {a b c : Invitation} (hsent : EmailSent now a b)
    (hredeemed : Redeemed now b c) : ∃ d, Redeemed now a d ∧ EmailSent now d c := by
  rcases hsent with rfl | ⟨hunsent, rfl⟩
  · exact ⟨c, hredeemed, Or.inl rfl⟩
  · rcases hredeemed with rfl | ⟨hissued, hvalid, rfl⟩
    · exact ⟨a, Or.inl rfl, Or.inr ⟨hunsent, rfl⟩⟩
    · exact ⟨_, Or.inr ⟨hissued, hvalid, rfl⟩, Or.inr ⟨hunsent, rfl⟩⟩

theorem Handled.trans {now : Time} {a b : Invitation} {x : Option Invitation}
    (hfirst : Handled now a (some b)) (hsecond : Handled now b x) : Handled now a x := by
  obtain ⟨c, d, hredeemed, hsent, hb⟩ := hfirst
  obtain rfl := Option.some.inj hb
  obtain ⟨e, f, hredeemed', hsent', rfl⟩ := hsecond
  obtain ⟨g, hmiddle, hlater⟩ := hsent.swap hredeemed'
  exact ⟨g, f, hredeemed.trans hmiddle, hlater.trans hsent', rfl⟩

/-- What an invitation may become: it is redeemed once, and its email is marked as sent. -/
def Becomes (a b : Invitation) : Prop :=
  ∃ sent, b = { a with emailSentAt := sent } ∨
    ∃ now, b = { InvitationsRepository.markRedeemed now a with emailSentAt := sent }

theorem Becomes.refl (a : Invitation) : Becomes a a :=
  ⟨a.emailSentAt, Or.inl rfl⟩

theorem Becomes.same {a b : Invitation} (hbecomes : Becomes a b) :
    b.purchaseId = a.purchaseId ∧ b.tokenHash = a.tokenHash ∧
      b.studentEmail = a.studentEmail := by
  obtain ⟨sent, rfl | ⟨now, rfl⟩⟩ := hbecomes
  · exact ⟨rfl, rfl, rfl⟩
  · exact ⟨rfl, rfl, rfl⟩

theorem Becomes.redeemed {a b : Invitation} (hbecomes : Becomes a b)
    (hstatus : a.status = .redeemed) : b.status = .redeemed := by
  obtain ⟨sent, rfl | ⟨now, rfl⟩⟩ := hbecomes
  · exact hstatus
  · rfl

theorem Becomes.handled {now : Time} {a b : Invitation} {x : Option Invitation}
    (hbecomes : Becomes a b) (hhandled : Handled now b x) : ∃ c, x = some c ∧ Becomes a c := by
  obtain ⟨c, d, hredeemed, hsent, rfl⟩ := hhandled
  refine ⟨d, rfl, ?_⟩
  have hmiddle : Becomes a c := by
    rcases hredeemed with rfl | ⟨hissued, -, rfl⟩
    · exact hbecomes
    · obtain ⟨sent, rfl | ⟨before, rfl⟩⟩ := hbecomes
      · exact ⟨sent, Or.inr ⟨now, rfl⟩⟩
      · cases hissued
  rcases hsent with rfl | ⟨-, rfl⟩
  · exact hmiddle
  · obtain ⟨sent, rfl | ⟨before, rfl⟩⟩ := hmiddle
    · exact ⟨some now, Or.inl rfl⟩
    · exact ⟨some now, Or.inr ⟨before, rfl⟩⟩

theorem Rehashed.trans {a b : User} {x : Option User} (hfirst : Rehashed a (some b))
    (hsecond : Rehashed b x) : Rehashed a x := by
  obtain ⟨first, hfirst⟩ := hfirst
  obtain rfl := Option.some.inj hfirst
  obtain ⟨second, hsecond⟩ := hsecond
  exact ⟨second, hsecond⟩

/-- The rows of the backend. -/
def rowVersions (rt : Runtime) : Revision (schema rt) where
  allows := Tbl.allows
  refl := fun t now a => by
    cases t with
    | users => exact ⟨a.passwordHash, rfl⟩
    | invitations => exact ⟨a, a, Or.inl rfl, Or.inl rfl, rfl⟩
    | refreshTokens => exact Aged.refl now a
    | courses | lessons | purchases | idempotencyKeys | enrolments => rfl
  trans := fun t now a b x hfirst hsecond => by
    cases t with
    | users => exact Rehashed.trans hfirst hsecond
    | invitations => exact Handled.trans hfirst hsecond
    | refreshTokens => exact Aged.trans hfirst hsecond
    | courses | lessons | purchases | idempotencyKeys | enrolments =>
        rw [← Option.some.inj hfirst]
        exact hsecond

section Statements

variable (rt : Runtime)

/-! The sets of the updates and deletes, each with its `WHERE` clause. -/

theorem keep_allowed (t : Tbl) (now : Time) (r : t.Row) :
    (rowVersions rt).allows t now r ((Change.keep : Change (schema rt) t).apply r) :=
  (rowVersions rt).refl t now r

theorem setPasswordHash_allowed (passwordHash : String) (now : Time) (user : User) :
    (rowVersions rt).allows Tbl.users now user
      ((UsersRepository.setPasswordHash rt passwordHash).apply user) :=
  ⟨passwordHash, rfl⟩

theorem markRedeemed_allowed {tokenHash : String} {now : Time} {invitation : Invitation}
    (hredeemable : InvitationsRepository.redeemable tokenHash now invitation = true) :
    (rowVersions rt).allows Tbl.invitations now invitation
      (some (InvitationsRepository.markRedeemed now invitation)) := by
  simp only [InvitationsRepository.redeemable, Bool.and_eq_true, beq_iff_eq,
    decide_eq_true_eq] at hredeemable
  exact ⟨_, _, Or.inr ⟨hredeemable.1.2, hredeemable.2, rfl⟩, Or.inl rfl, rfl⟩

theorem setEmailSentAt_allowed {now : Time} {invitation : Invitation}
    (hunsent : invitation.emailSentAt.isNone = true) :
    (rowVersions rt).allows Tbl.invitations now invitation
      (some (InvitationsRepository.setEmailSentAt now invitation)) :=
  ⟨_, _, Or.inl rfl, Or.inr ⟨Option.isNone_iff_eq_none.mp hunsent, rfl⟩, rfl⟩

theorem revoke_allowed {now : Time} {row : RefreshToken} (replacedById : Option Nat)
    (hactive : row.revokedAt.isNone = true) :
    (rowVersions rt).allows Tbl.refreshTokens now row
      ((RefreshTokensRepository.revoke rt now replacedById).apply row) :=
  ⟨rfl, Or.inr ⟨Option.isNone_iff_eq_none.mp hactive, rfl⟩⟩

theorem clearReplacedBy_allowed (now : Time) (row : RefreshToken) :
    (rowVersions rt).allows Tbl.refreshTokens now row
      ((RefreshTokensRepository.clearReplacedBy rt).apply row) :=
  ⟨rfl, Or.inl rfl⟩

theorem deleteExpired_allowed {now : Time} {row : RefreshToken}
    (hexpired : RefreshTokensRepository.expiredBefore AuthService.REFRESH_TOKEN_GRACE_DAYS
      now row = true) :
    (rowVersions rt).allows Tbl.refreshTokens now row
      ((Change.delete : Change (schema rt) Tbl.refreshTokens).apply row) :=
  Or.inl hexpired

theorem deleteRevoked_allowed {now : Time} {row : RefreshToken}
    (hstale : RefreshTokensRepository.revokedBefore AuthService.REFRESH_TOKEN_FORENSIC_DAYS
      now row = true) :
    (rowVersions rt).allows Tbl.refreshTokens now row
      ((Change.delete : Change (schema rt) Tbl.refreshTokens).apply row) :=
  Or.inr hstale

end Statements

end Mes
