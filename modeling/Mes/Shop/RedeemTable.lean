import Mes.Shop.Integrity
import Mes.Shop.RedeemAlone

/-!
The decision table of `POST /invitations/redeem`: for a request that runs alone, which
answer it gets and when, and that a refusal leaves the committed rows as they were.
-/

namespace Mes

open Transact Transact.Logic InvitationsService

variable {rt : Runtime}

/-- What the shop promises is what a redemption needs. -/
theorem Shop.Sound.furnished {v : BackendView rt} (hsound : (shop v).Sound rt) :
    Furnished v.store.stored := by
  constructor
  · intro i I hI
    obtain ⟨P, hP⟩ := hsound.invited i I hI
    obtain ⟨course, hcourse⟩ := hsound.stocked _ P hP
    exact ⟨P, hP, Option.isSome_iff_exists.mpr ⟨course, hcourse⟩⟩
  · intro k row hrow
    obtain ⟨i, I, U, P, hgrant⟩ := hsound.granted k row hrow
    exact Option.isSome_iff_exists.mpr ⟨U, hgrant.student⟩

/-- A world whose requests are all between transactions. -/
theorem Trading.closed {sc : Scope (schema rt) (platform rt)} {w₀ w : BackendWorld rt}
    (htrading : Trading sc w₀ w)
    (hclosed : ∀ q, q < w.procs.length → (w.view.store.tx q).isNone = true) (q : Pid) :
    w.view.store.tx q = none := by
  rcases Nat.lt_or_ge q w.procs.length with hlt | hge
  · exact Option.isNone_iff_eq_none.mp (hclosed q hlt)
  · exact (htrading.fresh q hge).1.idle.1

/-- One invitation has the token, and one account its email. -/
theorem Invited.unique {s : Store (schema rt)} (hwf : s.Wf) {dto : RedeemInvitationDto}
    {I J : Invitation} (hI : Invited rt dto s.stored I) (hJ : Invited rt dto s.stored J) :
    I = J := by
  obtain ⟨i, hI, htoken⟩ := hI
  obtain ⟨j, hJ, htoken'⟩ := hJ
  have hclash : Tbl.clash .invitations I J = true := by simp [Tbl.clash, htoken, htoken']
  obtain rfl : i = j := hwf.stored_distinct hI hJ hclash
  exact Option.some.inj (hI.symm.trans hJ)

theorem AccountOf.unique {s : Store (schema rt)} (hwf : s.Wf) {I : Invitation}
    {user known : Entity .users} (huser : AccountOf rt I s.stored user)
    (hknown : AccountOf rt I s.stored known) : user = known := by
  obtain ⟨huser, hemail⟩ := huser
  obtain ⟨hknown, hemail'⟩ := hknown
  have hclash : Tbl.clash .users user.2 known.2 = true := by simp [Tbl.clash, hemail, hemail']
  have hid : user.1 = known.1 := hwf.stored_distinct huser hknown hclash
  rw [hid] at huser
  exact Prod.ext hid (Option.some.inj (huser.symm.trans hknown))

theorem missingFields_iff (dto : RedeemInvitationDto) : missingFields dto ≠ [] ↔
    isMissing dto.firstName = true ∨ isMissing dto.lastName = true ∨
      isMissing dto.dateOfBirth = true := by
  unfold missingFields
  cases isMissing dto.firstName <;> cases isMissing dto.lastName <;>
    cases isMissing dto.dateOfBirth <;> simp

/-- The decision table. -/
theorem redeem_decides {env : Fortune (platform rt)} (hserved : ∀ n, env.fault n = none)
    (p : Pid) (dto : RedeemInvitationDto) {v : BackendView rt} (hwf : v.store.Wf)
    (hquiet : ∀ q, v.store.tx q = none) (hkeys : Furnished v.store.stored)
    (hfits : AccountFits rt dto v.store.stored) :
    ∃ out n v', solo env p (redeem dto) 0 v = some (out, n, v') ∧
      (out = .error (.domain .invitationNotFound) ↔
        ∀ I, ¬ Invited rt dto v.store.stored I) ∧
      (∀ I, Invited rt dto v.store.stored I →
        (out = .error (.domain .invitationAlreadyRedeemed) ↔ I.status = .redeemed) ∧
        (out = .error (.domain .invitationExpired) ↔
          I.status ≠ .redeemed ∧ ¬ (I.status = .issued ∧ v.store.clock < I.expiresAt)) ∧
        (I.status = .issued ∧ v.store.clock < I.expiresAt →
          (out = .error (.domain .invitationEmailConflict) ↔
            ∃ user, AccountOf rt I v.store.stored user ∧
              (user.2.role ≠ .student ∨ passwordMatches rt user dto.password = false)) ∧
          (out = .error (.domain (.validationFailed (missingFields dto))) ↔
            (∀ user, ¬ AccountOf rt I v.store.stored user) ∧
              (isMissing dto.firstName = true ∨ isMissing dto.lastName = true ∨
                isMissing dto.dateOfBirth = true)) ∧
          ((∀ user, AccountOf rt I v.store.stored user →
              user.2.role = .student ∧ passwordMatches rt user dto.password = true) ∧
            ((∃ user, AccountOf rt I v.store.stored user) ∨ missingFields dto = []) →
            ∃ user, AccountOf rt I v'.store.stored user ∧ user.2.role = .student ∧
              out = .ok (AuthService.issueToken rt user)))) ∧
      ∀ e, out = .error e → v'.store.stored = v.store.stored := by
  obtain ⟨out, n, v', hrun, -, hout⟩ := RedeemAlone.redeem_total (p := p) hserved hkeys
    0 v ⟨hwf, fun q _ => hquiet q⟩ ⟨hquiet p, rfl, rfl⟩
  refine ⟨out, n, v', hrun, ?_⟩
  have hsame {I J : Invitation} (hI : Invited rt dto v.store.stored I)
      (hJ : Invited rt dto v.store.stored J) : I = J := Invited.unique hwf hI hJ
  cases out with
  | error e =>
      obtain ⟨hrefused, hkept⟩ := hout
      refine ⟨?_, fun I hI => ?_, fun _ _ => hkept⟩
      · cases hrefused with
        | notFound hnone => exact ⟨fun _ => hnone, fun _ => rfl⟩
        | alreadyRedeemed J hJ | expired J hJ | conflict J hJ | incomplete J hJ | misfit J hJ =>
            exact ⟨fun heq => (by cases heq), fun hnone => absurd hJ (hnone J)⟩
      · cases hrefused with
        | misfit J hJ hopen hnobody hcomplete salt hrejected =>
            rw [hfits hcomplete J hJ salt] at hrejected
            cases hrejected
        | notFound hnone => exact absurd hI (hnone I)
        | alreadyRedeemed J hJ hstatus =>
            obtain rfl := hsame hI hJ
            simp [hstatus]
        | expired J hJ hstatus hlate =>
            obtain rfl := hsame hI hJ
            exact ⟨⟨fun heq => (by cases heq), fun hredeemed => absurd hredeemed hstatus⟩,
              ⟨fun _ => ⟨hstatus, hlate⟩, fun _ => rfl⟩, fun hopen => absurd hopen hlate⟩
        | conflict J hJ hopen user huser hreason =>
            obtain rfl := hsame hI hJ
            refine ⟨by simp [hopen.1],
              ⟨fun heq => (by cases heq), fun hlate => absurd hopen hlate.2⟩,
              fun _ => ⟨⟨fun _ => ⟨user, huser, hreason⟩, fun _ => rfl⟩,
                ⟨fun heq => (by cases heq), fun hnobody => absurd huser (hnobody.1 user)⟩,
                fun hentitled => ?_⟩⟩
            obtain ⟨hstudent, hmatches⟩ := hentitled.1 user huser
            rcases hreason with hrole | hpassword
            · exact absurd hstudent hrole
            · rw [hmatches] at hpassword
              cases hpassword
        | incomplete J hJ hopen hnobody hmissing =>
            obtain rfl := hsame hI hJ
            refine ⟨by simp [hopen.1],
              ⟨fun heq => (by cases heq), fun hlate => absurd hopen hlate.2⟩,
              fun _ => ⟨⟨fun heq => (by cases heq), fun ⟨user, huser, _⟩ =>
                absurd huser (hnobody user)⟩,
                ⟨fun _ => ⟨hnobody, (missingFields_iff dto).mp hmissing⟩, fun _ => rfl⟩,
                fun hentitled => ?_⟩⟩
            rcases hentitled.2 with ⟨user, huser⟩ | hcomplete
            · exact absurd huser (hnobody user)
            · exact absurd hcomplete hmissing
  | ok token =>
      obtain ⟨user, J, rfl, hadmitted⟩ := hout
      have hopen := hadmitted.redeemable
      refine ⟨⟨fun heq => (by cases heq), fun hnone => absurd hadmitted.invited (hnone J)⟩,
        fun I hI => ?_, fun e heq => by cases heq⟩
      obtain rfl := hsame hI hadmitted.invited
      refine ⟨⟨fun heq => (by cases heq), fun hredeemed => ?_⟩,
        ⟨fun heq => (by cases heq), fun hlate => absurd hopen hlate.2⟩,
        fun _ => ⟨⟨fun heq => (by cases heq), fun ⟨known, hknown, hreason⟩ => ?_⟩,
          ⟨fun heq => (by cases heq), fun ⟨hnobody, hmissing⟩ => ?_⟩,
          fun _ => ⟨user, hadmitted.account, hadmitted.student, rfl⟩⟩⟩
      · rw [hopen.1] at hredeemed
        cases hredeemed
      · rcases hadmitted.entitled with ⟨other, hother, hentitled⟩ | ⟨hnobody, -⟩
        · rw [AccountOf.unique hwf hknown hother] at hreason
          exact absurd hreason hentitled
        · exact absurd hknown (hnobody known)
      · rcases hadmitted.entitled with ⟨other, hother, -⟩ | ⟨-, hcomplete, -⟩
        · exact absurd hother (hnobody other)
        · exact absurd hcomplete ((missingFields_iff dto).mpr hmissing)

def sampleInvited : List (Action (platform sampleRuntime)) :=
  sampleSignup ++ .spawn sampleCheckout :: operations 1 11 "I1"

/-- A new student who leaves out the first name. -/
def sampleUnnamed : RedeemInvitationDto :=
  { sampleStudent with firstName := none }

theorem redeem_decides_sample : ∃ w : BackendWorld sampleRuntime,
    Runs sampleRuntime (boot sampleRuntime sampleSeed) w ∧
      ∃ n v', solo sampleFortune 7 (redeem sampleUnnamed) 0 w.view =
          some (.error (.domain (.validationFailed (missingFields sampleUnnamed))), n, v') ∧
        v'.store.stored = w.view.store.stored := by
  have hrun : ((boot sampleRuntime sampleSeed).run (handler sampleRuntime)
      sampleInvited).any (fun w =>
        decide (∀ q, q < w.procs.length → (w.view.store.tx q).isNone = true) &&
        decide (∀ id, id < w.view.store.next Tbl.users →
          (w.view.store.stored Tbl.users id).all (fun user =>
            user.email != "student@example.com") = true) &&
        (w.view.store.stored Tbl.invitations 0).any fun I =>
          decide (I.tokenHash = sampleSha256 "I1" ∧ I.studentEmail = "student@example.com" ∧
            I.status = .issued ∧ w.view.store.clock < I.expiresAt)) = true := by decide
  obtain ⟨w, hw, hchecks⟩ := (Option.any_eq_true _ _).mp hrun
  simp only [Bool.and_eq_true, decide_eq_true_eq] at hchecks
  obtain ⟨⟨hclosed, hnobody⟩, hinvited⟩ := hchecks
  obtain ⟨I, hI, hfacts⟩ := (Option.any_eq_true _ _).mp hinvited
  obtain ⟨htoken, hemail, hopen⟩ := of_decide_eq_true hfacts
  have hruns := runs_of_run hw
  have htrading := (trading_run Relation.ReflTransGen.refl hruns).1
  have hmissing : isMissing sampleUnnamed.firstName = true := rfl
  have hfits : AccountFits sampleRuntime sampleUnnamed w.view.store.stored := fun hcomplete =>
    absurd hcomplete ((missingFields_iff _).mpr (Or.inl hmissing))
  obtain ⟨out, n, v', hsolo, -, htable, hkept⟩ := redeem_decides
    (fun n => (rfl : sampleFortune.fault n = none)) 7 sampleUnnamed htrading.wf
    (htrading.closed hclosed) htrading.sound.furnished hfits
  have hout := ((htable I ⟨0, hI, htoken⟩).2.2 hopen).2.1.mpr ⟨?_, Or.inl hmissing⟩
  · subst hout
    exact ⟨w, hruns, n, v', hsolo, hkept _ rfl⟩
  · rintro ⟨id, user⟩ ⟨hrow, haccount⟩
    have hother := hnobody id (htrading.wf.lt_next hrow)
    have hsame : user.email = "student@example.com" := haccount.trans hemail
    rw [hrow] at hother
    simp [hsame] at hother

end Mes
