import Mes.Auth.SignupSolo
import Mes.Common.SchemaSync
import Mes.Shop.RedeemTable

/-!
Which answers a redeem request can get. The three places that look at the fields of a new
account do not agree: `RedeemInvitationDto` checks the shape of a date and counts the
characters of a name, the service asks for the fields to be there, and the columns of
`users` take real dates and names of at most 80 characters. A value that slips through
reaches the insert, whose error is translated only when it is a unique violation.
-/

namespace Mes

open Transact Transact.Logic InvitationsService Js ClassValidator

variable {rt : Runtime} {lib : Validators} {fields : Fields} {body : Members}

/-- A value of an accepted body does not fit its column. -/
inductive Slips (rt : Runtime) (lib : Validators) (fields : Fields) (I : Invitation) : Prop
  | date (s : JsString) (hfield : fields (text "dateOfBirth") = some (.string s))
      (hshape : isIsoDate s = true) (himpossible : rt.isDate (decode s) = false) :
      Slips rt lib fields I
  | name (key : String) (hkey : key = "firstName" ∨ key = "lastName") (s : JsString)
      (hfield : fields (text key) = some (.string s))
      (hcount : 1 ≤ lib.count s ∧ lib.count s ≤ 80)
      (hmisfit : nameFits (decode s) = false) : Slips rt lib fields I
  | email (hlong : 255 < (rt.normaliseEmail I.studentEmail).length) : Slips rt lib fields I

/-- The new account fits its columns. -/
def storable (rt : Runtime) (dto : RedeemInvitationDto) (I : Invitation) : Bool :=
  decide ((rt.normaliseEmail I.studentEmail).length ≤ 255) &&
    dto.firstName.all nameFits && dto.lastName.all nameFits && dto.dateOfBirth.all rt.isDate

theorem student_admitted (hargon : ∀ plain salt, (rt.argon2Hash plain salt).length ≤ 255)
    (dto : RedeemInvitationDto) (I : Invitation) (salt : String) :
    Tbl.admits rt .users (studentRow rt dto I.studentEmail (rt.argon2Hash dto.password salt)) =
      storable rt dto I := by
  have hcolumns := studentRow_columns rt dto I.studentEmail (rt.argon2Hash dto.password salt)
  have hrest (email digest : String) :
      (studentRow rt dto email digest).firstName = dto.firstName ∧
        (studentRow rt dto email digest).lastName = dto.lastName ∧
        (studentRow rt dto email digest).dateOfBirth = dto.dateOfBirth := by
    unfold studentRow UsersRepository.normaliseEmail
    split <;> exact ⟨rfl, rfl, rfl⟩
  obtain ⟨hfirst, hlast, hbirth⟩ := hrest I.studentEmail (rt.argon2Hash dto.password salt)
  simp [Tbl.admits, storable, hcolumns.1, hcolumns.2.2, hfirst, hlast, hbirth, hargon]

/-- The values of an accepted body that do not fit are the ones that slip through. -/
theorem slips_iff (haccepted : validationPipe lib (RedeemInvitationDto.properties lib) body =
    .ok fields) (I : Invitation) :
    Slips rt lib fields I ↔ storable rt (RedeemInvitationDto.ofFields fields) I = false := by
  have hname (property : Property) (hfirst : (RedeemInvitationDto.properties lib).find?
      (fun other => other.name == property.name) = some property) {key value : String}
      (hkey : property.name = text key)
      (hchecks : property.decorators = [isString, minLength lib 1 none, maxLength lib 80 none])
      (hvalue : fields.text key = some value) :
      ∃ s, fields (text key) = some (.string s) ∧ decode s = value ∧
        1 ≤ lib.count s ∧ lib.count s ≤ 80 := by
    obtain ⟨s, hfield, hdecode, hall⟩ :=
      Fields.text_checked lib haccepted property hfirst hkey hvalue
    rw [hchecks] at hall
    refine ⟨s, hfield, hdecode, ?_⟩
    simpa [isString, minLength, maxLength, onString] using hall
  have hmember (key : String) (hkey : key = "firstName" ∨ key = "lastName") (value : String)
      (hvalue : fields.text key = some value) (hmisfit : nameFits value = false) :
      Slips rt lib fields I := by
    have hread : ∃ s, fields (text key) = some (.string s) ∧ decode s = value ∧
        1 ≤ lib.count s ∧ lib.count s ≤ 80 := by
      rcases hkey with rfl | rfl
      · exact hname (RedeemInvitationDto.firstNameProperty lib) rfl rfl rfl hvalue
      · exact hname (RedeemInvitationDto.lastNameProperty lib) rfl rfl rfl hvalue
    obtain ⟨s, hfield, rfl, hcount⟩ := hread
    exact .name key hkey s hfield hcount hmisfit
  have htext {key : String} {s : JsString} (hfield : fields (text key) = some (.string s)) :
      fields.text key = some (decode s) := by
    rw [Fields.text, hfield]
  simp only [storable, RedeemInvitationDto.ofFields, Bool.and_eq_false_iff,
    decide_eq_false_iff_not, Nat.not_le, Option.all_eq_false]
  constructor
  · intro hslips
    cases hslips with
    | date s hfield hshape himpossible => exact Or.inr ⟨_, htext hfield, himpossible⟩
    | name key hkey s hfield hcount hmisfit =>
        rcases hkey with rfl | rfl
        · exact Or.inl (Or.inl (Or.inr ⟨_, htext hfield, hmisfit⟩))
        · exact Or.inl (Or.inr ⟨_, htext hfield, hmisfit⟩)
    | email hlong => exact Or.inl (Or.inl (Or.inl hlong))
  · rintro (((hlong | ⟨value, hvalue, hmisfit⟩) | ⟨value, hvalue, hmisfit⟩) |
      ⟨value, hvalue, himpossible⟩)
    · exact .email hlong
    · exact hmember "firstName" (Or.inl rfl) value hvalue hmisfit
    · exact hmember "lastName" (Or.inr rfl) value hvalue hmisfit
    · obtain ⟨s, hfield, rfl, hall⟩ := Fields.text_checked lib haccepted
        RedeemInvitationDto.dateOfBirthProperty rfl rfl hvalue
      refine .date s hfield ?_ himpossible
      simpa [RedeemInvitationDto.dateOfBirthProperty, isString, matching, onString] using hall

/-! ### The answers -/

/-- A token, or an error of the API. -/
def Answered : Except AppError AuthTokenResponse → Prop
  | .ok _ => True
  | .error e => ClientError e

/-- The request would create an account that does not fit. -/
structure Unstorable (rt : Runtime) (lib : Validators) (fields : Fields) (now : Time)
    (stored : Committed rt) (I : Invitation) : Prop where
  invited : Invited rt (RedeemInvitationDto.ofFields fields) stored I
  redeemable : I.status = .issued ∧ now < I.expiresAt
  nobody : ∀ user, ¬ AccountOf rt I stored user
  complete : missingFields (RedeemInvitationDto.ofFields fields) = []
  slips : Slips rt lib fields I

/-- A redeem request that runs alone gets an answer exactly when it would not create an
account that does not fit. -/
theorem answered_iff (hargon : ∀ plain salt, (rt.argon2Hash plain salt).length ≤ 255)
    (haccepted : validationPipe lib (RedeemInvitationDto.properties lib) body = .ok fields)
    {env : Fortune (platform rt)} (hserved : ∀ n, env.fault n = none) (p : Pid)
    {v : BackendView rt} (hwf : v.store.Wf) (hquiet : ∀ q, v.store.tx q = none)
    (hfurnished : Furnished v.store.stored) :
    ∃ out n v', solo env p (redeem (RedeemInvitationDto.ofFields fields)) 0 v =
        some (out, n, v') ∧
      (Answered out ↔ ∀ I, ¬ Unstorable rt lib fields v.store.clock v.store.stored I) := by
  obtain ⟨out, n, v', hrun, -, hout⟩ := RedeemAlone.redeem_total (p := p) hserved hfurnished
    0 v ⟨hwf, fun q _ => hquiet q⟩ ⟨hquiet p, rfl, rfl⟩
  refine ⟨out, n, v', hrun, ?_⟩
  cases out with
  | ok token =>
      obtain ⟨user, J, rfl, hadmitted⟩ := hout
      refine ⟨fun _ I hunstorable => ?_, fun _ => True.intro⟩
      obtain rfl := Invited.unique hwf hunstorable.invited hadmitted.invited
      rcases hadmitted.entitled with ⟨known, hknown, -⟩ | ⟨-, -, salt, hfits⟩
      · exact hunstorable.nobody known hknown
      · rw [student_admitted hargon] at hfits
        rw [(slips_iff haccepted I).mp hunstorable.slips] at hfits
        cases hfits
  | error e =>
      obtain ⟨hrefused, -⟩ := hout
      cases hrefused with
      | notFound hnone =>
          exact ⟨fun _ I hunstorable => hnone I hunstorable.invited,
            fun _ => ⟨_, rfl, by decide, by decide⟩⟩
      | alreadyRedeemed J hJ hstatus =>
          refine ⟨fun _ I hunstorable => ?_, fun _ => ⟨_, rfl, by decide, by decide⟩⟩
          obtain rfl := Invited.unique hwf hunstorable.invited hJ
          rw [hunstorable.redeemable.1] at hstatus
          cases hstatus
      | expired J hJ hstatus hlate =>
          refine ⟨fun _ I hunstorable => ?_, fun _ => ⟨_, rfl, by decide, by decide⟩⟩
          obtain rfl := Invited.unique hwf hunstorable.invited hJ
          exact hlate hunstorable.redeemable
      | conflict J hJ hopen user huser hreason =>
          refine ⟨fun _ I hunstorable => ?_, fun _ => ⟨_, rfl, by decide, by decide⟩⟩
          obtain rfl := Invited.unique hwf hunstorable.invited hJ
          exact hunstorable.nobody user huser
      | incomplete J hJ hopen hnobody hmissing =>
          refine ⟨fun _ I hunstorable => hmissing hunstorable.complete,
            fun _ => ⟨_, rfl, by simp [DomainError.httpStatus]⟩⟩
      | misfit J hJ hopen hnobody hcomplete salt hrejected =>
          refine ⟨fun ⟨d, hd, _⟩ => (by cases hd), fun hstorable => absurd ?_ (hstorable J)⟩
          rw [student_admitted hargon] at hrejected
          exact ⟨hJ, hopen, hnobody, hcomplete, (slips_iff haccepted J).mpr hrejected⟩

/-- In no run does a redeem request end in an error that the API does not document,
unless a value has slipped through; alone, it does so exactly when one would be stored. -/
theorem redeem_answers (hargon : ∀ plain salt, (rt.argon2Hash plain salt).length ≤ 255)
    (haccepted : validationPipe lib (RedeemInvitationDto.properties lib) body = .ok fields)
    {seed : Seed} {w : BackendWorld rt} (hruns : Runs rt (boot rt seed) w) :
    (∀ p e, w.Ended p (.redeem (RedeemInvitationDto.ofFields fields)) (.error e) →
      ClientError e ∨ ∃ I, Invited rt (RedeemInvitationDto.ofFields fields)
        w.view.store.stored I ∧ Slips rt lib fields I) ∧
    ((∀ q, q < w.procs.length → (w.view.store.tx q).isNone = true) →
      ∀ (env : Fortune (platform rt)) (p : Pid), (∀ n, env.fault n = none) →
        ∃ out n v', solo env p (redeem (RedeemInvitationDto.ofFields fields)) 0 w.view =
            some (out, n, v') ∧
          (Answered out ↔
            ∀ I, ¬ Unstorable rt lib fields w.view.store.clock w.view.store.stored I)) := by
  have htrading := (trading_run Relation.ReflTransGen.refl hruns).1
  constructor
  · intro p e hended
    obtain ⟨hfailure, -⟩ := htrading.ended hended (Nat.zero_le p)
    rcases hfailure with hclient | ⟨I, salt, hinvited, hmisfit⟩
    · exact Or.inl hclient
    · rw [student_admitted hargon] at hmisfit
      exact Or.inr ⟨I, hinvited, (slips_iff haccepted I).mpr hmisfit⟩
  · intro hclosed env p hserved
    exact answered_iff hargon haccepted hserved p htrading.wf (htrading.closed hclosed)
      htrading.sound.furnished

/-- Digests that fit their column, and a calendar that knows about February. -/
def calendarRuntime : Runtime :=
  { sampleArgonRuntime with isDate := fun date => date != "2024-02-30" }

/-- A new student who was born on the 30th of February. -/
def sampleBirth : Members :=
  [(text "token", .string (text "I1")), (text "firstName", .string (text "First")),
    (text "lastName", .string (text "Last")),
    (text "dateOfBirth", .string (text "2024-02-30")),
    (text "password", .string (text "Secret123"))]

def sampleNewborn : RedeemInvitationDto where
  token := "I1"
  firstName := some "First"
  lastName := some "Last"
  dateOfBirth := some "2024-02-30"
  password := "Secret123"

theorem sampleBirth_accepted : ∃ fields,
    validationPipe sampleValidators (RedeemInvitationDto.properties sampleValidators)
        sampleBirth = .ok fields ∧
      fields (text "dateOfBirth") = some (.string (text "2024-02-30")) ∧
      RedeemInvitationDto.ofFields fields = sampleNewborn :=
  ⟨_, if_pos (by decide), rfl, by decide⟩

/-- A parent buys a course for a student. -/
def sampleSale : List (Action (platform calendarRuntime)) :=
  .spawn (.signup ⟨"parent@example.com", "secret", none, none⟩ sampleMeta) ::
    (List.replicate 6 (.run 0 { text := "T1" }) ++
      (List.replicate 5 (.run 0 { text := "F1" }) ++
        .spawn sampleCheckout :: List.replicate 11 (.run 1 { text := "I1" })))

/-- Every random value is the same text, and nothing fails. -/
def calendarFortune : Fortune (platform calendarRuntime) where
  choice := fun _ => { text := "S" }

/-- The student's request, alone after the sale, gets no answer of the API. -/
theorem redeem_answers_sample : ∃ (fields : Fields) (w : BackendWorld calendarRuntime),
    validationPipe sampleValidators (RedeemInvitationDto.properties sampleValidators)
        sampleBirth = .ok fields ∧
      Runs calendarRuntime (boot calendarRuntime sampleSeed) w ∧
      ∃ out n v', solo calendarFortune 7
          (redeem (RedeemInvitationDto.ofFields fields)) 0 w.view = some (out, n, v') ∧
        ¬ Answered out := by
  obtain ⟨fields, haccepted, hbirth, hdto⟩ := sampleBirth_accepted
  have hrun : ((boot calendarRuntime sampleSeed).run (handler calendarRuntime)
      sampleSale).any (fun w =>
        decide (∀ q, q < w.procs.length → (w.view.store.tx q).isNone = true) &&
        decide (∀ id, id < w.view.store.next Tbl.users →
          (w.view.store.stored Tbl.users id).all (fun user =>
            user.email != "student@example.com") = true) &&
        (w.view.store.stored Tbl.invitations 0).any fun I =>
          decide (I.tokenHash = sampleSha256 "I1" ∧ I.studentEmail = "student@example.com" ∧
            I.status = .issued ∧ w.view.store.clock < I.expiresAt)) = true := by decide
  obtain ⟨w, hw, hchecks⟩ := (Option.any_eq_true _ _).mp hrun
  simp only [Bool.and_eq_true, decide_eq_true_eq] at hchecks
  obtain ⟨⟨hclosed, hnobody⟩, hinvited⟩ := hchecks
  obtain ⟨I, hI, hfacts⟩ := (Option.any_eq_true _ _).mp hinvited
  obtain ⟨htoken, hemail, hopen⟩ := of_decide_eq_true hfacts
  have hruns := runs_of_run hw
  have hargon (plain salt : String) :
      (calendarRuntime.argon2Hash plain salt).length ≤ 255 := by
    simp [calendarRuntime, sampleArgonRuntime]
  obtain ⟨out, n, v', hsolo, hanswered⟩ := (redeem_answers hargon haccepted hruns).2 hclosed
    calendarFortune 7 fun _ => rfl
  refine ⟨fields, w, haccepted, hruns, out, n, v', hsolo, fun hanswer => ?_⟩
  refine hanswered.mp hanswer I
    ⟨⟨0, hI, ?_⟩, hopen, ?_, ?_, .date _ hbirth (by decide) (by decide)⟩
  · rw [hdto]
    exact htoken
  · rintro ⟨id, user⟩ ⟨hrow, haccount⟩
    have htrading := (trading_run Relation.ReflTransGen.refl hruns).1
    have hother := hnobody id (htrading.wf.lt_next hrow)
    have hsame : user.email = "student@example.com" := haccount.trans hemail
    rw [hrow] at hother
    simp [hsame] at hother
  · rw [hdto]
    decide

/-- An accepted body ends in an error of the database, which the filter turns into 500. -/
theorem redeem_surfaces_database_error : ∃ (fields : Fields) (w : BackendWorld calendarRuntime),
    validationPipe sampleValidators (RedeemInvitationDto.properties sampleValidators)
        sampleBirth = .ok fields ∧
      Runs calendarRuntime (boot calendarRuntime sampleSeed) w ∧
      ∃ e, w.Ended 2 (.redeem (RedeemInvitationDto.ofFields fields)) (.error e) ∧
        ¬ ClientError e ∧ e.httpStatus = 500 := by
  obtain ⟨fields, haccepted, -, hdto⟩ := sampleBirth_accepted
  have hrun : ((boot calendarRuntime sampleSeed).run (handler calendarRuntime)
      (sampleSale ++ .spawn (.redeem sampleNewborn) ::
        List.replicate 7 (.run 2 { text := "S" }))).any (fun w =>
          decide (w.status 2 = some (.redeem sampleNewborn,
            some (.error (.queryFailed .dataException))))) = true := by
    decide
  obtain ⟨w, hw, hcheck⟩ := (Option.any_eq_true _ _).mp hrun
  refine ⟨fields, w, haccepted, runs_of_run hw, .queryFailed .dataException, ?_, ?_, rfl⟩
  · rw [hdto]
    exact World.ended_of_status (of_decide_eq_true hcheck)
  · rintro ⟨d, hd, -⟩
    cases hd

end Mes
