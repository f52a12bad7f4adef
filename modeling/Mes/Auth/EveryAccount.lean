import Mes.Auth.LoginAlone
import Mes.Auth.Passwords
import Mes.Common.SchemaSync
import Mes.Shop.RedeemTable

/-!
Which accounts can log in. A signup and a redeem create accounts, and each checks the
password with its own class; `LoginDto` checks it again when the owner comes back. An
account keeps the password that it was created with, so a login with that password
succeeds once it has passed the check.
-/

namespace Mes

open Transact InvitationsService Js ClassValidator

variable {rt : Runtime} {lib : Validators} {fields : Fields} {body : Members}

/-! ### The checks -/

/-- The login takes this password, whoever it belongs to. -/
def LoginAccepts (lib : Validators) (s : JsString) : Prop :=
  (LoginDto.passwordProperty lib).issues (some (.string s)) = []

theorem loginAccepts_iff (s : JsString) :
    LoginAccepts lib s ↔ 1 ≤ lib.count s ∧ lib.count s ≤ 128 := by
  unfold LoginAccepts
  rw [Property.issues_eq_nil_iff]
  simp [LoginDto.passwordProperty, isString, minLength, maxLength, onString]

/-- A required property of an accepted body that has to be a string is one. -/
theorem string_of_required {properties : List Property}
    (haccepted : validationPipe lib properties body = .ok fields) (property : Property)
    (hfirst : properties.find? (fun other => other.name == property.name) = some property)
    (hrequired : property.optional = false) (hstring : isString ∈ property.decorators) :
    ∃ s, fields property.name = some (.string s) ∧
      ∀ d ∈ property.decorators, d.holds (.string s) = true := by
  rcases validationPipe_checked lib haccepted hfirst with ⟨hoptional, -⟩ | hchecks
  · rw [hrequired] at hoptional
    cases hoptional
  · obtain ⟨v, hv, hholds⟩ := (Option.any_eq_true _ _).mp (hchecks _ hstring)
    cases v with
    | string s => exact ⟨s, hv, fun d hd => by simpa [hv] using hchecks d hd⟩
    | null | bool | number | array | object => cases hholds

/-- What a signup asks of a password is more than a login does. -/
theorem signup_password
    (haccepted : validationPipe lib (SignupDto.properties lib) body = .ok fields) :
    ∃ s, fields (text "password") = some (.string s) ∧ LoginAccepts lib s := by
  obtain ⟨s, hs, hchecks⟩ := string_of_required haccepted (SignupDto.passwordProperty lib)
    rfl rfl List.mem_cons_self
  have hcount : 12 ≤ lib.count s ∧ lib.count s ≤ 128 := by
    simp [SignupDto.passwordProperty, isString, minLength, maxLength, matching,
      onString] at hchecks
    exact ⟨hchecks.1, hchecks.2.1⟩
  exact ⟨s, hs, (loginAccepts_iff s).mpr ⟨by omega, hcount.2⟩⟩

/-- A redeem sets no upper bound, and the login accepts the password exactly when it has
at most 128 characters. -/
theorem redeem_password
    (haccepted : validationPipe lib (RedeemInvitationDto.properties lib) body = .ok fields) :
    ∃ s, fields (text "password") = some (.string s) ∧
      (LoginAccepts lib s ↔ lib.count s ≤ 128) := by
  obtain ⟨s, hs, hchecks⟩ := string_of_required haccepted
    (RedeemInvitationDto.passwordProperty lib) rfl rfl List.mem_cons_self
  have hcount : 8 ≤ lib.count s := by
    simp [RedeemInvitationDto.passwordProperty, isString, minLength, matching,
      onString] at hchecks
    exact hchecks.1
  refine ⟨s, hs, ?_⟩
  rw [loginAccepts_iff]
  omega

/-! ### The accounts -/

/-- The requests that arrive from outside; only a login starts the making of a new hash. -/
def Arrives : Request → Prop
  | .rehashIfNeeded _ _ _ => False
  | .signup _ _ | .login _ _ | .refresh _ _ | .logout _ | .cleanup | .createPurchase _ _ _
  | .listMine _ | .redeem _ | .listLessonsForCourse _ _ | .getLesson _ _
  | .sendInvitationEmail _ | .revokeFamily _ =>
      True

/-- The schedules of these requests. -/
abbrev arrivals (rt : Runtime) : Scope (schema rt) (platform rt) :=
  Scope.any Arrives

theorem runs_of_arrivals {w w' : BackendWorld rt}
    (hreach : Reach (handler rt) (arrivals rt) w w') : Runs rt w w' := by
  refine Relation.ReflTransGen.mono ?_ _ _ hreach
  rintro u u' ⟨a, hstep, -⟩
  exact ⟨a, hstep, by cases a <;> trivial⟩

/-- The owner of the account can log in with this password, from any address that the
column takes, when no other request interferes and the database does not fail. -/
def LogsIn (rt : Runtime) (v : BackendView rt) (id : Nat) (s : JsString) : Prop :=
  ∃ user, v.store.stored Tbl.users id = some user ∧
    ∀ (p : Pid) (env : Fortune (platform rt)) (email : String) (requestMeta : RequestMeta),
      (∀ n, env.fault n = none) → rt.normaliseEmail email = user.email →
      requestMeta.ip.all rt.isInet = true → Draws env 2 v.mem →
      ∃ result m v', solo env p (AuthService.login ⟨email, decode s⟩ requestMeta) 0 v =
          some (.ok result, m, v') ∧
        result.accessToken = AuthService.issueToken rt (id, user)

variable {seed : Seed} {w : BackendWorld rt}

theorem boot_sealed (rt : Runtime) (seed : Seed) : (boot rt seed).Sealed
    (Joined seed.users.length) (Registers rt) (Rehashes rt seed.users.length) where
  wf := boot_wf rt seed
  progs := fun p proc hproc => by cases hproc
  store :=
    { rows := fun t i r hstored hjoined => by
        cases t with
        | users =>
            have hlt := (boot_wf rt seed).lt_next hstored
            exact absurd hlt (Nat.not_lt_of_le hjoined)
        | courses | lessons | purchases | invitations | idempotencyKeys | enrolments
        | refreshTokens => exact hjoined.elim
      drafts := fun p t i x hdraft => by cases hdraft }
  signed := fun t i q r hborn => by cases hborn

section Owners

variable (hverify : ∀ plain salt, rt.argon2Verify (rt.argon2Hash plain salt) plain = some true)
include hverify

/-- Whoever has the password that the account was created with can log in. -/
theorem logsIn_of_sealed {n : Nat} (hsealed : w.Sealed (Joined n) (Registers rt) (Rehashes rt n))
    (hclosed : ∀ q, w.view.store.tx q = none) (hunguessed : Unguessed w.view) {p : Pid}
    {proc : Proc (schema rt) (platform rt)} (hproc : w.procs[p]? = some proc) {id : Nat}
    {user r : User} (huser : w.view.store.stored Tbl.users id = some user)
    (hborn : w.view.store.born Tbl.users id = some (p, r)) (hjoined : n ≤ id) {s : JsString}
    (hgives : ∀ plain, GivesPassword proc.req plain → plain = decode s) :
    LogsIn rt w.view id s := by
  obtain ⟨q, hinserted⟩ := hsealed.store.rows Tbl.users id user huser hjoined
  obtain ⟨rfl, rfl⟩ := Prod.mk.inj (Option.some.inj (hborn.symm.trans hinserted))
  obtain ⟨proc', hproc', plain, salt, hplain, hhash⟩ :=
    hsealed.signed Tbl.users id p r hborn
  obtain rfl := Option.some.inj (hproc.symm.trans hproc')
  refine ⟨r, huser, fun p' env email requestMeta hserved hemail hip hdraws => ?_⟩
  have hright : rt.argon2Verify r.passwordHash (decode s) = some true := by
    rw [hhash, hgives plain hplain]
    exact hverify _ _
  exact login_succeeds hserved ⟨hsealed.wf, fun q _ => hclosed q⟩ (hclosed p') hunguessed huser
    hemail hright hip hdraws

/-- Every account can log in with the password that it was created with, except that the
login turns away the passwords of more than 128 characters, which a redeem accepts. -/
theorem accounts_log_in (hsha : Function.Injective rt.sha256)
    (hrehash : ∀ plain salt, rt.argon2NeedsRehash (rt.argon2Hash plain salt) = false)
    (hreach : Reach (handler rt) (arrivals rt) (boot rt seed) w)
    (hclosed : ∀ q, q < w.procs.length → (w.view.store.tx q).isNone = true) :
    (∀ body fields, validationPipe lib (SignupDto.properties lib) body = .ok fields →
      ∃ s, fields (text "password") = some (.string s) ∧ LoginAccepts lib s ∧
        ∀ p requestMeta result,
          w.Ended p (.signup (SignupDto.ofFields fields) requestMeta) (.ok (.session result)) →
          LogsIn rt w.view result.accessToken.accessToken.sub s) ∧
    ∀ body fields, validationPipe lib (RedeemInvitationDto.properties lib) body = .ok fields →
      ∃ s, fields (text "password") = some (.string s) ∧
        ((LoginAccepts lib s ∧ ∀ p token r,
          w.Ended p (.redeem (RedeemInvitationDto.ofFields fields)) (.ok (.token token)) →
          w.view.store.born Tbl.users token.accessToken.sub = some (p, r) →
          LogsIn rt w.view token.accessToken.sub s) ↔ lib.count s ≤ 128) := by
  have hruns := runs_of_arrivals hreach
  have htrading := (trading_run Relation.ReflTransGen.refl hreach).1
  have hsealed : w.Sealed (Joined seed.users.length) (Registers rt)
      (Rehashes rt seed.users.length) := by
    refine World.Sealed.reach (fun req hstarts => handler_registering hrehash hstarts)
      (fun req hreq => ?_) (boot_sealed rt seed) hreach
    cases req with
    | rehashIfNeeded => exact hreq.elim
    | signup | login | refresh | logout | cleanup | createPurchase | listMine | redeem
    | listLessonsForCourse | getLesson | sendInvitationEmail | revokeFamily => trivial
  obtain ⟨-, -, hafter⟩ := Reach.born_after (t := Tbl.users) (n := seed.users.length)
    (boot_wf rt seed) (Nat.le_refl _) (fun i b hb => by cases hb) hreach
  have hunguessed := (reached_verified hruns).inv.unguessed hsha
  constructor
  · intro body fields haccepted
    obtain ⟨s, hs, hlogin⟩ := signup_password haccepted
    refine ⟨s, hs, hlogin, fun p requestMeta result hended => ?_⟩
    obtain ⟨_, heq, ⟨user, huser⟩, r, hborn⟩ := htrading.ended hended (Nat.zero_le p)
    cases heq
    obtain ⟨proc, hproc, hreq, -⟩ := hended
    refine logsIn_of_sealed hverify hsealed (htrading.closed hclosed) hunguessed hproc huser
      hborn (hafter _ _ hborn) ?_
    rintro plain hgives
    rw [hreq] at hgives
    rw [hgives]
    simp [SignupDto.ofFields, Fields.text, hs]
  · intro body fields haccepted
    obtain ⟨s, hs, hlogin⟩ := redeem_password haccepted
    refine ⟨s, hs, fun hboth => hlogin.mp hboth.1, fun hcount => ⟨hlogin.mpr hcount, ?_⟩⟩
    intro p token r hended hborn
    obtain ⟨account, heq, hend⟩ := htrading.ended hended (Nat.zero_le p)
    cases heq
    have hknown : ∃ user, w.view.store.stored Tbl.users account.1 = some user := by
      cases hend with
      | enrolled i J Q k hpresented =>
          obtain ⟨user, huser, -⟩ := hpresented.student
          exact ⟨user, huser⟩
      | swallowed i J Q k other hpresented =>
          obtain ⟨user, huser, -⟩ := hpresented.student
          exact ⟨user, huser⟩
    obtain ⟨user, huser⟩ := hknown
    obtain ⟨proc, hproc, hreq, -⟩ := hended
    refine logsIn_of_sealed hverify hsealed (htrading.closed hclosed) hunguessed hproc huser
      hborn (hafter _ _ hborn) ?_
    rintro plain hgives
    rw [hreq] at hgives
    rw [hgives]
    simp [RedeemInvitationDto.ofFields, Fields.text, hs]

end Owners

/-- A runtime whose digests tell the password. -/
def loginRuntime : Runtime :=
  { sampleRuntime with argon2Hash := fun plain _ => plain }

def sampleParent : Members :=
  [(text "email", .string (text "parent@example.com")),
    (text "password", .string (text "abcdefghijk1"))]

/-- The two values of a new session are different, and nothing fails. -/
def loginFortune : Fortune (platform loginRuntime) where
  choice := fun n => { text := if n = 2 then "T2" else "F2" }

/-- A parent signs up. -/
def sampleOpening : List (Action (platform loginRuntime)) :=
  .spawn (.signup ⟨"parent@example.com", "abcdefghijk1", none, none⟩ sampleMeta) ::
    (List.replicate 6 (.run 0 { text := "T1" }) ++ List.replicate 5 (.run 0 { text := "F1" }))

theorem sampleOpening_admitted : ∀ a ∈ sampleOpening, ∀ w w' : BackendWorld loginRuntime,
    (arrivals loginRuntime).admits a w w' := by
  intro a ha w w'
  simp only [sampleOpening, List.mem_cons, List.mem_append, List.mem_replicate] at ha
  rcases ha with rfl | ⟨-, rfl⟩ | ⟨-, rfl⟩ <;> trivial

/-- The parent signed up and got the session of user 0. -/
def signedUp (w : BackendWorld loginRuntime) : Bool :=
  match w.status 0 with
  | some (req, some (.ok (.session result))) =>
      decide (req = .signup ⟨"parent@example.com", "abcdefghijk1", none, none⟩
        sampleMeta ∧ result.accessToken.accessToken.sub = 0)
  | _ => false

/-- The parent who has signed up comes back. -/
theorem accounts_log_in_sample : ∃ (fields : Fields) (w : BackendWorld loginRuntime),
    validationPipe sampleValidators (SignupDto.properties sampleValidators) sampleParent =
        .ok fields ∧
      Reach (handler loginRuntime) (arrivals loginRuntime) (boot loginRuntime sampleSeed) w ∧
      ∃ s result m v', fields (text "password") = some (.string s) ∧
        solo loginFortune 1 (AuthService.login ⟨"parent@example.com", decode s⟩ sampleMeta) 0
          w.view = some (.ok result, m, v') := by
  obtain ⟨fields, haccepted, hdto⟩ : ∃ fields,
      validationPipe sampleValidators (SignupDto.properties sampleValidators) sampleParent =
          .ok fields ∧
        SignupDto.ofFields fields = ⟨"parent@example.com", "abcdefghijk1", none, none⟩ :=
    ⟨_, if_pos (by decide), by decide⟩
  have hrun : ((boot loginRuntime sampleSeed).run (handler loginRuntime) sampleOpening).any
      (fun w => (w.view.store.tx 0).isNone && decide (w.procs.length = 1) &&
        decide (w.view.mem.minted "T2" = none ∧ w.view.mem.minted "F2" = none) &&
        (w.view.store.stored Tbl.users 0).any (fun user =>
          decide (user.email = "parent@example.com")) &&
        signedUp w) = true := by decide
  obtain ⟨w, hw, hchecks⟩ := (Option.any_eq_true _ _).mp hrun
  simp only [Bool.and_eq_true, decide_eq_true_eq] at hchecks
  obtain ⟨⟨⟨⟨hclosed, hprocs⟩, hdrawn⟩, huser⟩, hstatus⟩ := hchecks
  have hreach : Reach (handler loginRuntime) (arrivals loginRuntime)
      (boot loginRuntime sampleSeed) w := World.reach_of_run sampleOpening_admitted hw
  obtain ⟨user, hrow, hemail⟩ := (Option.any_eq_true _ _).mp huser
  unfold signedUp at hstatus
  split at hstatus
  · rename_i req result hended
    obtain ⟨rfl, hsub⟩ := of_decide_eq_true hstatus
    have hverify (plain salt : String) :
        loginRuntime.argon2Verify (loginRuntime.argon2Hash plain salt) plain = some true := by
      simp [loginRuntime, sampleRuntime]
    have hquiet (q : Pid) (hq : q < w.procs.length) : (w.view.store.tx q).isNone = true := by
      have hlt : q < 1 := hprocs ▸ hq
      obtain rfl : q = 0 := Nat.lt_one_iff.mp hlt
      exact hclosed
    obtain ⟨s, hs, -, hlogs⟩ := (accounts_log_in hverify sampleSha256_injective
      (fun _ _ => rfl) hreach hquiet).1 _ _ haccepted
    obtain ⟨user', hrow', hlogin⟩ := hlogs 0 sampleMeta result
      (by rw [hdto]; exact World.ended_of_status hended)
    rw [hsub, hrow] at hrow'
    obtain rfl := Option.some.inj hrow'
    obtain ⟨result', m, v', hsolo, -⟩ := hlogin 1 loginFortune "parent@example.com" sampleMeta
      (fun _ => rfl) (of_decide_eq_true hemail).symm rfl
      ⟨⟨by decide, hdrawn.1⟩, ⟨by decide, hdrawn.2⟩, by decide⟩
    exact ⟨fields, w, haccepted, hreach, s, result', m, v', hs, hsolo⟩
  · cases hstatus

/-- 129 characters. -/
def longPassword : String :=
  "Aa1xxxxxxxxxxxxxxxxxxxxxxxxxxxxxxxxxxxxxxxxxxxxxxxxxxxxxxxxxxxxxxxxxxx" ++
    "xxxxxxxxxxxxxxxxxxxxxxxxxxxxxxxxxxxxxxxxxxxxxxxxxxxxxxxxxxx"

/-- A new student who is careful. -/
def sampleCareful : Members :=
  [(text "token", .string (text "I1")), (text "firstName", .string (text "First")),
    (text "lastName", .string (text "Last")),
    (text "dateOfBirth", .string (text "2010-01-31")),
    (text "password", .string (text longPassword))]

def sampleCarefulDto : RedeemInvitationDto where
  token := "I1"
  firstName := some "First"
  lastName := some "Last"
  dateOfBirth := some "2010-01-31"
  password := longPassword

/-- A parent buys a course for the student, who redeems the invitation. -/
def sampleEnrolling : List (Action (platform loginRuntime)) :=
  sampleOpening ++ .spawn sampleCheckout :: (List.replicate 11 (.run 1 { text := "I1" }) ++
    .spawn (.redeem sampleCarefulDto) :: List.replicate 9 (.run 2 { text := "S" }))

/-- The student redeemed and got the session of a new account. -/
def redeemedCarefully (w : BackendWorld loginRuntime) : Bool :=
  match w.status 2 with
  | some (req, some (.ok (.token token))) =>
      decide (req = .redeem sampleCarefulDto) &&
        (w.view.store.born Tbl.users token.accessToken.sub).any fun b => decide (b.1 = 2)
  | _ => false

/-- The student has an account and cannot log in. -/
theorem redeem_locks_out : ∃ (fields : Fields) (s : JsString) (w : BackendWorld loginRuntime),
    validationPipe sampleValidators (RedeemInvitationDto.properties sampleValidators)
        sampleCareful = .ok fields ∧
      fields (text "password") = some (.string s) ∧ ¬ LoginAccepts sampleValidators s ∧
      Reach (handler loginRuntime) (arrivals loginRuntime) (boot loginRuntime sampleSeed) w ∧
      ∃ token r, w.Ended 2 (.redeem (RedeemInvitationDto.ofFields fields))
          (.ok (.token token)) ∧
        w.view.store.born Tbl.users token.accessToken.sub = some (2, r) := by
  obtain ⟨fields, haccepted, hpassword, hdto⟩ : ∃ fields,
      validationPipe sampleValidators (RedeemInvitationDto.properties sampleValidators)
          sampleCareful = .ok fields ∧
        fields (text "password") = some (.string (text longPassword)) ∧
        RedeemInvitationDto.ofFields fields = sampleCarefulDto :=
    ⟨_, if_pos (by decide +kernel), rfl, by decide +kernel⟩
  have hrun : ((boot loginRuntime sampleSeed).run (handler loginRuntime) sampleEnrolling).any
      redeemedCarefully = true := by decide +kernel
  obtain ⟨w, hw, hstatus⟩ := (Option.any_eq_true _ _).mp hrun
  have hreach : Reach (handler loginRuntime) (arrivals loginRuntime)
      (boot loginRuntime sampleSeed) w := by
    refine World.reach_of_run (fun a ha u u' => ?_) hw
    simp only [sampleEnrolling, List.mem_cons, List.mem_append, List.mem_replicate] at ha
    rcases ha with hopening | rfl | ⟨-, rfl⟩ | rfl | ⟨-, rfl⟩
    · exact sampleOpening_admitted a hopening u u'
    all_goals trivial
  unfold redeemedCarefully at hstatus
  split at hstatus
  · rename_i req token hended
    simp only [Bool.and_eq_true, decide_eq_true_eq] at hstatus
    obtain ⟨rfl, hcreated⟩ := hstatus
    obtain ⟨⟨p, r⟩, hborn, hp⟩ := (Option.any_eq_true _ _).mp hcreated
    obtain rfl := of_decide_eq_true hp
    refine ⟨fields, _, w, haccepted, hpassword, ?_, hreach, token, r, ?_, hborn⟩
    · rw [loginAccepts_iff]
      decide +kernel
    · rw [hdto]
      exact World.ended_of_status hended
  · cases hstatus

end Mes
