import Mes.Auth.TokenChains
import Mes.Transact.Solo

/-!
Signup on a backend where nobody else moves, with a database that may fail at
any statement. The account is committed before the session is written, so a
failure of the second transaction leaves the account behind. The operations of a
signup are counted from zero: the lookup of the email is number 0, the insertion
of the user number 3 and that of the refresh token number 9.
-/

namespace Mes

open Transact

variable {rt : Runtime} {env : Fortune (platform rt)} {p : Pid}

/-- The normalised email and the names fit their columns. -/
def SignupDto.fits (rt : Runtime) (input : SignupDto) : Bool :=
  decide ((rt.normaliseEmail input.email).length ≤ 255) &&
    input.firstName.all nameFits && input.lastName.all nameFits

def EmailTaken (s : Store (schema rt)) (email : String) : Prop :=
  ∃ (id : Nat) (user : User), s.stored Tbl.users id = some user ∧
    user.email = rt.normaliseEmail email

/-- The same users and refresh tokens are committed. -/
def SameAccounts (s s' : Store (schema rt)) : Prop :=
  s'.stored Tbl.users = s.stored Tbl.users ∧
    s'.stored Tbl.refreshTokens = s.stored Tbl.refreshTokens

/-- Signup fails before the account is committed, or nothing stands in the way of
the refresh token. -/
def SignupSafe (env : Fortune (platform rt)) (s : Store (schema rt)) (input : SignupDto)
    (requestMeta : RequestMeta) : Prop :=
  env.fault 0 ≠ none ∨ EmailTaken s input.email ∨ env.fault 3 ≠ none ∨
    input.fits rt = false ∨
      env.fault 9 = none ∧ requestMeta.ip.all rt.isInet = true

/-- No committed token has the hash of a value that can still be drawn. -/
def Unguessed (v : BackendView rt) : Prop :=
  ∀ raw, v.mem.minted raw = none → ∀ id a, tokens v id = some a →
    a.tokenHash ≠ rt.sha256 raw

theorem TokenInv.unguessed (hsha : Function.Injective rt.sha256) {v : BackendView rt}
    (hinv : TokenInv v) : Unguessed v := by
  intro raw hfresh id a hrow hhash
  obtain ⟨q, b, hborn, hfixed⟩ := hinv.bornAs id a hrow
  obtain ⟨s, hs, hminted⟩ := hinv.hashed id q b hborn
  have hsame : rt.sha256 s = rt.sha256 raw := by
    rw [← hs, (fixed_eq hfixed).2.2.1, hhash]
  rw [hsha hsame, hfresh] at hminted
  cases hminted

/-- A query for one row answers the committed row, or fails. -/
theorem solo_findOne {t : Tbl} {where_ : Nat → t.Row → Bool} {n m : Nat}
    {v v' : BackendView rt} {out : Except AppError (Option (Entity t))}
    (hrun : solo env p (BaseRepository.findOne t where_) n v = some (out, m, v')) :
    v'.store = v.store ∧ v'.mem = v.mem ∧
      ((∃ e, env.fault n = some e ∧ out = .error (.queryFailed e)) ∨
        env.fault n = none ∧ m = n + 1 ∧
          out = .ok ((v.store.committed.rows t).find? fun row => where_ row.1 row.2)) := by
  cases hfault : env.fault n with
  | some e =>
      obtain ⟨res, v₁, hattempt, hrest⟩ := solo_step_cases hrun
      rw [attempt_failed (c := .sql (.read .pool)) hfault rfl] at hattempt
      obtain ⟨rfl, rfl⟩ := Prod.mk.inj (Option.some.inj hattempt)
      obtain ⟨rfl, hend⟩ := Prod.mk.inj (Option.some.inj hrest)
      obtain ⟨rfl, rfl⟩ := Prod.mk.inj hend
      exact ⟨rfl, rfl, Or.inl ⟨e, rfl, rfl⟩⟩
  | none =>
      obtain ⟨rfl, hread⟩ :=
        Prod.mk.inj (Option.some.inj ((solo_read_pool hfault _).symm.trans hrun))
      obtain ⟨rfl, rfl⟩ := Prod.mk.inj hread
      exact ⟨rfl, rfl, Or.inr ⟨rfl, rfl, rfl⟩⟩

/-- A lookup by email finds a user exactly when the email is taken. -/
theorem findByEmail_cases {email : String} {n m : Nat} {v v' : BackendView rt}
    {out : Except AppError (Option (Entity .users))} (hwf : v.store.Wf)
    (hrun : solo env p (UsersRepository.findByEmail email) n v = some (out, m, v')) :
    v'.store = v.store ∧ v'.mem = v.mem ∧
      ((∃ e, env.fault n = some e ∧ out = .error (.queryFailed e)) ∨
        env.fault n = none ∧ m = n + 1 ∧
          ((∃ user, out = .ok (some user) ∧ EmailTaken v.store email) ∨
            out = .ok none ∧ ¬ EmailTaken v.store email)) := by
  obtain ⟨hstore, hmem, hcases⟩ := solo_findOne hrun
  refine ⟨hstore, hmem, ?_⟩
  rcases hcases with hfailed | ⟨hserved, hm, hout⟩
  · exact Or.inl hfailed
  · have hpick : Picks (v.store.stored Tbl.users)
        (fun _ (user : User) => user.email == rt.normaliseEmail email)
        ((v.store.committed.rows Tbl.users).find? fun row =>
          row.2.email == rt.normaliseEmail email) :=
      Snapshot.picks (σ := schema rt) hwf _ Tbl.users _
    refine Or.inr ⟨hserved, hm, ?_⟩
    cases hfound : (v.store.committed.rows Tbl.users).find? fun row =>
        row.2.email == rt.normaliseEmail email with
    | none =>
        refine Or.inr ⟨by rw [hout, hfound], ?_⟩
        rintro ⟨id, user, hrow, hemail⟩
        rw [hfound] at hpick
        have hmiss := hpick id user hrow
        simp [hemail] at hmiss
    | some user =>
        rw [hfound] at hpick
        exact Or.inl ⟨user, by rw [hout, hfound], user.1, user.2, hpick.1,
          by simpa using hpick.2⟩

/-- The session of a new account: it is written, or the store stays as it is. -/
theorem issueRefreshToken_cases {userId : Nat} {user : User} {requestMeta : RequestMeta}
    {n m : Nat} {v v' : BackendView rt} {out : Except AppError RefreshTokenPair}
    (hwf : v.store.Wf) (hidle : Idle p v) (hunguessed : Unguessed v)
    (huser : v.store.stored Tbl.users userId = some user)
    (hrun : solo env p (AuthService.issueRefreshToken userId requestMeta) n v =
      some (out, m, v')) :
    v'.store.stored Tbl.users = v.store.stored Tbl.users ∧
      ((∃ e, out = .error e) ∧
          (env.fault (n + 4) ≠ none ∨ requestMeta.ip.all rt.isInet = false) ∨
        (∃ pair, out = .ok pair) ∧ env.fault (n + 4) = none ∧
          requestMeta.ip.all rt.isInet = true) := by
  obtain ⟨raw, v₁, hraw, hrest⟩ := solo_step_cases hrun
  obtain ⟨hdraw, hstore₁⟩ := attempt_node hraw
  obtain ⟨familyId, v₂, huuid, hrest⟩ := solo_step_cases hrest
  obtain ⟨-, hstore₂⟩ := attempt_node huuid
  obtain ⟨now, v₃, hturn, hrest⟩ := solo_step_cases hrest
  obtain ⟨-, hstore₃⟩ := attempt_node hturn
  have hstore : v₃.store = v.store := hstore₃.trans (hstore₂.trans hstore₁)
  have hfresh := (Memory.mint_cases hdraw).1
  have hidle₃ : Idle p v₃ := by
    rw [Idle, hstore]
    exact hidle
  simp only [Prog.andThen_ret, Prog.bind_eq] at hrest
  rcases solo_andThen_cases hrest with ⟨e, m', v₄, hinsert, hout⟩ | ⟨⟨⟩, m', v₄, hinsert, hout⟩
  · obtain ⟨rfl, hend⟩ := Prod.mk.inj hout
    obtain ⟨-, rfl⟩ := Prod.mk.inj hend
    have hends := (solo_insert (g := fun _ => ()) (hstore ▸ hwf) hidle₃ (fun _ => rfl)
      (fun _ => rfl) hinsert).1
    cases hends with
    | failed e m' hfault hkept =>
        refine ⟨by rw [hkept, hstore], Or.inl ⟨⟨_, rfl⟩, Or.inl ?_⟩⟩
        intro hnone
        rw [hnone] at hfault
        cases hfault
    | refused e m' hserved hrefuses hkept =>
        refine ⟨by rw [hkept, hstore], Or.inl ⟨⟨_, rfl⟩, Or.inr ?_⟩⟩
        cases e with
        | dataException => exact hrefuses
        | uniqueViolation =>
            obtain ⟨id, a, hclash, hstored | hdraft⟩ := hrefuses
            · have hhash : rt.sha256 raw = a.tokenHash := by
                simpa [Tbl.clash, AuthService.hashToken] using hclash
              rw [hstore] at hstored
              exact absurd hhash.symm (hunguessed raw hfresh id a hstored)
            · rw [hidle₃.2] at hdraft
              cases hdraft
        | foreignKeyViolation =>
            obtain ⟨ref, hmem, hunseen⟩ := hrefuses
            have href : ref = (Tbl.users, userId) := by simpa [Tbl.refs] using hmem
            rw [href, Store.seen, hidle₃.2, hstore] at hunseen
            cases huser.symm.trans hunseen
        | inFailedTransaction => cases hrefuses
  · obtain ⟨rfl, hend⟩ := Prod.mk.inj (Option.some.inj hout)
    obtain ⟨-, rfl⟩ := Prod.mk.inj hend
    have hends := (solo_insert (g := fun _ => ()) (hstore ▸ hwf) hidle₃ (fun _ => rfl)
      (fun _ => rfl) hinsert).1
    cases hends with
    | committed hserved haccepts hstored =>
        refine ⟨?_, Or.inr ⟨⟨_, rfl⟩, hserved, haccepts.admitted⟩⟩
        funext id
        rw [hstored, hstore]
        exact Drafts.onto_of_none (by rw [Drafts.set_other _ _ _ (by simp)]; rfl)

/-- The account that a signup inserts. -/
def account (rt : Runtime) (input : SignupDto) (salt : String) : User :=
  UsersRepository.normaliseEmail rt
    { email := input.email
      passwordHash := rt.argon2Hash input.password salt
      role := .parent
      firstName := input.firstName
      lastName := input.lastName
      dateOfBirth := none }

theorem account_email (rt : Runtime) (input : SignupDto) (salt : String) :
    (account rt input salt).email = rt.normaliseEmail input.email := by
  unfold account UsersRepository.normaliseEmail
  by_cases hempty : input.email = ""
  · simp [hempty, Runtime.normaliseEmail, rt.normalise_empty]
  · simp [hempty]

theorem account_admitted (hargon : ∀ plain salt, (rt.argon2Hash plain salt).length ≤ 255)
    (input : SignupDto) (salt : String) :
    Tbl.admits rt .users (account rt input salt) = input.fits rt := by
  have hemail := account_email rt input salt
  have hrest : (account rt input salt).passwordHash = rt.argon2Hash input.password salt ∧
      (account rt input salt).firstName = input.firstName ∧
      (account rt input salt).lastName = input.lastName ∧
      (account rt input salt).dateOfBirth = none := by
    unfold account UsersRepository.normaliseEmail
    split <;> exact ⟨rfl, rfl, rfl, rfl⟩
  obtain ⟨hhash, hfirst, hlast, hbirth⟩ := hrest
  simp [Tbl.admits, SignupDto.fits, hemail, hhash, hfirst, hlast, hbirth, hargon]

/-- The insertion of an account whose email is free: refused by its column types
or failed, else committed. -/
theorem insertParent_cases (hargon : ∀ plain salt, (rt.argon2Hash plain salt).length ≤ 255)
    {input : SignupDto} {salt : String} {n m : Nat} {v v' : BackendView rt}
    {out : Except AppError (Entity .users)} (hwf : v.store.Wf) (hidle : Idle p v)
    (hfree : ¬ EmailTaken v.store input.email)
    (hrun : solo env p (AuthService.insertParent
      { email := input.email
        passwordHash := rt.argon2Hash input.password salt
        role := .parent
        firstName := input.firstName
        lastName := input.lastName
        dateOfBirth := none }) n v = some (out, m, v')) :
    ((∃ e, out = .error e) ∧ v'.store.stored = v.store.stored ∧
        (env.fault (n + 1) ≠ none ∨ input.fits rt = false)) ∨
      out = .ok (v.store.next Tbl.users, account rt input salt) ∧ m = n + 3 ∧
        env.fault (n + 1) = none ∧ input.fits rt = true ∧
        v'.store.stored = ((Drafts.empty : Drafts (schema rt)).set Tbl.users
          (v.store.next Tbl.users) (some (account rt input salt))).onto v.store.stored ∧
        v'.mem = v.mem ∧ Idle p v' ∧ v'.store.Wf := by
  rcases solo_attempt_cases hrun with ⟨e, m', v₁, hinsert, hhandler⟩ |
    ⟨user, m', v₁, hinsert, hout⟩
  · have hends := (solo_insert (g := id) hwf hidle (fun _ => rfl) (fun _ => rfl) hinsert).1
    have hraised : (∃ e', out = .error e') ∧ v' = v₁ := by
      split at hhandler
      · obtain ⟨rfl, hend⟩ := Prod.mk.inj (Option.some.inj hhandler)
        exact ⟨⟨_, rfl⟩, (Prod.mk.inj hend).2.symm⟩
      · obtain ⟨rfl, hend⟩ := Prod.mk.inj (Option.some.inj hhandler)
        exact ⟨⟨_, rfl⟩, (Prod.mk.inj hend).2.symm⟩
    obtain ⟨herror, rfl⟩ := hraised
    refine Or.inl ⟨herror, ?_⟩
    cases hends with
    | failed e m' hfault hkept => exact ⟨hkept, Or.inl (by rw [hfault]; simp)⟩
    | refused e m' hserved hrefuses hkept =>
        refine ⟨hkept, Or.inr ?_⟩
        cases e with
        | dataException => exact (account_admitted hargon input salt).symm.trans hrefuses
        | uniqueViolation =>
            obtain ⟨id, user, hclash, hstored | hdraft⟩ := hrefuses
            · have hemail : (account rt input salt).email = user.email :=
                beq_iff_eq.mp hclash
              exact absurd ⟨id, user, hstored, by rw [← hemail, account_email]⟩ hfree
            · rw [hidle.2] at hdraft
              cases hdraft
        | foreignKeyViolation =>
            obtain ⟨ref, hmem, -⟩ := hrefuses
            cases hmem
        | inFailedTransaction => cases hrefuses
  · obtain ⟨rfl, hend⟩ := Prod.mk.inj hout
    obtain ⟨rfl, rfl⟩ := Prod.mk.inj hend
    obtain ⟨hends, hmem, hidle', hwf'⟩ :=
      solo_insert (g := id) hwf hidle (fun _ => rfl) (fun _ => rfl) hinsert
    cases hends with
    | committed hserved haccepts hstored =>
        exact Or.inr ⟨rfl, rfl, hserved,
          (account_admitted hargon input salt).symm.trans haccepts.admitted, hstored, hmem,
          hidle', hwf'⟩

/-- A signup ends before anything is written, or commits the account first. -/
theorem signup_cases (hargon : ∀ plain salt, (rt.argon2Hash plain salt).length ≤ 255)
    {input : SignupDto} {requestMeta : RequestMeta} {n : Nat} {v v' : BackendView rt}
    {out : Except AppError LoginResult} (hwf : v.store.Wf) (hidle : Idle p v)
    (hunguessed : Unguessed v)
    (hrun : solo env p (AuthService.signup input requestMeta) 0 v = some (out, n, v')) :
    ((∃ e, out = .error e) ∧ v'.store.stored = v.store.stored ∧
        (env.fault 0 ≠ none ∨ EmailTaken v.store input.email ∨ env.fault 3 ≠ none ∨
          input.fits rt = false)) ∨
      v'.store.stored Tbl.users ≠ v.store.stored Tbl.users ∧ env.fault 0 = none ∧
        ¬ EmailTaken v.store input.email ∧ env.fault 3 = none ∧ input.fits rt = true ∧
          ((∃ e, out = .error e) ∧
              (env.fault 9 ≠ none ∨ requestMeta.ip.all rt.isInet = false) ∨
            (∃ result, out = .ok result) ∧ env.fault 9 = none ∧
              requestMeta.ip.all rt.isInet = true) := by
  rcases solo_andThen_cases hrun with ⟨e, m, v₁, hfind, hout⟩ | ⟨found, m, v₁, hfind, hrest⟩
  · obtain ⟨rfl, hend⟩ := Prod.mk.inj hout
    obtain ⟨-, rfl⟩ := Prod.mk.inj hend
    obtain ⟨hstore, -, hcases⟩ := findByEmail_cases hwf hfind
    refine Or.inl ⟨⟨e, rfl⟩, by rw [hstore], ?_⟩
    rcases hcases with ⟨e', hfault, -⟩ | ⟨-, -, ⟨user, hnot, -⟩ | ⟨hnot, -⟩⟩
    · exact Or.inl (by rw [hfault]; simp)
    · cases hnot
    · cases hnot
  · obtain ⟨hstore₁, hmem₁, hcases⟩ := findByEmail_cases hwf hfind
    rcases hcases with ⟨e', -, hnot⟩ | ⟨hserved, rfl, ⟨user, hfound, htaken⟩ | ⟨hfound, hfree⟩⟩
    · cases hnot
    · cases hfound
      obtain ⟨rfl, hend⟩ := Prod.mk.inj (Option.some.inj hrest)
      obtain ⟨-, rfl⟩ := Prod.mk.inj hend
      exact Or.inl ⟨⟨_, rfl⟩, by rw [hstore₁], Or.inr (Or.inl htaken)⟩
    · cases hfound
      obtain ⟨hash, v₂, hhash, hrest⟩ := solo_step_cases hrest
      obtain ⟨hsalt, hstore₂⟩ := attempt_node hhash
      obtain ⟨rfl, hmem₂⟩ := Prod.mk.inj (Option.some.inj hsalt)
      have hstore : v₂.store = v.store := hstore₂.trans hstore₁
      have hmem : v₂.mem = v.mem := hmem₂.symm.trans hmem₁
      have hidle₂ : Idle p v₂ := by
        rw [Idle, hstore]
        exact hidle
      simp only [Prog.andThen_ret, Prog.bind_eq] at hrest
      have hfree₂ : ¬ EmailTaken v₂.store input.email := by
        rw [hstore]
        exact hfree
      rcases solo_andThen_cases hrest with ⟨e, m, v₃, hparent, hout⟩ |
        ⟨user, m, v₃, hparent, hrest⟩
      · obtain ⟨rfl, hend⟩ := Prod.mk.inj hout
        obtain ⟨-, rfl⟩ := Prod.mk.inj hend
        rcases insertParent_cases hargon (hstore ▸ hwf) hidle₂ hfree₂ hparent with
          ⟨-, hkept, hwhy⟩ | ⟨hnot, -⟩
        · refine Or.inl ⟨⟨e, rfl⟩, by rw [hkept, hstore], ?_⟩
          rcases hwhy with hfault | hlong
          · exact Or.inr (Or.inr (Or.inl hfault))
          · exact Or.inr (Or.inr (Or.inr hlong))
        · cases hnot
      · rcases insertParent_cases hargon (hstore ▸ hwf) hidle₂ hfree₂ hparent with
          ⟨⟨e, hnot⟩, -⟩ | ⟨huser, rfl, hserved₃, hfits, hstored₃, hmem₃, hidle₃, hwf₃⟩
        · cases hnot
        · cases huser
          have hnew : v₃.store.stored Tbl.users (v₂.store.next Tbl.users) =
              some (account rt input (env.choice 1).text) := by
            rw [hstored₃]
            exact Drafts.onto_of_some (Drafts.set_same _ _ _ _)
          have hvacant : v.store.stored Tbl.users (v₂.store.next Tbl.users) = none := by
            rw [hstore]
            exact (hwf.vacant Tbl.users _ (Nat.le_refl _)).1
          have htokens : tokens v₃ = tokens v := by
            funext id
            show v₃.store.stored Tbl.refreshTokens id = v.store.stored Tbl.refreshTokens id
            rw [hstored₃, hstore]
            exact Drafts.onto_of_none (by rw [Drafts.set_other _ _ _ (by simp)]; rfl)
          have hunguessed₃ : Unguessed v₃ := by
            rw [Unguessed, htokens, hmem₃, hmem]
            exact hunguessed
          have hchanged {s : Store (schema rt)}
              (hsame : s.stored Tbl.users = v₃.store.stored Tbl.users) :
              s.stored Tbl.users ≠ v.store.stored Tbl.users := by
            intro heq
            rw [← heq, hsame, hnew] at hvacant
            cases hvacant
          rcases solo_andThen_cases hrest with ⟨e, m', v₄, hissue, hout⟩ |
            ⟨pair, m', v₄, hissue, hout⟩
          · obtain ⟨rfl, hend⟩ := Prod.mk.inj hout
            obtain ⟨-, rfl⟩ := Prod.mk.inj hend
            obtain ⟨hsame, ⟨-, hwhy⟩ | ⟨⟨pair, hnot⟩, -⟩⟩ :=
              issueRefreshToken_cases hwf₃ hidle₃ hunguessed₃ hnew hissue
            · exact Or.inr ⟨hchanged hsame, hserved, hfree, hserved₃, hfits,
                Or.inl ⟨⟨e, rfl⟩, hwhy⟩⟩
            · cases hnot
          · obtain ⟨rfl, hend⟩ := Prod.mk.inj (Option.some.inj hout)
            obtain ⟨-, rfl⟩ := Prod.mk.inj hend
            obtain ⟨hsame, ⟨⟨e, hnot⟩, -⟩ | ⟨-, hserved₉, hinet⟩⟩ :=
              issueRefreshToken_cases hwf₃ hidle₃ hunguessed₃ hnew hissue
            · cases hnot
            · exact Or.inr ⟨hchanged hsame, hserved, hfree, hserved₃, hfits,
                Or.inr ⟨⟨_, rfl⟩, hserved₉, hinet⟩⟩

/-- A signup that throws leaves the accounts as they were exactly when it fails
before the account is committed: at its lookup or at its insertion, because the
email is taken, or because the email or a name does not fit its column. When the
account is committed, it stays unless the refresh token is written too. -/
theorem signup_atomic_iff {seed : Seed} {w : BackendWorld rt}
    (hsha : Function.Injective rt.sha256)
    (hargon : ∀ plain salt, (rt.argon2Hash plain salt).length ≤ 255)
    (hruns : Runs rt (boot rt seed) w) {input : SignupDto} {requestMeta : RequestMeta}
    {out : Except AppError LoginResult} {n : Nat} {v : BackendView rt}
    (hsignup : solo env w.procs.length (AuthService.signup input requestMeta) 0 w.view =
      some (out, n, v)) :
    ((∃ e, out = .error e) → SameAccounts w.view.store v.store) ↔
      SignupSafe env w.view.store input requestMeta := by
  have hverified := reached_verified hruns
  have hidle := (hverified.fresh w.procs.length (Nat.le_refl _)).1.idle
  rcases signup_cases hargon hverified.wf hidle (hverified.inv.unguessed hsha) hsignup with
    ⟨-, hkept, hwhy⟩ | ⟨hchanged, hserved, hfree, hserved₃, hfits, hend⟩
  · constructor
    · intro _
      rcases hwhy with hfault | htaken | hfault | hlong
      · exact Or.inl hfault
      · exact Or.inr (Or.inl htaken)
      · exact Or.inr (Or.inr (Or.inl hfault))
      · exact Or.inr (Or.inr (Or.inr (Or.inl hlong)))
    · intro _ _
      rw [SameAccounts, hkept]
      exact ⟨rfl, rfl⟩
  · rcases hend with ⟨herror, hwhy⟩ | ⟨⟨result, hout⟩, hserved₉, hinet⟩
    · constructor
      · exact fun hsame => absurd (hsame herror).1 hchanged
      · rintro (hfault | htaken | hfault | hlong | ⟨hserved₉, hinet⟩)
        · exact absurd hserved hfault
        · exact absurd htaken hfree
        · exact absurd hserved₃ hfault
        · rw [hfits] at hlong
          cases hlong
        · rcases hwhy with hfault | hbad
          · exact absurd hserved₉ hfault
          · rw [hinet] at hbad
            cases hbad
    · constructor
      · exact fun _ => Or.inr (Or.inr (Or.inr (Or.inr ⟨hserved₉, hinet⟩)))
      · rintro - ⟨e, hnot⟩
        rw [hout] at hnot
        cases hnot

/-- The sample runtime with digests that fit their column. -/
def sampleArgonRuntime : Runtime :=
  { sampleRuntime with
    argon2Hash := fun plain salt => String.ofList ((salt ++ plain).toList.take 97) }

/-- Every random value of the run is fresh, and nothing fails. -/
def sampleDraws : Fortune (platform sampleArgonRuntime) where
  choice := fun n => { text := "r" ++ toString n }

def sampleSignupDto : SignupDto where
  email := "p@x"
  password := "secret"
  firstName := none
  lastName := none

/-- The address that a misconfigured proxy reports. -/
def sampleBadMeta : RequestMeta where
  userAgent := none
  ip := some "unknown"

theorem sample_signup_atomic : ∃ out n v,
    solo sampleDraws 0 (AuthService.signup sampleSignupDto sampleMeta) 0
        (boot sampleArgonRuntime sampleSeed).view = some (out, n, v) ∧
      (((∃ e, out = .error e) →
          SameAccounts (boot sampleArgonRuntime sampleSeed).view.store v.store) ↔
        SignupSafe sampleDraws (boot sampleArgonRuntime sampleSeed).view.store
          sampleSignupDto sampleMeta) := by
  have hrun : (solo sampleDraws 0 (AuthService.signup sampleSignupDto sampleMeta) 0
      (boot sampleArgonRuntime sampleSeed).view).any (fun _ => true) = true := by decide
  obtain ⟨⟨out, n, v⟩, hsolo, -⟩ := (Option.any_eq_true _ _).mp hrun
  have hargon (plain salt : String) :
      (sampleArgonRuntime.argon2Hash plain salt).length ≤ 255 := by
    simp [sampleArgonRuntime]
  exact ⟨out, n, v, hsolo,
    signup_atomic_iff sampleSha256_injective hargon Relation.ReflTransGen.refl hsolo⟩

/-- A signup with an address that is no `INET` throws and leaves the account
behind, so the same signup from a good address finds the email taken. -/
theorem signup_leaves_account : ∃ n v,
    solo sampleDraws 0 (AuthService.signup sampleSignupDto sampleBadMeta) 0
        (boot sampleArgonRuntime sampleSeed).view =
      some (.error (.queryFailed .dataException), n, v) ∧
    ¬ EmailTaken (boot sampleArgonRuntime sampleSeed).view.store sampleSignupDto.email ∧
    ¬ SameAccounts (boot sampleArgonRuntime sampleSeed).view.store v.store ∧
    reply sampleDraws 1 (AuthService.signup sampleSignupDto sampleMeta) v =
      some (.error (.domain .userEmailTaken)) := by
  have hrun : (solo sampleDraws 0 (AuthService.signup sampleSignupDto sampleBadMeta) 0
      (boot sampleArgonRuntime sampleSeed).view).any (fun out => decide
        (out.1 = .error (.queryFailed .dataException) ∧
          (out.2.2.store.stored Tbl.users 0).isSome = true ∧
          reply sampleDraws 1 (AuthService.signup sampleSignupDto sampleMeta) out.2.2 =
            some (.error (.domain .userEmailTaken)))) = true := by decide
  obtain ⟨⟨out, n, v⟩, hsolo, hfacts⟩ := (Option.any_eq_true _ _).mp hrun
  obtain ⟨rfl, hnew, hretry⟩ := of_decide_eq_true hfacts
  refine ⟨n, v, hsolo, ?_, ?_, hretry⟩
  · rintro ⟨id, user, hrow, -⟩
    cases hrow
  · rintro ⟨husers, -⟩
    rw [husers] at hnew
    cases hnew

end Mes
