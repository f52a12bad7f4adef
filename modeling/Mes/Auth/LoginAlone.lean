import Mes.Auth.SignupSolo
import Mes.Transact.Alone

/-!
A login that nobody interrupts, on a database that does not fail: the right password gets
a session.
-/

namespace Mes

open Transact

variable {rt : Runtime} {env : Fortune (platform rt)} {p : Pid}

/-- The operations `n` and `n + 1` can draw their values: nobody has drawn them yet. -/
structure Draws (env : Fortune (platform rt)) (n : Nat) (m : Memory) : Prop where
  first : (env.choice n).text ≠ "" ∧ m.minted (env.choice n).text = none
  second : (env.choice (n + 1)).text ≠ "" ∧ m.minted (env.choice (n + 1)).text = none
  apart : (env.choice n).text ≠ (env.choice (n + 1)).text

theorem Memory.mint_of_fresh {m : Memory} {text : String}
    (hfresh : text ≠ "" ∧ m.minted text = none) : m.mint p text =
      some (text, { m with minted := Function.update m.minted text (some p) }) := by
  simp [Memory.mint, hfresh.1, hfresh.2]

variable (hserved : ∀ n, env.fault n = none)
include hserved

/-- An operation on the memory that is carried out. -/
theorem solo_node {α : Type} {op : NodeOp} {k : op.Res → Method rt α} {n : Nat}
    {v : BackendView rt} {res : op.Res} {m : Memory}
    (hexec : Memory.exec rt p v.store.clock op (env.choice n) v.mem = some (res, m)) :
    solo env p (.step (.node op) k) n v =
      solo env p (k res) (n + 1) (v.remember p ⟨.node op, res⟩ m) := by
  have hop : v.exec p (env.choice n) (.node op) =
      some (res, v.remember p ⟨.node op, res⟩ m) := by
    show (Memory.exec rt p v.store.clock op (env.choice n) v.mem).map _ = _
    rw [hexec]
    rfl
  rw [solo_step, attempt_served (hserved n), hop]
  rfl

/-- A new session is written or refused, but the request does not hang. -/
theorem issueRefreshToken_ends (userId : Nat) (requestMeta : RequestMeta) {n : Nat}
    {v : BackendView rt} (halone : Alone p v) (hclosed : v.store.tx p = none)
    (hdraws : Draws env n v.mem) : ∃ out,
      solo env p (AuthService.issueRefreshToken userId requestMeta) n v = some out := by
  have hidle := idle_of_closed halone.wf hclosed
  let m₁ : Memory :=
    { v.mem with minted := Function.update v.mem.minted (env.choice n).text (some p) }
  have hsecond : (env.choice (n + 1)).text ≠ "" ∧
      m₁.minted (env.choice (n + 1)).text = none := by
    refine ⟨hdraws.second.1, ?_⟩
    show Function.update v.mem.minted _ _ _ = none
    rw [Function.update_of_ne hdraws.apart.symm]
    exact hdraws.second.2
  have hraw : Memory.exec rt p v.store.clock .randomBytes (env.choice n) v.mem =
      some ((env.choice n).text, m₁) := Memory.mint_of_fresh hdraws.first
  have huuid : Memory.exec rt p v.store.clock .randomUUID (env.choice (n + 1)) m₁ =
      some (_, _) := Memory.mint_of_fresh hsecond
  unfold AuthService.issueRefreshToken AuthService.generateRawToken randomBytes randomUUID turn
    nodeCall
  simp only [Prog.bind_eq, Prog.andThen_step, Prog.andThen_ret]
  rw [solo_node hserved hraw, solo_node hserved huuid, solo_node hserved rfl]
  have hinsert (values : RefreshTokensRepository.InsertRefreshTokenValues) (now : Time) :
      Total env p (fun v => Idle p v ∧ v.store.clock = now)
        (Sql.transaction (do
          let _ ← RefreshTokensRepository.insertNew values
          pure () : Method rt Unit)) (Logic.ends (fun _ _ => True) fun _ _ => True) :=
    Total.insertOne hserved (g := fun _ => ()) (fun _ => rfl) fun _ => rfl
  exact Total.ends_run (Total.andThen (hinsert _ _)
    (fun _ => Total.ret (Q := fun _ _ => True) fun _ _ => trivial) fun _ _ _ => trivial)
    ⟨halone.wf, halone.others⟩ ⟨hidle, rfl⟩

/-- Whoever has the password of an account gets a session. -/
theorem login_succeeds {v : BackendView rt} (halone : Alone p v)
    (hclosed : v.store.tx p = none) (hunguessed : Unguessed v) {id : Nat} {user : User}
    (huser : v.store.stored Tbl.users id = some user) {input : LoginDto}
    (hemail : rt.normaliseEmail input.email = user.email)
    (hpassword : rt.argon2Verify user.passwordHash input.password = some true)
    {requestMeta : RequestMeta} (hip : requestMeta.ip.all rt.isInet = true)
    (hdraws : Draws env 2 v.mem) :
    ∃ result m v', solo env p (AuthService.login input requestMeta) 0 v =
        some (.ok result, m, v') ∧
      result.accessToken = AuthService.issueToken rt (id, user) := by
  have hpick : Picks (v.store.stored Tbl.users)
      (fun _ (user : User) => user.email == rt.normaliseEmail input.email)
      ((v.store.committed.rows Tbl.users).find? fun row =>
        row.2.email == rt.normaliseEmail input.email) :=
    Snapshot.picks (σ := schema rt) halone.wf _ Tbl.users _
  have hfound : (v.store.committed.rows Tbl.users).find? (fun row =>
      row.2.email == rt.normaliseEmail input.email) = some (id, user) := by
    cases hfind : (v.store.committed.rows Tbl.users).find? fun row =>
        row.2.email == rt.normaliseEmail input.email with
    | none =>
        rw [hfind] at hpick
        have hmiss := hpick id user huser
        simp [hemail] at hmiss
    | some row =>
        rw [hfind] at hpick
        have hsame : row.2.email = user.email := by
          rw [← hemail]
          simpa using hpick.2
        have hclash : Tbl.clash .users row.2 user = true := by simp [Tbl.clash, hsame]
        have hid : row.1 = id := halone.wf.stored_distinct hpick.1 huser hclash
        have hrow := hpick.1
        rw [hid] at hrow
        exact congrArg some (Prod.ext hid (Option.some.inj (hrow.symm.trans huser)))
  have hlookup : solo env p (UsersRepository.findByEmail input.email) 0 v =
      some (.ok (some (id, user)), 1, v.queried p) := by
    rw [← hfound]
    exact solo_read_pool (hserved 0) _
  have hverify : (argon2Verify user.passwordHash input.password : Method rt Bool) =
      .ret true := by
    rw [argon2Verify, hpassword]
  let v₂ : BackendView rt := (v.queried p).put p
    ⟨.fork (.rehashIfNeeded id user.passwordHash input.password), ()⟩ (v.queried p).store
  obtain ⟨⟨out, m, v'⟩, hsession⟩ := issueRefreshToken_ends hserved id requestMeta
    (n := 2) (v := v₂) ⟨halone.wf, halone.others⟩ hclosed hdraws
  have hissued : ∃ pair, out = .ok pair := by
    rcases (issueRefreshToken_cases (v := v₂) halone.wf (idle_of_closed halone.wf hclosed)
      hunguessed huser hsession).2 with ⟨-, hfault | hinet⟩ | ⟨hpair, -⟩
    · exact absurd (hserved 6) hfault
    · rw [hip] at hinet
      cases hinet
    · exact hpair
  obtain ⟨pair, rfl⟩ := hissued
  refine ⟨{ accessToken := AuthService.issueToken rt (id, user), refreshToken := pair }, m, v',
    ?_, rfl⟩
  show solo env p ((UsersRepository.findByEmail input.email).andThen _) 0 v = _
  rw [solo_andThen, hlookup]
  show solo env p ((argon2Verify user.passwordHash input.password : Method rt Bool).andThen _)
    1 (v.queried p) = _
  rw [hverify, Prog.andThen_ret, if_neg (by simp)]
  show ((v.queried p).attempt p env 1
    (.fork (.rehashIfNeeded id user.passwordHash input.password))).bind _ = _
  rw [attempt_served (hserved 1)]
  show (solo env p ((AuthService.issueRefreshToken id requestMeta).andThen _) 2 v₂) = _
  rw [solo_andThen, hsession]
  rfl

end Mes
