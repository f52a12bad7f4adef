import Mes.Auth.TokenPrograms

/-!
Token families over whole runs. Any interleaving of any requests keeps a family
linear: one active token, one successor for each token, links without a cycle,
and a revocation that is never taken back.

A reused token is answered by the revocation of its family, but the revocation
is part of the transaction that the error undoes. The theft response therefore
leaves the family as it finds it, and holds exactly when nothing was left to
revoke.
-/

namespace Mes

open Transact Transact.Logic

variable {rt : Runtime} {seed : Seed}

/-! ### Reachable worlds -/

theorem boot_tokenInv (rt : Runtime) (seed : Seed) : TokenInv (boot rt seed).view := by
  have hnone (i : Nat) : tokens (boot rt seed).view i = none := rfl
  constructor
  · intro i a ha
    rw [hnone i] at ha
    cases ha
  · intro i j a b ha
    rw [hnone i] at ha
    cases ha
  · intro i j a ha
    rw [hnone i] at ha
    cases ha
  · intro i p b hb
    cases hb
  · intro i p b hb
    cases hb
  · intro _ i j p q a b ha
    cases ha
  · intro i p b hb
    cases hb
  · intro h e he
    cases he

theorem boot_unused (rt : Runtime) (seed : Seed) (p : Pid) :
    Unused p (boot rt seed).view := by
  refine ⟨⟨rfl, rfl⟩, ?_, ?_⟩
  · intro e hmem
    cases hmem
  · intro t id r hborn
    cases hborn

theorem boot_verified (rt : Runtime) (seed : Seed) :
    (tokenLogic rt).Verified (fun _ _ => True) tokenPost (boot rt seed) where
  wf := boot_wf rt seed
  inv := boot_tokenInv rt seed
  safe := fun p proc hproc => by cases hproc
  fresh := fun p _ => ⟨boot_unused rt seed p, trivial⟩

variable {w w' : BackendWorld rt}

theorem runs_verified (hverified : (tokenLogic rt).Verified (fun _ _ => True) tokenPost w)
    (hruns : Runs rt w w') :
    (tokenLogic rt).Verified (fun _ _ => True) tokenPost w' ∧
      (tokenLogic rt).Path w.view w'.view :=
  hverified.reach (fun _ => Stable.const True) tokens_covered hruns

theorem reached_verified (hreach : Runs rt (boot rt seed) w) :
    (tokenLogic rt).Verified (fun _ _ => True) tokenPost w :=
  (runs_verified (boot_verified rt seed) hreach).1

theorem moves_view (hverified : (tokenLogic rt).Verified (fun _ _ => True) tokenPost w)
    (hmoves : Moves (handler rt) (Scope.any fun _ => True) w w') :
    w'.view = w.view ∨ ∃ actor, (tokenLogic rt).Step actor w.view w'.view :=
  (hverified.moves (fun _ => Stable.const True) tokens_covered hmoves).2

/-! ### Linear families -/

theorem step_evolves {actor : Option Pid} {v v' : BackendView rt}
    (hstep : (tokenLogic rt).Step actor v v') {i : Nat} {a a' : RefreshToken}
    (ha : tokens v i = some a) (ha' : tokens v' i = some a') : Evolves (Gone v') a a' := by
  have hrule : TokenRule actor v v' := hstep.guar
  cases actor with
  | none =>
      rw [hrule.tokens, ha] at ha'
      rw [Option.some.inj ha']
      exact Evolves.refl _ _
  | some p => exact hrule.evolves i a a' ha ha'

/-- The row of `i` names `j` as the token that replaced it. -/
def Link (v : BackendView rt) (i j : Nat) : Prop :=
  ∃ a, tokens v i = some a ∧ a.replacedById = some j

/-- This step commits the token `j` as the successor of `i`. -/
structure Succeeds (w w' : BackendWorld rt) (i j : Nat) : Prop where
  absent : tokens w.view j = none
  present : (tokens w'.view j).isSome = true
  recorded : Link w'.view i j

/-- A family is linear at `w` and stays so: at most one active token, no cycle, a
revocation that is final, and for each newly committed token either a family of
its own or a predecessor that was active until this step and never has another
successor. -/
structure LinearFamilies (w : BackendWorld rt) : Prop where
  active : ∀ i j a b, tokens w.view i = some a → tokens w.view j = some b →
    a.revokedAt = none → b.revokedAt = none → a.familyId = b.familyId → i = j
  acyclic : ∀ i, ¬ Relation.TransGen (Link w.view) i i
  final : ∀ w' i a b r, Runs rt w w' → tokens w.view i = some a →
    a.revokedAt = some r → tokens w'.view i = some b → b.revokedAt = some r
  origin : ∀ w' j b, Moves (handler rt) (Scope.any fun _ => True) w w' →
    tokens w.view j = none → tokens w'.view j = some b →
      (∀ i c, tokens w.view i = some c ∨ tokens w'.view i = some c →
        c.familyId = b.familyId → i = j) ∨
      ∃ i a, tokens w.view i = some a ∧ a.revokedAt = none ∧ Succeeds w w' i j
  inherits : ∀ w' i j a b, Moves (handler rt) (Scope.any fun _ => True) w w' →
    Succeeds w w' i j → tokens w'.view i = some a → tokens w'.view j = some b →
      b.userId = a.userId ∧ b.familyId = a.familyId
  once : ∀ w' i j k, Moves (handler rt) (Scope.any fun _ => True) w w' →
    Succeeds w w' i j → (Succeeds w w' i k → j = k) ∧
      ∀ w₁ w₂, Runs rt w' w₁ →
        Moves (handler rt) (Scope.any fun _ => True) w₁ w₂ → ¬ Succeeds w₁ w₂ i k

theorem link_lt {v : BackendView rt} (hinv : TokenInv v) {i j : Nat}
    (hchain : Relation.TransGen (Link v) i j) : i < j := by
  induction hchain with
  | single hlink =>
      obtain ⟨a, ha, hto⟩ := hlink
      exact (hinv.links _ _ a ha hto).1
  | tail _ hlink ih =>
      obtain ⟨a, ha, hto⟩ := hlink
      exact lt_trans ih (hinv.links _ _ a ha hto).1

/-- What every evolution of a token keeps, a path keeps. -/
theorem path_token {v v' : BackendView rt} (hpath : (tokenLogic rt).Path v v')
    (test : RefreshToken → Prop)
    (htest : ∀ gone a a', Evolves gone a a' → test a → test a') {i : Nat}
    {a b : RefreshToken} (ha : tokens v i = some a) (hholds : test a)
    (hb : tokens v' i = some b) : test b := by
  have hlasting : Lasting i test v' :=
    hpath.preserves (persistent_lasting (overTokens rt) htest) (Or.inr ⟨a, ha, hholds⟩)
  rcases hlasting with hgone | ⟨c, hc, hkept⟩
  · rw [hgone.2.1] at hb
    cases hb
  · rw [hc] at hb
    rwa [← Option.some.inj hb]

/-- The family of a committed token is the one it was born into. -/
theorem born_family {v : BackendView rt} (hinv : TokenInv v) {i : Nat} {a : RefreshToken}
    (ha : tokens v i = some a) :
    ∃ q c, tokenBorn v i = some (q, c) ∧ c.userId = a.userId ∧ c.familyId = a.familyId := by
  obtain ⟨q, c, hc, hfixed⟩ := hinv.bornAs i a ha
  exact ⟨q, c, hc, (fixed_eq hfixed).1, (fixed_eq hfixed).2.1⟩

/-- A newly committed token is the only one of its family, or the recorded
successor of a token that was active. -/
theorem step_origin {actor : Option Pid} {v v' : BackendView rt}
    (hstep : (tokenLogic rt).Step actor v v') {j : Nat} {b : RefreshToken}
    (hnone : tokens v j = none) (hb : tokens v' j = some b) :
    (∀ i c, tokens v i = some c ∨ tokens v' i = some c → c.familyId = b.familyId → i = j) ∨
      SuccessorOf v v' j b := by
  have hrule : TokenRule actor v v' := hstep.guar
  cases actor with
  | none =>
      rw [hrule.tokens, hnone] at hb
      cases hb
  | some p =>
      obtain ⟨-, -, hroot | hsuccessor⟩ := hrule.appears j b hnone hb
      · refine Or.inl fun i c hc hfamily => ?_
        have hborn : ∃ q d, tokenBorn v i = some (q, d) ∧ d.familyId = c.familyId := by
          cases hi : tokens v i with
          | some d =>
              obtain ⟨q, d₀, hd₀, -, hfam⟩ := born_family hstep.inv hi
              rcases hc with hc | hc
              · rw [hi] at hc
                exact ⟨q, d₀, hd₀, by rw [hfam, Option.some.inj hc]⟩
              · have hevolves := hrule.evolves i d c hi hc
                exact ⟨q, d₀, hd₀, by rw [hfam, (fixed_eq hevolves.fixed).2.1]⟩
          | none =>
              rcases hc with hc | hc
              · rw [hi] at hc
                cases hc
              · obtain ⟨⟨d, hd, hfixed⟩, -⟩ := hrule.appears i c hi hc
                exact ⟨p, d, hd, (fixed_eq hfixed).2.1⟩
        obtain ⟨q, d, hd, hfam⟩ := hborn
        exact hroot i q d hd (hfam.trans hfamily)
      · exact Or.inr hsuccessor

theorem step_inherits {v : BackendView rt} (hinv : TokenInv v) {i j : Nat}
    {a b : RefreshToken} (hlink : Link v i j) (ha : tokens v i = some a)
    (hb : tokens v j = some b) : b.userId = a.userId ∧ b.familyId = a.familyId := by
  obtain ⟨c, hc, hto⟩ := hlink
  rw [ha] at hc
  rw [← Option.some.inj hc] at hto
  obtain ⟨-, r, q, d, -, hd, huser, hfamily, -⟩ := hinv.links i j a ha hto
  obtain ⟨q', d', hd', huser', hfamily'⟩ := born_family hinv hb
  rw [hd] at hd'
  have hsame : d = d' := congrArg Prod.snd (Option.some.inj hd')
  subst hsame
  exact ⟨huser'.symm.trans huser, hfamily'.symm.trans hfamily⟩

/-- After a token has got its successor, its link leads there or nowhere. -/
theorem link_lasting {v v' : BackendView rt} (hinv : TokenInv v)
    (hpath : (tokenLogic rt).Path v v') {i j k : Nat} (hlink : Link v i j)
    (hlater : Link v' i k) : k = j := by
  obtain ⟨a, ha, hto⟩ := hlink
  obtain ⟨-, r, -, -, hr, -⟩ := hinv.links i j a ha hto
  obtain ⟨b, hb, hto'⟩ := hlater
  have hkept : b.revokedAt.isSome = true ∧
      (b.replacedById = some j ∨ b.replacedById = none) := by
    have hstart : a.revokedAt.isSome = true ∧
        (a.replacedById = some j ∨ a.replacedById = none) :=
      ⟨by rw [hr]; rfl, Or.inl hto⟩
    refine path_token hpath (fun c => c.revokedAt.isSome = true ∧
      (c.replacedById = some j ∨ c.replacedById = none)) ?_ ha hstart hb
    rintro gone c c' hevolves ⟨hrevoked, hkeeps⟩
    refine ⟨hevolves.isSome hrevoked, ?_⟩
    rcases hevolves.linked hrevoked with hsame | ⟨hcleared, -⟩
    · rwa [hsame]
    · exact Or.inr hcleared
  rcases hkept.2 with hsame | hnone
  · rw [hsame] at hto'
    exact (Option.some.inj hto').symm
  · rw [hnone] at hto'
    cases hto'

/-- A row that was there and is not will not come back. -/
theorem absent_final {v v' v'' : BackendView rt} (hpath : (tokenLogic rt).Path v v')
    (hlater : (tokenLogic rt).Path v' v'') {i : Nat} {a : RefreshToken}
    (ha : tokens v i = some a) (hnone : tokens v' i = none) : tokens v'' i = none := by
  have hlasting : Lasting i (fun _ => True) v' :=
    hpath.preserves (persistent_lasting (overTokens rt) fun _ _ _ _ _ => trivial)
      (Or.inr ⟨a, ha, trivial⟩)
  have hgone : Gone v' i := by
    rcases hlasting with hgone | ⟨b, hb, -⟩
    · exact hgone
    · rw [hnone] at hb
      cases hb
  have hgone' : Gone v'' i := hlater.preserves
    (fun actor u u' hstep hu => by
      cases actor with
      | none => exact stable_gone (p := 0) i none u u' (by simp) hstep hu
      | some q => exact hu.acts hstep.base.choose_spec.store) hgone
  exact hgone'.2.1

/-- Every interleaving of requests keeps the token families linear. -/
theorem token_families_linear (hreach : Runs rt (boot rt seed) w) : LinearFamilies w := by
  have hverified := reached_verified hreach
  have hinv : TokenInv w.view := hverified.inv
  constructor
  · exact hinv.activeUnique
  · intro i hcycle
    exact absurd (link_lt hinv hcycle) (lt_irrefl i)
  · intro w' i a b r hruns ha hrevoked hb
    exact path_token (runs_verified hverified hruns).2 (fun c => c.revokedAt = some r)
      (fun _ _ _ hevolves hkept => hevolves.revoked r hkept) ha hrevoked hb
  · intro w' j b hmoves hnone hb
    rcases moves_view hverified hmoves with hsame | ⟨actor, hstep⟩
    · rw [hsame, hnone] at hb
      cases hb
    · rcases step_origin hstep hnone hb with hroot | ⟨i, a, a', ha, hactive, ha', hto, -⟩
      · exact Or.inl hroot
      · exact Or.inr ⟨i, a, ha, hactive, hnone, by rw [hb]; rfl, a', ha', hto⟩
  · intro w' i j a b hmoves hsucceeds ha hb
    have hlater := runs_verified hverified (Relation.ReflTransGen.single hmoves)
    exact step_inherits hlater.1.inv hsucceeds.recorded ha hb
  · intro w' i j k hmoves hsucceeds
    obtain ⟨hverified', -⟩ := runs_verified hverified (Relation.ReflTransGen.single hmoves)
    have hinv' : TokenInv w'.view := hverified'.inv
    constructor
    · intro hother
      exact link_lasting hinv' Relation.ReflTransGen.refl hother.recorded hsucceeds.recorded
    · intro w₁ w₂ hruns hmoves' hagain
      obtain ⟨hverified₁, hpath₁⟩ := runs_verified hverified' hruns
      obtain ⟨-, hpath₂⟩ := runs_verified hverified₁ (Relation.ReflTransGen.single hmoves')
      have hk := link_lasting hinv' (hpath₁.trans hpath₂) hsucceeds.recorded hagain.recorded
      subst hk
      obtain ⟨b, hb⟩ := Option.isSome_iff_exists.mp hsucceeds.present
      have habsent := absent_final hpath₁ hpath₂ hb hagain.absent
      have hpresent := hagain.present
      rw [habsent] at hpresent
      cases hpresent

/-! ### A run to look at -/

def sampleMeta : RequestMeta where
  userAgent := some "agent"
  ip := some "127.0.0.1"

/-- Several operations of one program, with the text that is drawn by the first
of them that draws one. -/
def operations (p : Pid) (count : Nat) (text : String) :
    List (Action (platform sampleRuntime)) :=
  List.replicate count (.run p { text := text })

theorem operations_admitted {who : Pid → Prop} {p : Pid} (hp : who p) {count : Nat}
    {text : String} : ∀ a ∈ operations p count text, ∀ w w' : BackendWorld sampleRuntime,
      (Scope.only who).admits a w w' := by
  intro a ha w w'
  rw [List.eq_of_mem_replicate ha]
  exact hp

/-- A parent signs up and gets the token `T1`. -/
def sampleSignup : List (Action (platform sampleRuntime)) :=
  .spawn (.signup ⟨"parent@example.com", "secret", none, none⟩ sampleMeta) ::
    (operations 0 6 "T1" ++ operations 0 5 "F1")

/-- `T1` is rotated into `T2`. -/
def sampleRotation : List (Action (platform sampleRuntime)) :=
  sampleSignup ++ .spawn (.refresh "T1" sampleMeta) :: operations 1 11 "T2"

def sampleToken (raw : String) : RefreshToken where
  userId := 0
  familyId := "F1"
  tokenHash := sampleRuntime.sha256 raw
  issuedAt := 0
  expiresAt := TOKEN_TTL
  revokedAt := none
  replacedById := none
  userAgent := some "agent"
  ip := some "127.0.0.1"

/-- What a client is handed together with `raw`. -/
def sampleSession (raw : String) : LoginResult where
  accessToken := { accessToken := { sub := 0, role := .parent }, expiresIn := 900 }
  refreshToken := { raw := raw, expiresAt := TOKEN_TTL }

theorem sample_rotation : ∃ w : BackendWorld sampleRuntime,
    Runs sampleRuntime (boot sampleRuntime sampleSeed) w ∧
      tokens w.view 0 = some
        { sampleToken "T1" with revokedAt := some 0, replacedById := some 1 } ∧
      tokens w.view 1 = some (sampleToken "T2") := by
  have hrun : ((boot sampleRuntime sampleSeed).run (handler sampleRuntime)
      sampleRotation).any (fun w => decide (tokens w.view 0 = some
        { sampleToken "T1" with revokedAt := some 0, replacedById := some 1 } ∧
          tokens w.view 1 = some (sampleToken "T2"))) = true := by decide
  obtain ⟨w, hw, hfacts⟩ := (Option.any_eq_true _ _).mp hrun
  exact ⟨w, runs_of_run hw, of_decide_eq_true hfacts⟩

theorem sample_families_linear : ∃ w : BackendWorld sampleRuntime,
    Link w.view 0 1 ∧ LinearFamilies w := by
  obtain ⟨w, hreach, hold, -⟩ := sample_rotation
  exact ⟨w, ⟨_, hold, rfl⟩, token_families_linear hreach⟩

/-! ### The response to theft -/

/-- No token of the family that is there now is ever active again, and none is
ever rotated. -/
structure FamilyDead (familyId : String) (w : BackendWorld rt) : Prop where
  revoked : ∀ w' i a b, Runs rt w w' → tokens w.view i = some a →
    a.familyId = familyId → tokens w'.view i = some b → b.revokedAt.isSome = true
  unrotated : ∀ w₁ w₂ i j a, Runs rt w w₁ →
    Moves (handler rt) (Scope.any fun _ => True) w₁ w₂ → tokens w₁.view i = some a →
      a.familyId = familyId → ¬ Succeeds w₁ w₂ i j

/-- No token of the family is active. -/
def NoneActive (familyId : String) (v : BackendView rt) : Prop :=
  ∀ i a, tokens v i = some a → a.familyId = familyId → a.revokedAt.isSome = true

/-- A family without an active token, of which `i` is a member. -/
structure Extinct (familyId : String) (i : Nat) (v : BackendView rt) : Prop where
  inactive : NoneActive familyId v
  member : Lasting i (fun _ => True) v
  born : ∃ q c, tokenBorn v i = some (q, c) ∧ c.familyId = familyId

/-- A family without an active token gets no new one. -/
theorem persistent_extinct (familyId : String) (i : Nat) :
    (tokenLogic rt).Persistent (Extinct familyId i) := by
  intro actor v v' hstep hextinct
  obtain ⟨q, c, hc, hfamily⟩ := hextinct.born
  refine ⟨?_, persistent_lasting (overTokens rt) (fun _ _ _ _ _ => trivial) actor v v' hstep
    hextinct.member, q, c, hstep.born_kept hc, hfamily⟩
  intro j b hb hsame
  cases hj : tokens v j with
  | some a =>
      have hevolves := step_evolves hstep hj hb
      have hfam : a.familyId = familyId := by
        rw [← (fixed_eq hevolves.fixed).2.1, hsame]
      exact hevolves.isSome (hextinct.inactive j a hj hfam)
  | none =>
      have hrule : TokenRule actor v v' := hstep.guar
      cases actor with
      | none =>
          rw [hrule.tokens, hj] at hb
          cases hb
      | some p =>
          obtain ⟨-, -, hroot | ⟨k, a, -, ha, hactive, -, -, -, hfam⟩⟩ :=
            hrule.appears j b hj hb
          · -- the family is not fresh: `i` was born into it
            have hij := hroot i q c hc (hfamily.trans hsame.symm)
            subst hij
            have hgone' : Gone v' i := by
              rcases hextinct.member with hgone | ⟨a, ha, -⟩
              · exact hgone.acts hstep.base.choose_spec.store
              · rw [hj] at ha
                cases ha
            rw [hgone'.2.1] at hb
            cases hb
          · have hrevoked := hextinct.inactive k a ha (hfam.symm.trans hsame)
            rw [hactive] at hrevoked
            cases hrevoked

theorem familyDead_of_extinct {familyId : String} {i : Nat}
    (hverified : (tokenLogic rt).Verified (fun _ _ => True) tokenPost w)
    (hextinct : Extinct familyId i w.view) : FamilyDead familyId w := by
  have hlater {w' : BackendWorld rt} (hruns : Runs rt w w') :
      Extinct familyId i w'.view :=
    (runs_verified hverified hruns).2.preserves (persistent_extinct familyId i) hextinct
  constructor
  · intro w' j a b hruns ha hfamily hb
    have hkept : b.familyId = familyId := path_token (runs_verified hverified hruns).2
      (fun c => c.familyId = familyId)
      (fun _ _ _ hevolves hsame => (fixed_eq hevolves.fixed).2.1.trans hsame) ha hfamily hb
    exact (hlater hruns).inactive j b hb hkept
  · intro w₁ w₂ j k a hruns hmoves ha hfamily hsucceeds
    obtain ⟨hverified₁, -⟩ := runs_verified hverified hruns
    obtain ⟨hverified₂, hpath⟩ :=
      runs_verified hverified₁ (Relation.ReflTransGen.single hmoves)
    obtain ⟨b, hb⟩ := Option.isSome_iff_exists.mp hsucceeds.present
    obtain ⟨c, hc, hto⟩ := hsucceeds.recorded
    obtain ⟨-, hsame⟩ := step_inherits hverified₂.inv ⟨c, hc, hto⟩ hc hb
    have hmember : c.familyId = familyId := path_token hpath
      (fun d => d.familyId = familyId)
      (fun _ _ _ hevolves hold => (fixed_eq hevolves.fixed).2.1.trans hold) ha hfamily hc
    rcases moves_view hverified₁ hmoves with hview | ⟨actor, hstep⟩
    · rw [hview, hsucceeds.absent] at hb
      cases hb
    · rcases step_origin hstep hsucceeds.absent hb with hroot | hsuccessor
      · have hjk := hroot j c (Or.inr hc) hsame.symm
        have hlt := (hverified₂.inv.links j k c hc hto).1
        omega
      · obtain ⟨m, d, -, hd, hactive, -, -, -, hfam⟩ := hsuccessor
        have hrevoked := (hlater hruns).inactive m d hd
          (hfam.symm.trans (hsame.trans hmember))
        rw [hactive] at hrevoked
        cases hrevoked

/-- The last operation of a refresh that fails commits nothing. -/
theorem failed_refresh_tokens {p : Pid} {choice : Choice} {raw : String}
    {requestMeta : RequestMeta} {e : AppError}
    (hverified : (tokenLogic rt).Verified (fun _ _ => True) tokenPost w)
    (hrun : w.step (handler rt) (.run p choice) = some w')
    (hended : w'.Ended p (.refresh raw requestMeta) (.error e)) :
    (tokenLogic rt).Verified (fun _ _ => True) tokenPost w' ∧
      tokens w'.view = tokens w.view := by
  have hmoves : Moves (handler rt) (Scope.any fun _ => True) w w' :=
    ⟨.run p choice, hrun, trivial⟩
  obtain ⟨hverified', -⟩ := runs_verified hverified (Relation.ReflTransGen.single hmoves)
  obtain ⟨hsilent, -⟩ : Silent p w'.view ∧ Vanished p w'.view := hverified'.ended hended
  obtain ⟨event, hacts⟩ := World.run_acts hverified.wf hrun
  refine ⟨hverified', ?_⟩
  rcases hacts.committed with hsame | hcommit
  · exact congrFun hsame Tbl.refreshTokens
  · refine absurd ?_ hsilent
    rw [hacts.history, hcommit]
    exact List.mem_cons_self

/-- The theft response holds exactly when nothing was left to revoke: the error
undoes the revocation of the family. -/
theorem theft_response_durable_iff {p : Pid} {choice : Choice} {raw : String}
    {requestMeta : RequestMeta} {i : Nat} {a : RefreshToken}
    (hreach : Runs rt (boot rt seed) w)
    (hrun : w.step (handler rt) (.run p choice) = some w')
    (hended : w'.Ended p (.refresh raw requestMeta)
      (.error (.domain (.refreshToken .reused))))
    (hpresented : tokens w.view i = some a ∧ a.tokenHash = rt.sha256 raw) :
    FamilyDead a.familyId w' ↔ NoneActive a.familyId w.view := by
  have hrow := hpresented.1
  have hverified := reached_verified hreach
  obtain ⟨hverified', htokens⟩ := failed_refresh_tokens hverified hrun hended
  constructor
  · intro hdead j b hb hfamily
    have hb' : tokens w'.view j = some b := by rw [htokens, hb]
    exact hdead.revoked w' j b b Relation.ReflTransGen.refl hb' hfamily hb'
  · intro hinactive
    have hrow' : tokens w'.view i = some a := by rw [htokens, hrow]
    obtain ⟨q, c, hc, -, hfamily⟩ := born_family hverified'.inv hrow'
    refine familyDead_of_extinct hverified' (i := i) ⟨?_, Or.inr ⟨a, hrow', trivial⟩, q, c,
      hc, hfamily⟩
    unfold NoneActive
    rw [htokens]
    exact hinactive

/-- Eleven seconds after the rotation `T1` is presented again. -/
def sampleReuse : List (Action (platform sampleRuntime)) :=
  sampleRotation ++ .tick 11000 :: .spawn (.refresh "T1" sampleMeta) :: operations 2 6 ""

/-- The reuse of `T1` is noticed, and `T2` stays active. -/
theorem sample_reuse : ∃ w w' : BackendWorld sampleRuntime,
    Runs sampleRuntime (boot sampleRuntime sampleSeed) w ∧
      w.step (handler sampleRuntime) (.run 2 {}) = some w' ∧
      w'.Ended 2 (.refresh "T1" sampleMeta) (.error (.domain (.refreshToken .reused))) ∧
      tokens w.view 0 = some
        { sampleToken "T1" with revokedAt := some 0, replacedById := some 1 } ∧
      tokens w.view 1 = some (sampleToken "T2") ∧
      tokens w'.view 1 = some (sampleToken "T2") := by
  have hrun : ((boot sampleRuntime sampleSeed).run (handler sampleRuntime) sampleReuse).any
      (fun w => (w.step (handler sampleRuntime) (.run 2 {})).any fun w' => decide
        (w'.status 2 = some (.refresh "T1" sampleMeta,
            some (.error (.domain (.refreshToken .reused)))) ∧
          tokens w.view 0 = some
            { sampleToken "T1" with revokedAt := some 0, replacedById := some 1 } ∧
          tokens w.view 1 = some (sampleToken "T2") ∧
          tokens w'.view 1 = some (sampleToken "T2"))) = true := by decide
  obtain ⟨w, hw, hrest⟩ := (Option.any_eq_true _ _).mp hrun
  obtain ⟨w', hstep, hfacts⟩ := (Option.any_eq_true _ _).mp hrest
  obtain ⟨hstatus, hrows⟩ := of_decide_eq_true hfacts
  exact ⟨w, w', runs_of_run hw, hstep, World.ended_of_status hstatus, hrows⟩

/-- The theft response is not durable: the refresh that reports the reuse of `T1`
leaves its successor active. -/
theorem theft_response_undone : ∃ w w' : BackendWorld sampleRuntime,
    Runs sampleRuntime (boot sampleRuntime sampleSeed) w ∧
      w.step (handler sampleRuntime) (.run 2 {}) = some w' ∧
      w'.Ended 2 (.refresh "T1" sampleMeta) (.error (.domain (.refreshToken .reused))) ∧
      (∃ a, tokens w.view 0 = some a ∧ a.tokenHash = sampleRuntime.sha256 "T1" ∧
        a.familyId = "F1") ∧
      ¬ FamilyDead "F1" w' := by
  obtain ⟨w, w', hreach, hstep, hended, hold, hnew, hnew'⟩ := sample_reuse
  refine ⟨w, w', hreach, hstep, hended, ⟨_, hold, rfl, rfl⟩, ?_⟩
  intro hdead
  have hrevoked := hdead.revoked w' 1 _ _ Relation.ReflTransGen.refl hnew' rfl hnew'
  cases hrevoked

theorem sample_theft_response : ∃ w w' : BackendWorld sampleRuntime,
    w'.Ended 2 (.refresh "T1" sampleMeta) (.error (.domain (.refreshToken .reused))) ∧
      (FamilyDead "F1" w' ↔ NoneActive "F1" w.view) := by
  obtain ⟨w, w', hreach, hstep, hended, hold, -⟩ := sample_reuse
  exact ⟨w, w', hended, theft_response_durable_iff hreach hstep hended ⟨hold, rfl⟩⟩

end Mes
