import Mes.Auth.TokenCommit
import Mes.Footprint

/-!
The program logic of the refresh tokens: its invariant is `TokenInv`, its
guarantees are `TokenGuar` for a request and `TokenDrift` for the clock and the
timers. The steps that are not commits follow (inserting a token, drawing a
random value, writing a grace entry), then what every assertion of a token
program has to survive, and the frame rule for the requests that write no
token.

The assertions are stable in every logic over the same guarantees, so that a
logic for fewer schedules can use them too.
-/

namespace Mes

open Transact

variable {rt : Runtime}

/-! ### Steps that commit nothing -/

section Steps

variable {p : Pid} {v v' : BackendView rt}

/-- What `p` knows about the token `b` that it is about to insert: its raw value
`s` is `p`'s own, `p` has inserted no other token, and the lifetime of `b` is counted from
a moment that has passed. -/
structure TokenBirth (p : Pid) (s : String) (b : RefreshToken) (v : BackendView rt) :
    Prop where
  drawn : v.mem.minted s = some p
  hash : b.tokenHash = rt.sha256 s
  family : v.mem.minted b.familyId = some p ∨
    ∃ k c, tokens v k = some c ∧ c.familyId = b.familyId
  first : ∀ i c, tokenBorn v i ≠ some (p, c)
  lifetime : b.expiresAt ≤ v.store.clock + TOKEN_TTL

theorem tokens_push (hwf : v.store.Wf) (e : Event (schema rt) (platform rt))
    (b : RefreshToken) :
    tokens (v.put p e (v.store.push p Tbl.refreshTokens b)) = tokens v := by
  have hvacant := (hwf.vacant Tbl.refreshTokens _ (le_refl _)).1
  have hstored := Store.push_stored v.store p Tbl.refreshTokens b hvacant
  exact congrFun hstored Tbl.refreshTokens

theorem tokenBorn_push (e : Event (schema rt) (platform rt)) (b : RefreshToken)
    (i : Nat) : tokenBorn (v.put p e (v.store.push p Tbl.refreshTokens b)) i =
      if i = v.store.next Tbl.refreshTokens then some (p, b) else tokenBorn v i :=
  Store.push_born_self v.store p Tbl.refreshTokens b i

theorem birth_guar (hwf : v.store.Wf) {s : String} {b : RefreshToken}
    (hbirth : TokenBirth p s b v) (e : Event (schema rt) (platform rt)) :
    TokenGuar p v (v.put p e (v.store.push p Tbl.refreshTokens b)) where
  evolves := fun i a a' ha ha' => by
    rw [tokens_push hwf, ha] at ha'
    rw [Option.some.inj ha']
    exact Evolves.refl _ _
  appears := fun j c hnone hsome => by
    rw [tokens_push hwf, hnone] at hsome
    cases hsome
  births := fun i q c hnone hsome => by
    rw [tokenBorn_push] at hsome
    split at hsome
    · have hb : b = c := congrArg Prod.snd (Option.some.inj hsome)
      subst hb
      exact ⟨⟨s, hbirth.hash, hbirth.drawn⟩, hbirth.family, hbirth.lifetime⟩
    · rw [hnone] at hsome
      cases hsome
  mintKept := fun _ _ hminted => hminted
  mintBy := fun s q hnone hsome => by
    have hsame : v.mem.minted s = some q := hsome
    rw [hnone] at hsame
    cases hsame

/-- The hash of a new token is new, as far as hashes do not collide. -/
theorem TokenBirth.unborn (hinv : TokenInv v) {s : String} {b : RefreshToken}
    (hbirth : TokenBirth p s b v) (hfree : CollisionFree v) {i : Nat} {q : Pid}
    {c : RefreshToken} (hc : tokenBorn v i = some (q, c)) :
    c.tokenHash ≠ b.tokenHash := by
  intro hsame
  obtain ⟨s', hhash, hminted⟩ := hinv.hashed i q c hc
  have hs : s' = s := by
    refine hfree s' s (by rw [hminted]; rfl) (by rw [hbirth.drawn]; rfl) ?_
    rw [← hhash, hsame, hbirth.hash]
  have hq : q = p := by
    rw [hs, hbirth.drawn] at hminted
    exact (Option.some.inj hminted).symm
  exact hbirth.first i c (by rw [hc, hq])

theorem birth_inv (hwf : v.store.Wf) (hinv : TokenInv v) {s : String}
    {b : RefreshToken} (hbirth : TokenBirth p s b v)
    (e : Event (schema rt) (platform rt)) :
    TokenInv (v.put p e (v.store.push p Tbl.refreshTokens b)) := by
  have hacts := Store.acts_push hwf p Tbl.refreshTokens b
  refine hinv.step (p := p) hwf hacts (birth_guar hwf hbirth e) ?_ ?_ ?_ ?_
  · rw [tokens_push hwf]
    exact hinv.activeUnique
  · intro i j a ha hlink
    rw [tokens_push hwf] at ha
    obtain ⟨hlt, r, q, c, hr, hc, hrest⟩ := hinv.links i j a ha hlink
    have hkept : tokenBorn (v.put p e (v.store.push p Tbl.refreshTokens b)) j = some (q, c) :=
      born_step hacts hc
    exact ⟨hlt, r, q, c, hr, hkept, hrest⟩
  · intro hfree i j q r c d hc hd hhash
    have hbefore : CollisionFree v := hfree.earlier fun _ _ hminted => hminted
    rw [tokenBorn_push] at hc hd
    split at hc
    · rename_i hi
      split at hd
      · rename_i hj
        rw [hi, hj]
      · have hb : b = c := congrArg Prod.snd (Option.some.inj hc)
        subst hb
        exact absurd hhash.symm (hbirth.unborn hinv hbefore hd)
    · split at hd
      · have hb : b = d := congrArg Prod.snd (Option.some.inj hd)
        subst hb
        exact absurd hhash (hbirth.unborn hinv hbefore hc)
      · exact hinv.hashedOnce hbefore i j q r c d hc hd hhash
  · exact fun h entry hcached => Or.inl hcached

/-- A step on the memory that at most draws values. -/
theorem remember_guar {mem : Memory} {e : Event (schema rt) (platform rt)}
    (hkept : ∀ s q, v.mem.minted s = some q → mem.minted s = some q)
    (hby : ∀ s q, v.mem.minted s = none → mem.minted s = some q → q = p) :
    TokenGuar p v (v.remember p e mem) where
  evolves := fun i a a' ha ha' => by
    have hsame : tokens v i = some a' := ha'
    rw [ha] at hsame
    rw [Option.some.inj hsame]
    exact Evolves.refl _ _
  appears := fun j c hnone hsome => by
    have hsame : tokens v j = some c := hsome
    rw [hnone] at hsame
    cases hsame
  births := fun i q c hnone hsome => by
    have hsame : tokenBorn v i = some (q, c) := hsome
    rw [hnone] at hsame
    cases hsame
  mintKept := hkept
  mintBy := hby

theorem remember_inv (hwf : v.store.Wf) (hinv : TokenInv v) {mem : Memory}
    {e : Event (schema rt) (platform rt)}
    (hkept : ∀ s q, v.mem.minted s = some q → mem.minted s = some q)
    (hby : ∀ s q, v.mem.minted s = none → mem.minted s = some q → q = p)
    (hcache : ∀ h entry, mem.graceCache h = some entry →
      v.mem.graceCache h = some entry ∨ CachedRotation (v.remember p e mem) h entry) :
    TokenInv (v.remember p e mem) := by
  have hguar : TokenGuar p v (v.remember p e mem) := remember_guar hkept hby
  refine hinv.step hwf (Store.Acts.refl p v.store) hguar hinv.activeUnique
    hinv.links ?_ hcache
  exact fun hfree => hinv.hashedOnce (hfree.earlier hkept)

theorem mint_kept {m m' : Memory} {text res : String}
    (hmint : m.mint p text = some (res, m')) :
    (∀ s q, m.minted s = some q → m'.minted s = some q) ∧
      (∀ s q, m.minted s = none → m'.minted s = some q → q = p) ∧
      m'.graceCache = m.graceCache ∧ m'.minted res = some p := by
  obtain ⟨hnone, -, rfl⟩ := Memory.mint_cases hmint
  refine ⟨?_, ?_, rfl, ?_⟩
  · intro s q hs
    have hne : s ≠ res := by
      rintro rfl
      rw [hnone] at hs
      cases hs
    simpa [Function.update_of_ne hne] using hs
  · intro s q hs hs'
    rcases eq_or_ne s res with heq | hne
    · subst heq
      simpa using hs'.symm
    · simp only [Function.update_of_ne hne] at hs'
      rw [hs] at hs'
      cases hs'
  · simp

/-- What drawing a value leaves to show. -/
theorem mint_step {v : BackendView rt} {mem : Memory} {text res : String}
    (hwf : v.store.Wf) (hinv : TokenInv v) (hmint : v.mem.mint p text = some (res, mem))
    (e : Event (schema rt) (platform rt)) :
    TokenInv (v.remember p e mem) ∧ TokenGuar p v (v.remember p e mem) ∧
      mem.graceCache = v.mem.graceCache ∧ mem.minted res = some p := by
  obtain ⟨hkept, hby, hcache, hdrawn⟩ := mint_kept hmint
  refine ⟨remember_inv hwf hinv hkept hby ?_, remember_guar hkept hby, hcache, hdrawn⟩
  intro h entry hentry
  rw [hcache] at hentry
  exact Or.inl hentry

end Steps

/-! ### The logic -/

def TokenRule : Option Pid → BackendView rt → BackendView rt → Prop
  | some p => TokenGuar p
  | none => TokenDrift

theorem TokenInv.drift {v v' : BackendView rt} (hinv : TokenInv v)
    (hdrift : TokenDrift v v') (hclock : v.store.clock ≤ v'.store.clock)
    (hgone : ∀ i, Gone v i → Gone v' i)
    (hcache : ∀ h e, v'.mem.graceCache h = some e → v.mem.graceCache h = some e) :
    TokenInv v' where
  bornAs := by
    rw [hdrift.tokens, hdrift.born]
    exact hinv.bornAs
  activeUnique := by
    rw [hdrift.tokens]
    exact hinv.activeUnique
  links := by
    rw [hdrift.tokens, hdrift.born]
    exact hinv.links
  hashed := by
    rw [hdrift.born, hdrift.minted]
    exact hinv.hashed
  familyMinted := by
    rw [hdrift.born, hdrift.minted]
    exact hinv.familyMinted
  hashedOnce := fun hfree => by
    rw [hdrift.born]
    refine hinv.hashedOnce (hfree.earlier ?_)
    rw [hdrift.minted]
    exact fun _ _ hminted => hminted
  lifetime := fun i p b hb => by
    rw [hdrift.born] at hb
    exact le_trans (hinv.lifetime i p b hb) (Nat.add_le_add_right hclock TOKEN_TTL)
  cached := fun h e hcached => by
    obtain ⟨i, j, p, a, q, b, hi, hhash, hj, hhash', hexpires, hminted, hrotated⟩ :=
      hinv.cached h e (hcache h e hcached)
    refine ⟨i, j, p, a, q, b, by rw [hdrift.born, hi], hhash, by rw [hdrift.born, hj],
      hhash', hexpires, by rw [hdrift.minted, hminted], ?_⟩
    rcases hrotated with hi' | ⟨c, hc, hrevoked, hlink⟩
    · exact Or.inl (hgone i hi')
    · refine Or.inr ⟨c, by rw [hdrift.tokens, hc], hrevoked, ?_⟩
      rcases hlink with hto | ⟨hnone, hj'⟩
      · exact Or.inl hto
      · exact Or.inr ⟨hnone, hgone j hj'⟩

theorem tick_inv {v : BackendView rt} (hinv : TokenInv v) (n : Time) :
    TokenInv { v with store := v.store.tick n } :=
  hinv.drift ⟨rfl, rfl, rfl⟩ (Nat.le_add_right _ n) (fun _ hgone => hgone)
    fun _ _ hcached => hcached

theorem fire_inv {v : BackendView rt} (hinv : TokenInv v) {timer : String}
    {mem : Memory} (hfire : v.mem.fire v.store.clock timer = some mem) :
    TokenInv { v with mem := mem } ∧ TokenDrift v { v with mem := mem } := by
  obtain ⟨entry, -, -, rfl⟩ := Memory.fire_cases hfire
  refine ⟨hinv.drift ⟨rfl, rfl, rfl⟩ (le_refl _) (fun _ hgone => hgone) ?_, rfl, rfl, rfl⟩
  intro h e hcached
  rcases eq_or_ne h timer with heq | hne
  · simp [heq] at hcached
  · simpa [Function.update_of_ne hne] using hcached

theorem quiet_tokens {v v' : BackendView rt} (hquiet : v.Quiet v') :
    TokensSame v v' where
  tokens := congrFun hquiet.store.stored Tbl.refreshTokens
  born := congrFun hquiet.store.born Tbl.refreshTokens
  minted := by rw [hquiet.mem]
  graceCache := by rw [hquiet.mem]

/-- Any interleaving of any requests. -/
def tokenLogic (rt : Runtime) : Logic (schema rt) (platform rt) where
  scope := Scope.any fun _ => True
  starts := fun _ => True
  Inv := TokenInv
  Guar := TokenRule
  spawns := fun _ _ => trivial
  quiet := fun p e v v' hwf hinv hacts _ hquiet _ => by
    have hsame := quiet_tokens hquiet
    exact ⟨hinv.of_same hwf hacts.store hsame, hsame.guar⟩
  tick := fun v n _ hinv => ⟨tick_inv hinv n, rfl, rfl, rfl⟩
  fire := fun v timer mem _ hinv hfire => fire_inv hinv hfire

/-- The events that a rotation is made of. -/
def Milestone : Event (schema rt) (platform rt) → Prop
  | ⟨.sql .commit, _⟩ => True
  | ⟨.node .turn, _⟩ => True
  | ⟨.node (.setGraceEntry _ _ _), _⟩ => True
  | _ => False

/-- A step of `p` that keeps to the rules and changes neither the committed
tokens nor the grace cache, on the way between two milestones. -/
structure Minor (p : Pid) (v v' : BackendView rt) : Prop where
  acts : ∃ e, ActsOn p e v v' ∧ ¬ Milestone e
  tokens : tokens v' = tokens v
  graceCache : v'.mem.graceCache = v.mem.graceCache
  guar : TokenGuar p v v'
  inv : TokenInv v'

/-- A logic in which everybody keeps to the rules of the tokens. -/
structure OverTokens (L : Logic (schema rt) (platform rt)) : Prop where
  inv : ∀ v, L.Inv v → TokenInv v
  guar : ∀ a v v', L.Guar a v v' → TokenRule a v v'
  minor : ∀ p v v', v.store.Wf → L.Inv v → Minor p v v' → L.scope.run v p v' →
    L.Inv v' ∧ L.Guar (some p) v v'

theorem overTokens (rt : Runtime) : OverTokens (tokenLogic rt) :=
  ⟨fun _ hinv => hinv, fun _ _ _ hguar => hguar,
    fun _ _ _ _ _ hminor _ => ⟨hminor.inv, hminor.guar⟩⟩

theorem OverTokens.narrow {L : Logic (schema rt) (platform rt)} (hL : OverTokens L)
    {sc : Scope (schema rt) (platform rt)} {hspawn : ∀ req, ¬ sc.spawn req}
    {hrun : ∀ v p v', L.scope.run v p v'} : OverTokens (L.narrow sc hspawn hrun) where
  inv := hL.inv
  guar := fun a v v' hguar => hL.guar a v v' hguar.1
  minor := fun p v v' hwf hinv hminor hallowed => by
    obtain ⟨hinv', hguar⟩ := hL.minor p v v' hwf hinv hminor (hrun v p v')
    exact ⟨hinv', hguar, fun q hq => by rwa [← Option.some.inj hq]⟩

/-! ### What the others cannot change -/

section Stability

variable {L : Logic (schema rt) (platform rt)} {p : Pid}

/-- The transaction of `p` that began at `t₀` is open. -/
def Open (p : Pid) (t₀ : Time) (v : BackendView rt) : Prop :=
  v.store.tx p = some { startedAt := t₀, aborted := false }

theorem Open.inside {t₀ : Time} {v : BackendView rt} (hopen : Open p t₀ v) :
    ∃ W, Inside p t₀ W v :=
  ⟨v.store.draft p, hopen, rfl⟩

theorem Open.insideTx {t₀ : Time} {v : BackendView rt} (hopen : Open p t₀ v) :
    ∃ t₀ W, Inside p t₀ W v :=
  ⟨t₀, v.store.draft p, hopen, rfl⟩

theorem stable_open (t₀ : Time) : L.Stable p (Open p t₀) :=
  fun _ _ _ hactor hstep hopen => (hstep.own_tx hactor).1.trans hopen

/-- What `p` has written to the tokens and not committed. -/
def tokenDraft (p : Pid) (v : BackendView rt) (i : Nat) : Option (Option RefreshToken) :=
  v.store.draft p Tbl.refreshTokens i

theorem draft_kept {a : Option Pid} {v v' : BackendView rt} (hactor : a ≠ some p)
    (hstep : L.Step a v v') : tokenDraft p v' = tokenDraft p v :=
  congrFun (hstep.own_tx hactor).2 Tbl.refreshTokens

theorem tokens_locked {a : Option Pid} {v v' : BackendView rt} (hactor : a ≠ some p)
    (hstep : L.Step a v v') {i : Nat} {x : Option RefreshToken}
    (hdraft : tokenDraft p v i = some x) : tokens v' i = tokens v i :=
  hstep.stored_locked (t := Tbl.refreshTokens) hactor hdraft

/-- `p` has inserted no token. -/
def Barren (p : Pid) (v : BackendView rt) : Prop :=
  ∀ i b, tokenBorn v i ≠ some (p, b)

/-- An insertion by `p` is a step of `p`. -/
theorem born_earlier {a : Option Pid} {v v' : BackendView rt} (hactor : a ≠ some p)
    (hstep : L.Step a v v') {i : Nat} {b : RefreshToken}
    (hborn : tokenBorn v' i = some (p, b)) : tokenBorn v i = some (p, b) := by
  cases hold : tokenBorn v i with
  | some c =>
      have hkept : tokenBorn v' i = some c := hstep.born_kept hold
      rw [← hkept, hborn]
  | none =>
      cases a with
      | none =>
          obtain ⟨-, n, hstore⟩ := hstep.base
          have hsame : tokenBorn v' i = tokenBorn v i := by
            unfold tokenBorn
            rw [hstore]
            rfl
          rw [hsame, hold] at hborn
          cases hborn
      | some q =>
          obtain ⟨e, hacts⟩ := hstep.base
          have hpid : p = q := born_by hacts.store hold hborn
          exact absurd (congrArg some hpid.symm) hactor

theorem stable_barren : L.Stable p (Barren p) :=
  fun _ _ _ hactor hstep hbarren i b hborn =>
    hbarren i b (born_earlier hactor hstep hborn)

/-- `p` has neither inserted a token nor written one. -/
def Untouched (p : Pid) (v : BackendView rt) : Prop :=
  Barren p v ∧ ∀ i, tokenDraft p v i = none

theorem stable_untouched : L.Stable p (Untouched p) := by
  intro a v v' hactor hstep huntouched
  refine ⟨stable_barren a v v' hactor hstep huntouched.1, ?_⟩
  rw [draft_kept hactor hstep]
  exact huntouched.2

theorem stable_tameWrites : L.Stable p (TameWrites p) := by
  intro a v v' hactor hstep htame i x hdraft
  have hkept := draft_kept hactor hstep
  have hdraft' : tokenDraft p v i = some x := by
    rw [← hkept]
    exact hdraft
  obtain ⟨c, hc, hversion⟩ := htame i x hdraft'
  refine ⟨c, by rw [tokens_locked hactor hstep hdraft', hc], ?_⟩
  have hdeletes : Deletes p v' = Deletes p v := by
    funext j
    have hj : tokenDraft p v' j = tokenDraft p v j := congrFun hkept j
    exact congrArg (fun d => d = some none) hj
  rw [hdeletes]
  exact hversion

/-- What an uncommitted row will be does not change, and neither does the
committed version below it. -/
theorem after_kept {a : Option Pid} {v v' : BackendView rt} (hactor : a ≠ some p)
    (hstep : L.Step a v v') {i : Nat}
    (hsame : (tokenDraft p v i).getD (tokens v i) = tokens v i) :
    (tokenDraft p v' i).getD (tokens v' i) = tokens v' i := by
  rw [draft_kept hactor hstep]
  cases hdraft : tokenDraft p v i with
  | none => rfl
  | some x =>
      rw [hdraft] at hsame
      rw [tokens_locked hactor hstep hdraft]
      exact hsame

theorem stable_rotationWrites (i j : Nat) (a x b : RefreshToken) (t₀ : Time) :
    L.Stable p (RotationWrites p i j a x b t₀) := by
  intro actor v v' hactor hstep hrotation
  have hkept := draft_kept hactor hstep
  have hold : tokens v' i = tokens v i := tokens_locked hactor hstep hrotation.oldDraft
  have hnew : tokens v' j = tokens v j := tokens_locked hactor hstep hrotation.newDraft
  exact
    { hrotation with
      old := by rw [hold, hrotation.old]
      oldDraft := (congrFun hkept i).trans hrotation.oldDraft
      newDraft := (congrFun hkept j).trans hrotation.newDraft
      others := fun k hki hkj => after_kept hactor hstep (hrotation.others k hki hkj)
      vacant := by rw [hnew, hrotation.vacant]
      born := hstep.born_kept hrotation.born }

theorem stable_gone (i : Nat) : L.Stable p fun v => Gone v i := by
  intro a v v' hactor hstep hgone
  cases a with
  | none =>
      obtain ⟨-, n, hstore⟩ := hstep.base
      unfold Gone tokens at hgone ⊢
      rw [hstore]
      exact hgone
  | some q =>
      obtain ⟨e, hacts⟩ := hstep.base
      exact hgone.acts hacts.store

variable (hL : OverTokens L)
include hL

theorem persistent_minted (s : String) (q : Pid) :
    L.Persistent fun v => v.mem.minted s = some q := by
  intro a v v' hstep hminted
  have hrule := hL.guar a v v' hstep.guar
  cases a with
  | none => rw [hrule.minted, hminted]
  | some r => exact hrule.mintKept s q hminted

theorem stable_minted (s : String) (q : Pid) :
    L.Stable p fun v => v.mem.minted s = some q :=
  (persistent_minted hL s q).stable

/-- The family `familyId` was drawn by `p`, and no token but `j` belongs to it. -/
def OwnFamily (p : Pid) (familyId : String) (j : Option Nat) (v : BackendView rt) : Prop :=
  v.mem.minted familyId = some p ∧
    ∀ i q c, tokenBorn v i = some (q, c) → c.familyId = familyId → some i = j

/-- Nobody else can join a family that has no committed token. -/
theorem stable_ownFamily (familyId : String) (j : Option Nat) :
    L.Stable p fun v => OwnFamily p familyId j v ∧ ∀ i, some i = j → tokens v i = none ∧
      (tokenDraft p v i).isSome = true := by
  intro a v v' hactor hstep hown
  obtain ⟨⟨hminted, hfamily⟩, hhidden⟩ := hown
  have hminted' := stable_minted hL familyId p a v v' hactor hstep hminted
  refine ⟨⟨hminted', ?_⟩, ?_⟩
  · intro i q c hc hsame
    cases hold : tokenBorn v i with
    | some b =>
        have hkept : tokenBorn v' i = some b := hstep.born_kept hold
        rw [hkept] at hc
        rw [Option.some.inj hc] at hold
        exact hfamily i q c hold hsame
    | none =>
        have hrule := hL.guar a v v' hstep.guar
        cases a with
        | none =>
            rw [hrule.born, hold] at hc
            cases hc
        | some r =>
            obtain ⟨-, hdrawn | ⟨k, d, hd, hfam⟩⟩ := hrule.births i q c hold hc
            · rw [hsame, hminted] at hdrawn
              exact absurd (hdrawn.symm) hactor
            · obtain ⟨x, b, hb, hfixed⟩ := (hL.inv v hstep.inv).bornAs k d hd
              have hk : some k = j :=
                hfamily k x b hb ((fixed_eq hfixed).2.1.trans (hfam.trans hsame))
              rw [(hhidden k hk).1] at hd
              cases hd
  · intro i hi
    obtain ⟨hnone, hlocked⟩ := hhidden i hi
    obtain ⟨x, hx⟩ := Option.isSome_iff_exists.mp hlocked
    rw [tokens_locked hactor hstep hx, draft_kept hactor hstep]
    exact ⟨hnone, hlocked⟩

theorem stable_rootWrites (j : Nat) (b : RefreshToken) :
    L.Stable p (RootWrites p j b) := by
  intro a v v' hactor hstep hroot
  have hkept := draft_kept hactor hstep
  have hdraft : tokenDraft p v j = some (some b) := by
    have hj := hroot.draft j
    rw [if_pos rfl] at hj
    exact hj
  have hown := stable_ownFamily hL b.familyId (some j) a v v' hactor hstep
    ⟨⟨hroot.minted, fun i q c hc hfam => congrArg some (hroot.root i q c hc hfam)⟩,
      fun i hi => by
        rw [Option.some.inj hi, hdraft]
        exact ⟨hroot.vacant, rfl⟩⟩
  exact
    { draft := fun i => (congrFun hkept i).trans (hroot.draft i)
      vacant := (hown.2 j rfl).1
      born := hstep.born_kept hroot.born
      active := hroot.active
      unlinked := hroot.unlinked
      minted := hown.1.1
      root := fun i q c hc hfam => Option.some.inj (hown.1.2 i q c hc hfam) }

theorem stable_rotated (i j : Nat) : L.Stable p fun v => Rotated v i j := by
  intro a v v' hactor hstep hrotated
  have hrule := hL.guar a v v' hstep.guar
  cases a with
  | none =>
      have hgone (k : Nat) (hk : Gone v k) : Gone v' k :=
        stable_gone k none v v' hactor hstep hk
      rcases hrotated with hi | ⟨c, hc, hrevoked, hlink⟩
      · exact Or.inl (hgone i hi)
      · refine Or.inr ⟨c, by rw [hrule.tokens, hc], hrevoked, ?_⟩
        rcases hlink with hto | ⟨hnone, hj⟩
        · exact Or.inl hto
        · exact Or.inr ⟨hnone, hgone j hj⟩
  | some q =>
      obtain ⟨e, hacts⟩ := hstep.base
      exact hrotated.step hstep.wf hacts.store hrule

/-- The token `i` satisfies `test` as long as its row is there. -/
def Lasting (i : Nat) (test : RefreshToken → Prop) (v : BackendView rt) : Prop :=
  Gone v i ∨ ∃ a, tokens v i = some a ∧ test a

omit hL in
theorem Lasting.step {q : Pid} {i : Nat} {test : RefreshToken → Prop}
    (htest : ∀ gone a a', Evolves gone a a' → test a → test a') {v v' : BackendView rt}
    (hwf : v.store.Wf) (hacts : v.store.Acts q v'.store) (hguar : TokenGuar q v v')
    (hlasting : Lasting i test v) : Lasting i test v' := by
  rcases hlasting with hgone | ⟨a, ha, hholds⟩
  · exact Or.inl (hgone.acts hacts)
  · cases ha' : tokens v' i with
    | none => exact Or.inl (gone_of_disappears hwf hacts ha ha')
    | some a' => exact Or.inr ⟨a', ha', htest _ a a' (hguar.evolves i a a' ha ha') hholds⟩

theorem persistent_lasting {i : Nat} {test : RefreshToken → Prop}
    (htest : ∀ gone a a', Evolves gone a a' → test a → test a') :
    L.Persistent fun v => Lasting i test v := by
  intro actor v v' hstep hlasting
  have hrule := hL.guar actor v v' hstep.guar
  cases actor with
  | none =>
      rcases hlasting with hgone | ⟨a, ha, hholds⟩
      · exact Or.inl (stable_gone (p := 0) i none v v' (by simp) hstep hgone)
      · exact Or.inr ⟨a, by rw [hrule.tokens, ha], hholds⟩
  | some q =>
      obtain ⟨e, hacts⟩ := hstep.base
      exact hlasting.step htest hstep.wf hacts.store hrule

omit hL in
theorem Evolves.isSome {gone : Nat → Prop} {a a' : RefreshToken}
    (hevolves : Evolves gone a a') (hrevoked : a.revokedAt.isSome = true) :
    a'.revokedAt.isSome = true := by
  obtain ⟨r, hr⟩ := Option.isSome_iff_exists.mp hrevoked
  rw [hevolves.revoked r hr]
  rfl

/-- The token `i` has been revoked or deleted. -/
def Spent (i : Nat) (v : BackendView rt) : Prop :=
  Lasting i (fun a => a.revokedAt.isSome = true) v

theorem persistent_spent (i : Nat) : L.Persistent (@Spent rt i) :=
  persistent_lasting hL fun _ _ _ hevolves => hevolves.isSome

end Stability

end Mes
