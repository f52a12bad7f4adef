import Mes.Backend

/-!
What the refresh tokens are meant to satisfy, over the committed table, the
record of insertions and the grace cache. `TokenInv` is the invariant of a
state: one active token in each family, links that point forward inside a
family, a bounded lifetime, and grace entries that belong to a committed rotation. `TokenGuar` is
what one step of a request may do: tokens evolve in one direction, and a new
token is the root of a fresh family or the successor of a token that was active
until this very step.

Nothing here mentions a program.
-/

namespace Mes

open Transact

def TOKEN_TTL : Time := AuthService.REFRESH_TOKEN_TTL_DAYS * MS_PER_DAY

/-- The columns of a token that never change. -/
def RefreshToken.fixed (a : RefreshToken) : RefreshToken :=
  { a with revokedAt := none, replacedById := none }

variable {rt : Runtime}

/-- The committed refresh tokens. -/
def tokens (v : BackendView rt) (id : Nat) : Option RefreshToken :=
  v.store.stored Tbl.refreshTokens id

/-- Who inserted a token, and as what. -/
def tokenBorn (v : BackendView rt) (id : Nat) : Option (Pid × RefreshToken) :=
  v.store.born Tbl.refreshTokens id

/-- A token that was deleted, or whose insertion was rolled back. -/
def Gone (v : BackendView rt) (id : Nat) : Prop :=
  id < v.store.next Tbl.refreshTokens ∧ tokens v id = none ∧
    ∀ q, v.store.draft q Tbl.refreshTokens id = none

/-- The token `i` has been rotated into `j`, as far as its row is still there. -/
def Rotated (v : BackendView rt) (i j : Nat) : Prop :=
  Gone v i ∨ ∃ a, tokens v i = some a ∧ a.revokedAt.isSome = true ∧
    (a.replacedById = some j ∨ a.replacedById = none ∧ Gone v j)

/-- A grace entry for the token hash `h` comes from a committed rotation. -/
def CachedRotation (v : BackendView rt) (h : String) (e : GraceEntry) : Prop :=
  ∃ i j p a q b, tokenBorn v i = some (p, a) ∧ a.tokenHash = h ∧
    tokenBorn v j = some (q, b) ∧ b.tokenHash = rt.sha256 e.successorRaw ∧
    b.expiresAt = e.successorExpiresAt ∧ v.mem.minted e.successorRaw = some q ∧
    Rotated v i j

/-- No two values drawn so far have the same hash. -/
def CollisionFree (v : BackendView rt) : Prop :=
  ∀ s s', (v.mem.minted s).isSome = true → (v.mem.minted s').isSome = true →
    rt.sha256 s = rt.sha256 s' → s = s'

structure TokenInv (v : BackendView rt) : Prop where
  bornAs : ∀ i a, tokens v i = some a →
    ∃ p b, tokenBorn v i = some (p, b) ∧ b.fixed = a.fixed
  activeUnique : ∀ i j a b, tokens v i = some a → tokens v j = some b →
    a.revokedAt = none → b.revokedAt = none → a.familyId = b.familyId → i = j
  links : ∀ i j a, tokens v i = some a → a.replacedById = some j →
    i < j ∧ ∃ r q b, a.revokedAt = some r ∧ tokenBorn v j = some (q, b) ∧
      b.userId = a.userId ∧ b.familyId = a.familyId ∧ r + TOKEN_TTL ≤ b.expiresAt
  hashed : ∀ i p b, tokenBorn v i = some (p, b) →
    ∃ s, b.tokenHash = rt.sha256 s ∧ v.mem.minted s = some p
  familyMinted : ∀ i p b, tokenBorn v i = some (p, b) →
    ∃ q, v.mem.minted b.familyId = some q
  hashedOnce : CollisionFree v → ∀ i j p q a b,
    tokenBorn v i = some (p, a) → tokenBorn v j = some (q, b) →
      a.tokenHash = b.tokenHash → i = j
  lifetime : ∀ i p b, tokenBorn v i = some (p, b) →
    b.expiresAt ≤ v.store.clock + TOKEN_TTL
  cached : ∀ h e, v.mem.graceCache h = some e → CachedRotation v h e

/-- What may happen to a token while its row is there. -/
structure Evolves (gone : Nat → Prop) (a a' : RefreshToken) : Prop where
  fixed : a'.fixed = a.fixed
  revoked : ∀ r, a.revokedAt = some r → a'.revokedAt = some r
  linked : a.revokedAt.isSome = true → a'.replacedById = a.replacedById ∨
    a'.replacedById = none ∧ ∃ j, a.replacedById = some j ∧ gone j

/-- A new token starts a family that no token had before. -/
def RootOf (v : BackendView rt) (j : Nat) (b : RefreshToken) : Prop :=
  ∀ i q c, tokenBorn v i = some (q, c) → c.familyId = b.familyId → i = j

/-- A new token is recorded as the successor of a token that was active. -/
def SuccessorOf (v v' : BackendView rt) (j : Nat) (b : RefreshToken) : Prop :=
  ∃ i a a', tokens v i = some a ∧ a.revokedAt = none ∧ tokens v' i = some a' ∧
    a'.replacedById = some j ∧ b.userId = a.userId ∧ b.familyId = a.familyId

structure TokenGuar (p : Pid) (v v' : BackendView rt) : Prop where
  evolves : ∀ i a a', tokens v i = some a → tokens v' i = some a' →
    Evolves (Gone v') a a'
  appears : ∀ j b, tokens v j = none → tokens v' j = some b →
    (∃ c, tokenBorn v j = some (p, c) ∧ c.fixed = b.fixed) ∧ b.revokedAt = none ∧
      (RootOf v j b ∨ SuccessorOf v v' j b)
  births : ∀ i q b, tokenBorn v i = none → tokenBorn v' i = some (q, b) →
    (∃ s, b.tokenHash = rt.sha256 s ∧ v.mem.minted s = some p) ∧
      (v.mem.minted b.familyId = some p ∨
        ∃ k c, tokens v k = some c ∧ c.familyId = b.familyId) ∧
      b.expiresAt ≤ v.store.clock + TOKEN_TTL
  mintKept : ∀ s q, v.mem.minted s = some q → v'.mem.minted s = some q
  mintBy : ∀ s q, v.mem.minted s = none → v'.mem.minted s = some q → q = p

/-- The clock and the timers change no token. -/
structure TokenDrift (v v' : BackendView rt) : Prop where
  tokens : tokens v' = tokens v
  born : tokenBorn v' = tokenBorn v
  minted : v'.mem.minted = v.mem.minted

/-- Nothing that concerns the tokens has changed. -/
structure TokensSame (v v' : BackendView rt) : Prop where
  tokens : tokens v' = tokens v
  born : tokenBorn v' = tokenBorn v
  minted : v'.mem.minted = v.mem.minted
  graceCache : v'.mem.graceCache = v.mem.graceCache

theorem Evolves.refl (gone : Nat → Prop) (a : RefreshToken) : Evolves gone a a :=
  ⟨rfl, fun _ hrevoked => hrevoked, fun _ => Or.inl rfl⟩

theorem fixed_eq {a b : RefreshToken} (hfixed : a.fixed = b.fixed) :
    a.userId = b.userId ∧ a.familyId = b.familyId ∧ a.tokenHash = b.tokenHash ∧
      a.expiresAt = b.expiresAt ∧ a.userAgent = b.userAgent := by
  simp only [RefreshToken.fixed, RefreshToken.mk.injEq] at hfixed
  exact ⟨hfixed.1, hfixed.2.1, hfixed.2.2.1, hfixed.2.2.2.2.1, hfixed.2.2.2.2.2.2.2.1⟩

/-- Drawing more values cannot remove a collision. -/
theorem CollisionFree.earlier {v v' : BackendView rt}
    (hkept : ∀ s q, v.mem.minted s = some q → v'.mem.minted s = some q)
    (hfree : CollisionFree v') : CollisionFree v := by
  have hlater (s : String) (hs : (v.mem.minted s).isSome = true) :
      (v'.mem.minted s).isSome = true := by
    obtain ⟨q, hq⟩ := Option.isSome_iff_exists.mp hs
    rw [hkept s q hq]
    rfl
  intro s s' hs hs' hhash
  exact hfree s s' (hlater s hs) (hlater s' hs') hhash

/-- Deleted tokens stay deleted. -/
theorem Gone.acts {p : Pid} {v v' : BackendView rt} {id : Nat}
    (hacts : v.store.Acts p v'.store) (hgone : Gone v id) : Gone v' id := by
  obtain ⟨hlt, hnone, hfree⟩ := hgone
  have hdead := hacts.dead Tbl.refreshTokens id hlt hnone hfree
  exact ⟨lt_of_lt_of_le hlt (hacts.next _), hdead⟩

/-- A row that disappears in a step is gone afterwards. -/
theorem gone_of_disappears {p : Pid} {v v' : BackendView rt} {i : Nat}
    {a : RefreshToken} (hwf : v.store.Wf) (hacts : v.store.Acts p v'.store)
    (hrow : tokens v i = some a) (hnone : tokens v' i = none) : Gone v' i := by
  have hlt : i < v.store.next Tbl.refreshTokens := hwf.lt_next hrow
  refine ⟨lt_of_lt_of_le hlt (hacts.next _), hnone, ?_⟩
  refine hacts.settled Tbl.refreshTokens i ?_
  intro hsame
  have hstill : tokens v' i = tokens v i := hsame
  rw [hnone, hrow] at hstill
  cases hstill

/-- A rotation stays recorded while requests act within their guarantee. -/
theorem Rotated.step {p : Pid} {v v' : BackendView rt} {i j : Nat}
    (hwf : v.store.Wf) (hacts : v.store.Acts p v'.store) (hguar : TokenGuar p v v')
    (hrotated : Rotated v i j) : Rotated v' i j := by
  rcases hrotated with hgone | ⟨a, ha, hrevoked, hlink⟩
  · exact Or.inl (hgone.acts hacts)
  · cases ha' : tokens v' i with
    | none => exact Or.inl (gone_of_disappears hwf hacts ha ha')
    | some a' =>
        have hevolves := hguar.evolves i a a' ha ha'
        obtain ⟨r, hr⟩ := Option.isSome_iff_exists.mp hrevoked
        refine Or.inr ⟨a', ha', by rw [hevolves.revoked r hr]; rfl, ?_⟩
        rcases hevolves.linked hrevoked with hsame | ⟨hcleared, k, hk, hgone⟩
        · rcases hlink with hto | ⟨hnone, hgone⟩
          · exact Or.inl (hsame.trans hto)
          · exact Or.inr ⟨hsame.trans hnone, hgone.acts hacts⟩
        · rcases hlink with hto | ⟨hnone, hgone'⟩
          · rw [hto] at hk
            rw [← Option.some.inj hk] at hgone
            exact Or.inr ⟨hcleared, hgone⟩
          · rw [hnone] at hk
            cases hk

theorem born_step {p : Pid} {v v' : BackendView rt} {i : Nat} {b : Pid × RefreshToken}
    (hacts : v.store.Acts p v'.store) (hborn : tokenBorn v i = some b) :
    tokenBorn v' i = some b :=
  hacts.bornKept Tbl.refreshTokens i b hborn

/-- A token is inserted by the one who acts. -/
theorem born_by {p q : Pid} {v v' : BackendView rt} {i : Nat} {b : RefreshToken}
    (hacts : v.store.Acts p v'.store) (hnone : tokenBorn v i = none)
    (hborn : tokenBorn v' i = some (q, b)) : q = p :=
  hacts.bornBy Tbl.refreshTokens i q b hnone hborn

/-- Cached rotations survive every step. -/
theorem CachedRotation.step {p : Pid} {v v' : BackendView rt} {h : String}
    {e : GraceEntry} (hwf : v.store.Wf) (hacts : v.store.Acts p v'.store)
    (hguar : TokenGuar p v v') (hcached : CachedRotation v h e) :
    CachedRotation v' h e := by
  obtain ⟨i, j, q, a, r, b, hi, hhash, hj, hhash', hexpires, hminted, hrotated⟩ := hcached
  exact ⟨i, j, q, a, r, b, born_step hacts hi, hhash, born_step hacts hj, hhash',
    hexpires, hguar.mintKept _ r hminted, hrotated.step hwf hacts hguar⟩

/-- A step that leaves the tokens alone keeps to the guarantee. -/
theorem TokensSame.guar {p : Pid} {v v' : BackendView rt} (hsame : TokensSame v v') :
    TokenGuar p v v' where
  evolves := fun i a a' ha ha' => by
    rw [hsame.tokens, ha] at ha'
    rw [Option.some.inj ha']
    exact Evolves.refl _ _
  appears := fun j b hnone hsome => by
    rw [hsame.tokens, hnone] at hsome
    cases hsome
  births := fun i q b hnone hsome => by
    rw [hsame.born, hnone] at hsome
    cases hsome
  mintKept := fun s q hminted => by rw [hsame.minted, hminted]
  mintBy := fun s q hnone hsome => by
    rw [hsame.minted, hnone] at hsome
    cases hsome

/-- The invariant after a guaranteed step. What is left to show concerns
activity, links, hashes and the grace cache. -/
theorem TokenInv.step {p : Pid} {v v' : BackendView rt} (hinv : TokenInv v)
    (hwf : v.store.Wf) (hacts : v.store.Acts p v'.store) (hguar : TokenGuar p v v')
    (hactive : ∀ i j a b, tokens v' i = some a → tokens v' j = some b →
      a.revokedAt = none → b.revokedAt = none → a.familyId = b.familyId → i = j)
    (hlinks : ∀ i j a, tokens v' i = some a → a.replacedById = some j →
      i < j ∧ ∃ r q b, a.revokedAt = some r ∧ tokenBorn v' j = some (q, b) ∧
        b.userId = a.userId ∧ b.familyId = a.familyId ∧
          r + TOKEN_TTL ≤ b.expiresAt)
    (honce : CollisionFree v' → ∀ i j q r a b, tokenBorn v' i = some (q, a) →
      tokenBorn v' j = some (r, b) → a.tokenHash = b.tokenHash → i = j)
    (hcache : ∀ h e, v'.mem.graceCache h = some e →
      v.mem.graceCache h = some e ∨ CachedRotation v' h e) : TokenInv v' where
  bornAs := fun i a ha => by
    cases hold : tokens v i with
    | none =>
        obtain ⟨⟨c, hc, hfixed⟩, -⟩ := hguar.appears i a hold ha
        exact ⟨p, c, born_step hacts hc, hfixed⟩
    | some a₀ =>
        obtain ⟨q, b, hb, hfixed⟩ := hinv.bornAs i a₀ hold
        exact ⟨q, b, born_step hacts hb,
          hfixed.trans (hguar.evolves i a₀ a hold ha).fixed.symm⟩
  activeUnique := hactive
  links := hlinks
  hashed := fun i q b hb => by
    cases hold : tokenBorn v i with
    | none =>
        obtain ⟨⟨s, hhash, hminted⟩, -⟩ := hguar.births i q b hold hb
        have hq : q = p := born_by hacts hold hb
        exact ⟨s, hhash, by rw [hq]; exact hguar.mintKept s p hminted⟩
    | some c =>
        have hkept := born_step hacts hold
        rw [hkept] at hb
        rw [Option.some.inj hb] at hold
        obtain ⟨s, hhash, hminted⟩ := hinv.hashed i q b hold
        exact ⟨s, hhash, hguar.mintKept s q hminted⟩
  familyMinted := fun i q b hb => by
    cases hold : tokenBorn v i with
    | none =>
        obtain ⟨-, hminted | ⟨k, c, hc, hfamily⟩, -⟩ := hguar.births i q b hold hb
        · exact ⟨p, hguar.mintKept _ p hminted⟩
        · obtain ⟨r, d, hd, hfixed⟩ := hinv.bornAs k c hc
          obtain ⟨x, hx⟩ := hinv.familyMinted k r d hd
          rw [(fixed_eq hfixed).2.1, hfamily] at hx
          exact ⟨x, hguar.mintKept _ x hx⟩
    | some c =>
        have hkept := born_step hacts hold
        rw [hkept] at hb
        rw [Option.some.inj hb] at hold
        obtain ⟨x, hx⟩ := hinv.familyMinted i q b hold
        exact ⟨x, hguar.mintKept _ x hx⟩
  hashedOnce := honce
  lifetime := fun i q b hb => by
    rw [hacts.clock]
    cases hold : tokenBorn v i with
    | none => exact (hguar.births i q b hold hb).2.2
    | some c =>
        rw [born_step hacts hold] at hb
        rw [Option.some.inj hb] at hold
        exact hinv.lifetime i q b hold
  cached := fun h e hcached => by
    rcases hcache h e hcached with hbefore | hnew
    · exact (hinv.cached h e hbefore).step hwf hacts hguar
    · exact hnew

/-- The same for a step that inserts no token and keeps the grace cache. -/
theorem TokenInv.of_guar {p : Pid} {v v' : BackendView rt} (hinv : TokenInv v)
    (hwf : v.store.Wf) (hacts : v.store.Acts p v'.store) (hguar : TokenGuar p v v')
    (hborn : tokenBorn v' = tokenBorn v)
    (hcache : v'.mem.graceCache = v.mem.graceCache)
    (hactive : ∀ i j a b, tokens v' i = some a → tokens v' j = some b →
      a.revokedAt = none → b.revokedAt = none → a.familyId = b.familyId → i = j)
    (hlinks : ∀ i j a, tokens v' i = some a → a.replacedById = some j →
      i < j ∧ ∃ r q b, a.revokedAt = some r ∧ tokenBorn v j = some (q, b) ∧
        b.userId = a.userId ∧ b.familyId = a.familyId ∧
          r + TOKEN_TTL ≤ b.expiresAt) : TokenInv v' := by
  refine hinv.step hwf hacts hguar hactive ?_ ?_ ?_
  · rw [hborn]
    exact hlinks
  · intro hfree
    rw [hborn]
    exact hinv.hashedOnce (hfree.earlier hguar.mintKept)
  · intro h e hcached
    rw [hcache] at hcached
    exact Or.inl hcached

theorem TokenInv.of_same {p : Pid} {v v' : BackendView rt} (hinv : TokenInv v)
    (hwf : v.store.Wf) (hacts : v.store.Acts p v'.store) (hsame : TokensSame v v') :
    TokenInv v' := by
  refine hinv.of_guar hwf hacts hsame.guar hsame.born hsame.graceCache ?_ ?_
  · rw [hsame.tokens]
    exact hinv.activeUnique
  · rw [hsame.tokens]
    exact hinv.links

end Mes
