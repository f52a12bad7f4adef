import Mes.Js.Integers

/-!
The lifetime of an access token: `assertJwtConfig`, which checks `JWT_EXPIRES_IN` at
boot, `toExpiresInSeconds`, which reads it again for the response, and the library that
signs the token, which reads it on its own and in milliseconds.
-/

namespace Mes

open Js

namespace JwtLifetime

def JWT_SECRET_MIN_LENGTH : Nat := 32

def DEFAULT_JWT_EXPIRES_IN_SECONDS : Nat := 600

/-- The characters of `[smhd]`, with `SECONDS_PER_UNIT`. -/
def SECONDS_PER_UNIT : List (UInt16 × Nat) :=
  [(unit 's', 1), (unit 'm', 60), (unit 'h', 3600), (unit 'd', 86400)]

structure ConfigurationError where
  message : JsString
  deriving DecidableEq

/-- `/^(\d+)([smhd])$/`, with its groups. `JWT_EXPIRES_IN_REGEX` is the same without. -/
def execTimespan (s : JsString) : Option (JsString × UInt16) :=
  match s.getLast? with
  | none => none
  | some u =>
      if s.dropLast ≠ [] ∧ s.dropLast.all isDigit = true ∧
          (SECONDS_PER_UNIT.lookup u).isSome = true then
        some (s.dropLast, u)
      else none

def assertJwtConfig (secret : Option JsString) (expiresIn : JsString) :
    Except ConfigurationError Unit :=
  if (secret.getD []).length < JWT_SECRET_MIN_LENGTH then
    .error ⟨text "JWT_SECRET is missing or shorter than 32 characters — refusing to boot."⟩
  else if (execTimespan expiresIn).isNone then
    .error ⟨text "JWT_EXPIRES_IN value \"" ++ expiresIn ++
      text "\" is invalid — expected a positive integer followed by s, m, h, or d (e.g. \"15m\")."⟩
  else .ok ()

def toExpiresInSeconds (expiresIn : JsString) : Number :=
  match execTimespan (trim expiresIn) with
  | none => .ofNat DEFAULT_JWT_EXPIRES_IN_SECONDS
  | some (count, u) =>
      let value := Number.ofNat (natOf count)
      value.times ((SECONDS_PER_UNIT.lookup u).getD 0)

/-- The library that signs the token. At the second `iat` it makes the claim `exp` of the
setting, or raises an error: it reads the setting as milliseconds and adds their seconds to
`iat`, all in doubles, so that the sum is exact where these numbers are, and it refuses a
setting of more than 100 characters. -/
structure SigningLibrary where
  exp : Nat → JsString → Option Number
  adds : ∀ iat count u k, count ≠ [] → Digits count → SECONDS_PER_UNIT.lookup u = some k →
    count.length < 100 → Representable (natOf count * k * 1000) →
      Representable (iat + natOf count * k) →
        ∃ e, exp iat (count ++ [u]) = some e ∧ e.Equals (iat + natOf count * k)
  refuses : ∀ iat s, 100 < s.length → exp iat s = none

/-- What `issueToken` decides: when the token expires, and what the response says of it. -/
structure IssuedLifetime where
  exp : Number
  expiresIn : Number

def issueToken (library : SigningLibrary) (iat : Nat) (jwtExpiresIn : JsString) :
    Option IssuedLifetime :=
  (library.exp iat jwtExpiresIn).map fun exp =>
    { exp := exp, expiresIn := toExpiresInSeconds jwtExpiresIn }

/-! ### Accepted settings -/

/-- A count and a unit. -/
structure Timespan (s : JsString) (count : JsString) (u : UInt16) (k : Nat) : Prop where
  shape : s = count ++ [u]
  nonempty : count ≠ []
  digits : Digits count
  unit : SECONDS_PER_UNIT.lookup u = some k

theorem execTimespan_eq_some {s : JsString} {count : JsString} {u : UInt16} {k : Nat}
    (hs : Timespan s count u k) : execTimespan s = some (count, u) := by
  have hall : count.all isDigit = true := List.all_eq_true.mpr hs.digits
  unfold execTimespan
  rw [hs.shape, List.getLast?_concat]
  dsimp only
  rw [List.dropLast_concat, if_pos ⟨hs.nonempty, hall, by rw [hs.unit]; rfl⟩]

theorem timespan_of_exec {s : JsString} (hs : (execTimespan s).isSome = true) :
    ∃ count u k, Timespan s count u k := by
  unfold execTimespan at hs
  cases hlast : s.getLast? with
  | none => simp [hlast] at hs
  | some u =>
      rw [hlast] at hs
      dsimp only at hs
      split at hs
      · rename_i hparts
        obtain ⟨hne, hdigits, hunit⟩ := hparts
        obtain ⟨k, hk⟩ := Option.isSome_iff_exists.mp hunit
        exact ⟨s.dropLast, u, k, (List.dropLast_append_getLast? u hlast).symm, hne,
          List.all_eq_true.mp hdigits, hk⟩
      · simp at hs

/-- An accepted setting is a count and a unit. -/
theorem timespan_of_accepted {secret : Option JsString} {expiresIn : JsString}
    (haccepted : assertJwtConfig secret expiresIn = .ok ()) :
    ∃ count u k, Timespan expiresIn count u k := by
  apply timespan_of_exec
  unfold assertJwtConfig at haccepted
  split at haccepted
  · cases haccepted
  · split at haccepted
    · cases haccepted
    · rename_i hsome
      rwa [Bool.not_eq_true, Option.isNone_eq_false_iff] at hsome

theorem unit_facts {u : UInt16} {k : Nat} (hunit : SECONDS_PER_UNIT.lookup u = some k) :
    0 < k ∧ isSpace u = false := by
  have hall : ∀ p ∈ SECONDS_PER_UNIT, 0 < p.2 ∧ isSpace p.1 = false := by decide
  obtain ⟨before, after, heq, -⟩ := List.lookup_eq_some_iff.mp hunit
  have hmem : (u, k) ∈ SECONDS_PER_UNIT := heq ▸ List.mem_append_right before List.mem_cons_self
  exact hall (u, k) hmem

theorem isSpace_digit {c : UInt16} (hc : isDigit c = true) : isSpace c = false := by
  have hdigits : ∀ d < 10, isSpace (digit d) = false := by decide
  have hrange : 48 ≤ c.toNat ∧ c.toNat ≤ 57 := by
    simpa [isDigit, UInt16.le_iff_toNat_le] using hc
  have heq : c = digit (c.toNat - 48) := by
    rw [digit, Nat.add_sub_cancel' hrange.1, UInt16.ofNat_toNat]
  rw [heq]
  apply hdigits
  omega

/-- There is nothing to trim. -/
theorem Timespan.trimmed {s count : JsString} {u : UInt16} {k : Nat}
    (hs : Timespan s count u k) : trim s = s := by
  rw [trim_eq_self_iff, Padded, hs.shape, List.getLast?_concat]
  obtain ⟨c, rest, rfl⟩ := List.exists_cons_of_ne_nil hs.nonempty
  have hc := isSpace_digit (hs.digits c List.mem_cons_self)
  simp [hc, (unit_facts hs.unit).2]

theorem Timespan.seconds {s count : JsString} {u : UInt16} {k : Nat}
    (hs : Timespan s count u k) :
    toExpiresInSeconds s = (Number.ofNat (natOf count)).times k := by
  unfold toExpiresInSeconds
  rw [hs.trimmed, execTimespan_eq_some hs]
  dsimp only
  rw [hs.unit]
  rfl

/-! ### Agreement -/

/-- The count that a setting writes. -/
def countOf (expiresIn : JsString) : Nat :=
  natOf expiresIn.dropLast

/-- The seconds of its unit. -/
def unitOf (expiresIn : JsString) : Nat :=
  (expiresIn.getLast?.bind fun u => SECONDS_PER_UNIT.lookup u).getD 0

/-- The setting is read without the fallback, as a finite number above zero that is exactly
the count times the unit. -/
structure ReadExactly (expiresIn : JsString) : Prop where
  parsed : (execTimespan (trim expiresIn)).isSome = true
  exact : (toExpiresInSeconds expiresIn).Equals (countOf expiresIn * unitOf expiresIn)
  positive : 0 < countOf expiresIn * unitOf expiresIn

/-- It is read exactly, and a token signed at `iat` lives as long as the response says. -/
structure Agrees (library : SigningLibrary) (iat : Nat) (expiresIn : JsString) : Prop
    extends ReadExactly expiresIn where
  signed : ∃ issued lifetime, issueToken library iat expiresIn = some issued ∧
    issued.expiresIn.Equals lifetime ∧ issued.exp.Equals (iat + lifetime)

theorem Timespan.parts {s count : JsString} {u : UInt16} {k : Nat} (hs : Timespan s count u k) :
    countOf s = natOf count ∧ unitOf s = k := by
  constructor
  · rw [countOf, hs.shape, List.dropLast_concat]
  · rw [unitOf, hs.shape, List.getLast?_concat, Option.bind_some, hs.unit]
    rfl

theorem read_exactly_iff {secret : Option JsString} {expiresIn : JsString}
    (haccepted : assertJwtConfig secret expiresIn = .ok ()) :
    ReadExactly expiresIn ↔
      0 < countOf expiresIn ∧ Representable (countOf expiresIn * unitOf expiresIn) := by
  obtain ⟨count, u, k, hs⟩ := timespan_of_accepted haccepted
  obtain ⟨hcountOf, hunitOf⟩ := hs.parts
  have hk := (unit_facts hs.unit).1
  constructor
  · intro hread
    exact ⟨Nat.pos_of_mul_pos_right hread.positive, hread.exact.representable⟩
  · rintro ⟨hcount, hproduct⟩
    rw [hcountOf, hunitOf] at hproduct
    rw [hcountOf] at hcount
    constructor
    · rw [hs.trimmed, execTimespan_eq_some hs]
      rfl
    · rw [hs.seconds, hcountOf, hunitOf]
      exact Number.times_exact hcount hk hproduct
    · rw [hcountOf, hunitOf]
      exact Nat.mul_pos hcount hk

/-- A number has one value. -/
theorem equals_unique {x : Number} {m n : Nat} (hm : x.Equals m) (hn : x.Equals n) : m = n := by
  obtain ⟨bits, rfl, -⟩ := id hm
  exact (Number.Equals.toNat_eq hm).symm.trans (Number.Equals.toNat_eq hn)

/-- What the service reads of an accepted setting is exact just where the seconds are a
double. Then a token lives as long as the response says, if its milliseconds and the second
of its end are doubles too and the setting is short enough. -/
theorem lifetime_agrees (library : SigningLibrary) (iat : Nat) {secret : Option JsString}
    {expiresIn : JsString} (haccepted : assertJwtConfig secret expiresIn = .ok ()) :
    (ReadExactly expiresIn ↔
      0 < countOf expiresIn ∧ Representable (countOf expiresIn * unitOf expiresIn)) ∧
    (0 < countOf expiresIn → expiresIn.length ≤ 100 →
      Representable (countOf expiresIn * unitOf expiresIn * 1000) →
      Representable (iat + countOf expiresIn * unitOf expiresIn) →
        Agrees library iat expiresIn) ∧
    (Agrees library iat expiresIn → 0 < countOf expiresIn ∧ expiresIn.length ≤ 100 ∧
      Representable (countOf expiresIn * unitOf expiresIn) ∧
      Representable (iat + countOf expiresIn * unitOf expiresIn)) := by
  have hread := read_exactly_iff haccepted
  refine ⟨hread, fun hcount hlength hmillis hend => ?_, fun hagrees => ?_⟩
  · obtain ⟨count, u, k, hs⟩ := timespan_of_accepted haccepted
    obtain ⟨hcountOf, hunitOf⟩ := hs.parts
    have hk := (unit_facts hs.unit).1
    have hproduct : Representable (countOf expiresIn * unitOf expiresIn) := by
      refine hmillis.of_dvd ?_ (Nat.dvd_mul_right _ 1000)
      rw [hunitOf]
      exact Nat.mul_pos (Nat.mul_pos hcount hk) (by decide)
    have hexactly := hread.mpr ⟨hcount, hproduct⟩
    have hshort : count.length < 100 := by
      rw [hs.shape, List.length_append, List.length_singleton] at hlength
      exact hlength
    rw [hcountOf, hunitOf] at hmillis hend
    obtain ⟨e, hexp, hvalue⟩ :=
      library.adds iat count u k hs.nonempty hs.digits hs.unit hshort hmillis hend
    refine ⟨hexactly, ⟨e, toExpiresInSeconds expiresIn⟩, natOf count * k, ?_, ?_, hvalue⟩
    · rw [issueToken, hs.shape, hexp]
      rfl
    · have hexact := hexactly.exact
      rwa [hcountOf, hunitOf] at hexact
  · obtain ⟨issued, lifetime, hissued, hsays, hend⟩ := hagrees.signed
    obtain ⟨e, hexp, rfl⟩ := Option.map_eq_some_iff.mp hissued
    have hlifetime := equals_unique hsays hagrees.exact
    rw [hlifetime] at hend
    have hlength : expiresIn.length ≤ 100 := by
      by_contra hlong
      rw [library.refuses iat expiresIn (Nat.lt_of_not_le hlong)] at hexp
      cases hexp
    obtain ⟨hcount, hproduct⟩ := hread.mp hagrees.toReadExactly
    exact ⟨hcount, hlength, hproduct, hend.representable⟩

/-- A library that adds the seconds of the setting. -/
def sampleLibrary : SigningLibrary where
  exp := fun iat s =>
    if 100 < s.length then none else some (.ofNat (iat + countOf s * unitOf s))
  adds := by
    intro iat count u k hne hdigits hunit hshort _ hend
    obtain ⟨hcountOf, hunitOf⟩ :=
      (Timespan.mk rfl hne hdigits hunit : Timespan (count ++ [u]) count u k).parts
    rw [if_neg (by simp; omega), hcountOf, hunitOf]
    exact ⟨_, rfl, Number.ofNat_exact hend⟩
  refuses := fun _ _ hlong => if_pos hlong

def sampleSecret : JsString :=
  text "0123456789abcdef0123456789abcdef"

/-- Fifteen minutes are accepted and read as they are. -/
theorem lifetime_agrees_minutes : Agrees sampleLibrary 1700000000 (text "15m") :=
  (lifetime_agrees sampleLibrary 1700000000
    (show assertJwtConfig (some sampleSecret) (text "15m") = .ok () by decide)).2.1
      (by decide) (by decide) (representable_of_lt (by decide)) (representable_of_lt (by decide))

/-- A lifetime of no seconds passes the check at boot. -/
theorem zero_lifetime_accepted :
    assertJwtConfig (some sampleSecret) (text "0s") = .ok () ∧
      ¬ Agrees sampleLibrary 1700000000 (text "0s") := by
  refine ⟨by decide, fun hagrees => ?_⟩
  exact absurd hagrees.positive (by decide)

end JwtLifetime

end Mes
