import Mes.Js.Number

/-!
Whole numbers as doubles. `Number.ofNat` is exact where a double has the value, which
it has for the divisors of a value as well. A product of whole numbers is the exact one,
rounded.
-/

namespace Js

/-- There is a double of this value. -/
def Representable (n : Nat) : Prop :=
  ∃ bits : Fin FINITE, units bits = n * 2 ^ 1074

namespace Number

/-- The number has this value. -/
def Equals (x : Number) (n : Nat) : Prop :=
  ∃ bits : Fin FINITE, x = .finite false bits ∧ units bits = n * 2 ^ 1074

/-- The value of a whole magnitude. -/
def toNat (bits : Fin FINITE) : Nat :=
  units bits / 2 ^ 1074

/-- `x * k`, for whole `x` that is not negative, and `k` that is not zero. -/
def times (x : Number) (k : Nat) : Number :=
  match x with
  | .finite _ bits => ofNat (toNat bits * k)
  | .infinite negative => .infinite negative

theorem Equals.representable {x : Number} {n : Nat} (hx : x.Equals n) : Representable n := by
  obtain ⟨bits, -, hvalue⟩ := hx
  exact ⟨bits, hvalue⟩

end Number

/-! ### Significands -/

/-- A magnitude that is not subnormal has a significand with its leading bit. -/
theorem units_normal {bits : Nat} (hlarge : 2 ^ 52 ≤ units bits) :
    ∃ e s, 2 ^ 52 ≤ s ∧ s < 2 ^ 53 ∧ bits = e * 2 ^ 52 + s ∧ units bits = s * 2 ^ e := by
  obtain ⟨e, f, hf, rfl⟩ : ∃ e f, f < 2 ^ 52 ∧ bits = 2 ^ 52 * e + f :=
    ⟨bits / 2 ^ 52, bits % 2 ^ 52, Nat.mod_lt _ (by positivity), (Nat.div_add_mod _ _).symm⟩
  rw [units_eq e f hf] at hlarge ⊢
  cases e with
  | zero =>
      rw [if_pos rfl] at hlarge
      omega
  | succ e =>
      rw [if_neg (Nat.succ_ne_zero e), Nat.add_sub_cancel]
      exact ⟨e, 2 ^ 52 + f, by omega, by omega, by ring, rfl⟩

theorem units_of_significand {e s : Nat} (hlow : 2 ^ 52 ≤ s) (hhigh : s < 2 ^ 53) :
    units (e * 2 ^ 52 + s) = s * 2 ^ e := by
  have hsplit : e * 2 ^ 52 + s = 2 ^ 52 * (e + 1) + (s - 2 ^ 52) := by omega
  rw [hsplit, units_eq (e + 1) (s - 2 ^ 52) (by omega), if_neg (Nat.succ_ne_zero e),
    Nat.add_sub_cancel, Nat.add_sub_cancel' hlow]

/-- The exponent of a significand is that of the value. -/
theorem log2_significand {e s : Nat} (hlow : 2 ^ 52 ≤ s) (hhigh : s < 2 ^ 53) :
    (s * 2 ^ e).log2 = 52 + e := by
  rw [Nat.log2_eq_iff (by positivity)]
  constructor
  · rw [pow_add]
    exact Nat.mul_le_mul_right _ hlow
  · have hpow : 2 ^ (52 + e + 1) = 2 ^ 53 * 2 ^ e := by ring
    rw [hpow]
    exact Nat.mul_lt_mul_of_pos_right hhigh (by positivity)

theorem log2_mul_two_pow {n : Nat} (hn : 0 < n) (k : Nat) : (n * 2 ^ k).log2 = n.log2 + k := by
  have hlow : 2 ^ n.log2 ≤ n := Nat.log2_self_le hn.ne'
  have hhigh : n < 2 ^ (n.log2 + 1) := Nat.lt_log2_self
  rw [Nat.log2_eq_iff (by positivity)]
  constructor
  · rw [pow_add]
    exact Nat.mul_le_mul_right _ hlow
  · have hpow : 2 ^ (n.log2 + k + 1) = 2 ^ (n.log2 + 1) * 2 ^ k := by ring
    rw [hpow]
    exact Nat.mul_lt_mul_of_pos_right hhigh (by positivity)

/-- A number of at most 53 bits is shifted until it has its leading bit. -/
theorem exists_normal {n : Nat} (hpos : 0 < n) (hlt : n < 2 ^ 53) :
    ∃ i, n.log2 + i = 52 ∧ 2 ^ 52 ≤ n * 2 ^ i ∧ n * 2 ^ i < 2 ^ 53 := by
  have hlog : n.log2 < 53 := (Nat.log2_lt hpos.ne').mpr hlt
  obtain ⟨i, hi⟩ : ∃ i, n.log2 + i = 52 := ⟨52 - n.log2, by omega⟩
  have hne : n * 2 ^ i ≠ 0 := (Nat.mul_pos hpos (Nat.two_pow_pos i)).ne'
  have hlog2 : (n * 2 ^ i).log2 = 52 := by rw [log2_mul_two_pow hpos, hi]
  exact ⟨i, hi, (Nat.log2_eq_iff hne).mp hlog2⟩

/-- A multiple of the magnitude of one is not subnormal. -/
theorem le_scaled {n k : Nat} (hn : 0 < n) (hk : 52 ≤ k) : 2 ^ 52 ≤ n * 2 ^ k := by
  calc 2 ^ 52 ≤ 2 ^ k := Nat.pow_le_pow_right (by decide) hk
    _ = 1 * 2 ^ k := (Nat.one_mul _).symm
    _ ≤ n * 2 ^ k := Nat.mul_le_mul_right _ hn

theorem units_large {bits n : Nat} (hn : 0 < n) (hvalue : units bits = n * 2 ^ 1074) :
    2 ^ 52 ≤ units bits := by
  rw [hvalue]
  exact le_scaled hn (by decide)

namespace Number

theorem ofNat_zero : (ofNat 0).Equals 0 := by
  refine ⟨⟨0, by decide⟩, by decide, ?_⟩
  rw [Nat.zero_mul]
  decide

theorem ofNat_exact {n : Nat} (hn : Representable n) : (ofNat n).Equals n := by
  obtain ⟨bits, hvalue⟩ := hn
  rcases Nat.eq_zero_or_pos n with rfl | hpos
  · exact ofNat_zero
  · obtain ⟨e, s, hlow, hhigh, hbits, hunits⟩ := units_normal (units_large hpos hvalue)
    have hscaled : s * 2 ^ e = n * 2 ^ 1074 := hunits.symm.trans hvalue
    have hexponent : 52 + e = n.log2 + 1074 := by
      rw [← log2_significand hlow hhigh, hscaled, log2_mul_two_pow hpos]
    obtain rfl : e = n.log2 + 1022 := by omega
    have hsignificand : n * 2 ^ 52 = s * 2 ^ n.log2 := by
      have hsum : 1074 = 52 + 1022 := rfl
      rw [hsum, pow_add, ← Nat.mul_assoc, pow_add, ← Nat.mul_assoc] at hscaled
      exact (Nat.eq_of_mul_eq_mul_right (by positivity) hscaled).symm
    have hquotient : n * 2 ^ 52 / 2 ^ n.log2 = s := by
      rw [hsignificand, Nat.mul_div_cancel _ (by positivity)]
    have hrest : n * 2 ^ 52 % 2 ^ n.log2 = 0 := by
      rw [hsignificand, Nat.mul_mod_left]
    have hexact : (1022 + n.log2) * 2 ^ 52 + s = bits.val := by
      rw [hbits, Nat.add_comm 1022]
    refine ⟨bits, ?_, hvalue⟩
    simp only [ofNat]
    rw [hquotient, hrest, if_neg hpos.ne', hexact]
    have hdown : (decide (2 ^ n.log2 < 2 * 0) || 2 ^ n.log2 == 2 * 0 && s % 2 == 1) = false := by
      simp
    rw [hdown, if_neg Bool.false_ne_true, Nat.add_zero, dif_pos bits.isLt]

end Number

/-- Every number of at most 53 bits is a value. -/
theorem representable_of_lt {n : Nat} (hn : n < 2 ^ 53) : Representable n := by
  rcases Nat.eq_zero_or_pos n with rfl | hpos
  · exact (Number.ofNat_zero).representable
  · obtain ⟨i, hi, hnormal⟩ := exists_normal hpos hn
    have hfinite : (n.log2 + 1022) * 2 ^ 52 + n * 2 ^ i < FINITE := by
      unfold FINITE
      omega
    refine ⟨⟨_, hfinite⟩, ?_⟩
    have hsum : i + (n.log2 + 1022) = 1074 := by omega
    rw [units_of_significand hnormal.1 hnormal.2, Nat.mul_assoc, ← pow_add, hsum]

/-- The divisors of a value are values. -/
theorem Representable.of_dvd {c n : Nat} (hn : Representable n) (hpos : 0 < n) (hdvd : c ∣ n) :
    Representable c := by
  obtain ⟨bits, hvalue⟩ := hn
  obtain ⟨e, s, hlow, hhigh, hbits, hunits⟩ := units_normal (units_large hpos hvalue)
  have hscaled : c * 2 ^ 1074 ∣ s * 2 ^ e := by
    rw [← hunits, hvalue]
    exact Nat.mul_dvd_mul_right hdvd _
  -- a divisor of the value is a divisor of the significand times a power of two
  obtain ⟨s', p, hs', hp, hproduct⟩ := Nat.dvd_mul.mp hscaled
  obtain ⟨j, hj, rfl⟩ := (Nat.dvd_prime_pow Nat.prime_two).mp hp
  have hcpos : 0 < c := Nat.pos_of_dvd_of_pos hdvd hpos
  have hs'pos : 0 < s' := Nat.pos_of_dvd_of_pos hs' (by omega)
  have hs'lt : s' < 2 ^ 53 := Nat.lt_of_le_of_lt (Nat.le_of_dvd (by omega) hs') hhigh
  have hexponents : s'.log2 + j = c.log2 + 1074 := by
    rw [← log2_mul_two_pow hs'pos, hproduct, log2_mul_two_pow hcpos]
  obtain ⟨i, hi, hnormal⟩ := exists_normal hs'pos hs'lt
  have hshift : s' * 2 ^ i * 2 ^ (j - i) = c * 2 ^ 1074 := by
    rw [Nat.mul_assoc, ← pow_add, ← hproduct]
    congr 2
    omega
  have hfinite : (j - i) * 2 ^ 52 + s' * 2 ^ i < FINITE := by
    have hbound : bits.val < FINITE := bits.isLt
    have hle : (j - i) * 2 ^ 52 + s' * 2 ^ i ≤ bits.val := by
      have hmono : units ((j - i) * 2 ^ 52 + s' * 2 ^ i) ≤ units bits.val := by
        rw [units_of_significand hnormal.1 hnormal.2, hshift, hvalue]
        exact Nat.mul_le_mul_right _ (Nat.le_of_dvd hpos hdvd)
      exact units_strictMono.le_iff_le.mp hmono
    omega
  exact ⟨⟨_, hfinite⟩, by rw [units_of_significand hnormal.1 hnormal.2, hshift]⟩

namespace Number

theorem Equals.toNat_eq {bits : Fin FINITE} {n : Nat}
    (hx : (Number.finite false bits).Equals n) : toNat bits = n := by
  obtain ⟨bits', heq, hvalue⟩ := hx
  obtain ⟨-, rfl⟩ := Number.finite.inj heq
  rw [toNat, hvalue, Nat.mul_div_cancel _ (by positivity)]

/-- A product is exact where it is representable. -/
theorem times_exact {n k : Nat} (hn : 0 < n) (hk : 0 < k) (hproduct : Representable (n * k)) :
    (times (ofNat n) k).Equals (n * k) := by
  have hfactor := hproduct.of_dvd (Nat.mul_pos hn hk) (Nat.dvd_mul_right n k)
  obtain ⟨bits, heq, hvalue⟩ := ofNat_exact hfactor
  have hbits : toNat bits = n := Equals.toNat_eq ⟨bits, rfl, hvalue⟩
  simp only [heq, times]
  rw [hbits]
  exact ofNat_exact hproduct

end Number

end Js
