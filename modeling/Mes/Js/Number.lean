import Mathlib.Data.List.TakeWhile
import Mathlib.Data.Nat.Digits.Lemmas
import Mes.Js.Text

/-!
Numbers of JavaScript as `JSON.parse` makes them: IEEE doubles, without NaN. A
finite magnitude is given by its exponent and fraction bits, read as one number;
the order of these is the order of the magnitudes, and a real number rounds to
the magnitude that is nearest, to the even one of two.

`Number.toString` is `Number::toString` of the language. It prints the shortest
decimal that rounds to the number, so the number can be read back from it.
-/

namespace Js

/-! ### Magnitudes -/

/-- The number of finite magnitudes. -/
def FINITE : Nat := 2047 * 2 ^ 52

/-- A magnitude as a multiple of the smallest one, `2 ^ -1074`. -/
def units (bits : Nat) : Nat :=
  if bits / 2 ^ 52 = 0 then bits % 2 ^ 52
  else (2 ^ 52 + bits % 2 ^ 52) * 2 ^ (bits / 2 ^ 52 - 1)

theorem units_eq (e f : Nat) (hf : f < 2 ^ 52) :
    units (2 ^ 52 * e + f) = if e = 0 then f else (2 ^ 52 + f) * 2 ^ (e - 1) := by
  have hdiv : (2 ^ 52 * e + f) / 2 ^ 52 = e := by
    rw [Nat.mul_add_div (by positivity), Nat.div_eq_of_lt hf, Nat.add_zero]
  have hmod : (2 ^ 52 * e + f) % 2 ^ 52 = f := by
    rw [Nat.mul_add_mod, Nat.mod_eq_of_lt hf]
  unfold units
  rw [hdiv, hmod]

theorem units_lt_succ (bits : Nat) : units bits < units (bits + 1) := by
  obtain ⟨e, f, hf, rfl⟩ : ∃ e f, f < 2 ^ 52 ∧ bits = 2 ^ 52 * e + f :=
    ⟨bits / 2 ^ 52, bits % 2 ^ 52, Nat.mod_lt _ (by positivity), (Nat.div_add_mod _ _).symm⟩
  rw [units_eq e f hf]
  rcases Nat.lt_or_ge (f + 1) (2 ^ 52) with hnext | hlast
  · -- the same exponent
    rw [Nat.add_assoc, units_eq e (f + 1) hnext]
    split
    · exact Nat.lt_succ_self f
    · exact Nat.mul_lt_mul_of_pos_right (by omega) (by positivity)
  · -- the fraction runs over
    have hfull : f + 1 = 2 ^ 52 := Nat.le_antisymm hf hlast
    have hover : 2 ^ 52 * e + f + 1 = 2 ^ 52 * (e + 1) + 0 := by
      rw [Nat.add_assoc, hfull, Nat.mul_succ, Nat.add_zero]
    rw [hover, units_eq (e + 1) 0 (by positivity), if_neg (Nat.succ_ne_zero e)]
    simp only [Nat.add_zero, Nat.add_sub_cancel]
    cases e with
    | zero =>
        rw [if_pos rfl, pow_zero, Nat.mul_one]
        exact hf
    | succ e =>
        have hdouble : 2 ^ (e + 1) = 2 * 2 ^ e := pow_succ' 2 e
        rw [if_neg (Nat.succ_ne_zero e), Nat.add_sub_cancel, hdouble, ← Nat.mul_assoc]
        exact Nat.mul_lt_mul_of_pos_right (by omega) (by positivity)

theorem units_strictMono : StrictMono units :=
  strictMono_nat_of_lt_succ units_lt_succ

/-- The number `q`, in multiples of the smallest magnitude, rounds to this magnitude:
it lies between the middles to its neighbours, and in the middle only if the
magnitude is even. -/
def RoundsTo (q : ℚ) (bits : Nat) : Prop :=
  if bits % 2 = 0 then
    (units (bits - 1) + units bits : ℚ) ≤ 2 * q ∧ 2 * q ≤ units bits + units (bits + 1)
  else
    (units (bits - 1) + units bits : ℚ) < 2 * q ∧ 2 * q < units bits + units (bits + 1)

instance (q : ℚ) (bits : Nat) : Decidable (RoundsTo q bits) := by
  unfold RoundsTo
  infer_instance

theorem RoundsTo.le {q : ℚ} {bits : Nat} (hrounds : RoundsTo q bits) :
    (units (bits - 1) + units bits : ℚ) ≤ 2 * q ∧ 2 * q ≤ units bits + units (bits + 1) := by
  unfold RoundsTo at hrounds
  split at hrounds
  · exact hrounds
  · exact ⟨hrounds.1.le, hrounds.2.le⟩

theorem RoundsTo.not_lt {q : ℚ} {b b' : Nat} (hb : RoundsTo q b) (hb' : RoundsTo q b') :
    ¬ b < b' := by
  intro hlt
  have hfirst : units b ≤ units (b' - 1) :=
    units_strictMono.monotone (Nat.le_sub_one_of_lt hlt)
  have hsecond : units (b + 1) ≤ units b' := units_strictMono.monotone hlt
  have hle : (units b + units (b + 1) : ℚ) ≤ units (b' - 1) + units b' := by
    exact_mod_cast Nat.add_le_add hfirst hsecond
  have hupper := hb.le.2
  have hlower := hb'.le.1
  -- both bounds are met, so both magnitudes are even, and there is another in between
  have hboth : b % 2 = 0 ∧ b' % 2 = 0 := by
    constructor
    · by_contra hodd
      rw [RoundsTo, if_neg hodd] at hb
      linarith [hb.2]
    · by_contra hodd
      rw [RoundsTo, if_neg hodd] at hb'
      linarith [hb'.1]
  have hgap : units b < units (b' - 1) := units_strictMono (by omega)
  have hstrict : (units b + units (b + 1) : ℚ) < units (b' - 1) + units b' := by
    exact_mod_cast Nat.add_lt_add_of_lt_of_le hgap hsecond
  linarith

/-- A number rounds to one magnitude only. -/
theorem RoundsTo.unique {q : ℚ} {b b' : Nat} (hb : RoundsTo q b) (hb' : RoundsTo q b') :
    b = b' := by
  rcases Nat.lt_trichotomy b b' with hlt | heq | hgt
  · exact absurd hlt (hb.not_lt hb')
  · exact heq
  · exact absurd hgt (hb'.not_lt hb)

/-- Every magnitude rounds to itself. -/
theorem roundsTo_units (bits : Nat) : RoundsTo (units bits) bits := by
  have hbelow : units (bits - 1) ≤ units bits := units_strictMono.monotone (Nat.sub_le _ _)
  have habove : units bits < units (bits + 1) := units_lt_succ bits
  have hbelow' : (units (bits - 1) : ℚ) ≤ units bits := by exact_mod_cast hbelow
  have habove' : (units bits : ℚ) < units (bits + 1) := by exact_mod_cast habove
  unfold RoundsTo
  split
  · constructor <;> linarith
  · rename_i hodd
    have hlt : units (bits - 1) < units bits := units_strictMono (by omega)
    have hlt' : (units (bits - 1) : ℚ) < units bits := by exact_mod_cast hlt
    constructor <;> linarith

/-! ### Decimals -/

/-- The decimal `s * 10 ^ p`. -/
structure Decimal where
  s : Nat
  p : Int
  deriving DecidableEq, Repr

def Decimal.value (d : Decimal) : ℚ :=
  d.s * 10 ^ d.p

/-- The value of a magnitude. -/
def magnitude (bits : Nat) : ℚ :=
  units bits / 2 ^ 1074

/-- All digits of a magnitude. -/
def Decimal.exact (bits : Nat) : Decimal where
  s := units bits * 5 ^ 1074
  p := -1074

theorem Decimal.exact_value (bits : Nat) : (Decimal.exact bits).value = magnitude bits := by
  have hten : (10 : ℚ) ^ (-1074 : Int) = 1 / (2 ^ 1074 * 5 ^ 1074) := by
    have hbase : (2 : ℚ) * 5 = 10 := by norm_num
    rw [← mul_pow, hbase, zpow_neg, ← one_div]
    rfl
  have hfive : (5 : ℚ) ^ 1074 ≠ 0 := pow_ne_zero 1074 (by norm_num)
  unfold Decimal.value Decimal.exact magnitude
  rw [hten, Nat.cast_mul, Nat.cast_pow, Nat.cast_ofNat, mul_one_div]
  exact mul_div_mul_right _ _ hfive

/-- The decimals of `k` digits next to a magnitude that round to it. The larger of
two neighbours stands first where it is the even one. -/
def rounding (bits k : Nat) : List Decimal :=
  (List.range 649).flatMap fun i =>
    let p : Int := i - 340
    let below := ⌊magnitude bits / 10 ^ p⌋.toNat
    let near := if below % 2 = 0 then [below, below + 1] else [below + 1, below]
    (near.map fun s => Decimal.mk s p).filter fun d =>
      decide (10 ^ (k - 1) ≤ d.s ∧ d.s < 10 ^ k ∧ RoundsTo (d.value * 2 ^ 1074) bits)

/-- The decimal with the fewest digits that rounds to a magnitude, the closest one of
several. Seventeen digits are always enough. -/
@[irreducible]
def shortest (bits : Nat) : Decimal :=
  ((List.range 18).findSome? fun k =>
    (rounding bits k).argmin fun d => |d.value - magnitude bits|).getD (.exact bits)

theorem shortest_rounds (bits : Nat) : RoundsTo ((shortest bits).value * 2 ^ 1074) bits := by
  unfold shortest
  cases hfound : (List.range 18).findSome? fun k =>
      (rounding bits k).argmin fun d => |d.value - magnitude bits| with
  | some d =>
      obtain ⟨k, -, hargmin⟩ := List.exists_of_findSome?_eq_some hfound
      have hmem : d ∈ rounding bits k := List.argmin_mem hargmin
      obtain ⟨i, -, hmem⟩ := List.mem_flatMap.mp hmem
      exact (of_decide_eq_true (List.mem_filter.mp hmem).2).2.2
  | none =>
      have hunits : magnitude bits * 2 ^ 1074 = units bits :=
        div_mul_cancel₀ _ (by positivity)
      rw [Option.getD_none, Decimal.exact_value, hunits]
      exact roundsTo_units bits

/-! ### Digits -/

def ZERO : UInt16 := unit '0'
def POINT : UInt16 := unit '.'
def EXPONENT : UInt16 := unit 'e'
def PLUS : UInt16 := unit '+'
def MINUS : UInt16 := unit '-'

def isDigit (c : UInt16) : Bool :=
  decide (48 ≤ c ∧ c ≤ 57)

def digit (d : Nat) : UInt16 :=
  .ofNat (48 + d)

def digitValue (c : UInt16) : Nat :=
  c.toNat - 48

theorem digit_spec : ∀ d < 10, isDigit (digit d) = true ∧ digitValue (digit d) = d := by
  decide

def digitsOf (s : Nat) : JsString :=
  (Nat.digits 10 s).reverse.map digit

def zeros (k : Nat) : JsString :=
  List.replicate k ZERO

/-- The number that a list of digits writes. -/
def natOf (s : JsString) : Nat :=
  s.foldl (fun n c => 10 * n + digitValue c) 0

def Digits (s : JsString) : Prop :=
  ∀ c ∈ s, isDigit c = true

theorem Digits.append {s t : JsString} (hs : Digits s) (ht : Digits t) : Digits (s ++ t) := by
  intro c hc
  rcases List.mem_append.mp hc with hc | hc
  · exact hs c hc
  · exact ht c hc

theorem Digits.take {s : JsString} (hs : Digits s) (n : Nat) : Digits (s.take n) :=
  fun c hc => hs c (List.mem_of_mem_take hc)

theorem Digits.drop {s : JsString} (hs : Digits s) (n : Nat) : Digits (s.drop n) :=
  fun c hc => hs c (List.mem_of_mem_drop hc)

theorem digits_zeros (k : Nat) : Digits (zeros k) := by
  intro c hc
  rw [List.eq_of_mem_replicate hc]
  decide

theorem digits_digitsOf (s : Nat) : Digits (digitsOf s) := by
  intro c hc
  obtain ⟨d, hd, rfl⟩ := List.mem_map.mp hc
  exact (digit_spec d (Nat.digits_lt_base (by omega) (List.mem_reverse.mp hd))).1

theorem Digits.not_mem {s : JsString} (hs : Digits s) {c : UInt16} (hc : isDigit c = false) :
    c ∉ s := by
  intro hmem
  rw [hs c hmem] at hc
  cases hc

theorem natOf_concat (s : JsString) (c : UInt16) :
    natOf (s ++ [c]) = 10 * natOf s + digitValue c := by
  unfold natOf
  rw [List.foldl_append]
  rfl

theorem natOf_digitsOf (s : Nat) : natOf (digitsOf s) = s := by
  have hlist : ∀ l : List Nat, (∀ d ∈ l, d < 10) →
      natOf (l.reverse.map digit) = Nat.ofDigits 10 l := by
    intro l
    induction l with
    | nil => intro _; rfl
    | cons d l ih =>
        intro hl
        have hd := (digit_spec d (hl d List.mem_cons_self)).2
        rw [List.reverse_cons, List.map_append, List.map_cons, List.map_nil, natOf_concat, hd,
          ih fun d' hd' => hl d' (List.mem_cons_of_mem d hd'), Nat.ofDigits_cons]
        omega
  unfold digitsOf
  rw [hlist _ fun d hd => Nat.digits_lt_base (by omega) hd, Nat.ofDigits_digits]

theorem natOf_zeros_append (k : Nat) (s : JsString) : natOf (zeros k ++ s) = natOf s := by
  induction k with
  | zero => rfl
  | succ k ih => exact ih

theorem natOf_append_zeros (s : JsString) (k : Nat) : natOf (s ++ zeros k) = natOf s * 10 ^ k := by
  induction k with
  | zero => rw [zeros, List.replicate_zero, List.append_nil, pow_zero, Nat.mul_one]
  | succ k ih =>
      have hsnoc : s ++ zeros (k + 1) = s ++ zeros k ++ [ZERO] := by
        rw [List.append_assoc]
        exact congrArg (s ++ ·) List.replicate_succ'
      rw [hsnoc, natOf_concat, ih, pow_succ]
      show 10 * (natOf s * 10 ^ k) + 0 = _
      ring

/-! ### Printing -/

/-- How the digits of a decimal are laid out: those before the point, those after it,
and the exponent. -/
structure Layout where
  whole : JsString
  fraction : JsString
  exponent : Int

def Decimal.layout (d : Decimal) : Layout :=
  let digits := digitsOf d.s
  let k : Int := digits.length
  let n := k + d.p
  if k ≤ n ∧ n ≤ 21 then ⟨digits ++ zeros (n - k).toNat, [], 0⟩
  else if 0 < n ∧ n ≤ 21 then ⟨digits.take n.toNat, digits.drop n.toNat, 0⟩
  else if -6 < n ∧ n ≤ 0 then ⟨[ZERO], zeros (-n).toNat ++ digits, 0⟩
  else ⟨digits.take 1, digits.drop 1, n - 1⟩

def Layout.print (l : Layout) : JsString :=
  l.whole ++ (if l.fraction = [] then [] else POINT :: l.fraction) ++
    if l.exponent = 0 then []
    else EXPONENT :: (if 0 < l.exponent then PLUS else MINUS) :: digitsOf l.exponent.natAbs

/-- A number that `JSON.parse` makes of a numeral. -/
inductive Number where
  | finite (negative : Bool) (bits : Fin FINITE)
  | infinite (negative : Bool)
  deriving DecidableEq

namespace Number

def sign (negative : Bool) : JsString :=
  if negative then [MINUS] else []

/-- `Number::toString`. -/
def toString : Number → JsString
  | .finite negative bits =>
      if bits.val = 0 then [ZERO]
      else sign negative ++ (shortest bits.val).layout.print
  | .infinite negative => sign negative ++ text "Infinity"

/-- The double nearest to an integer. Adding the significand, which has its leading bit,
carries into the exponent. -/
def ofNat (n : Nat) : Number :=
  let e := n.log2
  let s := n * 2 ^ 52 / 2 ^ e
  let rest := n * 2 ^ 52 % 2 ^ e
  let up := 2 ^ e < 2 * rest || (2 ^ e == 2 * rest && s % 2 == 1)
  let bits := if n = 0 then 0 else (1022 + e) * 2 ^ 52 + s + if up then 1 else 0
  if h : bits < FINITE then .finite false ⟨bits, h⟩ else .infinite false

/-- The number without the sign of a zero. -/
def unsigned : Number → Number
  | .finite negative bits => .finite (negative && decide (bits.val ≠ 0)) bits
  | .infinite negative => .infinite negative

end Number

/-! ### Reading back -/

/-- What stands before the first `c`, and what after it. -/
def cut (c : UInt16) (s : JsString) : JsString × JsString :=
  (s.takeWhile (· ≠ c), (s.dropWhile (· ≠ c)).drop 1)

theorem cut_absent {c : UInt16} {s : JsString} (hc : c ∉ s) : cut c s = (s, []) := by
  have hall : ∀ d ∈ s, decide (d ≠ c) = true := by
    intro d hd
    exact decide_eq_true fun heq => hc (heq ▸ hd)
  unfold cut
  rw [List.takeWhile_eq_self_iff.mpr hall, List.dropWhile_eq_nil_iff.mpr hall]
  rfl

theorem cut_at {c : UInt16} {s : JsString} (hc : c ∉ s) (t : JsString) :
    cut c (s ++ c :: t) = (s, t) := by
  have hall : ∀ d ∈ s, decide (d ≠ c) = true := by
    intro d hd
    exact decide_eq_true fun heq => hc (heq ▸ hd)
  unfold cut
  rw [List.takeWhile_append_of_pos hall, List.dropWhile_append_of_pos hall]
  simp

def readExponent : JsString → Int
  | [] => 0
  | c :: rest => if c = MINUS then -(natOf rest : Int) else natOf rest

def readDecimal (s : JsString) : ℚ :=
  let (mantissa, exponent) := cut EXPONENT s
  let (whole, fraction) := cut POINT mantissa
  natOf (whole ++ fraction) * 10 ^ (readExponent exponent - fraction.length)

/-- What a layout writes. -/
def Layout.value (l : Layout) : ℚ :=
  natOf (l.whole ++ l.fraction) * 10 ^ (l.exponent - l.fraction.length)

theorem readDecimal_print {l : Layout} (hwhole : Digits l.whole) (hfraction : Digits l.fraction) :
    readDecimal l.print = l.value := by
  have hpoint : cut POINT (l.whole ++ if l.fraction = [] then [] else POINT :: l.fraction) =
      (l.whole, l.fraction) := by
    split
    · rename_i hnone
      rw [List.append_nil, cut_absent (hwhole.not_mem (by decide)), hnone]
    · exact cut_at (hwhole.not_mem (by decide)) _
  have hmantissa : EXPONENT ∉
      l.whole ++ if l.fraction = [] then [] else POINT :: l.fraction := by
    intro hmem
    rcases List.mem_append.mp hmem with hmem | hmem
    · exact hwhole.not_mem (by decide) hmem
    · split at hmem
      · exact absurd hmem List.not_mem_nil
      · rcases List.mem_cons.mp hmem with heq | hmem
        · exact absurd heq (by decide)
        · exact hfraction.not_mem (by decide) hmem
  have hexponent : cut EXPONENT l.print =
      (l.whole ++ (if l.fraction = [] then [] else POINT :: l.fraction),
        if l.exponent = 0 then []
        else (if 0 < l.exponent then PLUS else MINUS) :: digitsOf l.exponent.natAbs) := by
    unfold Layout.print
    by_cases hnone : l.exponent = 0
    · rw [if_pos hnone, if_pos hnone, List.append_nil, cut_absent hmantissa]
    · rw [if_neg hnone, if_neg hnone]
      exact cut_at hmantissa _
  have hread : readExponent (if l.exponent = 0 then []
      else (if 0 < l.exponent then PLUS else MINUS) :: digitsOf l.exponent.natAbs) =
        l.exponent := by
    split
    · rename_i hzero
      exact hzero.symm
    · unfold readExponent
      dsimp only
      rw [natOf_digitsOf]
      split <;> rename_i hsign
      · rw [if_neg (by decide)]
        omega
      · rw [if_pos rfl]
        omega
  unfold readDecimal Layout.value
  rw [hexponent]
  dsimp only
  rw [hpoint, hread]

theorem Decimal.layout_digits (d : Decimal) :
    Digits d.layout.whole ∧ Digits d.layout.fraction := by
  have hdigits := digits_digitsOf d.s
  unfold Decimal.layout
  dsimp only
  split_ifs
  · exact ⟨hdigits.append (digits_zeros _), fun c hc => absurd hc List.not_mem_nil⟩
  · exact ⟨hdigits.take _, hdigits.drop _⟩
  · exact ⟨digits_zeros 1, (digits_zeros _).append hdigits⟩
  · exact ⟨hdigits.take _, hdigits.drop _⟩

theorem Decimal.layout_value (d : Decimal) : d.layout.value = d.value := by
  have hs : natOf (digitsOf d.s) = d.s := natOf_digitsOf d.s
  have hten : (10 : ℚ) ≠ 0 := by norm_num
  unfold Layout.value Decimal.layout Decimal.value
  dsimp only
  split_ifs with hinteger hpoint hsmall <;> dsimp only
  · -- the digits and zeros after them
    obtain ⟨z, hz⟩ : ∃ z : Nat, d.p = z := ⟨d.p.toNat, by omega⟩
    have htoNat : ((digitsOf d.s).length + d.p - (digitsOf d.s).length : Int).toNat = z := by
      omega
    rw [htoNat, List.append_nil, natOf_append_zeros, hs, hz, List.length_nil, Nat.cast_zero,
      sub_zero, zpow_zero, mul_one, zpow_natCast, Nat.cast_mul, Nat.cast_pow, Nat.cast_ofNat]
  · -- the point among the digits
    rw [List.take_append_drop, hs, List.length_drop]
    congr 2
    omega
  · -- the point before the digits
    have hzero : natOf ([ZERO] ++ (zeros (-((digitsOf d.s).length + d.p : Int)).toNat ++
        digitsOf d.s)) = natOf (digitsOf d.s) :=
      (natOf_zeros_append 1 _).trans (natOf_zeros_append _ _)
    rw [hzero, hs, List.length_append, zeros, List.length_replicate]
    congr 2
    omega
  · -- one digit before the point, and the exponent
    rw [List.take_append_drop, hs, List.length_drop]
    cases hdigits : digitsOf d.s with
    | nil =>
        have hnone : d.s = 0 := by
          rw [← hs, hdigits]
          rfl
        rw [hnone, Nat.cast_zero, zero_mul, zero_mul]
    | cons c rest =>
        congr 2
        simp only [List.length_cons]
        omega

theorem readDecimal_shortest (bits : Nat) :
    readDecimal (shortest bits).layout.print = (shortest bits).value := by
  obtain ⟨hwhole, hfraction⟩ := (shortest bits).layout_digits
  rw [readDecimal_print hwhole hfraction, Decimal.layout_value]

/-- A printed decimal has no sign. -/
theorem Layout.print_unsigned {l : Layout} (hwhole : Digits l.whole) (s : JsString) :
    l.print ≠ MINUS :: s := by
  unfold Layout.print
  intro heq
  cases hl : l.whole with
  | cons c rest =>
      rw [hl] at heq
      have hc : c = MINUS := (List.cons.inj heq).1
      have hdigit := hwhole c (hl ▸ List.mem_cons_self)
      rw [hc] at hdigit
      exact absurd hdigit (by decide)
  | nil =>
      rw [hl, List.nil_append] at heq
      by_cases hnone : l.fraction = []
      · rw [if_pos hnone, List.nil_append] at heq
        split at heq
        · cases heq
        · exact absurd (List.cons.inj heq).1 (by decide)
      · rw [if_neg hnone] at heq
        exact absurd (List.cons.inj heq).1 (by decide)

/-- The characters of a printed number. -/
def numberChar (c : UInt16) : Bool :=
  isDigit c || [POINT, EXPONENT, PLUS, MINUS].contains c

theorem numberChar_single {c : UInt16} (hc : numberChar c = true) : isSurrogate c = false := by
  rcases Bool.or_eq_true_iff.mp hc with hdigit | hother
  · simp only [isDigit, isSurrogate, isLead, isTrail, decide_eq_true_eq, Bool.or_eq_false_iff,
      decide_eq_false_iff_not, UInt16.le_iff_toNat_le, UInt16.reduceToNat] at hdigit ⊢
    omega
  · have hall : ∀ d ∈ [POINT, EXPONENT, PLUS, MINUS], isSurrogate d = false :=
      forall_mem_of_all (by decide)
    exact hall c (List.contains_iff_mem.mp hother)

theorem Digits.numberChar {s : JsString} (hs : Digits s) : ∀ c ∈ s, numberChar c = true :=
  fun c hc => Bool.or_eq_true_iff.mpr (Or.inl (hs c hc))

theorem Layout.print_chars {l : Layout} (hwhole : Digits l.whole)
    (hfraction : Digits l.fraction) : ∀ c ∈ l.print, numberChar c = true := by
  intro c hc
  unfold Layout.print at hc
  rcases List.mem_append.mp hc with hc | hc
  · rcases List.mem_append.mp hc with hc | hc
    · exact hwhole.numberChar c hc
    · split at hc
      · exact absurd hc List.not_mem_nil
      · rcases List.mem_cons.mp hc with rfl | hc
        · decide
        · exact hfraction.numberChar c hc
  · split at hc
    · exact absurd hc List.not_mem_nil
    · rcases List.mem_cons.mp hc with rfl | hc
      · decide
      · rcases List.mem_cons.mp hc with rfl | hc
        · split <;> decide
        · exact (digits_digitsOf _).numberChar c hc

namespace Number

theorem toString_finite (negative : Bool) (bits : Fin FINITE) :
    (Number.finite negative bits).toString =
      if bits.val = 0 then [ZERO] else sign negative ++ (shortest bits.val).layout.print := rfl

theorem toString_chars (negative : Bool) (bits : Fin FINITE) :
    ∀ c ∈ (Number.finite negative bits).toString, numberChar c = true := by
  obtain ⟨hwhole, hfraction⟩ := (shortest bits.val).layout_digits
  rw [toString_finite]
  intro c hc
  split at hc
  · rw [List.mem_singleton.mp hc]
    decide
  · rcases List.mem_append.mp hc with hc | hc
    · unfold sign at hc
      split at hc
      · rw [List.mem_singleton.mp hc]
        decide
      · exact absurd hc List.not_mem_nil
    · exact Layout.print_chars hwhole hfraction c hc

/-- The digits of a nonzero number are not those of zero. -/
theorem shortest_ne_zero {bits : Nat} (hbits : bits ≠ 0) :
    (shortest bits).value ≠ 0 := by
  intro hzero
  have hrounds := shortest_rounds bits
  rw [hzero, zero_mul] at hrounds
  exact hbits (hrounds.unique (roundsTo_units 0))

theorem toString_ne_nil (negative : Bool) (bits : Fin FINITE) :
    (Number.finite negative bits).toString ≠ [] := by
  rw [toString_finite]
  split
  · exact List.cons_ne_nil ZERO []
  · rename_i hbits
    intro hnil
    have hvalue := readDecimal_shortest bits.val
    rw [(List.append_eq_nil_iff.mp hnil).2] at hvalue
    exact shortest_ne_zero hbits (hvalue.symm.trans (zero_mul _))

/-- The sign and the decimal that a text writes. -/
def read (s : JsString) : Bool × ℚ :=
  if s.head? = some MINUS then (true, readDecimal s.tail) else (false, readDecimal s)

theorem readDecimal_zero : readDecimal [ZERO] = 0 := by
  have hprint : readDecimal (Layout.print ⟨[ZERO], [], 0⟩) = _ :=
    readDecimal_print (digits_zeros 1) fun c hc => absurd hc List.not_mem_nil
  exact hprint.trans (zero_mul _)

theorem read_toString (negative : Bool) (bits : Fin FINITE) :
    read (Number.finite negative bits).toString =
      if bits.val = 0 then (false, 0) else (negative, (shortest bits.val).value) := by
  rw [toString_finite]
  split
  · exact Prod.ext rfl readDecimal_zero
  · have hvalue := readDecimal_shortest bits.val
    cases negative with
    | true => exact Prod.ext rfl hvalue
    | false =>
        have hhead : (shortest bits.val).layout.print.head? ≠ some MINUS := by
          intro hhead
          obtain ⟨rest, hrest⟩ := List.head?_eq_some_iff.mp hhead
          exact Layout.print_unsigned (shortest bits.val).layout_digits.1 rest hrest
        show read (shortest bits.val).layout.print = _
        rw [read, if_neg hhead, hvalue]

/-- A finite number is told by its text, except for the sign of a zero. -/
theorem toString_inj {negative negative' : Bool} {bits bits' : Fin FINITE}
    (heq : (Number.finite negative bits).toString = (Number.finite negative' bits').toString) :
    (Number.finite negative bits).unsigned = (Number.finite negative' bits').unsigned := by
  have hread := congrArg read heq
  rw [read_toString, read_toString] at hread
  have hzero : ∀ b : Fin FINITE, b.val = 0 → b = ⟨0, by decide⟩ := fun b hb => Fin.ext hb
  unfold unsigned
  split at hread <;> rename_i hbits <;> split at hread <;> rename_i hbits'
  · rw [hzero bits hbits, hzero bits' hbits']
    simp
  · exact absurd (Prod.mk.inj hread).2.symm (shortest_ne_zero hbits')
  · exact absurd (Prod.mk.inj hread).2 (shortest_ne_zero hbits)
  · obtain ⟨rfl, hvalue⟩ := Prod.mk.inj hread
    have hrounds := shortest_rounds bits.val
    rw [hvalue] at hrounds
    obtain rfl : bits = bits' := Fin.ext (hrounds.unique (shortest_rounds bits'.val))
    rfl

end Number

end Js
