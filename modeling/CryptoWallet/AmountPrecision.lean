import CryptoWallet.Money
import Mathlib.Data.Nat.Digits.Lemmas
import Mathlib.Algebra.Order.Field.Power
import Mathlib.Tactic

/-!
# The precision of parsed amounts

An amount is scaled in an 80-digit context before it is tested for being an
integer, so a long coefficient is rounded first.  The rounding is read here as
one division that rounds half to even, and compared with the exact rational
value.  It decides when a number that is no integer comes out as one, and when
an integer comes out as another.
-/

namespace CryptoWallet
namespace Decimal

/-! ## Division rounding half to even -/

theorem divHalfEven_one (n : Nat) : divHalfEven n 1 = n := by
  have hmod : n % 1 = 0 := Nat.mod_one n
  simp [divHalfEven, hmod]

theorem divHalfEven_mul {n d : Nat} (hd : 0 < d) : divHalfEven (n * d) d = n := by
  unfold divHalfEven
  rw [Nat.mul_mod_left, Nat.mul_div_cancel n hd, if_neg]
  omega

/-- The dividend lies within half a divisor of the multiple that is chosen. -/
theorem divHalfEven_near {n d : Nat} (hd : 0 < d) :
    2 * n ≤ 2 * (divHalfEven n d * d) + d ∧ 2 * (divHalfEven n d * d) ≤ 2 * n + d := by
  have hsplit : n / d * d + n % d = n := Nat.div_add_mod' n d
  have hrest : n % d < d := Nat.mod_lt n hd
  unfold divHalfEven
  split
  next hup =>
    have hnext : (n / d + 1) * d = n / d * d + d := by ring
    rw [hnext]
    constructor <;> omega
  next hdown => constructor <;> omega

/-- A tie goes to the even side, so the quotient is a multiple of an even number as
soon as the dividend is within half a divisor of the corresponding multiple. -/
theorem dvd_divHalfEven_iff {n d k : Nat} (hd : 0 < d) (hk : 2 ∣ k) (hpos : 0 < k) :
    k ∣ divHalfEven n d ↔
      2 * (n % (d * k)) ≤ d ∨ 2 * (d * k - n % (d * k)) ≤ d := by
  have hsplit : n % (d * k) = n % d + d * (n / d % k) := Nat.mod_mul
  have hrest : n % d < d := Nat.mod_lt n hd
  have hlow : n / d % k < k := Nat.mod_lt _ hpos
  have hparity : n / d % 2 = n / d % k % 2 := (Nat.mod_mod_of_dvd _ hk).symm
  have heven : k % 2 = 0 := Nat.mod_eq_zero_of_dvd hk
  have hdvd : k ∣ n / d ↔ n / d % k = 0 := Nat.dvd_iff_mod_eq_zero
  have hdvdNext : k ∣ n / d + 1 ↔ n / d % k = k - 1 := by
    rw [Nat.dvd_iff_mod_eq_zero]
    constructor
    · intro h
      have hsum := Nat.add_mod (n / d) 1 k
      by_contra hne
      have hone : 1 % k = 1 := Nat.mod_eq_of_lt (by omega)
      rw [h, hone, Nat.mod_eq_of_lt (by omega)] at hsum
      omega
    · intro h
      have hsum := Nat.add_mod (n / d) 1 k
      have hone : 1 % k = 1 := Nat.mod_eq_of_lt (by omega)
      rw [hsum, hone, h]
      have htop : k - 1 + 1 = k := by omega
      rw [htop, Nat.mod_self]
  have htwice : 2 * d ≤ d * k := by nlinarith [Nat.le_of_dvd hpos hk]
  rw [hsplit]
  unfold divHalfEven
  by_cases hfirst : n / d % k = 0
  · rw [hfirst] at hparity hdvdNext ⊢
    split
    next hup => rw [hdvdNext]; omega
    next hdown => rw [hdvd]; omega
  · by_cases hlast : n / d % k = k - 1
    · have hlastMul : d * (k - 1) + d = d * k := by
        rw [← Nat.mul_succ]
        congr 1
        omega
      rw [hlast] at hparity hdvd ⊢
      split
      next hup => rw [hdvdNext]; omega
      next hdown => rw [hdvd]; omega
    · have hfloor : d ≤ d * (n / d % k) := Nat.le_mul_of_pos_right d (by omega)
      have hceil : d * (n / d % k) + 2 * d ≤ d * k := by
        calc d * (n / d % k) + 2 * d = d * (n / d % k + 2) := by ring
          _ ≤ d * k := Nat.mul_le_mul_left d (by omega)
      split
      next hup => rw [hdvdNext]; omega
      next hdown => rw [hdvd]; omega

/-- At or over the middle below the next power, the quotient is that power. -/
theorem divHalfEven_top {n d m : Nat} (hodd : m % 2 = 1) (hlow : (2 * m + 1) * d ≤ 2 * n)
    (hhigh : n < (m + 1) * d) : divHalfEven n d = m + 1 := by
  have hd : 0 < d := by
    by_contra hzero
    have hd0 : d = 0 := by omega
    simp [hd0] at hhigh
  have hquotient : n / d = m := by
    apply Nat.div_eq_of_lt_le
    · nlinarith
    · exact hhigh
  have hsplit : n / d * d + n % d = n := Nat.div_add_mod' n d
  rw [hquotient] at hsplit
  have hmiddle : d ≤ 2 * (n % d) := by nlinarith
  unfold divHalfEven
  rw [hquotient, if_pos]
  omega

/-! ## Decimal digits -/

theorem digitCount_eq (n : Nat) : digitCount n = (Nat.toDigits 10 n).length := by
  unfold digitCount
  rw [← String.length_toList]
  exact congrArg List.length Nat.toList_repr

theorem digitCount_le_iff {n k : Nat} (hk : 0 < k) : digitCount n ≤ k ↔ n < 10 ^ k := by
  rw [digitCount_eq]
  exact Nat.length_toDigits_le_iff (by omega) hk

theorem digitCount_pos (n : Nat) : 0 < digitCount n := by
  rw [digitCount_eq]
  exact Nat.length_toDigits_pos

theorem lt_pow_digitCount (n : Nat) : n < 10 ^ digitCount n :=
  (digitCount_le_iff (digitCount_pos n)).mp le_rfl

theorem pow_le_of_digitCount {n : Nat} (hn : 0 < n) : 10 ^ (digitCount n - 1) ≤ n := by
  by_cases hone : digitCount n - 1 = 0
  · rw [hone]
    omega
  · have hlt : ¬digitCount n ≤ digitCount n - 1 := by omega
    rw [digitCount_le_iff (by omega)] at hlt
    omega

/-! ## Exact values -/

/-- The exact distance from zero. -/
def magnitude (value : Decimal) : ℚ := value.coefficient * 10 ^ value.exponent

def toRat (value : Decimal) : ℚ :=
  if value.negative then -value.magnitude else value.magnitude

theorem magnitude_nonneg (value : Decimal) : 0 ≤ value.magnitude := by
  unfold magnitude
  positivity

theorem abs_toRat (value : Decimal) : |value.toRat| = value.magnitude := by
  have hnonneg := value.magnitude_nonneg
  unfold toRat
  split <;> simp [abs_of_nonneg hnonneg]

/-- An integer is read off a number exactly when the number is that integer. -/
theorem toIntegral?_eq_some_iff {value : Decimal} {n : Int} :
    value.toIntegral? = some n ↔ value.toRat = n := by
  have hsigned : ∀ magnitude : Nat,
      ((value.signed magnitude : Int) : ℚ) =
        if value.negative then -(magnitude : ℚ) else magnitude := by
    intro magnitude
    unfold signed
    split <;> simp
  unfold toIntegral?
  split
  next hexponent =>
    have hvalue : value.magnitude =
        ((value.coefficient * 10 ^ value.exponent.toNat : Nat) : ℚ) := by
      unfold magnitude
      rw [← Int.toNat_of_nonneg hexponent, zpow_natCast]
      push_cast
      rfl
    rw [toRat, hvalue, ← hsigned, Option.some.injEq, Int.cast_inj]
  next hexponent =>
    have hunit : 0 < 10 ^ (-value.exponent).toNat := by positivity
    have hvalue : value.magnitude * (10 ^ (-value.exponent).toNat : Nat) =
        value.coefficient := by
      have hneg : value.exponent = -((-value.exponent).toNat : Int) := by omega
      unfold magnitude
      generalize (-value.exponent).toNat = places at *
      rw [hneg, zpow_neg, zpow_natCast]
      push_cast
      field_simp
    dsimp only
    split
    next hdvd =>
      obtain ⟨quotient, hquotient⟩ := Nat.dvd_of_mod_eq_zero hdvd
      have hexact : value.magnitude = (quotient : ℚ) := by
        rw [hquotient, Nat.cast_mul, mul_comm] at hvalue
        exact mul_left_cancel₀ (by positivity) hvalue
      rw [toRat, hexact, hquotient, Nat.mul_div_cancel_left _ hunit, ← hsigned,
        Option.some.injEq, Int.cast_inj]
    next hdvd =>
      simp only [reduceCtorEq, false_iff]
      intro hn
      apply hdvd
      have hint : value.magnitude = (n.natAbs : ℚ) := by
        rw [← abs_toRat, hn, Nat.cast_natAbs, Int.cast_abs]
      rw [hint] at hvalue
      have hnat : n.natAbs * 10 ^ (-value.exponent).toNat = value.coefficient := by
        exact_mod_cast hvalue
      rw [← hnat]
      exact Nat.mul_mod_left _ _

/-! ## Rounding to the context -/

/-- How many low digits of the coefficient the context has no room for. -/
def dropped (value : Decimal) : Nat :=
  max (digitCount value.coefficient - precision) (tinyExponent - value.exponent).toNat

/-- The number after rounding, as far as exponents go. -/
def rounded (value : Decimal) : Decimal :=
  { value with
    coefficient := divHalfEven value.coefficient (10 ^ value.dropped)
    exponent := value.exponent + value.dropped }

/-- What rounds to a power of ten of a million digits and more is an overflow. -/
def ceiling : ℚ := (10 ^ precision - 1 / 2) * 10 ^ topExponent

theorem zpow_mono_ten {e e' : Int} (h : e ≤ e') : (10 : ℚ) ^ e ≤ 10 ^ e' :=
  zpow_le_zpow_right₀ (by norm_num) h

theorem magnitude_lt (value : Decimal) :
    value.magnitude < 10 ^ (digitCount value.coefficient + value.exponent) := by
  have hcount : (value.coefficient : ℚ) < 10 ^ digitCount value.coefficient := by
    exact_mod_cast lt_pow_digitCount value.coefficient
  unfold magnitude
  rw [zpow_add₀ (by norm_num), zpow_natCast]
  exact mul_lt_mul_of_pos_right hcount (by positivity)

theorem le_magnitude {value : Decimal} (hpos : 0 < value.coefficient) :
    10 ^ (digitCount value.coefficient - 1 + value.exponent) ≤ value.magnitude := by
  have hcount : (10 : ℚ) ^ (digitCount value.coefficient - 1) ≤ value.coefficient := by
    exact_mod_cast pow_le_of_digitCount hpos
  have hdigits : ((digitCount value.coefficient - 1 : Nat) : Int) =
      digitCount value.coefficient - 1 := by
    have hone := digitCount_pos value.coefficient
    omega
  unfold magnitude
  rw [← hdigits, zpow_add₀ (by norm_num), zpow_natCast]
  exact mul_le_mul_of_nonneg_right hcount (by positivity)

theorem ceiling_le {e : Int} (h : topExponent + precision ≤ e) : ceiling ≤ 10 ^ e := by
  have hbound : ceiling ≤ 10 ^ (topExponent + precision) := by
    unfold ceiling
    rw [zpow_add₀ (by norm_num), zpow_natCast, mul_comm]
    apply mul_le_mul_of_nonneg_left _ (by positivity)
    linarith
  exact hbound.trans (zpow_mono_ten h)

theorem le_ceiling {e : Int} (h : e < topExponent + precision) : 10 ^ e ≤ ceiling := by
  have hbound : (10 : ℚ) ^ (topExponent + precision - 1) ≤ ceiling := by
    have hsplit : topExponent + precision - 1 = topExponent + ((precision - 1 : Nat) : Int) := by
      decide
    unfold ceiling
    rw [hsplit, zpow_add₀ (by norm_num), zpow_natCast, mul_comm]
    apply mul_le_mul_of_nonneg_right _ (by positivity)
    norm_num [precision]
  exact (zpow_mono_ten (by omega)).trans hbound

/-- The ceiling, counted in the last digit that is kept. -/
theorem ceiling_eq {value : Decimal} (htop : value.exponent + value.dropped = topExponent) :
    ceiling = (10 ^ precision - 1 / 2) * 10 ^ value.dropped * 10 ^ value.exponent := by
  unfold ceiling
  rw [← htop, zpow_add₀ (by norm_num), zpow_natCast]
  ring

theorem ceiling_le_iff {value : Decimal} (htop : value.exponent + value.dropped = topExponent) :
    ceiling ≤ value.magnitude ↔
      (2 * (10 ^ precision - 1) + 1) * 10 ^ value.dropped ≤ 2 * value.coefficient := by
  have hunit : (0 : ℚ) < 10 ^ value.exponent := by positivity
  have hone : 1 ≤ 10 ^ precision := Nat.one_le_pow _ _ (by omega)
  rw [ceiling_eq htop, magnitude, mul_le_mul_iff_of_pos_right hunit]
  rw [← Nat.cast_le (α := ℚ)]
  push_cast [Nat.cast_sub hone]
  constructor <;> intro h <;> linarith

theorem rounded_of_dropped {value : Decimal} (h : value.dropped = 0) : value.rounded = value := by
  unfold rounded
  rw [h, pow_zero, divHalfEven_one]
  simp

theorem magnitude_lt_ceiling {value : Decimal} (hnone : value.dropped = 0)
    (htop : digitCount value.coefficient + value.exponent ≤ topExponent + precision) :
    value.magnitude < ceiling := by
  by_cases hlow : digitCount value.coefficient + value.exponent < topExponent + precision
  · exact value.magnitude_lt.trans_le (le_ceiling hlow)
  · have hdigits : digitCount value.coefficient ≤ precision := by
      unfold dropped at hnone
      omega
    have hexponent : topExponent ≤ value.exponent := by omega
    have hall : (digitCount value.coefficient : Int) + value.exponent =
        topExponent + precision := by omega
    have hcount : (value.coefficient : ℚ) + 1 ≤ 10 ^ digitCount value.coefficient := by
      exact_mod_cast lt_pow_digitCount value.coefficient
    have hunit := zpow_mono_ten hexponent
    have hpos : (0 : ℚ) < 10 ^ topExponent := by positivity
    have hsum : ((value.coefficient : ℚ) + 1) * 10 ^ value.exponent ≤
        10 ^ precision * 10 ^ topExponent := by
      calc ((value.coefficient : ℚ) + 1) * 10 ^ value.exponent
          ≤ 10 ^ digitCount value.coefficient * 10 ^ value.exponent :=
            mul_le_mul_of_nonneg_right hcount (by positivity)
        _ = 10 ^ (digitCount value.coefficient + value.exponent) := by
            rw [zpow_add₀ (by norm_num), zpow_natCast]
        _ = 10 ^ precision * 10 ^ topExponent := by
            rw [hall, zpow_add₀ (by norm_num), zpow_natCast, mul_comm]
    unfold magnitude ceiling
    linarith

/-- Rounding succeeds exactly below the ceiling, where one division describes it. -/
theorem fix_eq_some_iff {value fixed : Decimal} (hpos : 0 < value.coefficient) :
    value.fix = some fixed ↔ value.magnitude < ceiling ∧ value.rounded = fixed := by
  have hbelow := value.magnitude_lt
  have habove := le_magnitude hpos
  have hdigits := digitCount_pos value.coefficient
  have htop : tinyExponent < topExponent := by decide
  unfold fix
  rw [if_neg (by omega)]
  dsimp only
  by_cases hneeded : topExponent < digitCount value.coefficient + value.exponent - precision
  · have hover : ceiling ≤ value.magnitude := (ceiling_le (by omega)).trans habove
    simp [hneeded, not_lt.mpr hover]
  rw [if_neg hneeded]
  generalize hleast : max (digitCount value.coefficient + value.exponent - precision)
    tinyExponent = least
  by_cases hround : value.exponent < least
  · have hplaces : (least - value.exponent).toNat = value.dropped := by
      unfold dropped
      omega
    have hexponent : value.exponent + value.dropped = least := by omega
    have hunit : 0 < 10 ^ value.dropped := by positivity
    rw [if_pos hround, hplaces, ← hexponent]
    by_cases hcarry : divHalfEven value.coefficient (10 ^ value.dropped) = 10 ^ precision ∧
        topExponent < value.exponent + value.dropped + 1
    · have hlast : value.exponent + value.dropped = topExponent := by omega
      have hnear := (divHalfEven_near (n := value.coefficient) hunit).2
      rw [hcarry.1] at hnear
      have hover : ceiling ≤ value.magnitude := by
        rw [ceiling_le_iff hlast]
        have hone : 1 ≤ 10 ^ precision := Nat.one_le_pow _ _ (by omega)
        obtain ⟨rest, hrest⟩ := Nat.exists_eq_add_of_le hone
        rw [hrest] at hnear ⊢
        have hsub : 1 + rest - 1 = rest := by omega
        rw [hsub]
        linarith
      rw [if_pos hcarry]
      simp [not_lt.mpr hover]
    · have hfits : value.magnitude < ceiling := by
        by_cases hlow : value.exponent + value.dropped < topExponent
        · exact hbelow.trans_le (le_ceiling (by omega))
        · have hlast : value.exponent + value.dropped = topExponent := by omega
          by_contra hover
          rw [not_lt, ceiling_le_iff hlast] at hover
          apply hcarry
          have hone : 1 ≤ 10 ^ precision := Nat.one_le_pow _ _ (by omega)
          have hsub : 10 ^ precision - 1 + 1 = 10 ^ precision := by omega
          have hlength : digitCount value.coefficient ≤ precision + value.dropped := by omega
          have hhigh : value.coefficient < (10 ^ precision - 1 + 1) * 10 ^ value.dropped := by
            rw [hsub, ← pow_add]
            exact (lt_pow_digitCount _).trans_le (Nat.pow_le_pow_right (by omega) hlength)
          have hquotient := divHalfEven_top (by decide) hover hhigh
          rw [hquotient, hsub]
          constructor
          · rfl
          · omega
      rw [if_neg hcarry]
      simp [hfits, rounded]
  · have hnone : value.dropped = 0 := by
      unfold dropped
      omega
    rw [if_neg hround, rounded_of_dropped hnone]
    simp [magnitude_lt_ceiling hnone (by omega)]

theorem rounded_magnitude (value : Decimal) :
    value.rounded.magnitude =
      (divHalfEven value.coefficient (10 ^ value.dropped) * 10 ^ value.dropped : Nat) *
        10 ^ value.exponent := by
  unfold magnitude rounded
  dsimp only
  rw [zpow_add₀ (by norm_num), zpow_natCast]
  push_cast
  ring

/-- The rounding does not make an integer of another number, nor of another integer.
Below one unit is what lies behind the point; it is either nothing, or further from
both neighbours than the rounding reaches. -/
def RoundsSafely (value : Decimal) : Prop :=
  let unit := 10 ^ (-value.exponent).toNat
  let rest := value.coefficient % unit
  if value.dropped < (-value.exponent).toNat then
    rest = 0 ∨ 10 ^ value.dropped < 2 * min rest (unit - rest)
  else 10 ^ value.dropped ∣ value.coefficient

theorem mul_zpow_neg_eq_iff {c places : Nat} {n : Int} :
    (c : ℚ) * 10 ^ (-(places : Int)) = n ↔ (c : Int) = n * 10 ^ places := by
  have hunit : (0 : ℚ) < 10 ^ places := by positivity
  rw [zpow_neg, zpow_natCast, mul_inv_eq_iff_eq_mul₀ hunit.ne']
  exact_mod_cast Iff.rfl

/-- Digits are kept behind the point. -/
theorem roundsSafely_below {value : Decimal}
    (hplaces : value.dropped < (-value.exponent).toNat) :
    value.RoundsSafely ↔
      ∀ n : Int, value.rounded.magnitude = n → value.magnitude = n := by
  unfold RoundsSafely
  dsimp only
  rw [if_pos hplaces, rounded_magnitude, magnitude]
  generalize hfraction : (-value.exponent).toNat = places at *
  have hexponent : value.exponent = -(places : Int) := by omega
  generalize value.coefficient = c at *
  generalize value.dropped = t at *
  have hunit : 0 < 10 ^ t := by positivity
  have hpower : 10 ^ places = 10 ^ t * 10 ^ (places - t) := by
    rw [← pow_add]
    congr 1
    omega
  have heven : 2 ∣ 10 ^ (places - t) := dvd_pow (by norm_num) (by omega)
  have hdvd := dvd_divHalfEven_iff (n := c) hunit heven (by positivity)
  rw [← hpower] at hdvd
  have hrest : c % 10 ^ places < 10 ^ places := Nat.mod_lt _ (by positivity)
  simp only [hexponent, mul_zpow_neg_eq_iff]
  constructor
  · intro hsafe n hn
    rcases hsafe with hzero | hfar
    · obtain ⟨m, hm⟩ := Nat.dvd_of_mod_eq_zero hzero
      have hexact : divHalfEven c (10 ^ t) * 10 ^ t = c := by
        have hmul : c = 10 ^ (places - t) * m * 10 ^ t := by
          rw [hm, hpower]
          ring
        rw [hmul, divHalfEven_mul hunit]
      rw [hexact] at hn
      exact hn
    · exfalso
      have hmultiple : 10 ^ (places - t) ∣ divHalfEven c (10 ^ t) := by
        have hint : (10 ^ (places - t) : Int) * 10 ^ t ∣
            (divHalfEven c (10 ^ t) * 10 ^ t : Nat) := by
          rw [hn]
          refine ⟨n, ?_⟩
          rw [← pow_add, Nat.sub_add_cancel hplaces.le, mul_comm]
        have hnat : 10 ^ (places - t) * 10 ^ t ∣ divHalfEven c (10 ^ t) * 10 ^ t := by
          exact_mod_cast hint
        exact Nat.dvd_of_mul_dvd_mul_right hunit hnat
      rw [hdvd] at hmultiple
      omega
  · intro hkeep
    by_contra hunsafe
    rw [not_or] at hunsafe
    have hmultiple : 10 ^ (places - t) ∣ divHalfEven c (10 ^ t) := by
      rw [hdvd]
      omega
    obtain ⟨m, hm⟩ := hmultiple
    have hc := hkeep m (by
      rw [hm]
      push_cast
      rw [mul_assoc, mul_comm (m : Int), ← mul_assoc, ← pow_add,
        Nat.sub_add_cancel hplaces.le, mul_comm])
    apply hunsafe.1
    have hnat : c = m * 10 ^ places := by exact_mod_cast hc
    rw [hnat]
    exact Nat.mul_mod_left _ _

/-- No digit behind the point is kept. -/
theorem roundsSafely_above {value : Decimal}
    (hplaces : ¬value.dropped < (-value.exponent).toNat) :
    value.RoundsSafely ↔
      ∀ n : Int, value.rounded.magnitude = n → value.magnitude = n := by
  have hunit : (0 : ℚ) < 10 ^ value.exponent := by positivity
  have hinteger : ∃ n : Int, value.rounded.magnitude = n := by
    refine ⟨(divHalfEven value.coefficient (10 ^ value.dropped) *
      10 ^ (value.exponent + value.dropped).toNat : Nat), ?_⟩
    have hnonneg : 0 ≤ value.exponent + value.dropped := by omega
    unfold magnitude rounded
    dsimp only
    rw [← Int.toNat_of_nonneg hnonneg, zpow_natCast, Int.toNat_natCast]
    push_cast
    rfl
  obtain ⟨n, hn⟩ := hinteger
  have hkeep : (∀ m : Int, value.rounded.magnitude = m → value.magnitude = m) ↔
      value.magnitude = value.rounded.magnitude := by
    constructor
    · intro h
      rw [h n hn, hn]
    · intro h m hm
      rw [h, hm]
  rw [hkeep, rounded_magnitude, magnitude, mul_left_inj' hunit.ne', Nat.cast_inj]
  unfold RoundsSafely
  dsimp only
  rw [if_neg hplaces]
  constructor
  · rintro ⟨m, hm⟩
    rw [hm, mul_comm (10 ^ value.dropped) m, divHalfEven_mul (by positivity)]
  · intro h
    rw [h]
    exact Nat.dvd_mul_left _ _

theorem roundsSafely_iff {value : Decimal} :
    value.RoundsSafely ↔
      ∀ n : Int, value.rounded.magnitude = n → value.magnitude = n := by
  by_cases hplaces : value.dropped < (-value.exponent).toNat
  · exact roundsSafely_below hplaces
  · exact roundsSafely_above hplaces

theorem rounded_of_dvd {value : Decimal} (h : 10 ^ value.dropped ∣ value.coefficient) :
    value.rounded.magnitude = value.magnitude := by
  obtain ⟨quotient, hquotient⟩ := h
  have hexact : divHalfEven value.coefficient (10 ^ value.dropped) * 10 ^ value.dropped =
      value.coefficient := by
    rw [hquotient, mul_comm _ quotient, divHalfEven_mul (by positivity)]
  rw [rounded_magnitude, hexact, magnitude]

/-- An integer ends in zeros behind the point, and they are what is dropped. -/
theorem rounded_of_integral {value : Decimal} {n : Int} (hn : value.magnitude = n)
    (hplaces : value.dropped < (-value.exponent).toNat) : value.rounded.magnitude = n := by
  have hexponent : value.exponent = -((-value.exponent).toNat : Int) := by omega
  have hinteger := hn
  rw [magnitude, hexponent, mul_zpow_neg_eq_iff] at hinteger
  have hdvd : (10 ^ (-value.exponent).toNat : Int) ∣ value.coefficient := by
    rw [hinteger]
    exact Dvd.intro_left _ rfl
  have hnat : 10 ^ (-value.exponent).toNat ∣ value.coefficient := by exact_mod_cast hdvd
  rw [rounded_of_dvd ((pow_dvd_pow 10 hplaces.le).trans hnat), hn]

/-- A safe rounding changes no integer. -/
theorem RoundsSafely.rounded_eq {value : Decimal} (h : value.RoundsSafely) {n : Int}
    (hn : value.magnitude = n) : value.rounded.magnitude = n := by
  by_cases hplaces : value.dropped < (-value.exponent).toNat
  · exact rounded_of_integral hn hplaces
  · unfold RoundsSafely at h
    dsimp only at h
    rw [if_neg hplaces] at h
    rw [rounded_of_dvd h, hn]

/-! ## Stored amounts -/

/-- A number that loses digits in front of the point has all eighty of them there. -/
theorem large_of_dropped {value : Decimal} (hpos : 0 < value.coefficient)
    (hdropped : 0 < value.dropped) (hplaces : ¬value.dropped < (-value.exponent).toNat) :
    10 ^ 79 ≤ value.magnitude ∧ 10 ^ 79 ≤ value.rounded.magnitude := by
  have htiny : tinyExponent < 0 := by decide
  have hcount : digitCount value.coefficient = value.dropped + 80 := by
    unfold dropped precision at *
    omega
  have hexponent : 0 ≤ value.exponent + value.dropped := by omega
  have hunit : (1 : ℚ) ≤ 10 ^ (value.exponent + value.dropped) := by
    have hmono := zpow_mono_ten hexponent
    rwa [zpow_zero] at hmono
  have hfloor : 10 ^ 79 * 10 ^ value.dropped ≤ value.coefficient := by
    have hlow := pow_le_of_digitCount hpos
    rw [hcount] at hlow
    rw [← pow_add]
    have hsum : 79 + value.dropped = value.dropped + 80 - 1 := by omega
    rwa [hsum]
  have hquotient : 10 ^ 79 ≤ divHalfEven value.coefficient (10 ^ value.dropped) := by
    have hdiv : 10 ^ 79 ≤ value.coefficient / 10 ^ value.dropped :=
      (Nat.le_div_iff_mul_le (by positivity)).mpr hfloor
    unfold divHalfEven
    split <;> omega
  constructor
  · have hcast : (10 : ℚ) ^ 79 * 10 ^ value.dropped ≤ value.coefficient := by
      exact_mod_cast hfloor
    calc (10 : ℚ) ^ 79 ≤ 10 ^ 79 * 10 ^ (value.exponent + value.dropped) :=
          le_mul_of_one_le_right (by positivity) hunit
      _ = 10 ^ 79 * 10 ^ value.dropped * 10 ^ value.exponent := by
          rw [zpow_add₀ (by norm_num), zpow_natCast]
          ring
      _ ≤ value.magnitude := mul_le_mul_of_nonneg_right hcast (by positivity)
  · have hcast : (10 : ℚ) ^ 79 ≤ divHalfEven value.coefficient (10 ^ value.dropped) := by
      exact_mod_cast hquotient
    calc (10 : ℚ) ^ 79 ≤ 10 ^ 79 * 10 ^ (value.exponent + value.dropped) :=
          le_mul_of_one_le_right (by positivity) hunit
      _ ≤ value.rounded.magnitude := mul_le_mul_of_nonneg_right hcast (by positivity)

/-- Rounding behind the point moves a number by a twentieth at most. -/
theorem rounded_near {value : Decimal} (hplaces : value.dropped < (-value.exponent).toNat) :
    value.magnitude ≤ value.rounded.magnitude + 1 / 20 ∧
      value.rounded.magnitude ≤ value.magnitude + 1 / 20 := by
  have hnear := divHalfEven_near (n := value.coefficient) (d := 10 ^ value.dropped)
    (by positivity)
  have hunit : (0 : ℚ) < 10 ^ value.exponent := by positivity
  have hstep : (10 : ℚ) ^ value.dropped * 10 ^ value.exponent ≤ 1 / 10 := by
    rw [← zpow_natCast, ← zpow_add₀ (by norm_num)]
    have hmono : (10 : ℚ) ^ ((value.dropped : Int) + value.exponent) ≤ 10 ^ (-1 : Int) :=
      zpow_mono_ten (by omega)
    norm_num at hmono ⊢
    exact hmono
  have hlow : (2 : ℚ) * value.coefficient ≤
      2 * (divHalfEven value.coefficient (10 ^ value.dropped) * 10 ^ value.dropped : Nat) +
        10 ^ value.dropped := by exact_mod_cast hnear.1
  have hhigh : (2 : ℚ) *
      (divHalfEven value.coefficient (10 ^ value.dropped) * 10 ^ value.dropped : Nat) ≤
        2 * value.coefficient + 10 ^ value.dropped := by exact_mod_cast hnear.2
  have hlowScaled := mul_le_mul_of_nonneg_right hlow hunit.le
  have hhighScaled := mul_le_mul_of_nonneg_right hhigh hunit.le
  rw [rounded_magnitude, magnitude]
  constructor <;> linarith

theorem rounded_eq_of_small {value : Decimal} (hpos : 0 < value.coefficient) {n : Int}
    (hn : value.magnitude = n) (hsmall : value.magnitude < 10 ^ 79) :
    value.rounded.magnitude = n := by
  by_cases hplaces : value.dropped < (-value.exponent).toNat
  · exact rounded_of_integral hn hplaces
  · have hnone : value.dropped = 0 := by
      by_contra hdropped
      exact absurd (large_of_dropped hpos (by omega) hplaces).1 (not_le.mpr hsmall)
    rw [rounded_of_dropped hnone, hn]

/-- The column holds the rounded amount exactly when the number is half a unit below the
bound. -/
theorem rounded_lt_iff {value : Decimal} (hpos : 0 < value.coefficient) {n : Int}
    (hn : value.rounded.magnitude = n) :
    n < 10 ^ 78 ↔ value.magnitude < 10 ^ 78 - 1 / 2 := by
  have hcast : n < 10 ^ 78 ↔ (n : ℚ) ≤ 10 ^ 78 - 1 := by
    rw [← Int.le_sub_one_iff]
    exact_mod_cast Iff.rfl
  have hstrict : n < 10 ^ 78 ↔ (n : ℚ) < 10 ^ 78 := by exact_mod_cast Iff.rfl
  by_cases hplaces : value.dropped < (-value.exponent).toNat
  · have hnear := rounded_near hplaces
    rw [hn] at hnear
    constructor
    · intro h
      rw [hcast] at h
      linarith [hnear.1]
    · intro h
      rw [hstrict]
      linarith [hnear.2]
  · by_cases hnone : value.dropped = 0
    · rw [rounded_of_dropped hnone] at hn
      rw [hn]
      constructor
      · intro h
        rw [hcast] at h
        linarith
      · intro h
        rw [hstrict]
        linarith
    · have hlarge := large_of_dropped hpos (by omega) hplaces
      rw [hn] at hlarge
      constructor
      · intro h
        rw [hstrict] at h
        linarith [hlarge.2]
      · intro h
        linarith [hlarge.1]

def scaled (value : Decimal) (places : Nat) : Decimal :=
  { value with exponent := value.exponent + places }

theorem scaled_magnitude (value : Decimal) (places : Nat) :
    (value.scaled places).magnitude = value.magnitude * 10 ^ places := by
  unfold magnitude scaled
  dsimp only
  rw [zpow_add₀ (by norm_num), zpow_natCast, mul_assoc]

end Decimal

/-! ## What is parsed -/

theorem scaleAmount_ok_iff {dec : Decimal} {decimals : Nat} {units : Int}
    (hpos : 0 < dec.coefficient) :
    scaleAmount dec decimals = .ok units ↔
      decimals ≤ Decimal.jumpLimit ∧ (dec.scaled decimals).magnitude < Decimal.ceiling ∧
        (dec.scaled decimals).rounded.toRat = units := by
  have hfix : ∀ fixed, (dec.scaled decimals).fix = some fixed ↔
      (dec.scaled decimals).magnitude < Decimal.ceiling ∧
        (dec.scaled decimals).rounded = fixed :=
    fun fixed => Decimal.fix_eq_some_iff hpos
  have hscaleb : dec.scaleb decimals =
      if Decimal.jumpLimit < decimals then none else (dec.scaled decimals).fix := rfl
  unfold scaleAmount
  rw [hscaleb]
  by_cases hjump : Decimal.jumpLimit < decimals
  · simp [hjump, not_le.mpr hjump]
  rw [if_neg hjump]
  cases hresult : (dec.scaled decimals).fix with
  | none =>
      have hover : ¬(dec.scaled decimals).magnitude < Decimal.ceiling := by
        intro hfits
        have hsome := (hfix _).mpr ⟨hfits, rfl⟩
        rw [hresult] at hsome
        cases hsome
      simp [hover]
  | some fixed =>
      obtain ⟨hfits, rfl⟩ := (hfix fixed).mp hresult
      simp only [hfits, true_and, Nat.le_of_not_lt hjump]
      rw [← Decimal.toIntegral?_eq_some_iff]
      cases (dec.scaled decimals).rounded.toIntegral? <;> simp

theorem scaleAmount_zero {dec : Decimal} {decimals : Nat} {units : Int}
    (hzero : dec.coefficient = 0) (h : scaleAmount dec decimals = .ok units) : units = 0 := by
  unfold scaleAmount at h
  cases hscaled : dec.scaleb decimals with
  | none => simp [hscaled] at h
  | some fixed =>
      have hfix := (Decimal.fix_of_scaleb hscaled).2
      have hfixed := Decimal.fix_coefficient_zero (by exact hzero) hfix
      have hintegral : fixed.toIntegral? = some 0 := by
        rw [Decimal.toIntegral?_eq_some_iff, hfixed]
        simp [Decimal.toRat, Decimal.magnitude, hzero]
      simp only [hscaled, hintegral, Except.ok.injEq] at h
      exact h.symm

theorem parseAmount_ok_iff {value : AmountInput} {decimals : Nat} {allowZero : Bool}
    {units : Int} :
    parseAmount value decimals allowZero = .ok units ↔
      ∃ dec, decimalOfInput value = .ok (.finite dec) ∧
        ¬(dec.negative = true ∧ dec.coefficient ≠ 0) ∧
        ¬(dec.coefficient = 0 ∧ ¬allowZero = true) ∧
        scaleAmount dec decimals = .ok units := by
  unfold parseAmount
  cases hinput : decimalOfInput value with
  | error failure => simp [bind, Except.bind]
  | ok number =>
      simp only [bind, Except.bind]
      cases number with
      | infinity => simp
      | nan => simp
      | finite dec =>
          dsimp only
          by_cases hnegative : dec.negative = true ∧ dec.coefficient ≠ 0
          · simp [hnegative]
          · rw [if_neg hnegative]
            by_cases hzero : dec.coefficient = 0 ∧ ¬allowZero = true
            · rw [if_pos hzero]
              simp [hzero]
            · rw [if_neg hzero]
              constructor
              · intro h
                exact ⟨dec, rfl, hnegative, hzero, h⟩
              · rintro ⟨dec', hdec', -, -, h⟩
                cases hdec'
                exact h

end CryptoWallet
