import AtomicSwap.Library.Decimal
import Mathlib.Algebra.Order.Field.Power
import Mathlib.Data.Nat.Cast.Order.Field
import Mathlib.Tactic.Linarith

namespace Decimal

variable {d d' q : Decimal} {c k m n p t : ℕ} {e : ℤ}

@[simp]
theorem roundHalfUp_zero : roundHalfUp c 0 = c := by
  simp [roundHalfUp]

@[simp]
theorem roundHalfUp_mul : roundHalfUp (c * 10 ^ k) k = c := by
  have hp : 0 < 10 ^ k := by positivity
  rw [roundHalfUp, Nat.add_comm, Nat.add_mul_div_right _ _ hp, Nat.div_eq_of_lt (by omega),
    Nat.zero_add]

theorem roundHalfUp_le : roundHalfUp c k * 10 ^ k ≤ c + 10 ^ k / 2 :=
  Nat.div_mul_le_self ..

theorem lt_roundHalfUp : c + 10 ^ k / 2 < roundHalfUp c k * 10 ^ k + 10 ^ k := by
  have h := Nat.lt_div_mul_add (a := c + 10 ^ k / 2) (b := 10 ^ k) (by positivity)
  exact h

theorem le_roundHalfUp (h : n * 10 ^ k ≤ c) : n ≤ roundHalfUp c k :=
  (Nat.le_div_iff_mul_le (by positivity)).mpr (Nat.le_add_right_of_le h)

-- The exponent of the first digit.
def adjusted (d : Decimal) : ℤ :=
  d.exponent + d.numDigits - 1

theorem numDigits_le (hp : p ≠ 0) : d.numDigits ≤ p ↔ d.coeff < 10 ^ p := by
  by_cases hc : d.coeff = 0
  case pos => simp [numDigits, hc]; omega
  case neg => rw [numDigits, Nat.succ_le_iff, Nat.log_lt_iff_lt_pow (by norm_num) hc]

section Adjusted

variable (hc : d.coeff ≠ 0)
include hc

theorem pow_adjusted_le : (10 : ℚ) ^ d.adjusted ≤ d.coeff * 10 ^ d.exponent := by
  have hl : (10 : ℚ) ^ Nat.log 10 d.coeff ≤ d.coeff := by
    exact_mod_cast Nat.pow_log_le_self 10 hc
  have he : d.adjusted = Nat.log 10 d.coeff + d.exponent := by
    simp only [adjusted, numDigits]
    omega
  rw [he, zpow_add₀ (by norm_num), zpow_natCast]
  exact mul_le_mul_of_nonneg_right hl (by positivity)

omit hc in
theorem lt_pow_adjusted : d.coeff * 10 ^ d.exponent < (10 : ℚ) ^ (d.adjusted + 1) := by
  have hl : (d.coeff : ℚ) < 10 ^ (Nat.log 10 d.coeff + 1) := by
    exact_mod_cast Nat.lt_pow_succ_log_self (by norm_num) d.coeff
  have he : d.adjusted + 1 = (Nat.log 10 d.coeff + 1 : ℕ) + d.exponent := by
    simp only [adjusted, numDigits]
    omega
  rw [he, zpow_add₀ (by norm_num), zpow_natCast]
  exact mul_lt_mul_of_pos_right hl (by positivity)

theorem adjusted_lt (h : d.coeff * 10 ^ d.exponent < (10 : ℚ) ^ e) : d.adjusted < e :=
  (zpow_lt_zpow_iff_right₀ (by norm_num)).mp <| (pow_adjusted_le hc).trans_lt h

omit hc in
theorem le_adjusted (h : (10 : ℚ) ^ e ≤ d.coeff * 10 ^ d.exponent) : e ≤ d.adjusted := by
  have hl : (10 : ℚ) ^ e < 10 ^ (d.adjusted + 1) := h.trans_lt lt_pow_adjusted
  have := (zpow_lt_zpow_iff_right₀ (by norm_num)).mp hl
  omega

end Adjusted

theorem toRat_eq (hn : d.negative = false) : d.toRat = d.coeff * 10 ^ d.exponent := by
  simp [toRat, hn]

-- A whole number is not changed by rounding to one.
theorem rescale_zero_coeff (hn : d.negative = false) (h : d.rescale 0 = some d')
    (hv : d.toRat = n) : d'.coeff = n := by
  have hc : (d.coeff : ℚ) * 10 ^ d.exponent = n * 10 ^ (0 : ℤ) := by
    rw [← toRat_eq hn, hv, zpow_zero, mul_one]
  simp only [rescale, Option.ite_none_left_eq_some] at h
  obtain ⟨_, h⟩ := h
  split at h
  case isTrue he  => cases h; exact (coeff_eq hc.symm he).symm
  case isFalse he =>
    cases h
    rw [coeff_eq hc (by omega)]
    exact roundHalfUp_mul

theorem coeff_ne_zero (hp : 0 < d.toRat) : d.coeff ≠ 0 :=
  fun hc => by simp [toRat, hc] at hp

-- The number `c * 10 ^ e` with the given number of digits.
def rounded (p c : ℕ) (e : ℤ) (negative : Bool) : Decimal where
  coeff    := roundHalfUp c (Nat.log 10 c + 1 - p)
  exponent := e + (Nat.log 10 c + 1 - p : ℕ)
  negative := negative

theorem quo_eq_some : d.quo p d' = some q ↔
    (d.form = .finite ∧ d'.form = .finite ∧ d'.coeff ≠ 0 ∧ InLimits d d') ∧
    q = rounded p (d.coeff * 10 ^ (p + d'.numDigits) / d'.coeff)
      (d.exponent - d'.exponent - (p + d'.numDigits : ℕ)) (d.negative != d'.negative) ∧
    |q.adjusted| ≤ maxExponent := by
  simp only [quo, Option.ite_none_left_eq_some, not_or, not_not, not_lt, Option.some.injEq]
  constructor
  case mp =>
    rintro ⟨hd, hq, rfl⟩
    exact ⟨hd, rfl, hq⟩
  case mpr =>
    rintro ⟨hd, rfl, hq⟩
    exact ⟨hd, hq, rfl⟩

theorem mul_eq_some : d.mul p d' = some q ↔
    (d.form = .finite ∧ d'.form = .finite ∧ InLimits d d') ∧
    q = rounded p (d.coeff * d'.coeff) (d.exponent + d'.exponent) (d.negative != d'.negative) ∧
    |q.adjusted| ≤ maxExponent := by
  simp only [mul, Option.ite_none_left_eq_some, not_or, not_not, not_lt, Option.some.injEq]
  constructor
  case mp =>
    rintro ⟨hd, hq, rfl⟩
    exact ⟨hd, rfl, hq⟩
  case mpr =>
    rintro ⟨hd, rfl, hq⟩
    exact ⟨hd, hq, rfl⟩

theorem mul_form (h : d.mul p d' = some q) : q.form = .finite := by
  obtain ⟨_, rfl, _⟩ := mul_eq_some.mp h
  rfl

section Rounded

variable {negative : Bool} (hq : q = rounded p c e negative)
include hq

theorem rounded_value : (q.coeff : ℚ) * 10 ^ q.exponent =
    (roundHalfUp c (Nat.log 10 c + 1 - p) * 10 ^ (Nat.log 10 c + 1 - p) : ℕ) * 10 ^ e := by
  subst hq
  simp only [rounded, zpow_add₀ (by norm_num : (10 : ℚ) ≠ 0), zpow_natCast]
  push_cast
  ring

-- No digit is lost if only zeros are cut off.
theorem rounded_exact (hp : p ≠ 0) (hc : c = m * 10 ^ t) (hm : m < 10 ^ p) :
    (q.coeff : ℚ) * 10 ^ q.exponent = c * 10 ^ e := by
  have hl : Nat.log 10 c < p + t := by
    refine Nat.log_lt_of_lt_pow' (by omega) ?_
    rw [hc, pow_add]
    exact Nat.mul_lt_mul_of_pos_right hm (by positivity)
  obtain ⟨s, hs⟩ := Nat.exists_eq_add_of_le' (by omega : Nat.log 10 c + 1 - p ≤ t)
  rw [rounded_value hq]
  congr 2
  generalize Nat.log 10 c + 1 - p = k at hs
  rw [hc, hs, pow_add, ← mul_assoc, roundHalfUp_mul]

theorem le_rounded_exponent : e ≤ q.exponent := by
  simp [hq, rounded]

-- A result that is cut off has all of its digits.
theorem rounded_exact_of_lt (hc : q.coeff < 10 ^ (p - 1)) (hp : p ≠ 0) :
    (q.coeff : ℚ) * 10 ^ q.exponent = c * 10 ^ e := by
  by_cases hl : Nat.log 10 c + 1 ≤ p
  case pos => rw [rounded_value hq, Nat.sub_eq_zero_of_le hl, roundHalfUp_zero, pow_zero, mul_one]
  case neg =>
    refine absurd hc (not_lt.mpr ?_)
    have h₀ : c ≠ 0 := fun h => by
      simp only [h, Nat.log_zero_right] at hl
      omega
    rw [hq, rounded]
    refine le_roundHalfUp ?_
    rw [← pow_add, show p - 1 + (Nat.log 10 c + 1 - p) = Nat.log 10 c by omega]
    exact Nat.pow_log_le_self 10 h₀

-- Half of the last digit, or less, is added or cut off.
theorem rounded_close (hp : 10 ^ p ≤ c) :
    |(q.coeff : ℚ) * 10 ^ q.exponent - c * 10 ^ e| ≤ 10 ^ (Nat.log 10 c + 1 - p) / 2 * 10 ^ e := by
  have hc : p ≤ Nat.log 10 c := Nat.le_log_of_pow_le (by norm_num) hp
  obtain ⟨k, hk⟩ : ∃ k, Nat.log 10 c + 1 - p = k + 1 := ⟨Nat.log 10 c - p, by omega⟩
  have hh : 10 ^ (k + 1) / 2 * 2 = 10 ^ (k + 1) := by
    rw [pow_succ]
    omega
  have hu : roundHalfUp c (k + 1) * 10 ^ (k + 1) ≤ c + 10 ^ (k + 1) / 2 := roundHalfUp_le
  have hl : c + 10 ^ (k + 1) / 2 < roundHalfUp c (k + 1) * 10 ^ (k + 1) + 10 ^ (k + 1) :=
    lt_roundHalfUp
  rw [rounded_value hq, hk, ← sub_mul, abs_mul, abs_of_pos (by positivity : (0 : ℚ) < 10 ^ e)]
  refine mul_le_mul_of_nonneg_right ?_ (by positivity)
  generalize roundHalfUp c (k + 1) * 10 ^ (k + 1) = r at hu hl ⊢
  have hh : ((10 ^ (k + 1) / 2 : ℕ) : ℚ) = 10 ^ (k + 1) / 2 := by
    rw [eq_div_iff (by norm_num)]
    exact_mod_cast hh
  have hu : (r : ℚ) ≤ c + (10 ^ (k + 1) / 2 : ℕ) := by exact_mod_cast hu
  have hl : (c : ℚ) + (10 ^ (k + 1) / 2 : ℕ) ≤ r + 10 ^ (k + 1) := by exact_mod_cast hl.le
  rw [abs_le]
  constructor <;> linarith

end Rounded

-- The digits that are kept, in units of the last of them.
theorem unit_mul_pow_le (hp : p ≠ 0) (hc : 10 ^ p ≤ c) :
    (10 : ℚ) ^ (Nat.log 10 c + 1 - p) * 10 ^ (p - 1) ≤ c := by
  have hl : p ≤ Nat.log 10 c := Nat.le_log_of_pow_le (by norm_num) hc
  have hz : c ≠ 0 := fun hz => by simp [hz] at hc
  rw [← pow_add, (by omega : Nat.log 10 c + 1 - p + (p - 1) = Nat.log 10 c)]
  exact_mod_cast Nat.pow_log_le_self 10 hz

-- If `y` is close to `c * z`, and `c` is `x` without its fraction, then `y` is close to `x * z`.
theorem close_of_digits {x y z u w : ℚ} (hs : |y - c * z| ≤ u / 2 * z) (hu : c ≤ x) (hl : x ≤ c + 1)
    (hd : 2 ≤ u) (hc : u * w ≤ c) (hz : 0 < z) (hw : 0 < w) : |y - x * z| ≤ x * z / w := by
  have hx : |c * z - x * z| ≤ z := by
    rw [abs_le]
    constructor <;> nlinarith
  calc |y - x * z|
    _ ≤ |y - c * z| + |c * z - x * z| := abs_sub_le ..
    _ ≤ u / 2 * z + z                 := add_le_add hs hx
    _ ≤ u * z                         := by nlinarith
    _ ≤ x * z / w                     := by
      rw [le_div_iff₀ hw]
      nlinarith

section Quo

variable (hn : d.negative = false) (hn' : d'.negative = false)

-- What is divided has enough digits.
theorem pow_le_quotient (hc : d.coeff ≠ 0) (hc' : d'.coeff ≠ 0) :
    10 ^ p ≤ d.coeff * 10 ^ (p + d'.numDigits) / d'.coeff := by
  have hd : d'.coeff < 10 ^ d'.numDigits := Nat.lt_pow_succ_log_self (by norm_num) _
  rw [Nat.le_div_iff_mul_le (by omega), pow_add]
  calc 10 ^ p * d'.coeff
    _ ≤ 10 ^ p * 10 ^ d'.numDigits             := Nat.mul_le_mul_left _ hd.le
    _ ≤ d.coeff * (10 ^ p * 10 ^ d'.numDigits) := Nat.le_mul_of_pos_left _ (by omega)

include hn hn'

-- The quotient in units of the last digit before the rounding.
theorem quotient_value (hc' : d'.coeff ≠ 0) (k : ℕ) :
    d.toRat =
      (d.coeff * 10 ^ k : ℕ) / d'.coeff * 10 ^ (d.exponent - d'.exponent - k) * d'.toRat := by
  have hb : (d'.coeff : ℚ) ≠ 0 := by exact_mod_cast hc'
  have hz : (10 : ℚ) ^ k * 10 ^ (d.exponent - d'.exponent - k) * 10 ^ d'.exponent =
      10 ^ d.exponent := by
    rw [← zpow_natCast, ← zpow_add₀ (by norm_num), ← zpow_add₀ (by norm_num)]
    congr 1
    ring
  rw [toRat_eq hn, toRat_eq hn', ← hz]
  push_cast
  field_simp

theorem quo_close (hp : p ≠ 0) (h : d.quo p d' = some q) :
    |q.toRat * d'.toRat - d.toRat| ≤ d.toRat / 10 ^ (p - 1) := by
  obtain ⟨⟨-, -, hc', -⟩, hq, -⟩ := quo_eq_some.mp h
  have hv := quotient_value hn hn' hc' (p + d'.numDigits)
  rw [toRat_eq (by simp [hq, rounded, hn, hn'] : q.negative = false)]
  by_cases hc : d.coeff = 0
  case pos =>
    have hz := rounded_exact hq (m := 0) (t := 0) hp (by simp [hc]) (by positivity)
    simp [hz, hc, toRat]
  case neg =>
    have hp' := pow_le_quotient (p := p) hc hc'
    have hs := rounded_close hq hp'
    have hd : 0 ≤ d'.toRat := toRat_nonneg hn'
    have hu : ((d.coeff * 10 ^ (p + d'.numDigits) / d'.coeff : ℕ) : ℚ) ≤
      (d.coeff * 10 ^ (p + d'.numDigits) : ℕ) / d'.coeff := Nat.cast_div_le
    have hl : ((d.coeff * 10 ^ (p + d'.numDigits) : ℕ) : ℚ) / d'.coeff ≤
        (d.coeff * 10 ^ (p + d'.numDigits) / d'.coeff : ℕ) + 1 := by
      rw [div_le_iff₀ (by exact_mod_cast Nat.pos_of_ne_zero hc')]
      exact_mod_cast (Nat.lt_mul_of_div_lt (Nat.lt_succ_self _) (Nat.pos_of_ne_zero hc')).le
    generalize ((d.coeff * 10 ^ (p + d'.numDigits) : ℕ) : ℚ) / d'.coeff = x at hv hu hl
    generalize d.coeff * 10 ^ (p + d'.numDigits) / d'.coeff = c at hp' hs hu hl
    have hlog : p ≤ Nat.log 10 c := Nat.le_log_of_pow_le (by norm_num) hp'
    have h₂ : (2 : ℚ) ≤ 10 ^ (Nat.log 10 c + 1 - p) := by
      obtain ⟨k, hk⟩ : ∃ k, Nat.log 10 c + 1 - p = k + 1 := ⟨Nat.log 10 c - p, by omega⟩
      rw [hk, pow_succ]
      linarith [one_le_pow₀ (by norm_num : (1 : ℚ) ≤ 10) (n := k)]
    have hy := close_of_digits hs hu hl h₂ (unit_mul_pow_le hp hp') (by positivity) (by positivity)
    rw [hv, ← sub_mul, abs_mul, abs_of_nonneg hd, mul_div_right_comm]
    exact mul_le_mul_of_nonneg_right hy hd

-- A quotient of few digits is followed by zeros only.
theorem quotient_exact (hc : d.coeff ≠ 0) (hc' : d'.coeff ≠ 0) (hm : m < 10 ^ p)
    (hv : d.toRat = m * 10 ^ e * d'.toRat) :
    ∃ t : ℕ, d.coeff * 10 ^ (p + d'.numDigits) / d'.coeff = m * 10 ^ t ∧
      d.exponent - d'.exponent - (p + d'.numDigits : ℕ) + t = e := by
  have hb : (0 : ℚ) < d'.coeff := by exact_mod_cast Nat.pos_of_ne_zero hc'
  have hd : 0 < d'.toRat := by
    rw [toRat_eq hn']
    positivity
  have hx := quotient_value hn hn' hc' (p + d'.numDigits)
  have hl : (10 : ℚ) ^ p ≤ (d.coeff * 10 ^ (p + d'.numDigits) : ℕ) / d'.coeff :=
    le_trans (by exact_mod_cast pow_le_quotient hc hc') Nat.cast_div_le
  generalize d.coeff * 10 ^ (p + d'.numDigits) = N at hx hl ⊢
  generalize d.exponent - d'.exponent - (p + d'.numDigits : ℕ) = E at hx ⊢
  have hz : (0 : ℚ) < 10 ^ E := by positivity
  have hN : (N : ℚ) / d'.coeff = m * 10 ^ (e - E) := by
    have he := mul_right_cancel₀ hd.ne' (hx.symm.trans hv)
    rw [zpow_sub₀ (by norm_num), mul_div_assoc', eq_div_iff hz.ne', he]
  have hm' : (m : ℚ) < 10 ^ p := by exact_mod_cast hm
  have hE : 0 ≤ e - E := by
    by_contra hlt
    have hp : (10 : ℚ) ^ (e - E) ≤ 1 := zpow_le_one_of_nonpos₀ (by norm_num) (by omega)
    have : (m : ℚ) * 10 ^ (e - E) ≤ m := mul_le_of_le_one_right (by positivity) hp
    linarith
  obtain ⟨t, ht⟩ := Int.eq_ofNat_of_zero_le hE
  refine ⟨t, ?_, by omega⟩
  rw [ht, zpow_natCast, div_eq_iff hb.ne'] at hN
  have hN : N = m * 10 ^ t * d'.coeff := by exact_mod_cast hN
  rw [hN, Nat.mul_div_cancel _ (Nat.pos_of_ne_zero hc')]

theorem quo_exact (hp : p ≠ 0) (hc : d.coeff ≠ 0) (hm : m < 10 ^ p)
    (hv : d.toRat = m * 10 ^ e * d'.toRat) (h : d.quo p d' = some q) : q.toRat = m * 10 ^ e := by
  obtain ⟨⟨-, -, hc', -⟩, hq, -⟩ := quo_eq_some.mp h
  obtain ⟨t, ht, he⟩ := quotient_exact hn hn' hc hc' hm hv
  rw [toRat_eq (by simp [hq, rounded, hn, hn'] : q.negative = false), rounded_exact hq hp ht hm, ht,
    ← he, zpow_add₀ (by norm_num), zpow_natCast]
  push_cast
  ring

end Quo

-- A product differs from the exact one in the last digit only.
theorem mul_close (hn : d.negative = false) (hn' : d'.negative = false) (hp : p ≠ 0)
    (h : d.mul p d' = some q) :
    |q.toRat - d.toRat * d'.toRat| ≤ d.toRat * d'.toRat / 10 ^ (p - 1) := by
  obtain ⟨-, hq, -⟩ := mul_eq_some.mp h
  have hv : d.toRat * d'.toRat =
      (d.coeff * d'.coeff : ℕ) * 10 ^ (d.exponent + d'.exponent) := by
    rw [toRat_eq hn, toRat_eq hn', zpow_add₀ (by norm_num)]
    push_cast
    ring
  rw [toRat_eq (by simp [hq, rounded, hn, hn'] : q.negative = false), hv]
  generalize d.exponent + d'.exponent = e at hq ⊢
  generalize d.coeff * d'.coeff = c at hq ⊢
  by_cases hc : c < 10 ^ p
  case pos =>
    rw [rounded_exact hq (m := c) (t := 0) hp (by simp) hc, sub_self, abs_zero]
    positivity
  case neg =>
    refine (rounded_close hq <| not_lt.mp hc).trans ?_
    rw [mul_div_right_comm]
    refine mul_le_mul_of_nonneg_right ?_ (by positivity)
    rw [le_div_iff₀ (by positivity)]
    have hu := unit_mul_pow_le hp <| not_lt.mp hc
    have hl : (0 : ℚ) ≤ 10 ^ (Nat.log 10 c + 1 - p) * 10 ^ (p - 1) := by positivity
    linarith

-- Another way to write a number does not give it more digits.
theorem digits_of_value {e' : ℤ} (hv : (c : ℚ) * 10 ^ e' = m * 10 ^ e) (hm : m < 10 ^ p) :
    ∃ n t, c = n * 10 ^ t ∧ n < 10 ^ p := by
  rcases le_total e' e with hl | hl
  · exact ⟨m, _, coeff_eq hv hl, hm⟩
  · refine ⟨c, 0, by simp, lt_of_le_of_lt ?_ hm⟩
    rw [coeff_eq hv.symm hl]
    exact Nat.le_mul_of_pos_right _ (by positivity)

theorem rounded_inLimits {negative : Bool} (hq : q = rounded p c e negative) (hp : p ≠ 0)
    (hc : c = m * 10 ^ t) (hm : m < 10 ^ p) (hl : (10 : ℚ) ^ (-maxExponent) ≤ c * 10 ^ e)
    (hu : (c : ℚ) * 10 ^ e < 10 ^ maxExponent) : |q.adjusted| ≤ maxExponent := by
  have hv := rounded_exact hq hp hc hm
  rw [← hv] at hl hu
  have hz : q.coeff ≠ 0 := fun hz => by
    have : (0 : ℚ) < 10 ^ (-maxExponent) := by positivity
    simp only [hz, Nat.cast_zero, zero_mul] at hl
    linarith
  exact abs_le.mpr ⟨le_adjusted hl, (adjusted_lt hz hu).le⟩

section Ok

variable (hf : d.form = .finite) (hf' : d'.form = .finite) (hi : InLimits d d')
variable (hn : d.negative = false) (hn' : d'.negative = false) (hp : p ≠ 0) (hm : m < 10 ^ p)
variable (hl : (10 : ℚ) ^ (-maxExponent) ≤ m * 10 ^ e) (hu : (m : ℚ) * 10 ^ e < 10 ^ maxExponent)
include hf hf' hi hn hn' hp hm hl hu

theorem quo_ok (hc : d.coeff ≠ 0) (hc' : d'.coeff ≠ 0) (hv : d.toRat = m * 10 ^ e * d'.toRat) :
    ∃ q, d.quo p d' = some q ∧ q.toRat = m * 10 ^ e ∧ q.negative = false := by
  obtain ⟨t, ht, he⟩ := quotient_exact hn hn' hc hc' hm hv
  have hx : ((m * 10 ^ t : ℕ) : ℚ) * 10 ^ (d.exponent - d'.exponent - (p + d'.numDigits : ℕ)) =
      m * 10 ^ e := by
    rw [← he, zpow_add₀ (by norm_num) _ (t : ℤ), zpow_natCast]
    push_cast
    ring
  have hq := rounded_inLimits (q := rounded p _ _ false) rfl hp ht hm (ht ▸ hx ▸ hl) (ht ▸ hx ▸ hu)
  have h := quo_eq_some.mpr ⟨⟨hf, hf', hc', hi⟩, rfl, by simpa [hn, hn'] using hq⟩
  exact ⟨_, h, quo_exact hn hn' hp hc hm hv h, by simp [rounded, hn, hn']⟩

theorem mul_ok (hv : d.toRat * d'.toRat = m * 10 ^ e) :
    ∃ q, d.mul p d' = some q ∧ q.toRat = m * 10 ^ e ∧ q.negative = false := by
  have hx : ((d.coeff * d'.coeff : ℕ) : ℚ) * 10 ^ (d.exponent + d'.exponent) = m * 10 ^ e := by
    rw [← hv, toRat_eq hn, toRat_eq hn', zpow_add₀ (by norm_num)]
    push_cast
    ring
  obtain ⟨n, t, ht, hs⟩ := digits_of_value hx hm
  have hq := rounded_inLimits (q := rounded p _ _ false) rfl hp ht hs (hx ▸ hl) (hx ▸ hu)
  refine ⟨_, mul_eq_some.mpr ⟨⟨hf, hf', hi⟩, rfl, by simpa [hn, hn'] using hq⟩, ?_⟩
  refine ⟨?_, by simp [rounded, hn, hn']⟩
  rw [toRat_eq (by simp [rounded, hn, hn']), rounded_exact rfl hp ht hs, hx]

end Ok

end Decimal
