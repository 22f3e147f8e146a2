import Mathlib.Algebra.Order.Field.Basic
import Mathlib.Algebra.Order.Ring.Rat
import Mathlib.Data.Nat.Log
import Mathlib.Tactic.FieldSimp
import Mathlib.Tactic.Positivity
import Mathlib.Tactic.Ring

inductive Form
  | finite
  | infinite
  | nan
  deriving DecidableEq, Repr

-- A decimal floating-point number of arbitrary precision. Its value is `± coeff * 10 ^ exponent`.
structure Decimal where
  coeff    : ℕ
  exponent : ℤ    := 0
  negative : Bool := false
  form     : Form := .finite
  deriving DecidableEq, Repr

namespace Decimal

variable {d d' : Decimal}

def toRat (d : Decimal) : ℚ :=
  (if d.negative then -1 else 1) * d.coeff * 10 ^ d.exponent

def isZero (d : Decimal) : Bool :=
  d.form = .finite ∧ d.coeff = 0

def numDigits (d : Decimal) : ℕ :=
  Nat.log 10 d.coeff + 1

def cmp (d d' : Decimal) : Ordering :=
  compare d.toRat d'.toRat

def maxExponent : ℤ := 100000

-- Trailing zeros of the coefficient are moved to the exponent. The first argument bounds their
-- number.
def strip : ℕ → ℕ → ℤ → ℕ × ℤ
  | 0,     c, e => (c, e)
  | n + 1, c, e => if c % 10 = 0 then strip n (c / 10) (e + 1) else (c, e)

def reduce (d : Decimal) : Decimal :=
  if d.form ≠ .finite then d
  else if d.coeff = 0 then { d with exponent := 0 }
  else
    let ⟨c, e⟩ := strip d.coeff d.coeff d.exponent
    { d with coeff := c, exponent := e }

-- The multiple of `10 ^ k` that is closest to `c`, divided by `10 ^ k`. Ties are rounded up.
def roundHalfUp (c k : ℕ) : ℕ :=
  (c + 10 ^ k / 2) / 10 ^ k

-- The number with the given exponent that is closest to `d`.
def rescale (d : Decimal) (e : ℤ) : Option Decimal :=
  if d.exponent - e > maxExponent then none
  else if e ≤ d.exponent then
    some { d with coeff := d.coeff * 10 ^ (d.exponent - e).toNat, exponent := e }
  else some { d with coeff := roundHalfUp d.coeff (e - d.exponent).toNat, exponent := e }

def roundToIntegralValue (d : Decimal) : Option Decimal :=
  if d.form ≠ .finite then some d else d.rescale 0

def quantize (precision : ℕ) (d : Decimal) (e : ℤ) : Option Decimal :=
  match d.form with
  | .nan      => some d
  | .infinite => none
  | .finite   => do
    let d' ← d.rescale e
    if d'.numDigits > precision then none else some d'

-- The operands of a multiplication or division.
def InLimits (d d' : Decimal) : Prop :=
  |d.exponent| ≤ maxExponent ∧ |d'.exponent| ≤ maxExponent

instance : Decidable (InLimits d d') :=
  inferInstanceAs (Decidable (_ ∧ _))

-- The quotient with the given number of digits. Its computation has enough digits for half of the
-- last place to be seen.
def quo (precision : ℕ) (d d' : Decimal) : Option Decimal :=
  if d.form ≠ .finite ∨ d'.form ≠ .finite ∨ d'.coeff = 0 ∨ ¬InLimits d d' then none
  else
    let k := precision + d'.numDigits
    let c := d.coeff * 10 ^ k / d'.coeff
    let excess := Nat.log 10 c + 1 - precision
    let q : Decimal :=
      { coeff    := roundHalfUp c excess
        exponent := d.exponent - d'.exponent - k + excess
        negative := d.negative != d'.negative }
    let adjusted := q.exponent + q.numDigits - 1
    if |adjusted| > maxExponent then none else some q

-- The product, rounded to the given number of digits.
def mul (precision : ℕ) (d d' : Decimal) : Option Decimal :=
  if d.form ≠ .finite ∨ d'.form ≠ .finite ∨ ¬InLimits d d' then none
  else
    let c := d.coeff * d'.coeff
    let excess := Nat.log 10 c + 1 - precision
    let p : Decimal :=
      { coeff    := roundHalfUp c excess
        exponent := d.exponent + d'.exponent + excess
        negative := d.negative != d'.negative }
    let adjusted := p.exponent + p.numDigits - 1
    if |adjusted| > maxExponent then none else some p

theorem strip_value (n c : ℕ) (e : ℤ) :
    ((strip n c e).fst : ℚ) * 10 ^ (strip n c e).snd = c * 10 ^ e := by
  induction n generalizing c e
  case zero => rfl
  case succ n hi =>
    rw [strip]
    split
    case isTrue h =>
      have hc : (c : ℚ) = (c / 10 : ℕ) * 10 := by
        exact_mod_cast (Nat.div_mul_cancel <| Nat.dvd_of_mod_eq_zero h).symm
      rw [hi, hc, zpow_add_one₀ (by norm_num)]
      ring
    case isFalse => rfl

theorem le_strip_exponent (n c : ℕ) (e : ℤ) : e ≤ (strip n c e).snd := by
  induction n generalizing c e
  case zero => exact le_rfl
  case succ n hi =>
    rw [strip]
    split
    case isTrue  => exact (Int.le_add_one le_rfl).trans (hi _ _)
    case isFalse => exact le_rfl

theorem not_dvd_strip {n c : ℕ} (e : ℤ) (h₀ : c ≠ 0) (hc : c ≤ n) : ¬10 ∣ (strip n c e).fst := by
  induction n generalizing c e
  case zero => omega
  case succ n hi =>
    rw [strip]
    split
    case isTrue  => exact hi _ (by omega) (by omega)
    case isFalse => omega

@[simp]
theorem reduce_negative : d.reduce.negative = d.negative := by
  grind [reduce]

@[simp]
theorem reduce_form : d.reduce.form = d.form := by
  grind [reduce]

@[simp]
theorem toRat_reduce : d.reduce.toRat = d.toRat := by
  rw [reduce]
  split
  case isTrue => rfl
  case isFalse =>
    split
    case isTrue h  => simp [toRat, h]
    case isFalse h => simp only [toRat, mul_assoc, strip_value]

theorem isZero_iff : d.isZero ↔ d.form = .finite ∧ d.toRat = 0 := by
  have hs : (if d.negative then -1 else 1 : ℚ) ≠ 0 := by split <;> norm_num
  have hp : (10 : ℚ) ^ d.exponent ≠ 0 := zpow_ne_zero _ (by norm_num)
  simp only [isZero, toRat, decide_eq_true_eq, mul_eq_zero, hs, hp, Nat.cast_eq_zero, false_or,
    or_false]

theorem le_reduce_exponent {e : ℤ} (h₀ : e ≤ 0) (he : e ≤ d.exponent) : e ≤ d.reduce.exponent := by
  rw [reduce]
  split
  case isTrue => exact he
  case isFalse =>
    split
    case isTrue  => exact h₀
    case isFalse => exact he.trans <| le_strip_exponent ..

-- A positive number is at least a power of ten.
theorem exponent_le {k : ℕ} (hp : 0 < d.toRat) (hu : d.toRat ≤ 10 ^ k) : d.exponent ≤ k := by
  have hz : (0 : ℚ) < 10 ^ d.exponent := zpow_pos (by norm_num) _
  have hs : d.toRat = d.coeff * 10 ^ d.exponent := by
    cases hn : d.negative
    case false => simp [toRat, hn]
    case true  =>
      have hl : (0 : ℚ) ≤ d.coeff * 10 ^ d.exponent := by positivity
      simp only [toRat, hn, if_true, neg_mul, one_mul, Left.neg_pos_iff] at hp
      exact absurd hp hl.not_gt
  have hc : (1 : ℚ) ≤ d.coeff := by
    rw [hs] at hp
    exact_mod_cast Nat.one_le_iff_ne_zero.mpr fun h => by simp [h] at hp
  have hl : (10 : ℚ) ^ d.exponent ≤ 10 ^ (k : ℤ) := by
    rw [zpow_natCast]
    exact (le_mul_of_one_le_left hz.le hc).trans (hs ▸ hu)
  exact (zpow_le_zpow_iff_right₀ (by norm_num)).mp hl

theorem toRat_nonneg (hn : d.negative = false) : 0 ≤ d.toRat := by
  have hz : (0 : ℚ) < 10 ^ d.exponent := zpow_pos (by norm_num) _
  simp only [toRat, hn, Bool.false_eq_true, if_false, one_mul]
  positivity

theorem toRat_of_exponent_zero (he : d.exponent = 0) (hn : d.negative = false) :
    d.toRat = d.coeff := by
  simp [toRat, he, hn]

-- A number is scaled by a change of its exponent.
theorem toRat_exponent_add (k : ℤ) :
    toRat { d with exponent := d.exponent + k } = d.toRat * 10 ^ k := by
  simp only [toRat, zpow_add₀ (by norm_num : (10 : ℚ) ≠ 0)]
  ring

-- What a number keeps when it is written with another exponent.
structure SameValue (d d' : Decimal) : Prop where
  value    : d'.toRat = d.toRat
  negative : d'.negative = d.negative
  form     : d'.form = d.form

theorem SameValue.reduce (h : SameValue d d') : SameValue d d'.reduce where
  value    := toRat_reduce.trans h.value
  negative := reduce_negative.trans h.negative
  form     := reduce_form.trans h.form

theorem coeff_eq {c c' : ℕ} {e e' : ℤ} (h : (c : ℚ) * 10 ^ e = c' * 10 ^ e') (hl : e ≤ e') :
    c = c' * 10 ^ (e' - e).toNat := by
  have hk : (c : ℚ) = (c' * 10 ^ (e' - e).toNat : ℕ) := by
    have hz : (10 : ℚ) ^ (e' - e).toNat = 10 ^ e' / 10 ^ e := by
      rw [← zpow_natCast, Int.toNat_of_nonneg (by omega), zpow_sub₀ (by norm_num)]
    rw [Nat.cast_mul, Nat.cast_pow, Nat.cast_ofNat, hz, mul_div_assoc',
      eq_div_iff (zpow_ne_zero _ (by norm_num))]
    exact h
  exact Nat.cast_injective hk

-- A positive number is written in one way only, if its coefficient has no trailing zeros.
theorem coeff_unique {c c' : ℕ} {e e' : ℤ} (h : (c : ℚ) * 10 ^ e = c' * 10 ^ e') (hc : ¬10 ∣ c)
    (hc' : ¬10 ∣ c') : c = c' ∧ e = e' := by
  wlog hl : e ≤ e' generalizing c c' e e'
  case inr =>
    obtain ⟨rfl, rfl⟩ := this h.symm hc' hc (by omega)
    exact ⟨rfl, rfl⟩
  have hk : c = c' * 10 ^ (e' - e).toNat := coeff_eq h hl
  cases hn : (e' - e).toNat
  case zero   => exact ⟨by simpa [hn] using hk, by omega⟩
  case succ k =>
    rw [hn, pow_succ, ← mul_assoc] at hk
    exact absurd ⟨_, hk.trans (mul_comm _ _)⟩ hc

-- Reduced numbers of one value are equal.
theorem SameValue.reduce_eq (h : SameValue d d') (hf : d.form = .finite) :
    d'.reduce = d.reduce := by
  obtain ⟨c, e, negative, form⟩ := d
  obtain ⟨c', e', negative', form'⟩ := d'
  obtain ⟨hv, rfl, rfl⟩ := h
  obtain rfl : form' = .finite := hf
  have hv : (c' : ℚ) * 10 ^ e' = c * 10 ^ e := by
    simp only [toRat, mul_assoc] at hv
    exact mul_left_cancel₀ (by split <;> norm_num) hv
  have hz : c' = 0 ↔ c = 0 := by
    have hp (e : ℤ) : (10 : ℚ) ^ e ≠ 0 := zpow_ne_zero _ (by norm_num)
    have hi : (c' : ℚ) * 10 ^ e' = 0 ↔ (c : ℚ) * 10 ^ e = 0 := by rw [hv]
    simpa [hp] using hi
  by_cases h₀ : c = 0
  case pos => simp [Decimal.reduce, h₀, hz.mpr h₀]
  case neg =>
    have hs := (strip_value c' c' e').trans <| hv.trans (strip_value c c e).symm
    obtain ⟨hc, he⟩ := coeff_unique hs (not_dvd_strip e' (hz.not.mpr h₀) le_rfl)
      (not_dvd_strip e h₀ le_rfl)
    simp [Decimal.reduce, h₀, hz.not.mpr h₀, hc, he]

theorem reduce_reduce : d.reduce.reduce = d.reduce := by
  by_cases hf : d.form = .finite
  case pos => exact SameValue.reduce_eq (SameValue.reduce ⟨rfl, rfl, rfl⟩) hf
  case neg => rw [show d.reduce = d by simp [reduce, hf], show d.reduce = d by simp [reduce, hf]]

-- No digit is lost if the exponent does not grow.
theorem rescale_exact {e : ℤ} (h : d.rescale e = some d') (he : e ≤ d.exponent) :
    SameValue d d' ∧ d'.exponent = e := by
  simp only [rescale, if_pos he, Option.ite_none_left_eq_some, Option.some.injEq] at h
  have ⟨_, h⟩ := h
  subst h
  refine ⟨⟨?_, rfl, rfl⟩, rfl⟩
  have hk : (10 : ℚ) ^ (d.exponent - e).toNat = 10 ^ (d.exponent - e) := by
    rw [← zpow_natCast, Int.toNat_of_nonneg (by omega)]
  simp only [toRat, Nat.cast_mul, Nat.cast_pow, Nat.cast_ofNat, hk, mul_assoc,
    ← zpow_add₀ (by norm_num : (10 : ℚ) ≠ 0)]
  congr
  omega

theorem rescale_exponent {e : ℤ} (h : d.rescale e = some d') :
    d'.exponent = e ∧ d'.negative = d.negative ∧ d'.form = d.form := by
  simp only [rescale, Option.ite_none_left_eq_some] at h
  obtain ⟨_, h⟩ := h
  split at h <;> cases h <;> exact ⟨rfl, rfl, rfl⟩

theorem rescale_eq_some {e : ℤ} (he : e ≤ d.exponent) (hm : d.exponent - e ≤ maxExponent) :
    ∃ d', d.rescale e = some d' := by
  simp [rescale, he, hm]

theorem roundToIntegralValue_exact (h : d.roundToIntegralValue = some d') (hf : d.form = .finite)
    (he : 0 ≤ d.exponent) : SameValue d d' ∧ d'.exponent = 0 := by
  simp only [roundToIntegralValue, hf, ne_eq, not_true_eq_false, if_false] at h
  exact rescale_exact h he

theorem quo_form {p : ℕ} {q : Decimal} (h : d.quo p d' = some q) : q.form = .finite := by
  simp only [quo] at h
  split at h
  case isTrue  => contradiction
  case isFalse =>
    split at h
    case isTrue  => contradiction
    case isFalse => cases h; rfl

theorem quantize_exact {p : ℕ} {e : ℤ} (h : d.quantize p e = some d') (hf : d.form = .finite)
    (he : e ≤ d.exponent) : SameValue d d' ∧ d'.exponent = e := by
  simp only [quantize, hf, Option.bind_eq_bind, Option.bind_eq_some_iff,
    Option.ite_none_left_eq_some, Option.some.injEq] at h
  have ⟨_, hr, _, hd⟩ := h
  exact rescale_exact (hd ▸ hr) he

end Decimal
