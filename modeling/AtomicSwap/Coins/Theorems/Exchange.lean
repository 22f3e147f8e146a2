import AtomicSwap.Coins.Theorems.Units
import AtomicSwap.Common.Types

namespace Coins

variable {d r u w x std : Decimal} {k m n p : ℕ} {e : ℤ} {a : EthAssetAmount}
variable {token : Option ERC20TokenInfo}

-- An amount with few decimals is a whole number of units.
theorem Representable.whole (hd : Representable k d) : ∃ m : ℕ, d.toRat * 10 ^ k = m := by
  obtain ⟨j, hj⟩ := Int.eq_ofNat_of_zero_le (by linarith [hd.decimals] : 0 ≤ d.exponent + k)
  refine ⟨d.coeff * 10 ^ j, ?_⟩
  rw [Decimal.toRat_eq hd.positive, ← zpow_natCast, mul_assoc, ← zpow_add₀ (by norm_num), hj]
  push_cast
  rw [zpow_natCast]

theorem not_exceedsDecimals_of_value (hf : d.form = .finite) (hn : d.negative = false)
    (hv : d.toRat = m * 10 ^ e) (he : -k ≤ e) : exceedsDecimals d k = false := by
  let d₀ : Decimal := { coeff := m, exponent := e }
  have hs : d₀.SameValue d := ⟨hv.trans (Decimal.toRat_eq (d := d₀) rfl).symm, hn, hf⟩
  rw [not_exceedsDecimals, hs.reduce_eq rfl]
  exact Decimal.le_reduce_exponent (by omega) he

-- What is left of a number after its rounding.
theorem roundToDecimalPlace_value (hf : d.form = .finite) (hn : d.negative = false)
    (h : roundToDecimalPlace d k = .ok u) :
    Representable k u ∧ ∃ m : ℕ, u.toRat = m * 10 ^ (-k : ℤ) ∧
      ∀ n : ℕ, d.toRat * 10 ^ k = n → m = n := by
  simp only [roundToDecimalPlace, Except.bind_ok_iff, orElse_eq_ok, Except.pure_ok_iff] at h
  obtain ⟨d₁, h₁, d₂, h₂, d₃, h₃, rfl⟩ := h
  obtain ⟨s₁, -⟩ := increaseExponent_eq_ok h₁
  obtain ⟨s₃, e₃⟩ := decreaseExponent_eq_ok h₃
  have hf₁ : d₁.form = .finite := s₁.form.trans hf
  have h₂ : d₁.rescale 0 = some d₂ := by simpa [Decimal.roundToIntegralValue, hf₁] using h₂
  obtain ⟨he, hn₂, hf₂⟩ := Decimal.rescale_exponent h₂
  have hn₂ : d₂.negative = false := hn₂.trans (s₁.negative.trans hn)
  refine ⟨⟨?_, ?_, ?_⟩, d₂.coeff, ?_, fun n hv => ?_⟩
  · rw [Decimal.reduce_form, s₃.form, hf₂, hf₁]
  · rw [Decimal.reduce_negative, s₃.negative, hn₂]
  · exact Decimal.le_reduce_exponent (by omega) (by omega)
  · rw [Decimal.toRat_reduce, s₃.value, Decimal.toRat_of_exponent_zero he hn₂]
  · refine Decimal.rescale_zero_coeff (s₁.negative.trans hn) h₂ ?_
    rw [s₁.value, zpow_natCast, hv]

theorem etherToWei_value (hf : d.form = .finite) (hn : d.negative = false)
    (h : etherToWei d = .ok w) (hv : d.toRat * 10 ^ numEtherDecimals = n) :
    w.form = .finite ∧ w.negative = false ∧ w.toRat = n := by
  simp only [etherToWei, Except.bind_ok_iff, noError_eq_ok] at h
  obtain ⟨d₁, h₁, h₂⟩ := h
  obtain ⟨s, -⟩ := increaseExponent_eq_ok h₁
  obtain ⟨hw, m, hm, hx⟩ :=
    roundToDecimalPlace_value (s.form.trans hf) (s.negative.trans hn) h₂
  have hm' := hx n (by rw [s.value, zpow_natCast, hv, pow_zero, mul_one])
  exact ⟨hw.finite, hw.positive, by simpa [hm'] using hm⟩

-- Two whole numbers that are this close are equal.
theorem eq_of_close (hn : n < 10 ^ k) (h : |(m : ℚ) - n| ≤ n / 10 ^ k) : m = n := by
  have hl : (n : ℚ) / 10 ^ k < 1 := by
    rw [div_lt_one (by positivity)]
    exact_mod_cast hn
  have hd : |(m : ℤ) - n| < 1 := by
    have : |(m : ℚ) - n| < 1 := h.trans_lt hl
    exact_mod_cast this
  have := Int.abs_lt_one_iff.mp hd
  omega

-- A rate that was accepted.
structure Rate (r : Decimal) : Prop extends Representable maxExchangeRateDecimals r where
  reduced : r.reduce = r
  pos     : 0 < r.toRat

theorem Rate.of_validatePositive {name : String} {v : Option Decimal}
    (h : validatePositive name maxExchangeRateDecimals v = .ok r) : Rate r where
  toRepresentable := (validatePositive_eq_ok h).left
  reduced         := (validatePositive_pos h).left
  pos             := (validatePositive_pos h).right

theorem toXMR_inv (h : ExchangeRate.toXMR r a = .ok x) : ∃ std q, a.asStd = .ok std ∧
    std.quo maxCoinPrecision r = some q ∧ exceedsDecimals q numMoneroDecimals = false ∧
    x = q.reduce := by
  simp only [ExchangeRate.toXMR, Except.bind_ok_iff, orElse_eq_ok] at h
  obtain ⟨std, hs, q, hq, h⟩ := h
  split at h
  case isTrue     => contradiction
  case isFalse hx => exact ⟨std, q, hs, hq, by simpa using hx, by cases h; rfl⟩

-- A quotient that was rounded has more decimals than XMR allows.
theorem toXMR_exact (hr : Rate r) (hs : a.asStd = .ok std) (hn : std.negative = false)
    (hv : std.toRat * 10 ^ numEtherDecimals = n) (hl : n < 10 ^ (maxCoinPrecision - 1))
    (h : ExchangeRate.toXMR r a = .ok x) :
    exceedsDecimals x numMoneroDecimals = false ∧ x.toRat * r.toRat = std.toRat := by
  obtain ⟨_, q, hs', hq, hx, rfl⟩ := toXMR_inv h
  cases hs.symm.trans hs'
  have hnq : q.negative = false := by
    obtain ⟨-, hq, -⟩ := Decimal.quo_eq_some.mp hq
    simp [hq, Decimal.rounded, hn, hr.positive]
  have hqr : Representable numMoneroDecimals q.reduce := .of_reduce (Decimal.quo_form hq) hnq hx
  obtain ⟨i, hi⟩ := hqr.whole
  obtain ⟨j, hj⟩ := hr.whole
  have hc := Decimal.quo_close hn hr.positive (by decide) hq
  refine ⟨hqr.not_exceedsDecimals, ?_⟩
  have hz : (0 : ℚ) < 10 ^ numEtherDecimals := by positivity
  have hm : (i * j : ℕ) = q.reduce.toRat * r.toRat * 10 ^ numEtherDecimals := by
    push_cast
    rw [← hi, ← hj]
    simp only [numMoneroDecimals, maxExchangeRateDecimals, numEtherDecimals]
    ring
  have he : i * j = n := by
    refine eq_of_close hl ?_
    rw [hm, ← hv, ← sub_mul, abs_mul, abs_of_pos hz, mul_div_right_comm,
      Decimal.toRat_reduce]
    exact mul_le_mul_of_nonneg_right hc hz.le
  exact mul_right_cancel₀ hz.ne' (by rw [← hm, he, hv])

theorem asStd_ok (hd : Representable (decimalsOf token) d) (hr : d.reduce = d)
    (h : newEthAssetAmount d token = .ok a) : a.asStd = .ok d := by
  obtain ⟨std, hs⟩ : ∃ std, a.asStd = .ok std := by
    cases a
    case token => exact ⟨_, rfl⟩
    case wei w =>
      have he : 0 ≤ w.exponent := (inUnits_scaled hd h rfl).right
      have hw := decreaseExponent_ok (d := w) (k := numEtherDecimals) <| by
        simp only [numEtherDecimals]
        omega
      exact ⟨_, Except.bind_ok_iff.mpr ⟨_, hw, rfl⟩⟩
  rw [hs, asStd_eq hd hr h hs]

-- An amount that is a product with the rate.
structure Multiple (r : Decimal) (m : ℕ) (e : ℤ) (d : Decimal) : Prop where
  value    : d.toRat = m * 10 ^ e * r.toRat
  pos      : 0 < m
  decimals : -numMoneroDecimals ≤ e
  digits   : m < 10 ^ maxCoinPrecision
  limit    : (m : ℚ) * 10 ^ e < 10 ^ maxCoinPrecision

theorem zpow_limits (hm : 0 < m) (he : -(k : ℤ) ≤ e) (hk : (k : ℤ) ≤ Decimal.maxExponent)
    (hp : (p : ℤ) ≤ Decimal.maxExponent) (hu : (m : ℚ) * 10 ^ e < 10 ^ p) :
    (10 : ℚ) ^ (-Decimal.maxExponent) ≤ m * 10 ^ e ∧
    (m : ℚ) * 10 ^ e < 10 ^ Decimal.maxExponent := by
  constructor
  · have hm : (1 : ℚ) ≤ m := by exact_mod_cast hm
    have hl : (10 : ℚ) ^ (-Decimal.maxExponent) ≤ 10 ^ e :=
      zpow_le_zpow_right₀ (by norm_num) (by omega)
    exact hl.trans (le_mul_of_one_le_left (by positivity) hm)
  · rw [← zpow_natCast] at hu
    exact hu.trans_le (zpow_le_zpow_right₀ (by norm_num) hp)

theorem Multiple.toRat_pos (hr : Rate r) (hm : Multiple r m e d) : 0 < d.toRat := by
  have := hm.pos
  have := hr.pos
  rw [hm.value]
  positivity

theorem toXMR_ok (hr : Rate r) (hs : a.asStd = .ok d) (hf : d.form = .finite)
    (hn : d.negative = false) (hi : Decimal.InLimits d r) (hm : Multiple r m e d) :
    ∃ x, ExchangeRate.toXMR r a = .ok x ∧ x.reduce = x ∧ x.form = .finite ∧ x.negative = false ∧
      x.toRat = m * 10 ^ e := by
  have ⟨hl, hu⟩ := zpow_limits hm.pos hm.decimals (by decide) (by decide) hm.limit
  obtain ⟨q, hq, hv, hnq⟩ := Decimal.quo_ok hf hr.finite hi hn hr.positive (by decide) hm.digits
    hl hu (Decimal.coeff_ne_zero (hm.toRat_pos hr)) (Decimal.coeff_ne_zero hr.pos) hm.value
  have hfq := Decimal.quo_form hq
  have hx := not_exceedsDecimals_of_value hfq hnq hv hm.decimals
  refine ⟨q.reduce, ?_, Decimal.reduce_reduce, ?_, ?_, ?_⟩
  · simp [ExchangeRate.toXMR, hs, hq, orElse, hx]
  all_goals simp [hfq, hnq, hv]

-- Such an amount of an asset has an amount of XMR.
theorem toXMR_newEthAssetAmount (token : Option ERC20TokenInfo) (hr : Rate r)
    (hi : |r.exponent| ≤ Decimal.maxExponent) (hd : Representable (decimalsOf token) d)
    (hrd : d.reduce = d) (hv : d.toRat * 10 ^ decimalsOf token < 10 ^ maxCoinPrecision)
    (hk : decimalsOf token ≤ 255) (hm : Multiple r m e d) :
    ∃ a x, newEthAssetAmount d token = .ok a ∧ ExchangeRate.toXMR r a = .ok x ∧ x.reduce = x ∧
      x.form = .finite ∧ x.negative = false ∧ x.toRat = m * 10 ^ e := by
  have he := exponent_add_lt hd.positive (Decimal.coeff_ne_zero (hm.toRat_pos hr)) hv
  have hl := hd.decimals
  have hi : Decimal.InLimits d r := by
    refine ⟨abs_le.mpr ?_, hi⟩
    simp only [maxCoinPrecision, Decimal.maxExponent] at he ⊢
    omega
  obtain ⟨a, -, ha, -⟩ := newEthAssetAmount_ok hd hrd
    (he.le.trans (by decide : (maxCoinPrecision : ℤ) ≤ _)) hv
  obtain ⟨x, hx⟩ := toXMR_ok hr (asStd_ok hd hrd ha) hd.finite hd.positive hi hm
  exact ⟨a, x, ha, hx⟩

theorem mul_zpow_lt (hm : m < 2 ^ 256) (he : e ≤ 0) :
    (m : ℚ) * 10 ^ e < 10 ^ maxCoinPrecision := by
  have hz : (10 : ℚ) ^ e ≤ 1 := zpow_le_one_of_nonpos₀ (by norm_num) he
  have hl : (m : ℚ) < 10 ^ maxCoinPrecision := by exact_mod_cast hm.trans (by decide)
  exact (mul_le_of_le_one_right (by positivity) hz).trans_lt hl

theorem Rate.exponent_le (hr : Rate r) (hv : r.toRat < 10 ^ maxCoinPrecision) :
    |r.exponent| ≤ Decimal.maxExponent := by
  have hu := exponent_add_lt (k := 0) hr.positive (Decimal.coeff_ne_zero hr.pos)
    (by simpa using hv)
  have hl := hr.decimals
  simp only [maxCoinPrecision, maxExchangeRateDecimals, Decimal.maxExponent] at hl hu ⊢
  exact abs_le.mpr (by omega)

section ToETH

variable (hr : Rate r) (hf : x.form = .finite) (hn : x.negative = false) (hp : 0 < x.toRat)
variable (hx : exceedsDecimals x numMoneroDecimals = false)
variable (hv : r.toRat * x.toRat * 10 ^ numEtherDecimals < 2 ^ 256)
include hr hp hx hv hn hf

-- Both factors as whole numbers.
theorem factors_whole : ∃ i j : ℕ, 0 < i ∧ 0 < j ∧ i * j < 2 ^ 256 ∧
    x.toRat = i * 10 ^ (-12 : ℤ) ∧ r.toRat = j * 10 ^ (-6 : ℤ) := by
  have hxr : Representable numMoneroDecimals x.reduce := .of_reduce hf hn hx
  obtain ⟨i, hi⟩ := hxr.whole
  obtain ⟨j, hj⟩ := hr.whole
  have hr := hr.pos
  rw [Decimal.toRat_reduce] at hi
  simp only [numMoneroDecimals, maxExchangeRateDecimals, numEtherDecimals] at hi hj hv
  refine ⟨i, j, ?_, ?_, ?_, by rw [← hi]; ring, by rw [← hj]; ring⟩
  · have : (0 : ℚ) < i := by rw [← hi]; positivity
    exact_mod_cast this
  · have : (0 : ℚ) < j := by rw [← hj]; positivity
    exact_mod_cast this
  · have : (i * j : ℚ) < 2 ^ 256 := by
      rw [← hi, ← hj]
      linarith
    exact_mod_cast this

theorem toETH_exact (hi : |x.exponent| ≤ Decimal.maxExponent) :
    ∃ eth w, ExchangeRate.toETH r x = .ok eth ∧ eth.toRat = x.toRat * r.toRat ∧
      etherToWei eth = .ok w ∧ ExchangeRate.toXMR r (.wei w) = .ok x.reduce := by
  obtain ⟨i, j, hi₀, hj₀, hij, hxi, hrj⟩ := factors_whole hr hf hn hp hx hv
  have hj : j < 2 ^ 256 := lt_of_le_of_lt (Nat.le_mul_of_pos_left j hi₀) hij
  have hi' : i < 2 ^ 256 := lt_of_le_of_lt (Nat.le_mul_of_pos_right i hj₀) hij
  have hre := hr.exponent_le (hrj ▸ mul_zpow_lt hj (by omega))
  have hxr : x.toRat * r.toRat = (i * j : ℕ) * 10 ^ (-18 : ℤ) := by
    rw [hxi, hrj]
    push_cast
    ring
  have hl : ((i * j : ℕ) : ℚ) * 10 ^ (-18 : ℤ) < 10 ^ maxCoinPrecision :=
    mul_zpow_lt hij (by omega)
  have ⟨hl', hu'⟩ := zpow_limits (k := 18) (e := -18) (Nat.mul_pos hi₀ hj₀) le_rfl (by decide)
    (by decide) hl
  obtain ⟨q, hq, hqv, hqn⟩ := Decimal.mul_ok hf hr.finite ⟨hi, hre⟩ hn hr.positive
    (by decide : maxCoinPrecision ≠ 0) (hij.trans (by decide)) hl' hu' hxr
  have hqx := not_exceedsDecimals_of_value (k := numEtherDecimals) (Decimal.mul_form hq) hqn hqv
    le_rfl
  have hm : Multiple r i (-12) q.reduce :=
    { value    := by rw [Decimal.toRat_reduce, hqv, ← hxr, hxi]
      pos      := hi₀
      decimals := le_rfl
      digits   := hi'.trans (by decide)
      limit    := mul_zpow_lt hi' (by omega) }
  have hlim : q.reduce.toRat * 10 ^ decimalsOf none < 10 ^ maxCoinPrecision := by
    rw [Decimal.toRat_reduce, hqv, ← hxr, mul_comm x.toRat]
    exact hv.trans (by norm_num [maxCoinPrecision])
  obtain ⟨a, y, ha, hy, hyr, hyf, hyn, hyv⟩ := toXMR_newEthAssetAmount none hr hre
    (.of_reduce (Decimal.mul_form hq) hqn hqx) Decimal.reduce_reduce hlim (by decide) hm
  obtain ⟨w, hw, ha⟩ := Except.bind_ok_iff.mp ha
  cases ha
  have hs : x.SameValue y := ⟨hyv.trans hxi.symm, hyn.trans hn.symm, hyf.trans hf.symm⟩
  refine ⟨q.reduce, w, ?_, ?_, hw, ?_⟩
  · simp [ExchangeRate.toETH, hq, orElse, hqx]
  · rw [Decimal.toRat_reduce, hqv, hxr]
  · rw [hy, ← hyr, hs.reduce_eq hf]

end ToETH

theorem negative_eq_false (hp : 0 < d.toRat) : d.negative = false := by
  by_contra hn
  have hz : (0 : ℚ) ≤ d.coeff * 10 ^ d.exponent := by positivity
  simp only [Decimal.toRat, Bool.eq_true_of_not_eq_false hn, if_true, neg_mul, one_mul] at hp
  linarith

-- The exchange of an amount is exact in both directions.
theorem exchange_exact {v : Decimal}
    (hr : validatePositive "exchangeRate" maxExchangeRateDecimals (some v) = .ok r) :
    (∀ a w x, a.form = .finite → a.negative = false → exceedsDecimals a numEtherDecimals = false →
      a.toRat * 10 ^ numEtherDecimals < 2 ^ 256 → etherToWei a = .ok w →
      ExchangeRate.toXMR r (.wei w) = .ok x →
      exceedsDecimals x numMoneroDecimals = false ∧ x.toRat * r.toRat = a.toRat) ∧
    (∀ hash o offer x, Offer.validate hash o = .ok offer →
      offer.minAmount.toRat ≤ x.toRat → x.toRat ≤ offer.maxAmount.toRat →
      x.form = .finite → exceedsDecimals x numMoneroDecimals = false →
      |x.exponent| ≤ Decimal.maxExponent → r.toRat * x.toRat * 10 ^ numEtherDecimals < 2 ^ 256 →
      ∃ eth w, ExchangeRate.toETH r x = .ok eth ∧ eth.toRat = x.toRat * r.toRat ∧
        etherToWei eth = .ok w ∧ ExchangeRate.toXMR r (.wei w) = .ok x.reduce) := by
  have hr := Rate.of_validatePositive hr
  constructor
  case left =>
    intro a w x hf hn ha hl hw hx
    obtain ⟨n, hv⟩ := (Representable.of_reduce hf hn ha).whole
    rw [Decimal.toRat_reduce] at hv
    have hlt : n < 10 ^ (maxCoinPrecision - 1) := by
      rw [hv] at hl
      have : n < 2 ^ 256 := by exact_mod_cast hl
      exact this.trans (by decide)
    obtain ⟨-, hwn, hwv⟩ := etherToWei_value hf hn hw hv
    obtain ⟨std, -, hs, -⟩ := toXMR_inv hx
    have s := asEther_eq_ok hs
    have hsv : std.toRat = a.toRat := by
      rw [s.value, hwv, ← hv, mul_assoc, ← zpow_natCast, ← zpow_add₀ (by norm_num),
        add_neg_cancel, zpow_zero, mul_one]
    have he := toXMR_exact hr hs (s.negative.trans hwn) (hsv ▸ hv) hlt hx
    exact ⟨he.left, he.right.trans hsv⟩
  case right =>
    intro hash o offer x ho hmin _ hf hx hi hv
    have hp : 0 < x.toRat := (Offer.validate_eq_ok ho).min_pos.trans_le hmin
    exact toETH_exact hr hf (negative_eq_false hp) hp hx hv hi

-- 3 ETH are 30 XMR at a rate of 0.1, and 30 XMR are 3 ETH.
theorem exchange_exact_tenth : let r : Decimal := { coeff := 1, exponent := -1 }
    let x : Decimal := { coeff := 3, exponent := 1 }
    (exceedsDecimals x numMoneroDecimals = false ∧
      x.toRat * r.toRat = Decimal.toRat { coeff := 3 }) ∧
    ∃ eth w, ExchangeRate.toETH r x = .ok eth ∧ eth.toRat = x.toRat * r.toRat ∧
      etherToWei eth = .ok w ∧ ExchangeRate.toXMR r (.wei w) = .ok x.reduce := by
  intro r x
  let o : Offer := ⟨1, { coeff := 1 }, { coeff := 1, exponent := 3 }, { coeff := 1 }, 0⟩
  have h := exchange_exact (v := r) (r := r) (by decide)
  refine ⟨h.left { coeff := 3 } { coeff := 3, exponent := 18 } x rfl rfl (by decide) ?_ ?_ ?_,
    h.right (fun _ => 1) o o x (by decide +kernel) ?_ ?_ rfl (by decide) (by decide) ?_⟩
  · norm_num [Decimal.toRat, numEtherDecimals]
  · decide +kernel
  · decide +kernel
  · norm_num [Decimal.toRat, x, o]
  · norm_num [Decimal.toRat, x, o]
  · norm_num [Decimal.toRat, x, r, numEtherDecimals]

-- The asset of an amount.
def EthAssetAmount.tokenInfo : EthAssetAmount → Option ERC20TokenInfo
  | .wei _        => none
  | .token _ info => some info

theorem decimalsOf_tokenInfo : decimalsOf a.tokenInfo = a.numStdDecimals := by
  cases a <;> rfl

theorem calcAltNumeratorAmount_inv {s q : Decimal} (hr : r.reduce = r)
    (h : calcAltNumeratorAmount n k r q = .ok (some s)) :
    ∃ p : ℕ, (p : ℤ) ≤ r.exponent + n ∧ r.exponent + n ≤ 255 ∧ p ≤ k ∧
      ∃ u t, roundToDecimalPlace q p = .ok u ∧ u.mul maxCoinPrecision r = some t ∧ s = t.reduce ∧
        s.isZero = false := by
  simp only [calcAltNumeratorAmount, hr] at h
  split at h
  case isTrue     => cases h
  case isFalse hp =>
    refine ⟨min (r.exponent + n).toNat k, by omega, by omega, by omega, ?_⟩
    split at h
    case h_1      => cases h
    case h_2      => cases h
    case h_3 u hu =>
      split at h
      case h_1      => cases h
      case h_2 t ht =>
        rw [Except.ok.injEq, Option.ite_none_left_eq_some, Option.some.injEq] at h
        exact ⟨u, t, hu, ht, h.right.symm, by simpa [← h.right] using h.left⟩

-- The product is exact if the amount is small enough.
theorem suggestion_value {t : Decimal} (hr : Rate r) (hu : Representable p u)
    (hp : (p : ℤ) ≤ r.exponent + n) (ht : u.mul maxCoinPrecision r = some t)
    (hv : t.toRat * 10 ^ n < 2 ^ 256) : -n ≤ t.exponent ∧ t.toRat = u.toRat * r.toRat := by
  obtain ⟨-, hq, -⟩ := Decimal.mul_eq_some.mp ht
  have hn : t.negative = false := by simp [hq, Decimal.rounded, hu.positive, hr.positive]
  have he : -n ≤ t.exponent := by
    have := Decimal.le_rounded_exponent hq
    have := hu.decimals
    omega
  obtain ⟨j, hj⟩ := Int.eq_ofNat_of_zero_le (by omega : 0 ≤ t.exponent + n)
  refine ⟨he, ?_⟩
  have hc : t.coeff < 10 ^ (maxCoinPrecision - 1) := by
    rw [Decimal.toRat_eq hn, mul_assoc, ← zpow_natCast, ← zpow_add₀ (by norm_num), hj] at hv
    have hv : t.coeff * 10 ^ j < 2 ^ 256 := by exact_mod_cast hv
    exact (Nat.le_mul_of_pos_right _ (by positivity)).trans_lt (hv.trans (by decide))
  rw [Decimal.toRat_eq hn, Decimal.rounded_exact_of_lt hq hc (by decide),
    Decimal.toRat_eq hu.positive, Decimal.toRat_eq hr.positive, zpow_add₀ (by norm_num)]
  push_cast
  ring

theorem suggestion_multiple {t : Decimal} (hr : Rate r) (hm : u.toRat = m * 10 ^ (-p : ℤ))
    (hp : (p : ℤ) ≤ r.exponent + n) (hk : p ≤ numMoneroDecimals) (ht : t.toRat = u.toRat * r.toRat)
    (hv : t.toRat * 10 ^ n < 2 ^ 256) (hz : 0 < t.toRat) : Multiple r m (-p) t := by
  have hm₀ : 0 < m := by
    refine Nat.pos_of_ne_zero fun h₀ => hz.ne' ?_
    rw [ht, hm, h₀, Nat.cast_zero, zero_mul, zero_mul]
  -- One unit of the rounded result is a whole number of units of the asset.
  have h₁ : (1 : ℚ) ≤ 10 ^ (-p : ℤ) * r.toRat * 10 ^ n := by
    have hc : (1 : ℚ) ≤ r.coeff := by
      exact_mod_cast Nat.one_le_iff_ne_zero.mpr (Decimal.coeff_ne_zero hr.pos)
    have he : (1 : ℚ) ≤ 10 ^ (-p + r.exponent + n) := one_le_zpow₀ (by norm_num) (by omega)
    rw [zpow_add₀ (by norm_num), zpow_add₀ (by norm_num), zpow_natCast] at he
    rw [Decimal.toRat_eq hr.positive]
    nlinarith
  have hlt : m < 2 ^ 256 := by
    have hle : (m : ℚ) ≤ t.toRat * 10 ^ n := by
      rw [ht, hm, mul_assoc, mul_assoc, ← mul_assoc (10 ^ _)]
      exact le_mul_of_one_le_right (by positivity) h₁
    exact_mod_cast hle.trans_lt hv
  exact
    { value    := ht.trans (by rw [hm])
      pos      := hm₀
      decimals := by omega
      digits   := hlt.trans (by decide)
      limit    := mul_zpow_lt hlt (by omega) }

-- The amount that the error suggests can be exchanged.
theorem suggestedAltAmt_toXMR {v s : Decimal}
    (hr : validatePositive "exchangeRate" maxExchangeRateDecimals (some v) = .ok r)
    (hk : a.numStdDecimals ≤ 255) (hs : a.asStd = .ok d) (hp : 0 < d.toRat)
    (h : ExchangeRate.suggestedAltAmt r a = .ok (some s))
    (hv : s.toRat * 10 ^ a.numStdDecimals < 2 ^ 256) :
    0 < s.toRat ∧ exceedsDecimals s a.numStdDecimals = false ∧
    ∃ a' x, newEthAssetAmount s a.tokenInfo = .ok a' ∧ ExchangeRate.toXMR r a' = .ok x := by
  have hr := Rate.of_validatePositive hr
  simp only [ExchangeRate.suggestedAltAmt, hs, Except.bind_ok_iff, orElse_eq_ok, Except.ok.injEq,
    exists_eq_left'] at h
  obtain ⟨q, hq, h⟩ := h
  obtain ⟨p, hpn, hpu, hpk, u, t, hu, ht, rfl, hz⟩ := calcAltNumeratorAmount_inv hr.reduced h
  have hqn : q.reduce.negative = false := by
    obtain ⟨-, hq, -⟩ := Decimal.quo_eq_some.mp hq
    simp [hq, Decimal.rounded, negative_eq_false hp, hr.positive]
  have hqf : q.reduce.form = .finite := Decimal.reduce_form.trans (Decimal.quo_form hq)
  obtain ⟨hur, m, hm, -⟩ := roundToDecimalPlace_value hqf hqn hu
  rw [Decimal.toRat_reduce] at hv
  obtain ⟨hte, htv⟩ := suggestion_value hr hur hpn ht hv
  have htn : t.negative = false := by
    obtain ⟨-, hq, -⟩ := Decimal.mul_eq_some.mp ht
    simp [hq, Decimal.rounded, hur.positive, hr.positive]
  have htp : 0 < t.toRat := by
    refine lt_of_le_of_ne (Decimal.toRat_nonneg htn) fun h₀ => ?_
    have hf : t.reduce.form = .finite := Decimal.reduce_form.trans (Decimal.mul_form ht)
    simp [Decimal.isZero_iff.mpr ⟨hf, Decimal.toRat_reduce.trans h₀.symm⟩] at hz
  have hd : Representable (decimalsOf a.tokenInfo) t.reduce :=
    { finite   := Decimal.reduce_form.trans (Decimal.mul_form ht)
      positive := Decimal.reduce_negative.trans htn
      decimals := Decimal.le_reduce_exponent (by omega) (by rwa [decimalsOf_tokenInfo]) }
  have hmul := suggestion_multiple hr hm hpn hpk htv hv htp
  refine ⟨by rwa [Decimal.toRat_reduce], decimalsOf_tokenInfo (a := a) ▸ hd.not_exceedsDecimals, ?_⟩
  have hre : |r.exponent| ≤ Decimal.maxExponent := by
    have := hr.decimals
    simp only [maxExchangeRateDecimals, Decimal.maxExponent] at this ⊢
    exact abs_le.mpr (by omega)
  obtain ⟨a', x, ha, hx, -⟩ := toXMR_newEthAssetAmount _ hr hre hd Decimal.reduce_reduce
    (by
      rw [decimalsOf_tokenInfo, Decimal.toRat_reduce]
      exact hv.trans (by norm_num [maxCoinPrecision]))
    (by rwa [decimalsOf_tokenInfo])
    { hmul with value := Decimal.toRat_reduce.trans hmul.value }
  exact ⟨a', x, ha, hx⟩

-- 1 ETH at a rate of 0.3, for which 0.9999999999999 ETH is suggested.
theorem suggestedAltAmt_toXMR_third : let r : Decimal := { coeff := 3, exponent := -1 }
    let a : EthAssetAmount := .wei { coeff := 1, exponent := 18 }
    let s : Decimal := { coeff := 9999999999999, exponent := -13 }
    ExchangeRate.toXMR r a = .error .exceedsXMRPrecision ∧
    ExchangeRate.suggestedAltAmt r a = .ok (some s) ∧
    0 < s.toRat ∧ exceedsDecimals s numEtherDecimals = false ∧
    ∃ a' x, newEthAssetAmount s none = .ok a' ∧ ExchangeRate.toXMR r a' = .ok x := by
  intro r a s
  have h : ExchangeRate.suggestedAltAmt r a = .ok (some s) := by decide +kernel
  refine ⟨by decide +kernel, h, ?_⟩
  refine suggestedAltAmt_toXMR (v := r) (a := a) (d := { coeff := 1 }) (by decide) (by decide)
    (by decide) (by norm_num [Decimal.toRat]) h ?_
  norm_num [Decimal.toRat, EthAssetAmount.numStdDecimals, numEtherDecimals, a, s]

end Coins
