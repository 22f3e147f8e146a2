import AtomicSwap.Coins
import AtomicSwap.Library.Decimal.Rounding

namespace Coins

variable {d u w : Decimal} {k n p : ℕ} {a : EthAssetAmount} {token : Option ERC20TokenInfo}

-- The amount in the smallest units of its asset.
def EthAssetAmount.InUnits : EthAssetAmount → Decimal → Prop
  | .wei amount,        u => u = amount
  | .token amount info, u => increaseExponent amount info.numDecimals = .ok u

theorem bigInt_eq_ok : a.bigInt = .ok n ↔
    ∃ u q, a.InUnits u ∧ u.quantize maxCoinPrecision 0 = some q ∧ q.coeff = n := by
  cases a <;> simp only [EthAssetAmount.bigInt, EthAssetAmount.InUnits, Except.bind_ok_iff,
    Except.pure_ok_iff, orElse_eq_ok]
  case wei   => simp
  case token => simp

theorem inUnits_scaled (hd : Representable (decimalsOf token) d)
    (h : newEthAssetAmount d token = .ok a) (hu : a.InUnits u) :
    Scaled d (decimalsOf token) u ∧ 0 ≤ u.exponent := by
  cases token
  case none =>
    simp only [newEthAssetAmount, Except.bind_ok_iff, Except.pure_ok_iff] at h
    obtain ⟨w, hw, rfl⟩ := h
    obtain rfl := hu
    exact etherToWei_eq_ok hw hd.finite hd.decimals
  case some token =>
    have hx : exceedsDecimals d token.numDecimals = false := hd.not_exceedsDecimals
    rw [newEthAssetAmount, newTokenAmountFromDecimals, hx] at h
    cases h
    obtain ⟨s, he⟩ := increaseExponent_eq_ok hu
    have hr := (Representable.of_reduce hd.finite hd.positive hx).decimals
    refine ⟨⟨?_, ?_, ?_⟩, by omega⟩
    · rw [s.value, Decimal.toRat_reduce]; rfl
    · rw [s.negative, Decimal.reduce_negative]
    · rw [s.form, Decimal.reduce_form]

theorem quantize_lt {q : Decimal} (hf : u.form = .finite) (hp : p ≠ 0)
    (h : u.quantize p 0 = some q) : q.coeff < 10 ^ p := by
  simp only [Decimal.quantize, hf, Option.bind_eq_bind, Option.bind_eq_some_iff,
    Option.ite_none_left_eq_some, Option.some.injEq] at h
  obtain ⟨_, _, hl, rfl⟩ := h
  exact (Decimal.numDigits_le hp).mp (not_lt.mp hl)

theorem quantize_ok (hf : u.form = .finite) (hn : u.negative = false) (hl : 0 ≤ u.exponent)
    (hu : u.exponent ≤ Decimal.maxExponent) (hp : p ≠ 0) (hv : u.toRat < 10 ^ p) :
    ∃ q, u.quantize p 0 = some q := by
  obtain ⟨q, hq⟩ := Decimal.rescale_eq_some hl (by omega)
  obtain ⟨s, he⟩ := Decimal.rescale_exact hq hl
  have hc : q.coeff < 10 ^ p := by
    rw [← s.value, Decimal.toRat_of_exponent_zero he (s.negative.trans hn)] at hv
    exact_mod_cast hv
  have hd : ¬q.numDigits > p := not_lt.mpr <| (Decimal.numDigits_le hp).mpr hc
  exact ⟨q, by simp [Decimal.quantize, hf, hq, hd]⟩

-- A large exponent belongs to a large amount.
theorem exponent_add_lt (hn : d.negative = false) (hc : d.coeff ≠ 0)
    (hv : d.toRat * 10 ^ k < 10 ^ p) : d.exponent + k < p := by
  have hl : (1 : ℚ) ≤ d.coeff := by exact_mod_cast Nat.one_le_iff_ne_zero.mpr hc
  have hz : (10 : ℚ) ^ (d.exponent + k) < 10 ^ (p : ℤ) := by
    rw [zpow_add₀ (by norm_num), zpow_natCast, zpow_natCast]
    refine lt_of_le_of_lt (mul_le_mul_of_nonneg_right ?_ (by positivity)) hv
    rw [Decimal.toRat_eq hn]
    exact le_mul_of_one_le_left (by positivity) hl
  exact (zpow_lt_zpow_iff_right₀ (by norm_num)).mp hz

theorem exponent_add_le (hf : d.form = .finite) (hn : d.negative = false) (hr : d.reduce = d)
    (hk : (k : ℤ) ≤ Decimal.maxExponent) (hp : (p : ℤ) ≤ Decimal.maxExponent)
    (hv : d.toRat * 10 ^ k < 10 ^ p) : d.exponent + k ≤ Decimal.maxExponent := by
  by_cases hc : d.coeff = 0
  case neg => exact (exponent_add_lt hn hc hv).le.trans hp
  case pos =>
    have he : d.exponent = 0 := by
      rw [← hr]
      simp [Decimal.reduce, hf, hc]
    omega

theorem roundToDecimalPlace_reduced (h : roundToDecimalPlace d k = .ok u) : u.reduce = u := by
  simp only [roundToDecimalPlace, Except.bind_ok_iff, Except.pure_ok_iff] at h
  obtain ⟨_, _, _, _, _, _, rfl⟩ := h
  exact Decimal.reduce_reduce

theorem etherToWei_reduced (h : etherToWei d = .ok w) : w.reduce = w := by
  simp only [etherToWei, Except.bind_ok_iff, noError_eq_ok] at h
  obtain ⟨_, _, h⟩ := h
  exact roundToDecimalPlace_reduced h

theorem newTokenAmountFromDecimals_eq {info : ERC20TokenInfo}
    (hd : Representable info.numDecimals d) (hr : d.reduce = d) :
    newTokenAmountFromDecimals d info = .ok (.token d info) := by
  simp [newTokenAmountFromDecimals, hd.not_exceedsDecimals, hr]

theorem newEthAssetAmount_ok (hd : Representable (decimalsOf token) d) (hr : d.reduce = d)
    (he : d.exponent + decimalsOf token ≤ Decimal.maxExponent)
    (hv : d.toRat * 10 ^ decimalsOf token < 10 ^ maxCoinPrecision) :
    ∃ a n, newEthAssetAmount d token = .ok a ∧ a.bigInt = .ok n := by
  obtain ⟨a, u, ha, hu, hm⟩ : ∃ a u, newEthAssetAmount d token = .ok a ∧ a.InUnits u ∧
      u.exponent ≤ Decimal.maxExponent := by
    cases token
    case none =>
      obtain ⟨w, hw⟩ : ∃ w, etherToWei d = .ok w := toUnits_ok hd.finite hd.decimals he
      have s := (etherToWei_eq_ok hw hd.finite hd.decimals).left
      have hw' := exponent_add_le (k := 0) (s.form.trans hd.finite) (s.negative.trans hd.positive)
        (etherToWei_reduced hw) (by decide) (by decide : (maxCoinPrecision : ℤ) ≤ _)
        (by simpa [s.value, decimalsOf] using hv)
      exact ⟨.wei w, w, Except.bind_ok_iff.mpr ⟨w, hw, rfl⟩, rfl, by simpa using hw'⟩
    case some token =>
      exact ⟨.token d token, _, newTokenAmountFromDecimals_eq hd hr, increaseExponent_ok he, he⟩
  obtain ⟨s, h₀⟩ := inUnits_scaled hd ha hu
  obtain ⟨q, hq⟩ := quantize_ok (s.form.trans hd.finite) (s.negative.trans hd.positive) h₀ hm
    (by decide : maxCoinPrecision ≠ 0) (by rwa [s.value, zpow_natCast])
  exact ⟨a, q.coeff, ha, bigInt_eq_ok.mpr ⟨u, q, hu, hq, rfl⟩⟩

-- An amount that passes the check becomes a `big.Int` if it has at most 100 digits in the smallest
-- units. Only its digits without the trailing zeros are checked.
theorem validatePositive_bigInt_iff {name : String} {v : Decimal}
    (h : validatePositive name (decimalsOf token) (some v) = .ok d) :
    (∃ a n, newEthAssetAmount d token = .ok a ∧ a.bigInt = .ok n ∧
      (n : ℚ) = v.toRat * 10 ^ decimalsOf token) ↔
    v.toRat * 10 ^ decimalsOf token < 10 ^ maxCoinPrecision := by
  obtain ⟨hd, _, hv, hx⟩ := validatePositive_eq_ok h
  obtain ⟨hr, hp⟩ := validatePositive_pos h
  cases hv
  rw [← hx]
  constructor
  case mp =>
    rintro ⟨a, n, ha, hn, hv⟩
    obtain ⟨u, q, hu, hq, rfl⟩ := bigInt_eq_ok.mp hn
    have s := (inUnits_scaled hd ha hu).left
    rw [← hv]
    exact_mod_cast quantize_lt (s.form.trans hd.finite) (by decide : maxCoinPrecision ≠ 0) hq
  case mpr =>
    intro hv
    have he : d.exponent + decimalsOf token < (maxCoinPrecision : ℕ) :=
      exponent_add_lt hd.positive (Decimal.coeff_ne_zero hp) hv
    obtain ⟨a, n, ha, hn⟩ := newEthAssetAmount_ok hd hr
      (he.le.trans (by decide : (maxCoinPrecision : ℤ) ≤ _)) hv
    exact ⟨a, n, ha, hn, (newEthAssetAmount_exact hd ha).left n hn⟩

-- An amount of 1E+82 ETH.
theorem bigInt_panics : ∃ v w : Decimal,
    validatePositive "amount" numEtherDecimals (some v) = .ok v ∧ etherToWei v = .ok w ∧
    (EthAssetAmount.wei w).bigInt = .error .panicked := by
  refine ⟨{ coeff := 1, exponent := 82 }, { coeff := 1, exponent := 100 }, ?_, ?_, ?_⟩
  · decide
  · decide +kernel
  · decide +kernel

theorem validatePositive_bigInt_one : ∃ a n,
    newEthAssetAmount { coeff := 1 } none = .ok a ∧ a.bigInt = .ok n ∧
    (n : ℚ) = (Decimal.mk 1 0 false .finite).toRat * 10 ^ decimalsOf none := by
  have h : validatePositive "amount" (decimalsOf none) (some { coeff := 1 }) = .ok { coeff := 1 } :=
    by decide
  refine (validatePositive_bigInt_iff h).mpr ?_
  norm_num [Decimal.toRat, decimalsOf, numEtherDecimals, maxCoinPrecision]

-- A whole number of the smallest units, in standard units.
def inStd (n k : ℕ) : Decimal :=
  Decimal.reduce { coeff := n, exponent := 0 - k }

section InStd

theorem inStd_representable : Representable k (inStd n k) where
  finite   := Decimal.reduce_form
  positive := Decimal.reduce_negative
  decimals := Decimal.le_reduce_exponent (by omega) (by simp)

theorem inStd_value : (inStd n k).toRat * 10 ^ k = n := by
  rw [inStd, Decimal.toRat_reduce, Decimal.toRat_eq rfl, zero_sub, zpow_neg, zpow_natCast]
  field_simp

theorem inStd_exponent (hn : n < 2 ^ 256) (hk : k ≤ 255) :
    (inStd n k).exponent + k ≤ Decimal.maxExponent := by
  refine exponent_add_le (p := maxCoinPrecision) inStd_representable.finite
    inStd_representable.positive Decimal.reduce_reduce ?_ (by decide) ?_
  · simp only [Decimal.maxExponent]
    omega
  · rw [inStd_value]
    exact_mod_cast hn.trans (by decide)

theorem decreaseExponent_whole (hk : k ≤ 255) :
    (do let d ← decreaseExponent { coeff := n } k; return d.reduce) = Except.ok (inStd n k) := by
  rw [decreaseExponent_ok (by simp only; omega)]
  rfl

-- The units are found again.
theorem newEthAssetAmount_inStd (token : Option ERC20TokenInfo) (hn : n < 2 ^ 256)
    (hk : decimalsOf token ≤ 255) :
    ∃ a, newEthAssetAmount (inStd n (decimalsOf token)) token = .ok a ∧ a.bigInt = .ok n := by
  have hd : Representable _ (inStd n (decimalsOf token)) := inStd_representable
  have hl := inStd_exponent hn hk
  obtain ⟨a, m, ha, hm⟩ := newEthAssetAmount_ok hd Decimal.reduce_reduce hl <| by
    rw [inStd_value]
    exact_mod_cast hn.trans (by decide)
  have hv : (m : ℚ) = n := ((newEthAssetAmount_exact hd ha).left m hm).trans inStd_value
  exact ⟨a, ha, Nat.cast_injective hv ▸ hm⟩

theorem uint64_inStd {p : UInt64} : ∃ m,
    moneroToPiconero (inStd p.toNat numMoneroDecimals) = .ok m ∧ uint64 m = .ok p.toNat := by
  have hd : Representable numMoneroDecimals (inStd p.toNat numMoneroDecimals) := inStd_representable
  have hp : p.toNat < 2 ^ 64 := p.toNat_lt
  obtain ⟨m, hm⟩ : ∃ m, moneroToPiconero (inStd p.toNat numMoneroDecimals) = .ok m :=
    toUnits_ok hd.finite hd.decimals (inStd_exponent (by omega) (by decide))
  obtain ⟨s, he⟩ := toUnits_eq_ok hm hd.finite hd.decimals
  have hn : m.negative = false := s.negative.trans hd.positive
  have ht := Decimal.parseUint_text (s.form.trans hd.finite) hn he
    (by rw [s.value, zpow_natCast, inStd_value]) hp
  exact ⟨m, hm, by simp [uint64, hn, ht, orElse]⟩

end InStd

-- An amount in the smallest units is found again after it was written in standard units.
theorem units_inverse (p : UInt64) (w n : ℕ) (info : ERC20TokenInfo) (hw : w < 2 ^ 256)
    (hn : n < 2 ^ 256) (hd : info.numDecimals ≤ 255) :
    (∃ x m, asMonero (newPiconeroAmount p) = .ok x ∧ moneroToPiconero x = .ok m ∧
      uint64 m = .ok p.toNat) ∧
    (∃ x m, asEther (newWeiAmount w) = .ok x ∧ etherToWei x = .ok m ∧
      (EthAssetAmount.wei m).bigInt = .ok w) ∧
    (∃ a x b, newERC20TokenAmountFromBigInt n info = .ok a ∧ a.bigInt = .ok n ∧ a.asStd = .ok x ∧
      newTokenAmountFromDecimals x info = .ok b ∧ b.bigInt = .ok n) := by
  refine ⟨?_, ?_, ?_⟩
  · obtain ⟨m, hm, hu⟩ := uint64_inStd (p := p)
    exact ⟨_, m, decreaseExponent_whole (by decide), hm, hu⟩
  · obtain ⟨a, ha, hb⟩ := newEthAssetAmount_inStd none hw (by decide)
    obtain ⟨m, hm, ha⟩ := Except.bind_ok_iff.mp ha
    cases ha
    exact ⟨_, m, decreaseExponent_whole (by decide), hm, hb⟩
  · obtain ⟨b, hb, hu⟩ := newEthAssetAmount_inStd (some info) hn hd
    have ha : newERC20TokenAmountFromBigInt n info =
        .ok (.token (inStd n info.numDecimals) info) := by
      rw [newERC20TokenAmountFromBigInt, decreaseExponent_ok (by simp only; omega)]
      rfl
    have hx : newTokenAmountFromDecimals (inStd n info.numDecimals) info = .ok (.token _ info) :=
      newTokenAmountFromDecimals_eq inStd_representable Decimal.reduce_reduce
    cases hx.symm.trans hb
    exact ⟨_, _, _, ha, hu, rfl, hx, hu⟩

theorem units_inverse_max : let info : ERC20TokenInfo := ⟨0, 255⟩
    (∃ x m, asMonero (newPiconeroAmount 18446744073709551615) = .ok x ∧
      moneroToPiconero x = .ok m ∧ uint64 m = .ok 18446744073709551615) ∧
    (∃ x m, asEther (newWeiAmount (2 ^ 256 - 1)) = .ok x ∧ etherToWei x = .ok m ∧
      (EthAssetAmount.wei m).bigInt = .ok (2 ^ 256 - 1)) ∧
    (∃ a x b, newERC20TokenAmountFromBigInt 0 info = .ok a ∧ a.bigInt = .ok 0 ∧ a.asStd = .ok x ∧
      newTokenAmountFromDecimals x info = .ok b ∧ b.bigInt = .ok 0) :=
  units_inverse 18446744073709551615 (2 ^ 256 - 1) 0 ⟨0, 255⟩ (by norm_num) (by norm_num) le_rfl

end Coins
