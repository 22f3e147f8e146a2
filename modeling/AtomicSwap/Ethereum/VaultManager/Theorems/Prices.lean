import AtomicSwap.Ethereum.VaultManager.Theorems.Collateral
import Mathlib.Data.Rat.Floor

namespace Ethereum.VaultManager

variable {block : Block} {feeds : Address → Bytes32} {asset : Address} {feedId : Bytes32}
  {pd pd' : Price} {r : Uint256} {p k : ℕ}

-- The price with 18 decimals.
def Price.scaled (pd : Price) : ℚ :=
  pd.price.toInt * 10 ^ (18 + pd.expo.toInt)

-- Either the call reverts or it gives the price, rounded down and not to zero.
def Faithful (pd : Price) (x : Except (Revert Error) Uint256) : Prop :=
  ∀ r, x = .ok r → (r.toNat : ℤ) = ⌊pd.scaled⌋ ∧ 0 < r.toNat

-- The price does not vanish in the 18 decimals, or the power of ten to divide it by overflows.
def Price.Visible (pd : Price) : Prop :=
  -18 ≤ pd.expo.toInt ∨ pd.expo.toInt ≤ -96 ∨
    10 ^ (-18 - pd.expo.toInt).toNat ≤ pd.price.toInt

theorem toNat_price (h : 0 < pd.price.toInt) :
    ((pd.price.setWidth 256).toNat : ℤ) = pd.price.toInt := by
  have hl : pd.price.toNat < 2 ^ 256 := pd.price.isLt.trans (by decide)
  rw [BitVec.toNat_setWidth, Nat.mod_eq_of_lt hl]
  rw [BitVec.toInt_eq_toNat_cond] at h ⊢
  split at h
  case isTrue hs  => rw [if_pos hs]
  case isFalse => omega

theorem toNat_neg_expo (h : pd.expo.toInt < 0) (hm : pd.expo ≠ .intMin 32) :
    ((-pd.expo).toNat : ℤ) = -pd.expo.toInt := by
  have hn : pd.expo.toNat ≠ 2 ^ 31 := fun he => hm <| BitVec.eq_of_toNat_eq he
  rw [BitVec.toInt_eq_toNat_cond] at h ⊢
  rw [BitVec.toNat_neg]
  split at h
  case isTrue => omega
  case isFalse hs =>
    rw [if_neg hs]
    omega

theorem floor_mul_pow : ⌊(p : ℚ) * 10 ^ (k : ℤ)⌋ = (p * 10 ^ k : ℕ) := by
  have h : (p : ℚ) * 10 ^ (k : ℤ) = (p * 10 ^ k : ℕ) := by
    rw [zpow_natCast]
    push_cast
    rfl
  rw [h, Int.floor_natCast]

theorem floor_mul_neg_pow : ⌊(p : ℚ) * 10 ^ (-k : ℤ)⌋ = (p / 10 ^ k : ℕ) := by
  have h : (p : ℚ) * 10 ^ (-k : ℤ) = (p : ℚ) / (10 ^ k : ℕ) := by
    rw [zpow_neg, zpow_natCast]
    push_cast
    rfl
  rw [h, Rat.floor_natCast_div_natCast]
  push_cast
  rfl

theorem toNat_decimals : (10 ^ 18 : Uint256).toNat = 10 ^ 18 := rfl

-- The three ways to scale a price, by its exponent.
theorem getPrice_eq_ok (hd : block.price feedId = some pd) (hp : 0 < pd.price.toInt)
    (h : getPrice block feedId = .ok r) : (r.toNat : ℤ) = ⌊pd.scaled⌋ := by
  have hn : ((pd.price.setWidth 256).toNat : ℤ) = pd.price.toInt := toNat_price hp
  simp only [getPrice, hd, if_neg (not_le.mpr hp)] at h
  rw [Price.scaled, ← hn, Int.cast_natCast]
  split at h
  case isTrue he =>
    simp only [Except.bind_ok_iff, Uint256.pow_eq_ok, Uint256.mul_eq_ok, toNat_ten,
      toNat_decimals] at h
    obtain ⟨t, ht, m, hm, hr⟩ := h
    have hx : 18 + pd.expo.toInt = ((pd.expo.toNat + 18 : ℕ) : ℤ) := by
      rw [BitVec.toInt_eq_toNat_cond] at he ⊢
      split at he <;> omega
    rw [hx, floor_mul_pow, hr, hm, ht, Nat.mul_assoc, ← pow_add]
  case isFalse he =>
    split at h
    case isTrue => contradiction
    case isFalse hm =>
      have hx : ((-pd.expo).toNat : ℤ) = -pd.expo.toInt := toNat_neg_expo (by omega) hm
      split at h
      case isTrue hl =>
        simp only [Except.bind_ok_iff, Uint256.pow_eq_ok, Uint256.div_eq_ok, toNat_ten] at h
        obtain ⟨t, ht, _, hr⟩ := h
        have hx : 18 + pd.expo.toInt = -(((-pd.expo).toNat - 18 : ℕ) : ℤ) := by omega
        rw [hx, floor_mul_neg_pow, hr, ht]
      case isFalse hl =>
        simp only [Except.bind_ok_iff, Uint256.pow_eq_ok, Uint256.mul_eq_ok, toNat_ten] at h
        obtain ⟨t, ht, hr⟩ := h
        have hx : 18 + pd.expo.toInt = ((18 - (-pd.expo).toNat : ℕ) : ℤ) := by omega
        rw [hx, floor_mul_pow, hr, ht]

theorem Price.scaled_pos_iff (hp : 0 < pd.price.toInt) :
    0 < ⌊pd.scaled⌋ ↔ -18 ≤ pd.expo.toInt ∨
      10 ^ (-18 - pd.expo.toInt).toNat ≤ pd.price.toInt := by
  have hn : ((pd.price.setWidth 256).toNat : ℤ) = pd.price.toInt := toNat_price hp
  rw [scaled, ← hn, Int.cast_natCast]
  by_cases he : -18 ≤ pd.expo.toInt
  case pos =>
    obtain ⟨k, hk⟩ := Int.eq_ofNat_of_zero_le (show 0 ≤ 18 + pd.expo.toInt by omega)
    have hq : 0 < (pd.price.setWidth 256).toNat := by omega
    rw [hk, floor_mul_pow]
    simp only [he, true_or, iff_true]
    positivity
  case neg =>
    obtain ⟨k, hk⟩ := Int.eq_ofNat_of_zero_le (show 0 ≤ -18 - pd.expo.toInt by omega)
    have hx : 18 + pd.expo.toInt = -(k : ℤ) := by omega
    rw [hx, hk, floor_mul_neg_pow]
    simp only [he, false_or, Int.toNat_natCast]
    norm_cast
    rw [Nat.div_pos_iff]
    exact and_iff_right <| by positivity

theorem lt_ten_pow_of_le (h : 78 ≤ k) : 2 ^ 256 ≤ 10 ^ k :=
  calc 2 ^ 256
    _ ≤ 10 ^ 78 := by decide
    _ ≤ 10 ^ k  := Nat.pow_le_pow_right (by decide) h

-- Below the exponent -95 the power of ten overflows, above it there is a result.
theorem getPrice_reverts_iff (hd : block.price feedId = some pd) (hp : 0 < pd.price.toInt)
    (he : pd.expo.toInt < -18) :
    (∃ r, getPrice block feedId = .ok r) ↔ -96 < pd.expo.toInt := by
  simp only [getPrice, hd, if_neg (not_le.mpr hp), if_neg (show ¬0 ≤ pd.expo.toInt by omega)]
  split
  case isTrue hm =>
    have hi : (BitVec.intMin 32).toInt = -2 ^ 31 := by decide
    simp [hm, hi, throw, throwThe, MonadExceptOf.throw]
  case isFalse hm =>
    have hx : ((-pd.expo).toNat : ℤ) = -pd.expo.toInt := toNat_neg_expo (by omega) hm
    simp only [if_pos (show 18 ≤ (-pd.expo).toNat by omega), Except.bind_ok_iff,
      Uint256.pow_eq_ok, Uint256.div_eq_ok, toNat_ten]
    constructor
    case mp =>
      rintro ⟨r, t, ht, _⟩
      by_contra hl
      have hle : 2 ^ 256 ≤ 10 ^ ((-pd.expo).toNat - 18) := lt_ten_pow_of_le (by omega)
      have hlt := t.isLt
      omega
    case mpr =>
      intro hl
      have hlt : 10 ^ ((-pd.expo).toNat - 18) < 2 ^ 256 :=
        calc 10 ^ ((-pd.expo).toNat - 18)
          _ ≤ 10 ^ 77 := Nat.pow_le_pow_right (by decide) (by omega)
          _ < 2 ^ 256 := by decide
      obtain ⟨t, ht⟩ := Uint256.exists_toNat hlt
      have hz : t.toNat ≠ 0 := by rw [ht]; positivity
      exact ⟨pd.price.setWidth 256 / t, t, ht, hz, by simp⟩

theorem getPrice_faithful_iff (hd : block.price feedId = some pd) (hp : 0 < pd.price.toInt) :
    Faithful pd (getPrice block feedId) ↔ pd.Visible := by
  constructor
  case mp =>
    intro h
    by_contra hv
    simp only [Price.Visible, not_or, not_le] at hv
    obtain ⟨r, hr⟩ := (getPrice_reverts_iff hd hp hv.left).mpr hv.right.left
    obtain ⟨hs, hpos⟩ := h r hr
    have hpos := (Price.scaled_pos_iff hp).mp (by omega)
    have hl := hv.right.right
    omega
  case mpr =>
    intro hv r hr
    have hs : (r.toNat : ℤ) = ⌊pd.scaled⌋ := getPrice_eq_ok hd hp hr
    have hpos : 0 < ⌊pd.scaled⌋ := by
      rw [Price.scaled_pos_iff hp]
      rcases hv with hv | hv | hv
      · exact .inl hv
      · have hlt := (getPrice_reverts_iff hd hp (by omega)).mp ⟨r, hr⟩
        omega
      · exact .inr hv
    exact ⟨hs, by omega⟩

-- The prices of XMR and of a collateral are what the oracle says, unless they are rounded to zero.
theorem prices_faithful_iff (hx : block.price xmrUsdFeedID = some pd) (hp : 0 < pd.price.toInt)
    (hc : block.price (feeds asset) = some pd') (hp' : 0 < pd'.price.toInt) :
    (Faithful pd (getXmrPrice block) ↔ pd.Visible) ∧
    (Faithful pd' (getCollateralPrice block feeds asset) ↔ feeds asset = 0 ∨ pd'.Visible) := by
  refine ⟨getPrice_faithful_iff hx hp, ?_⟩
  by_cases hf : feeds asset = 0
  case pos =>
    simp [Faithful, getCollateralPrice, hf, throw, throwThe, MonadExceptOf.throw, Bind.bind,
      Except.bind]
  case neg =>
    have he : getCollateralPrice block feeds asset = getPrice block (feeds asset) := if_neg hf
    rw [he, or_iff_right hf]
    exact getPrice_faithful_iff hc hp'

theorem prices_faithful_iff_sample :
    let block := Sample.blockAt 1000 1
    let feeds := Sample.initial.collateralPriceFeeds
    Faithful ⟨150 * 10 ^ 8, -8⟩ (getXmrPrice block) ∧
    Faithful ⟨10 ^ 8, -8⟩ (getCollateralPrice block feeds native) := by
  obtain ⟨hx, hc⟩ := @prices_faithful_iff (Sample.blockAt 1000 1)
    Sample.initial.collateralPriceFeeds native ⟨150 * 10 ^ 8, -8⟩ ⟨10 ^ 8, -8⟩ rfl (by decide) rfl
    (by decide)
  exact ⟨hx.mpr (.inl (by decide)), hc.mpr (.inr (.inl (by decide)))⟩

-- A positive price is used as zero.
theorem price_vanishes :
    let block : Block := { Sample.blockAt 1000 1 with price _ := some ⟨1, -19⟩ }
    0 < (1 : BitVec 64).toInt ∧ getXmrPrice block = .ok 0 ∧
    getCollateralPrice block Sample.initial.collateralPriceFeeds native = .ok 0 := by
  decide

end Ethereum.VaultManager
