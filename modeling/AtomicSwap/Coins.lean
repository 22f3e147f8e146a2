import AtomicSwap.Library.Decimal.Parse
import AtomicSwap.Library.Except
import AtomicSwap.Ethereum.Basic

namespace Coins

def numEtherDecimals : ℕ := 18
def numMoneroDecimals : ℕ := 12
def maxExchangeRateDecimals : ℕ := 6
def maxCoinPrecision : ℕ := 100

inductive Error
  | notSet (jsonFieldName : String)
  | zero (jsonFieldName : String)
  | negative (jsonFieldName : String)
  | notFinite (jsonFieldName : String)
  | tooManyDigits (jsonFieldName : String)
  | tooManyDecimals (jsonFieldName : String) (found : ℤ) (max : ℕ)
  | arithmetic
  | exceedsXMRPrecision
  | exceedsETHPrecision
  | notUnsigned
  | notUint64
  | panicked
  deriving DecidableEq, Repr

def orElse {α : Type} (e : Error) : Option α → Except Error α
  | some a => .ok a
  | none   => .error e

-- The exponent is an `int32`.
def increaseExponent (n : Decimal) (delta : ℕ) : Except Error Decimal :=
  if n.exponent + delta ≥ 2 ^ 31 then .error .panicked
  else .ok { n with exponent := n.exponent + delta }

def decreaseExponent (n : Decimal) (delta : ℕ) : Except Error Decimal :=
  if n.exponent - delta < -2 ^ 31 then .error .panicked
  else .ok { n with exponent := n.exponent - delta }

def roundToDecimalPlace (n : Decimal) (decimalPlace : ℕ) : Except Error Decimal := do
  let result ← increaseExponent n decimalPlace
  let result ← orElse .arithmetic result.roundToIntegralValue
  let result ← decreaseExponent result decimalPlace
  return result.reduce

-- The source reduces its argument in place, which users of this function do with `reduce`.
def numDecimals (value : Decimal) : ℤ :=
  max 0 (-value.reduce.exponent)

def exceedsDecimals (value : Decimal) (maxDecimals : ℕ) : Bool :=
  numDecimals value > maxDecimals

-- The value that passes is the one that the source reduced in place.
def validatePositive (jsonFieldName : String) (maxDecimals : ℕ) :
    Option Decimal → Except Error Decimal
  | none => .error (.notSet jsonFieldName)
  | some value =>
    if value.isZero then .error (.zero jsonFieldName)
    else if value.negative then .error (.negative jsonFieldName)
    else if value.form ≠ .finite then .error (.notFinite jsonFieldName)
    else if value.reduce.numDigits > maxCoinPrecision then .error (.tooManyDigits jsonFieldName)
    else if value.reduce.exponent < -maxDecimals then
      .error (.tooManyDecimals jsonFieldName (-value.reduce.exponent) maxDecimals)
    else .ok value.reduce

-- An error of the rounding is not expected by the source, which panics.
def noError {α : Type} : Except Error α → Except Error α
  | .ok a    => .ok a
  | .error _ => .error .panicked

def newPiconeroAmount (amount : UInt64) : Decimal where
  coeff := amount.toNat

def moneroToPiconero (xmrAmt : Decimal) : Except Error Decimal := do
  let pnAmt ← increaseExponent xmrAmt numMoneroDecimals
  noError <| roundToDecimalPlace pnAmt 0

def asMonero (piconero : Decimal) : Except Error Decimal := do
  let xmrAmt ← decreaseExponent piconero numMoneroDecimals
  return xmrAmt.reduce

-- The amount is printed and read back.
def uint64 (piconero : Decimal) : Except Error ℕ :=
  if piconero.negative then .error .notUnsigned
  else orElse .notUint64 (Decimal.parseUint 64 piconero.text)

def newWeiAmount (amount : ℕ) : Decimal where
  coeff := amount

def etherToWei (ethAmt : Decimal) : Except Error Decimal := do
  let weiAmt ← increaseExponent ethAmt numEtherDecimals
  noError <| roundToDecimalPlace weiAmt 0

def asEther (wei : Decimal) : Except Error Decimal := do
  let ether ← decreaseExponent wei numEtherDecimals
  return ether.reduce

inductive ProvidesCoin
  | eth
  | xmr
  deriving DecidableEq

namespace ProvidesCoin

def text : ProvidesCoin → List Char
  | eth => ['E', 'T', 'H']
  | xmr => ['X', 'M', 'R']

def unmarshalText : List Char → Option ProvidesCoin
  | ['X', 'M', 'R'] | ['x', 'm', 'r'] => some xmr
  | ['E', 'T', 'H'] | ['e', 't', 'h'] => some eth
  | _                                 => none

theorem unmarshalText_text {c : ProvidesCoin} : unmarshalText c.text = some c := by
  cases c <;> rfl

theorem text_injective {c c' : ProvidesCoin} (h : c.text = c'.text) : c = c' := by
  rw [← Option.some.injEq, ← unmarshalText_text, h, unmarshalText_text]

end ProvidesCoin

structure ERC20TokenInfo where
  address     : Ethereum.Address
  numDecimals : ℕ
  deriving DecidableEq, Repr

-- An amount of ether is in wei, one of a token in standard units.
inductive EthAssetAmount
  | wei (amount : Decimal)
  | token (amount : Decimal) (info : ERC20TokenInfo)
  deriving DecidableEq, Repr

def newERC20TokenAmountFromBigInt (amount : ℕ) (token : ERC20TokenInfo) :
    Except Error EthAssetAmount := do
  let asDecimal ← decreaseExponent { coeff := amount } token.numDecimals
  return .token asDecimal.reduce token

def newTokenAmountFromDecimals (amount : Decimal) (token : ERC20TokenInfo) :
    Except Error EthAssetAmount :=
  if exceedsDecimals amount token.numDecimals then do
    let rounded ← noError <| roundToDecimalPlace amount.reduce token.numDecimals
    return .token rounded token
  else .ok (.token amount.reduce token)

def newEthAssetAmount (amount : Decimal) : Option ERC20TokenInfo → Except Error EthAssetAmount
  | none       => do return .wei (← etherToWei amount)
  | some token => newTokenAmountFromDecimals amount token

namespace EthAssetAmount

def bigInt : EthAssetAmount → Except Error ℕ
  | wei amount => do
    let whole ← orElse .panicked (amount.quantize maxCoinPrecision 0)
    return whole.coeff
  | token amount info => do
    let units ← increaseExponent amount info.numDecimals
    let whole ← orElse .panicked (units.quantize maxCoinPrecision 0)
    return whole.coeff

def asStd : EthAssetAmount → Except Error Decimal
  | wei amount     => asEther amount
  | token amount _ => .ok amount

def numStdDecimals : EthAssetAmount → ℕ
  | wei _        => numEtherDecimals
  | token _ info => info.numDecimals

def isToken : EthAssetAmount → Bool
  | wei _     => false
  | token _ _ => true

def tokenAddress : EthAssetAmount → Ethereum.Address
  | wei _        => 0
  | token _ info => info.address

end EthAssetAmount

-- An amount close to the numerator, whose quotient has few enough decimals. An error of the
-- rounding means that there is none, but a panic of it remains one.
def calcAltNumeratorAmount (numeratorDecimals resultDecimals : ℕ)
    (denominator unroundedResult : Decimal) : Except Error (Option Decimal) :=
  let roundingPrecision := denominator.reduce.exponent + numeratorDecimals
  if roundingPrecision < 0 ∨ roundingPrecision > 255 then .ok none
  else
    match roundToDecimalPlace unroundedResult (min roundingPrecision.toNat resultDecimals) with
    | .error .panicked  => .error .panicked
    | .error _          => .ok none
    | .ok roundedResult =>
      match roundedResult.mul maxCoinPrecision denominator.reduce with
      | none                  => .ok none
      | some closestAltResult =>
        .ok (if closestAltResult.reduce.isZero then none else some closestAltResult.reduce)

def ExchangeRate.unmarshalText (s : List Char) : Option Decimal := do
  let rate ← Decimal.setString s
  (validatePositive "exchangeRate" maxExchangeRateDecimals (some rate)).toOption

-- The hint for another amount, which the source adds to the error, is given by `suggestedAltAmt`.
def ExchangeRate.toXMR (rate : Decimal) (ethAssetAmt : EthAssetAmount) : Except Error Decimal := do
  let std ← ethAssetAmt.asStd
  let xmrAmt ← orElse .arithmetic (std.quo maxCoinPrecision rate)
  if exceedsDecimals xmrAmt numMoneroDecimals then throw .exceedsXMRPrecision
  return xmrAmt.reduce

def ExchangeRate.suggestedAltAmt (rate : Decimal) (ethAssetAmt : EthAssetAmount) :
    Except Error (Option Decimal) := do
  let std ← ethAssetAmt.asStd
  let xmrAmt ← orElse .arithmetic (std.quo maxCoinPrecision rate)
  calcAltNumeratorAmount ethAssetAmt.numStdDecimals numMoneroDecimals rate xmrAmt.reduce

def ExchangeRate.toETH (rate xmrAmount : Decimal) : Except Error Decimal := do
  let ethAmt ← orElse .arithmetic (xmrAmount.mul maxCoinPrecision rate)
  if exceedsDecimals ethAmt numEtherDecimals then throw .exceedsETHPrecision
  return ethAmt.reduce

-- The fee of a relayer in ether.
def relayerFeeETH : Decimal := { coeff := 1, exponent := -2 }

section Exactness

variable {d d' w : Decimal} {k n : ℕ}

@[simp]
theorem orElse_eq_ok {α : Type} {e : Error} {x : Option α} {a : α} :
    orElse e x = .ok a ↔ x = some a := by
  cases x <;> simp [orElse]

@[simp]
theorem noError_eq_ok {α : Type} {x : Except Error α} {a : α} : noError x = .ok a ↔ x = .ok a := by
  cases x <;> simp [noError]

-- A number that is `d` times a power of ten, with the same sign.
structure Scaled (d : Decimal) (k : ℤ) (d' : Decimal) : Prop where
  value    : d'.toRat = d.toRat * 10 ^ k
  negative : d'.negative = d.negative
  form     : d'.form = d.form

theorem Scaled.trans {d₁ d₂ : Decimal} (h : Scaled d k d₁) (hs : d₁.SameValue d₂) :
    Scaled d k d₂ where
  value    := hs.value.trans h.value
  negative := hs.negative.trans h.negative
  form     := hs.form.trans h.form

theorem Scaled.reduce {k : ℤ} (h : Scaled d k d') : Scaled d k d'.reduce where
  value    := Decimal.toRat_reduce.trans h.value
  negative := Decimal.reduce_negative.trans h.negative
  form     := Decimal.reduce_form.trans h.form

-- Scaling back gives the value again.
theorem Scaled.back {d₁ : Decimal} {k : ℤ} (h : Scaled d k d₁) (h' : Scaled d₁ (-k) d') :
    d.SameValue d' where
  value    := by
    rw [h'.value, h.value, mul_assoc, ← zpow_add₀ (by norm_num), add_neg_cancel, zpow_zero, mul_one]
  negative := h'.negative.trans h.negative
  form     := h'.form.trans h.form

theorem increaseExponent_eq_ok (h : increaseExponent d k = .ok d') :
    Scaled d k d' ∧ d'.exponent = d.exponent + k := by
  simp only [increaseExponent] at h
  split at h
  case isTrue => contradiction
  case isFalse =>
    cases h
    exact ⟨⟨Decimal.toRat_exponent_add _, rfl, rfl⟩, rfl⟩

theorem decreaseExponent_eq_ok (h : decreaseExponent d k = .ok d') :
    Scaled d (-k) d' ∧ d'.exponent = d.exponent - k := by
  simp only [decreaseExponent] at h
  split at h
  case isTrue => contradiction
  case isFalse =>
    cases h
    exact ⟨⟨Decimal.toRat_exponent_add _, rfl, rfl⟩, rfl⟩

theorem roundToDecimalPlace_zero_eq_ok (h : roundToDecimalPlace d 0 = .ok d')
    (hf : d.form = .finite) (he : 0 ≤ d.exponent) : d.SameValue d' ∧ 0 ≤ d'.exponent := by
  simp only [roundToDecimalPlace, Except.bind_ok_iff, orElse_eq_ok, Except.pure_ok_iff] at h
  obtain ⟨d₁, h₁, d₂, h₂, d₃, h₃, hd⟩ := h
  obtain ⟨s₁, e₁⟩ := increaseExponent_eq_ok h₁
  obtain ⟨s₂, e₂⟩ := Decimal.roundToIntegralValue_exact h₂ (s₁.form.trans hf) (by omega)
  obtain ⟨s₃, e₃⟩ := decreaseExponent_eq_ok h₃
  subst hd
  refine ⟨Decimal.SameValue.reduce ⟨?_, ?_, ?_⟩, Decimal.le_reduce_exponent le_rfl (by omega)⟩
  · rw [s₃.value, s₂.value, s₁.value]; simp
  · rw [s₃.negative, s₂.negative, s₁.negative]
  · rw [s₃.form, s₂.form, s₁.form]

-- From standard units to the smallest ones and back.

theorem toUnits_eq_ok
    (h : (do let d₁ ← increaseExponent d k; noError <| roundToDecimalPlace d₁ 0) = .ok w)
    (hf : d.form = .finite) (he : -k ≤ d.exponent) : Scaled d k w ∧ 0 ≤ w.exponent := by
  simp only [Except.bind_ok_iff, noError_eq_ok] at h
  obtain ⟨d₁, h₁, h₂⟩ := h
  obtain ⟨s₁, e₁⟩ := increaseExponent_eq_ok h₁
  obtain ⟨s₂, e₂⟩ := roundToDecimalPlace_zero_eq_ok h₂ (s₁.form.trans hf) (by omega)
  exact ⟨s₁.trans s₂, e₂⟩

theorem ofUnits_eq_ok (h : (do let d₁ ← decreaseExponent w k; return d₁.reduce) = Except.ok d) :
    Scaled w (-k) d := by
  simp only [Except.bind_ok_iff, Except.pure_ok_iff] at h
  obtain ⟨d₁, h₁, hd⟩ := h
  exact hd ▸ (decreaseExponent_eq_ok h₁).left.reduce

theorem increaseExponent_ok (h : d.exponent + k ≤ Decimal.maxExponent) :
    increaseExponent d k = .ok { d with exponent := d.exponent + k } := by
  simp only [Decimal.maxExponent] at h
  exact if_neg (by omega)

theorem decreaseExponent_ok (h : -1000 ≤ d.exponent - k) :
    decreaseExponent d k = .ok { d with exponent := d.exponent - k } :=
  if_neg (by omega)

theorem roundToDecimalPlace_zero_ok (hf : d.form = .finite) (hl : 0 ≤ d.exponent)
    (hu : d.exponent ≤ Decimal.maxExponent) : ∃ d', roundToDecimalPlace d 0 = .ok d' := by
  let d₀ : Decimal := { d with exponent := d.exponent + (0 : ℕ) }
  obtain ⟨d₁, h₁⟩ : ∃ d₁, d₀.rescale 0 = some d₁ :=
    Decimal.rescale_eq_some (by simpa [d₀] using hl) (by simpa [d₀] using hu)
  have he : d₁.exponent = 0 := (Decimal.rescale_exact h₁ (by simpa [d₀] using hl)).right
  have hr : d₀.roundToIntegralValue = some d₁ := by
    simpa [Decimal.roundToIntegralValue, d₀, hf] using h₁
  have hi : increaseExponent d 0 = .ok d₀ := increaseExponent_ok (by simpa using hu)
  have hd := decreaseExponent_ok (d := d₁) (k := 0) (by simp [he])
  exact ⟨_, Except.bind_ok_iff.mpr ⟨_, hi, Except.bind_ok_iff.mpr ⟨_, orElse_eq_ok.mpr hr,
    Except.bind_ok_iff.mpr ⟨_, hd, rfl⟩⟩⟩⟩

theorem toUnits_ok (hf : d.form = .finite) (hl : -k ≤ d.exponent)
    (hu : d.exponent + k ≤ Decimal.maxExponent) :
    ∃ w, (do let d₁ ← increaseExponent d k; noError <| roundToDecimalPlace d₁ 0) = .ok w := by
  let d₁ : Decimal := { d with exponent := d.exponent + k }
  obtain ⟨w, hw⟩ : ∃ w, roundToDecimalPlace d₁ 0 = .ok w :=
    roundToDecimalPlace_zero_ok hf (by simp only [d₁]; omega) hu
  exact ⟨w, Except.bind_ok_iff.mpr ⟨d₁, increaseExponent_ok hu, noError_eq_ok.mpr hw⟩⟩

theorem etherToWei_eq_ok (h : etherToWei d = .ok w) (hf : d.form = .finite)
    (he : -numEtherDecimals ≤ d.exponent) : Scaled d numEtherDecimals w ∧ 0 ≤ w.exponent :=
  toUnits_eq_ok h hf he

theorem asEther_eq_ok (h : asEther w = .ok d) : Scaled w (-numEtherDecimals) d :=
  ofUnits_eq_ok h

def decimalsOf : Option ERC20TokenInfo → ℕ
  | none       => numEtherDecimals
  | some token => token.numDecimals

-- A positive amount of an asset, that can be given in whole units of it.
structure Representable (decimals : ℕ) (d : Decimal) : Prop where
  finite   : d.form = .finite
  positive : d.negative = false
  decimals : -decimals ≤ d.exponent

theorem not_exceedsDecimals : exceedsDecimals d k = false ↔ -k ≤ d.reduce.exponent := by
  simp [exceedsDecimals, numDecimals, neg_le]

theorem Representable.not_exceedsDecimals (h : Representable k d) : exceedsDecimals d k = false :=
  Coins.not_exceedsDecimals.mpr <| Decimal.le_reduce_exponent (by omega) h.decimals

theorem Representable.of_reduce (hf : d.form = .finite) (hn : d.negative = false)
    (he : exceedsDecimals d k = false) : Representable k d.reduce where
  finite   := Decimal.reduce_form.trans hf
  positive := Decimal.reduce_negative.trans hn
  decimals := Coins.not_exceedsDecimals.mp he

theorem validatePositive_inv {name : String} {v : Option Decimal}
    (h : validatePositive name k v = .ok d) :
    ∃ v₀, v = some v₀ ∧ d = v₀.reduce ∧ v₀.isZero = false ∧ v₀.negative = false ∧
      v₀.form = .finite ∧ -k ≤ d.exponent := by
  cases v
  case none => contradiction
  case some v =>
    simp only [validatePositive] at h
    repeat' split at h
    all_goals try contradiction
    cases h
    refine ⟨v, rfl, rfl, ?_⟩
    simp_all

theorem validatePositive_eq_ok {name : String} {v : Option Decimal}
    (h : validatePositive name k v = .ok d) :
    Representable k d ∧ ∃ v₀, v = some v₀ ∧ d.toRat = v₀.toRat := by
  obtain ⟨v, rfl, rfl, -, hn, hf, he⟩ := validatePositive_inv h
  exact ⟨⟨Decimal.reduce_form.trans hf, Decimal.reduce_negative.trans hn, he⟩, v, rfl,
    Decimal.toRat_reduce⟩

theorem quantize_coeff {q : Decimal} (h : w.quantize maxCoinPrecision 0 = some q)
    (hf : w.form = .finite) (hn : w.negative = false) (he : 0 ≤ w.exponent) :
    (q.coeff : ℚ) = w.toRat := by
  have ⟨s, e⟩ := Decimal.quantize_exact h hf he
  rw [← Decimal.toRat_of_exponent_zero e (s.negative.trans hn), s.value]

theorem wei_exact (hd : Representable numEtherDecimals d) (h : etherToWei d = .ok w) :
    (∀ n, (EthAssetAmount.wei w).bigInt = .ok n → (n : ℚ) = d.toRat * 10 ^ numEtherDecimals) ∧
    (∀ std, (EthAssetAmount.wei w).asStd = .ok std → d.SameValue std) := by
  obtain ⟨s, he⟩ := etherToWei_eq_ok h hd.finite hd.decimals
  constructor
  · intro n hn
    simp only [EthAssetAmount.bigInt, Except.bind_ok_iff, orElse_eq_ok, Except.pure_ok_iff] at hn
    obtain ⟨q, hq, hn⟩ := hn
    have hc := quantize_coeff hq (s.form.trans hd.finite) (s.negative.trans hd.positive) he
    rw [← hn, hc, s.value, zpow_natCast]
  · exact fun std hs => s.back (asEther_eq_ok hs)

theorem token_exact {info : ERC20TokenInfo} (hd : Representable info.numDecimals d)
    (h : (EthAssetAmount.token d info).bigInt = .ok n) :
    (n : ℚ) = d.toRat * 10 ^ info.numDecimals := by
  simp only [EthAssetAmount.bigInt, Except.bind_ok_iff, orElse_eq_ok, Except.pure_ok_iff] at h
  obtain ⟨u, hu, q, hq, hn⟩ := h
  obtain ⟨s, he⟩ := increaseExponent_eq_ok hu
  have hc := quantize_coeff hq (s.form.trans hd.finite) (s.negative.trans hd.positive) <| by
    have := hd.decimals
    omega
  rw [← hn, hc, s.value, zpow_natCast]

-- No amount is lost between the units of an asset and its standard units.
theorem newEthAssetAmount_exact {token : Option ERC20TokenInfo} {a : EthAssetAmount}
    (hd : Representable (decimalsOf token) d) (h : newEthAssetAmount d token = .ok a) :
    (∀ n, a.bigInt = .ok n → (n : ℚ) = d.toRat * 10 ^ decimalsOf token) ∧
    (∀ std, a.asStd = .ok std → d.SameValue std) := by
  cases token
  case none =>
    simp only [newEthAssetAmount, Except.bind_ok_iff, Except.pure_ok_iff] at h
    obtain ⟨w, hw, ha⟩ := h
    exact ha ▸ wei_exact hd hw
  case some token =>
    have hx : exceedsDecimals d token.numDecimals = false := hd.not_exceedsDecimals
    rw [newEthAssetAmount, newTokenAmountFromDecimals, hx] at h
    cases h
    have hr : Representable token.numDecimals d.reduce := .of_reduce hd.finite hd.positive hx
    refine ⟨fun n hn => ?_, fun std hs => ?_⟩
    · rw [token_exact hr hn, Decimal.toRat_reduce]; rfl
    · cases hs
      exact ⟨Decimal.toRat_reduce, Decimal.reduce_negative, Decimal.reduce_form⟩

theorem validatePositive_pos {name : String} {v : Option Decimal}
    (h : validatePositive name k v = .ok d) : d.reduce = d ∧ 0 < d.toRat := by
  obtain ⟨v, rfl, rfl, hz, hn, hf, -⟩ := validatePositive_inv h
  have hp : 0 ≤ v.toRat := Decimal.toRat_nonneg hn
  refine ⟨Decimal.reduce_reduce, ?_⟩
  rw [Decimal.toRat_reduce]
  refine lt_of_le_of_ne hp fun h₀ => ?_
  simp [Decimal.isZero_iff.mpr ⟨hf, h₀.symm⟩] at hz

-- The check depends on the value only.
theorem validatePositive_sameValue {name name' : String} {v v' : Decimal} (hv : v.SameValue v')
    (h : validatePositive name k (some v) = .ok d) :
    validatePositive name' k (some v') = .ok d := by
  simp only [validatePositive] at h
  repeat' split at h
  all_goals try contradiction
  cases h
  rename_i hz hn hf hd he
  have hr : v'.reduce = v.reduce := hv.reduce_eq (not_not.mp hf)
  have hz' : v'.isZero = v.isZero := by
    rw [Bool.eq_iff_iff, Decimal.isZero_iff, Decimal.isZero_iff, hv.form, hv.value]
  simp only [validatePositive, hr, hz', hv.negative, hv.form, if_neg hz, if_neg hn, if_neg hf,
    if_neg hd, if_neg he]

-- What passed the check passes it again, unchanged.
theorem validatePositive_self {name name' : String} {v : Option Decimal}
    (h : validatePositive name k v = .ok d) : validatePositive name' k (some d) = .ok d := by
  obtain ⟨v, rfl, rfl, -⟩ := validatePositive_inv h
  exact validatePositive_sameValue (.reduce ⟨rfl, rfl, rfl⟩) h

theorem validatePositive_numDigits {name : String} {v : Option Decimal}
    (h : validatePositive name k v = .ok d) : d.numDigits ≤ maxCoinPrecision := by
  cases v
  case none => contradiction
  case some v =>
    simp only [validatePositive] at h
    repeat' split at h
    all_goals try contradiction
    cases h
    omega

-- The text of a number that was read and passed the check is read back.
theorem validatePositive_readable {name : String} {s : List Char} {v : Decimal}
    (hs : Decimal.setString s = some v) (h : validatePositive name k (some v) = .ok d)
    (hk : k ≤ Decimal.maxExponent) : d.Readable := by
  have hd := validatePositive_numDigits h
  have hp := (validatePositive_pos h).right
  obtain ⟨v₀, hv, rfl, -, hn, hf, he⟩ := validatePositive_inv h
  cases hv
  rw [Decimal.toRat_reduce] at hp
  have ha : |v.reduce.adjusted| ≤ Decimal.maxExponent := by
    rw [Decimal.adjusted_reduce (Decimal.coeff_ne_zero hp) hn]
    exact Decimal.setString_adjusted hs hf
  refine ⟨Decimal.reduce_form.trans hf, Decimal.reduce_negative.trans hn, ?_, ?_, ha⟩
  · simp only [maxCoinPrecision, Decimal.maxExponent] at hd ⊢
    omega
  · rw [abs_le] at ha ⊢
    exact ⟨(neg_le_neg hk).trans he, Decimal.exponent_le_adjusted.trans ha.right⟩

theorem asStd_reduced {a : EthAssetAmount} {token : Option ERC20TokenInfo} {std : Decimal}
    (h : newEthAssetAmount d token = .ok a) (hx : exceedsDecimals d (decimalsOf token) = false)
    (hs : a.asStd = .ok std) : std.reduce = std := by
  cases token
  case none       =>
    simp only [newEthAssetAmount, Except.bind_ok_iff, Except.pure_ok_iff] at h
    obtain ⟨w, _, rfl⟩ := h
    simp only [EthAssetAmount.asStd, asEther, Except.bind_ok_iff, Except.pure_ok_iff] at hs
    obtain ⟨_, _, rfl⟩ := hs
    exact Decimal.reduce_reduce
  case some token =>
    have hx : exceedsDecimals d token.numDecimals = false := hx
    rw [newEthAssetAmount, newTokenAmountFromDecimals, hx] at h
    cases h
    cases hs
    exact Decimal.reduce_reduce

-- The amount of an asset is the one that it was made from.
theorem asStd_eq {a : EthAssetAmount} {token : Option ERC20TokenInfo} {std : Decimal}
    (hd : Representable (decimalsOf token) d) (hr : d.reduce = d)
    (h : newEthAssetAmount d token = .ok a) (hs : a.asStd = .ok std) : std = d := by
  have hv : d.SameValue std := (newEthAssetAmount_exact hd h).right std hs
  rw [← asStd_reduced h hd.not_exceedsDecimals hs, hv.reduce_eq hd.finite, hr]

theorem toXMR_eq_ok {rate x : Decimal} {a : EthAssetAmount}
    (h : ExchangeRate.toXMR rate a = .ok x) :
    (∃ std, a.asStd = .ok std) ∧ x.reduce = x ∧ x.form = .finite ∧
    -numMoneroDecimals ≤ x.exponent := by
  simp only [ExchangeRate.toXMR, Except.bind_ok_iff, orElse_eq_ok] at h
  obtain ⟨std, hs, q, hq, h⟩ := h
  split at h
  case isTrue  => contradiction
  case isFalse hx =>
    cases h
    refine ⟨⟨std, hs⟩, Decimal.reduce_reduce, ?_, not_exceedsDecimals.mp (by simpa using hx)⟩
    exact Decimal.reduce_form.trans (Decimal.quo_form hq)

theorem asMonero_eq_error {p : Decimal} {e : Error} (h : asMonero p = .error e) :
    e = .panicked := by
  simp only [asMonero, decreaseExponent] at h
  split at h <;> cases h
  rfl

theorem asStd_eq_error {a : EthAssetAmount} {e : Error} (h : a.asStd = .error e) :
    e = .panicked := by
  cases a
  case token => cases h
  case wei   =>
    simp only [EthAssetAmount.asStd, asEther, decreaseExponent] at h
    split at h <;> cases h
    rfl

-- An amount of XMR of at most 1000 has its piconeros.
theorem asMonero_moneroToPiconero {x : Decimal} (hr : x.reduce = x) (hf : x.form = .finite)
    (hl : -numMoneroDecimals ≤ x.exponent) (hu : x.exponent ≤ 3) :
    ∃ p, moneroToPiconero x = .ok p ∧ asMonero p = .ok x := by
  obtain ⟨p, hp⟩ : ∃ p, moneroToPiconero x = .ok p :=
    toUnits_ok hf hl (by simp only [numMoneroDecimals, Decimal.maxExponent]; omega)
  obtain ⟨s, he⟩ := toUnits_eq_ok hp hf hl
  obtain ⟨d, hd⟩ : ∃ d, asMonero p = .ok d := by
    have hd := decreaseExponent_ok (d := p) (k := numMoneroDecimals) <| by
      simp only [numMoneroDecimals]
      omega
    exact ⟨_, Except.bind_ok_iff.mpr ⟨_, hd, rfl⟩⟩
  have hs : x.SameValue d := s.back (ofUnits_eq_ok hd)
  have hd' : d.reduce = d := by
    simp only [asMonero, Except.bind_ok_iff, Except.pure_ok_iff] at hd
    obtain ⟨_, _, rfl⟩ := hd
    exact Decimal.reduce_reduce
  exact ⟨p, hp, by rw [hd, ← hd', hs.reduce_eq hf, hr]⟩

end Exactness

end Coins
