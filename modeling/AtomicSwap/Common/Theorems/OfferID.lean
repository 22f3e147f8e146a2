import AtomicSwap.Common.OfferJSON

open Ethereum

variable {sha3 keccak256 : List UInt8 → Bytes32}

namespace EthAsset

variable {asset : Address}

theorem unmarshalText_marshalText : unmarshalText (marshalText keccak256 asset) = some asset := by
  by_cases h : asset = ethAssetETH
  case pos => simp [unmarshalText, marshalText, h]
  case neg =>
    have hm : marshalText keccak256 asset = Address.hex keccak256 asset := if_neg h
    have hp : "ERC20@".toList.isPrefixOf? (Address.hex keccak256 asset) = none := rfl
    have he : Address.hex keccak256 asset ≠ "ETH".toList := by
      intro h
      injection h with h
      contradiction
    rw [unmarshalText, hm, if_neg he, hp, Option.getD_none, Address.ofHex_hex]

theorem unmarshalText_string : unmarshalText (string keccak256 asset) = some asset := by
  by_cases h : asset = ethAssetETH
  case pos => simp [unmarshalText, string, h]
  case neg =>
    have hm : string keccak256 asset = "ERC20@".toList ++ Address.hex keccak256 asset := if_neg h
    have hp : "ERC20@".toList.isPrefixOf? ("ERC20@".toList ++ Address.hex keccak256 asset) =
      some (Address.hex keccak256 asset) := rfl
    have he : "ERC20@".toList ++ Address.hex keccak256 asset ≠ "ETH".toList := by
      intro h
      injection h with _ h
      injection h with h
      contradiction
    rw [unmarshalText, hm, if_neg he, hp, Option.getD_some, Address.ofHex_hex]

theorem string_injective : Function.Injective (string keccak256) := by
  intro a a' h
  rw [← Option.some.injEq, ← unmarshalText_string, h, unmarshalText_string]

theorem comma_notMem_string : ',' ∉ string keccak256 asset := by
  simp only [string]
  split
  · decide
  · rw [List.mem_append, not_or]
    exact ⟨by decide, Address.notMem_hex (by decide) (by decide)⟩

end EthAsset

namespace FullOffer

variable {o o₀ o₁ o₂ : FullOffer} {json json₁ json₂ : OfferJSON}

-- An amount as it stands in an accepted offer.
structure Canonical (d : Decimal) : Prop extends d.Readable where
  reduced : d.reduce = d

theorem Canonical.comma_notMem {d : Decimal} (h : Canonical d) : ',' ∉ d.text := fun hc =>
  absurd ((Decimal.writes_text h.form h.positive).isPlain _ hc) (by decide)

theorem Canonical.eq_of_text {d d' : Decimal} (h : Canonical d) (h' : Canonical d')
    (ht : d.text = d'.text) : d = d' :=
  Decimal.text_injective h.form h.positive h.reduced h'.form h'.positive h'.reduced ht

theorem Canonical.of_validatePositive {k : ℕ} {name : String} {s : List Char} {v d : Decimal}
    (hs : Decimal.setString s = some v) (h : Coins.validatePositive name k (some v) = .ok d)
    (hk : k ≤ Decimal.maxExponent) : Canonical d :=
  ⟨Coins.validatePositive_readable hs h hk, (Coins.validatePositive_pos h).left⟩

-- What holds of an offer that was accepted.
structure Accepted (sha3 keccak256 : List UInt8 → Bytes32) (o : FullOffer) : Prop where
  version      : o.version.greaterThan curOfferVersion = false
  minAmount    : Canonical o.minAmount
  maxAmount    : Canonical o.maxAmount
  exchangeRate : Canonical o.exchangeRate
  rate         : Coins.validatePositive "exchangeRate" Coins.maxExchangeRateDecimals
    (some o.exchangeRate) = .ok o.exchangeRate
  required     : o.checkRequired = .ok ()
  valid        : o.validate sha3 keccak256 = .ok o
  id           : o.id = o.hash sha3 keccak256

-- The parts of the preimage between the commas.
def parts (keccak256 : List UInt8 → Bytes32) (o : FullOffer) : List (List Char) :=
  [o.version.text ++ o.provides.text, o.minAmount.text, o.maxAmount.text, o.exchangeRate.text,
    EthAsset.string keccak256 o.ethAsset, Nat.toDigits 10 o.nonce.toNat]

theorem preimage_eq :
    o.preimage keccak256 = Text.bytes ([','].intercalate (o.parts keccak256)) := by
  simp [preimage, parts, List.intercalate]

theorem Accepted.comma_notMem (h : Accepted sha3 keccak256 o) :
    ∀ s ∈ o.parts keccak256, ',' ∉ s := by
  have hv : ',' ∉ o.version.text := Semver.Version.notMem_text rfl rfl (by decide) (by decide)
  have hp : ',' ∉ o.provides.text := by cases o.provides <;> decide
  have hn : ',' ∉ Nat.toDigits 10 o.nonce.toNat := fun hc =>
    absurd (Text.isDigit_toDigits _ hc) (by decide)
  simp only [parts, List.forall_mem_cons, List.mem_append, not_or]
  exact ⟨⟨hv, hp⟩, h.minAmount.comma_notMem, h.maxAmount.comma_notMem,
    h.exchangeRate.comma_notMem, EthAsset.comma_notMem_string, hn, by simp⟩

-- The terms of an offer.
structure SameTerms (o₁ o₂ : FullOffer) : Prop where
  version      : o₁.version = o₂.version
  provides     : o₁.provides = o₂.provides
  minAmount    : o₁.minAmount = o₂.minAmount
  maxAmount    : o₁.maxAmount = o₂.maxAmount
  exchangeRate : o₁.exchangeRate = o₂.exchangeRate
  ethAsset     : o₁.ethAsset = o₂.ethAsset
  nonce        : o₁.nonce = o₂.nonce

theorem Accepted.sameTerms (h₁ : Accepted sha3 keccak256 o₁) (h₂ : Accepted sha3 keccak256 o₂)
    (h : o₁.preimage keccak256 = o₂.preimage keccak256) : SameTerms o₁ o₂ := by
  rw [preimage_eq, preimage_eq] at h
  have hs := congrArg (List.splitOn ',') <| Text.bytes_injective h
  rw [List.splitOn_intercalate _ h₁.comma_notMem (by simp [parts]),
    List.splitOn_intercalate _ h₂.comma_notMem (by simp [parts])] at hs
  simp only [parts, List.cons.injEq, and_true] at hs
  obtain ⟨hv, hmin, hmax, hr, ha, hn⟩ := hs
  -- Both coins have three letters, so that the version ends where the coin starts.
  have hl : o₁.provides.text.length = o₂.provides.text.length := by
    cases o₁.provides <;> cases o₂.provides <;> rfl
  obtain ⟨hv, hp⟩ := List.append_inj' hv hl
  exact {
    version      := Semver.Version.text_injective hv
    provides     := Coins.ProvidesCoin.text_injective hp
    minAmount    := h₁.minAmount.eq_of_text h₂.minAmount hmin
    maxAmount    := h₁.maxAmount.eq_of_text h₂.maxAmount hmax
    exchangeRate := h₁.exchangeRate.eq_of_text h₂.exchangeRate hr
    ethAsset     := EthAsset.string_injective ha
    nonce        := UInt64.toNat_inj.mp <| Text.toDigits_injective hn }

theorem Accepted.decode_encode (h : Accepted sha3 keccak256 o) :
    decode (o.encode keccak256) = .ok o := by
  have hr : Coins.ExchangeRate.unmarshalText o.exchangeRate.string = some o.exchangeRate := by
    simp only [Coins.ExchangeRate.unmarshalText, h.exchangeRate.setString_string,
      Option.bind_eq_bind, Option.bind_some, h.rate, Except.toOption]
  simp only [decode, encode, Json.field_text Semver.Version.newVersion_text,
    Json.field_text Hash.unmarshalText_marshalText,
    Json.nullable_text Coins.ProvidesCoin.unmarshalText_text,
    Json.nullable_text h.minAmount.setString_string,
    Json.nullable_text h.maxAmount.setString_string, Json.nullable_text hr,
    Json.nullable_text EthAsset.unmarshalText_marshalText, Json.nullable_uint64, Except.bind_ok,
    Json.required]
  rfl

theorem Accepted.unmarshalOffer_encode (h : Accepted sha3 keccak256 o) :
    unmarshalOffer sha3 keccak256 (o.encode keccak256) = .ok o := by
  have hv : Json.nullable "version" (Json.text Semver.newVersion) (o.encode keccak256).version =
      .ok (some o.version) := Json.nullable_text Semver.Version.newVersion_text
  simp only [unmarshalOffer, unmarshalJSON, Except.bind_ok_iff, Except.mapError_eq_ok,
    Except.failIf_eq_ok, Except.pure_ok_iff]
  exact ⟨_, hv, (), by simp, (), by simp [h.version], o,
    ⟨o, h.decode_encode, (), h.required, h.valid⟩, (), h.required, rfl⟩

theorem Accepted.marshalJSON (h : Accepted sha3 keccak256 o) :
    o.marshalJSON sha3 keccak256 = .ok (o.encode keccak256) := by
  simp only [FullOffer.marshalJSON, h.valid, h.required, Except.bind_ok]
  rfl

theorem validate_self (h : o₀.validate sha3 keccak256 = .ok o) :
    o.validate sha3 keccak256 = .ok o := by
  simp only [validate, Except.bind_ok_iff, Except.mapError_eq_ok, Except.pure_ok_iff] at h ⊢
  obtain ⟨offer, ho, rfl⟩ := h
  exact ⟨offer, Offer.validate_self ho, rfl⟩

-- The decoded amounts come from texts.
theorem decode_inv (h : decode json = .ok o) :
    (∃ s, Decimal.setString s = some o.minAmount) ∧
    (∃ s, Decimal.setString s = some o.maxAmount) ∧
    (∃ s, Coins.ExchangeRate.unmarshalText s = some o.exchangeRate) ∧
    ∀ v, Json.nullable "version" (Json.text Semver.newVersion) json.version = .ok (some v) →
      o.version = v := by
  simp only [decode, Except.bind_ok_iff, Except.pure_ok_iff, Json.required_eq_ok] at h
  obtain ⟨version, hv, id, -, provides, -, minAmount, hmin, maxAmount, hmax, rate, hrate, h⟩ := h
  obtain ⟨ethAsset, -, nonce, -, provides, rfl, minAmount, rfl, maxAmount, rfl, rate, rfl, rfl⟩ := h
  obtain ⟨_, -, hmin⟩ := Json.nullable_eq_some hmin
  obtain ⟨_, -, hmax⟩ := Json.nullable_eq_some hmax
  obtain ⟨_, -, hrate⟩ := Json.nullable_eq_some hrate
  refine ⟨Json.text_eq_some hmin, Json.text_eq_some hmax, Json.text_eq_some hrate, ?_⟩
  intro v h
  obtain ⟨v', hj, hv'⟩ := Json.nullable_eq_some h
  rw [hj, Json.field_ok hv', Except.ok.injEq] at hv
  simp [← hv]

theorem accepted_of_unmarshalOffer (h : unmarshalOffer sha3 keccak256 json = .ok o) :
    Accepted sha3 keccak256 o := by
  simp only [unmarshalOffer, unmarshalJSON, Except.bind_ok_iff, Except.mapError_eq_ok,
    Except.failIf_eq_ok, Except.pure_ok_iff] at h
  obtain ⟨version, hv, _, hn, _, hg, o, ⟨o₀, hd, _, -, hval⟩, _, hr, rfl⟩ := h
  obtain ⟨v, rfl⟩ := Option.ne_none_iff_exists'.mp hn
  obtain ⟨⟨_, hmin⟩, ⟨_, hmax⟩, ⟨s, hrate⟩, hver⟩ := decode_inv hd
  have hself := validate_self hval
  simp only [validate, Except.bind_ok_iff, Except.mapError_eq_ok, Except.pure_ok_iff] at hval
  obtain ⟨offer, ho, rfl⟩ := hval
  obtain ⟨hm, hm', hid⟩ := Offer.validate_inv ho
  have hb := (Offer.validate_eq_ok ho).exchangeRate
  simp only [Coins.ExchangeRate.unmarshalText, Option.bind_eq_bind, Option.bind_eq_some_iff,
    Except.toOption_eq_some_iff] at hrate
  obtain ⟨rate, hs, hp⟩ := hrate
  rw [← hb] at hp
  exact {
    version      := by simpa [hver v hv] using hg
    minAmount    := .of_validatePositive hmin hm (by decide)
    maxAmount    := .of_validatePositive hmax hm' (by decide)
    exchangeRate := .of_validatePositive hs hp (by decide)
    rate         := Coins.validatePositive_self hp
    required     := hr
    valid        := hself
    id           := hid }

theorem SameTerms.eq (h : SameTerms o₁ o₂) (hid : o₁.id = o₂.id) : o₁ = o₂ := by
  obtain ⟨⟨_, _, _, _, _⟩, _, _, _⟩ := o₁
  obtain ⟨⟨_, _, _, _, _⟩, _, _, _⟩ := o₂
  obtain ⟨rfl, rfl, rfl, rfl, rfl, rfl, rfl⟩ := h
  obtain rfl := hid
  rfl

-- The ID of an accepted offer commits to its terms, and its JSON form is read as the same offer.
theorem id_binds_terms (h₁ : unmarshalOffer sha3 keccak256 json₁ = .ok o₁)
    (h₂ : unmarshalOffer sha3 keccak256 json₂ = .ok o₂) :
    (o₁.preimage keccak256 = o₂.preimage keccak256 → SameTerms o₁ o₂) ∧
    ((sha3 (o₁.preimage keccak256) = sha3 (o₂.preimage keccak256) →
        o₁.preimage keccak256 = o₂.preimage keccak256) →
      o₁.id = o₂.id → o₁ = o₂) ∧
    ∃ json, o₁.marshalJSON sha3 keccak256 = .ok json ∧
      unmarshalOffer sha3 keccak256 json = .ok o₁ := by
  have a₁ := accepted_of_unmarshalOffer h₁
  have a₂ := accepted_of_unmarshalOffer h₂
  refine ⟨a₁.sameTerms a₂, fun hc hid => ?_, _, a₁.marshalJSON, a₁.unmarshalOffer_encode⟩
  refine (a₁.sameTerms a₂ <| hc ?_).eq hid
  exact a₁.id.symm.trans <| hid.trans a₂.id

namespace Sample

-- The same terms up to the nonce, written in two ways.
def lenient : OfferJSON where
  version      := some <| .string "v1".toList
  offerID      := some <| .string <| Hash.marshalText 1
  provides     := some <| .string "xmr".toList
  minAmount    := some <| .string "1.0".toList
  maxAmount    := some <| .string "1E1".toList
  exchangeRate := some <| .string "0.50".toList
  nonce        := some <| .number "7".toList

def strict : OfferJSON where
  version      := some <| .string "1.0.0".toList
  offerID      := some <| .string <| Hash.marshalText 1
  provides     := some <| .string "XMR".toList
  minAmount    := some <| .string "1".toList
  maxAmount    := some <| .string "10".toList
  exchangeRate := some <| .string "0.5".toList
  ethAsset     := some <| .string "ETH".toList
  nonce        := some <| .number "8".toList

def offer (nonce : UInt64) : FullOffer where
  version      := curOfferVersion
  id           := 1
  provides     := .xmr
  minAmount    := { coeff := 1 }
  maxAmount    := { coeff := 1, exponent := 1 }
  exchangeRate := { coeff := 5, exponent := -1 }
  ethAsset     := ethAssetETH
  nonce

end Sample

theorem id_binds_terms_sample :
    (Sample.offer 7).preimage (fun _ => 0) ≠ (Sample.offer 8).preimage (fun _ => 0) := by
  have h₁ : unmarshalOffer (fun _ => 1) (fun _ => 0) Sample.lenient = .ok (Sample.offer 7) := by
    decide +kernel
  have h₂ : unmarshalOffer (fun _ => 1) (fun _ => 0) Sample.strict = .ok (Sample.offer 8) := by
    decide +kernel
  intro h
  exact absurd ((id_binds_terms h₁ h₂).left h).nonce (by decide)

end FullOffer
