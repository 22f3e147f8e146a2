import AtomicSwap.Common.Types
import AtomicSwap.Ethereum.Hex
import AtomicSwap.Library.Json
import AtomicSwap.Library.Semver

open Ethereum

-- The JSON form of an offer, and the ID that commits to its terms.

namespace EthAsset

variable (keccak256 : List UInt8 → Bytes32)

def string (asset : Address) : List Char :=
  if asset = ethAssetETH then "ETH".toList
  else "ERC20@".toList ++ Address.hex keccak256 asset

def marshalText (asset : Address) : List Char :=
  if asset = ethAssetETH then "ETH".toList else Address.hex keccak256 asset

def unmarshalText (input : List Char) : Option Address :=
  if input = "ETH".toList then some ethAssetETH
  else Address.ofHex <| ("ERC20@".toList.isPrefixOf? input).getD input

end EthAsset

-- `Offer` with the fields that only its ID and its JSON form depend on.
structure FullOffer extends Offer where
  version  : Semver.Version
  provides : Coins.ProvidesCoin
  nonce    : UInt64
  deriving DecidableEq

-- The members of the JSON object of an offer.
structure OfferJSON where
  version      : Option Json.Value := none
  offerID      : Option Json.Value := none
  provides     : Option Json.Value := none
  minAmount    : Option Json.Value := none
  maxAmount    : Option Json.Value := none
  exchangeRate : Option Json.Value := none
  ethAsset     : Option Json.Value := none
  nonce        : Option Json.Value := none
  deriving DecidableEq

namespace FullOffer

inductive Error
  | versionMissing
  | versionNotSupported
  | json (e : Json.Error)
  | offer (e : Offer.Error)
  deriving DecidableEq

def curOfferVersion : Semver.Version := { major := 1, minor := 0, patch := 0 }

variable (sha3 keccak256 : List UInt8 → Bytes32)

-- The bytes that are hashed. Nothing separates the version from the provided coin.
def preimage (o : FullOffer) : List UInt8 :=
  Text.bytes <| o.version.text ++ o.provides.text ++
    ',' :: (o.minAmount.text ++
    ',' :: (o.maxAmount.text ++
    ',' :: (o.exchangeRate.text ++
    ',' :: (EthAsset.string keccak256 o.ethAsset ++
    ',' :: Nat.toDigits 10 o.nonce.toNat))))

def hash (o : FullOffer) : Bytes32 :=
  sha3 <| o.preimage keccak256

def validate (o : FullOffer) : Except Error FullOffer := do
  let offer ← (o.toOffer.validate fun offer =>
    hash sha3 keccak256 { o with toOffer := offer }).mapError .offer
  return { o with toOffer := offer }

-- The `required` tags of the fields that always hold some value.
def checkRequired (o : FullOffer) : Except Error Unit := do
  .failIf (o.id = 0) <| .json <| .required "offerID"
  .failIf (o.nonce = 0) <| .json <| .required "nonce"

-- Fields that are not `required` have their zero value if they are missing.
def decode (json : OfferJSON) : Except Json.Error FullOffer := do
  let version ← Json.field "version" (Json.text Semver.newVersion) json.version
  let id ← Json.field "offerID" (Json.text Hash.unmarshalText) json.offerID
  let provides ← Json.nullable "provides" (Json.text Coins.ProvidesCoin.unmarshalText) json.provides
  let minAmount ← Json.nullable "minAmount" (Json.text Decimal.setString) json.minAmount
  let maxAmount ← Json.nullable "maxAmount" (Json.text Decimal.setString) json.maxAmount
  let exchangeRate ← Json.nullable "exchangeRate" (Json.text Coins.ExchangeRate.unmarshalText)
    json.exchangeRate
  let ethAsset ← Json.nullable "ethAsset" (Json.text EthAsset.unmarshalText) json.ethAsset
  let nonce ← Json.nullable "nonce" Json.uint64 json.nonce
  let provides ← Json.required "provides" provides
  let minAmount ← Json.required "minAmount" minAmount
  let maxAmount ← Json.required "maxAmount" maxAmount
  let exchangeRate ← Json.required "exchangeRate" exchangeRate
  return {
    version      := version.getD { major := 0, minor := 0, patch := 0 }
    id           := id.getD 0
    ethAsset     := ethAsset.getD ethAssetETH
    nonce        := nonce.getD 0
    provides, minAmount, maxAmount, exchangeRate }

def unmarshalJSON (json : OfferJSON) : Except Error FullOffer := do
  let o ← (decode json).mapError .json
  o.checkRequired
  o.validate sha3 keccak256

-- The version is read before all other fields.
def unmarshalOffer (json : OfferJSON) : Except Error FullOffer := do
  let version ← (Json.nullable "version" (Json.text Semver.newVersion) json.version).mapError .json
  .failIf (version = none) .versionMissing
  .failIf (version.any (·.greaterThan curOfferVersion)) .versionNotSupported
  let o ← unmarshalJSON sha3 keccak256 json
  o.checkRequired
  return o

def encode (o : FullOffer) : OfferJSON where
  version      := some <| .string <| o.version.text
  offerID      := some <| .string <| Hash.marshalText o.id
  provides     := some <| .string <| o.provides.text
  minAmount    := some <| .string <| o.minAmount.string
  maxAmount    := some <| .string <| o.maxAmount.string
  exchangeRate := some <| .string <| o.exchangeRate.string
  ethAsset     := some <| .string <| EthAsset.marshalText keccak256 o.ethAsset
  nonce        := some <| .number <| Nat.toDigits 10 o.nonce.toNat

def marshalJSON (o : FullOffer) : Except Error OfferJSON := do
  let o ← o.validate sha3 keccak256
  o.checkRequired
  return o.encode keccak256

end FullOffer
