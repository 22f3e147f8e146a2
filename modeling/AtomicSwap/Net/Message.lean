import AtomicSwap.Ethereum.Hex
import AtomicSwap.Library.Json.Struct
import AtomicSwap.Library.Utf8
import AtomicSwap.Net.Relay

open Ethereum Ethereum.SwapCreator Json Relayer

-- The JSON form of an address, which has no checksum.
namespace Ethereum.Address

def marshalText (a : Address) : List Char :=
  '0' :: 'x' :: Hex.encode (Bytes.be 20 a.toNat)

def unmarshalText (s : List Char) : Option Address := do
  if ¬has0xPrefix s then none
  let bs ← Hex.decode <| s.drop 2
  if bs.length = 20 then some <| .ofNat 160 (Bytes.beValue bs) else none

end Ethereum.Address

-- The messages with which a claim is relayed, as they are sent.
namespace Message

def relayClaimRequestType : UInt8 :=
  3

-- The structure `swap`, through which a swap is decoded.
structure SwapJSON where
  owner            : Address  := 0
  claimer          : Address  := 0
  claimCommitment  : Bytes32  := 0
  refundCommitment : Bytes32  := 0
  timeout1         : Option ℤ := none
  timeout2         : Option ℤ := none
  asset            : Address  := 0
  value            : Option ℤ := none
  nonce            : Option ℤ := none

-- The addresses and the hashes are decoded without regard to escape sequences.
def SwapJSON.fields : List (Json.Field SwapJSON) :=
  [⟨"owner".toList, fun t s => do return { s with owner := ← raw Address.unmarshalText t }⟩,
    ⟨"claimer".toList, fun t s => do return { s with claimer := ← raw Address.unmarshalText t }⟩,
    ⟨"claimCommitment".toList,
      fun t s => do return { s with claimCommitment := ← raw Hash.unmarshalText t }⟩,
    ⟨"refundCommitment".toList,
      fun t s => do return { s with refundCommitment := ← raw Hash.unmarshalText t }⟩,
    ⟨"timeout1".toList, fun t s => do return { s with timeout1 := ← pointer bigInt t }⟩,
    ⟨"timeout2".toList, fun t s => do return { s with timeout2 := ← pointer bigInt t }⟩,
    ⟨"asset".toList, fun t s => do return { s with asset := ← raw Address.unmarshalText t }⟩,
    ⟨"value".toList, fun t s => do return { s with value := ← pointer bigInt t }⟩,
    ⟨"nonce".toList, fun t s => do return { s with nonce := ← pointer bigInt t }⟩]

-- The fields of a swap that must not be zero.
structure Required (s : SwapCreatorSwap) : Prop where
  owner            : s.owner ≠ 0
  claimer          : s.claimer ≠ 0
  claimCommitment  : s.claimCommitment ≠ 0
  refundCommitment : s.refundCommitment ≠ 0

def SwapJSON.validate (s : SwapJSON) : Option SwapCreatorSwap := do
  if s.owner = 0 ∨ s.claimer = 0 ∨ s.claimCommitment = 0 ∨ s.refundCommitment = 0 then none
  let timeout1 ← s.timeout1
  let timeout2 ← s.timeout2
  let value ← s.value
  let nonce ← s.nonce
  return ⟨s.owner, s.claimer, s.claimCommitment, s.refundCommitment, timeout1, timeout2, s.asset,
    value, nonce⟩

def unmarshalSwap (t : Tree) : Option SwapCreatorSwap := do
  let s ← decodeStruct SwapJSON.fields t {}
  s.validate

-- The structure `SwapCreatorRelaySwap`. Its fields have no tags.
structure RelaySwapJSON where
  swap        : Option SwapCreatorSwap := none
  fee         : Option ℤ               := none
  relayerHash : Bytes32                := 0
  swapCreator : Address                := 0

def RelaySwapJSON.fields : List (Json.Field RelaySwapJSON) :=
  [⟨"Swap".toList, fun t r => do return { r with swap := some (← unmarshalSwap t) }⟩,
    ⟨"Fee".toList, fun t r => do return { r with fee := ← pointer bigInt t }⟩,
    ⟨"RelayerHash".toList, fun t r => do
      let bs ← byteArray (Bytes.be 32 r.relayerHash.toNat) t
      return { r with relayerHash := .ofNat 256 (Bytes.beValue bs) }⟩,
    ⟨"SwapCreator".toList,
      fun t r => do return { r with swapCreator := ← raw Address.unmarshalText t }⟩]

-- The structure `RelayClaimRequest`.
structure RequestJSON where
  offerID   : Option Bytes32       := none
  relaySwap : Option RelaySwapJSON := none
  secret    : Option (List UInt8)  := none
  signature : Option (List UInt8)  := none

def RequestJSON.fields : List (Json.Field RequestJSON) :=
  [⟨"offerID".toList,
      fun t m => do return { m with offerID := ← pointer (raw Hash.unmarshalText) t }⟩,
    ⟨"relaySwap".toList, fun t m => do
      let decode t := decodeStruct RelaySwapJSON.fields t (m.relaySwap.getD {})
      return { m with relaySwap := ← pointer decode t }⟩,
    ⟨"secret".toList, fun t m => do return { m with secret := ← byteSlice m.secret t }⟩,
    ⟨"signature".toList,
      fun t m => do return { m with signature := ← byteSlice m.signature t }⟩]

def wordAt (bs : List UInt8) (i : ℕ) : Bytes32 :=
  .ofNat 256 <| Bytes.beValue <| (bs.drop i).take 32

-- The request with its secret and signature as they are read later.
def RequestJSON.validate (m : RequestJSON) : Option Relay.ClaimRequest := do
  let r ← m.relaySwap
  let secret ← m.secret
  let sig ← m.signature
  if secret.length ≠ 32 ∨ sig.length ≠ 65 then none
  return {
    offerID     := m.offerID
    swap        := r.swap
    fee         := r.fee
    relayerHash := r.relayerHash
    swapCreator := r.swapCreator
    secret      := wordAt secret 0
    signature   := ⟨wordAt sig 0, wordAt sig 32, sig.getD 64 0⟩ }

-- `DecodeMessage`, and the check of the type in `handleRelayStream`: there, a message of another
-- type is ignored as one that cannot be decoded is.
def decodeRelayClaimRequest : List UInt8 → Option Relay.ClaimRequest
  | []       => none
  | t :: msg => do
    if msg.length < 2 ∨ t ≠ relayClaimRequestType then none
    let tree ← parse (Utf8.decode msg)
    let m ← decodeStruct RequestJSON.fields tree {}
    m.validate

def maxRelayMessageSize : ℕ :=
  2048

-- A stream with a longer message is closed before the message is decoded.
def readRelayClaimRequest (msg : List UInt8) : Option Relay.ClaimRequest :=
  if msg.length ≤ maxRelayMessageSize then decodeRelayClaimRequest msg else none

section Encode

def swapTree (s : SwapCreatorSwap) : Tree :=
  .object [("owner".toList, .string s.owner.marshalText),
    ("claimer".toList, .string s.claimer.marshalText),
    ("claimCommitment".toList, .string <| Hash.marshalText s.claimCommitment),
    ("refundCommitment".toList, .string <| Hash.marshalText s.refundCommitment),
    ("timeout1".toList, .number <| integer s.timeout1),
    ("timeout2".toList, .number <| integer s.timeout2),
    ("asset".toList, .string s.asset.marshalText),
    ("value".toList, .number <| integer s.value),
    ("nonce".toList, .number <| integer s.nonce)]

-- A missing swap is left out, and a missing fee is null.
def relaySwapTree (r : Relay.ClaimRequest) : Tree :=
  .object <| (r.swap.map fun s => ("Swap".toList, swapTree s)).toList ++
    [("Fee".toList, r.fee.elim .null fun n => .number <| integer n),
      ("RelayerHash".toList, numbers <| Bytes.be 32 r.relayerHash.toNat),
      ("SwapCreator".toList, .string r.swapCreator.marshalText)]

def signatureBytes (sig : Signature) : List UInt8 :=
  Bytes.be 32 sig.r.toNat ++ Bytes.be 32 sig.s.toNat ++ [sig.v]

def requestTree (r : Relay.ClaimRequest) : Tree :=
  .object [("offerID".toList, r.offerID.elim .null fun id => .string <| Hash.marshalText id),
    ("relaySwap".toList, relaySwapTree r),
    ("secret".toList, .string <| Base64.encode <| Bytes.be 32 r.secret.toNat),
    ("signature".toList, .string <| Base64.encode <| signatureBytes r.signature)]

def relayClaimRequestBytes (r : Relay.ClaimRequest) : List UInt8 :=
  relayClaimRequestType :: Text.bytes (requestTree r).render

-- A node cannot send a swap whose addresses or commitments are zero.
def encode (r : RelayClaimRequest) : Option (List UInt8) :=
  let s := r.relaySwap.swap
  if s.owner = 0 ∨ s.claimer = 0 ∨ s.claimCommitment = 0 ∨ s.refundCommitment = 0 then none
  else some <| relayClaimRequestBytes <| .ofComplete r

end Encode

end Message
