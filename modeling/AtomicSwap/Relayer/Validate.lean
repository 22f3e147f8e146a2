import AtomicSwap.Coins
import AtomicSwap.Ethereum.Utils

open Ethereum Ethereum.SwapCreator

namespace Relayer

-- The fee of a relayer in wei.
def relayerFeeWei : ℤ := 10 ^ 16

-- The recovery of a signer from one of the four recovery IDs. It fails if there is no such signer.
structure Recovery where
  keccak256 : List UInt8 → Bytes32
  recover   : Bytes32 → UInt8 → Bytes32 → Bytes32 → Option Address

namespace Recovery

variable (rec : Recovery)

-- The EVM knows two of the recovery IDs, and gives the zero address for a failure.
def host : Host where
  keccak256 := rec.keccak256
  ecrecover hash v r s := if v = 27 ∨ v = 28 then (rec.recover hash (v - 27) r s).getD 0 else 0

-- The library of the Go code knows all of them.
def ecrecover (hash : Bytes32) (v : UInt8) (r s : Bytes32) : Option Address :=
  if v ≥ 4 then none else rec.recover hash v r s

end Recovery

structure Signature where
  r : Bytes32
  s : Bytes32
  v : UInt8
  deriving DecidableEq

-- The offer is given if the maker of a swap asks its taker.
structure RelayClaimRequest where
  offerID   : Option Bytes32
  relaySwap : SwapCreatorRelaySwap
  secret    : Bytes32
  signature : Signature
  deriving DecidableEq

inductive Error
  | swapCreatorMismatch (found expected : Address)
  | contractCode (swapCreator : Address)
  | assetNotSupported (asset : Address)
  | valueTooLow (value : ℤ)
  | relayerHashMismatch (found expected : Bytes32)
  | feeTooLow (fee : ℤ)
  | invalidSignature
  | signerNotClaimer
  deriving DecidableEq

def relayerAddressHash (rec : Recovery) (ourAddress : Address) (salt : BitVec 32) : Bytes32 :=
  rec.keccak256 (Bytes.be 20 ourAddress.toNat ++ Bytes.be 4 salt.toNat)

section

variable (rec : Recovery) (checkSwapCreatorContractCode : Address → Bool)

-- The first part of `validateClaimValues`, about the contract of the swap.
def validateSwapCreator (request : RelayClaimRequest) (ourSwapCreatorAddr : Address) :
    Except Error Unit :=
  let swapCreator := request.relaySwap.swapCreator
  if swapCreator = ourSwapCreatorAddr then .ok ()
  else do
    .failIf request.offerID.isSome (.swapCreatorMismatch swapCreator ourSwapCreatorAddr)
    .failIf (¬checkSwapCreatorContractCode swapCreator) (.contractCode swapCreator)

def validateClaimValues (request : RelayClaimRequest) (ourAddress : Address) (salt : BitVec 32)
    (ourSwapCreatorAddr : Address) : Except Error Unit := do
  validateSwapCreator checkSwapCreatorContractCode request ourSwapCreatorAddr
  let relaySwap := request.relaySwap
  .failIf (relaySwap.swap.asset ≠ native) (.assetNotSupported relaySwap.swap.asset)
  .failIf (relayerFeeWei ≥ relaySwap.swap.value) (.valueTooLow relaySwap.swap.value)
  let hash := relayerAddressHash rec ourAddress salt
  .failIf (relaySwap.relayerHash ≠ hash) (.relayerHashMismatch relaySwap.relayerHash hash)
  .failIf (relayerFeeWei > relaySwap.fee) (.feeTooLow relaySwap.fee)

-- The subtraction of 27 is one of bytes.
def validateClaimSignature (request : RelayClaimRequest) : Except Error Unit := do
  let msg := request.relaySwap.hash rec.host
  let sig := request.signature
  let signer ← (rec.ecrecover msg (sig.v - 27) sig.r sig.s).elim (.error .invalidSignature) .ok
  .failIf (signer ≠ request.relaySwap.swap.claimer) .signerNotClaimer

def validateClaimRequest (request : RelayClaimRequest) (ourAddress : Address) (salt : BitVec 32)
    (ourSwapCreatorAddr : Address) : Except Error Unit := do
  validateClaimValues rec checkSwapCreatorContractCode request ourAddress salt ourSwapCreatorAddr
  validateClaimSignature rec request

-- The call that is made for a valid request.
def claimRelayerCall (request : RelayClaimRequest) (ourAddress : Address) (salt : BitVec 32) :
    SwapCreator.Call :=
  .claimRelayer ⟨ourAddress, 0⟩ request.relaySwap.pack request.secret ourAddress salt
    request.signature.v request.signature.r request.signature.s

end

end Relayer
