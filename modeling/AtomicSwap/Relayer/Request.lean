import AtomicSwap.Ethereum.Client
import AtomicSwap.Relayer.Validate

open Ethereum Handler

namespace Relayer

-- A private key of Ethereum: its address, and the signature that `crypto.Sign` makes of a digest.
structure EthKey where
  address : Address
  sign    : Bytes32 → Option Signature

inductive RequestError
  | claimerMismatch (signer claimer : Address)
  | sign
  deriving DecidableEq

section

variable (host : Host) (key : EthKey) (relaySwap : SwapCreator.SwapCreatorRelaySwap)

-- Ethereum wants 27 or 28 for `v`.
def sign (digest : Bytes32) : Option Signature :=
  (key.sign digest).map fun sig => { sig with v := sig.v + 27 }

def createRelayClaimSignature : Except RequestError Signature := do
  .failIf (relaySwap.swap.claimer ≠ key.address)
    (.claimerMismatch key.address relaySwap.swap.claimer)
  (sign key <| relaySwap.hash host).elim (.error .sign) .ok

-- The offer is set elsewhere if the request is sent to the counterparty.
def createRelayClaimRequest (secret : Bytes32) : Except RequestError RelayClaimRequest := do
  let signature ← createRelayClaimSignature host key relaySwap
  return { offerID := none, relaySwap, secret, signature }

end

inductive SubmitError
  | invalid (e : Error)
  | balance
  | gasPrice
  | balanceUnderMinimum (balance txCost : ℤ)
  | txOpts
  | simulation
  | claimRelayer (e : TransactError)
  | receipt (e : WaitError)
  deriving DecidableEq

-- The worst case of the gas that `claimRelayer` uses.
def maxClaimRelayerETHGas : ℤ :=
  100000

variable {σ : Type} (ec : EthClient σ)

def checkForMinClaimBalance : Handler σ SubmitError ℤ := do
  let balance ← askFor .balance ec.balance
  let gasPrice ← askFor .gasPrice ec.suggestGasPrice
  let txCost := gasPrice * maxClaimRelayerETHGas
  throwIf (balance < txCost) (.balanceUnderMinimum balance txCost)
  return gasPrice

def simulateClaimRelayer (swapCreator : Address) (call : SwapCreator.Call) :
    Handler σ SubmitError Unit :=
  askFor .simulation (ec.callContract swapCreator call)

-- The part of `ValidateAndSendTransaction` that runs with the lock of the wallet.
def sendTransaction (swapCreator : Address) (call : SwapCreator.Call) :
    Handler σ SubmitError Bytes32 := do
  askFor .txOpts ec.txOpts
  simulateClaimRelayer ec swapCreator call
  let tx ← ask (ec.transact swapCreator call)
  let txHash ← ofExcept (tx.mapError .claimRelayer)
  let _ ← zoom id (fun s _ => s) .receipt (waitForReceipt ec txHash)
  return txHash

def validateAndSendTransaction (rec : Recovery) (checkSwapCreatorContractCode : Address → Bool)
    (request : RelayClaimRequest) (ourSwapCreatorAddr : Address) (salt : BitVec 32) :
    Handler σ SubmitError Bytes32 := do
  let valid := validateClaimRequest rec checkSwapCreatorContractCode request ec.address salt
    ourSwapCreatorAddr
  ofExcept (valid.mapError .invalid)
  let _ ← checkForMinClaimBalance ec
  sendTransaction ec request.relaySwap.swapCreator (claimRelayerCall request ec.address salt)

end Relayer
