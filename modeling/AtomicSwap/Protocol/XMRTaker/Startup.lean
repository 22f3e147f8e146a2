import AtomicSwap.Protocol.Keys
import AtomicSwap.Protocol.Swap.Manager
import AtomicSwap.Protocol.XMRTaker.Instance

open Ethereum SwapCreator Handler Function
open DB (RecoveryDB)
open Monero (Curve KeyError PrivateKeyPair PrivateSpendKey)

-- What the taker does about the swaps that it finds in the database when the daemon starts.
namespace XMRTaker

inductive StartupError
  | manager (e : Swap.Error)
  | state (e : Error)
  | recoveryDB (e : DB.Error)
  | newSwapTxHash
  | view (e : KeyError)
  | newSwapTransaction
  | cancelTransaction
  | newSwapReceipt
  | newSwapParameters
  | newSwapCreator
  | swapStage
  | notPending (offerID : Bytes32)
  | txOpts
  | refundTransaction
  | refundReceipt
  | claimMonero
  deriving DecidableEq

def StartupError.isPanic : StartupError → Bool
  | manager e => e = .panicked
  | state e   => e.isPanic
  | _         => false

structure NewSwapParameters where
  swapCreatorAddr : Address
  owner           : Address
  claimer         : Address
  cmtXMRMaker     : Bytes32
  cmtXMRTaker     : Bytes32
  asset           : Address
  value           : ℤ
  nonce           : ℤ
  deriving DecidableEq

-- What other components answer for one of the swaps. The first call tells whether the transaction
-- is pending.
structure StartupCalls where
  getNewSwapTxHash  : Bool
  transactionByHash : Option Bool
  cancelTxWithNonce : CancelResult
  waitForReceipt    : Option Receipt
  newSwapParameters : Option NewSwapParameters
  newSwapCreator    : Bool
  swaps             : Bytes32 → Option Stage
  txOpts            : Bool
  refund            : SwapCreatorSwap → PrivateSpendKey → Bool
  refundReceipt     : Bool
  createWallet      : PrivateKeyPair → Bool -- and the deposit address is valid
  sweepAll          : Bool
  start             : StartCalls
  put               : Bool
  now               : Time

structure Instance where
  swapManager    : Swap.Manager
  recovery       : RecoveryDB
  swapStates     : Bytes32 → Option SwapState := fun _ => none
  noTransferBack : Bool := false

namespace Instance

abbrev M := Handler Instance StartupError

def swaps {α : Type} (x : Swap.Manager.M α) : M α :=
  zoom swapManager (fun swapManager inst => { inst with swapManager }) .manager x

def recoveryDB {α : Type} (f : RecoveryDB → Except DB.Error α) : M α := do
  let inst ← get
  ofExcept ((f inst.recovery).mapError .recoveryDB)

variable (C : Curve) (b : Backend) (calls : StartupCalls)

-- The pointer is the one of the swap's `Info`.
def completeOngoingSwap (p : ℕ) (status : Status) : M Unit := do
  swaps (Swap.Manager.setStatus p status)
  swaps (Swap.Manager.completeOngoingSwap calls.put calls.now p)

def abortOngoingSwap (p : ℕ) (s : Swap.Record) : M Unit := do
  completeOngoingSwap calls p .completedAbort
  modify fun inst => { inst with recovery := inst.recovery.deleteSwap s.offerID }

section NewSwap

def maybeCancelNewSwap : M Bool := do
  let isPending ← ofOption .newSwapTransaction calls.transactionByHash
  if !isPending then return false
  throwIf (calls.cancelTxWithNonce = .failed) .cancelTransaction
  return calls.cancelTxWithNonce = .included

def newContractSwap (params : NewSwapParameters) (t1 t2 : ℤ) : SwapCreatorSwap where
  owner            := params.owner
  claimer          := params.claimer
  claimCommitment  := params.cmtXMRMaker
  refundCommitment := params.cmtXMRTaker
  timeout1         := t1
  timeout2         := t2
  asset            := params.asset
  value            := params.value
  nonce            := params.nonce

-- The transaction has been included, or its receipt is waited for.
def refundNewSwap (p : ℕ) (s : Swap.Record) : M Unit := do
  let receipt ← ofOption .newSwapReceipt calls.waitForReceipt
  throwIf (receipt.logs = []) (.state .swapInstantiationNoLogs)
  let (t1, t2) ←
    ofExcept ((firstOf getTimeoutsFromLog .timeoutsNotFound receipt.logs).mapError .state)
  let params ← ofOption .newSwapParameters calls.newSwapParameters
  let swap := newContractSwap params t1 t2
  let secret ← recoveryDB (·.getSwapPrivateKey s.offerID)
  throwIf (!calls.newSwapCreator) .newSwapCreator
  let stage ← ofOption .swapStage (calls.swaps (swap.swapID b.host))
  throwIf (stage ≠ .pending) (.notPending s.offerID)
  throwIf (!calls.txOpts) .txOpts
  throwIf (!calls.refund swap secret) .refundTransaction
  throwIf (!calls.refundReceipt) .refundReceipt
  completeOngoingSwap calls p .completedRefund

-- If the transaction is cancelled, the swap stays as it is.
def refundOrCancelNewSwap (p : ℕ) (s : Swap.Record) : M Unit := do
  let cancelled ← maybeCancelNewSwap calls
  if cancelled then return
  refundNewSwap b calls p s

end NewSwap

section OngoingSwap

def claimMonero (p : ℕ) (kpAB : PrivateKeyPair) : M Unit := do
  throwIf (!calls.createWallet kpAB) .claimMonero
  let inst ← get
  if inst.noTransferBack then return
  swaps (Swap.Manager.setStatus p .sweepingXMR)
  swaps (Swap.Manager.writeSwapToDB calls.put p)
  throwIf (!calls.sweepAll) .claimMonero

def completeSwap (p : ℕ) (s : Swap.Record) (skB : PrivateSpendKey) : M Unit := do
  let skA ← recoveryDB (·.getSwapPrivateKey s.offerID)
  let vkA ← ofExcept ((skA.view C).mapError .view)
  let (_, vkB) ← recoveryDB (·.getCounterpartySwapKeys C s.offerID)
  claimMonero calls p (getClaimKeypair skA skB vkA vkB)
  completeOngoingSwap calls p .completedSuccess

def createOngoingSwap (p : ℕ) (s : Swap.Record) : M Unit := do
  match ← attempt <| recoveryDB (·.getCounterpartySwapPrivateKey s.offerID) with
  | .ok skB  => completeSwap C calls p s skB
  | .error _ =>
    let ethSwapInfo ← recoveryDB (·.getContractSwapInfo s.offerID)
    let sk ← recoveryDB (·.getSwapPrivateKey s.offerID)
    let _ ← ofExcept ((sk.asPrivateKeyPair C).mapError .view)
    let inst ← get
    let ss ← ofExcept ((newSwapStateFromOngoing b calls.start s.toInfo inst.noTransferBack
      ethSwapInfo).mapError .state)
    modify fun inst => { inst with swapStates := update inst.swapStates s.offerID (some ss) }

end OngoingSwap

def settleNewSwap (p : ℕ) (s : Swap.Record) : M Unit := do
  throwIf (!calls.getNewSwapTxHash) .newSwapTxHash
  match ← attempt <| recoveryDB (·.getNewSwapTxHash s.offerID) with
  | .error _ => abortOngoingSwap calls p s
  | .ok _    => refundOrCancelNewSwap b calls p s

-- The errors are logged.
def resumeOngoingSwap (p : ℕ) (s : Swap.Record) : M Unit := do
  match ← attempt <| createOngoingSwap C b calls p s with
  | .error e => throwIf e.isPanic e
  | .ok _    => return

def recoverSwap (p : ℕ) (s : Swap.Record) : M Unit :=
  if s.provides ≠ .eth then return
  else if s.status = .expectingKeys then settleNewSwap b calls p s
  else if s.status = .sweepingXMR then completeOngoingSwap calls p .completedSuccess
  else resumeOngoingSwap C b calls p s

-- One round of the loop of `checkForOngoingSwaps`.
def checkForOngoingSwap (id : Bytes32) : M Unit := do
  let p ← swaps (Swap.Manager.getOngoingSwap id)
  let s ← swaps (Swap.Manager.info p)
  recoverSwap C b calls p s

-- The IDs come in the order in which `GetOngoingSwapOfferIDs` finds them in its map.
def checkForOngoingSwaps (calls : Bytes32 → StartupCalls) : List Bytes32 → M Unit
  | []        => return
  | id :: ids => do
    checkForOngoingSwap C b (calls id) id
    checkForOngoingSwaps calls ids

-- The instance of a process that finds the given databases.
def started (db : Swap.Table) (recovery : RecoveryDB) (noTransferBack : Bool) : Instance where
  swapManager    := .newManager db
  recovery       := recovery
  noTransferBack := noTransferBack

end Instance

end XMRTaker
