import AtomicSwap.Library.Handler
import AtomicSwap.Library.Machine
import AtomicSwap.Library.Ownership
import AtomicSwap.Protocol.Keys

open Ethereum Monero DB Handler Ownership Function

-- What the daemon writes to its databases and reads from them, over several swaps. The rest of what
-- a swap does only decides which of the inputs arrive.
namespace Recovery

inductive Kind
  | contractSwapInfo
  | swapPrivateKey
  | counterpartySwapPrivateKey
  | counterpartySwapKeys
  | newSwapTxHash
  deriving DecidableEq

inductive Record (C : Curve)
  | contractSwapInfo (info : EthereumSwapInfo)
  | swapPrivateKey (sk : PrivateSpendKey)
  | counterpartySwapPrivateKey (sk : PrivateSpendKey)
  | counterpartySwapKeys (sk : PublicKey C) (vk : PrivateViewKey)
  | newSwapTxHash (txHash : Bytes32)

inductive Provides
  | xmr
  | eth
  deriving DecidableEq

def Provides.firstStatus : Provides → Status
  | xmr => .keysExchanged
  | eth => .expectingKeys

-- A swap whose goroutine runs. The keys of the counterparty have been stored, or not yet. After a
-- restart the maker does not have them in its memory.
structure Swap where
  offerID   : Bytes32
  provides  : Provides
  hasKeys   : Bool := false
  restarted : Bool := false
  deriving DecidableEq

-- An entry of the database of swaps. The number of the swap is not part of it.
structure Entry where
  swap     : ℕ
  provides : Provides
  status   : Status
  deriving DecidableEq

inductive Funds
  | none
  | pending
  | locked
  | returned
  deriving DecidableEq

-- The offers in memory and in the database, the database of swaps, the swaps that are in progress
-- and those that run, and the recovery database. The other fields are not part of the code: they
-- number the swaps, say what has become of their funds, and record who wrote what.
structure Daemon where
  started    : Bool
  offers     : Bytes32 → Bool
  offerDB    : Bytes32 → Bool
  swapDB     : Bytes32 → Option Entry
  swapStates : Provides → Bytes32 → Option ℕ
  running    : ℕ → Option Swap
  recovery   : RecoveryDB
  next       : ℕ
  offerOf    : ℕ → Bytes32
  funds      : ℕ → Funds
  records    : Registers (Kind × Bytes32) ℕ

def Daemon.new : Daemon where
  started        := true
  offers _       := false
  offerDB _      := false
  swapDB _       := none
  swapStates _ _ := none
  running _      := none
  recovery       := .empty
  next           := 0
  offerOf _      := 0
  funds _        := .none
  records        := {}

structure StartCalls where
  addSwap           : Bool
  putSwapPrivateKey : Bool

-- What other components answer when the daemon is started again. With `newSwapParameters` stands
-- all that `refundOrCancelNewSwap` does before it reads the secret, and with `refund` what comes
-- after it.
structure RestartCalls where
  completeOngoingSwap   : Bool
  sweeping              : PrivateKeyPair → Bool
  noTransferBack        : Bool
  claimMonero           : Bool
  checkIfAlreadyClaimed : EthereumSwapInfo → Option Bool
  newSwapState          : Bool
  maybeCancelNewSwap    : Bytes32 → Option Bool
  newSwapParameters     : Bool
  refund                : PrivateSpendKey → Bool

inductive Error
  | db (e : DB.Error)
  | view (e : KeyError)
  | completeOngoingSwap
  | claimMonero
  | offerDoesNotExist
  | checkIfAlreadyClaimed
  | alreadyCompleted
  | invalidStageForRecovery
  | newSwapState
  | maybeCancelNewSwap
  | newSwapParameters
  | refund

variable {C : Curve}

-- What the handlers of a running swap do to the databases, and when its funds are sent.
inductive SwapInput (C : Curve)
  | counterpartySwapKeys (sk : PublicKey C) (vk : PrivateViewKey)
  | newSwapTxHash (txHash : Bytes32)
  | contractSwapInfo (info : EthereumSwapInfo)
  | counterpartySwapPrivateKey (sk : PrivateSpendKey)
  | fundsSent
  | status (status : Status)
  | exit (status : Status)
  | stop

inductive Input (C : Curve)
  | addOffer (id : Bytes32)
  | deleteOffer (id : Bytes32)
  | initiate (provides : Provides) (id : Bytes32) (sk : PrivateSpendKey) (calls : StartCalls)
  | swap (n : ℕ) (i : SwapInput C)
  | fundsChanged (n : ℕ) (locked : Bool)
  | crash
  | restart (id : Bytes32) (calls : RestartCalls)
  | start

def Record.kind : Record C → Kind
  | contractSwapInfo _           => .contractSwapInfo
  | swapPrivateKey _             => .swapPrivateKey
  | counterpartySwapPrivateKey _ => .counterpartySwapPrivateKey
  | counterpartySwapKeys ..      => .counterpartySwapKeys
  | newSwapTxHash _              => .newSwapTxHash

def Record.put (db : RecoveryDB) (id : Bytes32) : Record C → RecoveryDB
  | contractSwapInfo info         => db.putContractSwapInfo id info
  | swapPrivateKey sk             => db.putSwapPrivateKey id sk
  | counterpartySwapPrivateKey sk => db.putCounterpartySwapPrivateKey id sk
  | counterpartySwapKeys sk vk    => db.putCounterpartySwapKeys id sk vk
  | newSwapTxHash txHash          => db.putNewSwapTxHash id txHash

def hasRecord (db : RecoveryDB) (id : Bytes32) : Kind → Bool
  | .contractSwapInfo           => (db.contractSwapInfo id).isSome
  | .swapPrivateKey             => (db.swapPrivateKey id).isSome
  | .counterpartySwapPrivateKey => (db.counterpartySwapPrivateKey id).isSome
  | .counterpartySwapKeys       => (db.counterpartySwapKeys id).isSome
  | .newSwapTxHash              => (db.newSwapTxHash id).isSome

namespace Daemon

variable (d : Daemon) (id : Bytes32)

section Offers

def addOffer : Daemon :=
  { d with offers := update d.offers id true, offerDB := update d.offerDB id true }

def takeOffer : Daemon :=
  { d with offers := update d.offers id false }

def deleteOffer : Daemon :=
  { d with offers := update d.offers id false, offerDB := update d.offerDB id false }

end Offers

def putSwap (e : Entry) : Daemon :=
  { d with swapDB := update d.swapDB id (some e) }

def put (n : ℕ) (r : Record C) : Daemon :=
  { d with
    recovery := r.put d.recovery id
    records  := d.records.write (r.kind, id) n fun w => d.funds w = .locked }

section Initiate

variable (provides : Provides) (sk : PrivateSpendKey) (calls : StartCalls)

-- If this fails after the swap has been added, its entry stays in the database.
def newSwapStateFromStart : Daemon :=
  let n := d.next
  let d := { d with next := n + 1, offerOf := update d.offerOf n id }
  if !calls.addSwap then d
  else
    let d := d.putSwap id ⟨n, provides, provides.firstStatus⟩
    if !calls.putSwapPrivateKey then d
    else
      { d.put id n (.swapPrivateKey sk : Record C) with
        swapStates := update d.swapStates provides (update (d.swapStates provides) id (some n))
        running    := update d.running n (some { offerID := id, provides }) }

-- The maker only starts a swap for an offer of its own.
def initiate : Daemon :=
  if (d.swapStates provides id).isSome then d
  else
    match provides with
    | .xmr =>
      if d.offers id then (d.takeOffer id).newSwapStateFromStart (C := C) id .xmr sk calls else d
    | .eth => d.newSwapStateFromStart (C := C) id .eth sk calls

end Initiate

section Swap

variable (n : ℕ) (s : Swap)

def setCounterpartyKeys (sk : PublicKey C) (vk : PrivateViewKey) : Daemon :=
  { d.put s.offerID n (.counterpartySwapKeys sk vk) with
    running := update d.running n (some { s with hasKeys := true }) }

-- The maker's `reclaimMonero` and the taker's `claimMonero`. The former reads the keys of the
-- taker, if it has been restarted.
def claimMonero (sk : PrivateSpendKey) : Daemon :=
  let d := d.put s.offerID n (.counterpartySwapPrivateKey sk : Record C)
  if s.provides = .xmr ∧ s.restarted then
    { d with records := d.records.read (.counterpartySwapKeys, s.offerID) n }
  else d

def retireOffer (status : Status) : Daemon :=
  if status ≠ .completedSuccess ∧ id ≠ 0 then d.addOffer id
  else if status = .completedSuccess then d.deleteOffer id
  else d

-- What `exit` defers. The goroutine may go on until it finds out that it has been cancelled.
def exit (status : Status) : Daemon :=
  let d := d.putSwap s.offerID ⟨n, s.provides, status⟩
  let d :=
    match s.provides with
    | .xmr => d.retireOffer s.offerID status
    | .eth => d
  { d with
    recovery   := d.recovery.deleteSwap s.offerID
    swapStates := update d.swapStates s.provides
      (update (d.swapStates s.provides) s.offerID none) }

-- Nothing is locked, and nothing can be claimed, before the keys have been exchanged.
def stepSwap : SwapInput C → Daemon
  | .counterpartySwapKeys sk vk    => d.setCounterpartyKeys n s sk vk
  | .newSwapTxHash txHash          =>
    if s.hasKeys ∧ s.provides = .eth then d.put s.offerID n (.newSwapTxHash txHash : Record C)
    else d
  | .contractSwapInfo info         =>
    if s.hasKeys then d.put s.offerID n (.contractSwapInfo info : Record C) else d
  | .counterpartySwapPrivateKey sk => if s.hasKeys then d.claimMonero (C := C) n s sk else d
  | .fundsSent                     =>
    if s.hasKeys ∧ d.funds n ≠ .locked then { d with funds := update d.funds n .pending } else d
  | .status status                 => d.putSwap s.offerID ⟨n, s.provides, status⟩
  | .exit status                   => d.exit n s status
  | .stop                          => { d with running := update d.running n none }

end Swap

-- What has been sent is locked when it is included, and it may come back or be spent.
def fundsChanged (n : ℕ) (locked : Bool) : Daemon :=
  match d.funds n with
  | .pending | .locked =>
    { d with funds := update d.funds n (if locked then .locked else .returned) }
  | .none | .returned  => d

def crash : Daemon :=
  { d with
    started        := false
    offers         := d.offerDB
    swapStates _ _ := none
    running _      := none }

end Daemon

section Restart

abbrev M := Handler Daemon Error

variable (C) (calls : RestartCalls) (id : Bytes32) (e : Entry)

def read {α : Type} (kind : Kind) (f : RecoveryDB → Bytes32 → Except DB.Error α) : M α := do
  let d ← get
  let a ← ofExcept ((f d.recovery id).mapError .db)
  modify fun d => { d with records := d.records.read (kind, id) e.swap }
  return a

def getContractSwapInfo : M EthereumSwapInfo :=
  read id e .contractSwapInfo RecoveryDB.getContractSwapInfo

def getSwapPrivateKey : M PrivateSpendKey :=
  read id e .swapPrivateKey RecoveryDB.getSwapPrivateKey

def getCounterpartySwapPrivateKey : M PrivateSpendKey :=
  read id e .counterpartySwapPrivateKey RecoveryDB.getCounterpartySwapPrivateKey

def getCounterpartySwapKeys : M (PublicKey C × PrivateViewKey) :=
  read id e .counterpartySwapKeys (RecoveryDB.getCounterpartySwapKeys C)

def getNewSwapTxHash : M Bytes32 :=
  read id e .newSwapTxHash RecoveryDB.getNewSwapTxHash

def putStatus (status : Status) : M Unit :=
  modify fun d => d.putSwap id { e with status }

def completeOngoingSwap (status : Status) : M Unit := do
  throwIf (!calls.completeOngoingSwap) .completeOngoingSwap
  putStatus id e status

def claimMonero (noTransferBack : Bool) (kpAB : PrivateKeyPair) : M Unit := do
  throwIf (!calls.sweeping kpAB) .claimMonero
  if !noTransferBack then putStatus id e .sweepingXMR
  throwIf (!calls.claimMonero) .claimMonero

-- The own spend and view key, and the view key of the counterparty.
def storedKeys : M (PrivateSpendKey × PrivateViewKey × PrivateViewKey) := do
  let sk ← getSwapPrivateKey id e
  let vk ← ofExcept ((sk.view C).mapError .view)
  let (_, counterpartyVk) ← getCounterpartySwapKeys C id e
  return (sk, vk, counterpartyVk)

-- What the functions `createOngoingSwap` of both sides read before the state is made.
def ongoingSwap : M EthereumSwapInfo := do
  let ethSwapInfo ← getContractSwapInfo id e
  let sk ← getSwapPrivateKey id e
  let _ ← ofExcept ((sk.asPrivateKeyPair C).mapError .view)
  return ethSwapInfo

def runSwap : M Unit :=
  modify fun d =>
    { d with
      swapStates := update d.swapStates e.provides
        (update (d.swapStates e.provides) id (some e.swap))
      running    := update d.running e.swap
        (some { offerID := id, provides := e.provides, hasKeys := true, restarted := true }) }

namespace XMRMaker

def completeSwap (skA : PrivateSpendKey) : M Unit := do
  let (skB, vkB, vkA) ← storedKeys C id e
  claimMonero calls id e false (getClaimKeypair skA skB vkA vkB)
  completeOngoingSwap calls id e .completedRefund

def newSwapStateFromOngoing (ethSwapInfo : EthereumSwapInfo) : M Unit := do
  let alreadyClaimed ← ofOption .checkIfAlreadyClaimed (calls.checkIfAlreadyClaimed ethSwapInfo)
  if alreadyClaimed then
    completeOngoingSwap calls id e .completedSuccess
    modify (·.deleteOffer id)
    ofExcept (.error .alreadyCompleted)
  throwIf (e.status ≠ .xmrLocked) .invalidStageForRecovery
  throwIf (!calls.newSwapState) .newSwapState
  runSwap id e

def createOngoingSwap : M Unit := do
  match ← attempt <| getCounterpartySwapPrivateKey id e with
  | .ok skA  => completeSwap C calls id e skA
  | .error _ =>
    let d ← get
    throwIf (!d.offers id) .offerDoesNotExist
    modify (·.takeOffer id)
    let ethSwapInfo ← ongoingSwap C id e
    newSwapStateFromOngoing calls id e ethSwapInfo

def checkForOngoingSwap : M Unit :=
  if e.status = .keysExchanged ∨ e.status = .expectingKeys then
    completeOngoingSwap calls id e .completedAbort
  else if e.status = .sweepingXMR then completeOngoingSwap calls id e .completedRefund
  else createOngoingSwap C calls id e

end XMRMaker

namespace XMRTaker

def completeSwap (skB : PrivateSpendKey) : M Unit := do
  let (skA, vkA, vkB) ← storedKeys C id e
  claimMonero calls id e calls.noTransferBack (getClaimKeypair skA skB vkA vkB)
  completeOngoingSwap calls id e .completedSuccess

def newSwapStateFromOngoing : M Unit := do
  throwIf (e.status ≠ .ethLocked ∧ e.status ≠ .contractReady) .invalidStageForRecovery
  let _ ← getCounterpartySwapKeys C id e
  throwIf (!calls.newSwapState) .newSwapState
  runSwap id e

def createOngoingSwap : M Unit := do
  match ← attempt <| getCounterpartySwapPrivateKey id e with
  | .ok skB  => completeSwap C calls id e skB
  | .error _ =>
    let _ ← ongoingSwap C id e
    newSwapStateFromOngoing C calls id e

def refundOrCancelNewSwap (txHash : Bytes32) : M Unit := do
  let cancelled ← ofOption .maybeCancelNewSwap (calls.maybeCancelNewSwap txHash)
  if !cancelled then
    throwIf (!calls.newSwapParameters) .newSwapParameters
    let secret ← getSwapPrivateKey id e
    throwIf (!calls.refund secret) .refund
    completeOngoingSwap calls id e .completedRefund

-- Reading a hash can only fail because there is none.
def checkForOngoingSwap : M Unit := do
  if e.status = .expectingKeys then
    match ← attempt <| getNewSwapTxHash id e with
    | .error _   => completeOngoingSwap calls id e .completedAbort
    | .ok txHash => refundOrCancelNewSwap calls id e txHash
  else if e.status = .sweepingXMR then completeOngoingSwap calls id e .completedSuccess
  else createOngoingSwap C calls id e

end XMRTaker

-- One round of the loops of both functions `checkForOngoingSwaps`.
def checkForOngoingSwap (d : Daemon) : Daemon :=
  match d.swapDB id with
  | none   => d
  | some e =>
    if !e.status.isOngoing then d
    else
      match e.provides with
      | .xmr => (XMRMaker.checkForOngoingSwap C calls id e d).snd
      | .eth => (XMRTaker.checkForOngoingSwap C calls id e d).snd

end Restart

-- Swaps that are found in the database are started before the daemon takes new ones.
def step (d : Daemon) : Input C → Daemon
  | .addOffer id                    => if d.started then d.addOffer id else d
  | .deleteOffer id                 => if d.started then d.deleteOffer id else d
  | .initiate provides id sk calls  =>
    if d.started then d.initiate (C := C) id provides sk calls else d
  | .swap n i                       => (d.running n).elim d (d.stepSwap n · i)
  | .fundsChanged n locked          => d.fundsChanged n locked
  | .crash                          => d.crash
  | .restart id calls               => if d.started then d else checkForOngoingSwap C calls id d
  | .start                          => { d with started := true }

end Recovery
