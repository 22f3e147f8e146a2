import AtomicSwap.DB.RecoveryDB
import AtomicSwap.Protocol.XMRTaker.EventLoop

open Ethereum SwapCreator DB Function

namespace XMRTaker

-- What has become of a transaction that the Ethereum network has got.
inductive TxStatus
  | pending
  | included
  | reverted
  | replaced
  deriving DecidableEq

-- How far a call of the sender's `NewSwap` has got: its transaction is to be sent, it has been
-- sent, or it has been sent and its hash has been saved.
inductive NewSwapCall
  | send
  | sent (txHash : Bytes32)
  | saved (txHash : Bytes32)
  deriving DecidableEq

inductive CancelResult
  | included
  | notFound
  | failed
  deriving DecidableEq

-- What other components answer when the daemon is started again. The call `refund` stands for all
-- that `refundOrCancelNewSwap` does to get the asset back.
structure RestartCalls where
  completeOngoingSwap : Bool
  transactionByHash   : Bool
  cancelTxWithNonce   : CancelResult
  refund              : Bool
  sweeping            : Bool
  claimMonero         : Bool
  start               : StartCalls
  noTransferBack      : Bool
  stages              : Bytes32 → Stage

-- The daemon with a swap of the taker, its databases, and the transactions `newSwap` for the swap
-- that the network has got. While the daemon is down, there is no loop. The last field is not part
-- of the code: it has the transactions that the taker has lost sight of, because `NewSwap` returned
-- an error for them or the daemon went down before their hash was saved, until they are sent again.
structure Daemon where
  loop     : Option Loop
  newSwap  : NewSwapCall := .send
  info     : Info
  recovery : RecoveryDB
  txs      : Bytes32 → Option TxStatus
  lost     : List Bytes32 := []

inductive DaemonInput
  | loop (i : Input) (written : Bool)
  | txSent (txHash : Bytes32) (accepted ok : Bool)
  | hashSaved (ok : Bool)
  | receipt (receipt : Option Receipt) (id : Bytes32) (nonce : ℤ) (put : Bool)
  | crash
  | restart (calls : RestartCalls)
  | txChanged (txHash : Bytes32) (status : TxStatus)

namespace Daemon

variable (b : Backend) (d : Daemon)

def complete (calls : RestartCalls) (status : Status) : Daemon :=
  if calls.completeOngoingSwap then { d with info.status := status } else d

section NewSwap

-- The status is written to the database, or this fails or comes later.
def setLoop (m : Loop) (written : Bool) : Daemon :=
  { d with
    loop        := some m
    info.status :=
      if written ∧ m.control ≠ .writeSwapToDB then m.swap.info.status else d.info.status }

def newSwapFailed (m : Loop) (lost : List Bytes32) : Daemon :=
  setLoop { d with newSwap := .send, lost } (m.newSwapped b none 0 0 false) false

-- The network may have got the transaction although the client returns an error.
def txSent (m : Loop) (txHash : Bytes32) (accepted ok : Bool) : Daemon :=
  let d := if accepted then { d with txs := update d.txs txHash (some .pending) } else d
  if ok then { d with newSwap := .sent txHash, lost := d.lost.filter (· ≠ txHash) }
  else d.newSwapFailed b m (if accepted then txHash :: d.lost else d.lost)

def hashSaved (m : Loop) (txHash : Bytes32) (ok : Bool) : Daemon :=
  if ok then
    { d with
      recovery := d.recovery.putNewSwapTxHash d.info.offerID txHash
      newSwap  := .saved txHash }
  else d.newSwapFailed b m (txHash :: d.lost)

-- A receipt that cannot be read is as good as none.
def received (m : Loop) (txHash : Bytes32) (receipt : Receipt) (id : Bytes32) (nonce : ℤ)
    (put : Bool) : Daemon :=
  let m := m.newSwapped b (some receipt) id nonce put
  setLoop
    { d with
      newSwap  := .send
      recovery :=
        match m.swap.recovery with
        | some info => d.recovery.putContractSwapInfo d.info.offerID info
        | none      => d.recovery
      lost     :=
        if m.swap.fundsLocked ∨ m.control = .panicked then d.lost else txHash :: d.lost }
    m false

end NewSwap

section Restart

variable (calls : RestartCalls)

def abortOngoingSwap : Daemon :=
  d.complete calls .completedAbort

-- If the transaction is cancelled, the status of the swap stays as it is.
def refundOrCancelNewSwap (txHash : Bytes32) : Daemon :=
  if !calls.transactionByHash then d
  else if d.txs txHash = some .pending ∧ calls.cancelTxWithNonce = .included then
    { d with txs := update d.txs txHash (some .replaced) }
  else if d.txs txHash = some .pending ∧ calls.cancelTxWithNonce = .failed then d
  else if calls.refund then d.complete calls .completedRefund
  else d

def completeSwap : Daemon :=
  if !calls.sweeping then d
  else
    let d := { d with info.status := .sweepingXMR }
    if calls.claimMonero then d.complete calls .completedSuccess else d

def createOngoingSwap : Daemon :=
  match d.recovery.getCounterpartySwapPrivateKey d.info.offerID with
  | .ok _    => d.completeSwap calls
  | .error _ =>
    let started := do
      let ethSwapInfo ← (d.recovery.getContractSwapInfo d.info.offerID).toOption
      let _ ← (d.recovery.getSwapPrivateKey d.info.offerID).toOption
      newSwapStateFromOngoing b calls.start d.info calls.noTransferBack ethSwapInfo |>.toOption
    match started with
    | some s => { d with loop := some (.start s calls.stages true) }
    | none   => d

def checkForOngoingSwaps : Daemon :=
  if !d.info.status.isOngoing then d
  else if d.info.status = .expectingKeys then
    match d.recovery.getNewSwapTxHash d.info.offerID with
    | .error _   => d.abortOngoingSwap calls
    | .ok txHash => d.refundOrCancelNewSwap calls txHash
  else if d.info.status = .sweepingXMR then d.complete calls .completedSuccess
  else d.createOngoingSwap b calls

end Restart

def crash : Daemon :=
  { d with
    loop    := none
    newSwap := .send
    lost    :=
      match d.newSwap with
      | .sent txHash => txHash :: d.lost
      | _            => d.lost }

-- Of the pending transactions, each may be included, fail, or be replaced by another one.
def txChanged (txHash : Bytes32) (status : TxStatus) : Daemon :=
  if d.txs txHash = some .pending then { d with txs := update d.txs txHash (some status) } else d

-- An `EventShouldRefund` is only sent for a swap that the taker knows.
def stepLoop (m : Loop) (i : Input) (written : Bool) : Daemon :=
  match i with
  | .newSwapped ..       => d
  | .event .shouldRefund =>
    if m.swap.contractSwap.isSome then d.setLoop (m.step b i) written else d
  | .swapWritten ok      => d.setLoop (m.step b i) ok
  | _                    => d.setLoop (m.step b i) written

def stepNewSwap (m : Loop) (i : DaemonInput) : Daemon :=
  match d.newSwap, i with
  | .send,         .txSent txHash accepted ok     =>
    if m.control = .newSwap ∧ d.txs txHash = none then d.txSent b m txHash accepted ok else d
  | .sent txHash,  .hashSaved ok                  => d.hashSaved b m txHash ok
  | .saved txHash, .receipt none _ _ _            => d.newSwapFailed b m (txHash :: d.lost)
  | .saved txHash, .receipt (some r) id nonce put =>
    if d.txs txHash = some .included then d.received b m txHash r id nonce put else d
  | _,             _                              => d

def step (d : Daemon) (i : DaemonInput) : Daemon :=
  match i, d.loop with
  | .crash,                   _      => d.crash
  | .txChanged txHash status, _      => d.txChanged txHash status
  | .restart calls,           none   => d.checkForOngoingSwaps b calls
  | .loop i written,          some m => d.stepLoop b m i written
  | i,                        some m => d.stepNewSwap b m i
  | _,                        none   => d

end Daemon

end XMRTaker
