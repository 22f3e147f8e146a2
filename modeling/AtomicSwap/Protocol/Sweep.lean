import AtomicSwap.Library.Machine
import AtomicSwap.Protocol.XMRMaker.EventLoop
import AtomicSwap.Protocol.XMRTaker.EventLoop

open Ethereum SwapCreator

-- The claim of the XMR by a swap whose daemon may go down and be started again. What the recovery
-- database holds for the offer is taken to be the swap's own.
namespace Sweep

-- What the wallet and the database answer to `ClaimMonero`. The first covers all that comes before
-- the status is written.
structure ClaimCalls where
  ready   : Bool
  written : Bool
  swept   : Bool
  deriving DecidableEq

-- What `checkForOngoingSwaps` does about a swap.
inductive Found (Loop : Type)
  | failed
  | completed (status : Status)
  | completeSwap (noTransferBack : Bool) (calls : ClaimCalls)
  | started (m : Loop)

-- The side of a swap: its event loop, in which steps of it `ClaimMonero` returns without an error,
-- how it starts again, and the status of a swap whose XMR it has claimed.
structure Role where
  Loop         : Type
  Input        : Type
  RestartCalls : Type
  step         : Loop → Input → Loop
  info         : Loop → Info
  claims       : Loop → Input → Bool
  restart      : RestartCalls → Info → Found Loop
  claimed      : Status

-- The last field is not part of the code: `ClaimMonero` has returned without an error, in this
-- process or in an earlier one.
structure Daemon (R : Role) where
  loop    : Option R.Loop
  info    : Info
  claimed : Bool

inductive Input (R : Role)
  | loop (i : R.Input) (written : Bool)
  | crash
  | restart (calls : R.RestartCalls) (put : Bool)

namespace Daemon

variable {R : Role} (d : Daemon R)

def start (m : R.Loop) : Daemon R where
  loop    := some m
  info    := R.info m
  claimed := false

def completeOngoingSwap (put : Bool) (status : Status) : Daemon R :=
  if put then { d with info.status := status } else d

def claimMonero (noTransferBack : Bool) (calls : ClaimCalls) : Bool × Daemon R :=
  if !calls.ready then (false, d)
  else if noTransferBack then (true, { d with claimed := true })
  else if !calls.written then (false, d)
  else
    let d := { d with info.status := .sweepingXMR }
    if calls.swept then (true, { d with claimed := true }) else (false, d)

def completeSwap (noTransferBack : Bool) (calls : ClaimCalls) (put : Bool) : Daemon R :=
  match d.claimMonero noTransferBack calls with
  | (true, d)  => d.completeOngoingSwap put R.claimed
  | (false, d) => d

def checkForOngoingSwaps (calls : R.RestartCalls) (put : Bool) : Daemon R :=
  if !d.info.status.isOngoing then d
  else
    match R.restart calls d.info with
    | .failed                            => d
    | .completed status                  => d.completeOngoingSwap put status
    | .completeSwap noTransferBack calls => d.completeSwap noTransferBack calls put
    | .started m                         => { d with loop := some m }

-- The status of the loop is written to the database, or not.
def stepLoop (m : R.Loop) (i : R.Input) (written : Bool) : Daemon R :=
  let m' := R.step m i
  { loop    := some m'
    info    := if written then R.info m' else d.info
    claimed := d.claimed || R.claims m i }

def step (d : Daemon R) (i : Input R) : Daemon R :=
  match i, d.loop with
  | .crash,             _      => { d with loop := none }
  | .loop i written,    some m => d.stepLoop m i written
  | .restart calls put, none   => d.checkForOngoingSwaps calls put
  | _,                  _      => d

end Daemon

end Sweep

namespace XMRTaker

-- What the databases and other components answer when the daemon is started again. The hash of a
-- transaction `newSwap` is found, or not, or there is another error.
structure SweepCalls where
  getNewSwapTxHash              : Option Bool
  refundOrCancelNewSwap         : Bool
  getCounterpartySwapPrivateKey : Bool
  getSwapKeys                   : Bool
  getContractSwapInfo           : Option EthereumSwapInfo
  start                         : StartCalls
  stages                        : Bytes32 → Stage
  noTransferBack                : Bool
  claim                         : Sweep.ClaimCalls

namespace SweepCalls

variable (b : Backend) (calls : SweepCalls) (info : Info)

def createOngoingSwap : Sweep.Found Loop :=
  if calls.getCounterpartySwapPrivateKey then
    if calls.getSwapKeys then .completeSwap calls.noTransferBack calls.claim else .failed
  else
    match calls.getContractSwapInfo with
    | none             => .failed
    | some ethSwapInfo =>
      if !calls.getSwapKeys then .failed
      else
        match newSwapStateFromOngoing b calls.start info calls.noTransferBack ethSwapInfo with
        | .ok s    => .started (.start s calls.stages true)
        | .error _ => .failed

-- A transaction `newSwap` is refunded, or it is cancelled and the status stays as it is.
def checkForOngoingSwap : Sweep.Found Loop :=
  if info.status = .expectingKeys then
    match calls.getNewSwapTxHash with
    | none       => .failed
    | some false => .completed .completedAbort
    | some true  => if calls.refundOrCancelNewSwap then .completed .completedRefund else .failed
  else if info.status = .sweepingXMR then .completed .completedSuccess
  else calls.createOngoingSwap b info

end SweepCalls

-- In this state the input lets `ClaimMonero` return without an error.
def Loop.claims (m : Loop) (i : Input) : Bool :=
  match m.control, i with
  | .claimMonero _, .sweeping ready _ => ready && m.swap.noTransferBack
  | .sweepAll _,    .swept ok         => ok
  | _,              _                 => false

def role (b : Backend) : Sweep.Role where
  Loop         := Loop
  Input        := Input
  RestartCalls := SweepCalls
  step         := Loop.step b
  info m       := m.swap.info
  claims       := Loop.claims
  restart      := SweepCalls.checkForOngoingSwap b
  claimed      := .completedSuccess

end XMRTaker

namespace XMRMaker

structure SweepCalls where
  getCounterpartySwapPrivateKey : Bool
  getSwapKeys                   : Bool
  takeOffer                     : Option Offer
  getContractSwapInfo           : Option EthereumSwapInfo
  checkIfAlreadyClaimed         : Option Bool
  newTxSender                   : Bool
  newSwapCreator                : Bool
  claim                         : Sweep.ClaimCalls

namespace SweepCalls

variable (b : Backend) (calls : SweepCalls) (info : Info)

def createOngoingSwap : Sweep.Found Loop :=
  if calls.getCounterpartySwapPrivateKey then
    if calls.getSwapKeys then .completeSwap false calls.claim else .failed
  else
    match calls.takeOffer, calls.getContractSwapInfo with
    | some offer, some ethSwapInfo =>
      if !calls.getSwapKeys then .failed
      else
        match calls.checkIfAlreadyClaimed with
        | none       => .failed
        | some true  => .completed .completedSuccess
        | some false =>
          match newSwapStateFromOngoing b calls.newTxSender calls.newSwapCreator offer ethSwapInfo
              info with
          | .ok s    => .started (.start s)
          | .error _ => .failed
    | _,          _                => .failed

def checkForOngoingSwap : Sweep.Found Loop :=
  if info.status = .keysExchanged ∨ info.status = .expectingKeys then .completed .completedAbort
  else if info.status = .sweepingXMR then .completed .completedRefund
  else calls.createOngoingSwap b info

end SweepCalls

-- In this state the input lets `ClaimMonero` return without an error.
def Loop.claims (m : Loop) (i : Input) : Bool :=
  match m.control, i with
  | .sweepAll _, .swept ok => ok
  | _,           _         => false

def role (b : Backend) : Sweep.Role where
  Loop         := Loop
  Input        := Input
  RestartCalls := SweepCalls
  step         := Loop.step b
  info m       := m.swap.info
  claims       := Loop.claims
  restart      := SweepCalls.checkForOngoingSwap b
  claimed      := .completedRefund

end XMRMaker
