import AtomicSwap.Protocol.Swap.StatusManager
import AtomicSwap.Protocol.XMRMaker.EventLoop
import AtomicSwap.Protocol.XMRTaker.EventLoop

open Ethereum SwapCreator Function

-- The statuses that the swaps of a process push.

namespace XMRTaker.Loop

variable (b : Backend) (m : Loop)

def setPushes (event : EventType) : List Status :=
  if m.swap.nextExpectedEvent = .none ∨ event = m.swap.nextExpectedEvent ∨
      event.getStatus = .unknown then []
  else [event.getStatus]

def exitPushes : List Status :=
  match m.swap.nextExpectedEvent with
  | .xmrLocked | .ethClaimed | .none => []
  | _                                => [.completedAbort]

def claimFailedPushes (inExit : Bool) : List Status :=
  if inExit then [] else m.exitPushes

-- After this `exit` has nothing to push.
def claimedPushes : List Status :=
  if m.claimedClosed then [] else [.completedSuccess]

def keysFailedPushes : List Status :=
  if m.swap.fundsLocked then m.setPushes .xmrLocked else []

-- What comes after a function that may fail, with the state that it leaves.
def checkedPushes {α : Type} (r : Except Error α × SwapState) : List Status :=
  match r with
  | (.ok _, _)    => []
  | (.error e, s) => if e.isPanic then [] else keysFailedPushes { m with swap := s }

def readyPushes (ok text : Bool) : List Status :=
  match m.swap.contractSwap with
  | none    => []
  | some sw =>
    if ok ∧ m.stages (sw.swapID b.host) = .pending ∨ text ∧ !m.swap.info.status.isOngoing then
      m.setPushes .ethClaimed
    else []

-- The status is pushed by `refund` and once more by `exit`.
def afterRefundPushes : RefundSite → RefundResult → List Status
  | .shouldRefund, .refunded      => [.completedRefund]
  | .shouldRefund, _              => m.exitPushes
  | .early _,      .refunded      => [.completedRefund, .completedRefund]
  | .final,        .refunded      => [.completedRefund, .completedRefund]
  | _,             _              => []

def refundPushes (site : RefundSite) (ok text : Bool) : List Status :=
  match m.swap.contractSwap with
  | none    => if ok then [] else m.afterRefundPushes site .failed
  | some sw => m.afterRefundPushes site (m.refund b sw ok text).fst

def pushes (i : Input) : List Status :=
  match m.control, i with
  | .runHandleEvents,    .event .shouldRefund                    =>
    if m.swap.info.status.isOngoing then [] else m.exitPushes
  | .runHandleEvents,    .event .exit                            => m.exitPushes
  | .checkKeys msg,      .keysChecked calls                      =>
    m.checkedPushes (checkKeys calls msg m.swap)
  | .newSwap,            .newSwapped none _ _ _                  => m.keysFailedPushes
  | .newSwap,            .newSwapped (some receipt) _ nonce put  =>
    m.checkedPushes (recordSwap b nonce put receipt m.swap)
  | .sendSwapMessage,    .messageSent ok                         =>
    if ok then m.setPushes .xmrLocked else m.keysFailedPushes
  | .readyStage,         .stageRead true                         =>
    match m.stages m.swap.contractSwapID with
    | .ready | .completed => m.setPushes .ethClaimed
    | _                   => []
  | .setReady,           .readySent ok text                      => m.readyPushes b ok text
  | .claimMonero inExit, .sweeping ready written                 =>
    if !ready then m.claimFailedPushes inExit
    else if m.swap.noTransferBack then m.claimedPushes
    else .sweepingXMR :: if written then [] else m.claimFailedPushes inExit
  | .sweepAll inExit,    .swept ok                               =>
    if ok then m.claimedPushes else m.claimFailedPushes inExit
  | .refund site,        .refundSent ok text                     => m.refundPushes b site ok text
  | .filterForClaim,     .filtered (some logs)                   =>
    if (m.findClaim logs).isNone then [.completedRefund] else []
  | _,                   _                                       => []

end XMRTaker.Loop

namespace XMRMaker.Loop

variable (b : Backend) (m : Loop)

def exitPushes : List Status :=
  match m.swap.nextExpectedEvent with
  | .contractReady | .none => []
  | _                      => [.completedAbort]

def resumePushes {α : Type} (r : Except Error α × SwapState) : List Status :=
  match r with
  | (.ok _, _)    => []
  | (.error e, s) => if e.isPanic then [] else exitPushes { m with swap := s }

-- The new status is pushed before it is written to the database.
def preparePushes (calls : Calls) : List Status :=
  if !calls.getBalance ∨ m.swap.nextExpectedEvent = .none ∨
      m.swap.nextExpectedEvent = .contractReady then []
  else [.xmrLocked]

def pushes (i : Input) : List Status :=
  match m.control, i with
  | _,                   .claimedLog log    =>
    match checkSwapID log claimedTopic m.swap.contractSwapID with
    | .ok _    => [.completedSuccess]
    | .error _ => []
  | .runHandleEvents,    .event .exit       => m.exitPushes
  | .checkETHLocked msg, .checked ec calls  => m.resumePushes (amountToLock b ec calls msg m.swap)
  | .prepareLock amount, .prepared calls    =>
    m.preparePushes calls ++ m.resumePushes (startTransfer calls amount m.swap)
  | .transfer,           .transferred false => m.exitPushes
  | .claimFunds _,       .claimed ok        => if ok then [.completedSuccess] else m.exitPushes
  | .reclaimMonero _,    .sweeping true _   => [.sweepingXMR]
  | .sweepAll _,         .swept true        => [.completedRefund]
  | _,                   _                  => []

end XMRMaker.Loop

namespace Notifications

-- A swap whose loop runs, or one that `completeSwap` deals with when the daemon starts.
inductive Party
  | taker (m : XMRTaker.Loop)
  | maker (m : XMRMaker.Loop)
  | completeSwap

-- If the sender waits for room in the channel, the step that it was in does not end.
structure Running where
  party   : Party
  blocked : Bool := false

-- The swaps by offer ID, of which the first is the newest.
structure Process where
  statusManager : Swap.StatusManager
  swaps         : Bytes32 → List Running

inductive Input
  | takerStart (calls : XMRTaker.StartCalls) (offerID : Bytes32) (noTransferBack : Bool)
      (providedAmount : Coins.EthAssetAmount) (exchangeRate : Decimal) (ethAsset : Address)
      (stages : Bytes32 → Stage)
  | makerStart (calls : XMRMaker.InitiateCalls) (offer : Offer) (providesAmount : Decimal)
      (desiredAmount : Coins.EthAssetAmount)
  | takerOngoing (calls : XMRTaker.StartCalls) (info : Info) (noTransferBack : Bool)
      (ethSwapInfo : EthereumSwapInfo) (stages : Bytes32 → Stage)
  | makerOngoing (newTxSender newSwapCreator : Bool) (offer : Offer)
      (ethSwapInfo : EthereumSwapInfo) (info : Info)
  | completeSwap (offerID : Bytes32) (alreadyClaimed : Bool)
  | taker (offerID : Bytes32) (n : ℕ) (i : XMRTaker.Input)
  | maker (offerID : Bytes32) (n : ℕ) (i : XMRMaker.Input)

-- The instances of both sides keep the states of their swaps until these are done.
def Running.bars (r : Running) : Party → Bool
  | .taker _      => match r.party with | .taker m => !m.doneClosed | _ => false
  | .maker _      => match r.party with | .maker m => !m.doneClosed | _ => false
  | .completeSwap => false

namespace Process

variable (bt : XMRTaker.Backend) (bm : XMRMaker.Backend) (p : Process)

def empty : Process where
  statusManager := .newStatusManager
  swaps _       := []

def launch (id : Bytes32) (party : Party) (statuses : List Status) : Process :=
  if (p.swaps id).any (·.bars party) then p
  else
    let (ok, sm) := p.statusManager.pushAll id statuses
    { statusManager := sm
      swaps         := update p.swaps id (⟨party, !ok⟩ :: p.swaps id) }

def advance (id : Bytes32) (n : ℕ) (before after : Party) (statuses : List Status) : Process :=
  let (ok, sm) := p.statusManager.pushAll id statuses
  { statusManager := sm
    swaps         :=
      update p.swaps id <| (p.swaps id).set n (if ok then ⟨after, false⟩ else ⟨before, true⟩) }

def step (p : Process) : Input → Process
  | .takerStart calls offerID noTransferBack amount rate asset stages               =>
    match XMRTaker.newSwapStateFromStart calls offerID noTransferBack amount rate asset with
    | .ok s    => p.launch offerID (.taker <| .start s stages false) [s.info.status]
    | .error _ => p
  | .makerStart calls offer providesAmount desiredAmount                            =>
    match XMRMaker.newSwapStateFromStart bm calls offer providesAmount desiredAmount with
    | .ok s    => p.launch offer.id (.maker <| .start s) [s.info.status]
    | .error _ => p
  | .takerOngoing calls info noTransferBack ethSwapInfo stages                      =>
    match XMRTaker.newSwapStateFromOngoing bt calls info noTransferBack ethSwapInfo with
    | .ok s    => p.launch info.offerID (.taker <| .start s stages true) []
    | .error _ => p
  | .makerOngoing newTxSender newSwapCreator offer ethSwapInfo info                 =>
    match XMRMaker.newSwapStateFromOngoing bm newTxSender newSwapCreator offer ethSwapInfo info with
    | .ok s    => p.launch info.offerID (.maker <| .start s) []
    | .error _ => p
  | .completeSwap id alreadyClaimed                                                 =>
    p.launch id .completeSwap [if alreadyClaimed then .completedSuccess else .sweepingXMR]
  | .taker id n i                                                                   =>
    match (p.swaps id)[n]? with
    | some ⟨.taker m, false⟩ => p.advance id n (.taker m) (.taker (m.step bt i)) (m.pushes bt i)
    | _                      => p
  | .maker id n i                                                                   =>
    match (p.swaps id)[n]? with
    | some ⟨.maker m, false⟩ => p.advance id n (.maker m) (.maker (m.step bm i)) (m.pushes bm i)
    | _                      => p

end Process

end Notifications
