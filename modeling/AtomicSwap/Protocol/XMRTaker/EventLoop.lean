import AtomicSwap.Library.Machine
import AtomicSwap.Protocol.XMRTaker.Basic

open Ethereum SwapCreator Function

namespace XMRTaker

inductive Event
  | keysReceived (message : SendKeysMessage)
  | xmrLocked
  | ethClaimed
  | shouldRefund
  | exit
  deriving DecidableEq

-- Where `refund` is called: in the handler of an event, or in `tryRefund` before or after `t2`.
inductive RefundSite
  | shouldRefund
  | early (ts : Time)
  | final
  deriving DecidableEq

-- The external call that the goroutine of `runHandleEvents` waits for. The Monero is claimed in the
-- handler of an event or in `exit`. The swap is written to the database while nobody reads the
-- channel of the event any more, and the goroutine is blocked for ever once it sends to it again.
inductive Control
  | runHandleEvents
  | checkKeys (msg : SendKeysMessage)
  | newSwap
  | sendSwapMessage
  | writeSwapToDB
  | readyStage
  | setReady
  | claimMonero (inExit : Bool)
  | sweepAll (inExit : Bool)
  | refundStage
  | refundTimestamp (isReady : Bool)
  | refund (site : RefundSite)
  | waitT2
  | filterForClaim
  | completeOngoingSwap
  | blocked
  | panicked
  | stopped
  deriving DecidableEq

-- The state of a swap with its event loop and with the stages of all swaps in the contract. The
-- last field is not part of the code: it says whether a transaction `newSwap` for the swap has
-- succeeded.
structure Loop where
  swap            : SwapState
  control         : Control
  xmrLockedClosed : Bool := false
  claimedClosed   : Bool := false
  doneClosed      : Bool := false
  cancelled       : Bool := false
  stages          : Bytes32 → Stage
  newSwapIncluded : Bool

def Loop.start (s : SwapState) (stages : Bytes32 → Stage) (newSwapIncluded : Bool) : Loop where
  swap            := s
  control         := .runHandleEvents
  stages          := stages
  newSwapIncluded := newSwapIncluded

-- What the loop receives: an event, the result of the call that it waits for, or that it is
-- cancelled. By the last two inputs the chain changes without the loop being told. The errors of
-- transactions come with the answer to whether their text contains `revertSwapCompleted`.
inductive Input
  | event (e : Event)
  | keysChecked (calls : KeysCalls)
  | newSwapped (receipt : Option Receipt) (id : Bytes32) (nonce : ℤ) (putContractSwapInfo : Bool)
  | messageSent (ok : Bool)
  | swapWritten (ok : Bool)
  | stageRead (ok : Bool)
  | readySent (ok text : Bool)
  | sweeping (ready written : Bool)
  | swept (ok : Bool)
  | timestamp (ts : Option Time)
  | refundSent (ok text : Bool)
  | waited (ok : Bool)
  | filtered (logs : Option (List Log))
  | completed (ok : Bool)
  | ctxDone
  | newSwapMined (id : Bytes32)
  | stageMined (id : Bytes32) (stage : Stage)

def stageRank : Stage → ℕ
  | .invalid   => 0
  | .pending   => 1
  | .ready     => 2
  | .completed => 3

namespace Loop

variable (b : Backend) (m : Loop)

def panic : Loop :=
  { m with control := .panicked }

def clearNextExpectedEvent (status : Status) : Loop :=
  { m with swap.nextExpectedEvent := .none, swap.info.status := status }

-- An error of the database changes nothing, except after the failure of `handleEventKeysReceived`.
def setNextExpectedEvent (event : EventType) : Loop :=
  if m.swap.nextExpectedEvent = .none ∨ event = m.swap.nextExpectedEvent ∨
      event.getStatus = .unknown then m.panic
  else
    { m with
      swap.nextExpectedEvent := event
      swap.info.status       := event.getStatus
      control                := .runHandleEvents }

def exit : Loop :=
  match m.swap.nextExpectedEvent with
  | .xmrLocked | .ethClaimed => { m with control := .refundStage }
  | .none                    => { m with control := .completeOngoingSwap }
  | _                        =>
    { m.clearNextExpectedEvent .completedAbort with control := .completeOngoingSwap }

-- What `exit` defers runs on every way out of it.
def exited : Loop :=
  { m with control := .completeOngoingSwap }

section ClaimMonero

def claimMoneroFailed (inExit : Bool) : Loop :=
  if inExit then m.exited else m.exit

def claimMonero (inExit : Bool) : Loop :=
  if m.swap.info.status.isOngoing then { m with control := .claimMonero inExit }
  else m.claimMoneroFailed inExit

def moneroClaimed (inExit : Bool) : Loop :=
  if m.claimedClosed then m.panic
  else
    let m := { m.clearNextExpectedEvent .completedSuccess with claimedClosed := true }
    if inExit then m.exited else m.exit

def sweeping (inExit ready written : Bool) : Loop :=
  if !ready then m.claimMoneroFailed inExit
  else if m.swap.noTransferBack then m.moneroClaimed inExit
  else if !written then
    claimMoneroFailed { m with swap.info.status := .sweepingXMR } inExit
  else { m with swap.info.status := .sweepingXMR, control := .sweepAll inExit }

def swept (inExit ok : Bool) : Loop :=
  if ok then m.moneroClaimed inExit else m.claimMoneroFailed inExit

def tryClaim : Loop :=
  if m.swap.info.status.isOngoing then { m with control := .filterForClaim } else m.exited

def findClaim (logs : List Log) : Option Log :=
  logs.find? fun l =>
    match checkIfLogIDMatches l claimedTopic m.swap.contractSwapID with
    | .ok found => found
    | .error _  => false

def filtered : Option (List Log) → Loop
  | none      => m.exited
  | some logs =>
    match m.findClaim logs with
    | none   => exited (m.clearNextExpectedEvent .completedRefund)
    | some l =>
      match getSecretFromLog l claimedTopic with
      | .error _ => m.exited
      | .ok _    => m.claimMonero true

end ClaimMonero

section KeysReceived

-- The sender of the event goes on when it has got the first error, so that a second one is never
-- received.
def writingSwap : Loop :=
  if m.control = .runHandleEvents then { m with control := .writeSwapToDB } else m

def swapWritten (ok : Bool) : Loop :=
  { m with control := if ok then .runHandleEvents else .blocked }

def keysReceivedFailed : Loop :=
  if m.swap.fundsLocked then (m.setNextExpectedEvent .xmrLocked).writingSwap
  else { m with control := .runHandleEvents }

def keysChecked (msg : SendKeysMessage) (calls : KeysCalls) : Loop :=
  match checkKeys calls msg m.swap with
  | (.ok _, s)    => { m with swap := s, control := .newSwap }
  | (.error e, s) =>
    if e.isPanic then panic { m with swap := s } else keysReceivedFailed { m with swap := s }

-- The contract creates a swap only once.
def newSwapMined (id : Bytes32) : Loop :=
  { m with
    newSwapIncluded := true
    stages          := if m.stages id = .invalid then update m.stages id .pending else m.stages }

def newSwapped (receipt : Option Receipt) (id : Bytes32) (nonce : ℤ) (put : Bool) : Loop :=
  match receipt with
  | none         => m.keysReceivedFailed
  | some receipt =>
    let m := m.newSwapMined id
    match recordSwap b nonce put receipt m.swap with
    | (.ok _, s)    => { m with swap := s, control := .sendSwapMessage }
    | (.error e, s) =>
      if e.isPanic then panic { m with swap := s } else keysReceivedFailed { m with swap := s }

def messageSent (ok : Bool) : Loop :=
  if ok then m.setNextExpectedEvent .xmrLocked else m.keysReceivedFailed

end KeysReceived

section XMRLocked

def handleNotifyXMRLock : Loop :=
  if m.xmrLockedClosed then m.panic
  else { m with xmrLockedClosed := true, control := .readyStage }

-- If the swap is completed, another goroutine sends an `EventExit`.
def readyStageRead (ok : Bool) : Loop :=
  if !ok then { m with control := .runHandleEvents }
  else
    match m.stages m.swap.contractSwapID with
    | .pending            => { m with control := .setReady }
    | .ready | .completed => m.setNextExpectedEvent .ethClaimed
    | .invalid            => { m with control := .runHandleEvents }

-- The transaction only succeeds if the swap is still pending.
def readySent (ok text : Bool) : Loop :=
  match m.swap.contractSwap with
  | none    => if ok then m.panic else { m with control := .runHandleEvents }
  | some sw =>
    let id := sw.swapID b.host
    if ok ∧ m.stages id = .pending then
      setNextExpectedEvent { m with stages := update m.stages id .ready } .ethClaimed
    else if text ∧ !m.swap.info.status.isOngoing then m.setNextExpectedEvent .ethClaimed
    else { m with control := .runHandleEvents }

end XMRLocked

section Refund

inductive RefundResult
  | refunded
  | swapCompleted
  | failed
  deriving DecidableEq

-- The transaction only succeeds if the swap is pending or ready.
def refund (sw : SwapCreatorSwap) (ok text : Bool) : RefundResult × Loop :=
  let id := sw.swapID b.host
  if ok ∧ (m.stages id = .pending ∨ m.stages id = .ready) then
    (.refunded,
      { m.clearNextExpectedEvent .completedRefund with stages := update m.stages id .completed })
  else if text then (.swapCompleted, m)
  else (.failed, m)

def waitOrRefund (ts : Time) : Loop :=
  if ts > m.swap.t2 then { m with control := .refund .final } else { m with control := .waitT2 }

def afterRefund : RefundSite → RefundResult → Loop
  | .shouldRefund, _              => m.exit
  | .early _,      .refunded      => exited (m.clearNextExpectedEvent .completedRefund)
  | .early ts,     _              => m.waitOrRefund ts
  | .final,        .refunded      => exited (m.clearNextExpectedEvent .completedRefund)
  | .final,        .swapCompleted => m.tryClaim
  | .final,        .failed        => m.exited

-- Without a swap the options of the transaction are asked for before its data is read.
def refundSent (site : RefundSite) (ok text : Bool) : Loop :=
  match m.swap.contractSwap with
  | none    => if ok then m.panic else m.afterRefund site .failed
  | some sw =>
    let (result, m) := m.refund b sw ok text
    m.afterRefund site result

def handleEventShouldRefund : Loop :=
  if m.swap.info.status.isOngoing then { m with control := .refund .shouldRefund } else m.exit

def refundStageRead (ok : Bool) : Loop :=
  if !ok then m.exited
  else
    match m.stages m.swap.contractSwapID with
    | .invalid   => m.exited
    | .completed => m.tryClaim
    | .pending   => { m with control := .refundTimestamp false }
    | .ready     => { m with control := .refundTimestamp true }

def refundTimestamp (isReady : Bool) : Option Time → Loop
  | none    => m.exited
  | some ts =>
    if ts < m.swap.t1 ∧ !isReady then { m with control := .refund (.early ts) }
    else m.waitOrRefund ts

def waited (ok : Bool) : Loop :=
  if ok then { m with control := .refund .final } else m.exited

def handleEventWaiting : Event → Loop
  | .shouldRefund   => { m with control := .refund .final }
  | .ethClaimed     => m.tryClaim
  | .exit           => m
  | .keysReceived _ => m.panic
  | .xmrLocked      => m.panic

end Refund

def handleEvent : Event → Loop
  | .keysReceived msg =>
    if m.swap.nextExpectedEvent = .keysReceived then { m with control := .checkKeys msg } else m
  | .xmrLocked        =>
    if m.swap.nextExpectedEvent = .xmrLocked then m.handleNotifyXMRLock else m
  | .ethClaimed       =>
    if m.swap.nextExpectedEvent = .ethClaimed then m.claimMonero false else m
  | .shouldRefund     => m.handleEventShouldRefund
  | .exit             => m.exit

-- The recovery database keeps the entry of the swap.
def completed (ok : Bool) : Loop :=
  if !ok then { m with control := .runHandleEvents }
  else if m.doneClosed then panic { m with cancelled := true }
  else { m with cancelled := true, doneClosed := true, control := .runHandleEvents }

-- The stages of swaps only move on.
def stageMined (id : Bytes32) (stage : Stage) : Loop :=
  if stageRank (m.stages id) ≤ stageRank stage then { m with stages := update m.stages id stage }
  else m

def step (m : Loop) : Input → Loop
  | .newSwapMined id     => m.newSwapMined id
  | .stageMined id stage => m.stageMined id stage
  | .ctxDone             =>
    if m.cancelled ∧ m.control = .runHandleEvents then { m with control := .stopped } else m
  | i =>
    match m.control, i with
    | .runHandleEvents,     .event e                         => m.handleEvent e
    | .waitT2,              .event e                         => m.handleEventWaiting e
    | .checkKeys msg,       .keysChecked calls               => m.keysChecked msg calls
    | .newSwap,             .newSwapped receipt id nonce put => m.newSwapped b receipt id nonce put
    | .sendSwapMessage,     .messageSent ok                  => m.messageSent ok
    | .writeSwapToDB,       .swapWritten ok                  => m.swapWritten ok
    | .readyStage,          .stageRead ok                    => m.readyStageRead ok
    | .setReady,            .readySent ok text               => m.readySent b ok text
    | .claimMonero inExit,  .sweeping ready written          => m.sweeping inExit ready written
    | .sweepAll inExit,     .swept ok                        => m.swept inExit ok
    | .refundStage,         .stageRead ok                    => m.refundStageRead ok
    | .refundTimestamp r,   .timestamp ts                    => m.refundTimestamp r ts
    | .refund site,         .refundSent ok text              => m.refundSent b site ok text
    | .waitT2,              .waited ok                       => m.waited ok
    | .filterForClaim,      .filtered logs                   => m.filtered logs
    | .completeOngoingSwap, .completed ok                    => m.completed ok
    | _,                    _                                => m

-- Of the results of calls, only the one that the loop waits for is taken.
def takes (m : Loop) (i : Input) : Bool :=
  match i, m.control with
  | .event _,       .runHandleEvents     => true
  | .event _,       .waitT2              => true
  | .keysChecked _, .checkKeys _         => true
  | .newSwapped .., .newSwap             => true
  | .messageSent _, .sendSwapMessage     => true
  | .swapWritten _, .writeSwapToDB       => true
  | .stageRead _,   .readyStage          => true
  | .stageRead _,   .refundStage         => true
  | .readySent ..,  .setReady            => true
  | .sweeping ..,   .claimMonero _       => true
  | .swept _,       .sweepAll _          => true
  | .timestamp _,   .refundTimestamp _   => true
  | .refundSent .., .refund _            => true
  | .waited _,      .waitT2              => true
  | .filtered _,    .filterForClaim      => true
  | .completed _,   .completeOngoingSwap => true
  | _,              _                    => false

-- What a step can do.
inductive Step (m : Loop) : Input → Loop → Prop
  | idle {i} : m.takes i = false → Step m i m
  | newSwapMined {id} : Step m (.newSwapMined id) (m.newSwapMined id)
  | stageMined {id stage} : Step m (.stageMined id stage) (m.stageMined id stage)
  | ctxDone : m.cancelled → m.control = .runHandleEvents →
      Step m .ctxDone { m with control := .stopped }
  | event {e} : m.control = .runHandleEvents → Step m (.event e) (m.handleEvent e)
  | eventWaiting {e} : m.control = .waitT2 → Step m (.event e) (m.handleEventWaiting e)
  | keysChecked {msg calls} : m.control = .checkKeys msg →
      Step m (.keysChecked calls) (m.keysChecked msg calls)
  | newSwapped {receipt id nonce put} : m.control = .newSwap →
      Step m (.newSwapped receipt id nonce put) (m.newSwapped b receipt id nonce put)
  | messageSent {ok} : m.control = .sendSwapMessage → Step m (.messageSent ok) (m.messageSent ok)
  | swapWritten {ok} : m.control = .writeSwapToDB → Step m (.swapWritten ok) (m.swapWritten ok)
  | readyStageRead {ok} : m.control = .readyStage →
      Step m (.stageRead ok) (m.readyStageRead ok)
  | readySent {ok text} : m.control = .setReady →
      Step m (.readySent ok text) (m.readySent b ok text)
  | sweeping {inExit ready written} : m.control = .claimMonero inExit →
      Step m (.sweeping ready written) (m.sweeping inExit ready written)
  | swept {inExit ok} : m.control = .sweepAll inExit → Step m (.swept ok) (m.swept inExit ok)
  | refundStageRead {ok} : m.control = .refundStage →
      Step m (.stageRead ok) (m.refundStageRead ok)
  | refundTimestamp {isReady ts} : m.control = .refundTimestamp isReady →
      Step m (.timestamp ts) (m.refundTimestamp isReady ts)
  | refundSent {site ok text} : m.control = .refund site →
      Step m (.refundSent ok text) (m.refundSent b site ok text)
  | waited {ok} : m.control = .waitT2 → Step m (.waited ok) (m.waited ok)
  | filtered {logs} : m.control = .filterForClaim → Step m (.filtered logs) (m.filtered logs)
  | completed {ok} : m.control = .completeOngoingSwap → Step m (.completed ok) (m.completed ok)

@[simp]
theorem writingSwap_swap : m.writingSwap.swap = m.swap := by
  unfold writingSwap
  split <;> rfl

theorem step_step (m : Loop) (i : Input) : Step b m i (m.step b i) := by
  unfold step
  split
  case h_1 => exact .newSwapMined
  case h_2 => exact .stageMined
  case h_3 =>
    split
    case isTrue hc => exact .ctxDone hc.left hc.right
    case isFalse   => exact .idle rfl
  case h_4 =>
    split
    case h_1 hc _ _ _  => exact .event hc
    case h_2 hc _ _ _  => exact .eventWaiting hc
    case h_3 hc _ _ _  => exact .keysChecked hc
    case h_4 hc _ _ _  => exact .newSwapped hc
    case h_5 hc _ _ _  => exact .messageSent hc
    case h_6 hc _ _ _  => exact .swapWritten hc
    case h_7 hc _ _ _  => exact .readyStageRead hc
    case h_8 hc _ _ _  => exact .readySent hc
    case h_9 hc _ _ _  => exact .sweeping hc
    case h_10 hc _ _ _ => exact .swept hc
    case h_11 hc _ _ _ => exact .refundStageRead hc
    case h_12 hc _ _ _ => exact .refundTimestamp hc
    case h_13 hc _ _ _ => exact .refundSent hc
    case h_14 hc _ _ _ => exact .waited hc
    case h_15 hc _ _ _ => exact .filtered hc
    case h_16 hc _ _ _ => exact .completed hc
    case h_17 =>
      refine .idle ?_
      unfold takes
      split <;> grind

end Loop

end XMRTaker
