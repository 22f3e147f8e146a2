import AtomicSwap.Library.Machine
import AtomicSwap.Protocol.XMRMaker.Basic

open Ethereum SwapCreator

namespace XMRMaker

inductive Event
  | ethLocked (message : NotifyETHLocked)
  | contractReady
  | ethRefunded
  | exit
  deriving DecidableEq

-- The external call that the goroutine of `runHandleEvents` waits for. The number says how many
-- calls of `exit` have to return after it.
inductive Control
  | runHandleEvents
  | checkETHLocked (msg : NotifyETHLocked)
  | prepareLock (amount : Decimal)
  | transfer
  | claimFunds (exits : ℕ)
  | reclaimMonero (exits : ℕ)
  | sweepAll (exits : ℕ)
  | exitWait (exits : ℕ)
  | completeOngoingSwap (exits : ℕ)
  | panicked
  | stopped
  deriving DecidableEq

-- What becomes of an offer when its swap is retired.
inductive OfferFate
  | taken
  | readded
  | deleted
  deriving DecidableEq

-- The state of a swap with its event loop. The last three fields are not part of the code: they
-- record what has happened to the funds.
structure Loop where
  swap         : SwapState
  control      : Control
  readyClosed  : Bool := false
  doneClosed   : Bool := false
  cancelled    : Bool := false
  offerFate    : OfferFate := .taken
  xmrLocked    : Bool
  ethClaimed   : Bool := false
  xmrReclaimed : Bool := false
  deriving DecidableEq

def Loop.start (s : SwapState) : Loop where
  swap      := s
  control   := .runHandleEvents
  xmrLocked := s.nextExpectedEvent = .contractReady

-- What the loop receives: an event, the result of the call that it waits for, or that it is
-- cancelled. The log is one that the goroutine `runContractEventWatcher` finds meanwhile.
inductive Input
  | event (e : Event)
  | checked (ec : EthClient) (calls : Calls)
  | prepared (calls : Calls)
  | transferred (ok : Bool)
  | claimed (ok : Bool)
  | sweeping (ready written : Bool)
  | swept (ok : Bool)
  | completed (ok : Bool)
  | claimedLog (log : Log)
  | ctxDone

namespace Loop

def clearNextExpectedEvent (m : Loop) (status : Status) : Loop :=
  { m with swap.nextExpectedEvent := .none, swap.info.status := status }

-- After an `exit` has returned, the functions that wait for it return as well.
def returns (m : Loop) : ℕ → Loop
  | 0         => { m with control := .runHandleEvents }
  | exits + 1 => { m with control := .completeOngoingSwap exits }

def exit (m : Loop) (exits : ℕ) : Loop :=
  match m.swap.nextExpectedEvent with
  | .contractReady => { m with control := .exitWait exits }
  | .none          => { m with control := .completeOngoingSwap exits }
  | _              =>
    { m.clearNextExpectedEvent .completedAbort with control := .completeOngoingSwap exits }

-- Closing a channel twice panics.
def handleEventContractReady (m : Loop) (exits : ℕ) : Loop :=
  if m.readyClosed then { m with control := .panicked }
  else
    { m with
      readyClosed       := true
      swap.readyWatcher := m.swap.readyWatcher.stop
      control           := .claimFunds exits }

def handleEventETHRefunded (m : Loop) (exits : ℕ) : Loop :=
  { m with control := .reclaimMonero exits }

def handleEvent (m : Loop) : Event → Loop
  | .ethLocked msg =>
    if m.swap.nextExpectedEvent = .ethLocked then { m with control := .checkETHLocked msg } else m
  | .contractReady =>
    if m.swap.nextExpectedEvent = .contractReady then m.handleEventContractReady 0 else m
  | .ethRefunded   => m.handleEventETHRefunded 0
  | .exit          => m.exit 0

-- The next event is taken for the one that `exit` waits for.
def handleEventInExit (m : Loop) (exits : ℕ) : Event → Loop
  | .ethRefunded   => m.handleEventETHRefunded (exits + 1)
  | .contractReady => m.handleEventContractReady (exits + 1)
  | .ethLocked _   => { m with control := .completeOngoingSwap exits }
  | .exit          => { m with control := .completeOngoingSwap exits }

-- Goes on with the rest of `handleNotifyETHLocked`, or exits after an error.
def resume {α : Type} (m : Loop) (r : Except Error α × SwapState) (next : α → Control) : Loop :=
  match r with
  | (.ok a, s)    => { m with swap := s, control := next a }
  | (.error e, s) =>
    if e.isPanic then { m with swap := s, control := .panicked } else exit { m with swap := s } 0

def checked (b : Backend) (m : Loop) (msg : NotifyETHLocked) (ec : EthClient) (calls : Calls) :
    Loop :=
  m.resume (amountToLock b ec calls msg m.swap) .prepareLock

def prepared (m : Loop) (calls : Calls) (amount : Decimal) : Loop :=
  let r := startTransfer calls amount m.swap
  let locked : Bool := r.snd.nextExpectedEvent = .contractReady
  resume { m with xmrLocked := m.xmrLocked || locked } r fun _ => .transfer

def transferred (m : Loop) (ok : Bool) : Loop :=
  if ok then { m with control := .runHandleEvents } else m.exit 0

-- The claim has been included in a block, or the maker does not know.
def claimed (m : Loop) (exits : ℕ) (ok : Bool) : Loop :=
  if ok then returns { m.clearNextExpectedEvent .completedSuccess with ethClaimed := true } exits
  else m.exit exits

-- The part of `ClaimMonero` that comes before the sweep.
def sweeping (m : Loop) (exits : ℕ) (ready written : Bool) : Loop :=
  if !ready then m.returns exits
  else if !written then returns { m with swap.info.status := .sweepingXMR } exits
  else { m with swap.info.status := .sweepingXMR, control := .sweepAll exits }

-- In the loop itself a refund is followed by `exit`.
def swept (m : Loop) (exits : ℕ) (ok : Bool) : Loop :=
  if !ok then m.returns exits
  else
    let m := { m.clearNextExpectedEvent .completedRefund with xmrReclaimed := true }
    match exits with
    | 0         => m.exit 0
    | exits + 1 => m.returns (exits + 1)

def retireOffer (m : Loop) : OfferFate :=
  if m.swap.info.status ≠ .completedSuccess ∧ m.swap.offer.id ≠ 0 then .readded
  else if m.swap.info.status = .completedSuccess then .deleted
  else m.offerFate

-- What `exit` defers. The recovery database keeps the entry of the swap.
def completed (m : Loop) (exits : ℕ) (ok : Bool) : Loop :=
  if !ok then m.returns exits
  else
    let m := { m with offerFate := m.retireOffer, cancelled := true }
    if m.doneClosed then { m with control := .panicked }
    else returns { m with doneClosed := true } exits

-- The watcher writes the state that the loop uses.
def handleClaimedLogs (m : Loop) (log : Log) : Loop :=
  match checkSwapID log claimedTopic m.swap.contractSwapID with
  | .ok _    => { m.clearNextExpectedEvent .completedSuccess with ethClaimed := true }
  | .error _ => m

def step (b : Backend) (m : Loop) : Input → Loop
  | .claimedLog log => m.handleClaimedLogs log
  | .ctxDone        =>
    if m.cancelled ∧ m.control = .runHandleEvents then { m with control := .stopped } else m
  | i =>
    match m.control, i with
    | .runHandleEvents,           .event e                => m.handleEvent e
    | .exitWait exits,            .event e                => m.handleEventInExit exits e
    | .checkETHLocked msg,        .checked ec calls       => m.checked b msg ec calls
    | .prepareLock amount,        .prepared calls         => m.prepared calls amount
    | .transfer,                  .transferred ok         => m.transferred ok
    | .claimFunds exits,          .claimed ok             => m.claimed exits ok
    | .reclaimMonero exits,       .sweeping ready written => m.sweeping exits ready written
    | .sweepAll exits,            .swept ok               => m.swept exits ok
    | .completeOngoingSwap exits, .completed ok           => m.completed exits ok
    | _,                          _                       => m

-- Of the results of calls, only the one that the loop waits for is taken.
def takes (m : Loop) (i : Input) : Bool :=
  match i, m.control with
  | .claimedLog _,  _                      => true
  | .event _,       .runHandleEvents       => true
  | .event _,       .exitWait _            => true
  | .checked ..,    .checkETHLocked _      => true
  | .prepared _,    .prepareLock _         => true
  | .transferred _, .transfer              => true
  | .claimed _,     .claimFunds _          => true
  | .sweeping ..,   .reclaimMonero _       => true
  | .swept _,       .sweepAll _            => true
  | .completed _,   .completeOngoingSwap _ => true
  | _,              _                      => false

-- What a step can do.
inductive Step (b : Backend) (m : Loop) : Input → Loop → Prop
  | idle {i} : m.takes i = false → Step b m i m
  | claimedLog {log} : Step b m (.claimedLog log) (m.handleClaimedLogs log)
  | ctxDone : m.cancelled → m.control = .runHandleEvents →
      Step b m .ctxDone { m with control := .stopped }
  | event {e} : m.control = .runHandleEvents → Step b m (.event e) (m.handleEvent e)
  | eventInExit {exits e} : m.control = .exitWait exits →
      Step b m (.event e) (m.handleEventInExit exits e)
  | checked {msg ec calls} : m.control = .checkETHLocked msg →
      Step b m (.checked ec calls) (m.checked b msg ec calls)
  | prepared {amount calls} : m.control = .prepareLock amount →
      Step b m (.prepared calls) (m.prepared calls amount)
  | transferred {ok} : m.control = .transfer → Step b m (.transferred ok) (m.transferred ok)
  | claimed {exits ok} : m.control = .claimFunds exits →
      Step b m (.claimed ok) (m.claimed exits ok)
  | sweeping {exits ready written} : m.control = .reclaimMonero exits →
      Step b m (.sweeping ready written) (m.sweeping exits ready written)
  | swept {exits ok} : m.control = .sweepAll exits → Step b m (.swept ok) (m.swept exits ok)
  | completed {exits ok} : m.control = .completeOngoingSwap exits →
      Step b m (.completed ok) (m.completed exits ok)

theorem step_step (b : Backend) (m : Loop) (i : Input) : Step b m i (m.step b i) := by
  unfold step
  split
  case h_1 => exact .claimedLog
  case h_2 =>
    split
    case isTrue hc => exact .ctxDone hc.left hc.right
    case isFalse   => exact .idle rfl
  case h_3 =>
    split
    case h_1 hc _ _  => exact .event hc
    case h_2 hc _ _  => exact .eventInExit hc
    case h_3 hc _ _  => exact .checked hc
    case h_4 hc _ _  => exact .prepared hc
    case h_5 hc _ _  => exact .transferred hc
    case h_6 hc _ _  => exact .claimed hc
    case h_7 hc _ _  => exact .sweeping hc
    case h_8 hc _ _  => exact .swept hc
    case h_9 hc _ _  => exact .completed hc
    case h_10 =>
      refine .idle ?_
      unfold takes
      split <;> simp_all

end Loop

end XMRMaker
