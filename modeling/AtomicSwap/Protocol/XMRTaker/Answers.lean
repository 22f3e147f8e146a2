import AtomicSwap.Protocol.XMRTaker.EventLoop

open Ethereum SwapCreator

namespace XMRTaker

def returnsError {α : Type} : Except Error α → Bool
  | .ok _    => false
  | .error e => !e.isPanic

namespace Loop

variable (b : Backend) (m : Loop)

-- An event that is not expected is answered at once, and so is a claim for a swap that is over.
def rejects : Event → Bool
  | .keysReceived _ => m.swap.nextExpectedEvent ≠ .keysReceived
  | .xmrLocked      => m.swap.nextExpectedEvent ≠ .xmrLocked
  | .ethClaimed     => m.swap.nextExpectedEvent ≠ .ethClaimed ∨ !m.swap.info.status.isOngoing
  | .shouldRefund   =>
    m.swap.nextExpectedEvent ≠ .xmrLocked ∧ m.swap.nextExpectedEvent ≠ .ethClaimed ∧
    m.swap.nextExpectedEvent ≠ .keysReceived
  | .exit           => false

def setReadyFails (ok text : Bool) : Bool :=
  match m.swap.contractSwap with
  | none    => !ok
  | some sw =>
    ¬(ok ∧ m.stages (sw.swapID b.host) = .pending) ∧ ¬(text ∧ !m.swap.info.status.isOngoing)

def refundFails (ok text : Bool) : Bool :=
  match m.swap.contractSwap with
  | none    => !ok
  | some sw => (m.refund b sw ok text).fst = .failed

def claimMoneroFails (ready written : Bool) : Bool :=
  !ready || !m.swap.noTransferBack && !written

-- The function that handles the event returns an error, which is sent to the channel of the event.
def fails (i : Input) : Bool :=
  match m.control, i with
  | .runHandleEvents,    .event e                                => m.rejects e
  | .checkKeys msg,      .keysChecked calls                      =>
    returnsError (checkKeys calls msg m.swap).fst
  | .newSwap,            .newSwapped none _ _ _                  => true
  | .newSwap,            .newSwapped (some receipt) _ nonce put  =>
    returnsError (recordSwap b nonce put receipt m.swap).fst
  | .sendSwapMessage,    .messageSent ok                         => !ok
  | .readyStage,         .stageRead ok                           =>
    !ok || m.stages m.swap.contractSwapID = .invalid
  | .setReady,           .readySent ok text                      => m.setReadyFails b ok text
  | .claimMonero false,  .sweeping ready written                 => m.claimMoneroFails ready written
  | .sweepAll false,     .swept ok                               => !ok
  | .refund .shouldRefund, .refundSent ok text                   => m.refundFails b ok text
  | _,                   _                                       => false

-- The handlers of two events change the expected event by `setNextExpectedEvent` and send its
-- error. When `handleEventKeysReceived` has failed before, the error of the database comes in a
-- step of its own and cannot be sent.
def setsNextExpectedEvent (m' : Loop) : Bool :=
  match m.control with
  | .sendSwapMessage | .readyStage | .setReady =>
    m'.control = .runHandleEvents ∧ m'.swap.nextExpectedEvent ≠ m.swap.nextExpectedEvent
  | _ => false

def filterForClaimFails : Option (List Log) → Bool
  | none      => true
  | some logs =>
    match m.findClaim logs with
    | none   => false
    | some l =>
      match getSecretFromLog l claimedTopic with
      | .error _ => true
      | .ok _    => !m.swap.info.status.isOngoing

-- The error that `exit` returns when a step leads to what it defers.
def exitFails (i : Input) : Bool :=
  match m.control, i with
  | .refundStage,       .stageRead ok           => !ok || m.stages m.swap.contractSwapID = .invalid
  | .refundTimestamp _, .timestamp ts           => ts.isNone
  | .refund .final,     .refundSent ok text     => m.refundFails b ok text
  | .refund (.early _), .refundSent _ _         => false
  | .waitT2,            .waited ok              => !ok
  | .waitT2,            .event _                => false
  | .filterForClaim,    .filtered logs          => m.filterForClaimFails logs
  | .claimMonero true,  .sweeping ready written => m.claimMoneroFails ready written
  | .sweepAll true,     .swept ok               => !ok
  | _,                  _                       =>
    m.swap.nextExpectedEvent = .shouldRefund ∨ m.swap.nextExpectedEvent = .exit

end Loop

-- The loop with the event that `handleEvent` handles, with how many values have been sent to its
-- channel and with what `exit` returns. The last field has the channels of all other events that
-- have been received.
structure AnsweredLoop where
  loop   : Loop
  event  : Option Event := none
  values : ℕ := 0
  err    : Bool := false
  ended  : List ErrCh := []

namespace AnsweredLoop

variable (b : Backend) (m : AnsweredLoop)

-- `tryRefund` forgets the events that it receives.
def receive : Input → AnsweredLoop
  | .event e =>
    if m.loop.control = .runHandleEvents then { m with event := some e }
    else if m.loop.control = .waitT2 then { m with ended := {} :: m.ended }
    else m
  | _        => m

-- The handler of an `EventExit` sends what `exit` returns after all that it defers.
def sendsExit (i : Input) : Bool :=
  match m.loop.control, i with
  | .completeOngoingSwap, .completed _ => m.event = some .exit ∧ m.err
  | _,                    _            => false

def sends (loop : Loop) (i : Input) (written : Bool) : ℕ :=
  (m.loop.fails b i).toNat + (m.loop.setsNextExpectedEvent loop && !written).toNat +
    (m.sendsExit i).toNat

-- What is deferred by the handler closes the channel.
def close : AnsweredLoop :=
  match m.event with
  | none   => m
  | some _ => { m with event := none, values := 0, ended := ⟨m.values, true⟩ :: m.ended }

-- Each input comes with whether `WriteSwapToDB` succeeds if it is called in the same step. A
-- handler that is blocked neither sends a value nor closes the channel.
def step (m : AnsweredLoop) (i : Input × Bool) : AnsweredLoop :=
  let m₁   := m.receive i.fst
  let loop := m.loop.step b i.fst
  let m₂   :=
    { m₁ with
      loop
      values := m.values + m₁.sends b loop i.fst i.snd
      err    := if loop.control = m.loop.control then m.err else m.loop.exitFails b i.fst }
  if loop.control = .runHandleEvents then m₂.close else m₂

end AnsweredLoop

end XMRTaker
