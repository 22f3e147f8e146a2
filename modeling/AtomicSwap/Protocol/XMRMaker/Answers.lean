import AtomicSwap.Protocol.XMRMaker.EventLoop

open Ethereum SwapCreator

namespace XMRMaker

def returnsError {α : Type} : Except Error α → Bool
  | .ok _    => false
  | .error e => !e.isPanic

-- As many events are being handled in `exit`.
def Control.exits : Control → ℕ
  | .claimFunds exits | .reclaimMonero exits | .sweepAll exits | .exitWait exits
  | .completeOngoingSwap exits => exits
  | _                          => 0

namespace Loop

variable (b : Backend) (m : Loop)

-- An event that is not expected is answered at once.
def rejects : Event → Bool
  | .ethLocked _   => m.swap.nextExpectedEvent ≠ .ethLocked
  | .contractReady => m.swap.nextExpectedEvent ≠ .contractReady
  | .ethRefunded   => false
  | .exit          => false

-- The function that handles the event returns an error, which is sent to the channel of the event.
-- A claim that fails is only answered after `exit`.
def fails (i : Input) : Bool :=
  match m.control, i with
  | .runHandleEvents,    .event e                => m.rejects e
  | .checkETHLocked msg, .checked ec calls       =>
    returnsError (amountToLock b ec calls msg m.swap).fst
  | .prepareLock amount, .prepared calls         =>
    returnsError (startTransfer calls amount m.swap).fst
  | .transfer,           .transferred ok         => !ok
  | .reclaimMonero 0,    .sweeping ready written => !ready || !written
  | .sweepAll 0,         .swept ok               => !ok
  | _,                   _                       => false

-- The error that `exit` returns when a step leads to what it defers. It returns after an event has
-- been handled in it, or at once.
def exitFails (i : Input) : Bool :=
  match m.control, i with
  | .claimFunds _,                .claimed _              => false
  | .reclaimMonero _,             .sweeping ready written => !ready || !written
  | .sweepAll _,                  .swept ok               => !ok
  | .completeOngoingSwap _,       .completed _            => true
  | .exitWait _,                  .event _                => false
  | _,                            _                       =>
    m.swap.nextExpectedEvent = .ethRefunded ∨ m.swap.nextExpectedEvent = .exit

end Loop

-- The loop with the event that `handleEvent` handles, with how many values have been sent to its
-- channel and with what `exit` returns. The last field has the channels of all events that are not
-- handled any more.
structure AnsweredLoop where
  loop   : Loop
  event  : Option Event := none
  values : ℕ := 0
  err    : Bool := false
  ended  : List ErrCh := []

namespace AnsweredLoop

variable (b : Backend) (m : AnsweredLoop)

-- `exit` does not handle all events.
def receive : Input → AnsweredLoop
  | .event e =>
    match m.loop.control, e with
    | .runHandleEvents, e                                 => { m with event := some e }
    | .exitWait _,      .ethLocked _ | .exitWait _, .exit => { m with ended := {} :: m.ended }
    | _,                _                                 => m
  | _        => m

-- The handlers of two events send what they get after all that `exit` defers.
def sendsExit (i : Input) : Bool :=
  match m.loop.control, i with
  | .completeOngoingSwap 0, .completed _ =>
    m.event = some .contractReady ∨ m.event = some .exit ∧ m.err
  | _,                      _            => false

-- Nothing is sent to the channels of the events that are handled in `exit`, but it closes them.
def closeExits (loop : Loop) : AnsweredLoop :=
  if loop.control.exits < m.loop.control.exits then { m with ended := ⟨0, true⟩ :: m.ended } else m

def close : AnsweredLoop :=
  match m.event with
  | none   => m
  | some _ => { m with event := none, values := 0, ended := ⟨m.values, true⟩ :: m.ended }

def step (m : AnsweredLoop) (i : Input) : AnsweredLoop :=
  let loop := m.loop.step b i
  let m₁   := (m.receive i).closeExits loop
  let m₂   :=
    { m₁ with
      loop
      values := m.values + (m.loop.fails b i).toNat + (m.sendsExit i).toNat
      err    := if loop.control = m.loop.control then m.err else m.loop.exitFails i }
  if loop.control = .runHandleEvents then m₂.close else m₂

end AnsweredLoop

end XMRMaker
