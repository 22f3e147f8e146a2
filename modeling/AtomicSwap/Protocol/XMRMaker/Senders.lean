import AtomicSwap.Protocol.XMRMaker.Expiration

open Ethereum SwapCreator

namespace XMRMaker

-- A swap with the goroutines that send an `EventContractReady`, with the clock of the daemon, and
-- with whether the swap manager has a swap of its offer. The last three fields are not part of the
-- code: `claimFunds` has failed, the transfer of the XMR may have been broadcast, and an event that
-- claims or refunds has been handled since.
structure RunningSwap where
  loop           : Loop
  now            : Time
  t1             : Handlers := {}
  readyEventSent : Bool := false
  ongoing        : Bool := true
  claimFailed    : Bool := false
  broadcast      : Bool
  handled        : Bool := false
  deriving DecidableEq

-- The handler of `t1` returns when the loop does not need it any more, and when it cannot wait for
-- `t1`. All other events may be sent at any time.
inductive RunningInput
  | loop (i : Input)
  | clock (now : Time)
  | t1Returned
  | t1Expired (ok : Bool)
  | t1Event
  | readyEvent
  | completed (putSwap : Bool)
  | swapAdded

def Input.isTrigger : Input → Bool
  | event .contractReady | event .ethRefunded => true
  | _                                         => false

def Input.isFailedClaim : Input → Bool
  | claimed ok => !ok
  | _          => false

def Loop.completing (m : Loop) : Bool :=
  match m.control with
  | .completeOngoingSwap _ => true
  | _                      => false

namespace RunningSwap

variable (b : Backend) (m : RunningSwap)

def start (s : SwapState) (now : Time) : RunningSwap where
  loop      := .start s
  now       := now
  broadcast := false

-- The handler returns at once if `t2` has passed.
def runT1ExpirationHandler (now t2 : Time) (t1 : Handlers) : Handlers :=
  if t2 < now then t1 else t1.start

def restart (s : SwapState) (now : Time) : RunningSwap where
  loop      := .start s
  now       := now
  t1        := runT1ExpirationHandler now s.t2 {}
  broadcast := true

def advance (i : Input) : RunningSwap :=
  let loop := m.loop.step b i
  { m with
    loop
    t1          := if m.loop.control = .transfer ∧ loop.control = .runHandleEvents then
                     runT1ExpirationHandler m.now loop.swap.t2 m.t1
                   else m.t1
    claimFailed := m.claimFailed || m.loop.claiming && i.isFailedClaim
    broadcast   := m.broadcast || loop.control = .transfer
    handled     := m.handled || m.broadcast && m.loop.receives && i.isTrigger }

-- `CompleteOngoingSwap` removes the swap even if it cannot be written to the database.
def completeOngoingSwap (putSwap : Bool) : RunningSwap :=
  { m.advance b (.completed <| m.ongoing && putSwap) with ongoing := false }

-- The watcher sends one event for all `Ready` logs. A swap of the same offer can only be started
-- when the offer is on sale again and the last one is done.
def step (m : RunningSwap) : RunningInput → RunningSwap
  | .loop (.event .contractReady) | .loop (.completed _) => m
  | .loop i        => m.advance b i
  | .clock now     => { m with now }
  | .t1Returned    =>
    if m.loop.readyClosed ∨ m.loop.cancelled then { m with t1.waiting := m.t1.waiting - 1 } else m
  | .t1Expired ok  =>
    if 0 < m.t1.waiting then
      if ok then { m with t1 := m.t1.expire } else { m with t1.waiting := m.t1.waiting - 1 }
    else m
  | .t1Event       =>
    if 0 < m.t1.sending ∧ m.loop.receives then
      advance b { m with t1 := m.t1.receive } (.event .contractReady)
    else m
  | .readyEvent    =>
    if !m.readyEventSent ∧ m.loop.receives then
      advance b { m with readyEventSent := true } (.event .contractReady)
    else m
  | .completed put => if m.loop.completing then m.completeOngoingSwap b put else m
  | .swapAdded     =>
    if m.loop.doneClosed ∧ m.loop.offerFate = .readded then { m with ongoing := true } else m

end RunningSwap

end XMRMaker
