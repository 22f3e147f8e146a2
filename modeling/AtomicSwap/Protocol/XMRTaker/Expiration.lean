import AtomicSwap.Protocol.Clock
import AtomicSwap.Protocol.XMRTaker.EventLoop

open Ethereum SwapCreator

namespace XMRTaker

-- What has led to a call of `refund`: the event of a handler, or one of the checks in `tryRefund`.
inductive RefundCause
  | t1Expired
  | t2Expired
  | beforeT1
  | afterT2
  | waitedForT2
  deriving DecidableEq

-- A call of `Refund`, which publishes the secret of the taker, with the stage of the swap and the
-- latest block at that moment.
structure RefundCall where
  cause : RefundCause
  swap  : Option SwapCreatorSwap
  stage : Stage
  now   : Uint256
  deriving DecidableEq

-- The loop with the goroutines `runT1ExpirationHandler` and `runT2ExpirationHandler`, and with the
-- timestamp of the latest block. The last field is not part of the code.
structure TimedLoop where
  loop    : Loop
  now     : Uint256
  t1      : Handlers := {}
  t2      : Handlers := {}
  refunds : List RefundCall := []

-- Blocks are added to the chain, and goroutines of handlers make progress, at any time.
inductive TimedInput
  | loop (i : Input)
  | t1Expired
  | t2Expired
  | t1Event
  | t2Event
  | block (timestamp : Uint256)

namespace Loop

def receives (m : Loop) : Bool :=
  m.control = .runHandleEvents ∨ m.control = .waitT2

-- The asset has been locked.
def startsT1 (m m' : Loop) : Bool :=
  m.control = .newSwap ∧ m'.control = .sendSwapMessage

-- The contract has been set to ready.
def startsT2 (m m' : Loop) : Bool :=
  (m.control = .readyStage ∨ m.control = .setReady) ∧ m'.swap.nextExpectedEvent = .ethClaimed

def refundSite (m : Loop) : Option RefundSite :=
  match m.control with
  | .refund site => some site
  | _            => none

-- The call of `refund` that a step leads to.
def calledRefund (m m' : Loop) : Option RefundSite :=
  if m.refundSite = m'.refundSite then none else m'.refundSite

def contractStage (b : Backend) (m : Loop) : Stage :=
  match m.swap.contractSwap with
  | none    => .invalid
  | some sw => m.stages (sw.swapID b.host)

end Loop

def RefundSite.cause : RefundSite → Input → RefundCause
  | .early _, _         => .beforeT1
  | _,        .waited _ => .waitedForT2
  | _,        _         => .afterT2

namespace TimedLoop

variable (b : Backend) (m : TimedLoop)

def start (s : SwapState) (stages : Bytes32 → Stage) (now : Uint256) : TimedLoop where
  loop := .start s stages false
  now  := now

-- After a restart both handlers run, whether the Monero has been locked or not.
def restart (s : SwapState) (stages : Bytes32 → Stage) (now : Uint256) : TimedLoop where
  loop := .start s stages true
  now  := now
  t1   := { waiting := 1 }
  t2   := { waiting := 1 }

def advance (i : Input) (cause : RefundSite → RefundCause) : TimedLoop :=
  let loop := m.loop.step b i
  { m with
    loop
    t1      := if m.loop.startsT1 loop then m.t1.start else m.t1
    t2      := if m.loop.startsT2 loop then m.t2.start else m.t2
    refunds := m.refunds ++ (m.loop.calledRefund loop).toList.map fun site =>
      ⟨cause site, loop.swap.contractSwap, loop.contractStage b, m.now⟩ }

-- Only the handlers send an `EventShouldRefund`. What the chain answers to `LatestBlockTimestamp`
-- and to `WaitForTimestamp` is given by its latest block.
def stepLoop (i : Input) : TimedLoop :=
  match i with
  | .event .shouldRefund => m
  | .timestamp (some _)  => m.advance b (.timestamp <| some <| blockTime m.now) (·.cause i)
  | .waited true         =>
    if m.loop.swap.t2 ≤ blockTime m.now then m.advance b (.waited true) (·.cause i) else m
  | _                    => m.advance b i (·.cause i)

-- The handler of `t1` follows the clock of the computer. A `select` may take the timeout even if
-- another of its channels has been closed.
def step (m : TimedLoop) : TimedInput → TimedLoop
  | .loop i    => m.stepLoop b i
  | .t1Expired => if 0 < m.t1.waiting then { m with t1 := m.t1.expire } else m
  | .t2Expired =>
    if 0 < m.t2.waiting ∧ m.loop.swap.t2 ≤ blockTime m.now then { m with t2 := m.t2.expire } else m
  | .t1Event   =>
    if 0 < m.t1.sending ∧ m.loop.receives then
      advance b { m with t1 := m.t1.receive } (.event .shouldRefund) fun _ => .t1Expired
    else m
  | .t2Event   =>
    if 0 < m.t2.sending ∧ m.loop.receives then
      advance b { m with t2 := m.t2.receive } (.event .shouldRefund) fun _ => .t2Expired
    else m
  | .block now => if m.now ≤ now then { m with now } else m

end TimedLoop

end XMRTaker
