import AtomicSwap.Protocol.XMRTaker.Expiration

open Ethereum SwapCreator

namespace XMRTaker

-- A swap with the goroutines that send its first two events, and with whether the swap manager has
-- a swap of its offer. The stream of the swap is closed after its first message: by the handler of
-- the keys if it succeeds, and by the network if it does not. Each goroutine of `checkForXMRLock`
-- sends one event.
structure RunningSwap where
  loop       : Loop
  stream     : Bool
  lockChecks : ℕ
  ongoing    : Bool := true

-- All other events may be sent at any time. When another swap is started for the same offer, the
-- swap manager cannot tell the two from each other.
inductive RunningInput
  | loop (i : Input)
  | keysReceived (msg : SendKeysMessage)
  | xmrLocked
  | completed (putSwap : Bool)
  | swapAdded

namespace RunningSwap

variable (b : Backend) (m : RunningSwap)

def start (s : SwapState) (stages : Bytes32 → Stage) : RunningSwap where
  loop       := .start s stages false
  stream     := true
  lockChecks := 0

def restart (s : SwapState) (stages : Bytes32 → Stage) : RunningSwap where
  loop       := .start s stages true
  stream     := false
  lockChecks := if s.info.status = .ethLocked then 1 else 0

-- With the handler of `t1` a goroutine is started that checks for the Monero.
def advance (i : Input) : RunningSwap :=
  let loop := m.loop.step b i
  { m with
    loop
    lockChecks := if m.loop.startsT1 loop then m.lockChecks + 1 else m.lockChecks }

-- `CompleteOngoingSwap` removes the swap even if it cannot be written to the database.
def completeOngoingSwap (putSwap : Bool) : RunningSwap :=
  if m.loop.control = .completeOngoingSwap then
    { m.advance b (.completed <| m.ongoing && putSwap) with ongoing := false }
  else m

-- A swap can only be started when the last one of the offer is done.
def step (m : RunningSwap) : RunningInput → RunningSwap
  | .loop (.event (.keysReceived _)) | .loop (.event .xmrLocked) | .loop (.completed _) => m
  | .loop i           => m.advance b i
  | .keysReceived msg =>
    if m.stream ∧ m.loop.receives then
      advance b { m with stream := false } (.event <| .keysReceived msg)
    else m
  | .xmrLocked        =>
    if 0 < m.lockChecks ∧ m.loop.receives then
      advance b { m with lockChecks := m.lockChecks - 1 } (.event .xmrLocked)
    else m
  | .completed put    => m.completeOngoingSwap b put
  | .swapAdded        => if m.loop.doneClosed then { m with ongoing := true } else m

end RunningSwap

end XMRTaker
