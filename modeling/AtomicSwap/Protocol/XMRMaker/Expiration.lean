import AtomicSwap.Protocol.Clock
import AtomicSwap.Protocol.XMRMaker.EventLoop

open Ethereum SwapCreator Function

namespace XMRMaker

abbrev PeerID := ℕ

-- What has sent the `EventContractReady` that the claim is made for.
inductive ClaimCause
  | t1Expired
  | readyLog
  deriving DecidableEq

-- A call of `Claim` or of `SubmitClaimToRelayer`, to which the secret of the maker is passed, with
-- the stage of the swap and the latest block at that moment.
structure ClaimCall where
  cause : ClaimCause
  swap  : Option SwapCreatorSwap
  stage : Stage
  now   : Uint256
  deriving DecidableEq

-- The call that `claimFunds` waits for. Of the relayers, some are still to be asked.
inductive ClaimControl
  | checkForMinClaimBalance
  | claim
  | discoverRelayers
  | submitClaimToRelayer (relayers : List PeerID)
  | relayClaimWithXMRTaker
  | balance
  deriving DecidableEq

inductive ClaimResult
  | included
  | insufficientFunds
  | failed
  deriving DecidableEq

-- The loop with the goroutines `runT1ExpirationHandler` and `runContractEventWatcher`, with what
-- `claimFunds` uses, and with the contract and the timestamp of its latest block. The last field is
-- not part of the code.
structure TimedLoop where
  loop           : Loop
  useRelayer     : Bool
  peerID         : PeerID
  now            : Uint256
  stages         : Bytes32 → Stage
  t1             : Handlers := {}
  watcher        : Handlers := {}
  readyEventSent : Bool := false
  cause          : ClaimCause := .readyLog
  claim          : ClaimControl := .checkForMinClaimBalance
  claims         : List ClaimCall := []

-- Blocks are added to the chain, and goroutines make progress, at any time.
inductive TimedInput
  | loop (i : Input)
  | t1Expired
  | t1Event
  | readyLog (log : Log)
  | readyEvent
  | balanceChecked (hasBalanceToClaim : Option Bool)
  | claimSent (result : ClaimResult)
  | discovered (relayers : Option (List PeerID))
  | relayed (ok : Bool)
  | block (timestamp : Uint256)
  | stageMined (id : Bytes32) (stage : Stage)

namespace Loop

def receives (m : Loop) : Bool :=
  match m.control with
  | .runHandleEvents | .exitWait _ => true
  | _                              => false

def claiming (m : Loop) : Bool :=
  match m.control with
  | .claimFunds _ => true
  | _             => false

end Loop

namespace TimedLoop

variable (b : Backend) (m : TimedLoop)

-- The handler of `t1` is started when the Monero has been locked.
def advance (i : Input) : TimedLoop :=
  let loop := m.loop.step b i
  { m with
    loop
    t1    := if m.loop.control = .transfer ∧ loop.control = .runHandleEvents then m.t1.start
             else m.t1
    claim := if m.loop.claiming then m.claim else .checkForMinClaimBalance }

section ClaimFunds

def contractStage : Stage :=
  match m.loop.swap.contractSwap with
  | none    => .invalid
  | some sw => m.stages (sw.swapID b.host)

-- The call gets the secret of the maker.
def reveal (next : ClaimControl) : TimedLoop :=
  { m with
    claim  := next
    claims := m.claims ++ [⟨m.cause, m.loop.swap.contractSwap, m.contractStage b, m.now⟩] }

-- The counterparty is only asked if no other relayer has claimed.
def submitToRelayers (relayers : List PeerID) : TimedLoop :=
  match relayers.dropWhile (· = m.peerID) with
  | []             => m.reveal b .relayClaimWithXMRTaker
  | _ :: relayers' => m.reveal b (.submitClaimToRelayer relayers')

def balanceChecked : Option Bool → TimedLoop
  | none                   => m.advance b (.claimed false)
  | some hasBalanceToClaim =>
    if m.useRelayer ∨ !hasBalanceToClaim then { m with claim := .discoverRelayers }
    else m.reveal b .claim

def claimSent : ClaimResult → TimedLoop
  | .included          => { m with claim := .balance }
  | .insufficientFunds => { m with claim := .discoverRelayers }
  | .failed            => m.advance b (.claimed false)

def discovered : Option (List PeerID) → TimedLoop
  | none          => m.reveal b .relayClaimWithXMRTaker
  | some relayers => m.submitToRelayers b relayers

def relayed (relayers : List PeerID) (ok : Bool) : TimedLoop :=
  if ok then { m with claim := .balance } else m.submitToRelayers b relayers

def relayedWithXMRTaker (ok : Bool) : TimedLoop :=
  if ok then { m with claim := .balance } else m.advance b (.claimed false)

-- After the claim the maker still writes the fee and reads its balance, which may fail.
def stepClaim : ClaimControl → TimedInput → TimedLoop
  | .checkForMinClaimBalance,       .balanceChecked has   => m.balanceChecked b has
  | .claim,                         .claimSent result     => m.claimSent b result
  | .discoverRelayers,              .discovered relayers  => m.discovered b relayers
  | .submitClaimToRelayer relayers, .relayed ok           => m.relayed b relayers ok
  | .relayClaimWithXMRTaker,        .relayed ok           => m.relayedWithXMRTaker b ok
  | .balance,                       .loop (.claimed ok)   => m.advance b (.claimed ok)
  | _,                              _                     => m

end ClaimFunds

def handleReadyLogs (log : Log) : TimedLoop :=
  if m.readyEventSent then m
  else
    match checkSwapID log readyTopic m.loop.swap.contractSwapID with
    | .ok _    => { m with readyEventSent := true, watcher.sending := m.watcher.sending + 1 }
    | .error _ => m

def contractReady (cause : ClaimCause) : TimedLoop :=
  advance b { m with cause } (.event .contractReady)

-- Only the handler of `t1` and the watcher send an `EventContractReady`. A `select` may take the
-- timeout even if another of its channels has been closed.
def step (m : TimedLoop) (i : TimedInput) : TimedLoop :=
  match i with
  | .t1Expired =>
    if 0 < m.t1.waiting ∧ m.loop.swap.t1 ≤ blockTime m.now then { m with t1 := m.t1.expire } else m
  | .t1Event =>
    if 0 < m.t1.sending ∧ m.loop.receives then
      contractReady b { m with t1 := m.t1.receive } .t1Expired
    else m
  | .readyLog log => m.handleReadyLogs log
  | .readyEvent =>
    if 0 < m.watcher.sending ∧ m.loop.receives then
      contractReady b { m with watcher := m.watcher.receive } .readyLog
    else m
  | .block now           => if m.now ≤ now then { m with now } else m
  | .stageMined id stage => { m with stages := update m.stages id stage }
  | .loop (.event .contractReady) => m
  | .loop (.claimedLog log)       => m.advance b (.claimedLog log)
  | i                    =>
    if m.loop.claiming then m.stepClaim b m.claim i
    else
      match i with
      | .loop i => m.advance b i
      | _       => m

end TimedLoop

end XMRMaker
