import AtomicSwap.Ethereum.Secp256k1

open Reentrant Function

namespace Ethereum.SwapCreator

inductive Stage
  | invalid
  | pending
  | ready
  | completed
  deriving DecidableEq

structure Swap where
  owner            : Address
  claimer          : Address
  claimCommitment  : Bytes32
  refundCommitment : Bytes32
  timeout1         : Uint256
  timeout2         : Uint256
  asset            : Address
  value            : Uint256
  nonce            : Uint256
  deriving DecidableEq

structure RelaySwap where
  swap        : Swap
  fee         : Uint256
  relayerHash : Bytes32
  swapCreator : Address
  deriving DecidableEq

inductive Error
  | zeroValue
  | invalidSwapKey
  | invalidClaimer
  | invalidTimeout
  | invalidValue
  | swapAlreadyExists
  | swapNotPending
  | onlySwapOwner
  | onlySwapClaimer
  | invalidSwap
  | swapCompleted
  | tooEarlyToClaim
  | tooLateToClaim
  | notTimeToRefund
  | invalidSecret
  | invalidSignature
  | invalidContractAddress
  | invalidRelayerAddress
  deriving DecidableEq

inductive Event
  | new (swapID claimKey refundKey : Bytes32) (timeout1 timeout2 : Uint256) (asset : Address)
    (value : Uint256)
  | ready (swapID : Bytes32)
  | claimed (swapID s : Bytes32)
  | refunded (swapID s : Bytes32)
  deriving DecidableEq

-- The contract's storage and log, and the balances of all accounts. The fields `swapOf` and
-- `payouts` are not part of the code: they record which swap an ID was given to and what was paid
-- out for it.
structure State where
  swaps    : Bytes32 → Stage
  logs     : List Event
  balances : Ledger Address Address
  swapOf   : Bytes32 → Option Swap
  payouts  : Bytes32 → List (Address × ℕ)

def State.deployed (balances : Ledger Address Address) : State where
  swaps _   := .invalid
  logs      := []
  balances  := balances
  swapOf _  := none
  payouts _ := []

-- The address the contract is deployed at, and the assets that move exactly the requested amount
-- and call no other contract. All other token contracts run arbitrary code.
structure Deployment where
  host     : Host
  this     : Address
  standard : Address → Bool

structure Block where
  timestamp : Uint256

abbrev M := Code State (Revert Error)

def abiEncode (s : Swap) : List UInt8 :=
  Bytes.be 32 s.owner.toNat ++ Bytes.be 32 s.claimer.toNat ++
  Bytes.be 32 s.claimCommitment.toNat ++ Bytes.be 32 s.refundCommitment.toNat ++
  Bytes.be 32 s.timeout1.toNat ++ Bytes.be 32 s.timeout2.toNat ++
  Bytes.be 32 s.asset.toNat ++ Bytes.be 32 s.value.toNat ++ Bytes.be 32 s.nonce.toNat

def abiEncodeRelay (r : RelaySwap) : List UInt8 :=
  abiEncode r.swap ++ Bytes.be 32 r.fee.toNat ++ Bytes.be 32 r.relayerHash.toNat ++
  Bytes.be 32 r.swapCreator.toNat

section

variable (d : Deployment)

def swapID (s : Swap) : Bytes32 :=
  d.host.keccak256 (abiEncode s)

def emit (e : Event) : M Unit :=
  .modify fun s => { s with logs := s.logs ++ [e] }

def setStage (id : Bytes32) (stage : Stage) : M Unit :=
  .modify fun s => { s with swaps := update s.swaps id stage }

-- The value of a call is moved before its code runs.
def payable (msg : Msg) : M Unit := do
  let s ← .get
  .revertIf (s.balances native msg.sender < msg.value.toNat) .callFailed
  .modify fun s => { s with balances := s.balances.move native msg.sender d.this msg.value.toNat }

def nonpayable (msg : Msg) : M Unit :=
  .revertIf (msg.value ≠ 0) .notPayable

def safeTransferFrom (token src : Address) (value : Uint256) : M Unit := do
  if d.standard token then
    let s ← .get
    .revertIf (s.balances token src < value.toNat) .callFailed
    .modify fun s => { s with balances := s.balances.move token src d.this value.toNat }
  else
    .handOver

-- Pays `value` from the contract to `dst` on behalf of the swap `id`. The native coin is sent by
-- `transfer`, which leaves the receiver without the gas to call another contract.
def pay (id : Bytes32) (asset dst : Address) (value : Uint256) : M Unit := do
  .modify fun s => { s with payouts := update s.payouts id (s.payouts id ++ [(dst, value.toNat)]) }
  if asset = native ∨ d.standard asset then
    let s ← .get
    .revertIf (s.balances asset d.this < value.toNat) .lacksFunds
    -- The contract itself has no function that receives the native coin.
    .revertIf (asset = native ∧ dst = d.this) .callFailed
    .modify fun s => { s with balances := s.balances.move asset d.this dst value.toNat }
  else
    .handOver

def verifySecret (secret hashedPubkey : Bytes32) : M Unit :=
  .revertIf (¬Secp256k1.mulVerify d.host secret hashedPubkey) (.custom .invalidSecret)

-- The first part of `newSwap`, which takes the asset from the sender.
def lockAsset (msg : Msg) (asset : Address) (value : Uint256) : M Unit :=
  if asset = native then
    .revertIf (value ≠ msg.value) (.custom .invalidValue)
  else
    safeTransferFrom d asset msg.sender value

-- The last part of `newSwap`, which records the swap.
def createSwap (swap : Swap) : M Bytes32 := do
  let id := swapID d swap
  let s ← .get
  .revertIf (s.swaps id ≠ .invalid) (.custom .swapAlreadyExists)
  emit <| .new id swap.claimCommitment swap.refundCommitment swap.timeout1 swap.timeout2 swap.asset
    swap.value
  setStage id .pending
  .modify fun s => { s with swapOf := update s.swapOf id (some swap) }
  return id

variable (block : Block)

def newSwap
    (msg : Msg) (claimCommitment refundCommitment : Bytes32) (claimer : Address)
    (timeoutDuration1 timeoutDuration2 : Uint256) (asset : Address) (value nonce : Uint256) :
    M Bytes32 := do
  .revertIf (value = 0) (.custom .zeroValue)
  lockAsset d msg asset value
  .revertIf (claimCommitment = 0 ∨ refundCommitment = 0) (.custom .invalidSwapKey)
  .revertIf (claimer = 0) (.custom .invalidClaimer)
  .revertIf (timeoutDuration1 = 0 ∨ timeoutDuration2 = 0) (.custom .invalidTimeout)
  let timeout1 ← .lift <| Uint256.add block.timestamp timeoutDuration1
  let timeout2 ← .lift <| Uint256.add timeout1 timeoutDuration2
  createSwap d
    { owner := msg.sender, claimer, claimCommitment, refundCommitment, timeout1, timeout2, asset,
      value, nonce }

def setReady (msg : Msg) (swap : Swap) : M Unit := do
  let id := swapID d swap
  let s ← .get
  .revertIf (s.swaps id ≠ .pending) (.custom .swapNotPending)
  .revertIf (swap.owner ≠ msg.sender) (.custom .onlySwapOwner)
  setStage id .ready
  emit <| .ready id

-- The checks that `_claim` makes before it records the claim.
def checkClaim (swap : Swap) (secret : Bytes32) : M Unit := do
  let s ← .get
  let stage := s.swaps (swapID d swap)
  .revertIf (stage = .invalid) (.custom .invalidSwap)
  .revertIf (stage = .completed) (.custom .swapCompleted)
  .revertIf (block.timestamp < swap.timeout1 ∧ stage ≠ .ready) (.custom .tooEarlyToClaim)
  .revertIf (swap.timeout2 ≤ block.timestamp) (.custom .tooLateToClaim)
  verifySecret d secret swap.claimCommitment

def _claim (swap : Swap) (secret : Bytes32) : M Unit := do
  checkClaim d block swap secret
  emit <| .claimed (swapID d swap) secret
  setStage (swapID d swap) .completed

def claim (msg : Msg) (swap : Swap) (secret : Bytes32) : M Unit := do
  .revertIf (msg.sender ≠ swap.claimer) (.custom .onlySwapClaimer)
  _claim d block swap secret
  pay d (swapID d swap) swap.asset swap.claimer swap.value

def relayerHash (relayer : Address) (salt : BitVec 32) : Bytes32 :=
  d.host.keccak256 (Bytes.be 20 relayer.toNat ++ Bytes.be 4 salt.toNat)

def claimRelayer
    (relaySwap : RelaySwap) (secret : Bytes32) (relayer : Address) (salt : BitVec 32) (v : UInt8)
    (r s : Bytes32) : M Unit := do
  let signer := d.host.ecrecover (d.host.keccak256 <| abiEncodeRelay relaySwap) v r s
  .revertIf (signer ≠ relaySwap.swap.claimer) (.custom .invalidSignature)
  .revertIf (d.this ≠ relaySwap.swapCreator) (.custom .invalidContractAddress)
  .revertIf (relayerHash d relayer salt ≠ relaySwap.relayerHash) (.custom .invalidRelayerAddress)
  _claim d block relaySwap.swap secret
  let swap := relaySwap.swap
  let rest ← .lift <| Uint256.sub swap.value relaySwap.fee
  pay d (swapID d swap) swap.asset swap.claimer rest
  pay d (swapID d swap) swap.asset relayer relaySwap.fee

-- The checks that `refund` makes before it records the refund.
def checkRefund (msg : Msg) (swap : Swap) (secret : Bytes32) : M Unit := do
  let s ← .get
  let stage := s.swaps (swapID d swap)
  .revertIf (stage = .invalid) (.custom .invalidSwap)
  .revertIf (stage = .completed) (.custom .swapCompleted)
  .revertIf (swap.owner ≠ msg.sender) (.custom .onlySwapOwner)
  .revertIf (block.timestamp < swap.timeout2 ∧ (swap.timeout1 < block.timestamp ∨ stage = .ready))
    (.custom .notTimeToRefund)
  verifySecret d secret swap.refundCommitment

def refund (msg : Msg) (swap : Swap) (secret : Bytes32) : M Unit := do
  checkRefund d block msg swap secret
  emit <| .refunded (swapID d swap) secret
  setStage (swapID d swap) .completed
  pay d (swapID d swap) swap.asset swap.owner swap.value

end

-- The calls that reach the contract. By `outside` everybody else moves assets among themselves or
-- to the contract. An asset that is not standard may rewrite any balance.
inductive Call
  | newSwap (msg : Msg) (claimCommitment refundCommitment : Bytes32) (claimer : Address)
    (timeoutDuration1 timeoutDuration2 : Uint256) (asset : Address) (value nonce : Uint256)
  | setReady (msg : Msg) (swap : Swap)
  | claim (msg : Msg) (swap : Swap) (secret : Bytes32)
  | claimRelayer (msg : Msg) (relaySwap : RelaySwap) (secret : Bytes32) (relayer : Address)
    (salt : BitVec 32) (v : UInt8) (r s : Bytes32)
  | refund (msg : Msg) (swap : Swap) (secret : Bytes32)
  | outside (asset holder : Address) (balance : ℕ)
  deriving DecidableEq

def step (d : Deployment) (block : Block) : Call → M Unit
  | .newSwap msg claimCommitment refundCommitment claimer d₁ d₂ asset value nonce => do
    payable d msg
    let _ ← newSwap d block msg claimCommitment refundCommitment claimer d₁ d₂ asset value nonce
    return ()
  | .setReady msg swap => do
    nonpayable msg
    setReady d msg swap
  | .claim msg swap secret => do
    nonpayable msg
    claim d block msg swap secret
  | .claimRelayer msg relaySwap secret relayer salt v r s => do
    nonpayable msg
    claimRelayer d block relaySwap secret relayer salt v r s
  | .refund msg swap secret => do
    nonpayable msg
    refund d block msg swap secret
  | .outside asset holder balance => do
    let s ← .get
    .revertIf
      (holder = d.this ∧ (asset = native ∨ d.standard asset) ∧ balance < s.balances asset holder)
      .callFailed
    .modify fun s => { s with balances := s.balances.put asset holder balance }

end Ethereum.SwapCreator
