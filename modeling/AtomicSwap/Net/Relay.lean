import AtomicSwap.DB.RecoveryDB
import AtomicSwap.Protocol.Backend
import Mathlib.Data.List.AList

open Ethereum Ethereum.SwapCreator Function Relayer

-- The streams on which the peers of a node ask it to relay claims, and what the node checks before
-- it does so.
namespace Relay

abbrev PeerID := ℕ

-- The fields of an `Info` that are read here.
structure Snapshot where
  peerID   : PeerID
  provides : Coins.ProvidesCoin
  deriving DecidableEq

def Snapshot.isTaker (info : Snapshot) : Bool :=
  info.provides = .eth

-- A `RelayClaimRequest` as it is decoded. The swap and the fee are not `required`, so they may be
-- missing, and their integers are nil then.
structure ClaimRequest where
  offerID     : Option Bytes32
  swap        : Option SwapCreatorSwap
  fee         : Option ℤ
  relayerHash : Bytes32
  swapCreator : Address
  secret      : Bytes32
  signature   : Signature
  deriving DecidableEq

namespace ClaimRequest

def filled (r : ClaimRequest) (swap : SwapCreatorSwap) (fee : ℤ) : RelayClaimRequest where
  offerID   := r.offerID
  relaySwap := { swap, fee, relayerHash := r.relayerHash, swapCreator := r.swapCreator }
  secret    := r.secret
  signature := r.signature

def complete? (r : ClaimRequest) : Option RelayClaimRequest := do
  let swap ← r.swap
  let fee ← r.fee
  return r.filled swap fee

-- The request of a peer that sends all members.
def ofComplete (r : RelayClaimRequest) : ClaimRequest where
  offerID     := r.offerID
  swap        := r.relaySwap.swap
  fee         := r.relaySwap.fee
  relayerHash := r.relaySwap.relayerHash
  swapCreator := r.relaySwap.swapCreator
  secret      := r.secret
  signature   := r.signature

end ClaimRequest

inductive Fault
  | rejected (e : Relayer.Error)
  | panicked
  deriving DecidableEq

-- The source panics when it compares or packs a nil integer.
def nonNil {α : Type} (x : Option α) : Except Fault α :=
  x.elim (.error .panicked) .ok

section Validate

variable (rec : Recovery) (checkSwapCreatorContractCode : Address → Bool) (r : ClaimRequest)

def validateSwapCreator (ourSwapCreatorAddr : Address) : Except Fault Unit :=
  if r.swapCreator = ourSwapCreatorAddr then .ok ()
  else do
    .failIf r.offerID.isSome <|
      .rejected (.swapCreatorMismatch r.swapCreator ourSwapCreatorAddr)
    .failIf (¬checkSwapCreatorContractCode r.swapCreator) <|
      .rejected (.contractCode r.swapCreator)

-- The asset of a missing swap is ETH, so that its value is read.
def validateClaimRequest (ourAddress : Address) (salt : BitVec 32) (ourSwapCreatorAddr : Address) :
    Except Fault Unit := do
  validateSwapCreator checkSwapCreatorContractCode r ourSwapCreatorAddr
  let swap ← nonNil r.swap
  .failIf (swap.asset ≠ native) <| .rejected (.assetNotSupported swap.asset)
  .failIf (relayerFeeWei ≥ swap.value) <| .rejected (.valueTooLow swap.value)
  let hash := relayerAddressHash rec ourAddress salt
  .failIf (r.relayerHash ≠ hash) <| .rejected (.relayerHashMismatch r.relayerHash hash)
  let fee ← nonNil r.fee
  .failIf (relayerFeeWei > fee) <| .rejected (.feeTooLow fee)
  (validateClaimSignature rec (r.filled swap fee)).mapError .rejected

end Validate

structure Config extends Backend.Config where
  isRelayer : Bool

-- How far a call of `HandleRelayClaimRequest` has come. A request without an offer is authorized
-- from the start.
inductive Phase
  | started (id : Bytes32)
  | ongoing (id : Bytes32)
  | partner (id : Bytes32)
  | authorized
  | read (salt : BitVec 32)
  | returning
  | finished
  deriving DecidableEq

structure Call where
  peer    : PeerID
  request : ClaimRequest
  deriving DecidableEq

-- The ongoing swaps and the records of the recovery belong to the other parts of the node. The
-- calls are numbered, and `submitted` lists those for which a transaction was sent.
structure State where
  ongoing     : AList fun _ : Bytes32 => Snapshot := ∅
  recoveryDB  : DB.RecoveryDB                     := .empty
  relayerHash : Bytes32 → Option (BitVec 32)      := fun _ => none
  calls       : List Call                         := []
  phase       : ℕ → Phase                         := fun _ => .authorized
  submitted   : List ℕ                            := []
  crashed     : Bool                              := false

-- What peers send, what the other parts of the node do, and the next step of a call. The flag says
-- whether the database answers, or whether the transaction gets sent.
inductive Input
  | relayerQueryStream (peer : PeerID) (salt : Option (BitVec 32))
  | relayStream (peer : PeerID) (request : ClaimRequest)
  | addSwap (id : Bytes32) (info : Snapshot)
  | completeOngoingSwap (id : Bytes32)
  | putContractSwapInfo (id : Bytes32) (info : EthereumSwapInfo)
  | deleteSwap (id : Bytes32)
  | resume (i : ℕ) (ok : Bool)

variable (cfg : Config)

namespace State

variable (s : State)

def hasOngoingSwapAsTaker (peer : PeerID) : Bool :=
  s.ongoing.entries.any fun e => e.snd.peerID = peer && e.snd.isTaker

def goto (i : ℕ) (p : Phase) : State :=
  { s with phase := update s.phase i p }

-- The random salt may fail to be read.
def handleRelayerQueryStream (peer : PeerID) : Option (BitVec 32) → State
  | none      => s
  | some salt =>
    if cfg.isRelayer || s.hasOngoingSwapAsTaker peer then
      { s with relayerHash := update s.relayerHash (cfg.addressHash salt) (some salt) }
    else s

def handleRelayStream (peer : PeerID) (request : ClaimRequest) : State :=
  let s' : State := { s with calls := s.calls ++ [⟨peer, request⟩] }
  match request.offerID with
  | none    => if cfg.isRelayer then s'.goto s.calls.length .authorized else s
  | some id => s'.goto s.calls.length (.started id)

-- A panic in one of the calls ends the process.
def validateAndSend (i : ℕ) (request : ClaimRequest) (salt : BitVec 32) (sent : Bool) : State :=
  match validateClaimRequest cfg.recovery cfg.checkCode request cfg.ourAddress salt
      cfg.swapCreatorAddr with
  | .error .panicked     => { s with crashed := true }
  | .error (.rejected _) => s.goto i .returning
  | .ok ()               =>
    if sent then { s.goto i .returning with submitted := s.submitted ++ [i] }
    else s.goto i .returning

def checkSwapID (i : ℕ) (request : ClaimRequest) (info : EthereumSwapInfo) : State :=
  match request.swap with
  | none      => { s with crashed := true }
  | some swap =>
    s.goto i (if info.swapID = swap.swapID cfg.recovery.host then .authorized else .returning)

-- The parts of `HandleRelayClaimRequest` between which other parts of the node may run.
def resume (i : ℕ) (ok : Bool) (c : Call) : State :=
  match s.phase i with
  | .started id => s.goto i (if id ∈ s.ongoing then .ongoing id else .returning)
  | .ongoing id =>
    match s.ongoing.lookup id with
    | none      => s.goto i .returning
    | some info =>
      s.goto i (if info.isTaker ∧ c.peer = info.peerID then .partner id else .returning)
  | .partner id =>
    match s.recoveryDB.getContractSwapInfo id, ok with
    | .ok info, true => s.checkSwapID cfg i c.request info
    | _, _           => s.goto i .returning
  | .authorized => s.goto i (.read <| (s.relayerHash c.request.relayerHash).getD 0)
  | .read salt  => s.validateAndSend cfg i c.request salt ok
  | .returning  =>
    { s.goto i .finished with relayerHash := update s.relayerHash c.request.relayerHash none }
  | .finished   => s

end State

def step (s : State) (i : Input) : State :=
  if s.crashed then s
  else
    match i with
    | .relayerQueryStream peer salt   => s.handleRelayerQueryStream cfg peer salt
    | .relayStream peer request       => s.handleRelayStream cfg peer request
    | .addSwap id info                => { s with ongoing := s.ongoing.insert id info }
    | .completeOngoingSwap id         => { s with ongoing := s.ongoing.erase id }
    | .putContractSwapInfo id info    =>
      { s with recoveryDB := s.recoveryDB.putContractSwapInfo id info }
    | .deleteSwap id                  => { s with recoveryDB := s.recoveryDB.deleteSwap id }
    | .resume i ok                    => (s.calls[i]?).elim s (s.resume cfg i ok)

def run : List Input → State → State :=
  Machine.run (step cfg)

end Relay
