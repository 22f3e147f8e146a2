import AtomicSwap.Library.Machine
import AtomicSwap.Relayer.Validate

open Ethereum Function Machine Relayer

-- The part of the backend that relays the claims of other peers.
namespace Backend

-- How far a call of `HandleRelayClaimRequest` has come. The salt is read in one critical section
-- and removed in another one, when the call returns.
inductive Phase
  | started
  | read (salt : BitVec 32)
  | returning
  | finished
  deriving DecidableEq

structure Config where
  recovery        : Recovery
  checkCode       : Address → Bool
  ourAddress      : Address
  swapCreatorAddr : Address

-- The calls are numbered in the order in which they are made. What was issued and for which calls a
-- transaction was submitted is not part of the code.
structure State where
  relayerHash : Bytes32 → Option (BitVec 32) := fun _ => none
  requests    : List RelayClaimRequest       := []
  phase       : ℕ → Phase                    := fun _ => .started
  issued      : List Bytes32                 := []
  submitted   : List ℕ                       := []

-- The steps of all calls, in any order. The source of randomness may fail, a taker may not know the
-- swap or the peer, and the balance, the simulation or the submission may prevent a transaction.
inductive Input
  | getRelayerAddressHash (salt : Option (BitVec 32))
  | handleRelayClaimRequest (request : RelayClaimRequest)
  | lookUp (i : ℕ) (known : Bool)
  | validateAndSend (i : ℕ) (sent : Bool)
  | clearRelayerAddressHash (i : ℕ)

variable (cfg : Config)

def Config.addressHash (salt : BitVec 32) : Bytes32 :=
  relayerAddressHash cfg.recovery cfg.ourAddress salt

def getRelayerAddressHash (s : State) (salt : BitVec 32) : State :=
  let hash := cfg.addressHash salt
  { s with relayerHash := update s.relayerHash hash (some salt), issued := hash :: s.issued }

-- A hash that is not in the map reads as the zero salt.
def lookUp (s : State) (i : ℕ) (known : Bool) : State :=
  match s.requests[i]?, s.phase i with
  | some request, .started =>
    let salt := (s.relayerHash request.relaySwap.relayerHash).getD 0
    { s with phase := update s.phase i (if known then .read salt else .returning) }
  | _, _ => s

def validateAndSend (s : State) (i : ℕ) (sent : Bool) : State :=
  match s.requests[i]?, s.phase i with
  | some request, .read salt =>
    let s' := { s with phase := update s.phase i .returning }
    let valid := validateClaimRequest cfg.recovery cfg.checkCode request cfg.ourAddress salt
      cfg.swapCreatorAddr
    if valid = .ok () ∧ sent then { s' with submitted := s.submitted ++ [i] } else s'
  | _, _ => s

def clearRelayerAddressHash (s : State) (i : ℕ) : State :=
  match s.requests[i]?, s.phase i with
  | some request, .returning =>
    { s with phase       := update s.phase i .finished
             relayerHash := update s.relayerHash request.relaySwap.relayerHash none }
  | _, _ => s

def step (s : State) : Input → State
  | .getRelayerAddressHash none        => s
  | .getRelayerAddressHash (some salt) => getRelayerAddressHash cfg s salt
  | .handleRelayClaimRequest request   => { s with requests := s.requests ++ [request] }
  | .lookUp i known                    => lookUp s i known
  | .validateAndSend i sent            => validateAndSend cfg s i sent
  | .clearRelayerAddressHash i         => clearRelayerAddressHash s i

end Backend
