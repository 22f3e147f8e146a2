import AtomicSwap.Crypto.Monero
import AtomicSwap.Ethereum.SwapCreator.Basic
import AtomicSwap.Library.Abi
import AtomicSwap.Library.Except

namespace Ethereum

structure Log where
  address     : Address
  topics      : List Bytes32
  data        : List UInt8
  blockNumber : ℕ
  removed     : Bool := false
  deriving DecidableEq

namespace SwapCreator

-- The Keccak-256 hashes of the signatures of the events.
def newTopic : Bytes32 := 0x91446ce035ac29998b5473504609a5ef5e961005daba4630a1684b63be848f56
def readyTopic : Bytes32 := 0x5fc23b25552757626e08b316cc2387ad1bc70ee1594af7204db4ce0c39f5d15f
def claimedTopic : Bytes32 := 0x38d6042dbdae8e73a7f6afbabd3fbe0873f9f5ed3cd71294591c3908c2e65fee
def refundedTopic : Bytes32 := 0x007c875846b687732a7579c19bb1dade66cd14e9f4f809565e2b2b5e76c72b4f

def Event.topic : Event → Bytes32
  | new ..      => newTopic
  | ready ..    => readyTopic
  | claimed ..  => claimedTopic
  | refunded .. => refundedTopic

-- The fields of `New` are not indexed, those of the other events are.
def Event.toLog (address : Address) (blockNumber : ℕ) : Event → Log
  | e@(new id claimKey refundKey t₁ t₂ asset value) =>
    { address, blockNumber, topics := [e.topic]
      data := Bytes.be 32 id.toNat ++ Bytes.be 32 claimKey.toNat ++ Bytes.be 32 refundKey.toNat ++
        Bytes.be 32 t₁.toNat ++ Bytes.be 32 t₂.toNat ++ Bytes.be 32 asset.toNat ++
        Bytes.be 32 value.toNat }
  | e@(ready id)      => { address, blockNumber, topics := [e.topic, id], data := [] }
  | e@(claimed id s)  => { address, blockNumber, topics := [e.topic, id, s], data := [] }
  | e@(refunded id s) => { address, blockNumber, topics := [e.topic, id, s], data := [] }

-- The Go counterpart of a swap. Its integers are unbounded, and reduced when they are packed.
structure SwapCreatorSwap where
  owner            : Address
  claimer          : Address
  claimCommitment  : Bytes32
  refundCommitment : Bytes32
  timeout1         : ℤ
  timeout2         : ℤ
  asset            : Address
  value            : ℤ
  nonce            : ℤ
  deriving DecidableEq

def SwapCreatorSwap.pack (s : SwapCreatorSwap) : Swap where
  owner            := s.owner
  claimer          := s.claimer
  claimCommitment  := s.claimCommitment
  refundCommitment := s.refundCommitment
  timeout1         := .ofInt 256 s.timeout1
  timeout2         := .ofInt 256 s.timeout2
  asset            := s.asset
  value            := .ofInt 256 s.value
  nonce            := .ofInt 256 s.nonce

def SwapCreatorSwap.swapID (host : Host) (s : SwapCreatorSwap) : Bytes32 :=
  host.keccak256 (abiEncode s.pack)

structure SwapCreatorRelaySwap where
  swap        : SwapCreatorSwap
  fee         : ℤ
  relayerHash : Bytes32
  swapCreator : Address
  deriving DecidableEq

def SwapCreatorRelaySwap.pack (s : SwapCreatorRelaySwap) : RelaySwap where
  swap        := s.swap.pack
  fee         := .ofInt 256 s.fee
  relayerHash := s.relayerHash
  swapCreator := s.swapCreator

def SwapCreatorRelaySwap.hash (host : Host) (s : SwapCreatorRelaySwap) : Bytes32 :=
  host.keccak256 (abiEncodeRelay s.pack)

-- The bytes that `SwapID` hashes. The source panics if they cannot be packed.
def SwapCreatorSwap.args (s : SwapCreatorSwap) : Option (List UInt8) :=
  Abi.pack
    [.address, .address, .bytes32, .bytes32, .uint256, .uint256, .address, .uint256, .uint256]
    [.address s.owner, .address s.claimer, .bytes32 s.claimCommitment, .bytes32 s.refundCommitment,
      .integer s.timeout1, .integer s.timeout2, .address s.asset, .integer s.value,
      .integer s.nonce]

-- The bytes that `Hash` hashes.
def SwapCreatorRelaySwap.args (s : SwapCreatorRelaySwap) : Option (List UInt8) :=
  Abi.pack
    [.address, .address, .bytes32, .bytes32, .uint256, .uint256, .address, .uint256, .uint256,
      .uint256, .bytes32, .address]
    [.address s.swap.owner, .address s.swap.claimer, .bytes32 s.swap.claimCommitment,
      .bytes32 s.swap.refundCommitment, .integer s.swap.timeout1, .integer s.swap.timeout2,
      .address s.swap.asset, .integer s.swap.value, .integer s.swap.nonce, .integer s.fee,
      .bytes32 s.relayerHash, .address s.swapCreator]

structure SwapCreatorNew where
  swapID    : Bytes32
  claimKey  : Bytes32
  refundKey : Bytes32
  timeout1  : ℕ
  timeout2  : ℕ
  asset     : Address
  value     : ℕ
  deriving DecidableEq

-- The fields of an event without data keep their zero values. Data that is too long is accepted, as
-- are words with more than the 160 bits of an address.
def unpackNew (data : List UInt8) : Option SwapCreatorNew :=
  if data = [] then some ⟨0, 0, 0, 0, 0, 0, 0⟩
  else if data.length < 7 * 32 then none
  else some
    { swapID    := .ofNat 256 (Bytes.word 0 data)
      claimKey  := .ofNat 256 (Bytes.word 1 data)
      refundKey := .ofNat 256 (Bytes.word 2 data)
      timeout1  := Bytes.word 3 data
      timeout2  := Bytes.word 4 data
      asset     := .ofNat 160 (Bytes.word 5 data)
      value     := Bytes.word 6 data }

-- The address of the log plays no role.
def parseNew (log : Log) : Option SwapCreatorNew :=
  match log.topics with
  | []               => none
  | topic :: indexed => do
    if topic ≠ newTopic then none
    let event ← unpackNew log.data
    if indexed ≠ [] then none
    return event

theorem parseNew_toLog {id ck rk : Bytes32} {t₁ t₂ v : Uint256} {a this : Address} {n : ℕ} :
    parseNew (Event.new id ck rk t₁ t₂ a v |>.toLog this n) =
    some ⟨id, ck, rk, t₁.toNat, t₂.toNat, a, v.toNat⟩ := by
  have hd (x : Bytes32) (bs : List UInt8) : Bytes.be 32 x.toNat ++ bs ≠ [] := by
    intro h
    simpa using congrArg List.length h
  simp [parseNew, Event.toLog, Event.topic, unpackNew, hd, Bytes.word_succ, Bytes.word_zero,
    Bytes.word_self, -List.append_eq_nil_iff]

-- A log of another event is not taken for a `New`.
theorem parseNew_toLog_isSome {e : Event} {this : Address} {n : ℕ}
    (h : (parseNew <| e.toLog this n).isSome) :
    ∃ id ck rk t₁ t₂ a v, e = .new id ck rk t₁ t₂ a v := by
  cases e
  case new => exact ⟨_, _, _, _, _, _, _, rfl⟩
  all_goals
    simp [parseNew, Event.toLog, Event.topic, readyTopic, claimedTopic, refundedTopic,
      newTopic] at h

theorem unpackNew_value_lt {data : List UInt8} {event : SwapCreatorNew}
    (h : unpackNew data = some event) : event.value < 2 ^ 256 := by
  unfold unpackNew at h
  split_ifs at h <;> cases h
  case pos => decide
  case neg => exact Bytes.word_lt

theorem parseNew_unpackNew {log : Log} {event : SwapCreatorNew} (h : parseNew log = some event) :
    unpackNew log.data = some event := by
  unfold parseNew at h
  split at h
  case h_1 => contradiction
  case h_2 topic indexed _ =>
    cases hu : unpackNew log.data
    all_goals by_cases ht : topic = newTopic <;> by_cases hi : indexed = [] <;> simp_all

theorem parseNew_value_lt {log : Log} {event : SwapCreatorNew} (h : parseNew log = some event) :
    event.value < 2 ^ 256 :=
  unpackNew_value_lt <| parseNew_unpackNew h

inductive NewLogError
  | panicked
  | wrongLogTopic
  | unpack
  deriving DecidableEq

-- Unlike `parseNew`, this neither accepts a log without data nor looks at the other topics.
def unpackNewLog (log : Log) : Except NewLogError SwapCreatorNew :=
  match log.topics with
  | []         => .error .panicked
  | topic :: _ =>
    if topic ≠ newTopic then .error .wrongLogTopic
    else if log.data = [] then .error .unpack
    else (unpackNew log.data).elim (.error .unpack) .ok

theorem unpackNewLog_toLog {id ck rk : Bytes32} {t₁ t₂ v : Uint256} {a this : Address} {n : ℕ} :
    unpackNewLog (Event.new id ck rk t₁ t₂ a v |>.toLog this n) =
    .ok ⟨id, ck, rk, t₁.toNat, t₂.toNat, a, v.toNat⟩ := by
  have hu : unpackNew (Event.new id ck rk t₁ t₂ a v |>.toLog this n).data =
      some ⟨id, ck, rk, t₁.toNat, t₂.toNat, a, v.toNat⟩ := parseNew_unpackNew parseNew_toLog
  have hd : (Event.new id ck rk t₁ t₂ a v |>.toLog this n).data ≠ [] := by
    intro hd
    simpa [Event.toLog] using congrArg List.length hd
  simp only [unpackNewLog, hu, hd]
  rfl

def getIDFromLog (log : Log) : Except NewLogError Bytes32 :=
  (·.swapID) <$> unpackNewLog log

def getTimeoutsFromLog (log : Log) : Except NewLogError (ℕ × ℕ) :=
  (fun event => (event.timeout1, event.timeout2)) <$> unpackNewLog log

inductive LogError
  | invalidEvent         -- "invalid event, must be one of Claimed or Refunded"
  | notEnoughParameters  -- "log had not enough parameters"
  | zeroSecret           -- "got zero secret key from contract"
  | key (e : Monero.KeyError)
  deriving DecidableEq

def getSecretFromLog (log : Log) (eventTopic : Bytes32) :
    Except LogError Monero.PrivateSpendKey := do
  if eventTopic ≠ claimedTopic ∧ eventTopic ≠ refundedTopic then
    throw .invalidEvent
  let some s := log.topics[2]? | throw .notEnoughParameters
  if s = 0 then
    throw .zeroSecret
  Monero.newPrivateSpendKey (Bytes.be 32 s.toNat).reverse |>.mapError .key

def checkIfLogIDMatches (log : Log) (eventTopic id : Bytes32) : Except LogError Bool := do
  if eventTopic ≠ claimedTopic ∧ eventTopic ≠ refundedTopic then
    throw .invalidEvent
  let some eventID := log.topics[1]? | throw .notEnoughParameters
  return eventID == id

inductive SwapIDError
  | missingParams
  | invalidEventTopic
  | notForUs
  deriving DecidableEq

def checkSwapID (log : Log) (eventNameTopic contractSwapID : Bytes32) : Except SwapIDError Unit :=
  match log.topics with
  | topic :: id :: _ =>
    if topic ≠ eventNameTopic then .error .invalidEventTopic
    else if id ≠ contractSwapID then .error .notForUs
    else .ok ()
  | _ => .error .missingParams

-- A secret can be read from a log exactly if it is the secret itself, and not just some number
-- congruent to it.
theorem getSecretFromLog_eq_ok {log : Log} {s : Bytes32} {topic : Bytes32} {x : Monero.Scalar}
    (ht : topic = claimedTopic ∨ topic = refundedTopic) (hs : log.topics[2]? = some s)
    (hx : x.val ≠ 0) : getSecretFromLog log topic = .ok ⟨x⟩ ↔ s.toNat = x := by
  have ht : ¬(topic ≠ claimedTopic ∧ topic ≠ refundedTopic) := by
    cases ht <;> simp_all
  have hk := Monero.newPrivateSpendKey_le_eq_ok (x := x) s.isLt
  by_cases h : s = 0
  case pos =>
    simp [getSecretFromLog, ht, hs, h, throw, throwThe, MonadExceptOf.throw, bind, Except.bind,
      Ne.symm hx]
  case neg =>
    simp only [getSecretFromLog, ht, hs, h, Bytes.be, List.reverse_reverse, if_false, ← hk]
    cases Monero.newPrivateSpendKey (Bytes.le 32 s.toNat) <;> simp

end SwapCreator
end Ethereum
