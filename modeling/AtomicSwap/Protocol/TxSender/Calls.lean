import AtomicSwap.Coins
import AtomicSwap.Ethereum.Utils

open Ethereum Ethereum.SwapCreator

-- The two ways in which the daemon makes transactions with the swap contract: with its own key, or
-- with a front-end that signs them.

namespace TxSender

def swapTypes : List Abi.Ty :=
  [.address, .address, .bytes32, .bytes32, .uint256, .uint256, .address, .uint256, .uint256]

def swapValues (s : SwapCreatorSwap) : List Abi.Value :=
  [.address s.owner, .address s.claimer, .bytes32 s.claimCommitment, .bytes32 s.refundCommitment,
    .integer s.timeout1, .integer s.timeout2, .address s.asset, .integer s.value, .integer s.nonce]

-- The methods of the contract that are called here. Its other ones are `claimRelayer`, `mulVerify`
-- and `swaps`.
def swapCreatorABI : List Abi.Method :=
  [{ name     := "newSwap"
     selector := [0xc4, 0x1e, 0x46, 0xcf]
     inputs   := [[.bytes32], [.bytes32], [.address], [.uint256], [.uint256], [.address],
       [.uint256], [.uint256]] },
   { name     := "setReady"
     selector := [0xfc, 0xaf, 0x22, 0x9c]
     inputs   := [swapTypes] },
   { name     := "claim"
     selector := [0x5c, 0xb9, 0x69, 0x16]
     inputs   := [swapTypes, [.bytes32]] },
   { name     := "refund"
     selector := [0x1e, 0x6c, 0x5a, 0xcc]
     inputs   := [swapTypes, [.bytes32]] }]

inductive Error
  | tokenNotSupported
  | coins (e : Coins.Error)
  | pack (e : Abi.Error)
  deriving DecidableEq

-- What the interface of a sender can be asked for.
inductive Request
  | newSwap (claimCommitment refundCommitment : Bytes32) (claimer : Address)
    (timeoutDuration nonce : ℤ) (amount : Coins.EthAssetAmount)
  | setReady (swap : SwapCreatorSwap)
  | claim (swap : SwapCreatorSwap) (secret : Bytes32)
  | refund (swap : SwapCreatorSwap) (secret : Bytes32)

-- A transaction for the front-end. Its value is in ether.
structure Transaction where
  toAddr : Address
  data   : List UInt8
  value  : Option Decimal := none
  deriving DecidableEq

namespace ExternalSender

variable (contractAddr : Address)

def newSwap (claimCommitment refundCommitment : Bytes32) (claimer : Address)
    (timeoutDuration nonce : ℤ) (amount : Coins.EthAssetAmount) : Except Error Transaction := do
  .failIf amount.isToken .tokenNotSupported
  let value ← amount.bigInt.mapError .coins
  let input ← (Abi.packCall swapCreatorABI "new_swap" [[.bytes32 claimCommitment],
    [.bytes32 refundCommitment], [.address claimer], [.integer timeoutDuration],
    [.address amount.tokenAddress], [.integer value], [.integer nonce]]).mapError .pack
  let std ← amount.asStd.mapError .coins
  return { toAddr := contractAddr, data := input, value := some std }

def setReady (swap : SwapCreatorSwap) : Except Error Transaction := do
  let input ← (Abi.packCall swapCreatorABI "set_ready" [swapValues swap]).mapError .pack
  return { toAddr := contractAddr, data := input }

def claim (swap : SwapCreatorSwap) (secret : Bytes32) : Except Error Transaction := do
  let input ← (Abi.packCall swapCreatorABI "claim" [swapValues swap, [.bytes32 secret]]).mapError
    .pack
  return { toAddr := contractAddr, data := input }

def refund (swap : SwapCreatorSwap) (secret : Bytes32) : Except Error Transaction := do
  let input ← (Abi.packCall swapCreatorABI "refund" [swapValues swap, [.bytes32 secret]]).mapError
    .pack
  return { toAddr := contractAddr, data := input }

def transaction : Request → Except Error Transaction
  | .newSwap claimCommitment refundCommitment claimer timeoutDuration nonce amount =>
    newSwap contractAddr claimCommitment refundCommitment claimer timeoutDuration nonce amount
  | .setReady swap      => setReady contractAddr swap
  | .claim swap secret  => claim contractAddr swap secret
  | .refund swap secret => refund contractAddr swap secret

end ExternalSender

-- A transaction that is signed with the key of the daemon. Its value is in wei.
structure Call where
  toAddr : Address
  data   : List UInt8
  value  : ℕ := 0
  deriving DecidableEq

namespace PrivateKeySender

variable (swapCreator : Address)

-- A method of the binding, which is made for the contract at one address.
def transact (name : String) (args : List (List Abi.Value)) (value : ℕ) : Except Error Call := do
  let input ← (Abi.packCall swapCreatorABI name args).mapError .pack
  return { toAddr := swapCreator, data := input, value }

-- The approval of the transfer of a token is another transaction, before this one.
def newSwap (claimCommitment refundCommitment : Bytes32) (claimer : Address)
    (timeoutDuration nonce : ℤ) (amount : Coins.EthAssetAmount) : Except Error Call := do
  let value ← amount.bigInt.mapError .coins
  transact swapCreator "newSwap" [[.bytes32 claimCommitment], [.bytes32 refundCommitment],
    [.address claimer], [.integer timeoutDuration], [.integer timeoutDuration],
    [.address amount.tokenAddress], [.integer value], [.integer nonce]]
    (if amount.isToken then 0 else value)

def setReady (swap : SwapCreatorSwap) : Except Error Call :=
  transact swapCreator "setReady" [swapValues swap] 0

def claim (swap : SwapCreatorSwap) (secret : Bytes32) : Except Error Call :=
  transact swapCreator "claim" [swapValues swap, [.bytes32 secret]] 0

def refund (swap : SwapCreatorSwap) (secret : Bytes32) : Except Error Call :=
  transact swapCreator "refund" [swapValues swap, [.bytes32 secret]] 0

def call : Request → Except Error Call
  | .newSwap claimCommitment refundCommitment claimer timeoutDuration nonce amount =>
    newSwap swapCreator claimCommitment refundCommitment claimer timeoutDuration nonce amount
  | .setReady swap      => setReady swapCreator swap
  | .claim swap secret  => claim swapCreator swap secret
  | .refund swap secret => refund swapCreator swap secret

end PrivateKeySender

-- The same transaction, with its value in wei.
structure Transaction.Agrees (tx : Transaction) (call : Call) : Prop where
  toAddr : tx.toAddr = call.toAddr
  data   : tx.data = call.data
  value  : (tx.value.elim 0 fun v => v.toRat * 10 ^ Coins.numEtherDecimals) = call.value

variable {contract : Address} {request : Request} {name : String} {args : List (List Abi.Value)}
  {input : List UInt8}

theorem packCall_claim (swap : SwapCreatorSwap) (secret : Bytes32) : ∃ input,
    Abi.packCall swapCreatorABI "claim" [swapValues swap, [.bytes32 secret]] = .ok input :=
  ⟨_, rfl⟩

theorem packCall_refund (swap : SwapCreatorSwap) (secret : Bytes32) : ∃ input,
    Abi.packCall swapCreatorABI "refund" [swapValues swap, [.bytes32 secret]] = .ok input :=
  ⟨_, rfl⟩

-- The other two methods have another name in the contract.
theorem packCall_not_found (h : name = "new_swap" ∨ name = "set_ready") :
    Abi.packCall swapCreatorABI name args = .error (.methodNotFound name) := by
  rcases h with rfl | rfl <;> rfl

theorem agree_of_packed (h : Abi.packCall swapCreatorABI name args = .ok input)
    (he : ExternalSender.transaction contract request = do
      let input ← (Abi.packCall swapCreatorABI name args).mapError .pack
      return { toAddr := contract, data := input })
    (hp : PrivateKeySender.call contract request =
      PrivateKeySender.transact contract name args 0) :
    ∃ tx call, ExternalSender.transaction contract request = .ok tx ∧
      PrivateKeySender.call contract request = .ok call ∧ tx.Agrees call := by
  refine ⟨{ toAddr := contract, data := input }, { toAddr := contract, data := input }, ?_, ?_, rfl,
    rfl, by simp⟩
  · simp [he, h]
  · simp [hp, PrivateKeySender.transact, h]

-- Both senders make the same transaction exactly if the method is `claim` or `refund`.
theorem senders_agree_iff (contract : Address) (request : Request) :
    (∃ tx call, ExternalSender.transaction contract request = .ok tx ∧
      PrivateKeySender.call contract request = .ok call ∧ tx.Agrees call) ↔
    ∃ swap secret, request = .claim swap secret ∨ request = .refund swap secret := by
  cases request
  case newSwap =>
    refine iff_of_false ?_ (by simp)
    rintro ⟨tx, -, htx, -⟩
    simp only [ExternalSender.transaction, ExternalSender.newSwap, Except.bind_ok_iff,
      Except.mapError_eq_ok, packCall_not_found (.inl rfl)] at htx
    obtain ⟨_, _, _, _, _, ⟨⟩, _⟩ := htx
  case setReady swap =>
    refine iff_of_false ?_ (by simp)
    rintro ⟨tx, -, htx, -⟩
    simp only [ExternalSender.transaction, ExternalSender.setReady, Except.bind_ok_iff,
      Except.mapError_eq_ok, packCall_not_found (.inr rfl)] at htx
    obtain ⟨_, ⟨⟩, _⟩ := htx
  case claim swap secret =>
    obtain ⟨input, h⟩ := packCall_claim swap secret
    exact iff_of_true (agree_of_packed h rfl rfl) ⟨swap, secret, .inl rfl⟩
  case refund swap secret =>
    obtain ⟨input, h⟩ := packCall_refund swap secret
    exact iff_of_true (agree_of_packed h rfl rfl) ⟨swap, secret, .inr rfl⟩

-- A swap of one ether. Only one of the senders can make the transactions that lock it and that
-- allow its claim.
theorem newSwap_not_packed :
    let newSwap : Request := .newSwap 1 2 3 3600 4 (.wei { coeff := 1, exponent := 18 })
    let setReady : Request := .setReady ⟨5, 3, 1, 2, 3600, 7200, 0, 10 ^ 18, 4⟩
    ExternalSender.transaction 6 newSwap = .error (.pack (.methodNotFound "new_swap")) ∧
    (PrivateKeySender.call 6 newSwap).isOk ∧
    ExternalSender.transaction 6 setReady = .error (.pack (.methodNotFound "set_ready")) ∧
    (PrivateKeySender.call 6 setReady).isOk :=
  ⟨rfl, rfl, rfl, rfl⟩

end TxSender
