import AtomicSwap.Ethereum.Client
import AtomicSwap.Ethereum.SwapCreator.Theorems.Window

open Reentrant Handler Ethereum.SwapCreator

namespace Ethereum

variable {σ : Type}

-- The contract in a world with states in `σ`. A state knows all transactions so far.
structure Chain (σ : Type) where
  deployment : Deployment
  swaps      : Set Swap
  balances   : Ledger Address Address
  history    : σ → List (Block × Act Call)

namespace Chain

variable (c : Chain σ)

def contract (x : σ) : State :=
  runTxs (step c.deployment) (c.history x) (.deployed c.balances)

def journal (x : σ) : Journal :=
  Reentrant.journal (step c.deployment) (c.history x) (.deployed c.balances)

def Admits (tx : Block × Act Call) : Prop :=
  tx.snd.All (Call.Admissible c.deployment c.swaps tx.fst)

-- What happens between two states: transactions are made in blocks that meet `P`.
def Grows (P : Block → Prop) (x x' : σ) : Prop :=
  ∃ txs, c.history x' = c.history x ++ txs ∧ ∀ tx ∈ txs, c.Admits tx ∧ P tx.fst

variable {c} {P : Block → Prop} {x x' x₁ x₂ x₃ : σ}

theorem Grows.refl (x : σ) : c.Grows P x x :=
  ⟨[], by simp⟩

theorem Grows.trans (h₁ : c.Grows P x₁ x₂) (h₂ : c.Grows P x₂ x₃) : c.Grows P x₁ x₃ := by
  obtain ⟨txs₁, h₁, ha₁⟩ := h₁
  obtain ⟨txs₂, h₂, ha₂⟩ := h₂
  refine ⟨txs₁ ++ txs₂, by rw [h₂, h₁, List.append_assoc], fun tx ht => ?_⟩
  exact (List.mem_append.mp ht).elim (ha₁ tx) (ha₂ tx)

theorem Grows.admits (h : c.Grows P x x') (ha : ∀ tx ∈ c.history x, c.Admits tx) :
    ∀ tx ∈ c.history x', c.Admits tx := by
  obtain ⟨txs, h, ht⟩ := h
  intro tx hm
  exact (List.mem_append.mp <| h ▸ hm).elim (ha tx) fun hm => (ht tx hm).left

-- Events stay in the log.
theorem Grows.mem_logs (h : c.Grows P x x') {e : Event} (he : e ∈ (c.contract x).logs) :
    e ∈ (c.contract x').logs := by
  obtain ⟨txs, h, -⟩ := h
  have hg : SwapCreator.Grows (c.contract x) (c.contract x') := by
    rw [contract, contract, h, runTxs_append]
    exact runTxs_grows txs
  exact hg.subset he

end Chain

-- The same client in a world with something else.
def EthClient.aside (τ : Type) (ec : EthClient σ) : EthClient (σ × τ) where
  address               := ec.address
  balance               := Handler.aside ec.balance
  erc20Balance token    := Handler.aside (ec.erc20Balance token)
  suggestGasPrice       := Handler.aside ec.suggestGasPrice
  txOpts                := Handler.aside ec.txOpts
  callContract dst call := Handler.aside (ec.callContract dst call)
  transact dst call     := Handler.aside (ec.transact dst call)
  transactionReceipt tx := Handler.aside (ec.transactionReceipt tx)
  sleepWithContext      := Handler.aside ec.sleepWithContext
  expired p             := ec.expired p.fst

-- All calls of a client change the world by `R`.
structure EthClient.Within (ec : EthClient σ) (R : σ → σ → Prop) : Prop where
  balance            : ∀ x, R x (ec.balance x).snd
  erc20Balance       : ∀ token x, R x (ec.erc20Balance token x).snd
  suggestGasPrice    : ∀ x, R x (ec.suggestGasPrice x).snd
  txOpts             : ∀ x, R x (ec.txOpts x).snd
  callContract       : ∀ dst call x, R x (ec.callContract dst call x).snd
  transact           : ∀ dst call x, R x (ec.transact dst call x).snd
  transactionReceipt : ∀ tx x, R x (ec.transactionReceipt tx x).snd
  sleepWithContext   : ∀ x, R x (ec.sleepWithContext x).snd

theorem EthClient.Within.waitRounds {ec : EthClient σ} {R : σ → σ → Prop} (h : ec.Within R)
    (hr : ∀ x, R x x) (ht : ∀ x₁ x₂ x₃, R x₁ x₂ → R x₂ x₃ → R x₁ x₃) (txHash : Bytes32) (n : ℕ) :
    Moves R (waitRounds ec txHash n) := by
  induction n
  case zero      => exact moves_ofExcept hr
  case succ n hi =>
    refine moves_bind ht hr fun _ => moves_bind ht (moves_ofExcept hr) fun _ =>
      moves_bind ht (moves_ask <| h.transactionReceipt txHash) fun r => ?_
    cases r
    case error => exact moves_bind ht (moves_askFor h.sleepWithContext) fun _ => hi
    case ok    => exact moves_bind ht (moves_ofExcept hr) fun _ => hr

theorem EthClient.Within.waitForReceipt {ec : EthClient σ} {R : σ → σ → Prop} (h : ec.Within R)
    (hr : ∀ x, R x x) (ht : ∀ x₁ x₂ x₃, R x₁ x₂ → R x₂ x₃ → R x₁ x₃) (txHash : Bytes32) :
    Moves R (waitForReceipt ec txHash) :=
  h.waitRounds hr ht txHash maxRetries

end Ethereum
