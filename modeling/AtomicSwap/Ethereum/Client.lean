import AtomicSwap.Library.Handler
import AtomicSwap.Protocol.Basic

open Handler

namespace Ethereum

-- The errors that the code tells apart.

inductive TransactError
  | insufficientFunds
  | other
  deriving DecidableEq

inductive ReceiptError
  | notFound
  | other
  deriving DecidableEq

-- A client of an Ethereum node, with the account that it has the key of. All that happens outside
-- is part of the state, and may change it at each call.
structure EthClient (σ : Type) where
  address            : Address
  balance            : σ → Option ℤ × σ
  erc20Balance       : Address → σ → Option ℤ × σ
  suggestGasPrice    : σ → Option ℤ × σ
  txOpts             : σ → Option Unit × σ
  callContract       : Address → SwapCreator.Call → σ → Option Unit × σ
  transact           : Address → SwapCreator.Call → σ → Except TransactError Bytes32 × σ
  transactionReceipt : Bytes32 → σ → Except ReceiptError Receipt × σ
  sleepWithContext   : σ → Option Unit × σ
  expired            : σ → Bool

inductive WaitError
  | contextExpired
  | failedTransaction
  | receiptTimeOut
  deriving DecidableEq

def maxRetries : ℕ :=
  360

variable {σ : Type} (ec : EthClient σ) (txHash : Bytes32)

-- The rounds of `WaitForReceipt` that are left. Any error counts as a transaction that is not
-- included yet.
def waitRounds : ℕ → Handler σ WaitError Receipt
  | 0     => ofExcept (.error .receiptTimeOut)
  | n + 1 => do
    let s ← get
    throwIf (ec.expired s) .contextExpired
    match ← ask (ec.transactionReceipt txHash) with
    | .error _    =>
      askFor .contextExpired ec.sleepWithContext
      waitRounds n
    | .ok receipt =>
      throwIf (receipt.success = false) .failedTransaction
      return receipt

def waitForReceipt : Handler σ WaitError Receipt :=
  waitRounds ec txHash maxRetries

end Ethereum
