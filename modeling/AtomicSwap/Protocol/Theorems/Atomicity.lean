import AtomicSwap.Ethereum.SwapCreator.Theorems.Log
import AtomicSwap.Protocol.Theorems.LockAccount

open Monero DB Reentrant Ethereum Ethereum.SwapCreator

variable {C : Curve} {pubKeyHash : ℕ → Bytes32} {sw : Swap} {kpA kpB : PrivateKeyPair}
  {d : Deployment} {s : State} {K : Set ℕ} {x id : Bytes32} {e : Event} {key : Scalar}

section

variable {S : Set Swap} {balances : Ledger Ethereum.Address Ethereum.Address}
  {txs : List (Block × Act Call)}

end

namespace Sample

abbrev swapID : Bytes32 :=
  SwapCreator.swapID SwapCreator.Sample.deployment SwapCreator.Sample.swap

end Sample
