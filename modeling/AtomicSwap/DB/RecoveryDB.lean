import AtomicSwap.Crypto.Monero.Keys
import AtomicSwap.Protocol.Basic

open Ethereum Function

namespace DB

inductive Error
  | keyNotFound
  | unmarshal (e : Monero.TextError)
  deriving DecidableEq

-- The keys as they are written: as text.
structure CounterpartyKeys where
  publicSpendKey : List Char
  privateViewKey : List Char
  deriving DecidableEq

-- The records of all swaps. A record is found by the ID of the offer and its kind.
structure RecoveryDB where
  contractSwapInfo           : Bytes32 → Option EthereumSwapInfo
  swapPrivateKey             : Bytes32 → Option (List Char)
  counterpartySwapPrivateKey : Bytes32 → Option (List Char)
  counterpartySwapKeys       : Bytes32 → Option CounterpartyKeys
  newSwapTxHash              : Bytes32 → Option Bytes32

def RecoveryDB.empty : RecoveryDB where
  contractSwapInfo _           := none
  swapPrivateKey _             := none
  counterpartySwapPrivateKey _ := none
  counterpartySwapKeys _       := none
  newSwapTxHash _              := none

def get {α : Type} (records : Bytes32 → Option α) (id : Bytes32) : Except Error α :=
  match records id with
  | some record => .ok record
  | none        => .error .keyNotFound

variable {C : Monero.Curve}

namespace RecoveryDB

variable (db : RecoveryDB) (id : Bytes32)

def putContractSwapInfo (info : EthereumSwapInfo) : RecoveryDB :=
  { db with contractSwapInfo := update db.contractSwapInfo id (some info) }

def getContractSwapInfo : Except Error EthereumSwapInfo :=
  get db.contractSwapInfo id

def putSwapPrivateKey (sk : Monero.PrivateSpendKey) : RecoveryDB :=
  { db with swapPrivateKey := update db.swapPrivateKey id (some sk.key.marshalText) }

def getSwapPrivateKey : Except Error Monero.PrivateSpendKey := do
  let value ← get db.swapPrivateKey id
  let key ← (Monero.Scalar.unmarshalText value).mapError .unmarshal
  return { key }

def putCounterpartySwapPrivateKey (kp : Monero.PrivateSpendKey) : RecoveryDB :=
  { db with
    counterpartySwapPrivateKey := update db.counterpartySwapPrivateKey id
      (some kp.key.marshalText) }

def getCounterpartySwapPrivateKey : Except Error Monero.PrivateSpendKey := do
  let value ← get db.counterpartySwapPrivateKey id
  let key ← (Monero.Scalar.unmarshalText value).mapError .unmarshal
  return { key }

def putCounterpartySwapKeys (sk : Monero.PublicKey C) (vk : Monero.PrivateViewKey) : RecoveryDB :=
  { db with
    counterpartySwapKeys := update db.counterpartySwapKeys id
      (some ⟨sk.marshalText, vk.key.marshalText⟩) }

variable (C) in
def getCounterpartySwapKeys : Except Error (Monero.PublicKey C × Monero.PrivateViewKey) := do
  let info ← get db.counterpartySwapKeys id
  let sk ← (Monero.PublicKey.unmarshalText C info.publicSpendKey).mapError .unmarshal
  let key ← (Monero.Scalar.unmarshalText info.privateViewKey).mapError .unmarshal
  return (sk, { key })

def putNewSwapTxHash (txHash : Bytes32) : RecoveryDB :=
  { db with newSwapTxHash := update db.newSwapTxHash id (some txHash) }

def getNewSwapTxHash : Except Error Bytes32 :=
  get db.newSwapTxHash id

-- Deletes nothing: the source has yet to implement it.
def deleteSwap (_ : Bytes32) : RecoveryDB :=
  db

end RecoveryDB
end DB
