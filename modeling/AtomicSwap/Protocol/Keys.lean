import AtomicSwap.DB.RecoveryDB

open Monero DB
open Ethereum (Bytes32)

variable (C : Curve)

-- The Monero keys of a swap. Each side generates its own, and receives the public spend key and the
-- private view key of the other side.

structure KeysAndProof where
  privateKeyPair : PrivateKeyPair
  publicKeyPair  : PublicKeyPair C

-- The secret is the one of the DLEq proof.
def generateKeysAndProof (secret : List UInt8) : Except KeyError (KeysAndProof C) := do
  let sk ← newPrivateSpendKey secret
  let kp ← sk.asPrivateKeyPair C
  return { privateKeyPair := kp, publicKeyPair := kp.publicKeyPair C }

def getClaimKeypair (skA skB : PrivateSpendKey) (vkA vkB : PrivateViewKey) : PrivateKeyPair where
  sk := sumPrivateSpendKeys skA skB
  vk := sumPrivateViewKeys vkA vkB

inductive RestartError
  | db (e : DB.Error)
  | view (e : KeyError)
  deriving DecidableEq

-- What both functions `completeSwap` read from the database: the own keys and the view key of the
-- other side.
def storedKeys (db : RecoveryDB) (id : Bytes32) :
    Except RestartError (PrivateSpendKey × PrivateViewKey × PrivateViewKey) := do
  let sk ← (db.getSwapPrivateKey id).mapError .db
  let vk ← (sk.view C).mapError .view
  let (_, counterpartyVk) ← (db.getCounterpartySwapKeys C id).mapError .db
  return (sk, vk, counterpartyVk)

-- The part of both functions `createOngoingSwap` that restores the own keys.
def ongoingKeys (db : RecoveryDB) (id : Bytes32) : Except RestartError PrivateKeyPair := do
  let sk ← (db.getSwapPrivateKey id).mapError .db
  (sk.asPrivateKeyPair C).mapError .view

namespace XMRTaker

structure Keys where
  privkeys               : PrivateKeyPair
  pubkeys                : PublicKeyPair C
  xmrmakerPublicSpendKey : PublicKey C
  xmrmakerPrivateViewKey : PrivateViewKey

variable {C}

def Keys.expectedXMRLockAccount (s : Keys C) (env : Environment) : Address × PrivateViewKey :=
  let vk := sumPrivateViewKeys s.xmrmakerPrivateViewKey s.privkeys.vk
  let sk := sumPublicKeys s.xmrmakerPublicSpendKey s.pubkeys.sk
  let kp : PublicKeyPair C := { sk, vk := vk.publicKey C }
  (kp.address env, vk)

-- The keys that `claimMonero` claims with.
def Keys.claimKeypair (s : Keys C) (skB : PrivateSpendKey) : PrivateKeyPair :=
  getClaimKeypair skB s.privkeys.sk s.xmrmakerPrivateViewKey s.privkeys.vk

variable (C)

def Keys.fromOngoing (db : RecoveryDB) (id : Bytes32) : Except RestartError (Keys C) := do
  let sk ← ongoingKeys C db id
  let (makerSk, makerVk) ← (db.getCounterpartySwapKeys C id).mapError .db
  return {
    privkeys               := sk
    pubkeys                := sk.publicKeyPair C
    xmrmakerPublicSpendKey := makerSk
    xmrmakerPrivateViewKey := makerVk }

-- The keys that `completeSwap` claims with.
def completeSwapKeypair (db : RecoveryDB) (id : Bytes32) (skB : PrivateSpendKey) :
    Except RestartError PrivateKeyPair := do
  let (skA, vkA, vkB) ← storedKeys C db id
  return getClaimKeypair skA skB vkA vkB

end XMRTaker

namespace XMRMaker

-- After a restart the keys of the taker are not set.
structure Keys where
  privkeys               : PrivateKeyPair
  pubkeys                : PublicKeyPair C
  xmrtakerPublicSpendKey : Option (PublicKey C)
  xmrtakerPrivateViewKey : Option PrivateViewKey

variable {C}

-- The address that `lockFunds` sends to. The code dereferences the taker's keys.
def Keys.swapDestAddr (s : Keys C) (env : Environment) : Option Address := do
  let sk ← s.xmrtakerPublicSpendKey
  let vk ← s.xmrtakerPrivateViewKey
  let xmrtakerPublicKeys : PublicKeyPair C := { sk, vk := vk.publicKey C }
  return sumSpendAndViewKeys xmrtakerPublicKeys s.pubkeys |>.address env

-- The keys that `reclaimMonero` claims with.
def Keys.reclaimKeypair (s : Keys C) (db : RecoveryDB) (id : Bytes32) (skA : PrivateSpendKey) :
    Except RestartError PrivateKeyPair := do
  let vkA ←
    match s.xmrtakerPublicSpendKey, s.xmrtakerPrivateViewKey with
    | some _, some vk => pure vk
    | _,      _       => do
      let (_, vk) ← (db.getCounterpartySwapKeys C id).mapError .db
      pure vk
  return getClaimKeypair skA s.privkeys.sk vkA s.privkeys.vk

variable (C)

def Keys.fromOngoing (db : RecoveryDB) (id : Bytes32) : Except RestartError (Keys C) := do
  let sk ← ongoingKeys C db id
  return {
    privkeys               := sk
    pubkeys                := sk.publicKeyPair C
    xmrtakerPublicSpendKey := none
    xmrtakerPrivateViewKey := none }

-- The keys that `completeSwap` claims with.
def completeSwapKeypair (db : RecoveryDB) (id : Bytes32) (skA : PrivateSpendKey) :
    Except RestartError PrivateKeyPair := do
  let (skB, vkB, vkA) ← storedKeys C db id
  return getClaimKeypair skA skB vkA vkB

end XMRMaker
