import AtomicSwap.Crypto.DLEq
import AtomicSwap.Ethereum.SwapCreator.Theorems.Secrets
import AtomicSwap.Protocol.Theorems.LockAccount

open DB Ethereum SwapCreator

variable {C : Monero.Curve}

inductive GenerateError
  | verify
  | key (e : Monero.KeyError)
  deriving DecidableEq

-- The keys that are generated for a swap, with those for the contract.
structure SwapKeys (C : Monero.Curve) extends KeysAndProof C where
  dleqProof          : DLEq.Proof
  secp256k1PublicKey : PublicKey

-- `GenerateKeysAndProof` as a whole.
def generateSwapKeys (lib : DLEq.Library C) (x : Monero.Scalar) :
    Except GenerateError (SwapKeys C) := do
  let proof := lib.prove x
  let some res := lib.verify proof.proof | .error .verify
  let keys ← (generateKeysAndProof C proof.secret.reverse).mapError .key
  return { keys with dleqProof := proof, secp256k1PublicKey := res.secp256k1Pub }

-- After a restart there is no proof.

def XMRMaker.getSecret (dleqProof : Option DLEq.Proof) (privkeys : Monero.PrivateKeyPair) :
    List UInt8 :=
  match dleqProof with
  | some proof => proof.secret
  | none       => DLEq.copy32 privkeys.sk.key.bytes.reverse

-- The conversion to an array panics if there are not enough bytes.
def XMRTaker.getSecret (dleqProof : Option DLEq.Proof) (privkeys : Monero.PrivateKeyPair) :
    Option (List UInt8) :=
  match dleqProof with
  | none       =>
    let bs := privkeys.sk.key.bytes.reverse
    if bs.length < 32 then none else some (bs.take 32)
  | some proof => some (DLEq.copy32 proof.secret)

-- The bytes as they are sent to the contract.
def toWord (bs : List UInt8) : Bytes32 :=
  .ofNat 256 (Bytes.beValue bs)

variable {lib : DLEq.Library C} {x : Monero.Scalar} {keys : SwapKeys C} {id : Bytes32}

theorem toNat_toWord : (toWord (Bytes.be 32 x)).toNat = x := by
  have hl : x.val < 2 ^ 256 := x.isLt.trans (by decide)
  rw [toWord, Bytes.beValue_be, BitVec.toNat_ofNat, Nat.mod_mod_of_dvd _ (by decide)]
  exact Nat.mod_eq_of_lt hl

theorem generateSwapKeys_ok (lib : DLEq.Library C) (x : Monero.Scalar) :
    ∃ keys, generateSwapKeys lib x = .ok keys ∧ keys.privateKeyPair.sk = ⟨x⟩ ∧
      keys.dleqProof = lib.prove x ∧ keys.secp256k1PublicKey = lib.secp256k1 x ∧
      Generated C keys.privateKeyPair := by
  have hl : x.val < 256 ^ 32 := x.isLt.trans (by decide)
  have hs : (lib.prove x).secret.reverse = Bytes.le 32 x := by simp [DLEq.prove_secret, Bytes.be]
  have hk : Monero.newPrivateSpendKey (Bytes.le 32 x) = .ok ⟨x⟩ :=
    (Monero.newPrivateSpendKey_le_eq_ok hl).mpr rfl
  obtain ⟨vk, hv⟩ := Monero.PrivateSpendKey.view_isOk (C := C) ⟨x⟩
  have hg : generateKeysAndProof C (Bytes.le 32 x) =
      .ok ⟨⟨⟨x⟩, vk⟩, Monero.PrivateKeyPair.publicKeyPair C ⟨⟨x⟩, vk⟩⟩ := by
    simp [generateKeysAndProof, hk, Monero.PrivateSpendKey.asPrivateKeyPair, hv, Bind.bind,
      Except.bind, Pure.pure, Except.pure]
  refine ⟨⟨⟨⟨⟨x⟩, vk⟩, _⟩, lib.prove x, lib.secp256k1 x⟩, ?_, rfl, rfl, rfl, _, _, hg, rfl⟩
  have hp : lib.verify (lib.prove x).proof = some ⟨⟨C.scalarBaseMult x⟩, lib.secp256k1 x⟩ :=
    lib.verify_newProof x
  simp only [generateSwapKeys, hp, hs, hg]
  rfl

-- The secret that is sent to the contract, with and without the proof.

theorem getSecret_proof (lib : DLEq.Library C) (x : Monero.Scalar) (kp : Monero.PrivateKeyPair) :
    XMRMaker.getSecret (some (lib.prove x)) kp = Bytes.be 32 x ∧
    XMRTaker.getSecret (some (lib.prove x)) kp = some (Bytes.be 32 x) := by
  simp [XMRMaker.getSecret, XMRTaker.getSecret, DLEq.prove_secret, DLEq.copy32_eq]

theorem getSecret_spendKey {kp : Monero.PrivateKeyPair} (h : kp.sk = ⟨x⟩) :
    XMRMaker.getSecret none kp = Bytes.be 32 x ∧
    XMRTaker.getSecret none kp = some (Bytes.be 32 x) := by
  have hb : kp.sk.key.bytes.reverse = Bytes.be 32 x := by rw [h]; rfl
  have hl : (Bytes.be 32 x.val).length = 32 := Bytes.length_be ..
  simp only [XMRMaker.getSecret, XMRTaker.getSecret, hb, DLEq.copy32_eq hl, hl]
  simp [List.take_of_length_le]

-- A record of the database is read as it was written, whatever else has been written.
theorem ongoingKeys_put {db db' : RecoveryDB} {kp : Monero.PrivateKeyPair} (hg : Generated C kp)
    (h : db'.swapPrivateKey id = (db.putSwapPrivateKey id kp.sk).swapPrivateKey id) :
    ongoingKeys C db' id = .ok kp := by
  have hk : db'.getSwapPrivateKey id = .ok kp.sk := by
    simp [RecoveryDB.getSwapPrivateKey, DB.get, h, RecoveryDB.putSwapPrivateKey]
  simp [ongoingKeys, hk, Monero.PrivateSpendKey.asPrivateKeyPair, hg.view]

-- The contract takes the secret for the commitment to the generated key.
theorem mulVerify_secret {host : Host} (hx : x.val ≠ 0)
    (hr : Secp256k1.Recovers host fun n => (lib.secp256k1 n).keccak256 host) :
    Secp256k1.mulVerify host (toWord (Bytes.be 32 x)) ((lib.secp256k1 x).keccak256 host) := by
  have hl : Monero.l < Secp256k1.m.toNat := by decide
  have hm : x.val % Secp256k1.m.toNat = x := Nat.mod_eq_of_lt (x.isLt.trans hl)
  rw [Secp256k1.mulVerify, Secp256k1.ecrecover_mulmod hr, toNat_toWord, hm, if_neg hx]
  exact beq_self_eq_true _

-- Both sides send the same secret before and after a restart. It opens the commitment to the key
-- that was generated with it, and the other side reads it from the log.
theorem secret_survives (lib : DLEq.Library C) (hx : x.val ≠ 0) :
    ∃ keys, generateSwapKeys lib x = .ok keys ∧
      ∀ db db' id, db'.swapPrivateKey id =
          (RecoveryDB.putSwapPrivateKey db id keys.privateKeyPair.sk).swapPrivateKey id →
        ∃ kp, ongoingKeys C db' id = .ok kp ∧
          XMRMaker.getSecret (some keys.dleqProof) keys.privateKeyPair = Bytes.be 32 x ∧
          XMRMaker.getSecret none kp = Bytes.be 32 x ∧
          XMRTaker.getSecret (some keys.dleqProof) keys.privateKeyPair = some (Bytes.be 32 x) ∧
          XMRTaker.getSecret none kp = some (Bytes.be 32 x) ∧
          keys.secp256k1PublicKey = lib.secp256k1 x ∧
          (∀ host, Secp256k1.Recovers host (fun n => (lib.secp256k1 n).keccak256 host) →
            Secp256k1.mulVerify host (toWord (Bytes.be 32 x))
              (keys.secp256k1PublicKey.keccak256 host)) ∧
          ∀ log topic, topic = claimedTopic ∨ topic = refundedTopic →
            log.topics[2]? = some (toWord (Bytes.be 32 x)) →
            getSecretFromLog log topic = .ok ⟨x⟩ := by
  obtain ⟨keys, hk, hsk, hp, hpub, hg⟩ := generateSwapKeys_ok lib x
  refine ⟨keys, hk, fun db db' id hdb => ⟨keys.privateKeyPair, ongoingKeys_put hg hdb, ?_⟩⟩
  obtain ⟨hm, ht⟩ := getSecret_proof lib x keys.privateKeyPair
  obtain ⟨hm', ht'⟩ := getSecret_spendKey hsk
  rw [hp, hpub]
  refine ⟨hm, hm', ht, ht', rfl, fun host hr => mulVerify_secret hx hr, fun log topic hl hs => ?_⟩
  exact (getSecretFromLog_eq_ok hl hs hx).mpr toNat_toWord

namespace Sample

-- A point is given by its logarithm, and the proof for a point is this number.
def library : DLEq.Library curve where
  secp256k1 n       := ⟨.ofNat 256 n, 0⟩
  newProof          := Monero.Scalar.bytes
  verify bs         := (Monero.Scalar.setCanonicalBytes bs).toOption.map fun x =>
    ⟨⟨x⟩, .ofNat 256 x.val, 0⟩
  verify_newProof x := by
    simp [Monero.Scalar.bytes, Monero.Scalar.setCanonicalBytes_le x.isLt, Except.toOption, curve]

end Sample

theorem secret_survives_restart :
    ∃ keys, generateSwapKeys Sample.library ⟨1, by decide⟩ = .ok keys ∧
      ∃ kp, ongoingKeys Sample.curve
          (RecoveryDB.putSwapPrivateKey .empty 7 keys.privateKeyPair.sk) 7 = .ok kp ∧
        XMRMaker.getSecret none kp = Bytes.be 32 1 := by
  obtain ⟨keys, hk, h⟩ := secret_survives (x := ⟨1, by decide⟩) Sample.library (by decide)
  obtain ⟨kp, hkp, _, hm, _⟩ := h .empty _ 7 rfl
  exact ⟨keys, hk, kp, hkp, hm⟩
