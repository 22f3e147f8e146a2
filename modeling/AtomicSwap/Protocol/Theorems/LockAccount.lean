import AtomicSwap.Protocol.Keys

open Monero DB Function
open Ethereum (Bytes32)

variable {C : Curve} {db : RecoveryDB} {id : Bytes32} {env : Environment}

-- The keys that a swap has written to the database when it knows the secret of the other side.
def storeKeys (db : RecoveryDB) (id : Bytes32) (own counterparty : PrivateKeyPair) : RecoveryDB :=
  let db := db.putSwapPrivateKey id own.sk
  let db := db.putCounterpartySwapKeys id (counterparty.sk.publicKey C) counterparty.vk
  db.putCounterpartySwapPrivateKey id counterparty.sk

variable (C) in
-- Both sides only use keys of their own that they have generated.
def Generated (kp : PrivateKeyPair) : Prop :=
  ∃ secret keys, generateKeysAndProof C secret = .ok keys ∧ keys.privateKeyPair = kp

section Stored

variable {own counterparty : PrivateKeyPair}

-- What is read from the database is what has been written to it.

theorem getSwapPrivateKey_stored :
    (storeKeys (C := C) db id own counterparty).getSwapPrivateKey id = .ok own.sk := by
  simp [storeKeys, RecoveryDB.getSwapPrivateKey, RecoveryDB.putSwapPrivateKey,
    RecoveryDB.putCounterpartySwapKeys, RecoveryDB.putCounterpartySwapPrivateKey, DB.get]

theorem getCounterpartySwapKeys_stored :
    (storeKeys (C := C) db id own counterparty).getCounterpartySwapKeys C id =
      .ok (counterparty.sk.publicKey C, counterparty.vk) := by
  simp [storeKeys, RecoveryDB.getCounterpartySwapKeys, RecoveryDB.putCounterpartySwapKeys,
    RecoveryDB.putCounterpartySwapPrivateKey, DB.get]

theorem getCounterpartySwapPrivateKey_stored :
    (storeKeys (C := C) db id own counterparty).getCounterpartySwapPrivateKey id =
      .ok counterparty.sk := by
  simp [storeKeys, RecoveryDB.getCounterpartySwapPrivateKey,
    RecoveryDB.putCounterpartySwapPrivateKey, DB.get]

theorem Generated.view (h : Generated C own) : own.sk.view C = .ok own.vk := by
  obtain ⟨_, _, hg, hk⟩ := h
  simp only [generateKeysAndProof, PrivateSpendKey.asPrivateKeyPair, Except.bind_ok_iff,
    Except.pure_ok_iff] at hg
  obtain ⟨_, _, _, ⟨_, hv, he⟩, hp⟩ := hg
  subst he hp hk
  exact hv

theorem ongoingKeys_stored (h : Generated C own) :
    ongoingKeys C (storeKeys (C := C) db id own counterparty) id = .ok own := by
  simp [ongoingKeys, getSwapPrivateKey_stored, PrivateSpendKey.asPrivateKeyPair, h.view]

theorem storedKeys_stored (h : Generated C own) :
    storedKeys C (storeKeys (C := C) db id own counterparty) id =
      .ok (own.sk, own.vk, counterparty.vk) := by
  simp [storedKeys, getSwapPrivateKey_stored, getCounterpartySwapKeys_stored, h.view]

end Stored

section Accounts

variable {kpA kpB : PrivateKeyPair}

-- All ways to add up the keys of both sides lead to the same keys.

theorem getClaimKeypair_comm {skA skB : PrivateSpendKey} {vkA vkB : PrivateViewKey} :
    getClaimKeypair skB skA vkB vkA = getClaimKeypair skA skB vkA vkB := by
  simp [getClaimKeypair, sumPrivateSpendKeys_comm skB, sumPrivateViewKeys_comm vkB]

theorem sum_publicKeyPair :
    sumSpendAndViewKeys (kpA.publicKeyPair C) (kpB.publicKeyPair C) =
      (getClaimKeypair kpA.sk kpB.sk kpA.vk kpB.vk).publicKeyPair C := by
  simp [sumSpendAndViewKeys, getClaimKeypair, PrivateKeyPair.publicKeyPair, sumPublicKeys_spend,
    sumPublicKeys_view]

theorem expectedXMRLockAccount_eq :
    XMRTaker.Keys.expectedXMRLockAccount
      ⟨kpA, kpA.publicKeyPair C, kpB.sk.publicKey C, kpB.vk⟩ env =
    ((getClaimKeypair kpA.sk kpB.sk kpA.vk kpB.vk).publicKeyPair C |>.address env,
      sumPrivateViewKeys kpA.vk kpB.vk) := by
  simp only [XMRTaker.Keys.expectedXMRLockAccount, PrivateKeyPair.publicKeyPair, getClaimKeypair,
    sumPublicKeys_spend, sumPrivateSpendKeys_comm kpB.sk, sumPrivateViewKeys_comm kpB.vk]

theorem takerOngoing_stored (h : Generated C kpA) :
    XMRTaker.Keys.fromOngoing C (storeKeys (C := C) db id kpA kpB) id =
      .ok ⟨kpA, kpA.publicKeyPair C, kpB.sk.publicKey C, kpB.vk⟩ := by
  simp [XMRTaker.Keys.fromOngoing, ongoingKeys_stored h, getCounterpartySwapKeys_stored]

end Accounts

-- The maker locks the XMR in the account that the taker watches and that both can claim from, also
-- after a restart.
theorem lock_account (kpA kpB : PrivateKeyPair) (id : Bytes32) (dbA dbB : RecoveryDB)
    (env : Environment) :
    let taker : XMRTaker.Keys C := ⟨kpA, kpA.publicKeyPair C, kpB.sk.publicKey C, kpB.vk⟩
    let maker : XMRMaker.Keys C :=
      ⟨kpB, kpB.publicKeyPair C, some (kpA.sk.publicKey C), some kpA.vk⟩
    let takerDB := storeKeys (C := C) dbA id kpA kpB
    let makerDB := storeKeys (C := C) dbB id kpB kpA
    let kpAB := getClaimKeypair kpA.sk kpB.sk kpA.vk kpB.vk
    let account := kpAB.publicKeyPair C |>.address env
    maker.swapDestAddr env = some account ∧
    (taker.expectedXMRLockAccount env).fst = account ∧
    taker.claimKeypair kpB.sk = kpAB ∧
    (∀ db, maker.reclaimKeypair db id kpA.sk = .ok kpAB) ∧
    (Generated C kpA →
      XMRTaker.Keys.fromOngoing C takerDB id = .ok taker ∧
      takerDB.getCounterpartySwapPrivateKey id = .ok kpB.sk ∧
      XMRTaker.completeSwapKeypair C takerDB id kpB.sk = .ok kpAB) ∧
    (Generated C kpB →
      (∃ s, XMRMaker.Keys.fromOngoing C makerDB id = .ok s ∧
        s.reclaimKeypair makerDB id kpA.sk = .ok kpAB) ∧
      makerDB.getCounterpartySwapPrivateKey id = .ok kpA.sk ∧
      XMRMaker.completeSwapKeypair C makerDB id kpA.sk = .ok kpAB) := by
  intro taker maker takerDB makerDB kpAB account
  refine ⟨congrArg some ?_, congrArg Prod.fst expectedXMRLockAccount_eq, getClaimKeypair_comm,
    fun _ => rfl, fun hA => ⟨takerOngoing_stored hA, getCounterpartySwapPrivateKey_stored, ?_⟩,
    fun hB => ⟨?_, getCounterpartySwapPrivateKey_stored, ?_⟩⟩
  · exact congrArg (PublicKeyPair.address · env) <| sum_publicKeyPair (C := C)
  · simp [XMRTaker.completeSwapKeypair, takerDB, storedKeys_stored hA, kpAB]
  · simp [XMRMaker.Keys.fromOngoing, makerDB, ongoingKeys_stored hB, XMRMaker.Keys.reclaimKeypair,
      getCounterpartySwapKeys_stored, kpAB]
  · simp [XMRMaker.completeSwapKeypair, makerDB, storedKeys_stored hB, kpAB]

namespace Sample

-- The scalars themselves are a group in which all laws hold.
def curve : Curve where
  Point              := Scalar
  add                := (· + ·)
  scalarBaseMult x   := x
  bytes              := Scalar.bytes
  setBytes bs        := (Scalar.setCanonicalBytes bs).toOption
  keccak256 bs       := bs
  scalarBaseMult_add := fun _ _ => rfl
  setBytes_bytes p   := by simp [Scalar.bytes, Scalar.setCanonicalBytes_le p.isLt, Except.toOption]

def keyPair (n : Fin 2) : PrivateKeyPair :=
  { sk := ⟨n.castLE (by decide)⟩, vk := ⟨n.castLE (by decide)⟩ }

theorem generated_keyPair (n : Fin 2) : Generated curve (keyPair n) := by
  have h : ∀ n : Fin 2, (generateKeysAndProof curve (Bytes.le 32 n)).map (·.privateKeyPair) =
      .ok (keyPair n) := by
    decide
  have h := h n
  cases hk : generateKeysAndProof curve (Bytes.le 32 n) <;> simp_all [Except.map]
  exact ⟨_, _, hk, h⟩

end Sample

theorem lock_account_restart :
    XMRTaker.completeSwapKeypair Sample.curve
      (storeKeys (C := Sample.curve) .empty 0 (Sample.keyPair 0) (Sample.keyPair 1)) 0
      (Sample.keyPair 1).sk =
    .ok (Sample.keyPair 1) := by
  have ⟨_, _, _, _, hA, _⟩ := lock_account (C := Sample.curve) (Sample.keyPair 0) (Sample.keyPair 1)
    0 .empty .empty .mainnet
  have ⟨_, _, hk⟩ := hA <| Sample.generated_keyPair 0
  exact hk.trans <| by decide
