import AtomicSwap.Ethereum.SwapCreator.Theorems.Progress
import AtomicSwap.Relayer.Request

open Reentrant Ethereum Ethereum.SwapCreator

namespace Relayer

-- The signer can be recovered from the signatures of a key, of which only two kinds are made.
structure EthKey.Sound (key : EthKey) (rec : Recovery) : Prop where
  v      : ∀ {digest sig}, key.sign digest = some sig → sig.v = 0 ∨ sig.v = 1
  signer : ∀ {digest sig}, key.sign digest = some sig →
    rec.recover digest sig.v sig.r sig.s = some key.address

-- What the request of a maker says about its swap, apart from the signature.
structure Proper (rec : Recovery) (contract relayer : Address) (salt : BitVec 32)
    (relaySwap : SwapCreatorRelaySwap) : Prop where
  asset   : relaySwap.swap.asset = native
  value   : relayerFeeWei < relaySwap.swap.value ∧ relaySwap.swap.value < 2 ^ 256
  fee     : relaySwap.fee = relayerFeeWei
  hash    : relaySwap.relayerHash = relayerAddressHash rec relayer salt
  creator : relaySwap.swapCreator = contract
  apart   : relaySwap.swap.claimer ≠ contract ∧ relayer ≠ contract

variable {rec : Recovery} {check : Address → Bool} {key : EthKey} {relaySwap : SwapCreatorRelaySwap}
  {secret : Bytes32} {request : RelayClaimRequest} {offerID : Option Bytes32} {relayer : Address}
  {salt : BitVec 32} {d : Deployment} {block : Block} {s : State} {S : Set Swap}

theorem Proper.toNat_fee {contract : Address} (hp : Proper rec contract relayer salt relaySwap) :
    relaySwap.pack.fee.toNat = 10 ^ 16 :=
  (congrArg (fun n => (BitVec.ofInt 256 n).toNat) hp.fee).trans (by decide)

theorem createRelayClaimRequest_eq_ok :
    createRelayClaimRequest rec.host key relaySwap secret = .ok request ↔
    relaySwap.swap.claimer = key.address ∧ ∃ sig, key.sign (relaySwap.hash rec.host) = some sig ∧
      ⟨none, relaySwap, secret, { sig with v := sig.v + 27 }⟩ = request := by
  simp only [createRelayClaimRequest, createRelayClaimSignature, sign, Except.bind_ok_iff,
    Except.failIf_eq_ok, Except.pure_ok_iff, exists_const, ne_eq, Decidable.not_not, and_assoc]
  cases hs : key.sign (relaySwap.hash rec.host) <;> simp

section

variable (hk : key.Sound rec)
  (hr : createRelayClaimRequest rec.host key relaySwap secret = .ok request)
include hk hr

-- The relayer recovers the claimer, and so does the contract.
theorem signer_recovered :
    rec.ecrecover (relaySwap.hash rec.host) (request.signature.v - 27) request.signature.r
      request.signature.s = some relaySwap.swap.claimer ∧
    (request.signature.v = 27 ∨ request.signature.v = 28) := by
  obtain ⟨hc, sig, hs, rfl⟩ := createRelayClaimRequest_eq_ok.mp hr
  have hg := hk.signer hs
  rw [hc]
  obtain hv | hv := hk.v hs <;> simp_all [Recovery.ecrecover]

theorem proper_validated (hp : Proper rec d.this relayer salt relaySwap) :
    validateClaimRequest rec check { request with offerID } relayer salt d.this = .ok () := by
  obtain ⟨hs, -⟩ := signer_recovered hk hr
  obtain ⟨-, sig, -, rfl⟩ := createRelayClaimRequest_eq_ok.mp hr
  simp only at hs
  simp only [validateClaimRequest, validateClaimValues, validateSwapCreator, validateClaimSignature,
    Except.bind_ok_iff, Except.failIf_eq_ok, hp.creator, if_true, hp.asset, hp.hash, hp.fee, hs,
    Option.elim_some, exists_const, true_and, ne_eq, not_true_eq_false, not_false_eq_true, and_true,
    Except.ok.injEq, exists_eq_left', gt_iff_lt, ge_iff_le, not_le, lt_irrefl]
  exact hp.value.left

-- The contract accepts the claim from this relayer.
theorem proper_relayable (hd : d.host = rec.host) (hp : Proper rec d.this relayer salt relaySwap) :
    Relayable d relaySwap.pack relayer salt request.signature.v request.signature.r
      request.signature.s := by
  obtain ⟨hs, hv⟩ := signer_recovered hk hr
  have hf := hp.toNat_fee
  have hw : (relaySwap.pack.swap.value.toNat : ℤ) = relaySwap.swap.value :=
    Abi.toNat_ofInt ⟨(by decide : (0 : ℤ) ≤ relayerFeeWei).trans hp.value.left.le, hp.value.right⟩
  refine ⟨?_, hp.creator, ?_, ?_, hp.apart.left, hp.apart.right⟩
  · rw [hd]
    exact ecrecover_host hv hs
  · rw [relayerHash, hd]
    exact hp.hash.symm
  · have hl := hp.value.left
    rw [relayerFeeWei] at hl
    omega

end

variable {balances : Ledger Address Address} {txs : List (Block × Act SwapCreator.Call)}

-- The request of an honest maker to an honest relayer passes the checks of the relayer, and the
-- claim that is made for it succeeds. Nobody else can use the request: a claim with its signature
-- pays the fee to an address with the hash that this relayer has sent.
theorem honest_request_paid (hd : d.host = rec.host) (inj : CollisionFree d S)
    (ht : ∀ tx ∈ txs, tx.snd.All (Call.Admissible d S tx.fst))
    (hs : s = runTxs (step d) txs (.deployed balances)) (hk : key.Sound rec)
    (hr : createRelayClaimRequest rec.host key relaySwap secret = .ok request)
    (hp : Proper rec d.this relayer salt relaySwap) (hm : relaySwap.pack.swap ∈ S)
    (hc : Claimable d block s relaySwap.pack.swap secret) (check : Address → Bool)
    (offerID : Option Bytes32) :
    validateClaimRequest rec check { request with offerID } relayer salt d.this = .ok () ∧
    (∃ s', exec (step d block)
        ⟨claimRelayerCall { request with offerID } relayer salt, []⟩ s = .ok s' ∧
      s'.payouts (swapID d relaySwap.pack.swap) =
        [(key.address, relaySwap.pack.swap.value.toNat - 10 ^ 16), (relayer, 10 ^ 16)]) ∧
    ∀ msg relayer' salt' s', exec (step d block) ⟨.claimRelayer msg relaySwap.pack secret relayer'
        salt' request.signature.v request.signature.r request.signature.s, []⟩ s = .ok s' →
      relayerHash d relayer' salt' = relayerHash d relayer salt := by
  have hq : Relayable d relaySwap.pack relayer salt request.signature.v request.signature.r
      request.signature.s := proper_relayable hk hr hd hp
  obtain ⟨hu, hb⟩ := funded_of_open inj ht hs hm (.inl hp.asset) hc.stage
  refine ⟨proper_validated hk hr hp, ?_, fun msg relayer' salt' s' he => ?_⟩
  · obtain ⟨hca, sig, -, rfl⟩ := createRelayClaimRequest_eq_ok.mp hr
    obtain ⟨s', he⟩ := claimRelayer_ok hc hp.asset hq (rfl : (⟨relayer, 0⟩ : Msg).value = 0)
      (hp.asset ▸ hb)
    refine ⟨s', he, ?_⟩
    rw [(claimRelayer_inv hc hp.asset he).right, hu, hp.toNat_fee]
    simp [SwapCreatorRelaySwap.pack, SwapCreatorSwap.pack, hca]
  · exact (claimRelayer_inv hc hp.asset he).left.hash.trans hq.hash.symm

namespace Sample

def makerKey : EthKey where
  address := 0xB0B
  sign _  := some ⟨3, 4, 0⟩

theorem makerKey_sound : makerKey.Sound recovery where
  v h      := by obtain rfl := Option.some.inj h; exact .inl rfl
  signer _ := rfl

theorem proper : Proper recovery 0x5C 0x4E1A7E 7 ⟨swap, 10 ^ 16, 1, 0x5C⟩ :=
  ⟨rfl, by decide, rfl, rfl, rfl, by decide⟩

end Sample

theorem honest_request_paid_sample :
    ∃ s', exec (step Sample.deployment ⟨1100⟩)
        ⟨claimRelayerCall (Sample.requestFor (10 ^ 16)) 0x4E1A7E 7, []⟩
        (runTxs (step Sample.deployment) Sample.created (.deployed Sample.funds)) = .ok s' ∧
      s'.payouts (swapID Sample.deployment Sample.swap.pack) =
        [(0xB0B, 10 ^ 16), (0x4E1A7E, 10 ^ 16)] := by
  have ht : ∀ tx ∈ Sample.created,
      tx.snd.All (Call.Admissible Sample.deployment {Sample.swap.pack} tx.fst) := by
    simp only [Sample.created, List.mem_cons, List.not_mem_nil, or_false, forall_eq]
    exact .mk ⟨by decide, by decide⟩ (by simp)
  have hc : Claimable Sample.deployment ⟨1100⟩
      (runTxs (step Sample.deployment) Sample.created (.deployed Sample.funds))
      Sample.swap.pack 5 :=
    ⟨by decide, by decide, by decide, by decide⟩
  have hr : createRelayClaimRequest Sample.recovery.host Sample.makerKey
      ⟨Sample.swap, 10 ^ 16, 1, 0x5C⟩ 5 = .ok (Sample.requestFor (10 ^ 16)) := by decide
  exact (honest_request_paid rfl (Set.injOn_singleton ..) ht rfl Sample.makerKey_sound hr
    Sample.proper rfl hc (fun _ => true) none).right.left

end Relayer
