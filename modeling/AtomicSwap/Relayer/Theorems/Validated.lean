import AtomicSwap.Relayer.Validate
import AtomicSwap.Ethereum.SwapCreator.Theorems.Custody

open Reentrant Code Function

namespace Ethereum.SwapCreator

variable {d : Deployment} {block : Block} {s s' : State} {sw : Swap} {secret : Bytes32} {msg : Msg}
  {relaySwap : RelaySwap} {relayer : Address} {salt : BitVec 32} {v : UInt8} {r t : Bytes32}

-- The secret of an open swap, in the time in which it can be claimed.
structure Claimable (d : Deployment) (block : Block) (s : State) (sw : Swap) (secret : Bytes32) :
    Prop where
  stage  : (s.swaps <| swapID d sw).IsOpen
  after  : sw.timeout1 ≤ block.timestamp ∨ s.swaps (swapID d sw) = .ready
  before : block.timestamp < sw.timeout2
  secret : Secp256k1.mulVerify d.host secret sw.claimCommitment

-- What a request to relay a claim needs for success, apart from the claim itself. The contract
-- cannot pay ether to itself.
structure Relayable (d : Deployment) (relaySwap : RelaySwap) (relayer : Address) (salt : BitVec 32)
    (v : UInt8) (r t : Bytes32) : Prop where
  signer  : d.host.ecrecover (d.host.keccak256 <| abiEncodeRelay relaySwap) v r t =
    relaySwap.swap.claimer
  creator : relaySwap.swapCreator = d.this
  hash    : relayerHash d relayer salt = relaySwap.relayerHash
  fee     : relaySwap.fee.toNat ≤ relaySwap.swap.value.toNat
  claimer : relaySwap.swap.claimer ≠ d.this
  relayer : relayer ≠ d.this

section Wp

variable {R : State → State → Prop} {Q : Unit → State → Prop} {E : Revert Error → Prop}
  {id : Bytes32} {dst : Address} {x : Uint256}

-- The state after a payment of the native coin.
def State.paid (s : State) (d : Deployment) (id : Bytes32) (dst : Address) (x : Uint256) : State :=
  { s with payouts  := update s.payouts id (s.payouts id ++ [(dst, x.toNat)])
           balances := s.balances.move native d.this dst x.toNat }

theorem wp_pay_native : wp R (pay d id native dst x) Q E s ↔
    (s.balances native d.this < x.toNat → E .lacksFunds) ∧
    (x.toNat ≤ s.balances native d.this →
      (dst = d.this → E .callFailed) ∧ (dst ≠ d.this → Q () (s.paid d id dst x))) := by
  simp [pay, State.paid]

theorem wp_claim_of_claimable (hc : Claimable d block s sw secret) :
    wp R (_claim d block sw secret) Q E s ↔
    Q () (s.mark (swapID d sw) .completed (.claimed (swapID d sw) secret)) := by
  have ⟨hi, hd⟩ := Stage.isOpen_iff.mp hc.stage
  have ha : ¬(block.timestamp < sw.timeout1 ∧ s.swaps (swapID d sw) ≠ .ready) :=
    fun ⟨hl, hr⟩ => hc.after.elim (BitVec.not_le.mpr hl ·) hr
  simp [_claim, checkClaim, verifySecret, emit, setStage, State.mark, hi, hd, ha, hc.before,
    hc.secret]

end Wp

section Relay

variable (hc : Claimable d block s relaySwap.swap secret) (hn : relaySwap.swap.asset = native)
include hc hn

-- A relayed claim of ether that succeeds has passed all checks.
theorem claimRelayer_inv
    (h : exec (step d block) ⟨.claimRelayer msg relaySwap secret relayer salt v r t, []⟩ s =
      .ok s') :
    Relayable d relaySwap relayer salt v r t ∧
    s'.payouts (swapID d relaySwap.swap) = s.payouts (swapID d relaySwap.swap) ++
      [(relaySwap.swap.claimer, relaySwap.swap.value.toNat - relaySwap.fee.toNat),
        (relayer, relaySwap.fee.toNat)] := by
  refine exec_nil_wp (E := fun _ => True)
    (Q := fun _ s' => Relayable d relaySwap relayer salt v r t ∧
      s'.payouts (swapID d relaySwap.swap) = s.payouts (swapID d relaySwap.swap) ++
        [(relaySwap.swap.claimer, relaySwap.swap.value.toNat - relaySwap.fee.toNat),
          (relayer, relaySwap.fee.toNat)]) ?_ h
  simp only [step, nonpayable, claimRelayer, hn, wp_bind, wp_revertIf, wp_lift,
    wp_claim_of_claimable hc, wp_pay_native, Uint256.sub_eq_ok, implies_true, true_and, and_true,
    Decidable.not_not]
  intro _ hs hthis hh rest hr _ hcl _ hrl
  refine ⟨⟨hs, hthis.symm, hh, by omega, hcl, hrl⟩, ?_⟩
  have hr : rest.toNat = relaySwap.swap.value.toNat - relaySwap.fee.toNat := by omega
  simp [State.paid, State.mark, hr]

theorem claimRelayer_ok (hr : Relayable d relaySwap relayer salt v r t) (hm : msg.value = 0)
    (hb : relaySwap.swap.value.toNat ≤ s.balances native d.this) :
    ∃ s', exec (step d block) ⟨.claimRelayer msg relaySwap secret relayer salt v r t, []⟩ s =
      .ok s' := by
  have hw : wp (· = ·) (step d block <| .claimRelayer msg relaySwap secret relayer salt v r t)
      (fun _ _ => True) (fun _ => False) s := by
    have hf := hr.fee
    simp only [step, nonpayable, claimRelayer, hn, wp_bind, wp_revertIf, wp_lift,
      wp_claim_of_claimable hc, wp_pay_native, Uint256.sub_eq_ok, hm, hr.signer, hr.creator,
      hr.hash, hr.claimer, hr.relayer, ne_eq, not_true_eq_false, true_imp_iff, true_and,
      not_false_eq_true, State.paid, State.mark, and_true, imp_false, implies_true, not_lt]
    refine ⟨fun rest hrest => ⟨by omega, fun _ => ?_⟩, fun e he => ?_⟩
    · have := Ledger.le_move_src (l := s.balances) (a := native) (v := rest.toNat)
        relaySwap.swap.claimer (by omega : _ ≤ s.balances native d.this)
      omega
    · simp only [Uint256.sub] at he
      split at he
      case isTrue  => cases he
      case isFalse => bv_omega
  obtain ⟨s', h, -⟩ := exec_nil_ok hw
  exact ⟨s', h⟩

end Relay

end Ethereum.SwapCreator

open Ethereum Ethereum.SwapCreator

namespace Relayer

variable {rec : Recovery} {check : Address → Bool} {request : RelayClaimRequest}
  {ourAddress ourSwapCreatorAddr : Address} {salt : BitVec 32}

-- What a request that was accepted is known to fulfil.
structure Validated (rec : Recovery) (request : RelayClaimRequest) (ourAddress : Address)
    (salt : BitVec 32) : Prop where
  asset  : request.relaySwap.swap.asset = native
  value  : relayerFeeWei < request.relaySwap.swap.value
  hash   : request.relaySwap.relayerHash = relayerAddressHash rec ourAddress salt
  fee    : relayerFeeWei ≤ request.relaySwap.fee
  signer : rec.ecrecover (request.relaySwap.hash rec.host) (request.signature.v - 27)
    request.signature.r request.signature.s = some request.relaySwap.swap.claimer

theorem validateClaimRequest_ok
    (h : validateClaimRequest rec check request ourAddress salt ourSwapCreatorAddr = .ok ()) :
    Validated rec request ourAddress salt := by
  simp only [validateClaimRequest, validateClaimValues, validateClaimSignature, Except.bind_ok_iff,
    Except.failIf_eq_ok, not_not, not_le, not_lt] at h
  obtain ⟨_, ⟨_, _, _, ha, _, hv, _, hh, hf⟩, signer, hs, rfl⟩ := h
  refine ⟨ha, hv, hh, hf, ?_⟩
  cases he : rec.ecrecover (request.relaySwap.hash rec.host) (request.signature.v - 27)
    request.signature.r request.signature.s
  case none   => simp [he] at hs
  case some a => simpa [he] using hs

-- The recovery ID is one that the EVM knows, the fee is paid from the value of the swap, and the
-- contract, which does not accept ether, is not one of the receivers.
structure Payable (request : RelayClaimRequest) (ourAddress : Address) : Prop where
  v       : request.signature.v = 27 ∨ request.signature.v = 28
  least   : relayerFeeWei ≤ request.relaySwap.pack.fee.toNat
  most    : request.relaySwap.pack.fee.toNat ≤ request.relaySwap.pack.swap.value.toNat
  claimer : request.relaySwap.swap.claimer ≠ request.relaySwap.swapCreator
  relayer : ourAddress ≠ request.relaySwap.swapCreator

variable {d : Deployment} {block : Block} {s : State} {S : Set Swap}
  {balances : Ledger Address Address} {txs : List (Block × Act SwapCreator.Call)}

theorem ecrecover_host {hash r t : Bytes32} {v : UInt8} {a : Address} (hv : v = 27 ∨ v = 28)
    (h : rec.ecrecover hash (v - 27) r t = some a) : rec.host.ecrecover hash v r t = a := by
  simp only [Recovery.ecrecover, Option.ite_none_left_eq_some] at h
  simp only [Recovery.host, if_pos hv, h.right, Option.getD_some]

-- A request that was accepted, for a swap that can be claimed, is paid for exactly if `Payable`
-- holds.
theorem relay_paid_iff (hd : d.host = rec.host) (inj : CollisionFree d S)
    (ht : ∀ tx ∈ txs, tx.snd.All (Call.Admissible d S tx.fst))
    (hS : request.relaySwap.pack.swap ∈ S) (hcr : request.relaySwap.swapCreator = d.this)
    (h : validateClaimRequest rec check request ourAddress salt ourSwapCreatorAddr = .ok ())
    (hc : Claimable d block (runTxs (step d) txs (.deployed balances))
      request.relaySwap.pack.swap request.secret) :
    (∃ s' fee, exec (step d block) ⟨claimRelayerCall request ourAddress salt, []⟩
        (runTxs (step d) txs (.deployed balances)) = .ok s' ∧ relayerFeeWei ≤ (fee : ℕ) ∧
      s'.payouts (swapID d request.relaySwap.pack.swap) =
        [(request.relaySwap.swap.claimer, request.relaySwap.pack.swap.value.toNat - fee),
          (ourAddress, fee)]) ↔
    Payable request ourAddress := by
  have hv := validateClaimRequest_ok h
  generalize hs : runTxs (step d) txs (.deployed balances) = s at hc ⊢
  have hw : s.WF d S := hs ▸ (runTxs_evolves ht).wf
  have hu : s.payouts (swapID d request.relaySwap.pack.swap) = [] := hw.unpaid_of_open hc.stage
  have hi := hw.swapOf_eq inj hS (Stage.isOpen_iff.mp hc.stage).left
  have hz : request.relaySwap.swap.claimer ≠ 0 := (hw.entry hi).valid.claimer
  constructor
  case mp =>
    rintro ⟨s', fee, he, hf, hp⟩
    obtain ⟨hr, hp'⟩ := claimRelayer_inv hc hv.asset he
    rw [hu, hp, List.nil_append] at hp'
    obtain rfl : fee = request.relaySwap.pack.fee.toNat := by simpa using congrArg (·.getLast?) hp'
    refine ⟨?_, hf, hr.fee, hcr ▸ hr.claimer, hcr ▸ hr.relayer⟩
    by_contra hne
    refine hz <| hr.signer.symm.trans ?_
    rw [hd]
    exact if_neg hne
  case mpr =>
    intro hp
    have hr : Relayable d request.relaySwap.pack ourAddress salt request.signature.v
        request.signature.r request.signature.s :=
      { signer  := by rw [hd]; exact ecrecover_host hp.v hv.signer
        creator := hcr
        hash    := by rw [relayerHash, hd]; exact hv.hash.symm
        fee     := hp.most
        claimer := hcr ▸ hp.claimer
        relayer := hcr ▸ hp.relayer }
    have hb : request.relaySwap.pack.swap.value.toNat ≤ s.balances native d.this := by
      have hb := (custody balances inj ht).left native (.inl rfl) {request.relaySwap.pack.swap}
      simp only [hs, Finset.mem_singleton, forall_eq, Finset.sum_singleton] at hb
      exact hb ⟨hS, hv.asset, hc.stage⟩
    obtain ⟨s', he⟩ : ∃ s', exec (step d block) ⟨claimRelayerCall request ourAddress salt, []⟩ s =
        .ok s' := claimRelayer_ok hc hv.asset hr rfl hb
    refine ⟨s', _, he, hp.least, ?_⟩
    rw [(claimRelayer_inv hc hv.asset he).right, hu]
    rfl

namespace Sample

-- All messages are signed by one key.
def recovery : Recovery where
  keccak256 _     := 1
  recover _ _ _ _ := some 0xB0B

def deployment : Deployment where
  host       := recovery.host
  this       := 0x5C
  standard _ := false

def funds : Ledger Address Address :=
  fun _ holder => if holder = 0xA11CE then 10 ^ 18 else 0

-- A swap of 0.02 ETH.
def swap : SwapCreatorSwap :=
  ⟨0xA11CE, 0xB0B, 0xB0B, 2, 1100, 1200, native, 2 * 10 ^ 16, 0⟩

def created : List (Block × Act SwapCreator.Call) :=
  [(⟨1000⟩, ⟨.newSwap ⟨0xA11CE, 2 * 10 ^ 16⟩ 0xB0B 2 0xB0B 100 100 native (2 * 10 ^ 16) 0, []⟩)]

def requestFor (fee : ℤ) : RelayClaimRequest where
  offerID   := none
  relaySwap := ⟨swap, fee, 1, 0x5C⟩
  secret    := 5
  signature := ⟨3, 4, 27⟩

end Sample

-- The fee of an accepted request is larger than the value of the swap.
theorem relay_reverts : let request := Sample.requestFor (2 * 10 ^ 16 + 1)
    validateClaimRequest Sample.recovery (fun _ => true) request 0x4E1A7E 7 0x5C = .ok () ∧
    (exec (step Sample.deployment ⟨1100⟩) ⟨claimRelayerCall request 0x4E1A7E 7, []⟩
      (runTxs (step Sample.deployment) Sample.created (.deployed Sample.funds))).map
      (fun _ => ()) = .error .overflow := by
  decide

theorem relay_paid_iff_least : let request := Sample.requestFor (10 ^ 16)
    ∃ s' fee, exec (step Sample.deployment ⟨1100⟩) ⟨claimRelayerCall request 0x4E1A7E 7, []⟩
        (runTxs (step Sample.deployment) Sample.created (.deployed Sample.funds)) = .ok s' ∧
      relayerFeeWei ≤ (fee : ℕ) ∧
      s'.payouts (swapID Sample.deployment request.relaySwap.pack.swap) =
        [(0xB0B, request.relaySwap.pack.swap.value.toNat - fee), (0x4E1A7E, fee)] := by
  have ht : ∀ tx ∈ Sample.created, tx.snd.All (Call.Admissible Sample.deployment
      {(Sample.requestFor (10 ^ 16)).relaySwap.pack.swap} tx.fst) := by
    simp only [Sample.created, List.mem_cons, List.not_mem_nil, or_false, forall_eq]
    exact .mk ⟨by decide, by decide⟩ (by simp)
  have h : validateClaimRequest Sample.recovery (fun _ => true) (Sample.requestFor (10 ^ 16))
      0x4E1A7E 7 0x5C = .ok () := by decide
  have hc : Claimable Sample.deployment ⟨1100⟩
      (runTxs (step Sample.deployment) Sample.created (.deployed Sample.funds))
      (Sample.requestFor (10 ^ 16)).relaySwap.pack.swap 5 :=
    ⟨by decide, by decide, by decide, by decide⟩
  exact (relay_paid_iff rfl (Set.injOn_singleton ..) ht rfl rfl h hc).mpr
    ⟨by decide, by decide, by decide, by decide, by decide⟩

end Relayer
