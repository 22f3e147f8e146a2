import AtomicSwap.Ethereum.SwapCreator.Theorems.Custody
import AtomicSwap.Library.Reentrant.Frame

open Reentrant Code Function

namespace Ethereum.SwapCreator

-- The swap that a call pays out.
def Call.settles : Call → Option Swap
  | claim _ swap _ | refund _ swap _      => some swap
  | claimRelayer _ relaySwap ..           => some relaySwap.swap
  | newSwap .. | setReady .. | outside .. => none

variable (d : Deployment) (S : Set Swap) (id : Bytes32)

def Call.settledID (c : Call) : Option Bytes32 :=
  c.settles.map (swapID d)

def settlements (h : Journal) : Journal :=
  h.filter fun e => e.call.settledID d = some id

-- What the contract has checked of a relayed claim, and how it has moved the asset.
structure Relayed
    (relaySwap : RelaySwap) (relayer : Address) (salt : BitVec 32) (v : UInt8) (r s : Bytes32)
    (before after : State) : Prop where
  signer  : d.host.ecrecover (d.host.keccak256 <| abiEncodeRelay relaySwap) v r s =
    relaySwap.swap.claimer
  creator : relaySwap.swapCreator = d.this
  hash    : relayerHash d relayer salt = relaySwap.relayerHash
  stage   : (before.swaps <| swapID d relaySwap.swap).IsOpen
  fee     : relaySwap.fee.toNat ≤ relaySwap.swap.value.toNat
  moved   : d.Holds relaySwap.swap.asset → after.balances =
    (before.balances.move relaySwap.swap.asset d.this relaySwap.swap.claimer
      (relaySwap.swap.value.toNat - relaySwap.fee.toNat)).move
    relaySwap.swap.asset d.this relayer relaySwap.fee.toNat

-- A call that has settled a swap, and all that is paid out for it.
inductive Settles (e : Entry Block Call State) : List (Address × ℕ) → Prop
  | claim {msg : Msg} {sw : Swap} {secret : Bytes32} :
    e.call = .claim msg sw secret → msg.sender = sw.claimer →
    Settles e [(sw.claimer, sw.value.toNat)]
  | relayed {msg : Msg} {relaySwap : RelaySwap} {secret : Bytes32} {relayer : Address}
    {salt : BitVec 32} {v : UInt8} {r s : Bytes32} :
    e.call = .claimRelayer msg relaySwap secret relayer salt v r s → relaySwap.swap ∈ S →
    Relayed d relaySwap relayer salt v r s e.before e.after →
    Settles e [(relaySwap.swap.claimer, relaySwap.swap.value.toNat - relaySwap.fee.toNat),
      (relayer, relaySwap.fee.toNat)]
  | refund {msg : Msg} {sw : Swap} {secret : Bytes32} :
    e.call = .refund msg sw secret → msg.sender = sw.owner →
    Settles e [(sw.owner, sw.value.toNat)]

-- A swap is settled by one call, and by none before it is completed.
structure TracksSettlement (p : State × Journal) : Prop where
  settled : p.fst.swaps id = .completed →
    ∃ e, settlements d id p.snd = [e] ∧ Settles d S e (p.fst.payouts id)
  unpaid  : p.fst.swaps id ≠ .completed →
    settlements d id p.snd = [] ∧ p.fst.payouts id = []

structure SettleGuarantee (p p' : State × Journal) : Prop where
  kept   : p.fst.swaps id = .completed →
    p'.fst.swaps id = .completed ∧ p'.fst.payouts id = p.fst.payouts id ∧
    settlements d id p'.snd = settlements d id p.snd
  tracks : p.fst.swaps id ≠ .completed → TracksSettlement d S id p → TracksSettlement d S id p'

variable {d S id} {block : Block} {c : Call} {s s' : State} {h : Journal}
  {p p' p₁ p₂ p₃ : State × Journal}

theorem TracksSettlement.guarantee (h : SettleGuarantee d S id p p')
    (ht : TracksSettlement d S id p) : TracksSettlement d S id p' := by
  by_cases hc : p.fst.swaps id = .completed
  case neg => exact h.tracks hc ht
  case pos =>
    have ⟨hc', hp, hs⟩ := h.kept hc
    exact ⟨fun _ => hp ▸ hs ▸ ht.settled hc, fun hn => absurd hc' hn⟩

theorem SettleGuarantee.refl (p : State × Journal) : SettleGuarantee d S id p p :=
  ⟨fun hc => ⟨hc, rfl, rfl⟩, fun _ ht => ht⟩

theorem SettleGuarantee.trans (h₁ : SettleGuarantee d S id p₁ p₂)
    (h₂ : SettleGuarantee d S id p₂ p₃) : SettleGuarantee d S id p₁ p₃ where
  kept hc := by
    have ⟨hc, hp₁, hs₁⟩ := h₁.kept hc
    have ⟨hc, hp₂, hs₂⟩ := h₂.kept hc
    exact ⟨hc, hp₂.trans hp₁, hs₂.trans hs₁⟩
  tracks hn ht := (h₁.tracks hn ht).guarantee h₂

theorem SettleGuarantee.of_eq (hs : s.swaps id = .completed ↔ s'.swaps id = .completed)
    (hp : s.payouts id = s'.payouts id) : SettleGuarantee d S id (s, h) (s', h) where
  kept hc := ⟨hs.mp hc, hp.symm, rfl⟩
  tracks hn ht :=
    ⟨fun hc => absurd (hs.mpr hc) hn, fun _ => ⟨ht.unpaid hn |>.left, hp ▸ (ht.unpaid hn).right⟩⟩

-- A call about another swap is noted.
theorem SettleGuarantee.record (hg : SettleGuarantee d S id p p') (hn : c.settledID d ≠ some id) :
    SettleGuarantee d S id p (p'.fst, p'.snd ++ [⟨block, c, p.fst, p'.fst⟩]) := by
  have hs : settlements d id (p'.snd ++ [⟨block, c, p.fst, p'.fst⟩]) = settlements d id p'.snd := by
    simp [settlements, List.filter_append, hn]
  refine ⟨fun hc => hs ▸ hg.kept hc, fun hc ht => ?_⟩
  have ht := hg.tracks hc ht
  exact ⟨fun hc => hs ▸ ht.settled hc, fun hc => hs ▸ ht.unpaid hc⟩

-- A call leaves other swaps as they are, as far as their settlement is concerned.
def Settlement.view (id : Bytes32) (s : State) : Prop × List (Address × ℕ) :=
  (s.swaps id = .completed, s.payouts id)

section Leaves

open Settlement

variable {msg : Msg} {sw : Swap}

theorem payable_leaves : Leaves (view id) (payable d msg) :=
  leaves_bind leaves_get fun _ => leaves_bind leaves_revertIf fun _ => leaves_modify fun _ => rfl

theorem lockAsset_leaves {asset : Address} {v : Uint256} :
    Leaves (view id) (lockAsset d msg asset v) :=
  leaves_ite leaves_revertIf <| leaves_ite
    (leaves_bind leaves_get fun _ => leaves_bind leaves_revertIf fun _ =>
      leaves_modify fun _ => rfl)
    leaves_handOver

-- A swap that exists is not created again.
theorem createSwap_leaves : Leaves (view id) (createSwap d sw) := by
  intro s
  change stretches _ _ s _ s
  simp only [createSwap, emit, setStage, stretches_get_bind, stretches_revertIf_bind,
    stretches_modify_bind, stretches_pure, view, Decidable.not_not]
  intro hi
  by_cases he : id = swapID d sw
  case pos => subst he; simp [hi]
  case neg => simp [he]

theorem newSwap_leaves {ck rk : Bytes32} {claimer asset : Address} {d₁ d₂ value nonce : Uint256} :
    Leaves (view id) (newSwap d block msg ck rk claimer d₁ d₂ asset value nonce) :=
  leaves_bind leaves_revertIf fun _ => leaves_bind lockAsset_leaves fun _ =>
  leaves_bind leaves_revertIf fun _ => leaves_bind leaves_revertIf fun _ =>
  leaves_bind leaves_revertIf fun _ => leaves_bind leaves_lift fun _ =>
  leaves_bind leaves_lift fun _ => createSwap_leaves

-- The stage that `setReady` writes does not settle the swap.
theorem setReady_leaves : Leaves (view id) (setReady d msg sw) := by
  intro s
  change stretches _ _ s _ s
  simp only [setReady, emit, setStage, stretches_get_bind, stretches_revertIf_bind,
    stretches_modify_bind, stretches_modify, view, Decidable.not_not]
  intro hp _
  by_cases he : id = swapID d sw
  case pos => subst he; simp [hp]
  case neg => simp [he]

section Other

variable {secret id' : Bytes32} (hn : id ≠ id')

include hn

theorem setStage_leaves {stage : Stage} : Leaves (view id) (setStage id' stage) :=
  leaves_modify fun s => by simp [view, hn]

theorem pay_leaves {asset dst : Address} {v : Uint256} :
    Leaves (view id) (pay d id' asset dst v) :=
  leaves_bind (leaves_modify fun s => by simp [view, hn]) fun _ => leaves_ite
    (leaves_bind leaves_get fun _ => leaves_bind leaves_revertIf fun _ =>
      leaves_bind leaves_revertIf fun _ => leaves_modify fun _ => rfl)
    leaves_handOver

end Other

theorem _claim_leaves {secret : Bytes32} (hn : id ≠ swapID d sw) :
    Leaves (view id) (_claim d block sw secret) :=
  leaves_bind
    (leaves_bind leaves_get fun _ => leaves_bind leaves_revertIf fun _ =>
      leaves_bind leaves_revertIf fun _ => leaves_bind leaves_revertIf fun _ =>
      leaves_bind leaves_revertIf fun _ => leaves_revertIf) fun _ =>
  leaves_bind (leaves_modify fun _ => rfl) fun _ => setStage_leaves hn

theorem refund_leaves {secret : Bytes32} (hn : id ≠ swapID d sw) :
    Leaves (view id) (refund d block msg sw secret) :=
  leaves_bind
    (leaves_bind leaves_get fun _ => leaves_bind leaves_revertIf fun _ =>
      leaves_bind leaves_revertIf fun _ => leaves_bind leaves_revertIf fun _ =>
      leaves_bind leaves_revertIf fun _ => leaves_revertIf) fun _ =>
  leaves_bind (leaves_modify fun _ => rfl) fun _ =>
  leaves_bind (setStage_leaves hn) fun _ => pay_leaves hn

theorem step_leaves (hn : c.settledID d ≠ some id) : Leaves (view id) (step d block c) := by
  have hne {sw : Swap} (hc : c.settles = some sw) : id ≠ swapID d sw :=
    fun h => hn <| by simp [Call.settledID, hc, h]
  cases c
  case newSwap =>
    exact leaves_bind payable_leaves fun _ => leaves_bind newSwap_leaves fun _ => leaves_pure
  case setReady => exact leaves_bind leaves_revertIf fun _ => setReady_leaves
  case claim =>
    exact leaves_bind leaves_revertIf fun _ => leaves_bind leaves_revertIf fun _ =>
      leaves_bind (_claim_leaves <| hne rfl) fun _ => pay_leaves (hne rfl)
  case claimRelayer =>
    exact leaves_bind leaves_revertIf fun _ => leaves_bind leaves_revertIf fun _ =>
      leaves_bind leaves_revertIf fun _ => leaves_bind leaves_revertIf fun _ =>
      leaves_bind (_claim_leaves <| hne rfl) fun _ => leaves_bind leaves_lift fun _ =>
      leaves_bind (pay_leaves <| hne rfl) fun _ => pay_leaves (hne rfl)
  case refund => exact leaves_bind leaves_revertIf fun _ => refund_leaves (hne rfl)
  case outside =>
    exact leaves_bind leaves_get fun _ => leaves_bind leaves_revertIf fun _ =>
      leaves_modify fun _ => rfl

end Leaves

section Settle

-- On the way through a call that settles the swap: it is completed, and nobody else notes or pays
-- anything for it.
structure Paying
    (d : Deployment) (id : Bytes32) (asset : Address) (paid : List (Address × ℕ)) (h : Journal)
    (balances : Ledger Address Address) (p : State × Journal) : Prop where
  stage    : p.fst.swaps id = .completed
  payouts  : p.fst.payouts id = paid
  journal  : settlements d id p.snd = h
  balances : d.Holds asset → p.fst.balances = balances

variable {asset dst : Address} {paid : List (Address × ℕ)} {balances : Ledger Address Address}
  {v : Uint256} {sw : Swap} {secret : Bytes32} {msg : Msg}

theorem pay_paying (hp : Paying d id asset paid h balances p) :
    wp (SettleGuarantee d S id) (zoom <| pay d id asset dst v)
      (fun _ => Paying d id asset (paid ++ [(dst, v.toNat)]) h
        (balances.move asset d.this dst v.toNat))
      (fun _ => True) p := by
  have hq : (p.fst.payouts id ++ [(dst, v.toNat)]) = paid ++ [(dst, v.toNat)] := by rw [hp.payouts]
  simp only [pay, zoom_bind, zoom_modify, zoom_ite, zoom_get, zoom_revertIf, zoom_handOver, wp_bind,
    wp_modify, wp_ite, wp_get, wp_pure, wp_revertIf, wp_handOver, implies_true, true_and]
  refine ⟨fun ha _ _ => ?_, fun ha p' hg => ?_⟩
  · exact ⟨hp.stage, by simp [hq], hp.journal, fun ha => by simp [hp.balances ha]⟩
  · obtain ⟨hc, hp', hj⟩ := hg.kept hp.stage
    exact ⟨hc, by simpa [hq] using hp', hj.trans hp.journal, fun hb => absurd hb ha⟩

theorem _claim_paying :
    wp (SettleGuarantee d S id) (zoom <| _claim d block sw secret)
      (fun _ p' => (s.swaps <| swapID d sw).IsOpen ∧
        Paying d (swapID d sw) sw.asset (s.payouts <| swapID d sw) (settlements d (swapID d sw) h)
          s.balances p')
      (fun _ => True) (s, h) := by
  simp only [_claim, checkClaim, verifySecret, setStage, emit, zoom_bind, zoom_get, zoom_revertIf,
    zoom_modify, wp_bind, wp_get, wp_pure, wp_revertIf, wp_modify, implies_true, true_and]
  intro hi hc _ _ _
  exact ⟨Stage.isOpen_iff.mpr ⟨hi, hc⟩, update_self .., rfl, rfl, fun _ => rfl⟩

-- The call is noted.
theorem Paying.record (hp : Paying d id asset paid (settlements d id h) balances p)
    (ho : (s.swaps id).IsOpen) (hc : c.settledID d = some id)
    (hs : Settles d S ⟨block, c, s, p.fst⟩ paid) :
    SettleGuarantee d S id (s, h) (p.fst, p.snd ++ [⟨block, c, s, p.fst⟩]) where
  kept hc      := absurd hc (Stage.isOpen_iff.mp ho).right
  tracks hn ht := by
    refine ⟨fun _ => ⟨_, ?_, hp.payouts ▸ hs⟩, fun hn => absurd hp.stage hn⟩
    have hj := hp.journal.trans (ht.unpaid hn).left
    simp only [settlements] at hj
    simp [settlements, List.filter_append, hj, hc]

theorem claim_settles
    (hu : s.swaps (swapID d sw) ≠ .completed → s.payouts (swapID d sw) = []) :
    wp (SettleGuarantee d S <| swapID d sw) (record (step d) block <| .claim msg sw secret)
      (fun _ => SettleGuarantee d S (swapID d sw) (s, h)) (fun _ => True) (s, h) := by
  simp only [record, step, nonpayable, claim, zoom_bind, zoom_revertIf, wp_bind, wp_get,
    wp_revertIf, implies_true, true_and, Decidable.not_not]
  intro _ hm
  refine _claim_paying.mono (fun _ p hq => ?_) fun _ _ => trivial
  obtain ⟨ho, hp⟩ := hq
  rw [hu (Stage.isOpen_iff.mp ho).right] at hp
  exact (pay_paying hp).mono (fun _ p' hp => hp.record ho rfl <| .claim rfl hm) fun _ _ => trivial

theorem refund_settles
    (hu : s.swaps (swapID d sw) ≠ .completed → s.payouts (swapID d sw) = []) :
    wp (SettleGuarantee d S <| swapID d sw) (record (step d) block <| .refund msg sw secret)
      (fun _ => SettleGuarantee d S (swapID d sw) (s, h)) (fun _ => True) (s, h) := by
  simp only [record, step, nonpayable, refund, checkRefund, verifySecret, setStage, emit, zoom_bind,
    zoom_get, zoom_revertIf, zoom_modify, wp_bind, wp_get, wp_pure, wp_revertIf, wp_modify,
    implies_true, true_and, Decidable.not_not]
  intro _ hi hc hm _ _
  have ho : (s.swaps (swapID d sw)).IsOpen := Stage.isOpen_iff.mpr ⟨hi, hc⟩
  have hp : Paying d (swapID d sw) sw.asset [] (settlements d (swapID d sw) h) s.balances
      (s.mark (swapID d sw) .completed (.refunded (swapID d sw) secret), h) :=
    ⟨update_self .., hu hc, rfl, fun _ => rfl⟩
  exact (pay_paying hp).mono (fun _ p' hp => hp.record ho rfl <| .refund rfl hm.symm)
    fun _ _ => trivial

theorem claimRelayer_settles
    {relaySwap : RelaySwap} {relayer : Address} {salt : BitVec 32} {v : UInt8} {r t : Bytes32}
    (hm : relaySwap.swap ∈ S)
    (hu : s.swaps (swapID d relaySwap.swap) ≠ .completed →
      s.payouts (swapID d relaySwap.swap) = []) :
    wp (SettleGuarantee d S <| swapID d relaySwap.swap)
      (record (step d) block <| .claimRelayer msg relaySwap secret relayer salt v r t)
      (fun _ => SettleGuarantee d S (swapID d relaySwap.swap) (s, h)) (fun _ => True) (s, h) := by
  simp only [record, step, nonpayable, claimRelayer, zoom_bind, zoom_revertIf, zoom_lift, wp_bind,
    wp_get, wp_revertIf, implies_true, true_and, Decidable.not_not]
  intro _ hs ht hh
  refine _claim_paying.mono (fun _ p hq => ?_) fun _ _ => trivial
  obtain ⟨ho, hp⟩ := hq
  rw [hu (Stage.isOpen_iff.mp ho).right] at hp
  simp only [wp_bind, wp_lift, implies_true, and_true, Uint256.sub_eq_ok]
  intro rest hr
  refine (pay_paying hp).mono (fun _ p hp => ?_) fun _ _ => trivial
  refine (pay_paying hp).mono (fun _ p hp => hp.record ho rfl ?_) fun _ _ => trivial
  have hr : rest.toNat = relaySwap.swap.value.toNat - relaySwap.fee.toNat := by omega
  rw [hr] at hp ⊢
  exact .relayed rfl hm ⟨hs, ht.symm, hh, ho, by omega, hp.balances⟩

end Settle

theorem step_settles (hc : c.Admissible d S block) (hn : c.settledID d = some id)
    (hu : s.swaps id ≠ .completed → s.payouts id = []) :
    wp (SettleGuarantee d S id) (record (step d) block c)
      (fun _ => SettleGuarantee d S id (s, h)) (fun _ => True) (s, h) := by
  cases c
  case claim        => cases hn; exact claim_settles hu
  case claimRelayer => cases hn; exact claimRelayer_settles (hc.mem _ <| by simp [Call.swaps]) hu
  case refund       => cases hn; exact refund_settles hu
  all_goals simp [Call.settledID, Call.settles] at hn

theorem step_settleGuarantee (block : Block) :
    Guarantees (record (step d) block) (SettleGuarantee d S id) (fun _ _ => True)
      (Call.Admissible d S block) where
  refl  := .refl
  trans := .trans
  call c hc p := by
    by_cases hn : c.settledID d = some id
    case neg =>
      have hw : Within (SettleGuarantee d S id) (zoom <| step d block c) :=
        (step_leaves hn).within .trans fun _ _ _ h =>
          .of_eq (iff_of_eq <| congrArg Prod.fst h) (congrArg Prod.snd h)
      simp only [record, wp_bind, wp_get]
      exact (hw p p <| .refl p).mono (fun _ p' h => h.record hn) fun _ _ => trivial
    case pos =>
      by_cases ht : p.fst.swaps id ≠ .completed → TracksSettlement d S id p
      case pos => exact step_settles hc hn fun hn => (ht hn).unpaid hn |>.right
      case neg =>
        obtain ⟨hn, ht⟩ := Classical.not_imp.mp ht
        exact wp_of_forall (fun _ _ => ⟨(absurd · hn), fun _ => (absurd · ht)⟩) fun _ => trivial

section Run

variable {balances : Ledger Address Address} {txs : List (Block × Act Call)}

theorem tracksSettlement (id : Bytes32) (h : ∀ tx ∈ txs, tx.snd.All (Call.Admissible d S tx.fst)) :
    let s₀ := State.deployed balances
    TracksSettlement d S id (runTxs (step d) txs s₀, journal (step d) txs s₀) := by
  intro s₀
  have h₀ : TracksSettlement d S id (s₀, []) := by
    constructor <;> simp [s₀, State.deployed, settlements]
  exact h₀.guarantee <| journal_guarantees .refl step_settleGuarantee s₀ txs h

-- Whoever relays a claim, the claimer of an existing swap has signed it for this contract and this
-- relayer. The two of them share the value, and nothing else is ever paid out for the swap.
theorem relayed_claims (inj : CollisionFree d S)
    (h : ∀ tx ∈ txs, tx.snd.All (Call.Admissible d S tx.fst)) :
    let s  := runTxs (step d) txs (.deployed balances)
    let es := journal (step d) txs (.deployed balances)
    ∀ e ∈ es, ∀ msg relaySwap secret relayer salt v r t,
      e.call = .claimRelayer msg relaySwap secret relayer salt v r t →
      let swap := relaySwap.swap
      Relayed d relaySwap relayer salt v r t e.before e.after ∧
      swap.claimer ≠ 0 ∧ s.swapOf (swapID d swap) = some swap ∧
      s.swaps (swapID d swap) = .completed ∧
      s.payouts (swapID d swap) = [(swap.claimer, swap.value.toNat - relaySwap.fee.toNat),
        (relayer, relaySwap.fee.toNat)] ∧
      settlements d (swapID d swap) es = [e] := by
  intro s es e he msg relaySwap secret relayer salt v r t hc swap
  have ht : TracksSettlement d S (swapID d swap) (s, es) := tracksSettlement _ h
  have he : e ∈ settlements d (swapID d swap) es := by
    simp [settlements, he, hc, Call.settledID, Call.settles, swap]
  have hs : s.swaps (swapID d swap) = .completed := by
    by_contra hn
    simp [(ht.unpaid hn).left] at he
  have ⟨e', hj, hp⟩ := ht.settled hs
  have hee : e = e' := by simpa [hj] using he
  subst hee
  have hw : s.WF d S := (runTxs_evolves h).wf
  generalize hq : s.payouts (swapID d swap) = paid at hp
  cases hp
  case claim hc' _  => simp [hc] at hc'
  case refund hc' _ => simp [hc] at hc'
  case relayed hc' hm hr =>
    rw [hc] at hc'
    cases hc'
    have hi := hw.swapOf_eq inj hm (by simp [swap, hs] : s.swaps (swapID d swap) ≠ .invalid)
    exact ⟨hr, (hw.entry hi).valid.claimer, hi, hs, rfl, hj⟩

end Run

namespace Sample

-- A claim for a fee of 1 wei, which the claimer has signed.
def relaySwap : RelaySwap where
  swap        := swap
  fee         := 1
  relayerHash := 0xf46384f79f15c4ba680dd48cc4ba3ca434343c4212b99f7b1ebcee8395093885
  swapCreator := 0x5C

def relayHash : Bytes32 :=
  0x6ad214e04ea4f4d8953637ea5abf5e2cb65a7fcb36b0f10fae1e9847e81381c5

def relayHost : Host where
  keccak256 bs :=
    if bs = abiEncodeRelay relaySwap then relayHash
    else if bs = Bytes.be 20 0x4E1A7E ++ Bytes.be 4 7 then relaySwap.relayerHash
    else host.keccak256 bs
  ecrecover hash v r t :=
    if hash = relayHash ∧ r = 3 ∧ t = 4 then swap.claimer else host.ecrecover hash v r t

def relayDeployment : Deployment :=
  { deployment with host := relayHost }

def relay : Call :=
  .claimRelayer ⟨0x4E1A7E, 0⟩ relaySwap 1 0x4E1A7E 7 27 3 4

def relayed : List (Block × Act Call) :=
  created ++ [(⟨1100⟩, ⟨relay, []⟩)]

theorem relayed_admissible :
    ∀ tx ∈ relayed, tx.snd.All (Call.Admissible relayDeployment {swap} tx.fst) := by
  simp only [relayed, created, List.cons_append, List.nil_append, List.mem_cons, List.not_mem_nil,
    or_false, forall_eq_or_imp, forall_eq]
  refine ⟨.mk ⟨by decide, ?_⟩ (by simp), .mk ⟨by decide, ?_⟩ (by simp)⟩
  · simp [Call.swaps, swap]
  · simp [Call.swaps, relay, relaySwap]

theorem relayed_journal :
    (journal (step relayDeployment) relayed (.deployed funds)).any (·.call = relay) := by
  decide +kernel

end Sample

theorem relayed_claims_relayed :
    let s := runTxs (step Sample.relayDeployment) Sample.relayed (.deployed Sample.funds)
    let id := swapID Sample.relayDeployment Sample.relaySwap.swap
    s.swaps id = .completed ∧ s.payouts id = [(0xB0B, 4), (0x4E1A7E, 1)] := by
  have ⟨e, he, hc⟩ := List.any_eq_true.mp Sample.relayed_journal
  have ⟨_, _, _, hs, hp, _⟩ := relayed_claims (Set.injOn_singleton ..) Sample.relayed_admissible
    e he _ _ _ _ _ _ _ _ (of_decide_eq_true hc)
  exact ⟨hs, hp.trans (by decide)⟩

end Ethereum.SwapCreator
