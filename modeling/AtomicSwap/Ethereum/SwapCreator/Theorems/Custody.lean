import AtomicSwap.Ethereum.SwapCreator.Theorems.Guarantees

open Reentrant Function

namespace Ethereum.SwapCreator

variable {d : Deployment} {S : Set Swap} {block : Block} {s : State} {c : Call}
  {balances : Ledger Address Address} {txs : List (Block × Act Call)}

theorem step_spec (h : s.WF d S) (ha : c.Admissible d S block) :
    Code.wp (Guarantee d S) (step d block c) (fun _ => Evolves d S ∅ 0 s) (Reverts d S s) s := by
  cases c
  case newSwap      => exact newSwap_spec h ha
  case setReady     => exact setReady_spec h
  case claim        => exact claim_spec h <| ha.mem _ <| List.mem_singleton_self _
  case claimRelayer => exact claimRelayer_spec h <| ha.mem _ <| List.mem_singleton_self _
  case refund       => exact refund_spec h <| ha.mem _ <| List.mem_singleton_self _
  case outside      => exact outside_spec h

variable (d S) in
theorem step_guarantees (block : Block) :
    Guarantees (step d block) (Guarantee d S) (Reverts d S) (Call.Admissible d S block) where
  refl  := .refl
  trans := .trans
  call c hc s := by
    by_cases h : s.WF d S
    case pos => exact (step_spec h hc).mono (fun _ _ he _ => he) fun _ he => he
    case neg => exact Code.wp_of_forall (fun _ _ hw => absurd hw h) fun _ hw => absurd hw h

theorem deployed_wf : (State.deployed balances).WF d S := by
  constructor <;> simp [State.deployed]

theorem runTxs_evolves (h : ∀ tx ∈ txs, tx.snd.All (Call.Admissible d S tx.fst)) :
    Evolves d S ∅ 0 (.deployed balances) (runTxs (step d) txs <| .deployed balances) :=
  runTxs_guarantees .refl (step_guarantees d S) _ txs h deployed_wf

theorem runTxs_solvent (inj : CollisionFree d S)
    (h : ∀ tx ∈ txs, tx.snd.All (Call.Admissible d S tx.fst)) :
    (runTxs (step d) txs <| .deployed balances).Solvent d := by
  intro a ha
  have he : Evolves d S ∅ 0 (.deployed balances) _ := runTxs_evolves h
  have hc := he.covers inj ha
  have h₀ : (State.deployed balances).owed a = 0 := by simp [State.owed, State.held, State.deployed]
  simp only [Pi.zero_apply, h₀] at hc
  omega

-- What is owed for a finite set of open swaps is part of what is owed in total.
theorem State.WF.sum_le_owed {a : Address} {T : Finset Swap} (h : s.WF d S)
    (inj : CollisionFree d S)
    (hT : ∀ sw ∈ T, sw ∈ S ∧ sw.asset = a ∧ (s.swaps <| swapID d sw).IsOpen) :
    ∑ sw ∈ T, sw.value.toNat ≤ s.owed a := by
  have hv (sw) (hs : sw ∈ T) : sw.value.toNat = s.held a (swapID d sw) := by
    have ⟨hm, ha, ho⟩ := hT sw hs
    have hi : s.swaps (swapID d sw) ≠ .invalid := by intro hi; simp [hi, Stage.IsOpen] at ho
    simp [held_of_open (h.swapOf_eq inj hm hi) ho, ha]
  have hT : Set.InjOn (swapID d) T := inj.mono fun sw hs => (hT sw hs).left
  calc ∑ sw ∈ T, sw.value.toNat
    _ = ∑ sw ∈ T, s.held a (swapID d sw)    := Finset.sum_congr rfl hv
    _ = ∑ id ∈ T.image (swapID d), s.held a id := (Finset.sum_image hT).symm
    _ ≤ s.owed a                            := Finset.sum_le_sum_of_subset (Finset.subset_univ _)

variable (balances) in
-- The contract can always pay for all of its open swaps, and what it pays out for a swap is either
-- nothing or one settlement of it.
theorem custody (inj : CollisionFree d S)
    (h : ∀ tx ∈ txs, tx.snd.All (Call.Admissible d S tx.fst)) :
    let s := runTxs (step d) txs (.deployed balances)
    (∀ a, d.Holds a → ∀ T : Finset Swap,
      (∀ sw ∈ T, sw ∈ S ∧ sw.asset = a ∧ (s.swaps <| swapID d sw).IsOpen) →
      ∑ sw ∈ T, sw.value.toNat ≤ s.balances a d.this) ∧
    (∀ sw ∈ S, s.payouts (swapID d sw) = [] ∨
      s.swaps (swapID d sw) = .completed ∧ sw.Settlement (s.payouts <| swapID d sw)) := by
  intro s
  have he : Evolves d S ∅ 0 (.deployed balances) s := runTxs_evolves h
  refine ⟨fun a ha T hT => ?_, fun sw hm => ?_⟩
  · exact (he.wf.sum_le_owed inj hT).trans <| runTxs_solvent inj h ha
  · by_cases hc : s.swaps (swapID d sw) = .completed
    case neg => exact .inl <| he.wf.unpaid hc
    case pos =>
      have ⟨sw', hs, hp⟩ := he.settled inj (by simp) (by simp [State.deployed]) hc
      have hs' := he.wf.swapOf_eq inj hm (by simp [hc])
      have : sw' = sw := by simp_all
      exact .inr ⟨hc, this ▸ hp⟩

-- A swap of 5 wei. The claim secret is 1 and the refund secret is 2.
namespace Sample

def pubKeyHash : ℕ → Bytes32
  | 1 => 0xc0a6c424ac7157ae408398df7e5f4552091a69125d5dfcb7b8c2659029395bdf
  | 2 => 0xeedf1a9c68b3f4a8b1a1032b2b5ad5c4795c026514f8317c7a215e218dccd6cf
  | _ => 0

def swap : Swap where
  owner            := 0xA11CE
  claimer          := 0xB0B
  claimCommitment  := pubKeyHash 1
  refundCommitment := pubKeyHash 2
  timeout1         := 1100
  timeout2         := 1200
  asset            := native
  value            := 5
  nonce            := 0

def host : Host where
  keccak256 bs :=
    if bs = abiEncode swap then
      0xf960c5cf73592b1f1b4de57d02ba7985190b2a2681f5737450eb8444bf12271f
    else 0
  ecrecover _ _ _ t :=
    if t = 0 then 0
    else (pubKeyHash <| t.toNat * Secp256k1.gxInv % Secp256k1.m.toNat).setWidth 160

def deployment : Deployment where
  host       := host
  this       := 0x5C
  standard _ := false

def funds : Ledger Address Address :=
  fun _ holder => if holder = swap.owner then 10 else 0

def created : List (Block × Act Call) :=
  [(⟨1000⟩, ⟨.newSwap ⟨swap.owner, 5⟩ swap.claimCommitment swap.refundCommitment swap.claimer
    100 100 native 5 0, []⟩)]

def claimed : List (Block × Act Call) :=
  created ++ [(⟨1100⟩, ⟨.claim ⟨swap.claimer, 0⟩ swap 1, []⟩)]

theorem claimed_admissible :
    ∀ tx ∈ claimed, tx.snd.All (Call.Admissible deployment {swap} tx.fst) := by
  simp only [claimed, created, List.cons_append, List.nil_append, List.mem_cons, List.not_mem_nil,
    or_false, forall_eq_or_imp, forall_eq]
  refine ⟨.mk ⟨by decide, ?_⟩ (by simp), .mk ⟨by decide, ?_⟩ (by simp)⟩
  · simp [Call.swaps, swap]
  · simp [Call.swaps]

end Sample

theorem custody_claimed :
    let s := runTxs (step Sample.deployment) Sample.claimed (.deployed Sample.funds)
    s.payouts (swapID Sample.deployment Sample.swap) = [(0xB0B, 5)] ∧
    s.swaps (swapID Sample.deployment Sample.swap) = .completed ∧
    Sample.swap.Settlement [(0xB0B, 5)] := by
  dsimp only
  have hp : (runTxs (step Sample.deployment) Sample.claimed (.deployed Sample.funds)).payouts
      (swapID Sample.deployment Sample.swap) = [(0xB0B, 5)] := by
    decide +kernel
  have ⟨_, hs⟩ := custody Sample.funds (Set.injOn_singleton ..) Sample.claimed_admissible
  have hs := hs Sample.swap rfl
  rw [hp] at hs ⊢
  exact ⟨rfl, hs.resolve_left (by simp)⟩

end Ethereum.SwapCreator
