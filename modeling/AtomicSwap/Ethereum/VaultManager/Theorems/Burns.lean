import AtomicSwap.Ethereum.VaultManager.Theorems.Accounts
import AtomicSwap.Ethereum.VaultManager.Theorems.Mints

open Reentrant Code Function

namespace Ethereum.VaultManager

-- Everything about a request but its status.
def BurnRequest.terms (r : BurnRequest) : BurnRequest :=
  { r with status := .invalid }

section Release

variable (d : Deployment) (id : Bytes32) (r : BurnRequest) (e : Entry Block Call State)

-- The user asks for the burn.
def InitiatesBurn : Prop :=
  ∃ v, e.call = .initiateBurn ⟨r.user, v⟩ r.wsxmrAmount r.lpVault r.refundCommitment

-- The secret is shown in time, and the collateral goes back to the vault.
def ReturnsEscrow : Prop :=
  ∃ msg secret,
    e.call = .finalizeBurn msg id secret ∧
    Secp256k1.mulVerify d.host secret r.refundCommitment ∧
    e.block.timestamp < r.deadline ∧
    (e.after.vaults r.lpVault).collateralAmount.toNat =
      (e.before.vaults r.lpVault).collateralAmount.toNat + r.escrowedCollateral.toNat ∧
    e.after.balances = e.before.balances

-- The time is over, and the collateral is paid to the user. This is the first thing that the call
-- does with any balance and the last one.
def PaysEscrow : Prop :=
  let asset := (e.before.vaults r.lpVault).collateralAsset
  ∃ v,
    e.call = .claimSlashedCollateral ⟨r.user, v⟩ id ∧ r.deadline ≤ e.block.timestamp ∧
    (d.Holds asset → (step d e.block e.call e.before).Stretches
      (fun s s' => s'.balances = s.balances.move asset d.this r.user r.escrowedCollateral.toNat)
      (fun s s' => s'.balances = s.balances) e.before)

-- The calls that have been made about a request, by its status.
inductive Release : BurnStatus → Journal → Prop
  | invalid : Release .invalid []
  | pending {i : Entry Block Call State} : InitiatesBurn r i → Release .pending [i]
  | completed {i f : Entry Block Call State} :
    InitiatesBurn r i → ReturnsEscrow d id r f → Release .completed [i, f]
  | slashed {i x : Entry Block Call State} :
    InitiatesBurn r i → PaysEscrow d id r x → Release .slashed [i, x]

end Release

variable {d : Deployment} {block : Block} {id : Bytes32} {s s' : State} {h : Journal} {c : Call}
  {p p' p₁ p₂ p₃ : State × Journal}

-- A request that exists keeps its terms.
def Fixed (id : Bytes32) (s s' : State) : Prop :=
  (s.burnRequests id).status ≠ .invalid →
    (s'.burnRequests id).status ≠ .invalid ∧ (s'.burnRequests id).terms = (s.burnRequests id).terms

theorem Fixed.refl : Fixed id s s :=
  fun hs => ⟨hs, rfl⟩

theorem Fixed.trans {s₁ s₂ s₃ : State} (h₁ : Fixed id s₁ s₂) (h₂ : Fixed id s₂ s₃) :
    Fixed id s₁ s₃ := by
  intro hs
  have ⟨hs, h₁⟩ := h₁ hs
  have ⟨hs, h₂⟩ := h₂ hs
  exact ⟨hs, h₂.trans h₁⟩

theorem Fixed.of_eq (he : s.burnRequests id = s'.burnRequests id) : Fixed id s s' :=
  fun hs => he ▸ ⟨hs, rfl⟩

variable (d id) in
structure TracksBurn (p : State × Journal) : Prop where
  release : Release d id (p.fst.burnRequests id) (p.fst.burnRequests id).status
    (p.snd.filter fun e => e.call.burnID d e.block = some id)
  fixed   : ∀ e ∈ p.snd, Fixed id e.before p.fst ∧ Fixed id e.after p.fst

variable (d id) in
def BurnGuarantee (p p' : State × Journal) : Prop :=
  TracksBurn d id p → TracksBurn d id p' ∧ Fixed id p.fst p'.fst

-- While a call that is guarded against re-entrancy waits, the others leave the request alone.
def Untouched (id : Bytes32) (s s' : State) : Prop :=
  s.entered → s'.entered ∧
    ((s.burnRequests id).status ≠ .invalid → s'.burnRequests id = s.burnRequests id)

variable (d id) in
def BurnEnv (p p' : State × Journal) : Prop :=
  BurnGuarantee d id p p' ∧ (TracksBurn d id p → Untouched id p.fst p'.fst)

theorem BurnGuarantee.trans (h₁ : BurnGuarantee d id p₁ p₂) (h₂ : BurnGuarantee d id p₂ p₃) :
    BurnGuarantee d id p₁ p₃ := by
  intro h
  have ⟨h, hf₁⟩ := h₁ h
  have ⟨h, hf₂⟩ := h₂ h
  exact ⟨h, hf₁.trans hf₂⟩

theorem BurnGuarantee.of_eq (he : s.burnRequests id = s'.burnRequests id) :
    BurnGuarantee d id (s, h) (s', h) := by
  intro ht
  refine ⟨⟨he ▸ ht.release, fun e hm => ?_⟩, .of_eq he⟩
  have ⟨hb, ha⟩ := ht.fixed e hm
  exact ⟨hb.trans <| .of_eq he, ha.trans <| .of_eq he⟩

theorem Untouched.trans {s₁ s₂ s₃ : State} (h₁ : Untouched id s₁ s₂) (h₂ : Untouched id s₂ s₃) :
    Untouched id s₁ s₃ := by
  intro he
  have ⟨he, h₁⟩ := h₁ he
  have ⟨he, h₂⟩ := h₂ he
  refine ⟨he, fun hs => ?_⟩
  have h₁ := h₁ hs
  exact (h₂ <| h₁ ▸ hs).trans h₁

theorem BurnEnv.refl (p : State × Journal) : BurnEnv d id p p :=
  ⟨.of_eq rfl, fun _ he => ⟨he, fun _ => rfl⟩⟩

theorem BurnEnv.trans (h₁ : BurnEnv d id p₁ p₂) (h₂ : BurnEnv d id p₂ p₃) : BurnEnv d id p₁ p₃ := by
  refine ⟨h₁.left.trans h₂.left, fun ht => ?_⟩
  have ⟨ht₂, _⟩ := h₁.left ht
  exact (h₁.right ht).trans (h₂.right ht₂)

theorem BurnEnv.of_eq (he : s.burnRequests id = s'.burnRequests id) (hn : s.entered = s'.entered) :
    BurnEnv d id (s, h) (s', h) :=
  ⟨.of_eq he, fun _ h => ⟨hn ▸ h, fun _ => he.symm⟩⟩

-- A call about another request is noted.
theorem TracksBurn.record (h : TracksBurn d id p') (hf : Fixed id s p'.fst)
    (hn : c.burnID d block ≠ some id) :
    TracksBurn d id (p'.fst, p'.snd ++ [⟨block, c, s, p'.fst⟩]) where
  release := by simpa [List.filter_append, hn] using h.release
  fixed   := by
    simp only [List.forall_mem_append, List.forall_mem_singleton]
    exact ⟨h.fixed, hf, .refl⟩

-- A call about this request is noted.
theorem TracksBurn.advance {r : BurnRequest} (h : TracksBurn d id p) (hf : Fixed id s p.fst)
    (he : s'.burnRequests id = r) (hn : c.burnID d block = some id)
    (hk : (p.fst.burnRequests id).status ≠ .invalid →
      r.status ≠ .invalid ∧ r.terms = (p.fst.burnRequests id).terms)
    (hr : ∀ {es}, Release d id (p.fst.burnRequests id) (p.fst.burnRequests id).status es →
      Release d id r r.status (es ++ [⟨block, c, s, s'⟩])) :
    TracksBurn d id (s', p.snd ++ [⟨block, c, s, s'⟩]) ∧ Fixed id s s' := by
  have hk : Fixed id p.fst s' := fun hs => he ▸ hk hs
  refine ⟨⟨?release, ?fixed⟩, hf.trans hk⟩
  case release => simpa [List.filter_append, hn, he] using hr h.release
  case fixed =>
    simp only [List.forall_mem_append, List.forall_mem_singleton]
    refine ⟨fun e hm => ?_, hf.trans hk, .refl⟩
    have ⟨hb, ha⟩ := h.fixed e hm
    exact ⟨hb.trans hk, ha.trans hk⟩

section Step

variable {msg : Msg} (ht : TracksBurn d id (s, h))

include ht

end Step

section Run

variable {owner tokenManager : Address} {totalSupply : Uint256} {balances : Ledger Address Address}
  {txs : List (Block × Act Call)}

end Run


end Ethereum.VaultManager
