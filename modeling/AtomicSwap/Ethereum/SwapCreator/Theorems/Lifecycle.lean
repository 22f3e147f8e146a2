import AtomicSwap.Ethereum.SwapCreator.Basic
import AtomicSwap.Library.Reentrant.History
import Mathlib.Algebra.Group.Pi.Basic
import Mathlib.Data.Set.Function

open Reentrant Function

namespace Ethereum.SwapCreator

abbrev Journal := List (Entry Block Call State)

def Stage.IsOpen : Stage → Prop
  | pending | ready     => True
  | invalid | completed => False

instance : DecidablePred Stage.IsOpen
  | .pending | .ready     => isTrue trivial
  | .invalid | .completed => isFalse id

theorem Stage.isOpen_iff {stage : Stage} :
    stage.IsOpen ↔ stage ≠ .invalid ∧ stage ≠ .completed := by
  cases stage <;> simp [IsOpen]

-- The assets whose balances only change by exact transfers.
def Deployment.Holds (d : Deployment) (a : Address) : Prop :=
  a = native ∨ d.standard a

-- What `newSwap` ensures of the swaps it creates.
structure Swap.Valid (s : Swap) : Prop where
  claimCommitment  : s.claimCommitment ≠ 0
  refundCommitment : s.refundCommitment ≠ 0
  claimer          : s.claimer ≠ 0
  value            : s.value ≠ 0
  timeouts         : s.timeout1 < s.timeout2

def Swap.newEvent (s : Swap) (id : Bytes32) : Event :=
  .new id s.claimCommitment s.refundCommitment s.timeout1 s.timeout2 s.asset s.value

def State.held (s : State) (a : Address) (id : Bytes32) : ℕ :=
  match s.swapOf id with
  | some sw => if (s.swaps id).IsOpen ∧ sw.asset = a then sw.value.toNat else 0
  | none    => 0

def State.owed (s : State) (a : Address) : ℕ :=
  ∑ id, s.held a id

-- All that is ever paid out for a swap: its value to the claimer, its value to the claimer and a
-- relayer, or its value to the owner.
inductive Swap.Settlement (sw : Swap) : List (Address × ℕ) → Prop
  | claim : Settlement sw [(sw.claimer, sw.value.toNat)]
  | relayed {relayer : Address} {fee : ℕ} :
    fee ≤ sw.value.toNat → Settlement sw [(sw.claimer, sw.value.toNat - fee), (relayer, fee)]
  | refund : Settlement sw [(sw.owner, sw.value.toNat)]

-- In the following `S` is a set of swaps that contains all swaps that calls refer to.
variable (d : Deployment) (S : Set Swap)

-- No two of these swaps have the same hash.
def CollisionFree : Prop :=
  S.InjOn (swapID d)

structure State.Entry (s : State) (id : Bytes32) (sw : Swap) : Prop where
  swapID : swapID d sw = id
  mem    : sw ∈ S
  valid  : sw.Valid
  logged : sw.newEvent id ∈ s.logs

structure State.WF (s : State) : Prop where
  created  : ∀ id, s.swaps id ≠ .invalid ↔ ∃ sw, s.swapOf id = some sw
  entry    : ∀ {id sw}, s.swapOf id = some sw → s.Entry d S id sw
  recorded : ∀ {id ck rk t₁ t₂ a v}, .new id ck rk t₁ t₂ a v ∈ s.logs →
    ∃ sw, s.swapOf id = some sw ∧ sw.newEvent id = .new id ck rk t₁ t₂ a v
  unpaid   : ∀ {id}, s.swaps id ≠ .completed → s.payouts id = []

-- How calls change the state from `s₀` to `s`. The swaps in `busy` are exempt: they are being
-- settled. In `credit` are the amounts that the contract has received on top of what it owes.
structure Evolves (busy : Set Bytes32) (credit : Address → ℕ) (s₀ s : State) : Prop where
  wf      : s.WF d S
  swapOf  : ∀ {id sw}, s₀.swapOf id = some sw → s.swapOf id = some sw
  kept    : ∀ {id}, id ∉ busy → s₀.swaps id = .completed →
    s.swaps id = .completed ∧ s.payouts id = s₀.payouts id
  settled : CollisionFree d S → ∀ {id}, id ∉ busy → s₀.swaps id ≠ .completed →
    s.swaps id = .completed → ∃ sw, s.swapOf id = some sw ∧ sw.Settlement (s.payouts id)
  covers  : CollisionFree d S → ∀ {a}, d.Holds a →
    s.owed a + s₀.balances a d.this + credit a ≤ s₀.owed a + s.balances a d.this

def Guarantee (s₀ s : State) : Prop :=
  s₀.WF d S → Evolves d S ∅ 0 s₀ s

def State.Solvent (s : State) : Prop :=
  ∀ {a}, d.Holds a → s.owed a ≤ s.balances a d.this

-- A call never reverts because the contract cannot pay what it owes.
def Reverts (s : State) (e : Revert Error) : Prop :=
  s.WF d S → CollisionFree d S → s.Solvent d → e ≠ .lacksFunds

variable {d S} {busy : Set Bytes32} {credit : Address → ℕ} {s s₀ s₁ s₂ : State} {sw : Swap}
  {id : Bytes32} {a : Address} {v : Uint256}

theorem State.owed_exchange (h : ∀ i, i ≠ id → s.held a i = s₀.held a i) :
    s.owed a + s₀.held a id = s₀.owed a + s.held a id :=
  sum_exchange id h

theorem State.owed_congr (hs : s.swaps = s₀.swaps) (ho : s.swapOf = s₀.swapOf) :
    s.owed a = s₀.owed a := by
  simp [owed, held, hs, ho]

theorem State.WF.unpaid_of_open (h : s.WF d S) (ho : (s.swaps id).IsOpen) : s.payouts id = [] := by
  apply h.unpaid
  intro hc
  simp [hc, Stage.IsOpen] at ho

-- The calldata of a call on an open swap can only be the data the swap was created with.
theorem State.WF.swapOf_eq (h : s.WF d S) (inj : CollisionFree d S) (hm : sw ∈ S)
    (ho : s.swaps (SwapCreator.swapID d sw) ≠ .invalid) :
    s.swapOf (SwapCreator.swapID d sw) = some sw := by
  have ⟨sw', hs⟩ := h.created _ |>.mp ho
  have he : sw' = sw := inj (h.entry hs).mem hm (h.entry hs).swapID
  rw [hs, he]

theorem Evolves.refl (h : s.WF d S) : Evolves d S ∅ 0 s s where
  wf                   := h
  swapOf hs            := hs
  kept _ hc            := ⟨hc, rfl⟩
  settled _ {_} _ h h' := absurd h' h
  covers _ {_} _       := by simp

theorem Evolves.trans (h₁ : Evolves d S busy credit s₀ s₁) (h₂ : Guarantee d S s₁ s₂) :
    Evolves d S busy credit s₀ s₂ := by
  have h₂ := h₂ h₁.wf
  refine ⟨h₂.wf, fun hs => h₂.swapOf (h₁.swapOf hs), ?kept, ?settled, ?covers⟩
  case kept =>
    intro id hb hc
    have ⟨hc₁, hp₁⟩ := h₁.kept hb hc
    have ⟨hc₂, hp₂⟩ := h₂.kept (by simp) hc₁
    exact ⟨hc₂, hp₂.trans hp₁⟩
  case settled =>
    intro inj id hb ho hc
    by_cases hc₁ : s₁.swaps id = .completed
    case neg => exact h₂.settled inj (by simp) hc₁ hc
    case pos =>
      have ⟨sw, hs, hp⟩ := h₁.settled inj hb ho hc₁
      have ⟨_, hp₂⟩ := h₂.kept (by simp) hc₁
      exact ⟨sw, h₂.swapOf hs, hp₂ ▸ hp⟩
  case covers =>
    intro inj a ha
    have h₁ := h₁.covers inj ha
    have h₂ := h₂.covers inj ha
    simp only [Pi.zero_apply] at h₂
    omega

theorem Guarantee.refl (s : State) : Guarantee d S s s :=
  Evolves.refl

theorem Guarantee.trans (h₁ : Guarantee d S s₀ s₁) (h₂ : Guarantee d S s₁ s₂) :
    Guarantee d S s₀ s₂ :=
  fun h => (h₁ h).trans h₂

end Ethereum.SwapCreator
