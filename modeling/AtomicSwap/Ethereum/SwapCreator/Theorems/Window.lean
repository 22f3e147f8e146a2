import AtomicSwap.Ethereum.SwapCreator.Theorems.Exclusion
import AtomicSwap.Ethereum.SwapCreator.Theorems.Log

open Reentrant Code Function

namespace Ethereum.SwapCreator

-- A block in which the owner of a swap cannot get a refund. If the swap is not ready, this is only
-- so after the first timeout.
structure InWindow (sw : Swap) (late : Prop) (block : Block) : Prop where
  before : block.timestamp < sw.timeout2
  after  : late → sw.timeout1 < block.timestamp

-- The swap was not refunded, and cannot be refunded as long as time is in the window.
structure State.Secured (s : State) (d : Deployment) (sw : Swap) (late : Prop) : Prop where
  stage : s.swaps (swapID d sw) = .ready ∨ s.swaps (swapID d sw) = .completed ∨
    late ∧ s.swaps (swapID d sw) = .pending
  kept  : ∀ secret, .refunded (swapID d sw) secret ∉ s.logs

variable {d : Deployment} {S : Set Swap} {block : Block} {sw : Swap} {late : Prop} {s : State}

theorem State.Secured.ne_invalid (h : s.Secured d sw late) : s.swaps (swapID d sw) ≠ .invalid := by
  obtain h | h | ⟨_, h⟩ := h.stage <;> simp [h]

theorem State.Secured.mark {id : Bytes32} {stage : Stage} {e : Event} (h : s.Secured d sw late)
    (hn : id = swapID d sw → stage = .ready ∨ stage = .completed)
    (he : ∀ secret, e ≠ .refunded (swapID d sw) secret) :
    (s.mark id stage e).Secured d sw late where
  stage := by
    by_cases hi : swapID d sw = id
    case pos =>
      simp only [State.mark, hi, update_self]
      exact (hn hi.symm).elim .inl (.inr <| .inl ·)
    case neg => simpa [State.mark, hi] using h.stage
  kept secret := by simpa [State.mark, h.kept secret] using (he secret).symm

theorem secured_transitions (inj : CollisionFree d S) (hm : sw ∈ S) (hw : InWindow sw late block) :
    Transitions d S block (State.Secured · d sw late) where
  congr hr h := by
    simp only [State.records, Prod.mk.injEq] at hr
    exact ⟨hr.left ▸ h.stage, hr.right.right ▸ h.kept⟩
  create {s sw'} h hm' hi := by
    have hn : swapID d sw ≠ swapID d sw' := fun he => h.ne_invalid (he ▸ hi)
    refine ⟨?_, fun secret => ?_⟩
    · simpa [State.create, hn] using h.stage
    · simpa [State.create, Swap.newEvent] using h.kept secret
  ready h _ _    := h.mark (fun _ => .inl rfl) (by simp)
  claim h _ _ _  := h.mark (fun _ => .inr rfl) (by simp)
  refund {s sw' _} h hm' ho ht _ := by
    refine h.mark (fun _ => .inr rfl) fun secret he => ?_
    -- The swap would be the one of the window, which neither of the two times allows.
    obtain rfl : sw' = sw := inj hm' hm (congrArg Event.swapID he)
    obtain ht | ⟨ht, hr⟩ := ht
    · exact BitVec.not_le.mpr hw.before ht
    · obtain h | h | ⟨hl, _⟩ := h.stage
      · exact hr h
      · exact (Stage.isOpen_iff.mp ho).right h
      · exact BitVec.not_le.mpr (hw.after hl) ht

-- Transactions only add to the log.
theorem runTxs_grows (txs : List (Block × Act Call)) : Grows s (runTxs (step d) txs s) :=
  runTxs_guarantees (R := Grows) (fun _ => List.prefix_rfl) (step_grows d) s txs
    fun tx _ => .of_forall (fun _ => trivial) tx.snd

section Run

variable {balances : Ledger Address Address} {txs txs' : List (Block × Act Call)}
  (inj : CollisionFree d S)
include inj

theorem secured_of_open (h : ∀ tx ∈ txs, tx.snd.All (Call.Admissible d S tx.fst))
    (hs : s = runTxs (step d) txs (.deployed balances))
    (ho : s.swaps (swapID d sw) = .ready ∨ late ∧ s.swaps (swapID d sw) = .pending) :
    s.Secured d sw late := by
  refine ⟨ho.imp_right .inr, fun secret hr => ?_⟩
  have hc : s.swaps (swapID d sw) ≠ .completed := by
    obtain h | ⟨_, h⟩ := ho <;> simp [h]
  have hl := visible_logged inj h s <| hs ▸ mem_visibleTxs (s := State.deployed balances) txs
  have hn := (hl.past <| swapID d sw).settlements_of_open hc
  simpa [Event.swapID, hn] using State.mem_settlement hr rfl

variable (hm : sw ∈ S)
  (hw : ∀ tx ∈ txs', tx.snd.All (Call.Admissible d S tx.fst) ∧ InWindow sw late tx.fst)
include hm hw

theorem runTxs_secured (h : s.Secured d sw late) : (runTxs (step d) txs' s).Secured d sw late := by
  refine visibleTxs_invariant
    (P := fun block c => Call.Admissible d S block c ∧ InWindow sw late block)
    (fun block c hc => (secured_transitions inj hm hc.right).invariant c hc.left) txs'
    (fun tx ht => ?_) h _ (mem_visibleTxs txs')
  exact (hw tx ht).left.mono fun _ ha => ⟨ha, (hw tx ht).right⟩

end Run

namespace Sample

end Sample

end Ethereum.SwapCreator
