import AtomicSwap.Library.Machine
import Mathlib.Data.List.Induction

-- Statements about whole runs.
namespace Machine

variable {σ τ ι κ : Type*} {step : σ → ι → σ} {step' : τ → κ → τ} {P : σ → Prop} {s : σ} {t : τ}
  {is is' : List ι}

-- What has been the case at some moment of a run.
def Once (step : σ → ι → σ) (P : σ → Prop) (is : List ι) (s : σ) : Prop :=
  ∃ is₁ is₂, is = is₁ ++ is₂ ∧ P (run step is₁ s)

theorem Once.now (h : P (run step is s)) : Once step P is s :=
  ⟨is, [], by simp, h⟩

theorem Once.mono {Q : σ → Prop} (h : Once step P is s) (hq : ∀ s, P s → Q s) :
    Once step Q is s := by
  obtain ⟨is₁, is₂, hi, hp⟩ := h
  exact ⟨is₁, is₂, hi, hq _ hp⟩

theorem Once.append (h : Once step P is s) : Once step P (is ++ is') s := by
  obtain ⟨is₁, is₂, rfl, h⟩ := h
  exact ⟨is₁, is₂ ++ is', by simp, h⟩

-- An invariant that may refer to the inputs so far.
theorem run_history {I : List ι → σ → Prop} (h : I [] s)
    (hs : ∀ is i, I is (run step is s) → I (is ++ [i]) (step (run step is s) i)) :
    I is (run step is s) := by
  induction is using List.reverseRecOn
  case nil => exact h
  case append_singleton is i hi =>
    rw [run_append]
    exact hs is i hi

-- If each step can be matched by some steps of another machine, then each run can.
theorem run_simulates {R : σ → τ → Prop} (hs : ∀ s t i, R s t → ∃ js, R (step s i) (run step' js t))
    (h : R s t) : ∃ js, R (run step is s) (run step' js t) := by
  induction is generalizing s t
  case nil          => exact ⟨[], h⟩
  case cons i is hi =>
    obtain ⟨js, h⟩ := hs s t i h
    obtain ⟨js', h⟩ := hi h
    exact ⟨js ++ js', run_append ▸ h⟩

end Machine
