import AtomicSwap.Library.Reentrant

-- Code that returns without handing over control.
namespace Reentrant

variable {σ ε α β : Type}

theorem Tree.bind_eq_ret {t : Tree σ ε α} {f : α → σ → Tree σ ε β} {b : β} {s' : σ} :
    t.bind f = .ret b s' ↔ ∃ a s, t = .ret a s ∧ f a s = .ret b s' := by
  cases t <;> simp [bind, and_assoc]

namespace Code

variable {s s' : σ} {b : β}

theorem bind_eq_ret {m : Code σ ε α} {f : α → Code σ ε β} :
    (m >>= f) s = .ret b s' ↔ ∃ a s₁, m s = .ret a s₁ ∧ f a s₁ = .ret b s' :=
  Tree.bind_eq_ret

theorem get_eq_ret {a : σ} : (get : Code σ ε σ) s = .ret a s' ↔ s = a ∧ s = s' := by
  simp [get]

theorem modify_eq_ret {f : σ → σ} {u : Unit} :
    (modify f : Code σ ε Unit) s = .ret u s' ↔ f s = s' := by
  simp [modify]

theorem revertIf_eq_ret {p : Prop} [Decidable p] {e : ε} {u : Unit} :
    (revertIf p e : Code σ ε Unit) s = .ret u s' ↔ ¬p ∧ s = s' := by
  by_cases h : p <;> simp [revertIf, h]

theorem lift_eq_ret {x : Except ε β} :
    (lift x : Code σ ε β) s = .ret b s' ↔ x = .ok b ∧ s = s' := by
  cases x <;> simp [lift]

end Code
end Reentrant
