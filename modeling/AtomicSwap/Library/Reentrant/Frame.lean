import AtomicSwap.Library.Reentrant.History
import AtomicSwap.Library.Reentrant.Visible

namespace Reentrant

namespace Tree

variable {σ ε α β : Type} {R R₁ R₂ : σ → σ → Prop} {s s₀ : σ}

-- What a tree itself does between the points where it hands over control: from `s` to the first of
-- them it stays within `R₁`, and after it within `R₂`.
def Stretches (R₁ R₂ : σ → σ → Prop) : σ → Tree σ ε α → Prop
  | s, ret _ s'  => R₁ s s'
  | _, revert _  => True
  | s, call s' k => R₁ s s' ∧ ∀ s'', (k s'').Stretches R₂ R₂ s''

theorem Stretches.mono {R₁' R₂' : σ → σ → Prop} {t : Tree σ ε α} (h : t.Stretches R₁ R₂ s)
    (h₁ : ∀ s s', R₁ s s' → R₁' s s') (h₂ : ∀ s s', R₂ s s' → R₂' s s') :
    t.Stretches R₁' R₂' s := by
  induction t generalizing s R₁ R₁'
  case ret         => exact h₁ _ _ h
  case revert      => trivial
  case call s k hi => exact ⟨h₁ _ _ h.left, fun s'' => hi s'' (h.right s'') h₂⟩

theorem Stretches.trans {t : Tree σ ε α} (ht : ∀ {s₁ s₂ s₃}, R s₁ s₂ → R s₂ s₃ → R s₁ s₃)
    (h₀ : R s₀ s) (h : t.Stretches R R s) : t.Stretches R R s₀ := by
  cases t
  case ret    => exact ht h₀ h
  case revert => trivial
  case call   => exact ⟨ht h₀ h.left, h.right⟩

theorem Stretches.bind {t : Tree σ ε α} {f : α → σ → Tree σ ε β}
    (ht : ∀ {s₁ s₂ s₃}, R s₁ s₂ → R s₂ s₃ → R s₁ s₃) (h : t.Stretches R R s)
    (hf : ∀ a s', (f a s').Stretches R R s') : (t.bind f).Stretches R R s := by
  induction t generalizing s
  case ret a s'    => exact (hf a s').trans ht h
  case revert      => trivial
  case call s k hi => exact ⟨h.left, fun s'' => hi s'' (h.right s'')⟩

theorem bind_assoc {δ : Type} (t : Tree σ ε α) (f : α → σ → Tree σ ε β)
    (f' : β → σ → Tree σ ε δ) : (t.bind f).bind f' = t.bind fun a s => (f a s).bind f' := by
  induction t
  case ret         => rfl
  case revert      => rfl
  case call s k hi => simp only [bind, hi]

end Tree

namespace Code

section Stretches

variable {σ ε α β δ : Type} {R₁ R₂ : σ → σ → Prop} {s s₀ : σ}

-- The stretches of code that has run from `s₀` to `s` so far.
variable (R₁ R₂ s₀) in
def stretches (m : Code σ ε α) (s : σ) : Prop :=
  (m s).Stretches R₁ R₂ s₀

@[simp]
theorem stretches_pure {a : α} : stretches R₁ R₂ s₀ (pure a : Code σ ε α) s ↔ R₁ s₀ s :=
  .rfl

@[simp]
theorem stretches_get_bind {f : σ → Code σ ε α} :
    stretches R₁ R₂ s₀ (get >>= f) s ↔ stretches R₁ R₂ s₀ (f s) s :=
  .rfl

@[simp]
theorem stretches_modify_bind {g : σ → σ} {f : Unit → Code σ ε α} :
    stretches R₁ R₂ s₀ (modify g >>= f) s ↔ stretches R₁ R₂ s₀ (f ()) (g s) :=
  .rfl

@[simp]
theorem stretches_modify {g : σ → σ} :
    stretches R₁ R₂ s₀ (modify g : Code σ ε Unit) s ↔ R₁ s₀ (g s) :=
  .rfl

@[simp]
theorem stretches_revertIf_bind {p : Prop} [Decidable p] {e : ε} {f : Unit → Code σ ε α} :
    stretches R₁ R₂ s₀ (revertIf p e >>= f) s ↔ (¬p → stretches R₁ R₂ s₀ (f ()) s) := by
  by_cases h : p <;> simp [stretches, Bind.bind, revertIf, h, Tree.bind, Tree.Stretches]

end Stretches

variable {σ ε α β δ δ' : Type} {g : σ → δ}

-- The code itself leaves `g` as it is. Other code may change it while it has control.
def Leaves (g : σ → δ) (m : Code σ ε α) : Prop :=
  ∀ s, (m s).Stretches (g · = g ·) (g · = g ·) s

theorem leaves_pure {a : α} : Leaves g (pure a : Code σ ε α) :=
  fun _ => rfl

theorem leaves_bind {m : Code σ ε α} {f : α → Code σ ε β} (hm : Leaves g m)
    (hf : ∀ a, Leaves g (f a)) : Leaves g (m >>= f) :=
  fun s => (hm s).bind .trans hf

theorem leaves_get : Leaves g (get : Code σ ε σ) :=
  fun _ => rfl

theorem leaves_modify {f : σ → σ} (h : ∀ s, g s = g (f s)) : Leaves g (modify f : Code σ ε Unit) :=
  h

theorem leaves_revertIf {p : Prop} [Decidable p] {e : ε} :
    Leaves g (revertIf p e : Code σ ε Unit) := by
  intro s
  by_cases h : p <;> simp [revertIf, h, Tree.Stretches]

theorem leaves_lift {x : Except ε α} : Leaves g (lift x : Code σ ε α) := by
  intro s
  cases x <;> simp [lift, Tree.Stretches]

theorem leaves_handOver : Leaves g (handOver : Code σ ε Unit) :=
  fun _ => ⟨rfl, fun _ => rfl⟩

theorem leaves_ite {p : Prop} [Decidable p] {m₁ m₂ : Code σ ε α} (h₁ : Leaves g m₁)
    (h₂ : Leaves g m₂) : Leaves g (if p then m₁ else m₂) := by
  by_cases h : p <;> simp [h, h₁, h₂]

theorem Leaves.mono {g' : σ → δ'} {m : Code σ ε α} (h : Leaves g m)
    (hg : ∀ s s', g s = g s' → g' s = g' s') : Leaves g' m :=
  fun s => (h s).mono hg hg

-- A property that only depends on `g` is maintained.
theorem Leaves.maintains {I : σ → Prop} {m : Code σ ε α} (h : Leaves g m)
    (hI : ∀ s s', g s = g s' → I s → I s') : Maintains I m := by
  intro s hs
  have h := h s
  simp only [holds]
  generalize m s = t at h
  induction t generalizing s
  case ret    => exact hI _ _ h hs
  case revert => trivial
  case call s' k hi =>
    exact ⟨hI _ _ h.left hs, fun s'' hs'' => hi s'' s'' hs'' (h.right s'')⟩

-- A relation that allows all changes which leave `g` as it is.
theorem Leaves.within {τ : Type} {R : σ × τ → σ × τ → Prop} {m : Code σ ε α} (h : Leaves g m)
    (trans : ∀ {p₁ p₂ p₃}, R p₁ p₂ → R p₂ p₃ → R p₁ p₃)
    (hR : ∀ s s' t, g s = g s' → R (s, t) (s', t)) : Within R (zoom m) := by
  intro p₀ p hp
  have h := h p.fst
  simp only [wp, zoom]
  generalize m p.fst = t at h
  induction t generalizing p
  case ret    => exact trans hp (hR _ _ _ h)
  case revert => trivial
  case call s k hi =>
    intro p' hp'
    exact hi _ p' (trans hp <| trans (hR _ _ _ h.left) hp') (h.right _)

end Code
end Reentrant
