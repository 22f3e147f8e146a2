import AtomicSwap.Library.Reentrant.Frame

namespace Reentrant

namespace Code

variable {σ ε α β : Type} {R : σ → σ → Prop}

-- Wherever it has control, the code itself stays within `R`.
def Moves (R : σ → σ → Prop) (m : Code σ ε α) : Prop :=
  ∀ s, (m s).Stretches R R s

theorem moves_bind {m : Code σ ε α} {f : α → Code σ ε β}
    (trans : ∀ {s₁ s₂ s₃}, R s₁ s₂ → R s₂ s₃ → R s₁ s₃) (hm : Moves R m)
    (hf : ∀ a, Moves R (f a)) : Moves R (m >>= f) :=
  fun s => (hm s).bind trans hf

theorem moves_modify {f : σ → σ} (h : ∀ s, R s (f s)) : Moves R (modify f : Code σ ε Unit) :=
  h

-- Code that leaves `g` as it is stays within every relation that allows this.
theorem Leaves.moves {δ : Type} {g : σ → δ} {m : Code σ ε α} (h : Leaves g m)
    (hR : ∀ s s', g s = g s' → R s s') : Moves R m :=
  fun s => (h s).mono hR hR

end Code

variable {σ ε γ β : Type}

-- What is known of the calls in a journal: each of them has met `Q`, and since its end the state
-- has changed by `R`.
structure Entries (R : σ → σ → Prop) (Q : β → γ → σ → σ → Prop) (p : σ × List (Entry β γ σ)) :
    Prop where
  post  : ∀ e ∈ p.snd, Q e.block e.call e.before e.after
  since : ∀ e ∈ p.snd, R e.after p.fst

structure Entries.Kept (R : σ → σ → Prop) (Q : β → γ → σ → σ → Prop)
    (p p' : σ × List (Entry β γ σ)) : Prop where
  moved   : R p.fst p'.fst
  entries : Entries R Q p → Entries R Q p'

namespace Entries

variable {R : σ → σ → Prop} {Q : β → γ → σ → σ → Prop} {p p₁ p₂ p₃ : σ × List (Entry β γ σ)}
  (hr : ∀ s, R s s) (ht : ∀ s₁ s₂ s₃, R s₁ s₂ → R s₂ s₃ → R s₁ s₃)

include ht

theorem Kept.trans (h₁ : Kept R Q p₁ p₂) (h₂ : Kept R Q p₂ p₃) : Kept R Q p₁ p₃ :=
  ⟨ht _ _ _ h₁.moved h₂.moved, fun h => h₂.entries (h₁.entries h)⟩

theorem Kept.of_moved {s s' : σ} {es : List (Entry β γ σ)} (h : R s s') :
    Kept R Q (s, es) (s', es) :=
  ⟨h, fun he => ⟨he.post, fun e hm => ht _ _ _ (he.since e hm) h⟩⟩

-- The induction is on the tree: up to each call the code moves on from where control came back to
-- it, and the calls that are made meanwhile keep the entries by assumption.
theorem sat_zoom {α : Type} {t : Tree σ ε α} {s : σ} {es : List (Entry β γ σ)}
    {Qt : α → σ → Prop} {E : ε → Prop} (hm : t.Stretches R R s) (hw : t.Sat R Qt E)
    (hk : Kept R Q p (s, es)) :
    (t.zoom es).Sat (Kept R Q) (fun a p' => Qt a p'.fst ∧ Kept R Q p p') (fun _ => True) := by
  induction t generalizing s es
  case ret    => exact ⟨hw, hk.trans ht <| .of_moved ht hm⟩
  case revert => trivial
  case call s' k hi =>
    intro p' hp
    have hk := (hk.trans ht <| .of_moved ht hm.left).trans ht hp
    exact hi p'.fst (hm.right _) (hw _ hp.moved) hk

variable {step : β → γ → Code σ ε Unit} {P : β → γ → Prop}
  (moves : ∀ b c, P b c → Code.Moves R (step b c))
  (post : ∀ b c, P b c → ∀ s, Code.wp R (step b c) (fun _ => Q b c s) (fun _ => True) s)

include hr moves post

theorem guarantees (b : β) :
    Guarantees (record step b) (Kept R Q) (fun _ _ => True) (P b) where
  refl p := ⟨hr p.fst, id⟩
  trans  := .trans ht
  call c hc p := by
    have h := sat_zoom ht (moves b c hc p.fst) (post b c hc p.fst)
      (⟨hr p.fst, id⟩ : Kept R Q p (p.fst, p.snd))
    simp only [record, Code.wp_bind, Code.wp_get]
    refine Code.wp.mono h (fun _ p' hp => ?_) fun _ _ => trivial
    obtain ⟨hq, hk⟩ := hp
    refine ⟨hk.moved, fun he => ⟨fun e hm => ?_, fun e hm => ?_⟩⟩
    all_goals
      obtain hm | rfl := (by simpa using hm : e ∈ p'.snd ∨ e = ⟨b, c, p.fst, p'.fst⟩)
    · exact (hk.entries he).post e hm
    · exact hq
    · exact (hk.entries he).since e hm
    · exact hr _

-- Each call of a run has met its postcondition, and everything after it stays within `R`.
theorem journal [CallFailure ε] {txs : List (β × Act γ)} {s : σ}
    (h : ∀ tx ∈ txs, tx.snd.All (P tx.fst)) :
    Entries R Q (runTxs step txs s, Reentrant.journal step txs s) := by
  have hk := journal_guarantees (fun p => ⟨hr p.fst, id⟩) (guarantees hr ht moves post) s txs h
  exact hk.entries ⟨by simp, by simp⟩

end Entries
end Reentrant
