import Mathlib.Logic.Basic

namespace Machine

variable {σ ι : Type*} {step : σ → ι → σ} {s : σ} {is is' : List ι}

-- The state after a list of inputs.
def run (step : σ → ι → σ) (is : List ι) (s : σ) : σ :=
  is.foldl step s

-- Each input meets `P` in the state in which it arrives.
def Along (step : σ → ι → σ) (P : σ → ι → Prop) : List ι → σ → Prop
  | [],      _ => True
  | i :: is, s => P s i ∧ Along step P is (step s i)

instance {P : σ → ι → Prop} [∀ s i, Decidable (P s i)] : Decidable (Along step P is s) :=
  go is s
where
  go : ∀ is s, Decidable (Along step P is s)
    | [],      _ => .isTrue trivial
    | i :: is, s => @instDecidableAnd _ _ _ (go is (step s i))

theorem run_append : run step (is ++ is') s = run step is' (run step is s) :=
  List.foldl_append

theorem along_append {P : σ → ι → Prop} :
    Along step P (is ++ is') s ↔ Along step P is s ∧ Along step P is' (run step is s) := by
  induction is generalizing s
  case nil          => simp [Along, run]
  case cons i is hi => simp only [List.cons_append, Along, hi, and_assoc]; rfl

theorem Along.mono {P Q : σ → ι → Prop} (h : ∀ s i, P s i → Q s i) (ha : Along step P is s) :
    Along step Q is s := by
  induction is generalizing s
  case nil          => trivial
  case cons i is hi => exact ⟨h _ _ ha.left, hi ha.right⟩

theorem Along.of_forall {P : ι → Prop} (h : ∀ i ∈ is, P i) : Along step (fun _ => P) is s := by
  induction is generalizing s
  case nil          => trivial
  case cons i is hi => exact ⟨h i (by simp), hi fun j hj => h j (by simp [hj])⟩

-- An invariant that is kept by inputs which meet `P` holds along runs of such inputs.
theorem run_invariant {I : σ → Prop} {P : σ → ι → Prop}
    (hs : ∀ s i, I s → P s i → I (step s i)) (h : I s) (ha : Along step P is s) :
    I (run step is s) := by
  induction is generalizing s
  case nil          => exact h
  case cons i is hi => exact hi (hs _ _ h ha.left) ha.right

-- What such an invariant implies for each input holds along these runs.
theorem Along.of_invariant {I : σ → Prop} {P Q : σ → ι → Prop}
    (hs : ∀ s i, I s → P s i → I (step s i)) (hq : ∀ s i, I s → P s i → Q s i) (h : I s)
    (ha : Along step P is s) : Along step Q is s := by
  induction is generalizing s
  case nil          => trivial
  case cons i is hi => exact ⟨hq _ _ h ha.left, hi (hs _ _ h ha.left) ha.right⟩

theorem run_keeps {I : σ → Prop} (hs : ∀ s i, I s → I (step s i)) (h : I s) :
    I (run step is s) :=
  run_invariant (fun s i h _ => hs s i h) h <| .of_forall (P := fun _ => True) fun _ _ => trivial

-- What a trap excludes can be reached only if the machine is not trapped.
theorem reaches_iff {T G : σ → Prop} {p : Prop} (hk : ∀ s i, T s → T (step s i))
    (hg : ∀ s, T s → ¬G s) (hp : p → G s) (ht : ¬p → T s) : (∃ is, G (run step is s)) ↔ p := by
  constructor
  case mp  =>
    rintro ⟨is, h⟩
    refine Classical.byContradiction fun hn => ?_
    exact hg _ (run_keeps hk <| ht hn) h
  case mpr => exact fun h => ⟨[], hp h⟩

-- A machine that is trapped as soon as an input does not meet `P` shows at the end of a run whether
-- all have met it.
theorem along_iff {I T : σ → Prop} {P : σ → ι → Prop} (hs : ∀ s i, I s → P s i → I (step s i))
    (ht : ∀ s i, I s → ¬P s i → T (step s i)) (hk : ∀ s i, T s → T (step s i))
    (hi : ∀ s, I s → ¬T s) (h : I s) : ¬T (run step is s) ↔ Along step P is s := by
  induction is generalizing s
  case nil          => exact iff_of_true (hi _ h) trivial
  case cons i is hi =>
    by_cases hp : P s i
    · exact (hi (hs _ _ h hp)).trans (by simp [Along, hp])
    · have hr : T (run step is (step s i)) := run_keeps hk (ht _ _ h hp)
      exact iff_of_false (· hr) (hp ·.left)

end Machine
