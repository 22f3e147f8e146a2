import AtomicSwap.Library.Reentrant

namespace Reentrant

namespace Tree

variable {σ ε α β : Type} {I : σ → Prop}

-- The states in which a tree hands over control and the one in which it returns. A reply consists
-- of the states that are visible while it runs and of the one in which it returns.
def visible : Tree σ ε α → List (σ → List σ × Option σ) → List σ
  | ret _ s,  _       => [s]
  | revert _, _       => []
  | call s k, []      => s :: (k s).visible []
  | call s k, f :: fs =>
    s :: ((f s).fst ++
      match (f s).snd with
      | some s' => (k s').visible fs
      | none    => [])

-- `I` holds whenever control is handed over, provided that it holds whenever control comes back.
def Holds (I : σ → Prop) (Q : α → σ → Prop) : Tree σ ε α → Prop
  | ret a s  => Q a s
  | revert _ => True
  | call s k => I s ∧ ∀ s', I s' → (k s').Holds I Q

theorem holds_bind {Q : β → σ → Prop} (t : Tree σ ε α) (f : α → σ → Tree σ ε β) :
    (t.bind f).Holds I Q ↔ t.Holds I (fun a s => (f a s).Holds I Q) := by
  induction t
  case ret         => rfl
  case revert      => rfl
  case call s k hi =>
    exact and_congr_right' <| forall_congr' fun s' => imp_congr_right fun _ => hi s'

theorem Holds.mono {Q₁ Q₂ : α → σ → Prop} {t : Tree σ ε α} (h : t.Holds I Q₁)
    (hq : ∀ a s, Q₁ a s → Q₂ a s) : t.Holds I Q₂ := by
  induction t
  case ret a s     => exact hq a s h
  case revert      => trivial
  case call s k hi => exact ⟨h.left, fun s' hs => hi s' (h.right s' hs)⟩

theorem Holds.sat {Q : α → σ → Prop} {t : Tree σ ε α} (h : t.Holds I Q) :
    t.Sat (fun s s' => I s → I s') Q (fun _ => True) := by
  induction t
  case ret         => exact h
  case revert      => trivial
  case call s k hi => exact fun s' hs => hi s' <| h.right s' <| hs h.left

-- A tree that never hands over control ends in the same way for all replies.
theorem Holds.run [CallFailure ε] {R : σ → σ → Prop} {Q : α → σ → Prop} {t : Tree σ ε α}
    {fs : List (Option (σ → σ))} (h : t.Holds (fun _ => False) fun _ _ => True)
    (hs : t.Sat R Q fun _ => False) : ∃ a s, t.run fs = .ok s ∧ Q a s := by
  cases t
  case ret a s => exact ⟨a, s, rfl, hs⟩
  case revert  => exact hs.elim
  case call    => exact h.left.elim

-- Replies that keep `I` lead a tree only through states that satisfy it.
theorem Holds.visible {t : Tree σ ε α} {fs : List (σ → List σ × Option σ)}
    (h : t.Holds I fun _ => I)
    (hf : ∀ f ∈ fs, ∀ s, I s → (∀ s' ∈ (f s).snd, I s') ∧ ∀ s' ∈ (f s).fst, I s') :
    ∀ s ∈ t.visible fs, I s := by
  induction t generalizing fs
  case ret    => exact List.forall_mem_singleton.mpr h
  case revert => simp [Tree.visible]
  case call s k hi =>
    cases fs
    case nil => simpa [Tree.visible, h.left] using hi s (h.right s h.left) (by simp)
    case cons f fs =>
      obtain ⟨he, hv⟩ := hf f (by simp) s h.left
      simp only [Tree.visible, List.forall_mem_cons, List.forall_mem_append]
      refine ⟨h.left, hv, ?_⟩
      split
      case h_1 s' hs => exact hi s' (h.right s' <| he s' hs) fun g hg => hf g (by simp [hg])
      case h_2       => simp

end Tree

namespace Code

variable {σ ε α β : Type} {I : σ → Prop} {s : σ}

def holds (I : σ → Prop) (m : Code σ ε α) (Q : α → σ → Prop) (s : σ) : Prop :=
  (m s).Holds I Q

@[simp]
theorem holds_pure {Q : α → σ → Prop} {a : α} : holds I (pure a : Code σ ε α) Q s ↔ Q a s :=
  .rfl

@[simp]
theorem holds_bind {Q : β → σ → Prop} {m : Code σ ε α} {f : α → Code σ ε β} :
    holds I (m >>= f) Q s ↔ holds I m (fun a => holds I (f a) Q) s :=
  Tree.holds_bind (m s) f

@[simp]
theorem holds_get {Q : σ → σ → Prop} : holds I (get : Code σ ε σ) Q s ↔ Q s s :=
  .rfl

@[simp]
theorem holds_modify {Q : Unit → σ → Prop} {f : σ → σ} :
    holds I (modify f : Code σ ε Unit) Q s ↔ Q () (f s) :=
  .rfl

@[simp]
theorem holds_revertIf {Q : Unit → σ → Prop} {p : Prop} [Decidable p] {e : ε} :
    holds I (revertIf p e : Code σ ε Unit) Q s ↔ (¬p → Q () s) := by
  by_cases h : p <;> simp [holds, revertIf, h, Tree.Holds]

@[simp]
theorem holds_lift {Q : α → σ → Prop} {x : Except ε α} :
    holds I (lift x : Code σ ε α) Q s ↔ ∀ a, x = .ok a → Q a s := by
  cases x <;> simp [holds, lift, Tree.Holds]

@[simp]
theorem holds_handOver {Q : Unit → σ → Prop} :
    holds I (handOver : Code σ ε Unit) Q s ↔ I s ∧ ∀ s', I s' → Q () s' :=
  .rfl

@[simp]
theorem holds_ite {Q : α → σ → Prop} {p : Prop} [Decidable p] {m₁ m₂ : Code σ ε α} :
    holds I (if p then m₁ else m₂) Q s ↔ (p → holds I m₁ Q s) ∧ (¬p → holds I m₂ Q s) := by
  by_cases h : p <;> simp [h]

theorem holds.mono {Q₁ Q₂ : α → σ → Prop} {m : Code σ ε α} (h : holds I m Q₁ s)
    (hq : ∀ a s, Q₁ a s → Q₂ a s) : holds I m Q₂ s :=
  Tree.Holds.mono h hq

-- Wherever `m` starts with `I`, it keeps `I` at its end and at each point where it hands over.
def Maintains (I : σ → Prop) (m : Code σ ε α) : Prop :=
  ∀ s, I s → holds I m (fun _ => I) s

theorem maintains_pure {a : α} : Maintains I (pure a : Code σ ε α) :=
  fun _ h => h

theorem maintains_bind {m : Code σ ε α} {f : α → Code σ ε β} (hm : Maintains I m)
    (hf : ∀ a, Maintains I (f a)) : Maintains I (m >>= f) :=
  fun s h => holds_bind.mpr <| (hm s h).mono fun a s' h' => hf a s' h'

theorem maintains_get : Maintains I (get : Code σ ε σ) :=
  fun _ h => h

theorem maintains_modify {f : σ → σ} (h : ∀ s, I s → I (f s)) :
    Maintains I (modify f : Code σ ε Unit) :=
  h

theorem maintains_revertIf {p : Prop} [Decidable p] {e : ε} :
    Maintains I (revertIf p e : Code σ ε Unit) :=
  fun _ h => holds_revertIf.mpr fun _ => h

theorem maintains_lift {x : Except ε α} : Maintains I (lift x : Code σ ε α) :=
  fun _ h => holds_lift.mpr fun _ _ => h

end Code

section Exec

variable {σ ε γ : Type} [CallFailure ε] (step : γ → Code σ ε Unit)

-- The states that are visible to other code during a call and after it.
mutual

def visible : Act γ → σ → List σ
  | ⟨c, rs⟩, s => (step c s).visible (visibleReplies rs)

def visibleReplies : List (Reply (Act γ)) → List (σ → List σ × Option σ)
  | []      => []
  | r :: rs => visibleReply r :: visibleReplies rs

def visibleReply : Reply (Act γ) → σ → List σ × Option σ
  | .returns as, s => (visibleSeq as s, some (execSeq step as s))
  | .reverts as, s => (visibleSeq as s, none)

def visibleSeq : List (Act γ) → σ → List σ
  | [],      _ => []
  | a :: as, s =>
    match exec step a s with
    | .ok s'   => visible a s ++ visibleSeq as s'
    | .error _ => visible a s ++ visibleSeq as s

end

-- What every call keeps, at its end and at each point where it hands over control.
def Invariant (I : σ → Prop) (P : γ → Prop) : Prop :=
  ∀ c, P c → Code.Maintains I (step c)

variable {step} {I : σ → Prop} {P : γ → Prop}

namespace Invariant

omit [CallFailure ε] in
theorem guarantees (g : Invariant step I P) :
    Guarantees step (fun s s' => I s → I s') (fun _ _ => True) P where
  refl _ h       := h
  trans h₁ h₂ h  := h₂ (h₁ h)
  call c hc s    := by
    by_cases h : I s
    case pos => exact (g c hc s h).sat.mono (fun _ _ h' _ => h') fun _ _ => trivial
    case neg => exact Code.wp_of_forall (fun _ _ h' => absurd h' h) fun _ => trivial

theorem execSeq {as : List (Act γ)} {s : σ} (g : Invariant step I P) (ha : ∀ a ∈ as, a.All P)
    (h : I s) : I (execSeq step as s) :=
  g.guarantees.execSeq as ha s h

mutual

theorem visible (g : Invariant step I P) :
    (a : Act γ) → a.All P → ∀ s, I s → ∀ s' ∈ visible step a s, I s'
  | ⟨c, rs⟩, .mk hc hr, s, h => by
    rw [Reentrant.visible]
    exact Tree.Holds.visible (g c hc s h) <| g.visibleReplies rs hr

theorem visibleReplies (g : Invariant step I P) :
    (rs : List (Reply (Act γ))) → (∀ r ∈ rs, ∀ a ∈ r.acts, a.All P) →
    ∀ f ∈ visibleReplies step rs, ∀ s, I s → (∀ s' ∈ (f s).snd, I s') ∧ ∀ s' ∈ (f s).fst, I s'
  | [],      _ => by simp [Reentrant.visibleReplies]
  | r :: rs, h => by
    simp only [Reentrant.visibleReplies, List.mem_cons, forall_eq_or_imp]
    exact ⟨g.visibleReply r (h r <| by simp), g.visibleReplies rs fun r' hr => h r' (by simp [hr])⟩

theorem visibleReply (g : Invariant step I P) :
    (r : Reply (Act γ)) → (∀ a ∈ r.acts, a.All P) → ∀ s, I s →
    (∀ s' ∈ (visibleReply step r s).snd, I s') ∧ ∀ s' ∈ (visibleReply step r s).fst, I s'
  | .returns as, h, s, hs => by
    rw [Reentrant.visibleReply]
    refine ⟨?_, g.visibleSeq as h s hs⟩
    rintro _ ⟨rfl⟩
    exact g.execSeq h hs
  | .reverts as, h, s, hs => by
    rw [Reentrant.visibleReply]
    exact ⟨by simp, g.visibleSeq as h s hs⟩

theorem visibleSeq (g : Invariant step I P) :
    (as : List (Act γ)) → (∀ a ∈ as, a.All P) → ∀ s, I s → ∀ s' ∈ visibleSeq step as s, I s'
  | [],      _, s, _ => by simp [Reentrant.visibleSeq]
  | a :: as, h, s, hs => by
    have hv := g.visible a (h a <| by simp) s hs
    have hi := g.visibleSeq as fun a' ha => h a' (by simp [ha])
    rw [Reentrant.visibleSeq]
    cases he : exec step a s
    case error => exact List.forall_mem_append.mpr ⟨hv, hi s hs⟩
    case ok s₁ =>
      have hs₁ : I s₁ := g.guarantees.exec_ok (h a <| by simp) he hs
      exact List.forall_mem_append.mpr ⟨hv, hi s₁ hs₁⟩

end

end Invariant

-- A call that neither reverts nor hands over control succeeds, whatever other code there is.
theorem exec_ok_of_holds {c : γ} {rs : List (Reply (Act γ))} {s : σ} {Q : Unit → σ → Prop}
    (hw : Code.wp (fun _ _ => True) (step c) Q (fun _ => False) s)
    (h : Code.holds (fun _ => False) (step c) (fun _ _ => True) s) :
    ∃ s', exec step ⟨c, rs⟩ s = .ok s' ∧ Q () s' := by
  rw [exec]
  obtain ⟨_, s', hr, hq⟩ := h.run hw
  exact ⟨s', hr, hq⟩

end Exec

section Txs

variable {σ ε γ β : Type} [CallFailure ε] (step : β → γ → Code σ ε Unit)

-- All states that are visible in a sequence of transactions, the first and the last included.
def visibleTxs : List (β × Act γ) → σ → List σ
  | [],            s => [s]
  | ⟨b, a⟩ :: txs, s =>
    match exec (step b) a s with
    | .ok s'   => s :: (visible (step b) a s ++ visibleTxs txs s')
    | .error _ => s :: (visible (step b) a s ++ visibleTxs txs s)

variable {step} {I : σ → Prop} {P : β → γ → Prop} {s : σ}

theorem mem_visibleTxs (txs : List (β × Act γ)) : runTxs step txs s ∈ visibleTxs step txs s := by
  induction txs generalizing s
  case nil            => simp [runTxs, visibleTxs]
  case cons tx txs hi =>
    cases he : exec (step tx.fst) tx.snd s <;> simp [runTxs, visibleTxs, he, hi]

theorem visibleTxs_invariant (g : ∀ b, Invariant (step b) I (P b)) (txs : List (β × Act γ))
    (ht : ∀ tx ∈ txs, tx.snd.All (P tx.fst)) (h : I s) : ∀ s' ∈ visibleTxs step txs s, I s' := by
  induction txs generalizing s
  case nil => simpa [visibleTxs] using h
  case cons tx txs hi =>
    have ha := ht tx (by simp)
    have hv := (g tx.fst).visible tx.snd ha s h
    have hi := fun s (h : I s) => hi (fun tx' htx => ht tx' (by simp [htx])) h
    cases he : exec (step tx.fst) tx.snd s
    all_goals simp only [visibleTxs, he, List.forall_mem_cons, List.forall_mem_append]
    case error => exact ⟨h, hv, hi s h⟩
    case ok s₁ => exact ⟨h, hv, hi s₁ <| (g tx.fst).guarantees.exec_ok ha he h⟩

end Txs
end Reentrant
