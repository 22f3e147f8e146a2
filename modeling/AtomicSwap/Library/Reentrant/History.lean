import AtomicSwap.Library.Reentrant
import Mathlib.Data.List.Forall2

namespace Reentrant

namespace Tree

variable {σ τ ε α β : Type}

-- The same tree over states with a second part that it does not touch.
def zoom : Tree σ ε α → τ → Tree (σ × τ) ε α
  | ret a s,  t => ret a (s, t)
  | revert e, _ => revert e
  | call s k, t => call (s, t) fun p => (k p.fst).zoom p.snd

theorem zoom_bind {f : α → σ → Tree σ ε β} (tr : Tree σ ε α) (t : τ) :
    (tr.bind f).zoom t = (tr.zoom t).bind fun a p => (f a p.fst).zoom p.snd := by
  induction tr generalizing t
  case ret         => rfl
  case revert      => rfl
  case call s k hi => simp only [bind, zoom, hi]

-- Replies that agree on the first part of the state.
def Agree (f : σ × τ → σ × τ) (g : σ → σ) : Prop :=
  ∀ p, (f p).fst = g p.fst

-- They lead to the same first part, also if the second one is changed at the end.
theorem run_zoom [CallFailure ε] {tr : Tree σ ε α} {t : τ} {n : σ × τ → τ}
    {fs : List (Option (σ × τ → σ × τ))} {gs : List (Option (σ → σ))}
    (h : List.Forall₂ (Option.Rel Agree) fs gs) :
    (((tr.zoom t).bind fun _ p => ret () (p.fst, n p)).run fs).map Prod.fst = tr.run gs := by
  induction tr generalizing t fs gs
  case ret    => rfl
  case revert => rfl
  case call s k hi =>
    cases h
    case nil       => exact hi s .nil
    case cons hf h =>
      cases hf
      case some hf => simp only [zoom, bind, run, ← hf (s, t), hi _ h]
      case none    => rfl

theorem Sat.zoom {R : σ → σ → Prop} {R' : σ × τ → σ × τ → Prop} {Q : α → σ → Prop} {E : ε → Prop}
    {tr : Tree σ ε α} {t : τ} (h : tr.Sat R Q E) (hr : ∀ p p', R' p p' → R p.fst p'.fst) :
    (tr.zoom t).Sat R' (fun a p => Q a p.fst) E := by
  induction tr generalizing t
  case ret         => exact h
  case revert      => exact h
  case call s k hi => exact fun p' hp => hi p'.fst (h _ <| hr _ p' hp)

end Tree

namespace Code

variable {σ τ ε α β : Type}

def zoom (m : Code σ ε α) : Code (σ × τ) ε α :=
  fun p => (m p.fst).zoom p.snd

@[simp]
theorem zoom_pure {a : α} : (zoom (pure a) : Code (σ × τ) ε α) = pure a :=
  rfl

@[simp]
theorem zoom_bind {m : Code σ ε α} {f : α → Code σ ε β} :
    (zoom (m >>= f) : Code (σ × τ) ε β) = zoom m >>= fun a => zoom (f a) :=
  funext fun p => Tree.zoom_bind (m p.fst) p.snd

@[simp]
theorem zoom_get : (zoom get : Code (σ × τ) ε σ) = get >>= fun p => pure p.fst :=
  rfl

@[simp]
theorem zoom_modify {f : σ → σ} :
    (zoom (modify f) : Code (σ × τ) ε Unit) = modify fun p => (f p.fst, p.snd) :=
  rfl

@[simp]
theorem zoom_revertIf {p : Prop} [Decidable p] {e : ε} :
    (zoom (revertIf p e) : Code (σ × τ) ε Unit) = revertIf p e := by
  funext s
  by_cases h : p <;> simp [zoom, revertIf, h, Tree.zoom]

@[simp]
theorem zoom_lift {x : Except ε α} : (zoom (lift x) : Code (σ × τ) ε α) = lift x := by
  cases x <;> rfl

@[simp]
theorem zoom_handOver : (zoom handOver : Code (σ × τ) ε Unit) = handOver :=
  rfl

@[simp]
theorem zoom_ite {p : Prop} [Decidable p] {m₁ m₂ : Code σ ε α} :
    (zoom (if p then m₁ else m₂) : Code (σ × τ) ε α) = if p then zoom m₁ else zoom m₂ := by
  by_cases h : p <;> simp [h]

-- What is known of code stays true when the state has a second part.
theorem wp.zoom {R : σ → σ → Prop} {R' : σ × τ → σ × τ → Prop} {Q : α → σ → Prop} {E : ε → Prop}
    {m : Code σ ε α} {p : σ × τ} (h : wp R m Q E p.fst) (hr : ∀ p p', R' p p' → R p.fst p'.fst) :
    wp R' (Code.zoom m) (fun a p => Q a p.fst) E p :=
  Tree.Sat.zoom h hr

end Code

-- A call that was made and not undone, with the states before and after it.
structure Entry (β γ σ : Type) where
  block  : β
  call   : γ
  before : σ
  after  : σ

section Record

variable {σ ε γ β : Type} [CallFailure ε] (step : β → γ → Code σ ε Unit)

-- Each call notes itself when it is over. If the code that has made the call reverts, then the note
-- is lost with everything else that the call has done.
def record (b : β) (c : γ) : Code (σ × List (Entry β γ σ)) ε Unit := do
  let p ← .get
  (step b c).zoom
  .modify fun p' => (p'.fst, p'.snd ++ [⟨b, c, p.fst, p'.fst⟩])

variable {step} {b : β}

-- To record the calls does not change what they do.
mutual

theorem exec_record : (a : Act γ) → (p : σ × List (Entry β γ σ)) →
    (exec (record step b) a p).map Prod.fst = exec (step b) a p.fst
  | ⟨c, rs⟩, p => by
    simp only [exec]
    exact Tree.run_zoom <| execReplies_record rs

theorem execReplies_record : (rs : List (Reply (Act γ))) →
    List.Forall₂ (Option.Rel Tree.Agree) (execReplies (record step b) rs)
      (execReplies (step b) rs)
  | []      => by simp [execReplies]
  | r :: rs => by
    simp only [execReplies]
    exact .cons (execReply_record r) (execReplies_record rs)

theorem execReply_record : (r : Reply (Act γ)) →
    Option.Rel Tree.Agree (execReply (record step b) r) (execReply (step b) r)
  | .returns as => by
    simp only [execReply]
    exact .some (execSeq_record as)
  | .reverts _  => by
    simp only [execReply]
    exact .none

theorem execSeq_record : (as : List (Act γ)) → (p : σ × List (Entry β γ σ)) →
    (execSeq (record step b) as p).fst = execSeq (step b) as p.fst
  | [],      _ => by simp [execSeq]
  | a :: as, p => by
    have ha := exec_record a p
    cases hp : exec (record step b) a p
    all_goals
      simp only [hp, Except.map] at ha
      simp only [execSeq, hp, ← ha, execSeq_record as]

end

theorem runTxs_record (txs : List (β × Act γ)) (p : σ × List (Entry β γ σ)) :
    (runTxs (record step) txs p).fst = runTxs step txs p.fst := by
  induction txs generalizing p
  case nil => rfl
  case cons tx txs hi =>
    have ha : _ = exec (step tx.fst) tx.snd p.fst := exec_record tx.snd p
    cases hp : exec (record step tx.fst) tx.snd p
    all_goals
      simp only [hp, Except.map] at ha
      simp only [runTxs, hp, ← ha, hi]

variable (step) in
-- The calls of a sequence of transactions, in the order in which they were over.
def journal (txs : List (β × Act γ)) (s : σ) : List (Entry β γ σ) :=
  (runTxs (record step) txs (s, [])).snd

theorem runTxs_journal (txs : List (β × Act γ)) (s : σ) :
    runTxs (record step) txs (s, []) = (runTxs step txs s, journal step txs s) :=
  Prod.ext (runTxs_record txs (s, [])) rfl

-- What the calls guarantee when they are recorded holds of the whole run and of its journal.
theorem journal_guarantees {R : σ × List (Entry β γ σ) → σ × List (Entry β γ σ) → Prop}
    {E : σ × List (Entry β γ σ) → ε → Prop} {P : β → γ → Prop} (refl : ∀ p, R p p)
    (g : ∀ b, Guarantees (record step b) R E (P b)) (s : σ) (txs : List (β × Act γ))
    (h : ∀ tx ∈ txs, tx.snd.All (P tx.fst)) :
    R (s, []) (runTxs step txs s, journal step txs s) := by
  rw [← runTxs_journal]
  exact runTxs_guarantees refl g (s, []) txs h

end Record
end Reentrant
