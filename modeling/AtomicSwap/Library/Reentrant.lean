import Mathlib.Logic.Relation

namespace Reentrant

-- What code reverts with if code that it has called reverts.
class CallFailure (ε : Type) where
  callFailed : ε

export CallFailure (callFailed)

-- The result of running sequential code up to the next point where it hands over control: it has
-- returned, it has reverted, or it waits for the code it has called. While it waits, the state may
-- change, so the rest of the computation is a function of the state it is resumed in.
inductive Tree (σ ε α : Type)
  | ret (a : α) (s : σ)
  | revert (e : ε)
  | call (s : σ) (k : σ → Tree σ ε α)

namespace Tree

variable {σ ε α β : Type}

def bind : Tree σ ε α → (α → σ → Tree σ ε β) → Tree σ ε β
  | ret a s,  f => f a s
  | revert e, _ => revert e
  | call s k, f => call s (k · |>.bind f)

-- Resumes a tree at each of its calls with the next of the given replies. A call without a reply
-- returns at once and changes nothing, and the reply `none` stands for code that reverts.
def run [CallFailure ε] : Tree σ ε α → List (Option (σ → σ)) → Except ε σ
  | ret _ s,  _            => .ok s
  | revert e, _            => .error e
  | call s k, []           => (k s).run []
  | call _ _, none :: _    => .error callFailed
  | call s k, some f :: fs => (k <| f s).run fs

-- Every path through a tree ends well if the code that it calls does not revert: returns satisfy
-- `Q`, reverts satisfy `E`. Across a call the state may change by any step of `R`.
def Sat (R : σ → σ → Prop) (Q : α → σ → Prop) (E : ε → Prop) : Tree σ ε α → Prop
  | ret a s  => Q a s
  | revert e => E e
  | call s k => ∀ s', R s s' → (k s').Sat R Q E

variable {R : σ → σ → Prop} {E : ε → Prop}

theorem sat_bind {Q : β → σ → Prop} (t : Tree σ ε α) (f : α → σ → Tree σ ε β) :
    (t.bind f).Sat R Q E ↔ t.Sat R (fun a s => (f a s).Sat R Q E) E := by
  induction t
  case ret        => rfl
  case revert     => rfl
  case call s k hi => exact forall_congr' fun s' => imp_congr_right fun _ => hi s'

theorem Sat.mono {Q₁ Q₂ : α → σ → Prop} {E₁ E₂ : ε → Prop} {t : Tree σ ε α}
    (h : t.Sat R Q₁ E₁) (hq : ∀ a s, Q₁ a s → Q₂ a s) (he : ∀ e, E₁ e → E₂ e) :
    t.Sat R Q₂ E₂ := by
  induction t
  case ret a s     => exact hq a s h
  case revert e    => exact he e h
  case call s k hi => exact fun s' hr => hi s' (h s' hr)

theorem Sat.and {Q₁ Q₂ : α → σ → Prop} {E₁ E₂ : ε → Prop} {t : Tree σ ε α} (h₁ : t.Sat R Q₁ E₁)
    (h₂ : t.Sat R Q₂ E₂) : t.Sat R (fun a s => Q₁ a s ∧ Q₂ a s) (fun e => E₁ e ∧ E₂ e) := by
  induction t
  case ret         => exact ⟨h₁, h₂⟩
  case revert      => exact ⟨h₁, h₂⟩
  case call s k hi => exact fun s' hr => hi s' (h₁ s' hr) (h₂ s' hr)

theorem sat_of_forall {Q : α → σ → Prop} (t : Tree σ ε α) (hq : ∀ a s, Q a s) (he : ∀ e, E e) :
    t.Sat R Q E := by
  induction t
  case ret a s     => exact hq a s
  case revert e    => exact he e
  case call s k hi => exact fun s' _ => hi s'

-- Replies that stay within `R` lead a tree only to ends that `Sat` allows, unless one of them is
-- that the called code reverts.
theorem Sat.run [CallFailure ε] {Q : α → σ → Prop} {t : Tree σ ε α} {fs : List (Option (σ → σ))}
    (h : t.Sat R Q E) (refl : ∀ s, R s s) (hf : ∀ f, some f ∈ fs → ∀ s, R s (f s)) :
    (∃ a s, t.run fs = .ok s ∧ Q a s) ∨
    (∃ e, t.run fs = .error e ∧ (E e ∨ none ∈ fs ∧ e = callFailed)) := by
  induction t generalizing fs
  case ret a s  => exact .inl ⟨a, s, rfl, h⟩
  case revert e => exact .inr ⟨e, rfl, .inl h⟩
  case call s k hi =>
    cases fs
    case nil       => exact hi s (h s <| refl s) (by simp)
    case cons f fs =>
      cases f
      case none   => exact .inr ⟨callFailed, rfl, .inr ⟨by simp, rfl⟩⟩
      case some f =>
        have hg (g) (hg : some g ∈ fs) : ∀ s, R s (g s) := hf g (by simp [hg])
        refine (hi _ (h _ <| hf f (by simp) s) hg).imp_right ?_
        rintro ⟨e, he, h⟩
        exact ⟨e, he, h.imp_right fun h => ⟨by simp [h.left], h.right⟩⟩

end Tree

-- Code over a state `σ` that may revert with an `ε`.
def Code (σ ε α : Type) := σ → Tree σ ε α

namespace Code

variable {σ ε α β : Type}

instance : Monad (Code σ ε) where
  pure a s   := .ret a s
  bind m f s := (m s).bind f

def get : Code σ ε σ :=
  fun s => .ret s s

def modify (f : σ → σ) : Code σ ε Unit :=
  fun s => .ret () (f s)

def revert (e : ε) : Code σ ε α :=
  fun _ => .revert e

def revertIf (p : Prop) [Decidable p] (e : ε) : Code σ ε Unit :=
  fun s => if p then .revert e else .ret () s

-- A computation that neither writes the state nor hands over control.
def lift (x : Except ε α) : Code σ ε α :=
  fun s =>
    match x with
    | .ok a    => .ret a s
    | .error e => .revert e

-- Hands over control to other code and continues when that code has returned.
def handOver : Code σ ε Unit :=
  fun s => .call s (.ret ())

-- The weakest precondition of `m` when the code it calls stays within `R`.
def wp (R : σ → σ → Prop) (m : Code σ ε α) (Q : α → σ → Prop) (E : ε → Prop) (s : σ) : Prop :=
  (m s).Sat R Q E

variable {R : σ → σ → Prop} {E : ε → Prop} {s : σ}

@[simp]
theorem wp_pure {Q : α → σ → Prop} {a : α} : wp R (pure a : Code σ ε α) Q E s ↔ Q a s :=
  .rfl

@[simp]
theorem wp_bind {Q : β → σ → Prop} {m : Code σ ε α} {f : α → Code σ ε β} :
    wp R (m >>= f) Q E s ↔ wp R m (fun a => wp R (f a) Q E) E s :=
  Tree.sat_bind (m s) f

@[simp]
theorem wp_get {Q : σ → σ → Prop} : wp R (get : Code σ ε σ) Q E s ↔ Q s s :=
  .rfl

@[simp]
theorem wp_modify {Q : Unit → σ → Prop} {f : σ → σ} :
    wp R (modify f : Code σ ε Unit) Q E s ↔ Q () (f s) :=
  .rfl

@[simp]
theorem wp_revert {Q : α → σ → Prop} {e : ε} : wp R (revert e : Code σ ε α) Q E s ↔ E e :=
  .rfl

@[simp]
theorem wp_revertIf {Q : Unit → σ → Prop} {p : Prop} [Decidable p] {e : ε} :
    wp R (revertIf p e : Code σ ε Unit) Q E s ↔ (p → E e) ∧ (¬p → Q () s) := by
  by_cases h : p <;> simp [wp, revertIf, h, Tree.Sat]

@[simp]
theorem wp_lift {Q : α → σ → Prop} {x : Except ε α} :
    wp R (lift x : Code σ ε α) Q E s ↔ (∀ a, x = .ok a → Q a s) ∧ (∀ e, x = .error e → E e) := by
  cases x <;> simp [wp, lift, Tree.Sat]

@[simp]
theorem wp_handOver {Q : Unit → σ → Prop} :
    wp R (handOver : Code σ ε Unit) Q E s ↔ ∀ s', R s s' → Q () s' :=
  .rfl

@[simp]
theorem wp_ite {Q : α → σ → Prop} {p : Prop} [Decidable p] {m₁ m₂ : Code σ ε α} :
    wp R (if p then m₁ else m₂) Q E s ↔ (p → wp R m₁ Q E s) ∧ (¬p → wp R m₂ Q E s) := by
  by_cases h : p <;> simp [h]

theorem wp.mono {Q₁ Q₂ : α → σ → Prop} {E₁ E₂ : ε → Prop} {m : Code σ ε α}
    (h : wp R m Q₁ E₁ s) (hq : ∀ a s, Q₁ a s → Q₂ a s) (he : ∀ e, E₁ e → E₂ e) :
    wp R m Q₂ E₂ s :=
  Tree.Sat.mono h hq he

theorem wp.and {Q₁ Q₂ : α → σ → Prop} {E₁ E₂ : ε → Prop} {m : Code σ ε α} (h₁ : wp R m Q₁ E₁ s)
    (h₂ : wp R m Q₂ E₂ s) : wp R m (fun a s => Q₁ a s ∧ Q₂ a s) (fun e => E₁ e ∧ E₂ e) s :=
  Tree.Sat.and h₁ h₂

theorem wp_of_forall {Q : α → σ → Prop} {m : Code σ ε α} (hq : ∀ a s, Q a s) (he : ∀ e, E e) :
    wp R m Q E s :=
  Tree.sat_of_forall (m s) hq he

-- All steps of `m` stay within `R`.
def Within (R : σ → σ → Prop) (m : Code σ ε α) : Prop :=
  ∀ s₀ s, R s₀ s → wp R m (fun _ => R s₀) (fun _ => True) s

theorem within_pure {a : α} : Within R (pure a : Code σ ε α) :=
  fun _ _ h => h

theorem within_bind {m : Code σ ε α} {f : α → Code σ ε β} (hm : Within R m)
    (hf : ∀ a, Within R (f a)) : Within R (m >>= f) := by
  intro s₀ s h
  rw [wp_bind]
  exact (hm s₀ s h).mono (fun a s' h' => hf a s₀ s' h') fun _ _ => trivial

theorem within_get : Within R (get : Code σ ε σ) :=
  fun _ _ h => h

theorem within_modify {f : σ → σ} (h : ∀ s₀ s, R s₀ s → R s₀ (f s)) :
    Within R (modify f : Code σ ε Unit) :=
  h

theorem within_revertIf {p : Prop} [Decidable p] {e : ε} :
    Within R (revertIf p e : Code σ ε Unit) := by
  intro s₀ s h
  simp [h]

theorem within_lift {x : Except ε α} : Within R (lift x : Code σ ε α) := by
  intro s₀ s h
  simp [h]

theorem within_handOver (trans : ∀ {s₁ s₂ s₃}, R s₁ s₂ → R s₂ s₃ → R s₁ s₃) :
    Within R (handOver : Code σ ε Unit) :=
  fun _ _ h _ h' => trans h h'

theorem within_ite {p : Prop} [Decidable p] {m₁ m₂ : Code σ ε α} (h₁ : Within R m₁)
    (h₂ : Within R m₂) : Within R (if p then m₁ else m₂) := by
  by_cases h : p <;> simp [h, h₁, h₂]

end Code

-- What code does when it is given control: it makes calls of its own, and then it returns or it
-- reverts.
inductive Reply (α : Type)
  | returns (acts : List α)
  | reverts (acts : List α)

namespace Reply

variable {α : Type}

def acts : Reply α → List α
  | returns as | reverts as => as

def accepts : Reply α → Bool
  | returns _ => true
  | reverts _ => false

end Reply

-- A call of type `γ` together with what the called code does at each point where it is given
-- control. The calls that it makes may hand over control again.
inductive Act (γ : Type)
  | mk (call : γ) (replies : List (Reply (Act γ)))

inductive Act.All {γ : Type} (P : γ → Prop) : Act γ → Prop
  | mk {c : γ} {rs : List (Reply (Act γ))} :
    P c → (∀ r ∈ rs, ∀ a ∈ r.acts, a.All P) → All P ⟨c, rs⟩

theorem Act.All.mono {γ : Type} {P Q : γ → Prop} {a : Act γ} (h : a.All P)
    (hp : ∀ c, P c → Q c) : a.All Q := by
  induction h
  case mk hc _ hi => exact .mk (hp _ hc) hi

theorem Act.sizeOf_lt {γ : Type} {c : γ} {rs : List (Reply (Act γ))} {r : Reply (Act γ)} {a : Act γ}
    (hr : r ∈ rs) (ha : a ∈ r.acts) : sizeOf a < sizeOf (Act.mk c rs) := by
  have hr := List.sizeOf_lt_of_mem hr
  have ha := List.sizeOf_lt_of_mem ha
  cases r
  all_goals
    simp only [Reply.acts, Reply.returns.sizeOf_spec, Reply.reverts.sizeOf_spec, mk.sizeOf_spec]
      at hr ha ⊢
    omega

theorem Act.All.of_forall {γ : Type} {P : γ → Prop} (h : ∀ c, P c) (a : Act γ) : a.All P := by
  obtain ⟨c, rs⟩ := a
  exact .mk (h c) fun r hr a ha => of_forall h a
termination_by a
decreasing_by exact Act.sizeOf_lt hr ha

section Exec

variable {σ ε γ : Type} [CallFailure ε] (step : γ → Code σ ε Unit)

-- A nested call that reverts is undone, and the code that made it may go on.
mutual

def exec : Act γ → σ → Except ε σ
  | ⟨c, rs⟩, s => (step c s).run (execReplies rs)

def execReplies : List (Reply (Act γ)) → List (Option (σ → σ))
  | []      => []
  | r :: rs => execReply r :: execReplies rs

def execReply : Reply (Act γ) → Option (σ → σ)
  | .returns as => some (execSeq as)
  | .reverts _  => none

def execSeq : List (Act γ) → σ → σ
  | [],      s => s
  | a :: as, s =>
    match exec a s with
    | .ok s'   => execSeq as s'
    | .error _ => execSeq as s

end

-- What every call of a contract guarantees, given that all other calls guarantee it as well.
structure Guarantees (R : σ → σ → Prop) (E : σ → ε → Prop) (P : γ → Prop) : Prop where
  refl  : ∀ s, R s s
  trans : ∀ {s₁ s₂ s₃}, R s₁ s₂ → R s₂ s₃ → R s₁ s₃
  call  : ∀ c, P c → ∀ s, Code.wp R (step c) (fun _ => R s) (E s) s

variable {step} {R : σ → σ → Prop} {E : σ → ε → Prop} {P : γ → Prop}

-- A call that succeeds ends in a state that its weakest precondition allows.
theorem exec_wp_of_replies {c : γ} {rs : List (Reply (Act γ))} {s s' : σ} {Q : Unit → σ → Prop}
    {E : ε → Prop} (refl : ∀ s, R s s) (hr : ∀ f, some f ∈ execReplies step rs → ∀ s, R s (f s))
    (hw : Code.wp R (step c) Q E s) (h : exec step ⟨c, rs⟩ s = .ok s') : Q () s' := by
  rw [exec] at h
  cases hw.run refl hr
  case inl hw => have ⟨_, _, hw, hq⟩ := hw; simp_all
  case inr hw => have ⟨_, hw, _⟩ := hw; simp_all

-- Whatever the other code does, a call reverts for one of the reasons that are allowed, or because
-- the other code has reverted.
theorem exec_error_wp {c : γ} {rs : List (Reply (Act γ))} {s : σ} {e : ε} {Q : Unit → σ → Prop}
    {E : ε → Prop} (hw : Code.wp (fun _ _ => True) (step c) Q E s)
    (h : exec step ⟨c, rs⟩ s = .error e) : E e ∨ e = callFailed := by
  have hr : ∀ f, some f ∈ execReplies step rs → ∀ s : σ, (fun _ _ => True) s (f s) :=
    fun _ _ _ => trivial
  rw [exec] at h
  obtain ⟨_, _, hw, _⟩ | ⟨_, hw, he⟩ := hw.run (fun _ => trivial) hr
  · cases hw.symm.trans h
  · obtain rfl := Except.error.inj (hw.symm.trans h)
    exact he.imp_right And.right

namespace Guarantees

omit [CallFailure ε] in
theorem of_within (refl : ∀ s, R s s) (trans : ∀ {s₁ s₂ s₃}, R s₁ s₂ → R s₂ s₃ → R s₁ s₃)
    (h : ∀ c, P c → Code.Within R (step c)) : Guarantees step R (fun _ _ => True) P where
  refl       := refl
  trans      := trans
  call c hc s := h c hc s s (refl s)

-- The induction is on the tree of calls: the replies to a call stay within `R`, so its own code,
-- checked against such replies, does so as well.
mutual

theorem exec (g : Guarantees step R E P) :
    (a : Act γ) → a.All P → (s : σ) →
    (∃ s', exec step a s = .ok s' ∧ R s s') ∨
    (∃ e, exec step a s = .error e ∧ (E s e ∨ e = callFailed))
  | ⟨c, rs⟩, .mk hc hr, s => by
    rw [Reentrant.exec]
    obtain ⟨_, s', h, hr⟩ | ⟨e, h, he⟩ := (g.call c hc s).run g.refl <| g.execReplies rs hr
    · exact .inl ⟨s', h, hr⟩
    · exact .inr ⟨e, h, he.imp_right And.right⟩

theorem execReplies (g : Guarantees step R E P) :
    (rs : List (Reply (Act γ))) → (∀ r ∈ rs, ∀ a ∈ r.acts, a.All P) →
    ∀ f, some f ∈ execReplies step rs → ∀ s, R s (f s)
  | [],      _, f, hf => by simp [Reentrant.execReplies] at hf
  | r :: rs, h, f, hf => by
    simp only [Reentrant.execReplies, List.mem_cons] at hf
    obtain hf | hf := hf
    · exact g.execReply r (h r (by simp)) f hf.symm
    · exact g.execReplies rs (fun r' hr => h r' (by simp [hr])) f hf

theorem execReply (g : Guarantees step R E P) :
    (r : Reply (Act γ)) → (∀ a ∈ r.acts, a.All P) →
    ∀ f, execReply step r = some f → ∀ s, R s (f s)
  | .returns as, h, f, hf, s => by
    obtain rfl := Option.some.inj <| (Reentrant.execReply.eq_1 step as).symm.trans hf
    exact g.execSeq as h s
  | .reverts _,  _, _, hf, _ => by simp [Reentrant.execReply] at hf

theorem execSeq (g : Guarantees step R E P) :
    (as : List (Act γ)) → (∀ a ∈ as, a.All P) → ∀ s, R s (execSeq step as s)
  | [],      _, s => g.refl s
  | a :: as, h, s => by
    have hi := g.execSeq as fun a' ha => h a' (by simp [ha])
    cases g.exec a (h a (by simp)) s
    case inl ha => have ⟨s', ha, hr⟩ := ha; simp [Reentrant.execSeq, ha, g.trans hr (hi s')]
    case inr ha => have ⟨_, ha, _⟩ := ha; simp [Reentrant.execSeq, ha, hi s]

end

theorem exec_ok {a : Act γ} {s s' : σ} (g : Guarantees step R E P) (ha : a.All P)
    (h : Reentrant.exec step a s = .ok s') : R s s' := by
  cases g.exec a ha s
  case inl hr => have ⟨_, hr, hs⟩ := hr; simp_all
  case inr hr => have ⟨_, hr, _⟩ := hr; simp_all

theorem exec_error {a : Act γ} {s : σ} {e : ε} (g : Guarantees step R E P) (ha : a.All P)
    (hf : E s callFailed) (h : Reentrant.exec step a s = .error e) : E s e := by
  obtain ⟨_, hr, _⟩ | ⟨_, hr, he⟩ := g.exec a ha s
  · simp_all
  · obtain rfl := Except.error.inj (hr.symm.trans h)
    exact he.elim id fun he => he ▸ hf

theorem exec_wp {c : γ} {rs : List (Reply (Act γ))} {s s' : σ} {Q : Unit → σ → Prop}
    {E' : ε → Prop} (g : Guarantees step R E P) (hr : ∀ r ∈ rs, ∀ a ∈ r.acts, a.All P)
    (hw : Code.wp R (step c) Q E' s) (h : Reentrant.exec step ⟨c, rs⟩ s = .ok s') : Q () s' :=
  exec_wp_of_replies g.refl (g.execReplies rs hr) hw h

end Guarantees

-- A call in which no other code does anything.
theorem exec_nil_wp {c : γ} {s s' : σ} {Q : Unit → σ → Prop} {E : ε → Prop}
    (hw : Code.wp (· = ·) (step c) Q E s) (h : exec step ⟨c, []⟩ s = .ok s') : Q () s' :=
  exec_wp_of_replies (fun _ => rfl) (by simp [execReplies]) hw h

theorem none_notMem_execReplies {rs : List (Reply (Act γ))} (h : ∀ r ∈ rs, r.accepts) :
    none ∉ execReplies step rs := by
  induction rs
  case nil          => simp [execReplies]
  case cons r rs hi =>
    simp only [List.forall_mem_cons] at h
    cases r
    case returns => simp [execReplies, execReply, hi h.right]
    case reverts => simp [Reply.accepts] at h

-- A call that cannot revert by itself succeeds, whatever the other code does before it returns.
theorem exec_ok_wp {c : γ} {rs : List (Reply (Act γ))} {s : σ} {Q : Unit → σ → Prop}
    (hw : Code.wp (fun _ _ => True) (step c) Q (fun _ => False) s) (hr : ∀ r ∈ rs, r.accepts) :
    ∃ s', exec step ⟨c, rs⟩ s = .ok s' ∧ Q () s' := by
  have hf : ∀ f, some f ∈ execReplies step rs → ∀ s : σ, (fun _ _ => True) s (f s) :=
    fun _ _ _ => trivial
  rw [exec]
  obtain ⟨_, s', h, hq⟩ | ⟨_, _, hf | ⟨hn, _⟩⟩ := hw.run (fun _ => trivial) hf
  · exact ⟨s', h, hq⟩
  · exact hf.elim
  · exact absurd hn <| none_notMem_execReplies hr

theorem exec_nil_ok {c : γ} {s : σ} {Q : Unit → σ → Prop}
    (hw : Code.wp (· = ·) (step c) Q (fun _ => False) s) :
    ∃ s', exec step ⟨c, []⟩ s = .ok s' ∧ Q () s' := by
  have hf : ∀ f, some f ∈ execReplies step [] → ∀ s, s = f s := by simp [execReplies]
  rw [exec]
  obtain ⟨_, s', h, hq⟩ | ⟨_, _, hf | ⟨hn, _⟩⟩ := hw.run (fun _ => rfl) hf
  · exact ⟨s', h, hq⟩
  · exact hf.elim
  · simp [execReplies] at hn

end Exec

section Txs

variable {σ ε γ β : Type} [CallFailure ε] (step : β → γ → Code σ ε Unit)

-- Transactions one after the other, each in a block of its own. A transaction that reverts leaves
-- the state as it was.
def runTxs : List (β × Act γ) → σ → σ
  | [],            s => s
  | ⟨b, a⟩ :: txs, s =>
    match exec (step b) a s with
    | .ok s'   => runTxs txs s'
    | .error _ => runTxs txs s

variable {step} {R : σ → σ → Prop} {E : σ → ε → Prop} {P : β → γ → Prop}

theorem runTxs_append (txs txs' : List (β × Act γ)) (s : σ) :
    runTxs step (txs ++ txs') s = runTxs step txs' (runTxs step txs s) := by
  induction txs generalizing s
  case nil            => rfl
  case cons tx txs hi => cases he : exec (step tx.fst) tx.snd s <;> simp [runTxs, he, hi]

theorem runTxs_guarantees (refl : ∀ s, R s s) (g : ∀ b, Guarantees (step b) R E (P b)) (s : σ)
    (txs : List (β × Act γ)) (h : ∀ tx ∈ txs, tx.snd.All (P tx.fst)) : R s (runTxs step txs s) := by
  induction txs generalizing s
  case nil => exact refl s
  case cons tx txs hi =>
    have ht := fun s' => hi s' fun tx' htx => h tx' (by simp [htx])
    cases he : exec (step tx.fst) tx.snd s
    case ok s'   =>
      simp only [runTxs, he]
      exact (g tx.fst).trans ((g tx.fst).exec_ok (h tx <| by simp) he) (ht s')
    case error _ => simpa only [runTxs, he] using ht s

end Txs
end Reentrant
