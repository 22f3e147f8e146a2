import AtomicSwap.Library.Except

-- A computation that may fail. Its changes of the state are kept when it does.
def Handler (σ ε α : Type) := σ → Except ε α × σ

namespace Handler

variable {σ ε α β : Type} {s s₁ s₂ : σ}

instance : Monad (Handler σ ε) where
  pure a s := (.ok a, s)
  bind x f s :=
    match x s with
    | (.ok a, s')    => f a s'
    | (.error e, s') => (.error e, s')

def get : Handler σ ε σ :=
  fun s => (.ok s, s)

def modify (f : σ → σ) : Handler σ ε Unit :=
  fun s => (.ok (), f s)

def ofExcept (x : Except ε α) : Handler σ ε α :=
  fun s => (x, s)

def ofOption (e : ε) (x : Option α) : Handler σ ε α :=
  ofExcept <| x.elim (.error e) .ok

def throwIf (p : Prop) [Decidable p] (e : ε) : Handler σ ε Unit :=
  ofExcept <| if p then .error e else .ok ()

-- Asks something outside, which may change the state.
def ask (f : σ → α × σ) : Handler σ ε α :=
  fun s => (.ok (f s).fst, (f s).snd)

-- The same if there may be no answer.
def askFor (e : ε) (f : σ → Option α × σ) : Handler σ ε α :=
  ask f >>= ofOption e

-- Asks about a part of the state, and leaves the other part as it is.
def aside {τ : Type} (f : σ → α × σ) (p : σ × τ) : α × (σ × τ) :=
  ((f p.fst).fst, ((f p.fst).snd, p.snd))

-- Catches the error of a computation.
def attempt (x : Handler σ ε α) : Handler σ ε (Except ε α) :=
  fun s => (.ok (x s).fst, (x s).snd)

-- Runs a computation on a part of the state.
def zoom {τ δ : Type} (view : σ → τ) (set : τ → σ → σ) (err : δ → ε) (x : Handler τ δ α) :
    Handler σ ε α :=
  fun s => ((x (view s)).fst.mapError err, set (x (view s)).snd s)

@[simp]
theorem bind_ok {x : Handler σ ε α} {f : α → Handler σ ε β} {b : β} :
    (x >>= f) s = (.ok b, s₂) ↔ ∃ a s₁, x s = (.ok a, s₁) ∧ f a s₁ = (.ok b, s₂) := by
  simp only [Bind.bind]
  rcases x s with ⟨_ | _, _⟩ <;> simp [and_assoc]

@[simp]
theorem pure_ok {a b : α} : (pure a : Handler σ ε α) s = (.ok b, s₂) ↔ a = b ∧ s = s₂ := by
  simp [Pure.pure]

@[simp]
theorem get_ok : (get : Handler σ ε σ) s = (.ok s₁, s₂) ↔ s = s₁ ∧ s = s₂ := by
  simp [get]

@[simp]
theorem modify_ok {f : σ → σ} {u : Unit} :
    (modify f : Handler σ ε Unit) s = (.ok u, s₂) ↔ f s = s₂ := by
  simp [modify]

@[simp]
theorem ofExcept_ok {x : Except ε α} {a : α} :
    (ofExcept x : Handler σ ε α) s = (.ok a, s₂) ↔ x = .ok a ∧ s = s₂ := by
  simp [ofExcept]

@[simp]
theorem ofOption_ok {x : Option α} {e : ε} {a : α} :
    (ofOption e x : Handler σ ε α) s = (.ok a, s₂) ↔ x = some a ∧ s = s₂ := by
  cases x <;> simp [ofOption]

@[simp]
theorem throwIf_ok {p : Prop} [Decidable p] {e : ε} {u : Unit} :
    (throwIf p e : Handler σ ε Unit) s = (.ok u, s₂) ↔ ¬p ∧ s = s₂ := by
  by_cases p <;> simp_all [throwIf]

@[simp]
theorem ask_ok {f : σ → α × σ} {a : α} :
    (ask f : Handler σ ε α) s = (.ok a, s₂) ↔ f s = (a, s₂) := by
  rw [ask, Prod.mk.injEq, Except.ok.injEq, Prod.ext_iff]

@[simp]
theorem attempt_ok {x : Handler σ ε α} {r : Except ε α} :
    attempt x s = (.ok r, s₂) ↔ x s = (r, s₂) := by
  rw [attempt, Prod.mk.injEq, Except.ok.injEq, Prod.ext_iff]

@[simp]
theorem zoom_id_ok {δ : Type} {x : Handler σ δ α} {err : δ → ε} {a : α} :
    (zoom id (fun s _ => s) err x) s = (.ok a, s₂) ↔ x s = (.ok a, s₂) := by
  rw [zoom, Prod.mk.injEq, Except.mapError_eq_ok, id, Prod.ext_iff]

-- Whether it fails or not, a computation leaves `g` as it is.
def Keeps (g : σ → β) (x : Handler σ ε α) : Prop :=
  ∀ s, g (x s).snd = g s

section Keeps

variable {γ : Type} {g : σ → γ}

theorem keeps_get : Keeps g (get : Handler σ ε σ) :=
  fun _ => rfl

theorem keeps_ofExcept {x : Except ε α} : Keeps g (ofExcept x : Handler σ ε α) :=
  fun _ => rfl

theorem keeps_modify {f : σ → σ} (h : ∀ s, g (f s) = g s) :
    Keeps g (modify f : Handler σ ε Unit) :=
  h

theorem keeps_bind {x : Handler σ ε α} {f : α → Handler σ ε β} (hx : Keeps g x)
    (hf : ∀ a, Keeps g (f a)) : Keeps g (x >>= f) := by
  intro s
  have hx := hx s
  simp only [Bind.bind]
  rcases hr : x s with ⟨_ | a, s'⟩
  case error => simpa [hr] using hx
  case ok    => rw [hr] at hx; exact (hf a s').trans hx

-- What only the second of two computations can change, it changes after the first has succeeded.
theorem bind_snd {x : Handler σ ε α} {f : α → Handler σ ε β} (hx : Keeps g x)
    (h : g ((x >>= f) s).snd ≠ g s) :
    ∃ a s₁, x s = (.ok a, s₁) ∧ g (f a s₁).snd ≠ g s₁ ∧ ((x >>= f) s).snd = (f a s₁).snd := by
  have hx := hx s
  simp only [Bind.bind] at h ⊢
  rcases hr : x s with ⟨_ | a, s'⟩
  case error => simp_all
  case ok    => refine ⟨a, s', rfl, ?_, rfl⟩; simp_all

end Keeps

-- The result of a computation and the state that it leaves meet `Q`.
def Post (x : Handler σ ε α) (s : σ) (Q : Except ε α → σ → Prop) : Prop :=
  Q (x s).fst (x s).snd

section Post

variable {f : α → Handler σ ε β} {Q : Except ε β → σ → Prop}

theorem Post.result {x : Handler σ ε β} {r : Except ε β} {s' : σ} (h : x.Post s Q)
    (hx : x s = (r, s')) : Q r s' := by
  simpa [Post, hx] using h

theorem Post.imp {x : Handler σ ε β} {P : Except ε β → σ → Prop} (h : x.Post s P)
    (hi : ∀ r s', P r s' → Q r s') : x.Post s Q :=
  hi _ _ h

theorem Keeps.post {x : Handler σ ε β} (h : Keeps (fun s => s) x) : x.Post s fun _ s' => s' = s :=
  h s

theorem Post.bind {x : Handler σ ε α} {P : Except ε α → σ → Prop} (h : x.Post s P)
    (he : ∀ e s', P (.error e) s' → Q (.error e) s') (hf : ∀ a s', P (.ok a) s' → (f a).Post s' Q) :
    (x >>= f).Post s Q := by
  simp only [Post, Bind.bind] at h ⊢
  rcases hx : x s with ⟨e | a, s'⟩ <;> simp only [hx] at h
  case error => exact he e s' h
  case ok    => exact hf a s' h

theorem Post.attempt_bind {x : Handler σ ε α} {f : Except ε α → Handler σ ε β}
    {P : Except ε α → σ → Prop} (h : x.Post s P) (hf : ∀ r s', P r s' → (f r).Post s' Q) :
    (attempt x >>= f).Post s Q :=
  hf _ _ h

@[simp]
theorem post_bind_bind {γ : Type} {g : γ → Handler σ ε α} {x : Handler σ ε γ} :
    ((x >>= g) >>= f).Post s Q ↔ (x >>= fun c => g c >>= f).Post s Q := by
  simp only [Post, Bind.bind]
  rcases x s with ⟨_ | _, _⟩ <;> rfl

@[simp]
theorem post_pure {b : β} : (pure b : Handler σ ε β).Post s Q ↔ Q (.ok b) s :=
  Iff.rfl

@[simp]
theorem post_modify {g : σ → σ} {Q : Except ε Unit → σ → Prop} :
    (modify g).Post s Q ↔ Q (.ok ()) (g s) :=
  Iff.rfl

theorem post_ofExcept {y : Except ε β} : (ofExcept y : Handler σ ε β).Post s Q ↔ Q y s :=
  Iff.rfl

@[simp]
theorem post_ofOption {y : Option β} {e : ε} :
    (ofOption e y).Post s Q ↔ (y = none → Q (.error e) s) ∧ ∀ b, y = some b → Q (.ok b) s := by
  cases y <;> simp [ofOption, post_ofExcept]

@[simp]
theorem post_pure_bind {a : α} : (pure a >>= f).Post s Q ↔ (f a).Post s Q :=
  Iff.rfl

@[simp]
theorem post_get_bind {f : σ → Handler σ ε β} : (get >>= f).Post s Q ↔ (f s).Post s Q :=
  Iff.rfl

@[simp]
theorem post_modify_bind {g : σ → σ} {f : Unit → Handler σ ε β} :
    (modify g >>= f).Post s Q ↔ (f ()).Post (g s) Q :=
  Iff.rfl

@[simp]
theorem post_ofExcept_bind {y : Except ε α} :
    (ofExcept y >>= f).Post s Q ↔
    (∀ e, y = .error e → Q (.error e) s) ∧ ∀ a, y = .ok a → (f a).Post s Q := by
  cases y <;> simp [Post, Bind.bind, ofExcept]

@[simp]
theorem post_ofOption_bind {y : Option α} {e : ε} :
    (ofOption e y >>= f).Post s Q ↔
    (y = none → Q (.error e) s) ∧ ∀ a, y = some a → (f a).Post s Q := by
  cases y <;> simp [ofOption]

@[simp]
theorem post_ask_bind {g : σ → α × σ} :
    (ask g >>= f).Post s Q ↔ (f (g s).fst).Post (g s).snd Q :=
  Iff.rfl

@[simp]
theorem post_askFor_bind {g : σ → Option α × σ} {e : ε} :
    (askFor e g >>= f).Post s Q ↔
    ((g s).fst = none → Q (.error e) (g s).snd) ∧
    ∀ a, (g s).fst = some a → (f a).Post (g s).snd Q := by
  rw [askFor, post_bind_bind, post_ask_bind, post_ofOption_bind]

@[simp]
theorem post_throwIf_bind {p : Prop} [Decidable p] {e : ε} {f : Unit → Handler σ ε β} :
    (throwIf p e >>= f).Post s Q ↔ (p → Q (.error e) s) ∧ (¬p → (f ()).Post s Q) := by
  by_cases p <;> simp_all [throwIf, Post, Bind.bind, ofExcept]

theorem post_zoom {τ δ : Type} {view : σ → τ} {set : τ → σ → σ} {err : δ → ε}
    {x : Handler τ δ β} :
    (zoom view set err x).Post s Q ↔ x.Post (view s) fun r t => Q (r.mapError err) (set t s) :=
  Iff.rfl

theorem post_zoom_bind {τ δ : Type} {view : σ → τ} {set : τ → σ → σ} {err : δ → ε}
    {x : Handler τ δ α} :
    (zoom view set err x >>= f).Post s Q ↔
    x.Post (view s) fun r t =>
      match r with
      | .ok a    => (f a).Post (set t s) Q
      | .error e => Q (.error (err e)) (set t s) := by
  simp only [Post, Bind.bind, zoom]
  rcases (x (view s)).fst with - | - <;> rfl

end Post

-- Whether it fails or not, a computation preserves `P`.
def Preserves (P : σ → Prop) (x : Handler σ ε α) : Prop :=
  ∀ s, P s → P (x s).snd

section Preserves

variable {P : σ → Prop} {p : Prop} [Decidable p] {e : ε}

theorem preserves_bind {x : Handler σ ε α} {f : α → Handler σ ε β} (hx : x.Preserves P)
    (hf : ∀ a, (f a).Preserves P) : (x >>= f).Preserves P := by
  intro s h
  have hx := hx s h
  simp only [Bind.bind]
  rcases hr : x s with ⟨_ | a, s'⟩ <;> rw [hr] at hx
  case error => exact hx
  case ok    => exact hf a s' hx

theorem preserves_pure {a : α} : (pure a : Handler σ ε α).Preserves P :=
  fun _ h => h

theorem preserves_get : (get : Handler σ ε σ).Preserves P :=
  fun _ h => h

theorem preserves_ofExcept {x : Except ε α} : (ofExcept x : Handler σ ε α).Preserves P :=
  fun _ h => h

theorem preserves_throwIf : (throwIf p e : Handler σ ε Unit).Preserves P :=
  preserves_ofExcept

theorem preserves_modify {f : σ → σ} (h : ∀ s, P s → P (f s)) :
    (modify f : Handler σ ε Unit).Preserves P :=
  h

theorem preserves_ite {x y : Handler σ ε α} (hx : x.Preserves P) (hy : y.Preserves P) :
    (if p then x else y).Preserves P := by
  split
  case isTrue  => exact hx
  case isFalse => exact hy

end Preserves

-- Whether it fails or not, a computation changes the state by `R`.
def Moves (R : σ → σ → Prop) (x : Handler σ ε α) : Prop :=
  ∀ s, R s (x s).snd

section Moves

variable {R : σ → σ → Prop}

theorem moves_ask {f : σ → α × σ} (h : ∀ s, R s (f s).snd) : Moves R (ask f : Handler σ ε α) :=
  h

theorem moves_askFor {f : σ → Option α × σ} {e : ε} (h : ∀ s, R s (f s).snd) :
    Moves R (askFor e f) := by
  intro s
  have hs : ((askFor e f : Handler σ ε α) s).snd = (f s).snd := rfl
  exact hs ▸ h s

theorem moves_attempt {x : Handler σ ε α} (h : Moves R x) : Moves R (attempt x) :=
  h

theorem moves_ofExcept (hr : ∀ s, R s s) {x : Except ε α} :
    Moves R (ofExcept x : Handler σ ε α) :=
  hr

-- Two computations one after the other, of which the second one may not be reached.
theorem moves_seq {R₁ R₂ : σ → σ → Prop} (hr : ∀ s₁ s₂, R₁ s₁ s₂ → R s₁ s₂)
    (ht : ∀ s₁ s₂ s₃, R₁ s₁ s₂ → R₂ s₂ s₃ → R s₁ s₃) {x : Handler σ ε α} {f : α → Handler σ ε β}
    (hx : Moves R₁ x) (hf : ∀ a, Moves R₂ (f a)) : Moves R (x >>= f) := by
  intro s
  have hx := hx s
  simp only [Bind.bind]
  rcases h : x s with ⟨_ | a, s'⟩ <;> rw [h] at hx
  case error => exact hr _ _ hx
  case ok    => exact ht _ _ _ hx (hf a s')

theorem moves_bind (ht : ∀ s₁ s₂ s₃, R s₁ s₂ → R s₂ s₃ → R s₁ s₃) {x : Handler σ ε α}
    {f : α → Handler σ ε β} (hx : Moves R x) (hf : ∀ a, Moves R (f a)) : Moves R (x >>= f) :=
  moves_seq (fun _ _ h => h) ht hx hf

end Moves

end Handler
