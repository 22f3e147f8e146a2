import Mathlib.Logic.Basic

namespace Except

variable {ε α β : Type}

@[simp]
theorem bind_ok_iff {x : Except ε α} {f : α → Except ε β} {b : β} :
    x >>= f = .ok b ↔ ∃ a, x = .ok a ∧ f a = .ok b := by
  cases x <;> simp [Bind.bind, Except.bind]

theorem bind_error_iff {x : Except ε α} {f : α → Except ε β} {e : ε} :
    x >>= f = .error e ↔ x = .error e ∨ ∃ a, x = .ok a ∧ f a = .error e := by
  cases x <;> simp [Bind.bind, Except.bind]

@[simp]
theorem pure_ok_iff {a b : α} : (pure a : Except ε α) = .ok b ↔ a = b := by
  simp [Pure.pure, Except.pure]

@[simp]
theorem throw_ne_ok {e : ε} {a : α} : (throw e : Except ε α) ≠ .ok a := by
  simp [throw, throwThe, MonadExceptOf.throw]

def failIf (p : Prop) [Decidable p] (e : ε) : Except ε Unit :=
  if p then .error e else .ok ()

@[simp]
theorem failIf_eq_ok {p : Prop} [Decidable p] {e : ε} {u : Unit} : failIf p e = .ok u ↔ ¬p := by
  by_cases p <;> simp_all [failIf]

@[simp]
theorem mapError_eq_ok {x : Except ε α} {f : ε → β} {a : α} : x.mapError f = .ok a ↔ x = .ok a := by
  cases x
  case ok    => exact (Except.ok.injEq ..).to_iff.trans (Except.ok.injEq ..).to_iff.symm
  case error => exact iff_of_false nofun nofun

theorem mapError_error_iff {x : Except ε α} {f : ε → β} {e : β} :
    x.mapError f = .error e ↔ ∃ e', x = .error e' ∧ f e' = e := by
  cases x
  case ok    => exact iff_of_false nofun (by simp)
  case error => exact (Except.error.injEq ..).to_iff.trans (by simp)

@[simp]
theorem mapError_ok {f : ε → β} {a : α} : (ok a).mapError f = ok a :=
  rfl

theorem bind_ok {f : α → Except ε β} {a : α} : (ok a >>= f : Except ε β) = f a :=
  rfl

theorem bind_error {f : α → Except ε β} {e : ε} : (error e >>= f : Except ε β) = error e :=
  rfl

theorem toOption_eq_some_iff {x : Except ε α} {a : α} : x.toOption = some a ↔ x = .ok a := by
  cases x <;> simp [Except.toOption]

-- The error meets `P`, if there is one.
def OnError (P : ε → Prop) (x : Except ε α) : Prop :=
  ∀ e, x = .error e → P e

section OnError

variable {P : ε → Prop}

theorem onError_ok {a : α} : OnError P (.ok a) :=
  fun _ h => by cases h

theorem onError_error {e : ε} (h : P e) : OnError P (.error e : Except ε α) :=
  fun _ he => by cases he; exact h

theorem OnError.bind {x : Except ε α} {f : α → Except ε β} (hx : OnError P x)
    (hf : ∀ a, x = .ok a → OnError P (f a)) : OnError P (x >>= f) := by
  intro e h
  rcases bind_error_iff.mp h with he | ⟨a, ha, he⟩
  · exact hx e he
  · exact hf a ha e he

theorem onError_failIf {p : Prop} [Decidable p] {e : ε} (h : p → P e) :
    OnError P (failIf p e) := by
  unfold failIf
  split
  case isTrue hp => exact onError_error <| h hp
  case isFalse   => exact onError_ok

theorem onError_failIf_bind {p : Prop} [Decidable p] {e : ε} {f : Unit → Except ε α} (h : P e)
    (hf : ¬p → OnError P (f ())) : OnError P (failIf p e >>= f) :=
  (onError_failIf fun _ => h).bind fun _ hp => hf <| failIf_eq_ok.mp hp

end OnError

instance decidableIsOk {x : Except ε α} : Decidable (∃ a, x = .ok a) :=
  match x with
  | .ok a    => .isTrue ⟨a, rfl⟩
  | .error _ => .isFalse <| by simp

instance decidableExistsOk {x : Except ε α} {p : α → Prop} [DecidablePred p] :
    Decidable (∃ a, x = .ok a ∧ p a) :=
  match x with
  | .ok a    => decidable_of_iff (p a) <| by simp
  | .error _ => .isFalse <| by simp

end Except
