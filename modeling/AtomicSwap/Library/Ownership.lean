import Mathlib.Logic.Function.Basic

-- Registers that are shared by several owners. For each of them it is known who wrote it last.
namespace Ownership

variable {κ ω : Type*}

-- A write is of interest if it replaces what was written before. What is replaced may be guarded.
inductive Access (κ ω : Type*)
  | read (key : κ) (reader writer : ω)
  | overwrite (key : κ) (owner writer : ω) (guarded : Bool)
  deriving DecidableEq

-- An owner reads only what it has written itself, and replaces nothing of others that is guarded.
def Access.Sound : Access κ ω → Prop
  | read _ reader writer             => writer = reader
  | overwrite _ owner writer guarded => writer = owner ∨ guarded = false

instance [DecidableEq ω] {a : Access κ ω} : Decidable a.Sound :=
  match a with
  | .read ..      => inferInstanceAs <| Decidable (_ = _)
  | .overwrite .. => inferInstanceAs <| Decidable (_ ∨ _)

structure Registers (κ ω : Type*) where
  writer : κ → Option ω := fun _ => none
  log    : List (Access κ ω) := []

namespace Registers

variable {r : Registers κ ω} {key key' : κ} {owner w : ω} {guarded : ω → Bool}

def read (r : Registers κ ω) (key : κ) (owner : ω) : Registers κ ω :=
  { r with log := (r.writer key).elim r.log (.read key owner · :: r.log) }

def write [DecidableEq κ] (r : Registers κ ω) (key : κ) (owner : ω) (guarded : ω → Bool) :
    Registers κ ω where
  writer := Function.update r.writer key (some owner)
  log    := (r.writer key).elim r.log fun w => .overwrite key owner w (guarded w) :: r.log

def Sound (r : Registers κ ω) : Prop :=
  ∀ a ∈ r.log, a.Sound

theorem sound_elim {x : Option ω} {f : ω → Access κ ω} (h : r.Sound)
    (hf : ∀ w, x = some w → (f w).Sound) : ∀ a ∈ x.elim r.log (f · :: r.log), a.Sound := by
  cases x
  case none   => exact h
  case some w => exact List.forall_mem_cons.mpr ⟨hf w rfl, h⟩

theorem read_sound (h : r.Sound) (ho : ∀ w, r.writer key = some w → w = owner) :
    (r.read key owner).Sound :=
  sound_elim h ho

section Write

variable [DecidableEq κ]

theorem write_writer : (r.write key owner guarded).writer key' = some w ↔
    key' = key ∧ owner = w ∨ key' ≠ key ∧ r.writer key' = some w := by
  by_cases hk : key' = key
  case pos => simp [write, hk]
  case neg => simp [write, hk]

theorem write_sound (h : r.Sound)
    (ho : ∀ w, r.writer key = some w → w = owner ∨ guarded w = false) :
    (r.write key owner guarded).Sound :=
  sound_elim h ho

end Write

end Registers

end Ownership
