import AtomicSwap.Library.Reentrant
import AtomicSwap.Library.Ledger
import AtomicSwap.Library.Bytes
import Mathlib.Data.BitVec
import Mathlib.Data.Fintype.Basic
import Mathlib.Data.Fintype.EquivFin

namespace Ethereum

abbrev Address := BitVec 160
abbrev Bytes32 := BitVec 256
abbrev Uint256 := BitVec 256

instance fintypeBitVec {n : ℕ} : Fintype (BitVec n) :=
  .ofEquiv (Fin <| 2 ^ n) ⟨BitVec.ofFin, BitVec.toFin, fun _ => rfl, fun _ => rfl⟩

-- The native coin appears as an asset under the zero address.
def native : Address := 0

-- Why a call reverts. The type `κ` holds the custom errors of the contract.
inductive Revert (κ : Type)
  | custom (e : κ)
  | overflow       -- Panic(0x11)
  | divisionByZero -- Panic(0x12)
  | notPayable     -- value sent to a function that is not payable
  | callFailed     -- the caller or a called contract cannot do its part
  | lacksFunds     -- the contract itself does not own what it has to pay out
  deriving DecidableEq

instance {κ : Type} : Reentrant.CallFailure (Revert κ) := ⟨.callFailed⟩

@[simp]
theorem callFailed_eq {κ : Type} : (Reentrant.callFailed : Revert κ) = .callFailed :=
  rfl

-- What contract code takes from the machine it runs on.
structure Host where
  keccak256 : List UInt8 → Bytes32
  ecrecover : Bytes32 → UInt8 → Bytes32 → Bytes32 → Address

structure Msg where
  sender : Address
  value  : Uint256 := 0
  deriving DecidableEq

namespace Uint256

variable {κ : Type} {a b c : Uint256} {n : ℕ}

theorem exists_toNat (h : n < 2 ^ 256) : ∃ x : Uint256, x.toNat = n :=
  ⟨.ofNat 256 n, by rw [BitVec.toNat_ofNat, Nat.mod_eq_of_lt h]⟩

-- Arithmetic is checked: a result outside of the 256 bits reverts.
def checked (n : ℕ) : Except (Revert κ) Uint256 :=
  if n < 2 ^ 256 then .ok (.ofNat 256 n) else .error .overflow

def add (a b : Uint256) : Except (Revert κ) Uint256 :=
  checked (a.toNat + b.toNat)

def mul (a b : Uint256) : Except (Revert κ) Uint256 :=
  checked (a.toNat * b.toNat)

def sub (a b : Uint256) : Except (Revert κ) Uint256 :=
  if b ≤ a then .ok (a - b) else .error .overflow

def div (a b : Uint256) : Except (Revert κ) Uint256 :=
  if b = 0 then .error .divisionByZero else .ok (a / b)

def pow (a : Uint256) (n : ℕ) : Except (Revert κ) Uint256 :=
  checked (a.toNat ^ n)

theorem checked_eq_ok : checked (κ := κ) n = .ok c ↔ c.toNat = n := by
  simp only [checked]
  split
  case isTrue h =>
    simp only [Except.ok.injEq]
    constructor
    case mp  => intro h'; subst h'; rw [BitVec.toNat_ofNat, Nat.mod_eq_of_lt h]
    case mpr => intro h'; subst h'; simp
  case isFalse h =>
    simp only [reduceCtorEq, false_iff]
    intro h'
    exact h <| h' ▸ c.isLt

@[simp]
theorem add_eq_ok : add (κ := κ) a b = .ok c ↔ c.toNat = a.toNat + b.toNat :=
  checked_eq_ok

@[simp]
theorem mul_eq_ok : mul (κ := κ) a b = .ok c ↔ c.toNat = a.toNat * b.toNat :=
  checked_eq_ok

@[simp]
theorem pow_eq_ok : pow (κ := κ) a n = .ok c ↔ c.toNat = a.toNat ^ n :=
  checked_eq_ok

@[simp]
theorem sub_eq_ok : sub (κ := κ) a b = .ok c ↔ b.toNat + c.toNat = a.toNat := by
  simp only [sub]
  split <;> simp only [Except.ok.injEq, reduceCtorEq, false_iff] <;> bv_omega

@[simp]
theorem div_eq_ok :
    div (κ := κ) a b = .ok c ↔ b.toNat ≠ 0 ∧ c.toNat = a.toNat / b.toNat := by
  simp only [div]
  split
  case isTrue h  => simp [h]
  case isFalse h =>
    have hb : b.toNat ≠ 0 := fun h' => h <| BitVec.eq_of_toNat_eq h'
    simp only [Except.ok.injEq, hb, ne_eq, not_false_eq_true, true_and]
    constructor
    case mp  => intro h'; subst h'; simp
    case mpr => intro h'; exact BitVec.eq_of_toNat_eq (by simp [h'])

end Uint256

-- A computation that does not touch any balances.
def Computes {κ α : Type} (x : Except (Revert κ) α) : Prop :=
  x ≠ .error .lacksFunds

section Computes

variable {κ α β : Type} {a b : Uint256} {n : ℕ}

theorem Computes.bind {x : Except (Revert κ) α} {f : α → Except (Revert κ) β} (hx : Computes x)
    (hf : ∀ a, Computes (f a)) : Computes (x >>= f) := by
  cases x
  case error e => exact fun h => hx <| by simpa [Bind.bind, Except.bind] using h
  case ok a    => exact hf a

theorem Uint256.checked_computes : Computes (checked (κ := κ) n) := by
  simp only [Computes, checked]
  split <;> simp

theorem Uint256.sub_computes : Computes (sub (κ := κ) a b) := by
  simp only [Computes, sub]
  split <;> simp

theorem Uint256.div_computes : Computes (div (κ := κ) a b) := by
  simp only [Computes, div]
  split <;> simp

end Computes
end Ethereum
