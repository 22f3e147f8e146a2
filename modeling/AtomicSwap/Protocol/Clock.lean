import AtomicSwap.Protocol.Basic

open Ethereum SwapCreator

-- The seconds since 1970 that are the same number in Go and in the contract.
def Representable (t : ℤ) : Prop :=
  0 ≤ t ∧ t < 2 ^ 62

instance {t : ℤ} : Decidable (Representable t) :=
  inferInstanceAs (Decidable (_ ∧ _))

-- The timeouts are such as `newSwap` gives to a swap, before the year 2 ^ 37.
def Ethereum.SwapCreator.SwapCreatorSwap.InTime (sw : SwapCreatorSwap) : Prop :=
  Representable sw.timeout1 ∧ Representable sw.timeout2 ∧ sw.timeout1 ≤ sw.timeout2

instance {sw : SwapCreatorSwap} : Decidable sw.InTime :=
  inferInstanceAs (Decidable (_ ∧ _))

-- The time of a block, as the clients of the chain report it.
def blockTime (timestamp : Uint256) : Time :=
  unix (int64 timestamp.toNat)

namespace Representable

variable {t u : ℤ} {timestamp : Uint256}

theorem int64_eq (h₀ : 0 ≤ t) (h : t < 2 ^ 63) : int64 t = t := by
  rw [int64, BitVec.toInt_ofInt, Int.bmod_def]
  omega

theorem unix_eq (h : Representable t) : unix (int64 t) = (t + 62135596800) * 10 ^ 9 := by
  have ⟨h₀, h⟩ := h
  rw [unix, int64_eq h₀ (by omega), int64_eq (by omega) (by omega)]

theorem unix_le_iff (ht : Representable t) (hu : Representable u) :
    unix (int64 t) ≤ unix (int64 u) ↔ t ≤ u := by
  rw [ht.unix_eq, hu.unix_eq, mul_le_mul_iff_left₀ (by norm_num), add_le_add_iff_right]

theorem toNat_ofInt (h : Representable t) : ((BitVec.ofInt 256 t).toNat : ℤ) = t := by
  have ⟨h₀, h⟩ := h
  rw [BitVec.toNat_ofInt]
  omega

theorem le_blockTime_iff (h : Representable t) (hb : Representable timestamp.toNat) :
    unix (int64 t) ≤ blockTime timestamp ↔ BitVec.ofInt 256 t ≤ timestamp := by
  rw [blockTime, h.unix_le_iff hb, BitVec.le_def, ← Int.ofNat_le, h.toNat_ofInt]

theorem blockTime_le_iff (h : Representable t) (hb : Representable timestamp.toNat) :
    blockTime timestamp ≤ unix (int64 t) ↔ timestamp ≤ BitVec.ofInt 256 t := by
  rw [blockTime, hb.unix_le_iff h, BitVec.le_def, ← Int.ofNat_le, h.toNat_ofInt]

end Representable

-- The time of a number of seconds since 1970, however large.
def instant (seconds : ℤ) : Time :=
  (seconds + 62135596800) * 10 ^ 9

theorem int64_eq_add (n : ℤ) :
    ∃ k, int64 n = n + 2 ^ 64 * k ∧ -2 ^ 63 ≤ int64 n ∧ int64 n < 2 ^ 63 := by
  rw [int64, BitVec.toInt_ofInt]
  refine ⟨-Int.bdiv n (2 ^ 64), ?_, ?_, ?_⟩
  · have := Int.bmod_add_bdiv n (2 ^ 64)
    omega
  · have := Int.le_bmod (x := n) (m := 2 ^ 64) (by decide)
    omega
  · have := Int.bmod_lt (x := n) (m := 2 ^ 64) (by decide)
    omega

-- Short durations are exact.
theorem Time.sub_eq_iff {t u d : ℤ} (h₀ : -2 ^ 63 < d) (h : d < 2 ^ 63 - 1) :
    Time.sub t u = d ↔ t - u = d := by
  simp only [Time.sub, max_def, min_def]
  split <;> split <;> omega

theorem absDuration_sub_le_iff {t u d : ℤ} (h : d < 2 ^ 63 - 1) :
    absDuration (Time.sub t u) ≤ d ↔ |t - u| ≤ d := by
  simp only [absDuration, Time.sub, max_def, min_def]
  split <;> split <;> split <;> simp only [abs_le] <;> omega

-- The goroutines of a handler that wait for a timeout, and those that have an event for the loop,
-- which they send as soon as it is received.
structure Handlers where
  waiting : ℕ := 0
  sending : ℕ := 0
  deriving DecidableEq

namespace Handlers

def start (h : Handlers) : Handlers :=
  { h with waiting := h.waiting + 1 }

def expire (h : Handlers) : Handlers where
  waiting := h.waiting - 1
  sending := h.sending + 1

def receive (h : Handlers) : Handlers :=
  { h with sending := h.sending - 1 }

end Handlers
