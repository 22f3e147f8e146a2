import AtomicSwap.Protocol.Clock
import AtomicSwap.Protocol.XMRMaker.Theorems.Lock

open Ethereum SwapCreator Handler

namespace XMRMaker

variable {b : Backend} {calls : Calls} {s s' : SwapState}

-- The timeouts of the contract are as far away as they have to be, and they are the ones that the
-- maker has set. Nothing is cut off here.
structure TimeoutsAgree (b : Backend) (now : Time) (t₁ t₂ : ℤ) (s : SwapState) : Prop where
  between : (t₂ - t₁) * 10 ^ 9 = b.env.swapTimeout
  first   : |now + b.env.swapTimeout - instant t₁| ≤ b.env.swapTimeout / 20
  t1_eq   : s.t1 = instant t₁
  t2_eq   : s.t2 = instant t₂

theorem swapTimeout_eq (h : b.env ≠ .development) : b.env.swapTimeout = 3600 * 10 ^ 9 := by
  cases he : b.env
  case development => exact absurd he h
  all_goals rfl

-- What is checked are the times that were set.
theorem checkAndSetTimeouts_ok {t₁ t₂ : ℤ} (he : b.env ≠ .development)
    (h : checkAndSetTimeouts b calls t₁ t₂ s = (.ok (), s')) :
    s'.t1 = unix (int64 t₁) ∧ s'.t2 = unix (int64 t₂) ∧ s'.t2 - s'.t1 = 3600 * 10 ^ 9 ∧
    |calls.now + 3600 * 10 ^ 9 - s'.t1| ≤ 180 * 10 ^ 9 := by
  simp only [checkAndSetTimeouts, setTimeouts, bind_ok, modify_ok, get_ok, throwIf_ok, and_assoc,
    exists_and_left, exists_eq_left', exists_const, ne_eq, not_not, he, not_false_eq_true, true_and,
    swapTimeout_eq he, not_lt] at h
  obtain ⟨h₂, h₁, rfl⟩ := h
  rw [Time.sub_eq_iff (by decide) (by decide)] at h₂
  exact ⟨rfl, rfl, h₂, absDuration_sub_le_iff (by decide) |>.mp h₁⟩

-- All of the 256 bits of the timeouts are checked exactly if these fit into the 64 bits that are
-- kept of them.
theorem checkAndSetTimeouts_agree_iff {t₁ t₂ : Uint256} (he : b.env ≠ .development)
    (hn : instant 0 ≤ calls.now) (hn' : calls.now < instant (2 ^ 40))
    (h : checkAndSetTimeouts b calls t₁.toNat t₂.toNat s = (.ok (), s')) :
    TimeoutsAgree b calls.now t₁.toNat t₂.toNat s' ↔
    t₁.toNat < 2 ^ 63 ∧ t₂.toNat < 2 ^ 63 := by
  obtain ⟨h₁, h₂, hd, hf⟩ := checkAndSetTimeouts_ok he h
  obtain ⟨k₁, hk₁, _, _⟩ := int64_eq_add t₁.toNat
  obtain ⟨k₂, hk₂, _, _⟩ := int64_eq_add t₂.toNat
  obtain ⟨l₁, hl₁, _, _⟩ := int64_eq_add (int64 t₁.toNat + 62135596800)
  obtain ⟨l₂, hl₂, _, _⟩ := int64_eq_add (int64 t₂.toNat + 62135596800)
  have ha := abs_le.mp hf
  simp only [instant, unix, Time] at h₁ h₂ hd ha hn hn'
  -- The time that was set is so close to now that the sum does not overflow.
  have hz : l₁ = 0 ∧ l₂ = 0 := by omega
  constructor
  case mp =>
    intro ht
    have ht₁ := ht.t1_eq
    have ht₂ := ht.t2_eq
    simp only [instant, Time] at ht₁ ht₂
    omega
  case mpr =>
    intro ht
    have hs₁ : s'.t1 = instant t₁.toNat := by simp only [instant, Time]; omega
    have hs₂ : s'.t2 = instant t₂.toNat := by simp only [instant, Time]; omega
    refine ⟨?_, ?_, hs₁, hs₂⟩
    · rw [swapTimeout_eq he]
      simp only [instant, Time] at hs₁ hs₂
      omega
    · rw [swapTimeout_eq he, ← hs₁]
      exact hf

end XMRMaker

open XMRMaker.Sample

namespace XMRMaker

theorem checkAndSetTimeouts_agree_swap :
    TimeoutsAgree backend calls.now swap.pack.timeout1.toNat swap.pack.timeout2.toNat
      (checkAndSetTimeouts backend calls swap.pack.timeout1.toNat swap.pack.timeout2.toNat
        state).snd :=
  checkAndSetTimeouts_agree_iff (by decide) (by decide) (by decide)
    (Prod.ext (by decide) rfl) |>.mpr (by decide)

-- The timeouts are 2 ^ 64 seconds too late.
def Sample.lateSwap : SwapCreatorSwap :=
  { swap with timeout1 := swap.timeout1 + 2 ^ 64, timeout2 := swap.timeout2 + 2 ^ 64 }

theorem checkAndSetTimeouts_truncates :
    ∃ s', checkAndSetTimeouts backend calls lateSwap.pack.timeout1.toNat
        lateSwap.pack.timeout2.toNat state = (.ok (), s') ∧
      s'.t1 = instant swap.timeout1 ∧
      ¬TimeoutsAgree backend calls.now lateSwap.pack.timeout1.toNat lateSwap.pack.timeout2.toNat
        s' := by
  have hr : checkAndSetTimeouts backend calls lateSwap.pack.timeout1.toNat
      lateSwap.pack.timeout2.toNat state =
      (.ok (), { state with t1 := instant swap.timeout1, t2 := instant swap.timeout2 }) := by
    decide
  refine ⟨_, hr, rfl, fun h => ?_⟩
  exact absurd h.t1_eq (by decide)

end XMRMaker
