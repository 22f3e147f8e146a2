import Mathlib.Data.Nat.Digits.Lemmas

-- Positional notation, with the most significant digit first.
namespace Radix

def value (b : ℕ) (ds : List ℕ) : ℕ :=
  Nat.ofDigits b ds.reverse

-- The digits of a number without leading zeros.
def minimal (b n : ℕ) : List ℕ :=
  (Nat.digits b n).reverse

-- The digits of a number, filled up to `w` digits.
def fixed (b w n : ℕ) : List ℕ :=
  (Nat.digitsAppend b w n).reverse

def leading (ds : List ℕ) : ℕ :=
  (ds.takeWhile (· == 0)).length

-- Leading zeros are kept one for one, what follows them is written in the other base.
def convert (a b : ℕ) (ds : List ℕ) : List ℕ :=
  .replicate (leading ds) 0 ++ minimal b (value a ds)

variable {a b k n w z : ℕ} {ds : List ℕ}

section Fixed

theorem fixed_eq : fixed b w n = .replicate (w - (minimal b n).length) 0 ++ minimal b n := by
  simp [fixed, minimal, Nat.digitsAppend]

theorem replicate_append_minimal :
    .replicate z 0 ++ minimal b n = fixed b (z + (minimal b n).length) n := by
  rw [fixed_eq, Nat.add_sub_cancel]

theorem length_minimal_le (hb : 1 < b) : (minimal b n).length ≤ w ↔ n < b ^ w := by
  rw [minimal, List.length_reverse, Nat.digits_length_le_iff hb]

theorem length_fixed (hb : 1 < b) (h : n < b ^ w) : (fixed b w n).length = w := by
  rw [fixed, List.length_reverse, Nat.length_digitsAppend hb _ h]

theorem fixed_lt (hb : 1 < b) : ∀ d ∈ fixed b w n, d < b := by
  intro d hd
  exact Nat.lt_of_mem_digitsAppend hb w d <| List.mem_reverse.mp hd

theorem value_lt (hb : 1 < b) (hd : ∀ d ∈ ds, d < b) : value b ds < b ^ ds.length := by
  rw [← ds.length_reverse]
  exact Nat.ofDigits_lt_base_pow_length hb fun d h => hd d <| List.mem_reverse.mp h

@[simp]
theorem value_fixed : value b (fixed b w n) = n := by
  rw [value, fixed, List.reverse_reverse, Nat.digitsAppend, Nat.ofDigits_append_replicate_zero,
    Nat.ofDigits_digits]

-- As many digits as there are determine a number.
theorem eq_of_value_eq {ds₁ ds₂ : List ℕ} (hb : 1 < b) (hl : ds₁.length = ds₂.length)
    (h₁ : ∀ d ∈ ds₁, d < b) (h₂ : ∀ d ∈ ds₂, d < b) (h : value b ds₁ = value b ds₂) :
    ds₁ = ds₂ := by
  apply List.reverse_injective
  refine Nat.ofDigits_inj_of_len_eq hb (by simp [hl]) ?_ ?_ h
  all_goals simpa

theorem fixed_value (hb : 1 < b) (hd : ∀ d ∈ ds, d < b) : fixed b ds.length (value b ds) = ds :=
  eq_of_value_eq hb (length_fixed hb <| value_lt hb hd) (fixed_lt hb) hd value_fixed

theorem drop_fixed (hb : 1 < b) (h : n < b ^ w) (hk : k ≤ w) :
    (fixed b w n).drop (w - k) = fixed b k (n % b ^ k) := by
  have hp := Nat.mod_lt n <| Nat.pow_pos (n := k) <| Nat.zero_lt_of_lt hb
  have hl := length_fixed hb h
  refine eq_of_value_eq hb ?_ ?_ (fixed_lt hb) ?_
  · rw [length_fixed hb hp, List.length_drop, hl]
    omega
  · exact fun d hd => fixed_lt hb d <| List.mem_of_mem_drop hd
  · have ht := Nat.ofDigits_mod_pow_eq_ofDigits_take k (Nat.zero_lt_of_lt hb)
      (Nat.digitsAppend b w n) (Nat.lt_of_mem_digitsAppend hb w)
    have hn : Nat.ofDigits b (Nat.digitsAppend b w n) = n := by
      simpa [value, fixed] using value_fixed (b := b) (w := w) (n := n)
    have hw : (Nat.digitsAppend b w n).length = w := Nat.length_digitsAppend hb w h
    rw [value_fixed, value, fixed, List.drop_reverse, List.reverse_reverse, hw,
      Nat.sub_sub_self hk, ← ht, hn]

end Fixed

section Leading

theorem eq_replicate_append (ds : List ℕ) :
    ds = .replicate (leading ds) 0 ++ ds.dropWhile (· == 0) := by
  have ht : ds.takeWhile (· == 0) = .replicate (leading ds) 0 := by
    refine List.eq_replicate_of_mem fun d hd => ?_
    simpa using List.all_eq_true.mp List.all_takeWhile d hd
  rw [← ht, List.takeWhile_append_dropWhile]

@[simp]
theorem value_replicate_append : value b (.replicate z 0 ++ ds) = value b ds := by
  rw [value, List.reverse_append, List.reverse_replicate, Nat.ofDigits_append_replicate_zero, value]

theorem leading_le : leading ds ≤ ds.length :=
  List.takeWhile_sublist _ |>.length_le

theorem value_lt_of_leading (hb : 1 < b) (hd : ∀ d ∈ ds, d < b) :
    value b ds < b ^ (ds.length - leading ds) := by
  have hl : (ds.dropWhile (· == 0)).length = ds.length - leading ds := by
    have h := congrArg List.length <| eq_replicate_append ds
    simp only [List.length_append, List.length_replicate] at h
    omega
  have hv := value_lt hb fun d h => hd d <| (List.dropWhile_sublist (· == 0)).mem h
  rwa [← value_replicate_append (z := leading ds), ← eq_replicate_append, hl] at hv

-- The first digit that is no zero bounds a number from below.
theorem le_value_of_leading (hl : leading ds < ds.length) :
    b ^ (ds.length - leading ds - 1) ≤ value b ds := by
  have he := eq_replicate_append ds
  cases hr : ds.dropWhile (· == 0)
  case nil =>
    rw [hr, List.append_nil] at he
    have hc := congrArg List.length he
    simp only [List.length_replicate] at hc
    omega
  case cons d rest =>
    have hz : d ≠ 0 := by simpa [hr] using List.head_dropWhile_not (· == 0) (l := ds) (by simp [hr])
    have hc := congrArg List.length he
    simp only [hr, List.length_append, List.length_replicate, List.length_cons] at hc
    have hn : ds.length - leading ds - 1 = rest.length := by omega
    have hv : value b ds = value b rest + b ^ rest.length * d := by
      rw [he, value_replicate_append, hr, value, List.reverse_cons, Nat.ofDigits_append,
        Nat.ofDigits_singleton, List.length_reverse, value]
    calc b ^ (ds.length - leading ds - 1)
      _ = b ^ rest.length * 1                  := by rw [hn, mul_one]
      _ ≤ b ^ rest.length * d                  := Nat.mul_le_mul_left _ <| Nat.pos_of_ne_zero hz
      _ ≤ value b rest + b ^ rest.length * d   := Nat.le_add_left ..
      _ = value b ds                           := hv.symm

end Leading

section Convert

-- Taking away as many digits of the smaller base keeps an upper bound.
theorem pow_sub_le_pow_sub (ha : 0 < a) (hab : a ≤ b) (hw : z ≤ w) (h : b ^ n ≤ a ^ w)
    (hn : z ≤ n) : b ^ (n - z) ≤ a ^ (w - z) := by
  have hz : 0 < a ^ z := Nat.pow_pos ha
  refine Nat.le_of_mul_le_mul_right ?_ hz
  calc b ^ (n - z) * a ^ z
    _ ≤ b ^ (n - z) * b ^ z := Nat.mul_le_mul_left _ <| Nat.pow_le_pow_left hab z
    _ = b ^ n               := by rw [← pow_add, Nat.sub_add_cancel hn]
    _ ≤ a ^ w               := h
    _ = a ^ (w - z) * a ^ z := by rw [← pow_add, Nat.sub_add_cancel hw]

theorem length_convert :
    (convert a b ds).length = leading ds + (minimal b (value a ds)).length := by
  rw [convert, List.length_append, List.length_replicate]

theorem convert_eq_fixed : convert a b ds = fixed b (convert a b ds).length (value a ds) := by
  rw [length_convert, convert, replicate_append_minimal]

theorem length_convert_le (hb : 1 < b) (hba : b ≤ a) (hd : ∀ d ∈ ds, d < a) (hw : ds.length ≤ w)
    (h : a ^ ds.length ≤ b ^ w) : (convert a b ds).length ≤ w := by
  have hz : leading ds ≤ ds.length := leading_le
  have hv : value a ds < b ^ (w - leading ds) :=
    (value_lt_of_leading (hb.trans_le hba) hd).trans_le <|
      pow_sub_le_pow_sub (Nat.zero_lt_of_lt hb) hba (hz.trans hw) h hz
  have hm := length_minimal_le hb |>.mpr hv
  rw [length_convert]
  omega

theorem lt_length_convert (hb : 1 < b) (ha : 0 < a) (hab : a ≤ b) (hn : n < ds.length)
    (h : b ^ n ≤ a ^ (ds.length - 1)) : n < (convert a b ds).length := by
  rw [length_convert]
  by_cases hz : leading ds ≤ n
  case neg => omega
  case pos =>
    have hv : b ^ (n - leading ds) ≤ value a ds := by
      refine le_trans (pow_sub_le_pow_sub ha hab (by omega) h hz) ?_
      rw [Nat.sub_right_comm]
      exact le_value_of_leading <| by omega
    have hm := mt (length_minimal_le hb (w := n - leading ds)).mp hv.not_gt
    omega

theorem pad_convert (h : (convert a b ds).length ≤ w) :
    .replicate (w - (convert a b ds).length) 0 ++ convert a b ds = fixed b w (value a ds) := by
  rw [length_convert] at h ⊢
  have hw : w - (leading ds + (minimal b (value a ds)).length) + leading ds
      + (minimal b (value a ds)).length = w := by omega
  rw [convert, ← List.append_assoc, List.replicate_append_replicate, replicate_append_minimal, hw]

theorem drop_convert (hb : 1 < b) (hk : k ≤ (convert a b ds).length) :
    (convert a b ds).drop ((convert a b ds).length - k) = fixed b k (value a ds % b ^ k) := by
  have hv : value a ds < b ^ (convert a b ds).length := by
    rw [← length_minimal_le hb, length_convert]
    omega
  have hd := drop_fixed hb hv hk
  rwa [← convert_eq_fixed] at hd

end Convert

end Radix
