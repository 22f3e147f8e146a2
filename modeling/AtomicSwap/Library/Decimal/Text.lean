import AtomicSwap.Library.Decimal

namespace Decimal

variable {d : Decimal} {n bits : ℕ}

-- The number without an exponent.
def text (d : Decimal) : List Char :=
  let sign := if d.negative then ['-'] else []
  let digits := Nat.toDigits 10 d.coeff
  match d.form with
  | .nan      => sign ++ "NaN".toList
  | .infinite => sign ++ "Infinity".toList
  | .finite   =>
    if 0 ≤ d.exponent then sign ++ digits ++ List.replicate d.exponent.toNat '0'
    else
      let left := -d.exponent - digits.length
      if 0 ≤ left then sign ++ "0.".toList ++ List.replicate left.toNat '0' ++ digits
      else sign ++ digits.take (-left).toNat ++ '.' :: digits.drop (-left).toNat

-- Only digits are read, without a sign and a decimal point.
def parseUint (bits : ℕ) (s : List Char) : Option ℕ :=
  if s = [] ∨ ¬s.all Char.isDigit then none
  else
    let n := Nat.ofDigitChars 10 s 0
    if n < 2 ^ bits then some n else none

theorem text_of_nonneg (hf : d.form = .finite) (hn : d.negative = false) (he : 0 ≤ d.exponent) :
    d.text = Nat.toDigits 10 d.coeff ++ List.replicate d.exponent.toNat '0' := by
  simp [text, hf, hn, he]

-- The text of a whole number is read back.
theorem parseUint_text (hf : d.form = .finite) (hn : d.negative = false) (he : 0 ≤ d.exponent)
    (hv : d.toRat = n) (hb : n < 2 ^ bits) : parseUint bits d.text = some n := by
  have hc : n = d.coeff * 10 ^ d.exponent.toNat := by
    have hz : (10 : ℚ) ^ d.exponent.toNat = 10 ^ d.exponent := by
      rw [← zpow_natCast, Int.toNat_of_nonneg he]
    have : (n : ℚ) = d.coeff * 10 ^ d.exponent.toNat := by
      rw [← hv, toRat, hn, if_neg Bool.false_ne_true, one_mul, hz]
    exact_mod_cast this
  have hd : Nat.ofDigitChars 10 d.text 0 = n := by
    rw [text_of_nonneg hf hn he, Nat.ofDigitChars_append, Nat.ofDigitChars_ten_toDigits,
      Nat.ofDigitChars_replicate_zero, hc, mul_comm]
  have hs : ¬(d.text = [] ∨ ¬d.text.all Char.isDigit) := by
    rw [text_of_nonneg hf hn he]
    rintro (h | h)
    · exact Nat.toDigits_ne_nil (List.append_eq_nil_iff.mp h).left
    · refine h <| List.all_eq_true.mpr fun c hc => ?_
      rcases List.mem_append.mp hc with hc | hc
      · exact Nat.isDigit_of_mem_toDigits (by norm_num) le_rfl hc
      · exact List.eq_of_mem_replicate hc ▸ rfl
  simp only [parseUint, if_neg hs, hd, if_pos hb]

theorem parseUint_toDigits (hb : n < 2 ^ bits) : parseUint bits (Nat.toDigits 10 n) = some n := by
  have ht : text { coeff := n } = Nat.toDigits 10 n := by
    rw [text_of_nonneg rfl rfl le_rfl]
    exact List.append_nil _
  rw [← ht]
  exact parseUint_text rfl rfl le_rfl (toRat_of_exponent_zero rfl rfl) hb

end Decimal
