import AtomicSwap.Library.Decimal.Rounding
import AtomicSwap.Library.Decimal.Text
import AtomicSwap.Library.Text

namespace Decimal

-- The number with one digit before the point and an exponent.
def scientific (d : Decimal) : List Char :=
  let sign := if d.negative then ['-'] else []
  let digits := Nat.toDigits 10 d.coeff
  sign ++ digits.take 1 ++ (if digits.length > 1 then '.' :: digits.drop 1 else []) ++
    'E' :: (if d.adjusted < 0 then '-' else '+') :: Nat.toDigits 10 d.adjusted.natAbs

-- Zeros that are not digits of the coefficient are written after the point only, and few of them.
def string (d : Decimal) : List Char :=
  if d.form ≠ .finite ∨ d.exponent ≤ 0 ∧ -6 ≤ d.adjusted then d.text else d.scientific

def parseInt (bits : ℕ) : List Char → Option ℤ
  | '-' :: s => do
    let n ← parseUint bits s
    if n ≤ 2 ^ (bits - 1) then some (-n) else none
  | '+' :: s => nonneg s
  | s        => nonneg s
where
  nonneg (s : List Char) : Option ℤ := do
    let n ← parseUint bits s
    if n < 2 ^ (bits - 1) then some n else none

def coefficient (s : List Char) : Option ℕ :=
  if s = [] ∨ ¬s.all Char.isDigit then none else some <| Nat.ofDigitChars 10 s 0

-- The digits without the point, and the exponent that the point stands for.
def mantissa (s : List Char) : Option (ℕ × List ℤ) :=
  match s.dropWhile (· ≠ '.') with
  | []            => do return (← coefficient s, [])
  | _ :: fraction => do
    return (← coefficient (s.takeWhile (· ≠ '.') ++ fraction), [-fraction.length])

def exponents (s : List Char) : Option (List ℤ) :=
  match s.dropWhile (· ≠ 'e') with
  | []            => some []
  | _ :: exponent => do return [← parseInt 32 exponent]

def setExponent (d : Decimal) (xs : List ℤ) : Option Decimal :=
  let d := { d with exponent := xs.sum }
  if (∀ x ∈ xs, |x| ≤ maxExponent) ∧ |d.exponent| ≤ maxExponent ∧ |d.adjusted| ≤ maxExponent then
    some d
  else none

def setFinite (negative : Bool) (s : List Char) : Option Decimal := do
  let xs ← exponents s
  let (coeff, ys) ← mantissa <| s.takeWhile (· ≠ 'e')
  setExponent { coeff, negative } (xs ++ ys)

def setNaN (negative : Bool) (payload : List Char) : Option Decimal :=
  if payload = [] ∨ (parseUint 64 payload).isSome then some { coeff := 0, negative, form := .nan }
  else none

def setString (s : List Char) : Option Decimal :=
  let negative := s.head? = some '-'
  let s := if s.head? = some '-' ∨ s.head? = some '+' then s.tail else s
  match s.map Char.toLower with
  | ['i', 'n', 'f']                          => some { coeff := 0, negative, form := .infinite }
  | ['i', 'n', 'f', 'i', 'n', 'i', 't', 'y'] => some { coeff := 0, negative, form := .infinite }
  | 'n' :: 'a' :: 'n' :: payload             => setNaN negative payload
  | 's' :: 'n' :: 'a' :: 'n' :: payload      => setNaN negative payload
  | s                                        => setFinite negative s

variable {d d' : Decimal} {c : Char} {s : List Char}

-- The characters of a number without an exponent.
def isPlain (c : Char) : Bool :=
  c.isDigit || c == '.'

theorem isDigit_bounds (h : c.isDigit) : 48 ≤ c.toNat ∧ c.toNat ≤ 57 := by
  simpa [Char.isDigit, UInt32.le_iff_toNat_le] using h

theorem toLower_plain (h : isPlain c) : c.toLower = c := by
  simp only [isPlain, Bool.or_eq_true, beq_iff_eq] at h
  rcases h with h | rfl
  case inl =>
    have hb := isDigit_bounds h
    have hu : ¬(c.val ≥ 'A'.val ∧ c.val ≤ 'Z'.val) := fun hu => by
      have : 65 ≤ c.toNat := UInt32.le_iff_toNat_le.mp hu.left
      omega
    exact dif_neg hu
  case inr => rfl

theorem digit_ne {c' : Char} (h : c.isDigit) (h' : c'.isDigit = false) : c ≠ c' := by
  rintro rfl
  simp [h] at h'

theorem coefficient_digits (hs : s ≠ []) (hd : ∀ c ∈ s, c.isDigit) :
    coefficient s = some (Nat.ofDigitChars 10 s 0) := by
  have ha : s.all Char.isDigit := List.all_eq_true.mpr hd
  simp [coefficient, hs, ha]

theorem sum_point (k : ℕ) : (if k = 0 then [] else [-(k : ℤ)]).sum = -k := by
  split <;> simp_all

-- A text of digits with a point before the last `k` of them writes `n / 10 ^ k`.
inductive Writes : List Char → ℕ → ℕ → Prop
  | intro {whole fraction} (hw : whole ≠ []) (hd : ∀ c ∈ whole ++ fraction, c.isDigit) :
    Writes (whole ++ if fraction = [] then [] else '.' :: fraction)
      (Nat.ofDigitChars 10 (whole ++ fraction) 0) fraction.length

namespace Writes

variable {n k n' k' : ℕ} (h : Writes s n k)
include h

theorem isPlain : ∀ c ∈ s, isPlain c := by
  obtain ⟨_, hd⟩ := h
  intro c hc
  by_cases hp : c = '.'
  case pos => simp [Decimal.isPlain, hp]
  case neg =>
    have hm := hd c (by split at hc <;> simp_all)
    simp [Decimal.isPlain, hm]

theorem eq_cons : ∃ c s', s = c :: s' ∧ c.isDigit := by
  obtain ⟨hw, hd⟩ := h
  obtain ⟨c, whole, rfl⟩ := List.exists_cons_of_ne_nil hw
  exact ⟨c, _, rfl, hd c <| by simp⟩

theorem mantissa : mantissa s = some (n, if k = 0 then [] else [-(k : ℤ)]) := by
  obtain @⟨whole, fraction, hw, hd⟩ := h
  have hp : ∀ c ∈ whole, decide (c ≠ '.') :=
    fun c hc => decide_eq_true <| digit_ne (hd c <| List.mem_append_left _ hc) (by decide)
  have hc := coefficient_digits (List.append_ne_nil_of_left_ne_nil hw fraction) hd
  by_cases hf : fraction = []
  case pos =>
    subst hf
    simp only [List.append_nil] at hc
    simp only [Decimal.mantissa, if_pos, List.append_nil, Text.dropWhile_all hp, hc]
    rfl
  case neg =>
    have hr : Text.Stops (· ≠ '.') ('.' :: fraction) := Text.stops_cons (by decide)
    simp only [Decimal.mantissa, if_neg hf, Text.dropWhile_token hp hr, Text.takeWhile_token hp hr,
      hc, List.length_eq_zero_iff]
    rfl

theorem unique (h' : Writes s n' k') : n = n' ∧ k = k' := by
  have hm := h.mantissa
  rw [h'.mantissa, Option.some.injEq, Prod.mk.injEq] at hm
  refine ⟨hm.left.symm, ?_⟩
  have hk := congrArg List.sum hm.right
  rw [sum_point, sum_point] at hk
  omega

end Writes

theorem ofDigitChars_padded {k l n : ℕ} :
    Nat.ofDigitChars 10 (List.replicate k '0' ++ Nat.toDigits 10 n ++ List.replicate l '0') 0 =
      n * 10 ^ l := by
  have hk : Nat.ofDigitChars 10 (List.replicate k '0') 0 = 0 := by
    rw [Nat.ofDigitChars_replicate_zero, mul_zero]
  rw [Nat.ofDigitChars_append, Nat.ofDigitChars_append, hk, Nat.ofDigitChars_ten_toDigits,
    Nat.ofDigitChars_replicate_zero, mul_comm]

-- Digits that are padded with zeros on both sides.
theorem writes_padded {l m n : ℕ} (k : ℕ) (whole fraction : List Char)
    (hs : s = whole ++ if fraction = [] then [] else '.' :: fraction) (hw : whole ≠ [])
    (h : whole ++ fraction = List.replicate k '0' ++ Nat.toDigits 10 n ++ List.replicate l '0')
    (hm : fraction.length = m) : Writes s (n * 10 ^ l) m := by
  rw [← ofDigitChars_padded (k := k), ← h, hs, ← hm]
  refine .intro hw ?_
  rw [h]
  intro c hc
  simp only [List.mem_append] at hc
  rcases hc with (hc | hc) | hc
  · exact List.eq_of_mem_replicate hc ▸ rfl
  · exact Text.isDigit_toDigits c hc
  · exact List.eq_of_mem_replicate hc ▸ rfl

section Text

variable (hf : d.form = .finite) (hn : d.negative = false)
include hf hn

theorem writes_text : Writes d.text (d.coeff * 10 ^ d.exponent.toNat) (-d.exponent).toNat := by
  set digits := Nat.toDigits 10 d.coeff with hd
  have hd₀ : digits ≠ [] := Nat.toDigits_ne_nil
  by_cases he : 0 ≤ d.exponent
  case pos =>
    have ht := text_of_nonneg hf hn he
    rw [← hd] at ht
    refine writes_padded 0 d.text [] ?_ ?_ ?_ ?_
    · simp
    · simp [ht, hd₀]
    · simp [ht, ← hd]
    · simp; omega
  case neg =>
    rw [Int.toNat_of_nonpos (by omega : d.exponent ≤ 0)]
    -- The point stands before all digits, with zeros between, or among them.
    by_cases hl : 0 ≤ -d.exponent - digits.length
    case pos =>
      set k := (-d.exponent - digits.length).toNat with hk
      have ht : d.text = ['0'] ++ '.' :: (List.replicate k '0' ++ digits) := by
        simp only [text, hf, hn, if_neg he, ← hd, if_pos hl]
        rfl
      refine writes_padded (k + 1) ['0'] (List.replicate k '0' ++ digits) ?_ ?_ ?_ ?_
      · simp [ht, hd₀]
      · simp
      · simp [List.replicate_succ, ← hd]
      · simp; omega
    case neg =>
      set k := (-(-d.exponent - digits.length)).toNat with hk
      have ht : d.text = digits.take k ++ '.' :: digits.drop k := by
        simp only [text, hf, hn, if_neg he, ← hd, if_neg hl, ← hk]
        rfl
      have hlt : k < digits.length := by omega
      refine writes_padded 0 (digits.take k) (digits.drop k) ?_ ?_ ?_ ?_
      · simp [ht, hlt]
      · simp [hd₀]; omega
      · simp [← hd]
      · simp; omega

end Text

-- The positive part of the exponent belongs to the digits that are written, the negative one to the
-- point among them.
theorem toRat_eq_shift (hn : d.negative = false) :
    d.toRat = (d.coeff * 10 ^ d.exponent.toNat : ℕ) * 10 ^ (-((-d.exponent).toNat : ℤ)) := by
  have hz : (10 : ℚ) ^ d.exponent =
      10 ^ (d.exponent.toNat : ℤ) * 10 ^ (-((-d.exponent).toNat : ℤ)) := by
    rw [← zpow_add₀ (by norm_num)]
    congr 1
    omega
  rw [toRat_eq hn, hz, zpow_natCast, ← mul_assoc]
  push_cast
  rfl

-- Reduced numbers are told apart by their texts.
theorem text_injective (hf : d.form = .finite) (hn : d.negative = false) (hr : d.reduce = d)
    (hf' : d'.form = .finite) (hn' : d'.negative = false) (hr' : d'.reduce = d')
    (h : d.text = d'.text) : d = d' := by
  have hw := writes_text hf hn
  rw [h] at hw
  obtain ⟨hc, he⟩ := hw.unique <| writes_text hf' hn'
  have hv : d'.toRat = d.toRat := by
    rw [toRat_eq_shift hn, toRat_eq_shift hn', hc, he]
  rw [← hr, ← hr']
  exact (SameValue.reduce_eq ⟨hv, hn'.trans hn.symm, hf'.trans hf.symm⟩ hf).symm

-- A text that starts with a digit has no sign and is a finite number.
theorem setString_digit (h : ∃ c s', s = c :: s' ∧ c.isDigit) :
    setString s = setFinite false (s.map Char.toLower) := by
  obtain ⟨c, s, rfl, hc⟩ := h
  have hl : c.toLower = c := toLower_plain <| by simp [isPlain, hc]
  have hm : c ≠ '-' := digit_ne hc (by decide)
  have hp : c ≠ '+' := digit_ne hc (by decide)
  simp only [setString, List.head?_cons, Option.some.injEq, hm, hp, or_self, if_false,
    List.map_cons, hl, decide_false]
  split
  case h_5 => rfl
  all_goals
    rename_i h
    injection h with h
    subst h
    contradiction

theorem Writes.ne_e {n k : ℕ} (h : Writes s n k) : ∀ c ∈ s, decide (c ≠ 'e') := by
  intro c hc
  refine decide_eq_true ?_
  rintro rfl
  exact absurd (h.isPlain _ hc) (by decide)

theorem Writes.map_toLower {n k : ℕ} (h : Writes s n k) : s.map Char.toLower = s := by
  rw [List.map_congr_left fun c hc => toLower_plain <| h.isPlain c hc, List.map_id']

theorem setFinite_writes {n k : ℕ} (h : Writes s n k) :
    setFinite false s = setExponent { coeff := n } (if k = 0 then [] else [-(k : ℤ)]) := by
  simp only [setFinite, exponents, Text.dropWhile_all h.ne_e, Text.takeWhile_all h.ne_e, h.mantissa]
  rfl

theorem setFinite_scientific {n k : ℕ} {e : ℤ} {t : List Char} (h : Writes s n k)
    (ht : parseInt 32 t = some e) : setFinite false (s ++ 'e' :: t) =
      setExponent { coeff := n } (e :: if k = 0 then [] else [-(k : ℤ)]) := by
  have hr : Text.Stops (· ≠ 'e') ('e' :: t) := Text.stops_cons (by decide)
  simp only [setFinite, exponents, Text.dropWhile_token h.ne_e hr, Text.takeWhile_token h.ne_e hr,
    h.mantissa, ht]
  rfl

theorem length_toDigits : (Nat.toDigits 10 d.coeff).length = d.numDigits := by
  have hi (p : ℕ) (hp : p ≠ 0) : (Nat.toDigits 10 d.coeff).length ≤ p ↔ d.numDigits ≤ p := by
    rw [Nat.length_toDigits_le_iff (by norm_num) (by omega), numDigits_le hp]
  have h₀ : (Nat.toDigits 10 d.coeff).length ≠ 0 := by simp
  have h₁ : d.numDigits ≠ 0 := by simp [numDigits]
  exact le_antisymm ((hi _ h₁).mpr le_rfl) ((hi _ h₀).mp le_rfl)

-- The sign and the digits of an exponent are read back.
theorem parseInt_adjusted {e : ℤ} (he : |e| ≤ maxExponent) :
    parseInt 32 ((if e < 0 then '-' else '+') :: Nat.toDigits 10 e.natAbs) = some e := by
  have hb : e.natAbs < 2 ^ 31 := by
    simp only [maxExponent, abs_le] at he
    omega
  have hp : parseUint 32 (Nat.toDigits 10 e.natAbs) = some e.natAbs :=
    parseUint_toDigits (hb.trans (by norm_num))
  split
  case isTrue h =>
    simp only [parseInt, hp, Option.bind_eq_bind, Option.bind_some, if_pos hb.le]
    congr 1
    omega
  case isFalse h =>
    simp only [parseInt, parseInt.nonneg, hp, Option.bind_eq_bind, Option.bind_some, if_pos hb]
    congr 1
    omega

-- The exponents of a number that a text can hold.
structure Readable (d : Decimal) : Prop where
  form     : d.form = .finite
  positive : d.negative = false
  digits   : d.numDigits ≤ maxExponent
  exponent : |d.exponent| ≤ maxExponent
  adjusted : |d.adjusted| ≤ maxExponent

theorem Readable.setExponent {xs : List ℤ} (h : Readable d) (hs : xs.sum = d.exponent)
    (hx : ∀ x ∈ xs, |x| ≤ maxExponent) : setExponent { coeff := d.coeff } xs = some d := by
  obtain ⟨coeff, exponent, negative, form⟩ := d
  obtain ⟨rfl, rfl, -, he, ha⟩ := h
  obtain rfl : xs.sum = exponent := hs
  simp only [Decimal.setExponent]
  exact if_pos ⟨hx, he, ha⟩

theorem point_le_maxExponent {k : ℕ} (hk : k ≤ maxExponent) :
    ∀ x ∈ if k = 0 then [] else [-(k : ℤ)], |x| ≤ maxExponent := by
  intro x hx
  split at hx
  · simp at hx
  · rw [List.mem_singleton.mp hx, abs_neg, Nat.abs_cast]
    exact hk

theorem scientific_eq (hn : d.negative = false) : ∃ s, Writes s d.coeff (d.numDigits - 1) ∧
    d.scientific = s ++ 'E' :: (if d.adjusted < 0 then '-' else '+') ::
      Nat.toDigits 10 d.adjusted.natAbs := by
  set digits := Nat.toDigits 10 d.coeff with hd
  have hl : digits.length = d.numDigits := length_toDigits
  have hd₀ : digits ≠ [] := Nat.toDigits_ne_nil
  refine ⟨digits.take 1 ++ if digits.length > 1 then '.' :: digits.drop 1 else [], ?_, ?_⟩
  · rw [← mul_one d.coeff, ← pow_zero 10]
    refine writes_padded 0 (digits.take 1) (digits.drop 1) ?_ ?_ ?_ ?_
    · simp only [List.drop_eq_nil_iff]
      split <;> split <;> first | rfl | omega
    · simp [hd₀]
    · simp only [List.take_append_drop, List.replicate_zero, List.nil_append, List.append_nil, hd]
    · simp [hl]
  · simp only [scientific, hn, ← hd]
    simp

-- The text of a number is read back with the same digits and exponent.
theorem Readable.setString_string (h : Readable d) : setString d.string = some d := by
  have ⟨hf, hn, hd, he, ha⟩ := h
  by_cases hp : d.exponent ≤ 0 ∧ -6 ≤ d.adjusted
  case pos =>
    have hw := writes_text hf hn
    rw [Int.toNat_of_nonpos hp.left, pow_zero, mul_one] at hw
    rw [string, if_pos (.inr hp), setString_digit hw.eq_cons, hw.map_toLower, setFinite_writes hw]
    refine h.setExponent ((sum_point _).trans (by omega)) (point_le_maxExponent ?_)
    rw [abs_le] at he
    omega
  case neg =>
    obtain ⟨s, hw, hs⟩ := scientific_eq hn
    have hm : (if d.adjusted < 0 then '-' else '+').toLower = if d.adjusted < 0 then '-' else '+' :=
      by split <;> rfl
    have ht : (Nat.toDigits 10 d.adjusted.natAbs).map Char.toLower =
        Nat.toDigits 10 d.adjusted.natAbs := by
      rw [List.map_congr_left fun c hc => toLower_plain <| by
        simp [isPlain, Text.isDigit_toDigits c hc], List.map_id']
    have hl : d.scientific.map Char.toLower = s ++ 'e' ::
        (if d.adjusted < 0 then '-' else '+') :: Nat.toDigits 10 d.adjusted.natAbs := by
      rw [hs, List.map_append, hw.map_toLower, List.map_cons, List.map_cons, hm, ht]
      rfl
    have hc : ∃ c s', d.scientific = c :: s' ∧ c.isDigit := by
      obtain ⟨c, s', rfl, hc⟩ := hw.eq_cons
      exact ⟨c, _, hs, hc⟩
    rw [string, if_neg (by simp [hf, hp]), setString_digit hc, hl,
      setFinite_scientific hw (parseInt_adjusted ha)]
    refine h.setExponent ?_ ?_
    · rw [List.sum_cons, sum_point, Decimal.adjusted]
      have : 0 < d.numDigits := Nat.succ_pos _
      omega
    · exact List.forall_mem_cons.mpr ⟨ha, point_le_maxExponent (by omega)⟩

theorem setExponent_adjusted {xs : List ℤ} (h : d.setExponent xs = some d') :
    |d'.adjusted| ≤ maxExponent := by
  simp only [Decimal.setExponent] at h
  split at h
  case isTrue hl =>
    cases h
    exact hl.right.right
  case isFalse => contradiction

theorem setNaN_form {negative : Bool} (h : setNaN negative s = some d) : d.form = .nan := by
  simp only [setNaN] at h
  split at h
  · cases h
    rfl
  · contradiction

theorem setString_adjusted (h : setString s = some d) (hf : d.form = .finite) :
    |d.adjusted| ≤ maxExponent := by
  simp only [setString] at h
  split at h
  case h_5 =>
    simp only [setFinite, Option.bind_eq_bind, Option.bind_eq_some_iff] at h
    obtain ⟨xs, -, ⟨c, ys⟩, -, h⟩ := h
    exact setExponent_adjusted h
  case h_1 | h_2 =>
    cases h
    contradiction
  case h_3 | h_4 => simp [setNaN_form h] at hf

-- The exponent of the first digit is seen from the value.
theorem adjusted_reduce (hc : d.coeff ≠ 0) (hn : d.negative = false) :
    d.reduce.adjusted = d.adjusted := by
  have hv : (d.reduce.coeff : ℚ) * 10 ^ d.reduce.exponent = d.coeff * 10 ^ d.exponent := by
    rw [← toRat_eq hn, ← toRat_eq (reduce_negative.trans hn), toRat_reduce]
  have hc' : d.reduce.coeff ≠ 0 := by
    rintro h₀
    rw [h₀, Nat.cast_zero, zero_mul] at hv
    have : (0 : ℚ) < d.coeff * 10 ^ d.exponent := by positivity
    exact this.ne hv
  refine le_antisymm (le_adjusted ?_) (le_adjusted ?_)
  · exact hv ▸ pow_adjusted_le hc'
  · exact hv.symm ▸ pow_adjusted_le hc

theorem exponent_le_adjusted : d.exponent ≤ d.adjusted := by
  simp only [adjusted, numDigits]
  omega

end Decimal
