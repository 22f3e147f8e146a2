import AtomicSwap.Library.Radix
import Mathlib.Tactic.Ring

namespace Bytes

-- The `k` least significant bytes of a number, least significant first.
def le : (k n : ℕ) → List UInt8
  | 0,     _ => []
  | k + 1, n => .ofNat (n % 256) :: le k (n / 256)

def be (k n : ℕ) : List UInt8 :=
  (le k n).reverse

def leValue : List UInt8 → ℕ
  | []      => 0
  | b :: bs => b.toNat + 256 * leValue bs

@[simp]
theorem length_le (k n : ℕ) : (le k n).length = k := by
  induction k generalizing n
  case zero      => rfl
  case succ _ hi => simp [le, hi]

@[simp]
theorem length_be (k n : ℕ) : (be k n).length = k := by
  simp [be]

theorem leValue_le (k n : ℕ) : leValue (le k n) = n % 256 ^ k := by
  induction k generalizing n
  case zero => simp [le, leValue, Nat.mod_one]
  case succ k hi =>
    have hb : (UInt8.ofNat (n % 256)).toNat = n % 256 := by simp
    rw [le, leValue, hi, hb, pow_succ', Nat.mod_mul]

theorem leValue_lt (bs : List UInt8) : leValue bs < 256 ^ bs.length := by
  induction bs
  case nil => simp [leValue]
  case cons b bs hi =>
    have hb : b.toNat < 256 := b.toNat_lt
    rw [leValue, List.length_cons, pow_succ]
    omega

def beValue (bs : List UInt8) : ℕ :=
  leValue bs.reverse

theorem beValue_be (k n : ℕ) : beValue (be k n) = n % 256 ^ k := by
  rw [beValue, be, List.reverse_reverse, leValue_le]

theorem le_leValue (bs : List UInt8) : le bs.length (leValue bs) = bs := by
  induction bs
  case nil => rfl
  case cons b bs hi =>
    have hb : b.toNat < 256 := b.toNat_lt
    have hm : (b.toNat + 256 * leValue bs) % 256 = b.toNat := by omega
    have hd : (b.toNat + 256 * leValue bs) / 256 = leValue bs := by omega
    rw [List.length_cons, leValue, le, hm, hd, hi, UInt8.ofNat_toNat]

theorem be_beValue (bs : List UInt8) : be bs.length (beValue bs) = bs := by
  rw [be, beValue, ← bs.length_reverse, le_leValue, List.reverse_reverse]

-- Bytes of one length are determined by their number.
theorem eq_be {bs : List UInt8} {k : ℕ} (h : bs.length = k) : bs = be k (beValue bs) := by
  rw [← h, be_beValue]

theorem beValue_be_of_le {w k : ℕ} (x : BitVec w) (hw : w ≤ 8 * k) :
    beValue (be k x.toNat) = x.toNat := by
  rw [beValue_be]
  apply Nat.mod_eq_of_lt
  calc x.toNat
    _ < 2 ^ w       := x.isLt
    _ ≤ 2 ^ (8 * k) := Nat.pow_le_pow_right (by decide) hw
    _ = 256 ^ k     := Nat.pow_mul 2 8 k

-- A number of at most 256 bits fits into 32 bytes.
@[simp]
theorem beValue_be_toNat {w : ℕ} (x : BitVec w) (hw : w ≤ 256 := by decide) :
    beValue (be 32 x.toNat) = x.toNat :=
  beValue_be_of_le x hw

-- The number in a 32-byte word.
def word (k : ℕ) (bs : List UInt8) : ℕ :=
  beValue <| bs.drop (32 * k) |>.take 32

variable {k : ℕ} {a b : List UInt8}

theorem word_lt : word k b < 2 ^ 256 := by
  have hl : (b.drop (32 * k) |>.take 32).reverse.length ≤ 32 := by simp
  calc word k b
    _ < 256 ^ _  := leValue_lt _
    _ ≤ 256 ^ 32 := Nat.pow_le_pow_right (by decide) hl
    _ = 2 ^ 256  := by decide

theorem word_zero (h : a.length = 32) : word 0 (a ++ b) = beValue a := by
  simp [word, h]

theorem word_self (h : a.length = 32) : word 0 a = beValue a := by
  simp [word, List.take_of_length_le, h]

theorem word_succ (h : a.length = 32) : word (k + 1) (a ++ b) = word k b := by
  have hd : (a ++ b).drop (32 * (k + 1)) = b.drop (32 * k) := by
    rw [Nat.mul_succ, Nat.add_comm, ← h, ← List.drop_drop, List.drop_left, h]
  rw [word, hd, word]

section Radix

-- The bytes of a number without leading zeros, most significant first.
def minimal (n : ℕ) : List UInt8 :=
  (Radix.minimal 256 n).map .ofNat

-- Copies bytes to the start of an array of `k` zeros.
def copyTo (k : ℕ) (bs : List UInt8) : List UInt8 :=
  bs.take k ++ .replicate (k - bs.length) 0

theorem leValue_eq_ofDigits (bs : List UInt8) :
    leValue bs = Nat.ofDigits 256 (bs.map UInt8.toNat) := by
  induction bs
  case nil          => rfl
  case cons b bs hi => rw [leValue, hi, List.map_cons, Nat.ofDigits_cons]

theorem beValue_eq_value (bs : List UInt8) : beValue bs = Radix.value 256 (bs.map UInt8.toNat) := by
  rw [beValue, leValue_eq_ofDigits, Radix.value, List.map_reverse]

theorem map_toNat_map_ofNat {ds : List ℕ} (h : ∀ d ∈ ds, d < 256) :
    (ds.map UInt8.ofNat).map UInt8.toNat = ds := by
  conv_rhs => rw [← ds.map_id]
  rw [List.map_map]
  exact List.map_congr_left fun d hd => UInt8.toNat_ofNat_of_lt' <| h d hd

theorem map_toNat_lt (bs : List UInt8) : ∀ d ∈ bs.map UInt8.toNat, d < 256 := by
  intro d hd
  obtain ⟨b, _, rfl⟩ := List.mem_map.mp hd
  exact b.toNat_lt

variable {n : ℕ}

theorem map_fixed (h : n < 256 ^ k) : (Radix.fixed 256 k n).map .ofNat = be k n := by
  have hl : ((Radix.fixed 256 k n).map UInt8.ofNat).length = k := by
    rw [List.length_map, Radix.length_fixed (by decide) h]
  rw [eq_be hl, beValue_eq_value, map_toNat_map_ofNat <| Radix.fixed_lt (by decide),
    Radix.value_fixed]

theorem be_mod : be k (n % 256 ^ k) = be k n := by
  have h := eq_be (length_be k n)
  rwa [beValue_be, eq_comm] at h

-- The bytes that are missing in the shortest form are the zeros of the array.
theorem copyTo_reverse_minimal (h : n < 256 ^ k) : copyTo k (minimal n).reverse = le k n := by
  have hl : (Nat.digits 256 n).length ≤ k := Nat.digits_length_le_iff (by decide) n |>.mpr h
  have hf := congrArg List.reverse <| map_fixed h
  rw [be, List.reverse_reverse] at hf
  rw [← hf, Radix.fixed, Nat.digitsAppend, minimal, Radix.minimal, copyTo, List.map_reverse,
    List.reverse_reverse, List.map_reverse, List.reverse_reverse, List.map_append,
    List.map_replicate, List.length_map, List.take_of_length_le (by simpa using hl)]
  rfl

end Radix

end Bytes
