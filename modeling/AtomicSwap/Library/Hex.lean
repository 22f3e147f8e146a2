import Mathlib.Data.Nat.Notation

namespace Hex

def digit (n : ℕ) : Char :=
  if n < 10 then .ofNat (48 + n) else .ofNat (87 + n)

-- Digits above nine may be written in both cases.
def value (c : Char) : Option ℕ :=
  if 48 ≤ c.toNat ∧ c.toNat < 58 then some (c.toNat - 48)
  else if 97 ≤ c.toNat ∧ c.toNat < 103 then some (c.toNat - 87)
  else if 65 ≤ c.toNat ∧ c.toNat < 71 then some (c.toNat - 55)
  else none

def encode : List UInt8 → List Char
  | []      => []
  | b :: bs => digit (b.toNat / 16) :: digit (b.toNat % 16) :: encode bs

def decode : List Char → Option (List UInt8)
  | []           => some []
  | [_]          => none
  | a :: b :: cs => do
    let x ← value a
    let y ← value b
    let bs ← decode cs
    return .ofNat (16 * x + y) :: bs

theorem value_digit : ∀ n < 16, value (digit n) = some n := by
  decide

@[simp]
theorem decode_encode (bs : List UInt8) : decode (encode bs) = some bs := by
  induction bs
  case nil => rfl
  case cons b bs hi =>
    have hb := b.toNat_lt
    have hx := value_digit (b.toNat / 16) (by omega)
    have hy := value_digit (b.toNat % 16) (by omega)
    have hv : UInt8.ofNat (16 * (b.toNat / 16) + b.toNat % 16) = b := by
      rw [Nat.div_add_mod, UInt8.ofNat_toNat]
    simp only [encode, decode, hx, hy, hi, hv, Option.bind_eq_bind, Option.bind_some, pure]

theorem length_encode (bs : List UInt8) : (encode bs).length = 2 * bs.length := by
  induction bs
  case nil          => rfl
  case cons b bs hi => simp only [encode, List.length_cons, hi]; omega

theorem exists_digit {c : Char} {bs : List UInt8} (h : c ∈ encode bs) :
    ∃ n < 16, c = digit n := by
  induction bs
  case nil => contradiction
  case cons b bs hi =>
    have hb := b.toNat_lt
    simp only [encode, List.mem_cons] at h
    rcases h with rfl | rfl | h
    · exact ⟨_, by omega, rfl⟩
    · exact ⟨_, by omega, rfl⟩
    · exact hi h

-- Only the values of the digits are read.
theorem decode_congr {cs cs' : List Char} (h : cs.map value = cs'.map value) :
    decode cs = decode cs' := by
  induction cs using decode.induct generalizing cs'
  case case1 =>
    rw [List.map_eq_nil_iff.mp h.symm]
  case case2 c =>
    obtain ⟨c', rfl, -⟩ := List.map_eq_singleton_iff.mp h.symm
    rfl
  case case3 a b cs hi =>
    obtain ⟨a', cs', rfl, ha, h⟩ := List.map_eq_cons_iff.mp h.symm
    obtain ⟨b', cs', rfl, hb, h⟩ := List.map_eq_cons_iff.mp h
    simp only [decode, ha, hb, hi h.symm]

end Hex
