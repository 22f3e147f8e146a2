import Mathlib.Data.Nat.Notation

-- The standard encoding with padding. Line breaks are skipped, and the bits that are left over at
-- the end are not checked.
namespace Base64

def symbol (n : ℕ) : Char :=
  if n < 26 then .ofNat (65 + n)
  else if n < 52 then .ofNat (71 + n)
  else if n < 62 then .ofNat (n - 4)
  else if n = 62 then '+'
  else '/'

def value (c : Char) : Option ℕ :=
  if 65 ≤ c.toNat ∧ c.toNat < 91 then some (c.toNat - 65)
  else if 97 ≤ c.toNat ∧ c.toNat < 123 then some (c.toNat - 71)
  else if 48 ≤ c.toNat ∧ c.toNat < 58 then some (c.toNat + 4)
  else if c = '+' then some 62
  else if c = '/' then some 63
  else none

def encode : List UInt8 → List Char
  | []               => []
  | [a]              => [symbol (a.toNat / 4), symbol (a.toNat % 4 * 16), '=', '=']
  | [a, b]           =>
    [symbol (a.toNat / 4), symbol (a.toNat % 4 * 16 + b.toNat / 16), symbol (b.toNat % 16 * 4), '=']
  | a :: b :: c :: r =>
    symbol (a.toNat / 4) :: symbol (a.toNat % 4 * 16 + b.toNat / 16) ::
      symbol (b.toNat % 16 * 4 + c.toNat / 64) :: symbol (c.toNat % 64) :: encode r

-- Padding can only end the text.
def decodeGroups : List Char → Option (List UInt8)
  | []                    => some []
  | a :: b :: c :: d :: r => do
    let x ← value a
    let y ← value b
    if r = [] ∧ c = '=' ∧ d = '=' then some [.ofNat (x * 4 + y / 16)]
    else
      let z ← value c
      if r = [] ∧ d = '=' then some [.ofNat (x * 4 + y / 16), .ofNat (y % 16 * 16 + z / 4)]
      else
        let w ← value d
        let bs ← decodeGroups r
        some (.ofNat (x * 4 + y / 16) :: .ofNat (y % 16 * 16 + z / 4) :: .ofNat (z % 4 * 64 + w) ::
          bs)
  | _                     => none

def decode (s : List Char) : Option (List UInt8) :=
  decodeGroups <| s.filter fun c => c ≠ '\r' ∧ c ≠ '\n'

theorem value_symbol : ∀ n < 64, value (symbol n) = some n := by
  decide

theorem symbol_ne_pad : ∀ n < 64, symbol n ≠ '=' := by
  decide

variable {P : Char → Prop} {bs : List UInt8}

-- What holds for the symbols holds for the characters of a text.
theorem forall_mem_encode (h : ∀ n < 64, P (symbol n)) (hp : P '=') : ∀ c ∈ encode bs, P c := by
  induction bs using encode.induct
  case case1 => simp [encode]
  case case2 a =>
    have ha := a.toNat_lt
    simp only [encode, List.forall_mem_cons, List.not_mem_nil, false_imp_iff, implies_true,
      and_true]
    exact ⟨h _ (by omega), h _ (by omega), hp, hp⟩
  case case3 a b =>
    have ha := a.toNat_lt
    have hb := b.toNat_lt
    simp only [encode, List.forall_mem_cons, List.not_mem_nil, false_imp_iff, implies_true,
      and_true]
    exact ⟨h _ (by omega), h _ (by omega), h _ (by omega), hp⟩
  case case4 a b c r hi =>
    have ha := a.toNat_lt
    have hb := b.toNat_lt
    have hc := c.toNat_lt
    simp only [encode, List.forall_mem_cons]
    exact ⟨h _ (by omega), h _ (by omega), h _ (by omega), h _ (by omega), hi⟩

theorem ofNat_eq {a : UInt8} {n : ℕ} (h : n = a.toNat) : UInt8.ofNat n = a := by
  rw [h, UInt8.ofNat_toNat]

theorem decodeGroups_encode : decodeGroups (encode bs) = some bs := by
  induction bs using encode.induct
  case case1 => rfl
  case case2 a =>
    have ha := a.toNat_lt
    simp only [encode, decodeGroups, value_symbol _ (show a.toNat / 4 < 64 by omega),
      value_symbol _ (show a.toNat % 4 * 16 < 64 by omega), Option.bind_eq_bind, Option.bind_some,
      and_self, if_true]
    rw [ofNat_eq (a := a) (by omega)]
  case case3 a b =>
    have ha := a.toNat_lt
    have hb := b.toNat_lt
    simp only [encode, decodeGroups, value_symbol _ (show a.toNat / 4 < 64 by omega),
      value_symbol _ (show a.toNat % 4 * 16 + b.toNat / 16 < 64 by omega),
      value_symbol _ (show b.toNat % 16 * 4 < 64 by omega),
      symbol_ne_pad _ (show b.toNat % 16 * 4 < 64 by omega), Option.bind_eq_bind, Option.bind_some,
      and_self, and_true, and_false, if_true, if_false]
    rw [ofNat_eq (a := a) (by omega), ofNat_eq (a := b) (by omega)]
  case case4 a b c r hi =>
    have ha := a.toNat_lt
    have hb := b.toNat_lt
    have hc := c.toNat_lt
    simp only [encode, decodeGroups, value_symbol _ (show a.toNat / 4 < 64 by omega),
      value_symbol _ (show a.toNat % 4 * 16 + b.toNat / 16 < 64 by omega),
      value_symbol _ (show b.toNat % 16 * 4 + c.toNat / 64 < 64 by omega),
      value_symbol _ (show c.toNat % 64 < 64 by omega),
      symbol_ne_pad _ (show c.toNat % 64 < 64 by omega), Option.bind_eq_bind, Option.bind_some,
      and_false, if_false, hi]
    rw [ofNat_eq (a := a) (by omega), ofNat_eq (a := b) (by omega), ofNat_eq (a := c) (by omega)]

theorem decode_encode : decode (encode bs) = some bs := by
  have hn : ∀ c ∈ encode bs, c ≠ '\r' ∧ c ≠ '\n' := forall_mem_encode (by decide) (by decide)
  rw [decode, List.filter_eq_self.mpr (by simpa using hn), decodeGroups_encode]

theorem length_encode : (encode bs).length = 4 * ((bs.length + 2) / 3) := by
  induction bs using encode.induct
  case case1 => rfl
  case case2 => simp [encode]
  case case3 => simp [encode]
  case case4 a b c r hi =>
    simp only [encode, List.length_cons, hi]
    omega

end Base64
