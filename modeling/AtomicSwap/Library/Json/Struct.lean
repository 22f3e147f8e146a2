import AtomicSwap.Library.Base64
import AtomicSwap.Library.Decimal.Text
import AtomicSwap.Library.Hex
import AtomicSwap.Library.Json.Tree

-- How trees are decoded into the fields of records.
namespace Json

section Unquote

-- A character, or a code unit that was written as an escape sequence.
inductive Symbol
  | char (c : Char)
  | unit (u : ℕ)

inductive Reading
  | plain
  | backslash
  | digits (n value : ℕ)

def unescaped : Char → Char
  | 'b' => .ofNat 8
  | 'f' => .ofNat 12
  | 'n' => '\n'
  | 'r' => '\r'
  | 't' => '\t'
  | c   => c

def unescape : Reading → List Char → List Symbol
  | _,                []     => []
  | .plain,           c :: s =>
    if c = '\\' then unescape .backslash s else .char c :: unescape .plain s
  | .backslash,       c :: s =>
    if c = 'u' then unescape (.digits 3 0) s else .char (unescaped c) :: unescape .plain s
  | .digits 0 v,       c :: s => .unit (16 * v + (Hex.value c).getD 0) :: unescape .plain s
  | .digits (n + 1) v, c :: s => unescape (.digits n (16 * v + (Hex.value c).getD 0)) s

-- A surrogate without its partner is replaced.
def rune (u : ℕ) : Char :=
  if 0xD800 ≤ u ∧ u < 0xE000 then .ofNat 0xFFFD else .ofNat u

def runes : List Symbol → List Char
  | []                      => []
  | .char c :: s            => c :: runes s
  | [.unit u]               => [rune u]
  | .unit u :: .char c :: s => rune u :: c :: runes s
  | .unit u :: .unit l :: s =>
    if 0xD800 ≤ u ∧ u < 0xDC00 ∧ 0xDC00 ≤ l ∧ l < 0xE000 then
      .ofNat (0x10000 + (u - 0xD800) * 0x400 + (l - 0xDC00)) :: runes s
    else rune u :: runes (.unit l :: s)

def unquote (raw : List Char) : List Char :=
  runes <| unescape .plain raw

end Unquote

section Fields

variable {α : Type}

-- The case of a letter does not matter for a key. Two letters outside ASCII have a capital in it.
def foldChar (c : Char) : Char :=
  if 'a' ≤ c ∧ c ≤ 'z' then .ofNat (c.toNat - 32)
  else if c.toNat = 0x17F then 'S'
  else if c.toNat = 0x212A then 'K'
  else c

structure Field (α : Type) where
  key : List Char
  set : Tree → α → Option α

def findField (fields : List (Field α)) (key : List Char) : Option (Field α) :=
  (fields.find? (·.key = key)).or <| fields.find? fun f => f.key.map foldChar = key.map foldChar

-- Members that are no fields are skipped. A later member for a field is decoded into what the
-- earlier one has left.
def decodeMembers (fields : List (Field α)) : List (List Char × Tree) → α → Option α
  | [],      a => some a
  | m :: ms, a => do
    let a ← ((findField fields (unquote m.1)).map fun f => f.set m.2 a).getD (some a)
    decodeMembers fields ms a

def decodeStruct (fields : List (Field α)) : Tree → α → Option α
  | .null,      a => some a
  | .object ms, a => decodeMembers fields ms a
  | _,          _ => none

end Fields

section Values

variable {β : Type}

-- A pointer is set to nil by a null.
def pointer (decode : Tree → Option β) : Tree → Option (Option β)
  | .null => some none
  | t     => (decode t).map some

-- The text of a string with its escape sequences.
def raw (decode : List Char → Option β) : Tree → Option β
  | .string s => decode s
  | _         => none

def natural (s : List Char) : Option ℕ :=
  if s ≠ [] ∧ s.all Char.isDigit then some (Nat.ofDigitChars 10 s 0) else none

def bigInt : Tree → Option ℤ
  | .number s =>
    if s.head? = some '-' then (natural s.tail).map fun n => -(n : ℤ)
    else (natural s).map fun n => (n : ℤ)
  | _         => none

-- A null leaves an element as it was.
def elements : List Tree → List UInt8 → Option (List UInt8)
  | [],             _   => some []
  | .null :: ts,     bs => do return bs.headD 0 :: (← elements ts bs.tail)
  | .number s :: ts, bs => do
    let n ← Decimal.parseUint 8 s
    return .ofNat n :: (← elements ts bs.tail)
  | _ :: _,         _   => none

def byteSlice (bs : Option (List UInt8)) : Tree → Option (Option (List UInt8))
  | .null     => some none
  | .string s => (Base64.decode <| unquote s).map some
  | .array ts => (elements ts <| bs.getD []).map some
  | _         => none

-- Elements beyond the last one of the array are skipped, and missing ones are zero.
def byteArray (bs : List UInt8) : Tree → Option (List UInt8)
  | .null     => some bs
  | .array ts => do
    let es ← elements (ts.take bs.length) bs
    return es ++ List.replicate (bs.length - es.length) 0
  | _         => none

end Values

variable {s : List Char} {bs bs' : List UInt8}

theorem unescape_plain (h : ∀ c ∈ s, isPlain c) : unescape .plain s = s.map .char := by
  induction s
  case nil => rfl
  case cons c s hi =>
    obtain ⟨hc, hs⟩ := List.forall_mem_cons.mp h
    have hb : c ≠ '\\' := by rintro rfl; contradiction
    simp [unescape, hb, hi hs]

theorem runes_chars : runes (s.map .char) = s := by
  induction s
  case nil          => rfl
  case cons c s hi  => simp [runes, hi]

theorem unquote_plain (h : ∀ c ∈ s, isPlain c) : unquote s = s := by
  rw [unquote, unescape_plain h, runes_chars]

-- A member whose value is read on its own, and stored then.
theorem decodeMembers_cons {α β : Type} {fields : List (Field α)} {f : Field α} {t : Tree}
    {ms : List (List Char × Tree)} {a : α} {x : Option β} {b : β} {g : β → α}
    (hk : s.all isPlain) (hf : findField fields s = some f)
    (hs : f.set t a = x >>= fun b => pure (g b)) (hx : x = some b) :
    decodeMembers fields ((s, t) :: ms) a = decodeMembers fields ms (g b) := by
  have hu := unquote_plain <| List.all_eq_true.mp hk
  simp [decodeMembers, hu, hf, hs, hx]

section Invariant

variable {α : Type} {fields : List (Field α)} {f : Field α} {P : α → Prop} {a a' : α}

theorem mem_of_findField (h : findField fields s = some f) : f ∈ fields := by
  rcases Option.or_eq_some_iff.mp h with h | ⟨-, h⟩
  all_goals exact List.mem_of_find?_eq_some h

-- What the decoding of each field preserves holds for the decoded record.
theorem decodeMembers_preserves {ms : List (List Char × Tree)}
    (h : ∀ f ∈ fields, ∀ t a a', P a → f.set t a = some a' → P a') (ha : P a)
    (hd : decodeMembers fields ms a = some a') : P a' := by
  induction ms generalizing a
  case nil => exact Option.some.inj hd ▸ ha
  case cons m ms hi =>
    obtain ⟨x, hx, hd⟩ := Option.bind_eq_some_iff.mp hd
    refine hi ?_ hd
    cases hf : findField fields (unquote m.1)
    case none =>
      rw [hf] at hx
      exact Option.some.inj hx ▸ ha
    case some f =>
      rw [hf] at hx
      exact h f (mem_of_findField hf) _ _ _ ha hx

theorem decodeStruct_preserves {t : Tree}
    (h : ∀ f ∈ fields, ∀ t a a', P a → f.set t a = some a' → P a') (ha : P a)
    (hd : decodeStruct fields t a = some a') : P a' := by
  cases t
  case null      => exact Option.some.inj hd ▸ ha
  case object ms => exact decodeMembers_preserves h ha hd
  all_goals contradiction

end Invariant

theorem natural_toDigits (n : ℕ) : natural (Nat.toDigits 10 n) = some n := by
  have hd : (Nat.toDigits 10 n).all Char.isDigit := List.all_eq_true.mpr Text.isDigit_toDigits
  rw [natural, if_pos ⟨Nat.toDigits_ne_nil, hd⟩, Nat.ofDigitChars_ten_toDigits]

theorem bigInt_integer (n : ℤ) : bigInt (.number <| integer n) = some n := by
  simp only [bigInt, integer]
  by_cases hn : n < 0
  · simp only [hn, if_true, List.head?_cons, List.tail_cons, natural_toDigits]
    have he : -(n.natAbs : ℤ) = n := by omega
    exact congrArg some he
  · have hm : (Nat.toDigits 10 n.natAbs).head? ≠ some '-' := by
      intro hm
      have hd := Text.isDigit_toDigits _ (List.mem_of_head? hm)
      contradiction
    simp only [hn, if_false, hm, natural_toDigits]
    have he : (n.natAbs : ℤ) = n := by omega
    exact congrArg some he

theorem pointer_integer (n : ℤ) : pointer bigInt (.number <| integer n) = some (some n) := by
  rw [pointer, bigInt_integer]
  · rfl
  · exact Tree.noConfusion

theorem decode_of_pointer {β : Type} {decode : Tree → Option β} {t : Tree} {b : β}
    (h : pointer decode t = some (some b)) : decode t = some b := by
  cases t
  case null => simp [pointer] at h
  all_goals
    obtain ⟨c, hc, he⟩ := Option.map_eq_some_iff.mp h
    exact Option.some.inj he ▸ hc

-- A byte array is written as the list of its numbers.
def numbers (bs : List UInt8) : Tree :=
  .array <| bs.map fun b => .number <| integer b.toNat

theorem length_integer {n : ℤ} {k : ℕ} (hn : 0 ≤ n) (hk : 0 < k) (h : n < 10 ^ k) :
    (integer n).length ≤ k := by
  obtain ⟨m, rfl⟩ := Int.eq_ofNat_of_zero_le hn
  rw [integer, if_neg (by omega), Int.natAbs_natCast, Nat.length_toDigits_le_iff (by decide) hk]
  exact_mod_cast h

theorem length_numbers (bs : List UInt8) : (numbers bs).render.length ≤ 4 * bs.length + 2 := by
  have hb : ∀ b : UInt8, (integer b.toNat).length ≤ 3 := by
    intro b
    have := b.toNat_lt
    exact length_integer (by omega) (by decide) (by omega)
  have hi : ∀ bs : List UInt8,
      (renderItems <| bs.map fun b => .number <| integer b.toNat).length ≤ 4 * bs.length + 1 := by
    intro bs
    induction bs
    case nil => exact Nat.le_refl _
    case cons b bs hi =>
      have := hb b
      simp only [List.map_cons, renderItems, Tree.render, List.length_cons, List.length_append]
      omega
  cases bs
  case nil => exact Nat.le_refl _
  case cons b bs =>
    have := hb b
    have := hi bs
    simp only [numbers, List.map_cons, Tree.render, List.length_cons, List.length_append]
    omega

theorem elements_numbers : elements (bs.map fun b => .number <| integer b.toNat) bs' = some bs := by
  induction bs generalizing bs'
  case nil => rfl
  case cons b bs hi =>
    have hb : integer b.toNat = Nat.toDigits 10 b.toNat := by
      rw [integer, if_neg (by omega), Int.natAbs_natCast]
    simp [elements, hb, Decimal.parseUint_toDigits b.toNat_lt, hi]

theorem byteArray_numbers (h : bs.length = bs'.length) : byteArray bs' (numbers bs) = some bs := by
  have ht : List.take bs'.length (bs.map fun b => Tree.number <| integer b.toNat) =
      bs.map fun b => .number <| integer b.toNat := List.take_of_length_le (by simp [h])
  simp [byteArray, numbers, ht, elements_numbers, h]

theorem isPlain_base64 : ∀ c ∈ Base64.encode bs, isPlain c :=
  Base64.forall_mem_encode (by decide) (by decide)

theorem byteSlice_base64 {x : Option (List UInt8)} :
    byteSlice x (.string <| Base64.encode bs) = some (some bs) := by
  rw [byteSlice, unquote_plain isPlain_base64, Base64.decode_encode]
  rfl

end Json
