import AtomicSwap.Library.Text

-- Reads UTF-8. Each byte that does not belong to a character is replaced.
namespace Utf8

def isTail (b : UInt8) : Bool :=
  0x80 ≤ b && b < 0xC0

-- The second byte of a longer sequence must not allow a shorter one, a surrogate or a character
-- beyond the last one.
def isSecond (b₀ b₁ : UInt8) : Bool :=
  isTail b₁ && (b₀ ≠ 0xE0 || 0xA0 ≤ b₁) && (b₀ ≠ 0xED || b₁ < 0xA0) && (b₀ ≠ 0xF0 || 0x90 ≤ b₁) &&
    (b₀ ≠ 0xF4 || b₁ < 0x90)

-- A character, and the number of bytes that it takes after the first one.
def decodeRune (b₀ : UInt8) (bs : List UInt8) : Char × ℕ :=
  let invalid := (Char.ofNat 0xFFFD, 0)
  let part (b : UInt8) := b.toNat % 64
  if b₀ < 0x80 then (.ofNat b₀.toNat, 0)
  else if b₀ < 0xC2 || 0xF4 < b₀ then invalid
  else if b₀ < 0xE0 then
    match bs with
    | b₁ :: _ => if isTail b₁ then (.ofNat (b₀.toNat % 32 * 64 + part b₁), 1) else invalid
    | _       => invalid
  else if b₀ < 0xF0 then
    match bs with
    | b₁ :: b₂ :: _ =>
      if isSecond b₀ b₁ && isTail b₂ then
        (.ofNat ((b₀.toNat % 16 * 64 + part b₁) * 64 + part b₂), 2)
      else invalid
    | _             => invalid
  else
    match bs with
    | b₁ :: b₂ :: b₃ :: _ =>
      if isSecond b₀ b₁ && isTail b₂ && isTail b₃ then
        (.ofNat (((b₀.toNat % 8 * 64 + part b₁) * 64 + part b₂) * 64 + part b₃), 3)
      else invalid
    | _                   => invalid

-- The number of bytes that belong to the character before them.
def decodeFrom : ℕ → List UInt8 → List Char
  | _,     []      => []
  | 0,     b :: bs => (decodeRune b bs).1 :: decodeFrom (decodeRune b bs).2 bs
  | n + 1, _ :: bs => decodeFrom n bs

def decode (bs : List UInt8) : List Char :=
  decodeFrom 0 bs

variable {s : List Char}

theorem utf8EncodeChar_ascii {c : Char} (h : c.toNat < 128) :
    String.utf8EncodeChar c = [.ofNat c.toNat] := by
  have hv : c.val.toNat ≤ 127 := by
    have : c.val.toNat = c.toNat := rfl
    omega
  simp only [String.utf8EncodeChar, hv, if_true]
  rfl

theorem length_bytes_ascii (h : ∀ c ∈ s, c.toNat < 128) : (Text.bytes s).length = s.length := by
  induction s
  case nil => rfl
  case cons c s hi =>
    obtain ⟨hc, hs⟩ := List.forall_mem_cons.mp h
    have hi := hi hs
    rw [Text.bytes] at hi
    rw [Text.bytes, List.flatMap_cons, utf8EncodeChar_ascii hc, List.singleton_append,
      List.length_cons, List.length_cons, hi]

theorem decode_ascii (h : ∀ c ∈ s, c.toNat < 128) : decode (Text.bytes s) = s := by
  induction s
  case nil => rfl
  case cons c s hi =>
    obtain ⟨hc, hs⟩ := List.forall_mem_cons.mp h
    have hb : (UInt8.ofNat c.toNat).toNat = c.toNat := by
      rw [UInt8.toNat_ofNat']
      omega
    have hl : UInt8.ofNat c.toNat < 0x80 := by
      rw [UInt8.lt_iff_toNat_lt, hb]
      exact hc
    have hr : ∀ bs, decodeRune (UInt8.ofNat c.toNat) bs = (c, 0) := by
      intro bs
      simp only [decodeRune, hl, if_true, hb, Char.ofNat_toNat]
    have hi := hi hs
    rw [decode] at hi
    rw [Text.bytes, List.flatMap_cons, utf8EncodeChar_ascii hc, List.singleton_append, decode,
      decodeFrom, hr]
    exact congrArg (c :: ·) hi

end Utf8
