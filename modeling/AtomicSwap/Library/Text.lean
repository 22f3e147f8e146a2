import Mathlib.Data.List.Basic
import Mathlib.Data.Nat.Notation

namespace Text

variable {n m : ℕ} {c : Char} {s r : List Char} {p : Char → Bool}

-- Texts are hashed in UTF-8.
def bytes (s : List Char) : List UInt8 :=
  s.flatMap String.utf8EncodeChar

theorem bytes_injective : Function.Injective bytes := by
  intro s r h
  have hb : (String.ofList s).toByteArray = (String.ofList r).toByteArray := by
    simpa [List.utf8Encode, bytes] using congrArg List.toByteArray h
  exact String.ofList_injective <| String.toByteArray_inj.mp hb

-- The end of a token, which is read as long as its characters are in `p`.
def Stops (p : Char → Bool) (r : List Char) : Prop :=
  ∀ c ∈ r.head?, p c = false

theorem takeWhile_token (hs : ∀ c ∈ s, p c) (hr : Stops p r) : (s ++ r).takeWhile p = s := by
  rw [List.takeWhile_append_of_pos hs]
  cases r
  case nil  => simp
  case cons => simp [hr _ rfl]

theorem dropWhile_token (hs : ∀ c ∈ s, p c) (hr : Stops p r) : (s ++ r).dropWhile p = r := by
  rw [List.dropWhile_append_of_pos hs]
  cases r
  case nil  => rfl
  case cons => simp [hr _ rfl]

theorem stops_nil : Stops p [] := by
  simp [Stops]

theorem stops_cons (hc : p c = false) : Stops p (c :: r) := by
  simpa [Stops] using hc

-- A text without a terminator is one token.
theorem takeWhile_all (hs : ∀ c ∈ s, p c) : s.takeWhile p = s := by
  simpa using takeWhile_token hs stops_nil

theorem dropWhile_all (hs : ∀ c ∈ s, p c) : s.dropWhile p = [] := by
  simpa using dropWhile_token hs stops_nil

theorem isDigit_toDigits : ∀ c ∈ Nat.toDigits 10 n, c.isDigit :=
  fun _ hc => Nat.isDigit_of_mem_toDigits (by omega) (by omega) hc

theorem toDigits_injective : Function.Injective (Nat.toDigits 10) := by
  intro n m h
  rw [← Nat.ofDigitChars_ten_toDigits (n := n), h, Nat.ofDigitChars_ten_toDigits]

end Text
