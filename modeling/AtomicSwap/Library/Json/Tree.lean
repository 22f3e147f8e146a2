import AtomicSwap.Library.Text
import Mathlib.Data.Int.Notation

-- The grammar of JSON. The texts of strings and numbers are kept as they are written.
namespace Json

inductive Tree
  | null
  | bool (b : Bool)
  | number (token : List Char)
  | string (raw : List Char)
  | array (items : List Tree)
  | object (members : List (List Char × Tree))

section Scanner

def isSpace (c : Char) : Bool :=
  c = ' ' || c = '\t' || c = '\r' || c = '\n'

def isHexDigit (c : Char) : Bool :=
  c.isDigit || ('a' ≤ c && c ≤ 'f') || ('A' ≤ c && c ≤ 'F')

-- How much of an escape sequence has been read. After a `u` some digits are still to come.
inductive Escape
  | none
  | backslash
  | digits (n : ℕ)
  deriving DecidableEq

-- A character of a string, unless it is the quote that ends the string.
def Escape.next : Escape → Char → Option Escape
  | .none, c           => if c.toNat < 32 then Option.none
                          else some (if c = '\\' then .backslash else .none)
  | .backslash, c      => if c = 'u' then some (.digits 3)
                          else if c ∈ "bfnrt\\/\"".toList then some .none
                          else Option.none
  | .digits 0, c       => if isHexDigit c then some .none else Option.none
  | .digits (n + 1), c => if isHexDigit c then some (.digits n) else Option.none

-- Reads a string after its first quote.
def scanString (e : Escape) : List Char → Option (List Char × List Char)
  | []     => none
  | c :: s =>
    if e = .none ∧ c = '"' then some ([], s)
    else do
      let e ← e.next c
      let (raw, r) ← scanString e s
      return (c :: raw, r)

def isExponent : List Char → Bool
  | []     => true
  | c :: s =>
    let s := if s.head? = some '+' ∨ s.head? = some '-' then s.tail else s
    (c = 'e' || c = 'E') && !s.isEmpty && s.all Char.isDigit

def isFraction (s : List Char) : Bool :=
  if s.head? = some '.' then
    let s := s.tail
    !(s.takeWhile Char.isDigit).isEmpty && isExponent (s.dropWhile Char.isDigit)
  else isExponent s

def isNumber (s : List Char) : Bool :=
  let s := if s.head? = some '-' then s.tail else s
  let whole := s.takeWhile Char.isDigit
  (whole = ['0'] || (!whole.isEmpty && whole.head? ≠ some '0')) &&
    isFraction (s.dropWhile Char.isDigit)

-- The characters of literals and numbers.
def isWord (c : Char) : Bool :=
  c.isAlphanum || c = '+' || c = '-' || c = '.'

def scanWord (s : List Char) : Option (Tree × List Char) :=
  let word := s.takeWhile isWord
  let r := s.dropWhile isWord
  if word = ['n', 'u', 'l', 'l'] then some (.null, r)
  else if word = ['t', 'r', 'u', 'e'] then some (.bool true, r)
  else if word = ['f', 'a', 'l', 's', 'e'] then some (.bool false, r)
  else if isNumber word then some (.number word, r)
  else none

def skipSpace (s : List Char) : List Char :=
  s.dropWhile isSpace

-- Reads a character after any spaces.
def expect (c : Char) (s : List Char) : Option (List Char) :=
  match skipSpace s with
  | []      => none
  | c' :: s => if c' = c then some s else none

-- The fuel bounds the recursion. Each call reads some characters, so the length of the text is
-- enough. Objects and arrays can only be nested up to some depth.
mutual

def scanValue : (fuel depth : ℕ) → List Char → Option (Tree × List Char)
  | 0, _, _            => none
  | fuel + 1, depth, s =>
    match skipSpace s, depth with
    | [], _               => none
    | '"' :: s, _         => (scanString .none s).map fun (raw, r) => (.string raw, r)
    | '[' :: _, 0         => none
    | '[' :: s, depth + 1 =>
      match expect ']' s with
      | some r => some (.array [], r)
      | none   => (scanItems fuel depth s).map fun (ts, r) => (.array ts, r)
    | '{' :: _, 0         => none
    | '{' :: s, depth + 1 =>
      match expect '}' s with
      | some r => some (.object [], r)
      | none   => (scanMembers fuel depth s).map fun (ms, r) => (.object ms, r)
    | c :: s, _           => scanWord (c :: s)

def scanItems : (fuel depth : ℕ) → List Char → Option (List Tree × List Char)
  | 0, _, _            => none
  | fuel + 1, depth, s => do
    let (t, s) ← scanValue fuel depth s
    match expect ',' s with
    | some s =>
      let (ts, r) ← scanItems fuel depth s
      return (t :: ts, r)
    | none   =>
      let r ← expect ']' s
      return ([t], r)

def scanMembers : (fuel depth : ℕ) → List Char → Option (List (List Char × Tree) × List Char)
  | 0, _, _            => none
  | fuel + 1, depth, s => do
    let s ← expect '"' s
    let (key, s) ← scanString .none s
    let s ← expect ':' s
    let (t, s) ← scanValue fuel depth s
    match expect ',' s with
    | some s =>
      let (ms, r) ← scanMembers fuel depth s
      return ((key, t) :: ms, r)
    | none   =>
      let r ← expect '}' s
      return ([(key, t)], r)

end

def maxNestingDepth : ℕ :=
  10000

def parse (s : List Char) : Option Tree := do
  let (t, r) ← scanValue s.length maxNestingDepth s
  if skipSpace r = [] then some t else none

end Scanner

section Render

-- The text of a tree, without any spaces. A list of items or members is closed at its end.
mutual

def Tree.render : Tree → List Char
  | .null               => ['n', 'u', 'l', 'l']
  | .bool true          => ['t', 'r', 'u', 'e']
  | .bool false         => ['f', 'a', 'l', 's', 'e']
  | .number token       => token
  | .string raw         => '"' :: (raw ++ ['"'])
  | .array []           => ['[', ']']
  | .array (t :: ts)    => '[' :: (t.render ++ renderItems ts)
  | .object []          => ['{', '}']
  | .object (m :: ms)   => '{' :: '"' :: (m.1 ++ '"' :: ':' :: (m.2.render ++ renderMembers ms))

def renderItems : List Tree → List Char
  | []      => [']']
  | t :: ts => ',' :: (t.render ++ renderItems ts)

def renderMembers : List (List Char × Tree) → List Char
  | []      => ['}']
  | m :: ms => ',' :: '"' :: (m.1 ++ '"' :: ':' :: (m.2.render ++ renderMembers ms))

end

-- The characters that stand for themselves in a string.
def isPlain (c : Char) : Bool :=
  32 ≤ c.toNat && c.toNat < 127 && c ∉ "\"\\<>&".toList

def integer (n : ℤ) : List Char :=
  if n < 0 then '-' :: Nat.toDigits 10 n.natAbs else Nat.toDigits 10 n.natAbs

-- The trees that are read back from their text, if they are nested up to the given depth.
inductive Tree.Regular : ℕ → Tree → Prop
  | null {d : ℕ} : Regular d .null
  | number {d : ℕ} (n : ℤ) : Regular d (.number <| integer n)
  | string {d : ℕ} {raw : List Char} (h : ∀ c ∈ raw, isPlain c) : Regular d (.string raw)
  | array {d : ℕ} {ts : List Tree} (h : ∀ t ∈ ts, Regular d t) : Regular (d + 1) (.array ts)
  | object {d : ℕ} {ms : List (List Char × Tree)} (hk : ∀ m ∈ ms, ∀ c ∈ m.1, isPlain c)
    (h : ∀ m ∈ ms, Regular d m.2) : Regular (d + 1) (.object ms)

end Render

variable {c : Char} {s r raw : List Char} {t : Tree} {ts : List Tree}
  {ms : List (List Char × Tree)} {d fuel : ℕ}

theorem scanString_plain (h : ∀ c ∈ raw, isPlain c) :
    scanString .none (raw ++ '"' :: r) = some (raw, r) := by
  induction raw
  case nil => rfl
  case cons c raw hi =>
    obtain ⟨hc, hr⟩ := List.forall_mem_cons.mp h
    have hq : c ≠ '"' := by rintro rfl; contradiction
    have hb : c ≠ '\\' := by rintro rfl; contradiction
    have hl : ¬c.toNat < 32 := by
      simp only [isPlain, Bool.and_eq_true, decide_eq_true_eq] at hc
      omega
    simp [scanString, Escape.next, hq, hb, hl, hi hr]

theorem head_toDigits : ∀ {n : ℕ}, 0 < n → (Nat.toDigits 10 n).head? ≠ some '0' := by
  intro n
  induction n using Nat.strongRecOn
  case ind n hi =>
    intro hn
    by_cases hb : n < 10
    · have hc : ∀ n < 10, 0 < n → [n.digitChar].head? ≠ some '0' := by decide
      rw [Nat.toDigits_of_lt_base hb]
      exact hc n hb hn
    · rw [Nat.toDigits_of_base_le (by omega) (by omega), List.head?_append_of_ne_nil _
        Nat.toDigits_ne_nil]
      exact hi (n / 10) (by omega) (by omega)

theorem isNumber_toDigits (n : ℕ) : isNumber (Nat.toDigits 10 n) ∧
    isNumber ('-' :: Nat.toDigits 10 n) := by
  have ht := Text.takeWhile_all (Text.isDigit_toDigits (n := n))
  have hd := Text.dropWhile_all (Text.isDigit_toDigits (n := n))
  have hm : (Nat.toDigits 10 n).head? ≠ some '-' := by
    intro hm
    have := Text.isDigit_toDigits _ (List.mem_of_head? hm)
    contradiction
  have hw : (Nat.toDigits 10 n = ['0'] ∨ (Nat.toDigits 10 n).head? ≠ some '0') := by
    by_cases hn : n = 0
    · exact .inl (by subst hn; decide)
    · exact .inr <| head_toDigits (Nat.pos_of_ne_zero hn)
  constructor <;> simp [isNumber, hm, ht, hd, isFraction, isExponent, hw]

theorem isWord_integer (n : ℤ) : ∀ c ∈ integer n, isWord c := by
  have hd : ∀ c ∈ Nat.toDigits 10 n.natAbs, isWord c := by
    intro c hc
    simp [isWord, Char.isAlphanum, Text.isDigit_toDigits c hc]
  intro c hc
  simp only [integer] at hc
  split at hc
  case isFalse => exact hd c hc
  case isTrue  =>
    rcases List.mem_cons.mp hc with rfl | hc
    · decide
    · exact hd c hc

theorem isNumber_integer (n : ℤ) : isNumber (integer n) := by
  simp only [integer]
  split
  · exact (isNumber_toDigits _).right
  · exact (isNumber_toDigits _).left

-- A number starts with a digit or a sign.
theorem integer_eq_cons (n : ℤ) : ∃ c s, integer n = c :: s ∧ (c = '-' ∨ c.isDigit) := by
  simp only [integer]
  split
  · exact ⟨'-', _, rfl, .inl rfl⟩
  · obtain ⟨c, s, hs⟩ := List.exists_cons_of_ne_nil (Nat.toDigits_ne_nil (n := n.natAbs) (b := 10))
    exact ⟨c, s, hs, .inr <| Text.isDigit_toDigits c (hs ▸ List.mem_cons_self)⟩

theorem scanWord_integer (n : ℤ) (hr : Text.Stops isWord r) :
    scanWord (integer n ++ r) = some (.number (integer n), r) := by
  have hn := isNumber_integer n
  have hw : ∀ {w : List Char}, isNumber w = false → integer n ≠ w := by
    rintro w hw rfl
    exact absurd hn (by simp [hw])
  simp only [scanWord, Text.takeWhile_token (isWord_integer n) hr,
    Text.dropWhile_token (isWord_integer n) hr, hn, if_true]
  rw [if_neg (hw (by decide)), if_neg (hw (by decide)), if_neg (hw (by decide))]

theorem scanWord_null (hr : Text.Stops isWord r) :
    scanWord ('n' :: 'u' :: 'l' :: 'l' :: r) = some (.null, r) := by
  have hs : ∀ c ∈ ['n', 'u', 'l', 'l'], isWord c := List.all_eq_true.mp (by decide)
  have ht := Text.takeWhile_token hs hr
  have hd := Text.dropWhile_token hs hr
  simp only [List.cons_append, List.nil_append] at ht hd
  simp only [scanWord, ht, hd, if_true]

section Expect

theorem skipSpace_cons (hc : isSpace c = false) : skipSpace (c :: s) = c :: s := by
  simp [skipSpace, hc]

theorem expect_self (hc : isSpace c = false) : expect c (c :: s) = some s := by
  simp [expect, skipSpace_cons hc]

theorem expect_ne {c' : Char} (hc : isSpace c' = false) (hn : c' ≠ c) :
    expect c (c' :: s) = none := by
  simp [expect, skipSpace_cons hc, hn]

end Expect

-- The first character of a text decides how it is read.
theorem render_eq_cons (h : t.Regular d) :
    ∃ c s, t.render = c :: s ∧ isSpace c = false ∧ c ≠ ']' := by
  cases h
  case null        => exact ⟨_, _, rfl, by decide, by decide⟩
  case string      => exact ⟨_, _, rfl, by decide, by decide⟩
  case array d ts _ =>
    cases ts <;> exact ⟨_, _, rfl, by decide, by decide⟩
  case object d ms _ _ =>
    cases ms <;> exact ⟨_, _, rfl, by decide, by decide⟩
  case number n =>
    obtain ⟨c, s, hs, hc⟩ := integer_eq_cons n
    refine ⟨c, s, hs, ?_, ?_⟩
    · rcases hc with rfl | hc
      · decide
      · refine Bool.eq_false_iff.mpr fun hs => ?_
        simp only [isSpace, Bool.or_eq_true, decide_eq_true_eq] at hs
        rcases hs with ((rfl | rfl) | rfl) | rfl <;> contradiction
    · rintro rfl
      simp at hc

theorem scanValue_string :
    scanValue (fuel + 1) d ('"' :: s) = (scanString .none s).map fun x => (.string x.1, x.2) := by
  have hs := skipSpace_cons (s := s) (c := '"') (by decide)
  simp only [scanValue.eq_def (fuel + 1), hs]

theorem scanValue_array : scanValue (fuel + 1) (d + 1) ('[' :: s) =
    match expect ']' s with
    | some r => some (.array [], r)
    | none   => (scanItems fuel d s).map fun x => (.array x.1, x.2) := by
  have hs := skipSpace_cons (s := s) (c := '[') (by decide)
  simp only [scanValue.eq_def (fuel + 1), hs]

theorem scanValue_object : scanValue (fuel + 1) (d + 1) ('{' :: s) =
    match expect '}' s with
    | some r => some (.object [], r)
    | none   => (scanMembers fuel d s).map fun x => (.object x.1, x.2) := by
  have hs := skipSpace_cons (s := s) (c := '{') (by decide)
  simp only [scanValue.eq_def (fuel + 1), hs]

theorem scanValue_word (hc : isSpace c = false) (hq : c ≠ '"') (ha : c ≠ '[') (ho : c ≠ '{') :
    scanValue (fuel + 1) d (c :: s) = scanWord (c :: s) := by
  simp only [scanValue.eq_def (fuel + 1), skipSpace_cons hc]
  split <;> simp_all

-- What is shown for each of the items carries over to their list.
def Scans (d : ℕ) (t : Tree) : Prop :=
  ∀ (fuel : ℕ) (r : List Char), t.render.length ≤ fuel → Text.Stops isWord r →
    scanValue fuel d (t.render ++ r) = some (t, r)

theorem scanItems_render (h : ∀ t' ∈ t :: ts, Scans d t')
    (hf : (t.render ++ renderItems ts).length ≤ fuel) :
    scanItems fuel d (t.render ++ renderItems ts ++ r) = some (t :: ts, r) := by
  induction ts generalizing t fuel
  case nil =>
    obtain ⟨fuel, rfl⟩ := Nat.exists_eq_add_one_of_ne_zero (n := fuel) (by
      simp [renderItems] at hf; omega)
    have hv := h t (by simp) fuel (']' :: r)
      (by simp [renderItems] at hf; omega) (Text.stops_cons (by decide))
    simp [scanItems, renderItems, List.append_assoc, hv, expect_ne, expect_self, isSpace]
  case cons t' ts hi =>
    obtain ⟨fuel, rfl⟩ := Nat.exists_eq_add_one_of_ne_zero (n := fuel) (by
      simp [renderItems] at hf; omega)
    have hv := h t (by simp) fuel (',' :: (t'.render ++ renderItems ts ++ r))
      (by simp [renderItems] at hf; omega) (Text.stops_cons (by decide))
    have hr : scanItems fuel d (t'.render ++ renderItems ts ++ r) = some (t' :: ts, r) :=
      hi (fun u hu => h u (List.mem_cons_of_mem _ hu)) (by simp [renderItems] at hf ⊢; omega)
    simp only [List.append_assoc] at hv hr
    simp [scanItems, renderItems, List.append_assoc, hv, expect_self, isSpace, hr]

-- The text of the members from the first quote on.
def renderMember (m : List Char × Tree) (ms : List (List Char × Tree)) : List Char :=
  '"' :: (m.1 ++ '"' :: ':' :: (m.2.render ++ renderMembers ms))

theorem scanMembers_render {m : List Char × Tree} (hk : ∀ m' ∈ m :: ms, ∀ c ∈ m'.1, isPlain c)
    (h : ∀ m' ∈ m :: ms, Scans d m'.2) (hf : (renderMember m ms).length ≤ fuel) :
    scanMembers fuel d (renderMember m ms ++ r) = some (m :: ms, r) := by
  induction ms generalizing m fuel
  case nil =>
    obtain ⟨fuel, rfl⟩ := Nat.exists_eq_add_one_of_ne_zero (n := fuel) (by
      simp [renderMember] at hf; omega)
    have hs := scanString_plain (r := ':' :: (m.2.render ++ '}' :: r)) (hk m (by simp))
    have hv := h m (by simp) fuel ('}' :: r)
      (by simp [renderMember, renderMembers] at hf; omega) (Text.stops_cons (by decide))
    simp [scanMembers, renderMember, renderMembers, List.append_assoc, hs, hv, expect_ne,
      expect_self, isSpace]
  case cons m' ms hi =>
    obtain ⟨fuel, rfl⟩ := Nat.exists_eq_add_one_of_ne_zero (n := fuel) (by
      simp [renderMember] at hf; omega)
    have hl : (renderMember m' ms).length ≤ fuel := by
      simp [renderMember, renderMembers] at hf ⊢; omega
    have hm : renderMembers (m' :: ms) = ',' :: renderMember m' ms := by
      simp [renderMembers, renderMember]
    have hs := scanString_plain (r := ':' :: (m.2.render ++ ',' :: (renderMember m' ms ++ r)))
      (hk m (by simp))
    have hv := h m (by simp) fuel (',' :: (renderMember m' ms ++ r))
      (by simp [renderMember] at hf; omega) (Text.stops_cons (by decide))
    have hr := hi (m := m') (fun u hu => hk u (List.mem_cons_of_mem _ hu))
      (fun u hu => h u (List.mem_cons_of_mem _ hu)) hl
    have he : renderMember m (m' :: ms) ++ r = '"' :: (m.1 ++ '"' :: ':' :: (m.2.render ++
        ',' :: (renderMember m' ms ++ r))) := by
      simp [renderMember, hm]
    simp [scanMembers, he, hs, hv, expect_self, isSpace, hr]

theorem exists_fuel (h : t.Regular d) (hf : t.render.length ≤ fuel) : ∃ n, fuel = n + 1 := by
  obtain ⟨c, s, hs, -⟩ := render_eq_cons h
  rw [hs, List.length_cons] at hf
  exact ⟨fuel - 1, by omega⟩

theorem scanValue_render (h : t.Regular d) : Scans d t := by
  induction h
  case null d =>
    intro fuel r hf hr
    obtain ⟨fuel, rfl⟩ := exists_fuel (.null (d := d)) hf
    simp only [Tree.render, List.cons_append, List.nil_append]
    rw [scanValue_word (by decide) (by decide) (by decide) (by decide), scanWord_null hr]
  case number d n =>
    intro fuel r hf hr
    obtain ⟨fuel, rfl⟩ := exists_fuel (.number (d := d) n) hf
    have hw := scanWord_integer n hr
    obtain ⟨c, s, hs, hc⟩ := integer_eq_cons n
    have hd : ∀ c' : Char, c' ≠ '-' → c'.isDigit = false → c ≠ c' := by
      rintro c' hm hd rfl
      simp_all
    obtain ⟨c', s', he, hn, -⟩ := render_eq_cons (.number (d := d) n)
    simp only [Tree.render, hs] at he
    obtain ⟨rfl, rfl⟩ := List.cons.inj he
    simp only [Tree.render]
    rw [hs, List.cons_append] at hw ⊢
    rw [scanValue_word hn (hd _ (by decide) (by decide)) (hd _ (by decide) (by decide))
      (hd _ (by decide) (by decide)), hw]
  case string d raw hp =>
    intro fuel r hf hr
    obtain ⟨fuel, rfl⟩ := exists_fuel (.string (d := d) hp) hf
    simp [Tree.render, scanValue_string, scanString_plain hp]
  case array d ts h hi =>
    intro fuel r hf hr
    obtain ⟨fuel, rfl⟩ := exists_fuel (.array h) hf
    cases ts
    case nil => simp [Tree.render, scanValue_array, expect_self, isSpace]
    case cons t ts =>
      simp only [Tree.render, List.length_cons, Nat.add_le_add_iff_right] at hf
      obtain ⟨c, s, hs, hc, hn⟩ := render_eq_cons (h t (by simp))
      have he : expect ']' (t.render ++ renderItems ts ++ r) = none := by
        rw [hs]
        exact expect_ne hc hn
      rw [Tree.render, List.cons_append, scanValue_array, he, scanItems_render hi hf]
      rfl
  case object d ms hk h hi =>
    intro fuel r hf hr
    obtain ⟨fuel, rfl⟩ := exists_fuel (.object hk h) hf
    cases ms
    case nil => simp [Tree.render, scanValue_object, expect_self, isSpace]
    case cons m ms =>
      have hm : (Tree.object (m :: ms)).render = '{' :: renderMember m ms := by
        rw [Tree.render, renderMember]
      rw [hm, List.length_cons, Nat.add_le_add_iff_right] at hf
      have he : expect '}' (renderMember m ms ++ r) = none := by
        rw [renderMember]
        exact expect_ne (by decide) (by decide)
      rw [hm, List.cons_append, scanValue_object, he, scanMembers_render hk hi hf]
      rfl

-- A tree is read back from its text.
theorem parse_render (h : t.Regular maxNestingDepth) : parse t.render = some t := by
  have hv := scanValue_render h _ [] (Nat.le_refl _) Text.stops_nil
  rw [List.append_nil] at hv
  rw [parse, hv]
  rfl

section Ascii

def Ascii (s : List Char) : Prop :=
  ∀ c ∈ s, c.toNat < 128

instance : Decidable (Ascii s) :=
  List.decidableBAll _ s

theorem Ascii.tail (h : Ascii (c :: s)) : Ascii s :=
  (List.forall_mem_cons.mp h).right

theorem Ascii.cons (hc : c.toNat < 128) (hs : Ascii s) : Ascii (c :: s) :=
  List.forall_mem_cons.mpr ⟨hc, hs⟩

theorem Ascii.append (hs : Ascii s) (hr : Ascii r) : Ascii (s ++ r) :=
  List.forall_mem_append.mpr ⟨hs, hr⟩

theorem ascii_of_plain (h : ∀ c ∈ s, isPlain c) : Ascii s := by
  intro c hc
  have hp := h c hc
  simp only [isPlain, Bool.and_eq_true, decide_eq_true_eq] at hp
  omega

theorem ascii_integer (n : ℤ) : Ascii (integer n) := by
  have hd : Ascii (Nat.toDigits 10 n.natAbs) := by
    intro c hc
    have hc := Text.isDigit_toDigits c hc
    simp only [Char.isDigit, Bool.and_eq_true, decide_eq_true_eq] at hc
    exact Nat.lt_of_le_of_lt hc.right (by decide)
  rw [integer]
  split
  case isTrue  => exact hd.cons (by decide)
  case isFalse => exact hd

theorem ascii_renderItems (h : ∀ t ∈ ts, Ascii t.render) : Ascii (renderItems ts) := by
  induction ts
  case nil => decide
  case cons t ts hi =>
    obtain ⟨ht, hs⟩ := List.forall_mem_cons.mp h
    exact (ht.append <| hi hs).cons (by decide)

theorem ascii_renderMembers (hk : ∀ m ∈ ms, ∀ c ∈ m.1, isPlain c)
    (h : ∀ m ∈ ms, Ascii m.2.render) : Ascii (renderMembers ms) := by
  induction ms
  case nil => decide
  case cons m ms hi =>
    obtain ⟨hk, hks⟩ := List.forall_mem_cons.mp hk
    obtain ⟨hm, hs⟩ := List.forall_mem_cons.mp h
    have hv := ((hm.append <| hi hks hs).cons (c := ':') (by decide)).cons (c := '"') (by decide)
    exact (((ascii_of_plain hk).append hv).cons (by decide)).cons (by decide)

-- A list is written as its first entry and the others, so it is cut off where a comma would stand.
theorem ascii_render (h : t.Regular d) : Ascii t.render := by
  induction h
  case null     => decide
  case number n => exact ascii_integer n
  case string hs =>
    exact ((ascii_of_plain hs).append (by decide)).cons (by decide)
  case array ts _ hi =>
    cases ts
    case nil => decide
    case cons t ts =>
      exact (Ascii.tail (c := ',') <| ascii_renderItems hi).cons (by decide)
  case object ms hk _ hi =>
    cases ms
    case nil => decide
    case cons m ms =>
      exact (Ascii.tail (c := ',') <| ascii_renderMembers hk hi).cons (by decide)

end Ascii

end Json
