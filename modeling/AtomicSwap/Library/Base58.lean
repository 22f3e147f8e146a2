import AtomicSwap.Library.Bytes

-- Base58 as its library has it: bytes and texts are numbers, a leading zero byte stands for a
-- leading `1` and the other way round.
namespace Base58

def ascii (s : String) : List UInt8 :=
  s.toList.map fun c => .ofNat c.toNat

def alphabet : List UInt8 :=
  ascii "123456789ABCDEFGHJKLMNPQRSTUVWXYZabcdefghijkmnopqrstuvwxyz"

def symbol (d : ℕ) : UInt8 :=
  alphabet.getD d 0

def digit (c : UInt8) : Option ℕ :=
  alphabet.idxOf? c

def encode (bs : List UInt8) : List UInt8 :=
  (Radix.convert 256 58 (bs.map UInt8.toNat)).map symbol

-- Nothing is left of a text with a symbol that is not in the alphabet.
def decode (s : List UInt8) : List UInt8 :=
  match s.mapM digit with
  | some ds => (Radix.convert 58 256 ds).map .ofNat
  | none    => []

-- The number that the symbols of a text write.
def value (s : List UInt8) : ℕ :=
  Radix.value 58 (s.map fun c => (digit c).getD 0)

variable {k n w : ℕ} {s : List UInt8} {ds : List ℕ}

section Digits

theorem digit_symbol : ∀ d < 58, digit (symbol d) = some d := by
  decide

theorem digit_eq_some {c : UInt8} {d : ℕ} (h : digit c = some d) : d < 58 ∧ symbol d = c := by
  obtain ⟨hd, hc, _⟩ := List.findIdx?_eq_some_iff_getElem.mp h
  refine ⟨hd.trans_eq (by decide), ?_⟩
  rw [symbol, List.getD_eq_getElem?_getD, List.getElem?_eq_getElem hd]
  simpa using hc

theorem mapM_digit_map_symbol (hd : ∀ d ∈ ds, d < 58) : (ds.map symbol).mapM digit = some ds := by
  induction ds
  case nil => rfl
  case cons d ds hi =>
    have hs := digit_symbol d <| hd d List.mem_cons_self
    have hr := hi fun d h => hd d <| List.mem_cons_of_mem _ h
    simp [List.mapM_cons, hs, hr]

theorem mapM_digit_eq_some (h : s.mapM digit = some ds) :
    (∀ d ∈ ds, d < 58) ∧ ds.map symbol = s ∧ Radix.value 58 ds = value s := by
  suffices (∀ d ∈ ds, d < 58) ∧ ds.map symbol = s ∧ (s.map fun c => (digit c).getD 0) = ds by
    obtain ⟨hd, hs, hv⟩ := this
    exact ⟨hd, hs, by rw [value, hv]⟩
  induction s generalizing ds
  case nil =>
    obtain rfl : [] = ds := by simpa using h
    simp
  case cons c s hi =>
    rw [List.mapM_cons] at h
    obtain ⟨d, hc, hr⟩ := Option.bind_eq_some_iff.mp h
    obtain ⟨ds, hs, hd⟩ := Option.bind_eq_some_iff.mp hr
    obtain rfl : d :: ds = _ := by simpa using hd
    obtain ⟨hlt, hmap, hval⟩ := hi hs
    obtain ⟨hd, hsym⟩ := digit_eq_some hc
    refine ⟨List.forall_mem_cons.mpr ⟨hd, hlt⟩, ?_, ?_⟩
    · rw [List.map_cons, hsym, hmap]
    · rw [List.map_cons, hval, hc, Option.getD_some]

end Digits

section Encode

variable {bs : List UInt8}

theorem value_map_symbol (hd : ∀ d ∈ ds, d < 58) : value (ds.map symbol) = Radix.value 58 ds :=
  mapM_digit_eq_some (mapM_digit_map_symbol hd) |>.right.right.symm

-- An encoded text that is filled up with `1`s has all its digits.
theorem pad_encode (hl : bs.length ≤ w) (h : 256 ^ bs.length ≤ 58 ^ w) :
    .replicate (w - (encode bs).length) (symbol 0) ++ encode bs
      = (Radix.fixed 58 w (Bytes.beValue bs)).map symbol := by
  have hc : (Radix.convert 256 58 (bs.map UInt8.toNat)).length ≤ w := by
    refine Radix.length_convert_le (by decide) (by decide) (Bytes.map_toNat_lt bs) ?_ ?_
    all_goals simpa
  rw [Bytes.beValue_eq_value, ← Radix.pad_convert hc, List.map_append, List.map_replicate, encode,
    List.length_map]

end Encode

section Decode

theorem decode_eq_nil (h : s.mapM digit = none) : decode s = [] := by
  rw [decode, h]

theorem lt_length_decode (h : s.mapM digit = some ds) (hn : n < s.length)
    (hp : 256 ^ n ≤ 58 ^ (s.length - 1)) : n < (decode s).length := by
  have hs : ds.length = s.length := by
    rw [← (mapM_digit_eq_some h).right.left, List.length_map]
  rw [decode, h, List.length_map]
  refine Radix.lt_length_convert (by decide) (by decide) (by decide) ?_ ?_
  all_goals rwa [hs]

-- The last bytes of a decoded text are those of its number.
theorem drop_decode (h : s.mapM digit = some ds) (hk : k ≤ (decode s).length) :
    (decode s).drop ((decode s).length - k) = Bytes.be k (value s) := by
  have hv := (mapM_digit_eq_some h).right.right
  simp only [decode, h, List.length_map] at hk ⊢
  have hm : Radix.value 58 ds % 256 ^ k < 256 ^ k := Nat.mod_lt _ <| Nat.pow_pos (by decide)
  rw [← List.map_drop, Radix.drop_convert (by decide) hk, Bytes.map_fixed hm, Bytes.be_mod, hv]

end Decode

end Base58
