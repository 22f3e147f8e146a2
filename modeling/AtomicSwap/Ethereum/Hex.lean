import AtomicSwap.Ethereum.Basic
import AtomicSwap.Library.Hex
import AtomicSwap.Library.Text

-- The texts of hashes and addresses.
namespace Ethereum

def has0xPrefix : List Char → Bool
  | '0' :: 'x' :: _ | '0' :: 'X' :: _ => true
  | _                                 => false

namespace Hash

def marshalText (h : Bytes32) : List Char :=
  '0' :: 'x' :: Hex.encode (Bytes.be 32 h.toNat)

def unmarshalText (s : List Char) : Option Bytes32 := do
  if ¬has0xPrefix s then none
  let bs ← Hex.decode <| s.drop 2
  if bs.length = 32 then some <| .ofNat 256 (Bytes.beValue bs) else none

end Hash

namespace Address

-- The letters among the digits carry a checksum: a letter is a capital if the digit of the hash at
-- its place is greater than seven.
def capitalize (hash : Bytes32) (i : ℕ) (c : Char) : Char :=
  if 57 < c.toNat ∧ 7 < (hash >>> (252 - 4 * i)).toNat % 16 then .ofNat (c.toNat - 32) else c

def hex (keccak256 : List UInt8 → Bytes32) (a : Address) : List Char :=
  let digits := Hex.encode <| Bytes.be 20 a.toNat
  '0' :: 'x' :: digits.mapIdx (capitalize <| keccak256 <| Text.bytes digits)

-- The checksum is not checked.
def ofHex (s : List Char) : Option Address :=
  let s := if has0xPrefix s then s.drop 2 else s
  if s.length = 40 then (Hex.decode s).map fun bs => .ofNat 160 (Bytes.beValue bs) else none

end Address

variable {keccak256 : List UInt8 → Bytes32} {a : Address} {h : Bytes32} {c : Char} {i : ℕ}

theorem ofNat_beValue_be {w k : ℕ} (x : BitVec w) (hw : w ≤ 8 * k) :
    BitVec.ofNat w (Bytes.beValue <| Bytes.be k x.toNat) = x := by
  rw [Bytes.beValue_be_of_le x hw, BitVec.ofNat_toNat, BitVec.setWidth_eq]

theorem Hash.unmarshalText_marshalText : unmarshalText (marshalText h) = some h := by
  have hv : BitVec.ofNat 256 (Bytes.beValue <| Bytes.be 32 h.toNat) = h :=
    ofNat_beValue_be h le_rfl
  simp only [unmarshalText, marshalText, has0xPrefix, List.drop_succ_cons, List.drop_zero,
    Hex.decode_encode, Option.bind_eq_bind, Option.bind_some, Bytes.length_be, hv]
  rfl

theorem Address.value_capitalize {n : ℕ} (hn : n < 16) :
    Hex.value (capitalize h i (Hex.digit n)) = Hex.value (Hex.digit n) := by
  have hc : ∀ n < 16, 57 < (Hex.digit n).toNat →
      Hex.value (.ofNat ((Hex.digit n).toNat - 32)) = Hex.value (Hex.digit n) := by
    decide
  simp only [capitalize]
  split
  case isTrue hl => exact hc n hn hl.left
  case isFalse   => rfl

theorem Address.ofHex_hex : ofHex (hex keccak256 a) = some a := by
  set digits := Hex.encode <| Bytes.be 20 a.toNat with hd
  have hv : BitVec.ofNat 160 (Bytes.beValue <| Bytes.be 20 a.toNat) = a :=
    ofNat_beValue_be a le_rfl
  have hl : (digits.mapIdx (capitalize <| keccak256 <| Text.bytes digits)).length = 40 := by
    rw [List.length_mapIdx, hd, Hex.length_encode, Bytes.length_be]
  have hc : Hex.decode (digits.mapIdx (capitalize <| keccak256 <| Text.bytes digits)) =
      some (Bytes.be 20 a.toNat) := by
    rw [← Hex.decode_encode, ← hd]
    refine Hex.decode_congr ?_
    refine List.ext_getElem (by simp) fun i _ hi => ?_
    rw [List.length_map] at hi
    obtain ⟨n, hn, he⟩ := Hex.exists_digit <| List.getElem_mem hi
    simp only [List.getElem_map, List.getElem_mapIdx, he, value_capitalize hn]
  simp only [ofHex, hex, ← hd, has0xPrefix, if_pos, List.drop_succ_cons, List.drop_zero, hl, hc,
    Option.map_some, hv]

theorem Address.notMem_hex (hc : Hex.value c = none) (hx : c ≠ 'x') : c ∉ hex keccak256 a := by
  have h₀ : c ≠ '0' := by
    rintro rfl
    contradiction
  simp only [hex, List.mem_cons, List.mem_mapIdx, not_or]
  refine ⟨h₀, hx, ?_⟩
  rintro ⟨i, hi, rfl⟩
  obtain ⟨n, hn, he⟩ := Hex.exists_digit <| List.getElem_mem hi
  rw [he, value_capitalize hn, Hex.value_digit n hn] at hc
  contradiction

end Ethereum
