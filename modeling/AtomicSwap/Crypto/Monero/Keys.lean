import AtomicSwap.Common.Types
import AtomicSwap.Crypto.Monero
import AtomicSwap.Library.Except
import AtomicSwap.Library.Hex

namespace Monero

-- The curve and the hash function as their libraries offer them. Multiples of the base point add
-- up, and the encoding of a point can be read back.
structure Curve where
  Point              : Type
  add                : Point → Point → Point
  scalarBaseMult     : Scalar → Point
  bytes              : Point → List UInt8
  setBytes           : List UInt8 → Option Point
  keccak256          : List UInt8 → List UInt8
  scalarBaseMult_add : ∀ a b, scalarBaseMult (a + b) = add (scalarBaseMult a) (scalarBaseMult b)
  setBytes_bytes     : ∀ p, setBytes (bytes p) = some p

def Scalar.bytes (x : Scalar) : List UInt8 :=
  Bytes.le 32 x

structure PrivateViewKey where
  key : Scalar
  deriving DecidableEq

structure PrivateKeyPair where
  sk : PrivateSpendKey
  vk : PrivateViewKey
  deriving DecidableEq

variable (C : Curve)

structure PublicKey where
  key : C.Point

structure PublicKeyPair where
  sk : PublicKey C
  vk : PublicKey C

-- The methods named `Public`.

def PrivateSpendKey.publicKey (k : PrivateSpendKey) : PublicKey C :=
  { key := C.scalarBaseMult k.key }

def PrivateViewKey.publicKey (k : PrivateViewKey) : PublicKey C :=
  { key := C.scalarBaseMult k.key }

def PrivateKeyPair.publicKeyPair (kp : PrivateKeyPair) : PublicKeyPair C where
  sk := kp.sk.publicKey C
  vk := kp.vk.publicKey C

section View

-- `common.Reverse`
def reverse (s : List UInt8) : List UInt8 :=
  (List.range s.length).map fun i => s.getD (s.length - i - 1) 0

def curveOrder : ℕ :=
  0x1000000000000000000000000000000014def9dea2f79cd65812631a5cf5d3ed

-- The input is little endian. A big integer is read and written in big endian, and written without
-- leading zeros.
def scReduce32 (s : List UInt8) : List UInt8 :=
  let scalar := Bytes.beValue (reverse s)
  let reduced := reverse (Bytes.minimal (scalar % curveOrder))
  Bytes.copyTo 32 reduced

def PrivateSpendKey.view (k : PrivateSpendKey) : Except KeyError PrivateViewKey := do
  let h := C.keccak256 k.key.bytes
  let vk ← Scalar.setCanonicalBytes (scReduce32 h)
  return { key := vk }

def PrivateSpendKey.asPrivateKeyPair (k : PrivateSpendKey) : Except KeyError PrivateKeyPair := do
  let vk ← k.view C
  return { sk := k, vk }

end View

section Sum

variable {C}

def sumPublicKeys (a b : PublicKey C) : PublicKey C :=
  { key := C.add a.key b.key }

def sumSpendAndViewKeys (a b : PublicKeyPair C) : PublicKeyPair C where
  sk := sumPublicKeys a.sk b.sk
  vk := sumPublicKeys a.vk b.vk

def sumPrivateSpendKeys (a b : PrivateSpendKey) : PrivateSpendKey :=
  { key := a.key + b.key }

def sumPrivateViewKeys (a b : PrivateViewKey) : PrivateViewKey :=
  { key := a.key + b.key }

end Sum

section Address

-- The decoded bytes of an address.
abbrev Address := List UInt8

def netPrefixStdAddrMainnet : UInt8 := 18

def netPrefixStdAddrStagenet : UInt8 := 24

variable {C}

def PublicKeyPair.address (kp : PublicKeyPair C) (env : Environment) : Address :=
  let netPrefix :=
    match env with
    | .mainnet | .development => netPrefixStdAddrMainnet
    | .stagenet               => netPrefixStdAddrStagenet
  let data := netPrefix :: C.bytes kp.sk.key ++ C.bytes kp.vk.key
  data ++ (C.keccak256 data).take 4

end Address

section Text

def trimHexPrefix : List Char → List Char
  | '0' :: 'x' :: cs => cs
  | cs               => cs

inductive TextError
  | hex
  | scalar (e : KeyError)
  | point
  deriving DecidableEq

def Scalar.marshalText (s : Scalar) : List Char :=
  '0' :: 'x' :: Hex.encode s.bytes

def Scalar.unmarshalText (text : List Char) : Except TextError Scalar :=
  match Hex.decode (trimHexPrefix text) with
  | some bs => (setCanonicalBytes bs).mapError .scalar
  | none    => .error .hex

variable {C}

def PublicKey.marshalText (k : PublicKey C) : List Char :=
  '0' :: 'x' :: Hex.encode (C.bytes k.key)

variable (C) in
def PublicKey.unmarshalText (text : List Char) : Except TextError (PublicKey C) :=
  match Hex.decode (trimHexPrefix text) with
  | some bs =>
    match C.setBytes bs with
    | some key => .ok { key }
    | none     => .error .point
  | none    => .error .hex

end Text

section Theorems

variable {C}

theorem Scalar.setCanonicalBytes_le {n : ℕ} (h : n < l) :
    setCanonicalBytes (Bytes.le 32 n) = .ok ⟨n, h⟩ := by
  have hl : l < 256 ^ 32 := by decide
  have hv : Bytes.leValue (Bytes.le 32 n) = n := by
    rw [Bytes.leValue_le, Nat.mod_eq_of_lt <| h.trans hl]
  simp [setCanonicalBytes, hv, h]

@[simp]
theorem Scalar.unmarshalText_marshalText (s : Scalar) : unmarshalText s.marshalText = .ok s := by
  simp [marshalText, unmarshalText, trimHexPrefix, bytes, setCanonicalBytes_le s.isLt]

@[simp]
theorem PublicKey.unmarshalText_marshalText (k : PublicKey C) :
    unmarshalText C k.marshalText = .ok k := by
  simp [marshalText, unmarshalText, trimHexPrefix, C.setBytes_bytes]

theorem reverse_eq (s : List UInt8) : reverse s = s.reverse := by
  apply List.ext_getElem
  case hl => simp [reverse]
  case h =>
    intro i _ hi
    have hl : s.length - i - 1 = s.length - 1 - i := Nat.sub_right_comm ..
    have hs : s.length - 1 - i < s.length := by
      rw [List.length_reverse] at hi
      omega
    simp [reverse, hl, hs]

theorem curveOrder_eq : curveOrder = l := by
  decide

theorem scReduce32_eq (s : List UInt8) : scReduce32 s = Bytes.le 32 (Bytes.leValue s % l) := by
  have hv : Bytes.beValue s.reverse = Bytes.leValue s := by rw [Bytes.beValue, List.reverse_reverse]
  have hl : Bytes.leValue s % l < 256 ^ 32 :=
    calc Bytes.leValue s % l
      _ < l        := Nat.mod_lt _ (by decide)
      _ < 256 ^ 32 := by decide
  rw [scReduce32, reverse_eq, reverse_eq, hv, curveOrder_eq, Bytes.copyTo_reverse_minimal hl]

theorem leValue_scReduce32 (s : List UInt8) :
    Bytes.leValue (scReduce32 s) = Bytes.leValue s % l := by
  have hl : Bytes.leValue s % l < l := Nat.mod_lt _ (by decide)
  rw [scReduce32_eq, Bytes.leValue_le, Nat.mod_eq_of_lt <| hl.trans (by decide)]

theorem setCanonicalBytes_scReduce32 (s : List UInt8) :
    ∃ x, Scalar.setCanonicalBytes (scReduce32 s) = .ok x := by
  have hl : Bytes.leValue s % l < l := Nat.mod_lt _ (by decide)
  exact ⟨_, scReduce32_eq s ▸ Scalar.setCanonicalBytes_le hl⟩

-- The view key of a spend key always exists.
theorem PrivateSpendKey.view_isOk (k : PrivateSpendKey) : ∃ vk, k.view C = .ok vk := by
  obtain ⟨x, hx⟩ := setCanonicalBytes_scReduce32 (C.keccak256 k.key.bytes)
  simp [view, hx, bind, Except.bind, pure, Except.pure]

theorem scReduce32_canonical (s : List UInt8) :
    scReduce32 s = Bytes.le 32 (Bytes.leValue s % l) ∧
    Bytes.leValue (scReduce32 s) < l ∧
    (∃ x, Scalar.setCanonicalBytes (scReduce32 s) = .ok x) ∧
    (∀ (C : Curve) (k : PrivateSpendKey), ∃ vk, k.view C = .ok vk) ∧
    scReduce32 (scReduce32 s) = scReduce32 s := by
  refine ⟨scReduce32_eq s, ?_, setCanonicalBytes_scReduce32 s, fun _ k => k.view_isOk, ?_⟩
  · rw [leValue_scReduce32]
    exact Nat.mod_lt _ (by decide)
  · rw [scReduce32_eq (scReduce32 s), leValue_scReduce32, Nat.mod_mod, scReduce32_eq]

theorem sumPublicKeys_spend (a b : PrivateSpendKey) :
    sumPublicKeys (a.publicKey C) (b.publicKey C) = (sumPrivateSpendKeys a b).publicKey C := by
  simp [sumPublicKeys, PrivateSpendKey.publicKey, sumPrivateSpendKeys, C.scalarBaseMult_add]

theorem sumPublicKeys_view (a b : PrivateViewKey) :
    sumPublicKeys (a.publicKey C) (b.publicKey C) = (sumPrivateViewKeys a b).publicKey C := by
  simp [sumPublicKeys, PrivateViewKey.publicKey, sumPrivateViewKeys, C.scalarBaseMult_add]

theorem Scalar.add_comm (a b : Scalar) : a + b = b + a :=
  Fin.ext <| by rw [Fin.val_add, Fin.val_add, Nat.add_comm]

theorem sumPrivateSpendKeys_comm (a b : PrivateSpendKey) :
    sumPrivateSpendKeys a b = sumPrivateSpendKeys b a := by
  simp [sumPrivateSpendKeys, Scalar.add_comm _ b.key]

theorem sumPrivateViewKeys_comm (a b : PrivateViewKey) :
    sumPrivateViewKeys a b = sumPrivateViewKeys b a := by
  simp [sumPrivateViewKeys, Scalar.add_comm _ b.key]

end Theorems

end Monero
