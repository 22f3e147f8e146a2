import AtomicSwap.Crypto.Monero.Keys
import AtomicSwap.Library.Base58

-- The text form of an address. A string is the list of its bytes.
namespace Monero

def addressBytesLen : ℕ :=
  1 + 32 + 32 + 4

def encodedAddressLen : ℕ :=
  8 * 11 + 1 * 7

def encodedIntegratedAddrLen : ℕ :=
  encodedAddressLen + 11

inductive AddressPanic
  | nonAddrBytes      -- addrBytesToBase58 passed non-addrBytes value
  | sliceBounds       -- the runtime error of a slice expression
  | decoderBroken     -- base58 address decoder is broken
  | conversionBroken  -- bytes to address conversion is broken
  deriving DecidableEq

inductive AddressError
  | invalidAddressLength
  | integratedAddress                     -- wraps errInvalidAddressLength
  | invalidAddressEncoding
  | checksumMismatch
  | unknownNetworkPrefix (p : UInt8)
  | panicked (p : AddressPanic)
  deriving DecidableEq

section Base58

-- Encodes a block and prepends `1`s to get `w` characters.
def encodeBlock (w : ℕ) (bs : List UInt8) : List UInt8 :=
  let block := Base58.encode bs
  if block.length < w then
    .replicate (w - block.length) (.ofNat '1'.toNat) ++ block
  else
    block

-- The loop over the blocks of eight bytes, and the last block.
def encodeBlocks : ℕ → List UInt8 → List UInt8
  | 0,     bs => encodeBlock 7 bs
  | i + 1, bs => encodeBlock 11 (bs.take 8) ++ encodeBlocks i (bs.drop 8)

def addrBytesToBase58 (addrBytes : List UInt8) : Except AddressError (List UInt8) := do
  .failIf (addrBytes.length ≠ addressBytesLen) <| .panicked .nonAddrBytes
  return encodeBlocks 8 addrBytes

-- Decodes a block and keeps its last `n` bytes.
def decodeBlock (n : ℕ) (s : List UInt8) : Except AddressError (List UInt8) := do
  let block := Base58.decode s
  .failIf (block.length = 0) .invalidAddressEncoding
  .failIf (block.length < n) <| .panicked .sliceBounds
  return block.drop (block.length - n)

def decodeBlocks : ℕ → List UInt8 → Except AddressError (List UInt8)
  | 0,     s => decodeBlock 5 s
  | i + 1, s => do
    let block ← decodeBlock 8 (s.take 11)
    let rest ← decodeBlocks i (s.drop 11)
    return block ++ rest

def addrBase58ToBytes (encodedAddress : List UInt8) : Except AddressError (List UInt8) := do
  .failIf (encodedAddress.length ≠ encodedAddressLen) <|
    if encodedAddress.length = encodedIntegratedAddrLen then .integratedAddress
    else .invalidAddressLength
  let result ← decodeBlocks 8 encodedAddress
  .failIf (result.length ≠ addressBytesLen) <| .panicked .decoderBroken
  return result

end Base58

section Marshal

def netPrefixSubAddrMainnet : UInt8 := 42

def netPrefixSubAddrStagenet : UInt8 := 36

def netPrefixStdAddrTestnet : UInt8 := 53

def netPrefixSubAddrTestnet : UInt8 := 63

variable (C : Curve)

def getChecksum (data : List UInt8) : List UInt8 :=
  (C.keccak256 data).take 4

def Address.validateDecoded (a : Address) : Except AddressError Unit := do
  .failIf (getChecksum C (a.take 65) ≠ a.drop 65) .checksumMismatch
  let netPrefix := a.headD 0
  .failIf (netPrefix ∉ [netPrefixStdAddrMainnet, netPrefixSubAddrMainnet, netPrefixStdAddrStagenet,
    netPrefixSubAddrStagenet, netPrefixStdAddrTestnet, netPrefixSubAddrTestnet]) <|
    .unknownNetworkPrefix netPrefix

def Address.marshalText (a : Address) : Except AddressError (List UInt8) := do
  a.validateDecoded C
  addrBytesToBase58 a

def Address.unmarshalText (base58Input : List UInt8) : Except AddressError Address := do
  let addrBytes ← addrBase58ToBytes base58Input
  .failIf (min addressBytesLen addrBytes.length ≠ addressBytesLen) <| .panicked .conversionBroken
  let newAddr : Address := Bytes.copyTo addressBytesLen addrBytes
  newAddr.validateDecoded C
  return newAddr

end Marshal

-- A block of `n` bytes has a text of `w` symbols: its number is written with `w` digits, and a text
-- of `w` symbols is decoded to at least `n` bytes.
structure Block (n w : ℕ) : Prop where
  pos   : 0 < n
  le    : n ≤ w
  fits  : 256 ^ n ≤ 58 ^ w
  fills : 256 ^ (n - 1) ≤ 58 ^ (w - 1)

theorem Block.eight : Block 8 11 := by
  constructor <;> decide

theorem Block.five : Block 5 7 := by
  constructor <;> decide

-- No block of the text is a number that its bytes cannot hold.
def Canonical : ℕ → List UInt8 → Prop
  | 0,     s => Base58.value s < 256 ^ 5
  | i + 1, s => Base58.value (s.take 11) < 256 ^ 8 ∧ Canonical i (s.drop 11)

instance decidableCanonical : ∀ i s, Decidable (Canonical i s)
  | 0,     _ => inferInstanceAs (Decidable (_ < _))
  | i + 1, s =>
    have := decidableCanonical i (s.drop 11)
    inferInstanceAs (Decidable (_ ∧ _))

variable {i n w : ℕ} {bs s : List UInt8}

namespace Block

theorem encodeBlock_eq (b : Block n w) (hl : bs.length = n) :
    encodeBlock w bs = (Radix.fixed 58 w (Bytes.beValue bs)).map Base58.symbol := by
  have hone : (.ofNat '1'.toNat : UInt8) = Base58.symbol 0 := by decide
  rw [← Base58.pad_encode (hl ▸ b.le) (hl ▸ b.fits), encodeBlock]
  split
  case isTrue => rw [hone]
  case isFalse hw =>
    rw [Nat.sub_eq_zero_of_le <| not_lt.mp hw, List.replicate_zero, List.nil_append]

theorem beValue_lt (b : Block n w) (hl : bs.length = n) : Bytes.beValue bs < 58 ^ w := by
  have hv := Bytes.leValue_lt bs.reverse
  rw [List.length_reverse, hl] at hv
  exact hv.trans_le b.fits

theorem length_encodeBlock (b : Block n w) (hl : bs.length = n) :
    (encodeBlock w bs).length = w := by
  rw [b.encodeBlock_eq hl, List.length_map, Radix.length_fixed (by decide) <| b.beValue_lt hl]

theorem decodeBlock_eq {ds : List ℕ} (b : Block n w) (hl : s.length = w)
    (h : s.mapM Base58.digit = some ds) : decodeBlock n s = .ok (Bytes.be n (Base58.value s)) := by
  have hn : n - 1 < (Base58.decode s).length := by
    refine Base58.lt_length_decode h ?_ (hl ▸ b.fills)
    have hp := b.pos
    have hw := b.le
    omega
  have hk : n ≤ (Base58.decode s).length := by omega
  have hz : (Base58.decode s).length ≠ 0 := by omega
  simp only [decodeBlock, Except.bind_ok_iff, Except.failIf_eq_ok, Except.pure_ok_iff]
  exact ⟨(), hz, (), hk.not_gt, Base58.drop_decode h hk⟩

theorem decodeBlock_error (h : s.mapM Base58.digit = none) :
    decodeBlock n s = .error .invalidAddressEncoding := by
  simp [decodeBlock, Base58.decode_eq_nil h, Except.failIf, Except.bind_error]

theorem decodeBlock_encodeBlock (b : Block n w) (hl : bs.length = n) :
    decodeBlock n (encodeBlock w bs) = .ok bs := by
  have hd := Radix.fixed_lt (b := 58) (w := w) (n := Bytes.beValue bs) (by decide)
  have hs := Base58.mapM_digit_map_symbol hd
  have hv := Base58.value_map_symbol hd
  rw [Radix.value_fixed] at hv
  rw [← b.encodeBlock_eq hl] at hs hv
  rw [b.decodeBlock_eq (b.length_encodeBlock hl) hs, hv, ← Bytes.eq_be hl]

-- The block is encoded again as it was, unless its number is too large for the bytes.
theorem encodeBlock_be_iff {ds : List ℕ} (b : Block n w) (hl : s.length = w)
    (h : s.mapM Base58.digit = some ds) :
    encodeBlock w (Bytes.be n (Base58.value s)) = s ↔ Base58.value s < 256 ^ n := by
  obtain ⟨hd, hs, hv⟩ := Base58.mapM_digit_eq_some h
  rw [b.encodeBlock_eq (Bytes.length_be ..), Bytes.beValue_be]
  constructor
  case mp =>
    intro he
    have hx := congrArg Base58.value he
    rw [Base58.value_map_symbol <| Radix.fixed_lt (by decide), Radix.value_fixed] at hx
    rw [← hx]
    exact Nat.mod_lt _ <| Nat.pow_pos (by decide)
  case mpr =>
    intro hlt
    have hw : w = ds.length := by rw [← hl, ← hs, List.length_map]
    rw [Nat.mod_eq_of_lt hlt, ← hv, hw, Radix.fixed_value (by decide) hd, hs]

-- What a text of `w` symbols can be decoded to.
theorem decodeBlock_cases (b : Block n w) (hl : s.length = w) :
    decodeBlock n s = .error .invalidAddressEncoding ∨
    ∃ bs, decodeBlock n s = .ok bs ∧ bs.length = n ∧
      (encodeBlock w bs = s ↔ Base58.value s < 256 ^ n) := by
  cases h : s.mapM Base58.digit
  case none => exact .inl <| decodeBlock_error h
  case some =>
    exact .inr ⟨_, b.decodeBlock_eq hl h, Bytes.length_be .., b.encodeBlock_be_iff hl h⟩

end Block

section Blocks

-- The first block is cut off.
theorem length_first {k r : ℕ} (h : s.length = k * (i + 1) + r) :
    (s.take k).length = k ∧ (s.drop k).length = k * i + r := by
  rw [Nat.mul_succ] at h
  rw [List.length_take, List.length_drop]
  omega

theorem length_encodeBlocks (h : bs.length = 8 * i + 5) :
    (encodeBlocks i bs).length = 11 * i + 7 := by
  induction i generalizing bs
  case zero => exact Block.five.length_encodeBlock h
  case succ i hi =>
    obtain ⟨ht, hd⟩ := length_first h
    rw [encodeBlocks, List.length_append, Block.eight.length_encodeBlock ht, hi hd]
    omega

theorem decodeBlocks_encodeBlocks (h : bs.length = 8 * i + 5) :
    decodeBlocks i (encodeBlocks i bs) = .ok bs := by
  induction i generalizing bs
  case zero => exact Block.five.decodeBlock_encodeBlock h
  case succ i hi =>
    obtain ⟨ht, hd⟩ := length_first h
    have hb := Block.eight.length_encodeBlock ht
    simp only [encodeBlocks, decodeBlocks, Except.bind_ok_iff, Except.pure_ok_iff,
      List.take_left' hb, List.drop_left' hb]
    exact ⟨_, Block.eight.decodeBlock_encodeBlock ht, _, hi hd, List.take_append_drop ..⟩

theorem decodeBlocks_cases (h : s.length = 11 * i + 7) :
    decodeBlocks i s = .error .invalidAddressEncoding ∨
    ∃ bs, decodeBlocks i s = .ok bs ∧ bs.length = 8 * i + 5 ∧
      (encodeBlocks i bs = s ↔ Canonical i s) := by
  induction i generalizing s
  case zero => exact Block.five.decodeBlock_cases h
  case succ i hi =>
    obtain ⟨ht, hd⟩ := length_first h
    rcases Block.eight.decodeBlock_cases ht with he | ⟨b, hb, hl, hc⟩
    · exact .inl <| by rw [decodeBlocks, he, Except.bind_error]
    · rcases hi hd with he | ⟨r, hr, hlr, hcr⟩
      · exact .inl <| by rw [decodeBlocks, hb, Except.bind_ok, he, Except.bind_error]
      · refine .inr ⟨b ++ r, by rw [decodeBlocks, hb, Except.bind_ok, hr]; rfl, ?_, ?_⟩
        · rw [List.length_append, hl, hlr]
          omega
        -- Both texts are cut after eleven symbols.
        · rw [encodeBlocks, List.take_left' hl, List.drop_left' hl, Canonical, ← hc, ← hcr]
          have ha := Block.eight.length_encodeBlock hl |>.trans ht.symm
          conv_lhs => rw [← List.take_append_drop 11 s]
          exact ⟨(List.append_inj · ha), And.elim <| congrArg₂ _⟩

end Blocks

section Theorems

theorem addrBytesToBase58_eq (h : bs.length = addressBytesLen) :
    addrBytesToBase58 bs = .ok (encodeBlocks 8 bs) := by
  simp [addrBytesToBase58, h, Except.failIf, Except.bind_ok, pure, Except.pure]

theorem addrBase58ToBytes_eq_ok (hl : s.length = encodedAddressLen) :
    addrBase58ToBytes s = .ok bs ↔ decodeBlocks 8 s = .ok bs := by
  simp only [addrBase58ToBytes, Except.bind_ok_iff, Except.failIf_eq_ok, Except.pure_ok_iff]
  constructor
  · rintro ⟨_, _, _, h, _, _, rfl⟩
    exact h
  · intro h
    have hc := decodeBlocks_cases (i := 8) hl
    rw [h] at hc
    obtain he | ⟨b, hb, hlb, _⟩ := hc
    · cases he
    · obtain rfl := Except.ok.inj hb
      exact ⟨(), not_not.mpr hl, bs, h, (), not_not.mpr hlb, rfl⟩

-- An address of any bytes has a text, which is decoded to the same bytes. A text of the right
-- length is decoded or refused, without a panic.
theorem addr_base58_round_trip {b s : List UInt8} (hb : b.length = addressBytesLen)
    (hs : s.length = encodedAddressLen) :
    (∃ t, addrBytesToBase58 b = .ok t ∧ t.length = encodedAddressLen ∧
      addrBase58ToBytes t = .ok b) ∧
    ((∃ r, addrBase58ToBytes s = .ok r ∧ r.length = addressBytesLen) ∨
      addrBase58ToBytes s = .error .invalidAddressEncoding) := by
  constructor
  case left =>
    have hl : (encodeBlocks 8 b).length = encodedAddressLen := length_encodeBlocks hb
    refine ⟨_, addrBytesToBase58_eq hb, hl, ?_⟩
    exact addrBase58ToBytes_eq_ok hl |>.mpr <| decodeBlocks_encodeBlocks hb
  case right =>
    rcases decodeBlocks_cases (i := 8) hs with he | ⟨r, hr, hl, _⟩
    · exact .inr <| by simp [addrBase58ToBytes, hs, Except.failIf, he, Except.bind_ok,
        Except.bind_error]
    · exact .inl ⟨r, addrBase58ToBytes_eq_ok hs |>.mpr hr, hl⟩

namespace SampleAddress

-- An address of the mainnet.
def address : Address :=
  Bytes.be 33 0x121b3bd040020d3712ab84992b773d0a965134eb2df0392fb84af95de8a17be2ab ++
    Bytes.be 32 0x231c9bf8341c6a870d92e3fb98063a90a355fb8dbf74a8561b9d7f9273247e99 ++
    [0x56, 0xe6, 0xf1, 0xb0]

def text : List UInt8 :=
  Base58.ascii "42ey1afDFnn4886T7196doS9GPMzexD9gXpsZJDwVjeRVdFCSoHnv7KPbBeGpzJB" ++
    Base58.ascii "zHRCAs9UxqeoyFQMYbqSWYTfJJQAWDm"

end SampleAddress

theorem addr_base58_round_trip_mainnet :
    (∃ t, addrBytesToBase58 SampleAddress.address = .ok t ∧ t.length = encodedAddressLen ∧
      addrBase58ToBytes t = .ok SampleAddress.address) ∧
    ((∃ r, addrBase58ToBytes SampleAddress.text = .ok r ∧ r.length = addressBytesLen) ∨
      addrBase58ToBytes SampleAddress.text = .error .invalidAddressEncoding) :=
  addr_base58_round_trip (by decide) (by decide)

variable {C : Curve} {a : Address}

theorem addrBase58ToBytes_ok (h : addrBase58ToBytes s = .ok bs) :
    s.length = encodedAddressLen ∧ bs.length = addressBytesLen ∧
    (encodeBlocks 8 bs = s ↔ Canonical 8 s) := by
  have hl : s.length = encodedAddressLen := by
    simp only [addrBase58ToBytes, Except.bind_ok_iff, Except.failIf_eq_ok, not_not] at h
    obtain ⟨_, hl, _⟩ := h
    exact hl
  refine ⟨hl, ?_⟩
  rw [addrBase58ToBytes_eq_ok hl] at h
  have hc := decodeBlocks_cases (i := 8) hl
  rw [h] at hc
  obtain he | ⟨b, hb, hb'⟩ := hc
  · cases he
  · exact Except.ok.inj hb ▸ hb'

theorem Address.unmarshalText_eq_ok :
    unmarshalText C s = .ok a ↔ addrBase58ToBytes s = .ok a ∧ a.validateDecoded C = .ok () := by
  have hcopy {bs : List UInt8} (h : bs.length = addressBytesLen) :
      Bytes.copyTo addressBytesLen bs = bs := by
    simp [Bytes.copyTo, ← h]
  simp only [unmarshalText, Except.bind_ok_iff, Except.failIf_eq_ok, Except.pure_ok_iff, not_not]
  constructor
  · rintro ⟨bs, hb, _, _, _, hv, rfl⟩
    rw [hcopy (addrBase58ToBytes_ok hb).right.left] at hv ⊢
    exact ⟨hb, hv⟩
  · rintro ⟨hb, hv⟩
    have hl := (addrBase58ToBytes_ok hb).right.left
    exact ⟨a, hb, (), by rw [hl, min_self], (), (hcopy hl).symm ▸ hv, hcopy hl⟩

theorem Address.marshalText_eq (hl : a.length = addressBytesLen)
    (hv : a.validateDecoded C = .ok ()) : a.marshalText C = .ok (encodeBlocks 8 a) := by
  rw [marshalText, hv, Except.bind_ok, addrBytesToBase58_eq hl]

-- An accepted text is the text of its address if it is canonical, and only then. There is only one
-- such text, all others are further texts of the same address.
theorem Address.marshalText_unmarshalText_iff (h : unmarshalText C s = .ok a) :
    (a.marshalText C = .ok s ↔ Canonical 8 s) ∧
    ∀ s', unmarshalText C s' = .ok a → Canonical 8 s → (s' = s ↔ Canonical 8 s') := by
  have text {s} (h : unmarshalText C s = .ok a) : a.marshalText C = .ok s ↔ Canonical 8 s := by
    obtain ⟨hb, hv⟩ := unmarshalText_eq_ok.mp h
    obtain ⟨_, hl, hc⟩ := addrBase58ToBytes_ok hb
    rw [marshalText_eq hl hv, Except.ok.injEq, hc]
  refine ⟨text h, fun s' h' hs => ⟨(· ▸ hs), fun hs' => ?_⟩⟩
  exact Except.ok.inj <| (text h').mpr hs' |>.symm.trans <| (text h).mpr hs

end Theorems

namespace SampleAddress

-- Of the hash function only the checksum of the address matters.
def curve : Curve where
  Point              := Unit
  add _ _            := ()
  scalarBaseMult _   := ()
  bytes _            := []
  setBytes _         := some ()
  keccak256 _        := [0x56, 0xe6, 0xf1, 0xb0] ++ .replicate 28 0
  scalarBaseMult_add := fun _ _ => rfl
  setBytes_bytes _   := rfl

-- The number of the first block is larger by 2 ^ 64.
def otherText : List UInt8 :=
  Base58.ascii "nrBAaEHUvHC" ++ text.drop 11

theorem encodeBlocks_address : encodeBlocks 8 address = text := by
  decide

theorem validateDecoded_address : address.validateDecoded curve = .ok () := by
  decide

theorem unmarshalText_text : Address.unmarshalText curve text = .ok address := by
  have hl : address.length = 8 * 8 + 5 := by decide
  have hd := decodeBlocks_encodeBlocks hl
  rw [encodeBlocks_address] at hd
  have ht : text.length = encodedAddressLen := encodeBlocks_address ▸ length_encodeBlocks hl
  exact Address.unmarshalText_eq_ok.mpr
    ⟨addrBase58ToBytes_eq_ok ht |>.mpr hd, validateDecoded_address⟩

theorem unmarshalText_otherText : Address.unmarshalText curve otherText = .ok address := by
  have hb : decodeBlock 8 (Base58.ascii "nrBAaEHUvHC") = .ok (address.take 8) := by decide
  have hl : (address.drop 8).length = 8 * 7 + 5 := by decide
  have hr : text.drop 11 = encodeBlocks 7 (address.drop 8) := by
    have he : (encodeBlock 11 (address.take 8)).length = 11 :=
      Block.eight.length_encodeBlock <| by decide
    rw [← encodeBlocks_address, encodeBlocks, List.drop_left' he]
  have hd : decodeBlocks 8 otherText = .ok address := by
    rw [otherText, hr, decodeBlocks, List.take_left' (by decide), List.drop_left' (by decide), hb,
      Except.bind_ok, decodeBlocks_encodeBlocks hl]
    exact congrArg Except.ok <| List.take_append_drop ..
  have ht : otherText.length = encodedAddressLen := by
    rw [otherText, hr, List.length_append, length_encodeBlocks hl]
    decide
  exact Address.unmarshalText_eq_ok.mpr
    ⟨addrBase58ToBytes_eq_ok ht |>.mpr hd, validateDecoded_address⟩

theorem not_canonical_otherText : ¬Canonical 8 otherText := by
  have ht : otherText.take 11 = Base58.ascii "nrBAaEHUvHC" := List.take_left' <| by decide
  rw [Canonical, ht]
  decide

end SampleAddress

theorem Address.marshalText_unmarshalText_iff_sample :
    (SampleAddress.address.marshalText SampleAddress.curve = .ok SampleAddress.otherText ↔
      Canonical 8 SampleAddress.otherText) ∧
    ∀ s, unmarshalText SampleAddress.curve s = .ok SampleAddress.address →
      Canonical 8 SampleAddress.otherText → (s = SampleAddress.otherText ↔ Canonical 8 s) :=
  marshalText_unmarshalText_iff SampleAddress.unmarshalText_otherText

-- Two different strings are decoded to one address.
theorem Address.two_text_forms :
    unmarshalText SampleAddress.curve SampleAddress.otherText = .ok SampleAddress.address ∧
    unmarshalText SampleAddress.curve SampleAddress.text = .ok SampleAddress.address ∧
    SampleAddress.address.marshalText SampleAddress.curve = .ok SampleAddress.text ∧
    SampleAddress.text ≠ SampleAddress.otherText ∧ ¬Canonical 8 SampleAddress.otherText := by
  refine ⟨SampleAddress.unmarshalText_otherText, SampleAddress.unmarshalText_text, ?_, ?_,
    SampleAddress.not_canonical_otherText⟩
  · rw [marshalText_eq (by decide) SampleAddress.validateDecoded_address,
      SampleAddress.encodeBlocks_address]
  · decide

end Monero
