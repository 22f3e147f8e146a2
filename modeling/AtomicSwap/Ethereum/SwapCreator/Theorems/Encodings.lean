import AtomicSwap.Ethereum.Utils
import AtomicSwap.Ethereum.SwapCreator.Theorems.Custody

namespace Ethereum.SwapCreator

def IsWord (n : ℤ) : Prop :=
  0 ≤ n ∧ n < 2 ^ 256

-- The integers of the Go structures fit into the words of the Solidity ones.
structure SwapCreatorSwap.InRange (s : SwapCreatorSwap) : Prop where
  timeout1 : IsWord s.timeout1
  timeout2 : IsWord s.timeout2
  value    : IsWord s.value
  nonce    : IsWord s.nonce

structure SwapCreatorRelaySwap.InRange (r : SwapCreatorRelaySwap) : Prop where
  swap : r.swap.InRange
  fee  : IsWord r.fee

-- A Go structure stands for a Solidity structure with the same values.
structure SwapCreatorSwap.Denotes (s : SwapCreatorSwap) (t : Swap) : Prop where
  owner            : s.owner = t.owner
  claimer          : s.claimer = t.claimer
  claimCommitment  : s.claimCommitment = t.claimCommitment
  refundCommitment : s.refundCommitment = t.refundCommitment
  timeout1         : s.timeout1 = t.timeout1.toNat
  timeout2         : s.timeout2 = t.timeout2.toNat
  asset            : s.asset = t.asset
  value            : s.value = t.value.toNat
  nonce            : s.nonce = t.nonce.toNat

structure SwapCreatorRelaySwap.Denotes (r : SwapCreatorRelaySwap) (t : RelaySwap) : Prop where
  swap        : r.swap.Denotes t.swap
  fee         : r.fee = t.fee.toNat
  relayerHash : r.relayerHash = t.relayerHash
  swapCreator : r.swapCreator = t.swapCreator

variable {s s' : SwapCreatorSwap} {r r' : SwapCreatorRelaySwap} {t : Swap} {u : RelaySwap}
  {bs : List UInt8}

theorem SwapCreatorSwap.InRange.denotes (h : s.InRange) : s.Denotes s.pack where
  owner            := rfl
  claimer          := rfl
  claimCommitment  := rfl
  refundCommitment := rfl
  timeout1         := (Abi.toNat_ofInt h.timeout1).symm
  timeout2         := (Abi.toNat_ofInt h.timeout2).symm
  asset            := rfl
  value            := (Abi.toNat_ofInt h.value).symm
  nonce            := (Abi.toNat_ofInt h.nonce).symm

theorem SwapCreatorSwap.Denotes.pack (h : s.Denotes t) : s.pack = t := by
  obtain ⟨owner, claimer, claimCommitment, refundCommitment, t₁, t₂, asset, value, nonce⟩ := t
  simp [SwapCreatorSwap.pack, h.owner, h.claimer, h.claimCommitment, h.refundCommitment, h.timeout1,
    h.timeout2, h.asset, h.value, h.nonce]

-- The identifier that the Go code computes is the hash of these bytes.
theorem SwapCreatorSwap.args_eq : s.args = some (abiEncode s.pack) := by
  simp [args, Abi.pack, Abi.packElement, abiEncode, SwapCreatorSwap.pack]

theorem SwapCreatorRelaySwap.Denotes.args (h : r.Denotes u) : r.args = some (abiEncodeRelay u) := by
  simp [SwapCreatorRelaySwap.args, Abi.pack, Abi.packElement, abiEncodeRelay, abiEncode,
    ← h.swap.pack, SwapCreatorSwap.pack, h.fee, h.relayerHash, h.swapCreator]

theorem SwapCreatorRelaySwap.InRange.denotes (h : r.InRange) : ∃ u, r.Denotes u :=
  ⟨⟨r.swap.pack, .ofInt 256 r.fee, r.relayerHash, r.swapCreator⟩, h.swap.denotes,
    (Abi.toNat_ofInt h.fee).symm, rfl, rfl⟩

theorem SwapCreatorSwap.args_injective (h : s.InRange) (h' : s'.InRange) (ha : s.args = some bs)
    (ha' : s'.args = some bs) : s = s' := by
  have hv := Abi.pack_injective
    (by simpa [Abi.Value.InRange] using ⟨h.timeout1, h.timeout2, h.value, h.nonce⟩)
    (by simpa [Abi.Value.InRange] using ⟨h'.timeout1, h'.timeout2, h'.value, h'.nonce⟩) ha ha'
  cases s
  cases s'
  simp_all

theorem SwapCreatorRelaySwap.args_injective (h : r.InRange) (h' : r'.InRange)
    (ha : r.args = some bs) (ha' : r'.args = some bs) : r = r' := by
  have hi (r : SwapCreatorRelaySwap) (h : r.InRange) : IsWord r.swap.timeout1 ∧
      IsWord r.swap.timeout2 ∧ IsWord r.swap.value ∧ IsWord r.swap.nonce ∧ IsWord r.fee :=
    ⟨h.swap.timeout1, h.swap.timeout2, h.swap.value, h.swap.nonce, h.fee⟩
  have hv := Abi.pack_injective (by simpa [Abi.Value.InRange, IsWord] using hi r h)
    (by simpa [Abi.Value.InRange, IsWord] using hi r' h') ha ha'
  obtain ⟨⟨_, _, _, _, _, _, _, _, _⟩, _, _, _⟩ := r
  obtain ⟨⟨_, _, _, _, _, _, _, _, _⟩, _, _, _⟩ := r'
  simp_all

-- A relay swap has three more words than a swap.
theorem args_ne (ha : s.args = some bs) : r.args ≠ some bs := by
  intro hr
  have hs := Abi.pack_length ha
  rw [Abi.pack_length hr] at hs
  simp at hs

-- The bytes that are hashed in Go are those that are hashed in Solidity, and they determine what
-- was encoded.
theorem encodings_agree (hs : s.InRange) (hs' : s'.InRange) (hr : r.InRange) (hr' : r'.InRange) :
    (∃ t, s.Denotes t ∧ s.args = some (abiEncode t)) ∧
    (∃ u, r.Denotes u ∧ r.args = some (abiEncodeRelay u)) ∧
    (s.args = s'.args → s = s') ∧ (r.args = r'.args → r = r') ∧ s.args ≠ r.args := by
  obtain ⟨u, hu⟩ := hr.denotes
  refine ⟨⟨s.pack, hs.denotes, SwapCreatorSwap.args_eq⟩, ⟨u, hu, hu.args⟩, fun he => ?_,
    fun he => ?_, fun he => ?_⟩
  · exact SwapCreatorSwap.args_injective hs hs' SwapCreatorSwap.args_eq
      (he ▸ SwapCreatorSwap.args_eq)
  · exact SwapCreatorRelaySwap.args_injective hr hr' hu.args (he ▸ hu.args)
  · exact args_ne SwapCreatorSwap.args_eq (he ▸ SwapCreatorSwap.args_eq)

namespace Sample

-- The swap of the sample, as the Go code has it.
def goSwap : SwapCreatorSwap where
  owner            := swap.owner
  claimer          := swap.claimer
  claimCommitment  := swap.claimCommitment
  refundCommitment := swap.refundCommitment
  timeout1         := 1100
  timeout2         := 1200
  asset            := native
  value            := 5
  nonce            := 0

def goRelaySwap : SwapCreatorRelaySwap where
  swap        := goSwap
  fee         := 1
  relayerHash := 7
  swapCreator := deployment.this

theorem goSwap_inRange : goSwap.InRange := by
  constructor <;> simp [goSwap, IsWord]

end Sample

theorem encodings_agree_sample :
    Sample.goSwap.args = some (abiEncode Sample.swap) ∧
    Sample.goSwap.args ≠ Sample.goRelaySwap.args := by
  have hr : Sample.goRelaySwap.InRange :=
    ⟨Sample.goSwap_inRange, by simp [Sample.goRelaySwap, IsWord]⟩
  obtain ⟨_, _, _, _, hne⟩ :=
    encodings_agree Sample.goSwap_inRange Sample.goSwap_inRange hr hr
  exact ⟨by decide +kernel, hne⟩

end Ethereum.SwapCreator
