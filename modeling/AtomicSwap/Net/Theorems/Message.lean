import AtomicSwap.Ethereum.SwapCreator.Theorems.Encodings
import AtomicSwap.Net.Message
import AtomicSwap.Net.Theorems.Relay

open Ethereum Ethereum.SwapCreator Json Relayer

namespace Message

section Texts

variable {a : Address} {h : Bytes32} {bs : List UInt8}

theorem unmarshalAddress_marshal : Address.unmarshalText a.marshalText = some a := by
  have hv : BitVec.ofNat 160 (Bytes.beValue <| Bytes.be 20 a.toNat) = a :=
    ofNat_beValue_be a le_rfl
  simp only [Address.unmarshalText, Address.marshalText, has0xPrefix, List.drop_succ_cons,
    List.drop_zero, Hex.decode_encode, Option.bind_eq_bind, Option.bind_some, Bytes.length_be, hv]
  rfl

theorem isPlain_hex : ∀ c ∈ '0' :: 'x' :: Hex.encode bs, isPlain c := by
  have hd : ∀ n < 16, isPlain (Hex.digit n) := by decide
  refine List.forall_mem_cons.mpr ⟨by decide, List.forall_mem_cons.mpr ⟨by decide, ?_⟩⟩
  intro c hc
  obtain ⟨n, hn, rfl⟩ := Hex.exists_digit hc
  exact hd n hn

theorem raw_address : raw Address.unmarshalText (.string a.marshalText) = some a :=
  unmarshalAddress_marshal

theorem raw_hash : raw Hash.unmarshalText (.string <| Hash.marshalText h) = some h :=
  Hash.unmarshalText_marshalText

end Texts

section Regular

variable {d : ℕ} {r : Relay.ClaimRequest} {s : SwapCreatorSwap} {bs : List UInt8}

theorem regular_object {ms : List (List Char × Tree)}
    (h : ∀ m ∈ ms, m.1.all isPlain ∧ m.2.Regular d) : (Tree.object ms).Regular (d + 1) :=
  .object (fun m hm => List.all_eq_true.mp (h m hm).left) fun m hm => (h m hm).right

theorem regular_swapTree : (swapTree s).Regular (d + 1) := by
  refine regular_object ?_
  simp only [List.forall_mem_cons, List.not_mem_nil, IsEmpty.forall_iff, implies_true, and_true]
  exact ⟨⟨by decide, .string isPlain_hex⟩, ⟨by decide, .string isPlain_hex⟩,
    ⟨by decide, .string isPlain_hex⟩, ⟨by decide, .string isPlain_hex⟩, ⟨by decide, .number _⟩,
    ⟨by decide, .number _⟩, ⟨by decide, .string isPlain_hex⟩, ⟨by decide, .number _⟩,
    ⟨by decide, .number _⟩⟩

theorem regular_numbers : (numbers bs).Regular (d + 1) := by
  refine .array <| List.forall_mem_map.mpr ?_
  intro b _
  exact .number _

theorem regular_relaySwapTree : (relaySwapTree r).Regular (d + 2) := by
  have hf : (r.fee.elim Tree.null fun n => .number <| integer n).Regular (d + 1) := by
    cases r.fee
    case none   => exact .null
    case some n => exact .number n
  refine regular_object ?_
  simp only [List.forall_mem_append, List.forall_mem_cons, List.not_mem_nil, IsEmpty.forall_iff,
    implies_true, and_true]
  refine ⟨?_, ⟨by decide, hf⟩, ⟨by decide, regular_numbers⟩, ⟨by decide, .string isPlain_hex⟩⟩
  cases r.swap
  case none   => simp
  case some s => exact List.forall_mem_singleton.mpr ⟨rfl, regular_swapTree⟩

theorem regular_requestTree : (requestTree r).Regular (d + 3) := by
  have hi : (r.offerID.elim Tree.null fun id => .string <| Hash.marshalText id).Regular
      (d + 2) := by
    cases r.offerID
    case none => exact .null
    case some => exact .string isPlain_hex
  refine regular_object ?_
  simp only [List.forall_mem_cons, List.not_mem_nil, IsEmpty.forall_iff, implies_true, and_true]
  exact ⟨⟨by decide, hi⟩, ⟨by decide, regular_relaySwapTree⟩,
    ⟨by decide, .string isPlain_base64⟩, ⟨by decide, .string isPlain_base64⟩⟩

theorem ascii_requestTree : Ascii (requestTree r).render :=
  ascii_render <| regular_requestTree (d := 0)

theorem parse_message : parse (Utf8.decode <| Text.bytes (requestTree r).render) =
    some (requestTree r) := by
  have hr : (requestTree r).Regular maxNestingDepth := regular_requestTree (d := 9997)
  rw [Utf8.decode_ascii ascii_requestTree, parse_render hr]

end Regular

section Decode

variable {r : Relay.ClaimRequest} {s : SwapCreatorSwap}

theorem required_iff : Required s ↔
    ¬(s.owner = 0 ∨ s.claimer = 0 ∨ s.claimCommitment = 0 ∨ s.refundCommitment = 0) := by
  simp only [not_or]
  constructor
  · intro h
    exact ⟨h.owner, h.claimer, h.claimCommitment, h.refundCommitment⟩
  · rintro ⟨ho, hc, hcc, hrc⟩
    exact ⟨ho, hc, hcc, hrc⟩

theorem unmarshalSwap_swapTree (h : Required s) : unmarshalSwap (swapTree s) = some s := by
  have hd : decodeStruct SwapJSON.fields (swapTree s) {} =
      some ⟨s.owner, s.claimer, s.claimCommitment, s.refundCommitment, s.timeout1, s.timeout2,
        s.asset, s.value, s.nonce⟩ :=
    (decodeMembers_cons (by decide) rfl rfl raw_address).trans <|
    (decodeMembers_cons (by decide) rfl rfl raw_address).trans <|
    (decodeMembers_cons (by decide) rfl rfl raw_hash).trans <|
    (decodeMembers_cons (by decide) rfl rfl raw_hash).trans <|
    (decodeMembers_cons (by decide) rfl rfl <| pointer_integer _).trans <|
    (decodeMembers_cons (by decide) rfl rfl <| pointer_integer _).trans <|
    (decodeMembers_cons (by decide) rfl rfl raw_address).trans <|
    (decodeMembers_cons (by decide) rfl rfl <| pointer_integer _).trans <|
    (decodeMembers_cons (by decide) rfl rfl <| pointer_integer _)
  rw [unmarshalSwap, hd]
  exact if_neg <| required_iff.mp h

theorem pointer_fee {fee : Option ℤ} :
    pointer bigInt (fee.elim .null fun n => .number <| integer n) = some fee := by
  cases fee
  case none   => rfl
  case some n => exact pointer_integer n

theorem pointer_offerID {offerID : Option Bytes32} :
    pointer (raw Hash.unmarshalText) (offerID.elim .null fun id => .string <| Hash.marshalText id) =
      some offerID := by
  cases offerID
  case none => rfl
  case some => exact congrArg (Option.map some) raw_hash

theorem decode_relaySwapTree (h : ∀ s ∈ r.swap, Required s) :
    decodeStruct RelaySwapJSON.fields (relaySwapTree r) {} =
      some ⟨r.swap, r.fee, r.relayerHash, r.swapCreator⟩ := by
  have hv : BitVec.ofNat 256 (Bytes.beValue <| Bytes.be 32 r.relayerHash.toNat) = r.relayerHash :=
    ofNat_beValue_be r.relayerHash le_rfl
  have hm : ∀ x : RelaySwapJSON, decodeMembers RelaySwapJSON.fields
      [("Fee".toList, r.fee.elim .null fun n => .number <| integer n),
        ("RelayerHash".toList, numbers <| Bytes.be 32 r.relayerHash.toNat),
        ("SwapCreator".toList, .string r.swapCreator.marshalText)] x =
      some ⟨x.swap, r.fee, r.relayerHash, r.swapCreator⟩ := by
    intro x
    have hb : byteArray (Bytes.be 32 x.relayerHash.toNat)
        (numbers <| Bytes.be 32 r.relayerHash.toNat) = some (Bytes.be 32 r.relayerHash.toNat) :=
      byteArray_numbers (by rw [Bytes.length_be, Bytes.length_be])
    rw [decodeMembers_cons (by decide) rfl rfl pointer_fee,
      decodeMembers_cons (by decide) rfl rfl hb,
      decodeMembers_cons (by decide) rfl rfl raw_address, hv]
    rfl
  rw [relaySwapTree, decodeStruct]
  cases hs : r.swap
  case none   => exact hm {}
  case some s =>
    have hu := unmarshalSwap_swapTree <| h s hs
    refine (decodeMembers_cons (by decide) rfl rfl hu).trans ?_
    exact hm { swap := some s }

theorem decode_requestTree (h : ∀ s ∈ r.swap, Required s) :
    decodeStruct RequestJSON.fields (requestTree r) {} =
      some ⟨r.offerID, some ⟨r.swap, r.fee, r.relayerHash, r.swapCreator⟩,
        some (Bytes.be 32 r.secret.toNat), some (signatureBytes r.signature)⟩ := by
  have hp : pointer (fun t => decodeStruct RelaySwapJSON.fields t {}) (relaySwapTree r) =
      some (some ⟨r.swap, r.fee, r.relayerHash, r.swapCreator⟩) :=
    congrArg (Option.map some) <| decode_relaySwapTree h
  exact (decodeMembers_cons (by decide) rfl rfl pointer_offerID).trans <|
    (decodeMembers_cons (by decide) rfl rfl hp).trans <|
    (decodeMembers_cons (by decide) rfl rfl byteSlice_base64).trans <|
    (decodeMembers_cons (by decide) rfl rfl byteSlice_base64)

theorem wordAt_append (bs bs' : List UInt8) (x : Bytes32) {i : ℕ} (h : bs.length = i) :
    wordAt (bs ++ (Bytes.be 32 x.toNat ++ bs')) i = x := by
  have hl : (Bytes.be 32 x.toNat).length = 32 := Bytes.length_be ..
  rw [wordAt, List.drop_left' h, List.take_left' hl, ofNat_beValue_be x le_rfl]

theorem length_signatureBytes {sig : Signature} : (signatureBytes sig).length = 65 := by
  simp [signatureBytes, Bytes.length_be]

-- The parts of a signature are read from its bytes again.
theorem signature_signatureBytes (sig : Signature) :
    ⟨wordAt (signatureBytes sig) 0, wordAt (signatureBytes sig) 32,
      (signatureBytes sig).getD 64 0⟩ = sig := by
  have hr : wordAt (signatureBytes sig) 0 = sig.r := by
    simpa [signatureBytes] using wordAt_append [] _ sig.r rfl
  have hs : wordAt (signatureBytes sig) 32 = sig.s := by
    simpa [signatureBytes] using wordAt_append _ _ sig.s (Bytes.length_be 32 sig.r.toNat)
  have hv : (signatureBytes sig).getD 64 0 = sig.v := by
    simp [signatureBytes, Bytes.length_be, List.getD]
  rw [hr, hs, hv]

theorem decode_message (h : ∀ s ∈ r.swap, Required s) :
    decodeRelayClaimRequest (relayClaimRequestBytes r) = some r := by
  have hs : wordAt (Bytes.be 32 r.secret.toNat) 0 = r.secret := by
    simpa using wordAt_append [] [] r.secret rfl
  have hn : ¬((Text.bytes (requestTree r).render).length < 2 ∨
      relayClaimRequestType ≠ relayClaimRequestType) := by
    rw [Utf8.length_bytes_ascii ascii_requestTree]
    simp [requestTree, Tree.render]
  rw [relayClaimRequestBytes, decodeRelayClaimRequest, if_neg hn, parse_message]
  simp only [Option.bind_eq_bind, Option.bind_some, decode_requestTree h, RequestJSON.validate,
    Bytes.length_be, length_signatureBytes, hs, signature_signatureBytes]
  rfl

end Decode

section Required

variable {t : Tree} {r : Relay.ClaimRequest} {s : SwapCreatorSwap}

theorem required_of_unmarshalSwap (h : unmarshalSwap t = some s) : Required s := by
  obtain ⟨x, -, h⟩ := Option.bind_eq_some_iff.mp h
  simp only [SwapJSON.validate] at h
  split at h
  case isTrue => contradiction
  case isFalse hn =>
    simp only [Option.bind_eq_bind, Option.bind_eq_some_iff, Option.pure_def,
      Option.some.injEq] at h
    obtain ⟨_, -, _, -, _, -, _, -, rfl⟩ := h
    exact required_iff.mpr hn

theorem required_of_relaySwap {x x' : RelaySwapJSON} (hx : ∀ s ∈ x.swap, Required s)
    (h : decodeStruct RelaySwapJSON.fields t x = some x') : ∀ s ∈ x'.swap, Required s := by
  refine decodeStruct_preserves (P := fun x => ∀ s ∈ x.swap, Required s) ?_ hx h
  simp only [RelaySwapJSON.fields, List.forall_mem_cons, List.not_mem_nil, IsEmpty.forall_iff,
    implies_true, and_true]
  refine ⟨?_, ?_, ?_, ?_⟩
  all_goals
    intro t x x' hx h
    obtain ⟨y, hy, h⟩ := Option.bind_eq_some_iff.mp h
    obtain rfl := Option.some.inj h
  · intro s hs
    obtain rfl := Option.some.inj hs
    exact required_of_unmarshalSwap hy
  all_goals exact hx

theorem required_of_request {m m' : RequestJSON}
    (hm : ∀ x ∈ m.relaySwap, ∀ s ∈ x.swap, Required s)
    (h : decodeStruct RequestJSON.fields t m = some m') :
    ∀ x ∈ m'.relaySwap, ∀ s ∈ x.swap, Required s := by
  refine decodeStruct_preserves
    (P := fun m => ∀ x ∈ m.relaySwap, ∀ s ∈ x.swap, Required s) ?_ hm h
  simp only [RequestJSON.fields, List.forall_mem_cons, List.not_mem_nil, IsEmpty.forall_iff,
    implies_true, and_true]
  refine ⟨?_, ?_, ?_, ?_⟩
  all_goals
    intro t m m' hm h
    obtain ⟨y, hy, h⟩ := Option.bind_eq_some_iff.mp h
    obtain rfl := Option.some.inj h
  case refine_2 =>
    rintro x rfl
    refine required_of_relaySwap ?_ (decode_of_pointer hy)
    cases hx : m.relaySwap
    case none   => simp
    case some x => exact hm x hx
  all_goals exact hm

theorem required_of_decode {msg : List UInt8} (h : decodeRelayClaimRequest msg = some r) :
    ∀ s ∈ r.swap, Required s := by
  cases msg
  case nil => contradiction
  case cons b msg =>
    simp only [decodeRelayClaimRequest] at h
    split at h
    case isTrue => contradiction
    case isFalse =>
      obtain ⟨t, -, h⟩ := Option.bind_eq_some_iff.mp h
      obtain ⟨m, hm, h⟩ := Option.bind_eq_some_iff.mp h
      have hr : ∀ x ∈ m.relaySwap, ∀ s ∈ x.swap, Required s := required_of_request (by simp) hm
      simp only [RequestJSON.validate, Option.bind_eq_bind, Option.bind_eq_some_iff] at h
      obtain ⟨x, hx, _, -, _, -, h⟩ := h
      split at h
      case isTrue => contradiction
      case isFalse =>
        obtain rfl := Option.some.inj h
        exact hr x hx

end Required

section Size

variable {r : Relay.ClaimRequest} {s : SwapCreatorSwap} {n : ℤ}

theorem length_isWord (h : IsWord n) : (integer n).length ≤ 78 :=
  length_integer h.left (by decide) <| h.right.trans (by decide)

theorem length_address {a : Address} : a.marshalText.length = 42 := by
  simp [Address.marshalText, Hex.length_encode, Bytes.length_be]

theorem length_hash {h : Bytes32} : (Hash.marshalText h).length = 66 := by
  simp [Hash.marshalText, Hex.length_encode, Bytes.length_be]

theorem length_swapTree (h : s.InRange) : (swapTree s).render.length ≤ 701 := by
  have h₁ := length_isWord h.timeout1
  have h₂ := length_isWord h.timeout2
  have h₃ := length_isWord h.value
  have h₄ := length_isWord h.nonce
  simp only [swapTree, Tree.render, renderMembers, String.reduceToList, List.length_cons,
    List.length_append, List.length_nil, length_address, length_hash]
  omega

theorem length_relaySwapTree (hs : ∀ s ∈ r.swap, s.InRange) (hf : ∀ n ∈ r.fee, IsWord n) :
    (relaySwapTree r).render.length ≤ 1000 := by
  have hn := length_numbers <| Bytes.be 32 r.relayerHash.toNat
  have hf : (r.fee.elim Tree.null fun n => .number <| integer n).render.length ≤ 78 := by
    cases hr : r.fee
    case none   => decide
    case some n => exact length_isWord <| hf n hr
  rw [Bytes.length_be] at hn
  cases hr : r.swap
  case none =>
    simp only [relaySwapTree, hr, Option.map_none, Option.toList_none, List.nil_append,
      Tree.render, renderMembers, String.reduceToList, List.length_cons, List.length_append,
      List.length_nil, length_address]
    omega
  case some s =>
    have := length_swapTree <| hs s hr
    simp only [relaySwapTree, hr, Option.map_some, Option.toList_some, List.cons_append,
      List.nil_append, Tree.render, renderMembers, String.reduceToList, List.length_cons,
      List.length_append, List.length_nil, length_address]
    omega

theorem length_requestTree (hs : ∀ s ∈ r.swap, s.InRange) (hf : ∀ n ∈ r.fee, IsWord n) :
    (requestTree r).render.length < maxRelayMessageSize := by
  have hr := length_relaySwapTree hs hf
  have hi : (r.offerID.elim Tree.null fun id => .string <| Hash.marshalText id).render.length ≤
      68 := by
    cases r.offerID
    case none    => decide
    case some id => simp [Tree.render, length_hash]
  simp only [requestTree, Tree.render, renderMembers, String.reduceToList, List.length_cons,
    List.length_append, List.length_nil, Base64.length_encode, Bytes.length_be, signatureBytes,
    maxRelayMessageSize]
  omega

theorem length_message (hs : ∀ s ∈ r.swap, s.InRange) (hf : ∀ n ∈ r.fee, IsWord n) :
    (relayClaimRequestBytes r).length ≤ maxRelayMessageSize := by
  rw [relayClaimRequestBytes, List.length_cons, Utf8.length_bytes_ascii ascii_requestTree]
  exact length_requestTree hs hf

theorem read_message (hs : ∀ s ∈ r.swap, Required s ∧ s.InRange) (hf : ∀ n ∈ r.fee, IsWord n) :
    readRelayClaimRequest (relayClaimRequestBytes r) = some r := by
  rw [readRelayClaimRequest, if_pos <| length_message (fun s h => (hs s h).right) hf]
  exact decode_message fun s h => (hs s h).left

end Size

-- A request with words for its integers is either not sent, which is the case if its swap lacks an
-- address or a commitment, or it arrives as it is: its message is never too long.
theorem claim_request_arrives (r : RelayClaimRequest) (h : r.relaySwap.InRange) :
    (encode r = none ↔ ¬Required r.relaySwap.swap) ∧
    ∀ msg, encode r = some msg →
      msg.length ≤ maxRelayMessageSize ∧ readRelayClaimRequest msg = some (.ofComplete r) := by
  have hs : ∀ s ∈ (Relay.ClaimRequest.ofComplete r).swap, s = r.relaySwap.swap := by
    intro s hs
    exact (Option.some.inj hs).symm
  have hf : ∀ n ∈ (Relay.ClaimRequest.ofComplete r).fee, IsWord n := by
    intro n hn
    exact Option.some.inj hn ▸ h.fee
  simp only [encode]
  split
  case isTrue hz =>
    exact ⟨iff_of_true rfl fun hq => required_iff.mp hq hz, by simp⟩
  case isFalse hz =>
    have hq := required_iff.mpr hz
    refine ⟨iff_of_false (by simp) <| not_not_intro hq, ?_⟩
    intro msg hm
    obtain rfl := Option.some.inj hm
    refine ⟨length_message ?_ hf, read_message ?_ hf⟩
    all_goals
      intro s hm
      obtain rfl := hs s hm
    · exact h.swap
    · exact ⟨hq, h.swap⟩

theorem claim_request_arrives_sample :
    readRelayClaimRequest (relayClaimRequestBytes <| .ofComplete Relay.TakerSample.request) =
      some (.ofComplete Relay.TakerSample.request) :=
  ((claim_request_arrives Relay.TakerSample.request
    ⟨⟨⟨by decide, by decide⟩, ⟨by decide, by decide⟩, ⟨by decide, by decide⟩,
      ⟨by decide, by decide⟩⟩, ⟨by decide, by decide⟩⟩).right _ rfl).right

-- The decoder accepts the requests whose swap is missing or has its addresses and commitments, with
-- or without a fee. So a peer needs no more than one short message to end the process of a relayer,
-- and the maker of a swap to end that of its taker.
theorem accepted_messages :
    (∀ r, (∃ msg, decodeRelayClaimRequest msg = some r) ↔ ∀ s ∈ r.swap, Required s) ∧
    ∀ (cfg : Relay.Config) (s : Relay.State) (peer : Relay.PeerID), s.crashed = false →
      (cfg.isRelayer ∨ ∃ id info record, s.ongoing.lookup id = some info ∧ info.isTaker ∧
        peer = info.peerID ∧ s.recoveryDB.getContractSwapInfo id = .ok record) →
      ∃ msg request, readRelayClaimRequest msg = some request ∧
        (Relay.run cfg (.relayStream peer request ::
          List.replicate 3 (.resume s.calls.length true)) s).crashed := by
  constructor
  · intro r
    constructor
    · rintro ⟨msg, h⟩
      exact required_of_decode h
    · intro h
      exact ⟨_, decode_message h⟩
  · intro cfg s peer hs hp
    have hr : ∀ offerID, readRelayClaimRequest
        (relayClaimRequestBytes <| Relay.emptyRequest cfg offerID) =
        some (Relay.emptyRequest cfg offerID) :=
      fun _ => read_message (by simp [Relay.emptyRequest]) (by simp [Relay.emptyRequest])
    rcases hp with hr' | ⟨id, info, record, hl, ht, hp, hg⟩
    · exact ⟨_, _, hr none, Relay.relayer_crashes hs hr'⟩
    · exact ⟨_, _, hr (some id), Relay.taker_crashes hs hl ht hp hg⟩

theorem accepted_messages_taker : ∃ msg request, readRelayClaimRequest msg = some request ∧
    (Relay.run Relay.TakerSample.config
      (.relayStream 2 request :: List.replicate 3 (.resume 0 true))
      (Relay.run Relay.TakerSample.config (Relay.TakerSample.inputs.take 2) {})).crashed :=
  accepted_messages.right Relay.TakerSample.config
    (Relay.run Relay.TakerSample.config (Relay.TakerSample.inputs.take 2) {}) 2 rfl <|
      .inr ⟨9, ⟨2, .eth⟩, Relay.TakerSample.record, rfl, rfl, rfl, rfl⟩

end Message
