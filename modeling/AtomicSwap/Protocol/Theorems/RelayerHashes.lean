import AtomicSwap.Protocol.Backend
import AtomicSwap.Relayer.Theorems.Validated

open Function Ethereum Machine Relayer

namespace Backend

variable {cfg : Config} {s : State} {h : Bytes32} {i j : ℕ}

-- The call with the number `i` is for the hash `h`.
def State.CallFor (s : State) (h : Bytes32) (i : ℕ) : Prop :=
  ∃ request, s.requests[i]? = some request ∧ request.relaySwap.relayerHash = h

theorem State.CallFor.unique {h' : Bytes32} (hc : s.CallFor h i) (hc' : s.CallFor h' i) :
    h = h' := by
  obtain ⟨_, hr, rfl⟩ := hc
  obtain ⟨_, hr', rfl⟩ := hc'
  cases hr.symm.trans hr'
  rfl

theorem State.CallFor.lt (hc : s.CallFor h i) : i < s.requests.length := by
  obtain ⟨_, hr, _⟩ := hc
  exact (List.getElem?_eq_some_iff.mp hr).fst

-- A hash is issued once and before it is used, calls for one hash are not made while another one is
-- handled, and nobody uses the hash of the zero salt without having it.
def Proper (cfg : Config) (s : State) : Input → Prop
  | .getRelayerAddressHash (some salt) => ∀ i, ¬s.CallFor (cfg.addressHash salt) i
  | .handleRelayClaimRequest request   =>
    ∀ i, s.CallFor request.relaySwap.relayerHash i → s.phase i = .finished
  | .lookUp i _                        => ∀ h, s.CallFor h i → s.relayerHash h = none →
    h ≠ cfg.addressHash 0
  | _                                  => True

structure Inv (cfg : Config) (s : State) : Prop where
  fresh     : ∀ i, s.requests.length ≤ i → s.phase i = .started
  issued    : ∀ h, s.relayerHash h ≠ none → h ∈ s.issued
  mapped    : ∀ h i, s.relayerHash h ≠ none → s.CallFor h i → s.phase i ≠ .finished
  single    : ∀ h i j, s.CallFor h i → s.CallFor h j → s.phase i ≠ .finished →
    s.phase j ≠ .finished → i = j
  read      : ∀ h i salt, s.CallFor h i → s.phase i = .read salt → h = cfg.addressHash salt →
    h ∈ s.issued ∧ ∀ j, s.CallFor h j → j = i
  submitted : ∀ i ∈ s.submitted, ∃ h, s.CallFor h i ∧ h ∈ s.issued ∧ (∀ j < i, ¬s.CallFor h j) ∧
    (s.phase i = .returning ∨ s.phase i = .finished)
  nodup     : s.submitted.Nodup

theorem inv_init : Inv cfg {} where
  fresh _ _             := rfl
  issued _ h            := absurd rfl h
  mapped _ _ h          := absurd rfl h
  single _ _ _ h        := by simp [State.CallFor] at h
  read _ _ _ h          := by simp [State.CallFor] at h
  submitted _ h         := by simp at h
  nodup                 := .nil

theorem getRelayerAddressHash_inv {salt : BitVec 32} (hi : Inv cfg s)
    (hp : ∀ i, ¬s.CallFor (cfg.addressHash salt) i) :
    Inv cfg (getRelayerAddressHash cfg s salt) where
  fresh     := hi.fresh
  issued h  := by
    by_cases he : h = cfg.addressHash salt
    case pos => simp [getRelayerAddressHash, he]
    case neg =>
      intro hm
      exact .tail _ <| hi.issued h <| by simpa [getRelayerAddressHash, he] using hm
  mapped h i hm hc := by
    have he : h ≠ cfg.addressHash salt := fun he => hp i (he ▸ hc)
    exact hi.mapped h i (by simpa [getRelayerAddressHash, he] using hm) hc
  single    := hi.single
  read h i salt' hc hr he := (hi.read h i salt' hc hr he).imp_left (.tail _)
  submitted i hs := by
    obtain ⟨h, hc, hm, hr⟩ := hi.submitted i hs
    exact ⟨h, hc, .tail _ hm, hr⟩
  nodup     := hi.nodup

theorem callFor_append {request : RelayClaimRequest} :
    State.CallFor { s with requests := s.requests ++ [request] } h i ↔
    s.CallFor h i ∨ i = s.requests.length ∧ request.relaySwap.relayerHash = h := by
  simp only [State.CallFor, List.getElem?_append]
  split
  case isTrue hl  => simp [hl.ne]
  case isFalse hl =>
    rw [List.getElem?_eq_none (not_lt.mp hl)]
    by_cases he : i = s.requests.length
    case pos => simp [he]
    case neg =>
      have hp : i - s.requests.length ≠ 0 := by omega
      simp [hp, he]

theorem handleRelayClaimRequest_inv {request : RelayClaimRequest} (hi : Inv cfg s)
    (hp : ∀ i, s.CallFor request.relaySwap.relayerHash i → s.phase i = .finished) :
    Inv cfg { s with requests := s.requests ++ [request] } where
  fresh i hl := hi.fresh i <| (by simp : s.requests.length ≤ _).trans hl
  issued     := hi.issued
  mapped h i hm hc := by
    obtain hc | ⟨rfl, _⟩ := callFor_append.mp hc
    case inl => exact hi.mapped h i hm hc
    case inr => simp [hi.fresh _ le_rfl]
  single h i j hc hc' hf hf' := by
    -- An earlier call for the hash of the new one is finished.
    obtain hc | ⟨rfl, rfl⟩ := callFor_append.mp hc <;>
    obtain hc' | ⟨rfl, hr⟩ := callFor_append.mp hc'
    case inl.inl => exact hi.single h i j hc hc' hf hf'
    case inl.inr => exact absurd (hp i <| hr ▸ hc) hf
    case inr.inl => exact absurd (hp j hc') hf'
    case inr.inr => rfl
  read h i salt hc hr he := by
    obtain hc | ⟨rfl, _⟩ := callFor_append.mp hc
    case inr => simp [hi.fresh _ le_rfl] at hr
    refine (hi.read h i salt hc hr he).imp_right fun hu j hc' => ?_
    obtain hc' | ⟨_, rfl⟩ := callFor_append.mp hc'
    case inl => exact hu j hc'
    case inr => simp [hp i hc] at hr
  submitted i hs := by
    obtain ⟨h, hc, hm, hu, hf⟩ := hi.submitted i hs
    refine ⟨h, callFor_append.mpr (.inl hc), hm, fun j hj hc' => ?_, hf⟩
    obtain hc' | ⟨rfl, _⟩ := callFor_append.mp hc'
    case inl => exact hu j hj hc'
    case inr => exact absurd hc.lt hj.asymm
  nodup := hi.nodup

-- A call goes on. If it is finished now, then its hash is not in the map any longer.
theorem Inv.move {p : Phase} {m : Bytes32 → Option (BitVec 32)} (hi : Inv cfg s)
    (hc : s.CallFor h i) (hf : s.phase i ≠ .finished)
    (hm : ∀ h', m h' ≠ none → s.relayerHash h' ≠ none ∧ (p = .finished → h' ≠ h))
    (hs : i ∈ s.submitted → p = .returning ∨ p = .finished)
    (hr : ∀ salt, p = .read salt → h = cfg.addressHash salt →
      h ∈ s.issued ∧ ∀ j, s.CallFor h j → j = i) :
    Inv cfg { s with phase := update s.phase i p, relayerHash := m } := by
  have unfinished : ∀ j, update s.phase i p j ≠ .finished → s.phase j ≠ .finished := by
    intro j hj
    by_cases he : j = i
    case pos => exact he ▸ hf
    case neg => simpa [he] using hj
  constructor
  case fresh =>
    intro j hl
    have he : j ≠ i := (hc.lt.trans_le hl).ne'
    simpa [he] using hi.fresh j hl
  case issued => exact fun h' hm' => hi.issued h' (hm h' hm').left
  case mapped =>
    intro h' j hm' hc'
    obtain ⟨hm', hne⟩ := hm h' hm'
    by_cases he : j = i
    case pos =>
      subst he
      simpa using fun hp => hne hp (hc'.unique hc)
    case neg => simpa [he] using hi.mapped h' j hm' hc'
  case single =>
    intro h' j k hj hk hfj hfk
    exact hi.single h' j k hj hk (unfinished j hfj) (unfinished k hfk)
  case read =>
    intro h' j salt hc' hp' he'
    by_cases he : j = i
    case pos =>
      subst he
      cases hc.unique hc'
      exact hr salt (by simpa using hp') he'
    case neg => exact hi.read h' j salt hc' (by simpa [he] using hp') he'
  case submitted =>
    intro j hj
    obtain ⟨h', hc', his, hu, hf'⟩ := hi.submitted j hj
    refine ⟨h', hc', his, hu, ?_⟩
    by_cases he : j = i
    case pos => simpa [he] using hs (he ▸ hj)
    case neg => simpa [he] using hf'
  case nodup => exact hi.nodup

theorem Inv.not_submitted (hi : Inv cfg s) (hr : s.phase i ≠ .returning)
    (hf : s.phase i ≠ .finished) : i ∉ s.submitted := by
  intro hs
  obtain ⟨_, _, _, _, hp⟩ := hi.submitted i hs
  exact hp.elim hr hf

theorem lookUp_inv {known : Bool} (hi : Inv cfg s)
    (hp : ∀ h, s.CallFor h i → s.relayerHash h = none → h ≠ cfg.addressHash 0) :
    Inv cfg (lookUp s i known) := by
  rw [lookUp]
  split
  case h_2 => exact hi
  case h_1 request hr hs =>
    have hc : s.CallFor request.relaySwap.relayerHash i := ⟨request, hr, rfl⟩
    have hf : s.phase i ≠ .finished := by simp [hs]
    cases known
    case false => exact hi.move hc hf (fun _ hm => ⟨hm, by simp⟩) (by simp) (by simp)
    case true  =>
      refine hi.move hc hf (fun _ hm => ⟨hm, by simp⟩)
        (absurd · <| hi.not_submitted (by simp [hs]) hf) ?_
      intro salt hk he
      have hk : (s.relayerHash request.relaySwap.relayerHash).getD 0 = salt := Phase.read.inj hk
      -- A hash that is read was issued, and no call for it is finished.
      have hm : s.relayerHash request.relaySwap.relayerHash ≠ none := by
        intro hn
        rw [hn, Option.getD_none] at hk
        exact hp _ hc hn (hk ▸ he)
      exact ⟨hi.issued _ hm, fun j hj => hi.single _ j i hj hc (hi.mapped _ j hm hj) hf⟩

theorem validateAndSend_inv {sent : Bool} (hi : Inv cfg s) :
    Inv cfg (validateAndSend cfg s i sent) := by
  rw [validateAndSend]
  split
  case h_2 => exact hi
  case h_1 request salt hr hs =>
    have hc : s.CallFor request.relaySwap.relayerHash i := ⟨request, hr, rfl⟩
    have hf : s.phase i ≠ .finished := by simp [hs]
    have hn : i ∉ s.submitted := hi.not_submitted (by simp [hs]) hf
    have hm := hi.move (p := .returning) hc hf (fun _ hm => ⟨hm, by simp⟩) (by simp) (by simp)
    dsimp only
    split
    case isFalse   => exact hm
    case isTrue hv =>
      have hh := validateClaimRequest_ok hv.left |>.hash
      obtain ⟨his, hu⟩ := hi.read _ i salt hc hs hh
      refine { hm with submitted := ?submitted, nodup := ?nodup }
      case nodup => exact List.nodup_append_comm.mp <| List.nodup_cons.mpr ⟨hn, hi.nodup⟩
      case submitted =>
        intro j hj
        obtain hj | rfl := by simpa using hj
        case inl => exact hm.submitted j hj
        case inr => exact ⟨_, hc, his, fun k hk hc' => hk.ne (hu k hc'), .inl (by simp)⟩

theorem clearRelayerAddressHash_inv (hi : Inv cfg s) : Inv cfg (clearRelayerAddressHash s i) := by
  rw [clearRelayerAddressHash]
  split
  case h_2 => exact hi
  case h_1 request hr hs =>
    have hc : s.CallFor request.relaySwap.relayerHash i := ⟨request, hr, rfl⟩
    refine hi.move hc (by simp [hs]) ?_ (by simp) (by simp)
    intro h hm
    by_cases he : h = request.relaySwap.relayerHash
    case pos => simp [he] at hm
    case neg => exact ⟨by simpa [he] using hm, fun _ => he⟩

theorem step_inv {input : Input} (hi : Inv cfg s) (hp : Proper cfg s input) :
    Inv cfg (step cfg s input) := by
  cases input
  case getRelayerAddressHash salt =>
    cases salt
    case none      => exact hi
    case some salt => exact getRelayerAddressHash_inv hi hp
  case handleRelayClaimRequest => exact handleRelayClaimRequest_inv hi hp
  case lookUp                  => exact lookUp_inv hi hp
  case validateAndSend         => exact validateAndSend_inv hi
  case clearRelayerAddressHash => exact clearRelayerAddressHash_inv hi

theorem inv_run {is : List Input} (hp : Along (step cfg) (Proper cfg) is {}) :
    Inv cfg (run (step cfg) is {}) :=
  run_invariant (fun _ _ => step_inv) inv_init hp

-- A transaction is only submitted for the first call for a hash that was issued.
theorem relayer_hash_single_use {is : List Input} (hp : Along (step cfg) (Proper cfg) is {}) :
    let s := run (step cfg) is {}
    (∀ i ∈ s.submitted, ∃ h, s.CallFor h i ∧ h ∈ s.issued ∧ ∀ j < i, ¬s.CallFor h j) ∧
    (∀ h i j, i ∈ s.submitted → j ∈ s.submitted → s.CallFor h i → s.CallFor h j → i = j) ∧
    s.submitted.Nodup := by
  intro s
  have hi : Inv cfg s := inv_run hp
  have first : ∀ i ∈ s.submitted, ∃ h, s.CallFor h i ∧ h ∈ s.issued ∧ ∀ j < i, ¬s.CallFor h j := by
    intro i hs
    obtain ⟨h, hc, hm, hu, _⟩ := hi.submitted i hs
    exact ⟨h, hc, hm, hu⟩
  refine ⟨first, ?_, hi.nodup⟩
  intro h i j hsi hsj hci hcj
  obtain ⟨_, hc, _, hui⟩ := first i hsi
  cases hc.unique hci
  obtain ⟨_, hc, _, huj⟩ := first j hsj
  cases hc.unique hcj
  rcases lt_trichotomy i j with hl | he | hl
  case inl     => exact absurd hci <| huj i hl
  case inr.inl => exact he
  case inr.inr => exact absurd hcj <| hui j hl

namespace Sample

-- The hash of a short text is the number that its bytes stand for.
def config : Config where
  recovery        := { keccak256 bs    := .ofNat 256 <| bs.foldl (256 * · + ·.toNat) 0
                       recover _ _ _ _ := some 0xB0B }
  checkCode _     := true
  ourAddress      := 0x4E1A7E
  swapCreatorAddr := 0x5C

def requestFor (salt : BitVec 32) : RelayClaimRequest where
  offerID   := none
  relaySwap := ⟨⟨0xA11CE, 0xB0B, 1, 2, 1100, 1200, native, 2 * 10 ^ 16, 0⟩, 10 ^ 16,
    config.addressHash salt, 0x5C⟩
  secret    := 5
  signature := ⟨3, 4, 27⟩

end Sample

-- The hash of the zero salt is accepted without having been issued, and two calls for an issued
-- hash are accepted if both read its salt before one of them returns.
theorem relayer_hash_reused :
    (∃ s, s = run (step Sample.config) [.handleRelayClaimRequest (Sample.requestFor 0),
        .lookUp 0 true, .validateAndSend 0 true] {} ∧
      s.submitted = [0] ∧ s.issued = []) ∧
    ∃ s, s = run (step Sample.config) [.getRelayerAddressHash (some 7),
        .handleRelayClaimRequest (Sample.requestFor 7),
        .handleRelayClaimRequest (Sample.requestFor 7),
        .lookUp 0 true, .lookUp 1 true, .validateAndSend 0 true, .validateAndSend 1 true] {} ∧
      s.submitted = [0, 1] ∧ s.issued = [Sample.config.addressHash 7] :=
  ⟨⟨_, rfl, by decide, by decide⟩, _, rfl, by decide, by decide⟩

-- The second call for a hash comes when the first one has returned.
theorem relayer_hash_single_use_twice :
    let s := run (step Sample.config) [.getRelayerAddressHash (some 7),
      .handleRelayClaimRequest (Sample.requestFor 7), .lookUp 0 true, .validateAndSend 0 true,
      .clearRelayerAddressHash 0, .handleRelayClaimRequest (Sample.requestFor 7),
      .lookUp 1 true, .validateAndSend 1 true] {}
    s.submitted = [0] ∧
    ∀ i ∈ s.submitted, ∃ h, s.CallFor h i ∧ h ∈ s.issued ∧ ∀ j < i, ¬s.CallFor h j := by
  refine ⟨by decide, (relayer_hash_single_use ?_).left⟩
  refine ⟨?_, ?_, ?_, trivial, trivial, ?_, ?_, trivial, trivial⟩
  case refine_1 => rintro _ ⟨_, ⟨⟩, _⟩
  case refine_2 => rintro _ ⟨_, ⟨⟩, _⟩
  case refine_4 =>
    rintro (_ | _) ⟨_, hr, _⟩
    case zero => rfl
    case succ => cases hr
  all_goals
    rintro _ ⟨_, ⟨⟩, rfl⟩ _
    decide

end Backend
