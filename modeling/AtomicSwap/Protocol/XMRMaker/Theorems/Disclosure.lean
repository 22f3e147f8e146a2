import AtomicSwap.Protocol.XMRMaker.Theorems.Relaying

open Handler Relayer Ethereum Ethereum.SwapCreator

namespace Ethereum.SwapCreator

-- What a relayed claim was signed for.
def Call.relaySwap : Call → Option RelaySwap
  | claimRelayer _ relaySwap .. => some relaySwap
  | _                           => none

end Ethereum.SwapCreator

namespace XMRMaker

variable {σ : Type}

-- A request that was sent to a peer, with the state outside at that moment. Whoever gets it knows
-- the secret of the maker.
structure Sent (σ : Type) where
  state   : σ
  peer    : PeerID
  request : RelayClaimRequest

-- The same environment, with a list of all requests.
def ClaimEnv.recording (w : ClaimEnv σ) : ClaimEnv (σ × List (Sent σ)) where
  ec                    := w.ec.aside (List (Sent σ))
  host                  := w.host
  key                   := w.key
  discoverRelayers      := aside w.discoverRelayers
  queryRelayerAddress p := aside (w.queryRelayerAddress p)
  submitRelayRequest p req q :=
    ((w.submitRelayRequest p req q.fst).fst,
      ((w.submitRelayRequest p req q.fst).snd, q.snd ++ [⟨q.fst, p, req⟩]))
  writeSwapToDB fee     := aside (w.writeSwapToDB fee)

variable {s : ClaimSwap} {w : ClaimEnv σ} {p : PeerID} {ps ps₁ ps₂ : List PeerID}
  {q q₁ q₂ q₃ : σ × List (Sent σ)}

-- A request goes to a peer right after it has answered, and is signed for its answer. Only the
-- counterparty is told which offer it is about.
def Sent.Solicited (s : ClaimSwap) (w : ClaimEnv σ) (m : Sent σ) : Prop :=
  ∃ y relayerHash req, w.queryRelayerAddress m.peer y = (some relayerHash, m.state) ∧
    createRelayClaimRequest w.host w.key (relaySwapOf s relayerHash) s.secret = .ok req ∧
    m.request = { req with offerID := if m.peer = s.peerID then some s.offerID else none }

-- Only some of the peers have got a request in between, in this order.
def Discloses (s : ClaimSwap) (w : ClaimEnv σ) (ps : List PeerID) (q q' : σ × List (Sent σ)) :
    Prop :=
  ∃ new, q'.snd = q.snd ++ new ∧ (new.map (·.peer)).Sublist ps ∧ ∀ m ∈ new, m.Solicited s w

theorem Discloses.refl : Discloses s w ps q q :=
  ⟨[], by simp⟩

theorem Discloses.mono (h : Discloses s w ps₁ q₁ q₂) (hp : ps₁.Sublist ps₂) :
    Discloses s w ps₂ q₁ q₂ := by
  obtain ⟨new, hn, hl, hs⟩ := h
  exact ⟨new, hn, hl.trans hp, hs⟩

theorem Discloses.trans (h₁ : Discloses s w ps₁ q₁ q₂) (h₂ : Discloses s w ps₂ q₂ q₃) :
    Discloses s w (ps₁ ++ ps₂) q₁ q₃ := by
  obtain ⟨new₁, hn₁, hl₁, hs₁⟩ := h₁
  obtain ⟨new₂, hn₂, hl₂, hs₂⟩ := h₂
  refine ⟨new₁ ++ new₂, by rw [hn₂, hn₁, List.append_assoc], ?_, fun m hm => ?_⟩
  · rw [List.map_append]
    exact hl₁.append hl₂
  · exact (List.mem_append.mp hm).elim (hs₁ m) (hs₂ m)

-- What does not send anything.
theorem discloses_of_keeps {α : Type} {x : Handler (σ × List (Sent σ)) ClaimError α}
    (h : Keeps Prod.snd x) : Moves (Discloses s w []) x :=
  fun q => ⟨[], by simpa using h q, by simp, by simp⟩

theorem submitClaimToRelayer_discloses {offerID : Option Bytes32}
    (ho : offerID = if p = s.peerID then some s.offerID else none) :
    Moves (Discloses s w [p]) (submitClaimToRelayer s w.recording p offerID) := by
  intro q
  have hp : (submitClaimToRelayer s w.recording p offerID).Post q fun _ => Discloses s w [p] q := by
    rw [submitClaimToRelayer, post_askFor_bind]
    refine ⟨fun _ => .refl, fun relayerHash hq => ?_⟩
    rw [post_ofExcept_bind]
    refine ⟨fun _ _ => .refl, fun req hr => ?_⟩
    refine ⟨[⟨_, p, { req with offerID }⟩], rfl, by simp, ?_⟩
    rintro m hm
    obtain rfl := List.mem_singleton.mp hm
    refine ⟨q.fst, relayerHash, req, Prod.ext hq rfl, Except.mapError_eq_ok.mp hr, ?_⟩
    rw [ho]
  exact hp

theorem pollRounds_keeps {tx : Bytes32} {n : ℕ} :
    Keeps Prod.snd
      (pollRounds s.swapCreatorAddr s.contractSwapID s.secret w.recording.ec tx n) := by
  induction n
  case zero      => exact keeps_ofExcept
  case succ n hi =>
    refine keeps_bind (fun _ => rfl) fun r => ?_
    split
    · exact keeps_ofExcept
    · exact keeps_bind (fun _ => rfl) fun _ => hi
    · exact keeps_ofExcept

theorem relayClaim_discloses {offerID : Option Bytes32}
    (ho : offerID = if p = s.peerID then some s.offerID else none) :
    Moves (Discloses s w [p]) (relayClaim s w.recording p offerID) := by
  have hk (tx : Bytes32) : Keeps Prod.snd (waitForRelayed s w.recording tx) := pollRounds_keeps
  exact moves_seq (fun _ _ h => h) (fun _ _ _ h₁ h₂ => (h₁.trans h₂).mono (by simp))
    (submitClaimToRelayer_discloses ho) fun tx => discloses_of_keeps (hk tx)

theorem tryRelayers_discloses {relayers : List PeerID} :
    Moves (Discloses s w <| relayers.filter (· ≠ s.peerID))
      (tryRelayers s w.recording relayers) := by
  induction relayers
  case nil            => exact fun _ => .refl
  case cons p rest hi =>
    rw [tryRelayers]
    by_cases hp : p = s.peerID
    case pos => simpa [hp] using hi
    case neg =>
      rw [if_neg hp, List.filter_cons_of_pos (by simpa using hp)]
      refine moves_seq (fun _ _ h => h.mono (by simp)) (fun _ _ _ h₁ h₂ => h₁.trans h₂)
        (moves_attempt <| relayClaim_discloses (by rw [if_neg hp])) fun r => ?_
      cases r
      case ok    => exact fun _ => .refl
      case error => exact hi

-- The advertised relayers that the maker would ask.
def ClaimEnv.relayersAt (w : ClaimEnv σ) (s : ClaimSwap) (x : σ) : List PeerID :=
  ((w.discoverRelayers x).fst.getD []).filter (· ≠ s.peerID)

theorem claimWithAdvertisedRelayers_discloses :
    Discloses s w (w.relayersAt s q.fst) q (claimWithAdvertisedRelayers s w.recording q).snd := by
  have hp : (claimWithAdvertisedRelayers s w.recording).Post q fun _ =>
      Discloses s w (w.relayersAt s q.fst) q := by
    rw [claimWithAdvertisedRelayers, post_askFor_bind]
    refine ⟨fun _ => .refl, fun relayers hq => ?_⟩
    rw [post_throwIf_bind]
    refine ⟨fun _ => .refl, fun _ => ?_⟩
    have hr : w.relayersAt s q.fst = relayers.filter (· ≠ s.peerID) := by
      rw [ClaimEnv.relayersAt, show (w.discoverRelayers q.fst).fst = some relayers from hq,
        Option.getD_some]
    rw [hr]
    exact tryRelayers_discloses _
  exact hp

-- The counterparty is only asked if no other relayer has claimed.
theorem relayOrFallBack_discloses :
    Discloses s w (w.relayersAt s q.fst ++ [s.peerID]) q (relayOrFallBack s w.recording q).snd ∧
    ∀ receipt, (claimWithAdvertisedRelayers s w.recording q).fst = .ok receipt →
      Discloses s w (w.relayersAt s q.fst) q (relayOrFallBack s w.recording q).snd := by
  have ha := claimWithAdvertisedRelayers_discloses (s := s) (w := w) (q := q)
  rcases hr : claimWithAdvertisedRelayers s w.recording q with ⟨e | receipt, q₁⟩
  all_goals rw [hr] at ha
  case error =>
    have hq : relayOrFallBack s w.recording q = relayClaimWithXMRTaker s w.recording q₁ := by
      simp [relayOrFallBack, attempt, Bind.bind, hr]
    rw [hq]
    exact ⟨ha.trans <| relayClaim_discloses (by rw [if_pos rfl]) q₁, by simp⟩
  case ok =>
    have hq : relayOrFallBack s w.recording q = (.ok receipt, q₁) := by
      simp [relayOrFallBack, attempt, Bind.bind, Pure.pure, hr]
    rw [hq]
    exact ⟨ha.mono <| List.sublist_append_left .., fun _ _ => ha⟩

theorem claimWithRelay_sent :
    (claimWithRelay s w.recording q).snd.snd = (relayOrFallBack s w.recording q).snd.snd := by
  have hk (receipt : Receipt) : Keeps Prod.snd (do
      askFor ClaimError.db (w.recording.writeSwapToDB Coins.relayerFeeETH)
      return receipt) :=
    keeps_bind (fun _ => rfl) fun _ _ => rfl
  rw [claimWithRelay]
  simp only [Bind.bind]
  rcases relayOrFallBack s w.recording q with ⟨_ | receipt, q₁⟩
  case error => rfl
  case ok    => exact hk receipt q₁

-- Whatever the peers answer, the secret goes to advertised relayers first, in the order in which
-- they were found, and to the counterparty at most once, after all of them have failed. Each of
-- them gets a request that is signed for what it has answered itself.
theorem relay_disclosure (s : ClaimSwap) (w : ClaimEnv σ) (x : σ) :
    let sent := (claimWithRelay s w.recording (x, [])).snd.snd
    (sent.map (·.peer)).Sublist (w.relayersAt s x ++ [s.peerID]) ∧ s.peerID ∉ w.relayersAt s x ∧
    (∀ m ∈ sent, m.Solicited s w) ∧
    ∀ receipt, (claimWithAdvertisedRelayers s w.recording (x, [])).fst = .ok receipt →
      s.peerID ∉ sent.map (·.peer) := by
  intro sent
  obtain ⟨⟨new, hn, hl, hs⟩, ha⟩ := relayOrFallBack_discloses (s := s) (w := w) (q := (x, []))
  have hp : s.peerID ∉ w.relayersAt s x := by simp [ClaimEnv.relayersAt]
  obtain rfl : sent = new := claimWithRelay_sent.trans hn
  refine ⟨hl, hp, hs, fun receipt hr => ?_⟩
  obtain ⟨new, hn, hl, -⟩ := ha receipt hr
  obtain rfl : sent = new := claimWithRelay_sent.trans hn
  exact fun hm => hp (hl.subset hm)

section Paid

-- All requests that are added to the list were asked for.
def Asked (s : ClaimSwap) (w : ClaimEnv σ) (q q' : σ × List (Sent σ)) : Prop :=
  ∃ new, q'.snd = q.snd ++ new ∧ ∀ m ∈ new, m.Solicited s w

theorem Asked.refl (q : σ × List (Sent σ)) : Asked s w q q :=
  ⟨[], by simp⟩

theorem Asked.trans (h₁ : Asked s w q₁ q₂) (h₂ : Asked s w q₂ q₃) : Asked s w q₁ q₃ := by
  obtain ⟨new₁, hn₁, hs₁⟩ := h₁
  obtain ⟨new₂, hn₂, hs₂⟩ := h₂
  refine ⟨new₁ ++ new₂, by rw [hn₂, hn₁, List.append_assoc], fun m hm => ?_⟩
  exact (List.mem_append.mp hm).elim (hs₁ m) (hs₂ m)

theorem Sent.Solicited.fee {m : Sent σ} (h : m.Solicited s w) :
    m.request.relaySwap.pack.fee.toNat = 10 ^ 16 := by
  obtain ⟨_, _, req, -, hr, hm⟩ := h
  simp only [createRelayClaimRequest, Except.bind_ok_iff, Except.pure_ok_iff] at hr
  obtain ⟨_, -, rfl⟩ := hr
  rw [hm]
  rfl

variable {c : Chain σ} {P : Block → Prop} {x x' : σ} {receipt : Receipt} {earlier : List (Sent σ)}

end Paid

namespace RelaySample

end RelaySample

end XMRMaker
