import AtomicSwap.Protocol.XMRMaker.Theorems.Initiate

open Ethereum SwapCreator

namespace XMRMaker

variable {b : Backend} {ec ec₀ : EthClient} {calls : Calls} {ic : InitiateCalls}
  {msg : NotifyETHLocked} {keys : SendKeysMessage} {s : SwapState} {address contract : Address}
  {id : Bytes32} {start : ℕ}

-- The logs of a contract about a swap are sent to the maker's channels.
structure Watches (s : SwapState) (address : Address) (id : Bytes32) : Prop where
  ready    : ∀ n, s.readyWatcher.Delivers (Event.ready id |>.toLog address n)
  refunded : ∀ n secret, s.refundedWatcher.Delivers (Event.refunded id secret |>.toLog address n)
  claimed  : ∀ n secret, s.claimedWatcher.Delivers (Event.claimed id secret |>.toLog address n)

theorem SwapState.Filters.watches (h : s.Filters contract start) :
    Watches s address id ↔ contract = address := by
  have ⟨hr, hf, hc⟩ := h
  constructor
  case mp =>
    intro hw
    have hd := hf ▸ hw.refunded start 0
    exact (hd.address (by simp [Event.toLog]) le_rfl).symm
  case mpr =>
    intro ha
    subst ha
    refine ⟨fun n => ?_, fun n secret => ?_, fun n secret => ?_⟩
    · exact hr ▸ EventFilter.delivers_of_wanted ⟨rfl, rfl, rfl⟩
    · exact hf ▸ EventFilter.delivers_of_wanted ⟨rfl, rfl, rfl⟩
    · exact hc ▸ EventFilter.delivers_of_wanted ⟨rfl, rfl, rfl⟩

-- The maker locks its funds for a swap of the contract that the message names, but its filters are
-- those of the contracts that were configured when it was started.
theorem watches_iff (h₀ : handleInitiateMessage b ec₀ ic keys = .ok s)
    (h : Locks b ec calls msg s) :
    let locked := (handleNotifyETHLocked b ec calls msg s).snd
    (Watches locked msg.address msg.contractSwapID ↔ b.swapCreatorAddr = msg.address) ∧
    ∀ b' newTxSender newSwapCreator ethSwapInfo info s', locked.recovery = some ethSwapInfo →
      newSwapStateFromOngoing b' newTxSender newSwapCreator s.offer ethSwapInfo info = .ok s' →
      s'.swapCreatorAddr = msg.address ∧ s'.contractSwapID = msg.contractSwapID ∧
      (Watches s' msg.address msg.contractSwapID ↔ b'.swapCreatorAddr = msg.address) := by
  have ⟨_, ⟨n, hf⟩, _⟩ := handleInitiateMessage_ok h₀
  have ⟨k, hv⟩ := h.contractView
  simp only [SwapState.contractView, Prod.mk.injEq] at hv
  have ⟨_, _, hr, hw₁, hw₂, hw₃⟩ := hv
  constructor
  · exact SwapState.Filters.watches
      ⟨hw₁.trans hf.ready, hw₂.trans hf.refunded, hw₃.trans hf.claimed⟩
  · intro b' _ _ ethSwapInfo info s' he hs
    have ⟨hid, ha, hf'⟩ := newSwapStateFromOngoing_ok hs
    cases hr.symm.trans he
    exact ⟨ha, hid, hf'.watches⟩

end XMRMaker

namespace XMRMaker.Sample

-- The daemon is configured with another deployment of the contract.
def otherBackend : Backend :=
  { backend with swapCreatorAddr := 0x5D }

def otherState : SwapState :=
  { state with
    readyWatcher    := newEventFilter 0x5D 90 readyTopic
    refundedWatcher := newEventFilter 0x5D 90 refundedTopic
    claimedWatcher  := newEventFilter 0x5D 90 claimedTopic }

theorem otherState_filters :
    let ec := client [newLog swap swapID]
    (handleNotifyETHLocked otherBackend ec calls (notify swap swapID) otherState).snd.Filters 0x5D
      90 :=
  ⟨by decide +kernel, by decide +kernel, by decide +kernel⟩

end XMRMaker.Sample

namespace XMRMaker

open XMRMaker.Sample

theorem watches_iff_swap :
    let ec := client [newLog swap swapID]
    Watches (handleNotifyETHLocked backend ec calls (notify swap swapID) state).snd swapCreatorAddr
      swapID :=
  (watches_iff initiated swap_locks).left.mpr rfl

theorem unwatched :
    let ec := client [newLog swap swapID]
    handleInitiateMessage otherBackend ec initiateCalls sendKeys = .ok otherState ∧
    Locks otherBackend ec calls (notify swap swapID) otherState ∧
    ¬Watches (handleNotifyETHLocked otherBackend ec calls (notify swap swapID) otherState).snd
      swapCreatorAddr swapID := by
  refine ⟨by decide +kernel, by decide +kernel, fun h => ?_⟩
  exact absurd (otherState_filters.watches.mp h) (by decide)

end XMRMaker
