import AtomicSwap.Protocol.Theorems.Sweep
import AtomicSwap.Protocol.XMRMaker.Theorems.Notifications
import AtomicSwap.Protocol.XMRTaker.Theorems.Notifications

open Ethereum SwapCreator Machine Function Swap Swap.StatusManager

namespace Notifications

namespace Party

variable {party : Party}

-- The loop of the swap has ended.
def Stopped : Party → Prop
  | taker m      => m.control = .stopped
  | maker m      => m.control = .stopped
  | completeSwap => True

instance : Decidable party.Stopped :=
  match party with
  | taker m      => inferInstanceAs (Decidable (m.control = .stopped))
  | maker m      => inferInstanceAs (Decidable (m.control = .stopped))
  | completeSwap => .isTrue trivial

def Expects : Party → Prop
  | taker m => m.Expects
  | _       => True

def stages : Party → ℕ
  | taker m      => m.swap.mark.fst
  | maker m      => m.swap.mark.fst
  | completeSwap => 0

-- How many attempts to sweep a channel has room for, beside the stages of the swap.
def sweeps : Party → ℕ
  | taker _      => 2
  | maker _      => 3
  | completeSwap => 5

def fundsLocked : Party → Bool
  | taker m      => m.swap.fundsLocked
  | maker m      => m.xmrLocked
  | completeSwap => false

theorem stages_pos_taker {m : XMRTaker.Loop} : 0 < (taker m).stages := by
  simp only [stages, XMRTaker.SwapState.mark]
  split <;> simp

theorem stages_pos_maker {m : XMRMaker.Loop} : 0 < (maker m).stages := by
  simp only [stages, XMRMaker.SwapState.mark]
  split <;> simp

theorem stages_add_sweeps : party.stages + party.sweeps < statusChSize := by
  cases party
  case taker m =>
    simp only [stages, sweeps, XMRTaker.SwapState.mark, statusChSize]
    split <;> omega
  case maker m =>
    simp only [stages, sweeps, XMRMaker.SwapState.mark, statusChSize]
    split <;> omega
  case completeSwap => decide

end Party

namespace Process

variable {bt : XMRTaker.Backend} {bm : XMRMaker.Backend} {p : Process} {id : Bytes32} {n : ℕ}
  {party before after : Party} {ss : List Status}

-- No status of an earlier swap is left in the channel, and none can be added.
structure Free (p : Process) (id : Bytes32) : Prop where
  empty   : p.statusManager.getStatusChan id = []
  stopped : ∀ r ∈ p.swaps id, r.party.Stopped

instance : Decidable (p.Free id) :=
  decidable_of_iff ((p.statusManager.getStatusChan id = []) ∧ ∀ r ∈ p.swaps id, r.party.Stopped)
    ⟨fun h => ⟨h.left, h.right⟩, fun h => ⟨h.empty, h.stopped⟩⟩

-- A swap only begins if the channel of its offer ID is free, and the Monero is not swept time and
-- again.
def Meets (p : Process) : Input → Prop
  | .takerStart _ id _ _ _ _ _      => p.Free id
  | .makerStart _ offer _ _         => p.Free offer.id
  | .takerOngoing _ info _ _ _      => p.Free info.offerID
  | .makerOngoing _ _ _ _ info      => p.Free info.offerID
  | .completeSwap id _              => p.Free id
  | .taker id _ (.sweeping true _)  =>
    (p.statusManager.getStatusChan id).count .sweepingXMR < 2
  | .maker id _ (.sweeping true _)  =>
    (p.statusManager.getStatusChan id).count .sweepingXMR < 3
  | _                               => True

instance {i : Input} : Decidable (p.Meets i) := by
  unfold Meets
  split <;> infer_instance

end Process

variable {bt : XMRTaker.Backend} {bm : XMRMaker.Backend} {p : Process} {id : Bytes32} {n k : ℕ}
  {party before after : Party} {rs : List Running} {sm : StatusManager} {ss c : List Status}

-- What the channel of an offer ID may hold, if only the newest of its swaps still runs.
structure Roomy (rs : List Running) (c : List Status) : Prop where
  unblocked : ∀ r ∈ rs, r.blocked = false
  expects   : ∀ r ∈ rs, r.party.Expects
  older     : ∀ r ∈ rs.tail, r.party.Stopped
  unused    : rs = [] → c = []
  bounded   : ∀ r ∈ rs.head?, Bounded r.party.stages r.party.sweeps c

namespace Roomy

variable (h : Roomy rs c)
include h

theorem length : c.length < statusChSize := by
  cases rs
  case nil      => simp [h.unused rfl, statusChSize]
  case cons r _ => exact (h.bounded r rfl).length Party.stages_add_sweeps

theorem cons {c' : List Status} (hs : ∀ r ∈ rs, r.party.Stopped) (he : party.Expects)
    (hb : Bounded party.stages party.sweeps c') : Roomy (⟨party, false⟩ :: rs) c' where
  unblocked := by simpa using h.unblocked
  expects   := by simpa [he] using h.expects
  older     := hs
  unused    := by simp
  bounded   := by simpa using hb

theorem set_newest {c' : List Status} (hn : rs ≠ []) (he : after.Expects)
    (hb : Bounded after.stages after.sweeps c') : Roomy (rs.set 0 ⟨after, false⟩) c' where
  unblocked r hr := (List.mem_or_eq_of_mem_set hr).elim (h.unblocked r) (by rintro rfl; rfl)
  expects r hr   := (List.mem_or_eq_of_mem_set hr).elim (h.expects r) (by rintro rfl; exact he)
  older          := by
    cases rs
    case nil  => simp
    case cons => exact h.older
  unused hr      := absurd (by simpa using hr) hn
  bounded        := by
    cases rs
    case nil  => simp
    case cons => simpa using hb

theorem set_older (he : after.Expects) (hs : after.Stopped) :
    Roomy (rs.set (n + 1) ⟨after, false⟩) c where
  unblocked r hr := (List.mem_or_eq_of_mem_set hr).elim (h.unblocked r) (by rintro rfl; rfl)
  expects r hr   := (List.mem_or_eq_of_mem_set hr).elim (h.expects r) (by rintro rfl; exact he)
  older          := by
    cases rs
    case nil => simp
    case cons r rs =>
      intro r' hr
      exact (List.mem_or_eq_of_mem_set hr).elim (h.older r') (by rintro rfl; exact hs)
  unused hr      := h.unused (by simpa using hr)
  bounded        := by
    cases rs
    case nil => simp
    case cons r rs => exact h.bounded

theorem nil : Roomy rs [] :=
  ⟨h.unblocked, h.expects, h.older, fun _ => rfl, fun _ _ => .nil⟩

end Roomy

namespace Process

theorem roomy_empty : Roomy (empty.swaps id) (empty.statusManager.getStatusChan id) := by
  constructor <;> simp [empty, newStatusManager, getStatusChan]

-- All channels have room.
def Roomy (p : Process) : Prop :=
  ∀ id, Notifications.Roomy (p.swaps id) (p.statusManager.getStatusChan id)

theorem Roomy.update (h : p.Roomy) (hc : p.statusManager.Changes id c sm)
    (hr : Notifications.Roomy rs c) :
    Roomy { statusManager := sm, swaps := Function.update p.swaps id rs } := by
  intro id'
  by_cases hi : id' = id
  case pos => simpa [hi, hc.same] using hr
  case neg => simpa [hi, hc.other id' hi] using h id'

theorem launch_roomy (h : p.Roomy) (hf : p.Free id) (hp : Pushes k ss party.stages)
    (hk : k ≤ party.stages) (he : party.Expects) : (p.launch id party ss).Roomy := by
  unfold launch
  split
  case isTrue => exact h
  have hs := party.stages_add_sweeps
  have hc : (p.statusManager.getStatusChan id).count .sweepingXMR < party.sweeps := by
    cases party <;> simp [hf.empty, Party.sweeps]
  have hb : Bounded k party.sweeps (p.statusManager.getStatusChan id) := hf.empty ▸ .nil
  obtain ⟨sm, c, ho, hc, hb⟩ := hp.fits_bounded hb (by omega) fun _ => hc
  rw [ho]
  exact h.update hc ((h id).cons hf.stopped he hb)

-- The statuses that a swap pushes, and the swap after that.
structure Advances (p : Process) (id : Bytes32) (before : Party) (ss : List Status)
    (after : Party) : Prop where
  pushes  : Pushes before.stages ss after.stages
  expects : after.Expects
  sweeps  : after.sweeps = before.sweeps
  room    : .sweepingXMR ∈ ss →
    (p.statusManager.getStatusChan id).count .sweepingXMR < before.sweeps
  stopped : before.Stopped → after.Stopped ∧ ∀ s ∈ ss, s.isOngoing = false

theorem advance_roomy (h : p.Roomy) (hn : (p.swaps id)[n]? = some ⟨before, false⟩)
    (ha : p.Advances id before ss after) : (p.advance id n before after ss).Roomy := by
  have hr := h id
  cases n
  case zero =>
    have hb : Bounded before.stages before.sweeps (p.statusManager.getStatusChan id) :=
      hr.bounded ⟨before, false⟩ (by simpa [List.head?_eq_getElem?] using hn)
    obtain ⟨sm, c, ho, hc, hb'⟩ := ha.pushes.fits_bounded hb Party.stages_add_sweeps ha.room
    rw [advance, ho]
    exact h.update hc <| hr.set_newest (by rintro he; simp [he] at hn) ha.expects (ha.sweeps ▸ hb')
  case succ n =>
    -- The swap has been followed by another one, so that it has stopped.
    have hs : before.Stopped :=
      hr.older ⟨before, false⟩ (List.mem_of_getElem? (i := n) (by simpa using hn))
    obtain ⟨hs', hf⟩ := ha.stopped hs
    obtain ⟨sm, c, ho, hc, hc'⟩ := fits_final hr.length hf
    rw [advance, ho]
    refine h.update hc ?_
    split at hc' <;> subst hc'
    case isTrue  => exact hr.set_older ha.expects hs'
    case isFalse => exact hr.nil.set_older ha.expects hs'

theorem taker_advances {m : XMRTaker.Loop} {i : XMRTaker.Input} (he : m.Expects)
    (hm : p.Meets (.taker id n i)) :
    p.Advances id (.taker m) (m.pushes bt i) (.taker (m.step bt i)) where
  pushes  := (XMRTaker.Loop.step_logs he).marks.pushes
  expects := (XMRTaker.Loop.step_logs he).expects
  sweeps  := rfl
  room h  := by
    obtain ⟨written, rfl⟩ := XMRTaker.Loop.sweeping_of_mem_pushes h
    exact hm
  stopped h :=
    ⟨(XMRTaker.Loop.step_halted (.inl h)).trans h, by simp [XMRTaker.Loop.pushes_stopped h]⟩

theorem maker_advances {m : XMRMaker.Loop} {i : XMRMaker.Input} (hm : p.Meets (.maker id n i)) :
    p.Advances id (.maker m) (m.pushes bm i) (.maker (m.step bm i)) where
  pushes  := XMRMaker.Loop.step_logs.pushes
  expects := trivial
  sweeps  := rfl
  room h  := by
    obtain ⟨written, rfl⟩ := XMRMaker.Loop.sweeping_of_mem_pushes h
    exact hm
  stopped h := ⟨XMRMaker.Loop.step_stopped h, XMRMaker.Loop.pushes_stopped h⟩

theorem step_roomy {i : Input} (h : p.Roomy) (hm : p.Meets i) : (p.step bt bm i).Roomy := by
  cases i <;> simp only [step]
  case takerStart =>
    split
    case h_1 s hs =>
      rw [(XMRTaker.newSwapStateFromStart_ok hs).right.right]
      exact launch_roomy h hm (.stage rfl (by simp) Party.stages_pos_taker) (by simp) trivial
    case h_2 => exact h
  case makerStart =>
    split
    case h_1 s hs =>
      rw [XMRMaker.newSwapStateFromStart_status hs]
      exact launch_roomy h hm (.stage rfl (by simp) Party.stages_pos_maker) (by simp) trivial
    case h_2 => exact h
  case takerOngoing =>
    split
    case h_1 => exact launch_roomy h hm .nil le_rfl trivial
    case h_2 => exact h
  case makerOngoing =>
    split
    case h_1 => exact launch_roomy h hm .nil le_rfl trivial
    case h_2 => exact h
  case completeSwap id alreadyClaimed =>
    cases alreadyClaimed
    case false => exact launch_roomy h hm (.sweep .nil (by simp)) le_rfl trivial
    case true  => exact launch_roomy h hm (.final (by simp) (by decide)) le_rfl trivial
  case taker id n i =>
    split
    case h_1 m hs =>
      exact advance_roomy h hs <| taker_advances ((h id).expects _ (List.mem_of_getElem? hs)) hm
    case h_2 => exact h
  case maker id n i =>
    split
    case h_1 m hs => exact advance_roomy h hs (maker_advances hm)
    case h_2 => exact h

-- No swap waits for room in its channel.
theorem pushes_find_room {is : List Input} (h : Along (step bt bm) Meets is empty) (id : Bytes32) :
    ∀ r ∈ (run (step bt bm) is empty).swaps id, r.blocked = false := by
  have hr : (run (step bt bm) is empty).Roomy :=
    run_invariant (fun _ _ => step_roomy) (fun _ => roomy_empty) h
  exact (hr id).unblocked

end Process

namespace Sample

open XMRMaker.Sample (host makerKey newLog)
open XMRTaker.Sample (startCalls)

-- The inputs of a swap whose transaction has the given nonce, up to the lock of the asset.
def locking (nonce : ℕ) : List XMRTaker.Input :=
  let sw := { XMRMaker.Sample.swap with nonce }
  [.event <| .keysReceived ⟨some { coeff := 1 }, true, sw.claimer, makerKey⟩,
    .keysChecked ⟨true, true, true⟩,
    .newSwapped (some ⟨true, [newLog sw (sw.swapID host)], 100⟩) (sw.swapID host) nonce true,
    .messageSent true]

-- The swaps with smaller nonces are left in the contract.
def stages (nonce : ℕ) (id : Bytes32) : Stage :=
  if ∃ n < nonce, id = SwapCreatorSwap.swapID host { XMRMaker.Sample.swap with nonce := n }
  then .pending else .invalid

def taking (nonce : ℕ) (is : List XMRTaker.Input) : List Input :=
  .takerStart startCalls 1 false (.wei { coeff := 5 * 10 ^ 18 }) { coeff := 5 } ethAssetETH
    (stages nonce) :: (locking nonce ++ is).map (.taker 1 0)

-- The stage of the swap cannot be read when it is cancelled, so that it is not refunded.
def failing (nonce : ℕ) : List Input :=
  taking nonce [.event .exit, .stageRead false, .completed true, .ctxDone]

def succeeding (nonce : ℕ) : List Input :=
  taking nonce [.event .xmrLocked, .stageRead true, .readySent true false, .event .ethClaimed,
    .sweeping true true, .swept true]

end Sample

namespace Process

open Notifications.Sample

theorem pushes_find_room_succeeding :
    let p := run (step XMRTaker.Sample.backend XMRMaker.Sample.backend) (succeeding 0) empty
    ∀ r ∈ p.swaps 1, r.blocked = false :=
  pushes_find_room (by decide +kernel) 1

-- Two failed swaps fill the channel for a third one.
theorem third_swap_blocked :
    let p := run (step XMRTaker.Sample.backend XMRMaker.Sample.backend)
      (failing 0 ++ failing 1 ++ succeeding 2) empty
    ∃ r ∈ p.swaps 1, r.blocked = true ∧ r.party.fundsLocked = true := by
  decide +kernel

end Process

end Notifications
