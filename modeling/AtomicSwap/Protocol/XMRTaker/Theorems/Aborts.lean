import AtomicSwap.Protocol.XMRTaker.Instance
import AtomicSwap.Protocol.XMRTaker.Theorems.Locked

open Ethereum SwapCreator Handler Machine DB Function

namespace XMRTaker

theorem Fresh.next_none {s : SwapState} (h : Fresh s) (hs : s.info.status = .completedAbort) :
    s.nextExpectedEvent = .none := by
  rcases h.status with ⟨_, he⟩ | ⟨hn, _⟩
  · simp [hs] at he
  · exact hn

-- `lockAsset` finds the ID and the timeouts of the swap in the logs.
def ShowsSwap (receipt : Receipt) : Prop :=
  (firstOf getIDFromLog .swapIDNotFound receipt.logs).isOk ∧
  (firstOf getTimeoutsFromLog .timeoutsNotFound receipt.logs).isOk

instance (receipt : Receipt) : Decidable (ShowsSwap receipt) :=
  inferInstanceAs (Decidable (_ ∧ _))

-- Once both are found, the taker knows that its asset is locked, whatever fails then.
theorem recordSwap_locks {b : Backend} {s : SwapState} {receipt : Receipt} {nonce : ℤ} {put : Bool}
    (h : ShowsSwap receipt) :
    (recordSwap b nonce put receipt).Post s fun _ s' => s'.fundsLocked = true := by
  obtain ⟨hi, ht⟩ := h
  have hl : receipt.logs ≠ [] := fun hl => by simp [hl, firstOf, Except.isOk, Except.toBool] at hi
  have hr : (readSwap b nonce receipt).Post s fun _ s' => s'.fundsLocked = true := by
    refine post_throwIf_bind.mpr ⟨fun hn => absurd hn (by simpa using hl), fun _ => ?_⟩
    refine post_bind_bind.mpr <| post_modify_bind.mpr <| post_bind_bind.mpr ?_
    refine post_ofExcept_bind.mpr ⟨fun _ he => by simp [he, Except.isOk, Except.toBool] at hi, ?_⟩
    refine fun _ _ => post_pure_bind.mpr ?_
    refine post_ofExcept_bind.mpr ⟨fun _ he => by simp [he, Except.isOk, Except.toBool] at ht, ?_⟩
    refine fun _ _ => post_modify_bind.mpr <| post_modify_bind.mpr <| post_get_bind.mpr ?_
    refine post_ofOption_bind.mpr ⟨fun _ => rfl, fun _ _ => ?_⟩
    refine post_ofOption_bind.mpr ⟨fun _ => rfl, fun _ _ => ?_⟩
    exact post_ofExcept_bind.mpr ⟨fun _ _ => rfl, fun _ _ => post_modify_bind.mpr rfl⟩
  refine hr.bind (fun _ _ h => h) fun _ _ h => ?_
  exact post_throwIf_bind.mpr ⟨fun _ => h, fun _ => h⟩

namespace Loop

variable {b : Backend} {m : Loop} {i : Input}

theorem Unlocked.not_aborted (h : m.Unlocked) (hc : m.control = .newSwap) :
    m.swap.info.status ≠ .completedAbort := by
  simp only [Unlocked, hc] at h
  exact fun hs => by simp [h.left.next_none hs] at h

theorem handleEvent_aborted {e : Event} (h : Fresh m.swap)
    (hs : m.swap.info.status = .completedAbort) (he : e ≠ .shouldRefund) :
    (m.handleEvent e).swap = m.swap := by
  have hn := h.next_none hs
  cases e
  case shouldRefund => contradiction
  all_goals simp [handleEvent, hn, exit]

-- A swap that is aborted stays so, and its asset is not locked any more.
theorem step_aborted (h : m.Unlocked) (hs : m.swap.info.status = .completedAbort)
    (hi : i ≠ .event .shouldRefund) : (m.step b i).swap.info.status = .completedAbort := by
  have hk (hf : Fresh m.swap ∧ m.swap.nextExpectedEvent = .keysReceived) : False := by
    simp [hf.left.next_none hs] at hf
  have hm := step_step b m i
  generalize m.step b i = m' at hm ⊢
  cases hm
  case idle         => exact hs
  case newSwapMined => exact hs
  case stageMined   => rw [stageMined_swap]; exact hs
  case ctxDone      => exact hs
  all_goals
    rename_i hc
    simp only [Unlocked, hc] at h
  case event =>
    rw [handleEvent_aborted h hs (by simpa using hi)]
    exact hs
  case keysChecked => exact (hk h).elim
  case newSwapped  => exact (hk h).elim
  case completed =>
    unfold completed
    repeat' split
    all_goals exact hs

-- While it waits for the result of `NewSwap`, and when it has panicked, the loop stays as it is.
theorem step_waits (h : m.control = .newSwap ∨ m.control = .panicked)
    (hn : ∀ r id nonce put, i ≠ .newSwapped r id nonce put) :
    (m.step b i).swap = m.swap ∧ (m.step b i).control = m.control := by
  cases i
  case newSwapMined => exact ⟨rfl, rfl⟩
  case stageMined   => exact ⟨stageMined_swap, stageMined_control⟩
  case newSwapped   => exact absurd rfl (hn _ _ _ _)
  case ctxDone =>
    rw [step, if_neg fun hc => by simp [hc.right] at h]
    exact ⟨rfl, rfl⟩
  all_goals cases h <;> simp_all [step]

theorem keysReceivedFailed_not_aborted (h : m.swap.info.status ≠ .completedAbort) :
    m.keysReceivedFailed.swap.info.status ≠ .completedAbort := by
  unfold keysReceivedFailed setNextExpectedEvent
  repeat' split
  · exact h
  · simp [EventType.getStatus]
  · exact h

theorem keysReceivedFailed_fundsLocked :
    m.keysReceivedFailed.swap.fundsLocked = m.swap.fundsLocked := by
  unfold keysReceivedFailed
  split
  case isTrue  =>
    rw [writingSwap_swap]
    unfold setNextExpectedEvent
    split <;> rfl
  case isFalse => rfl

theorem newSwapped_fundsLocked {receipt : Receipt} {id : Bytes32} {nonce : ℤ} {put : Bool}
    (h : ShowsSwap receipt) :
    (m.newSwapped b (some receipt) id nonce put).swap.fundsLocked = true := by
  simp only [newSwapped]
  split
  case h_1 hr => exact (recordSwap_locks h).result hr
  case h_2 hr =>
    have hl := (recordSwap_locks h).result hr
    split
    case isTrue  => exact hl
    case isFalse => exact keysReceivedFailed_fundsLocked.trans hl

-- Whatever the receipt says, locking the asset does not abort the swap.
theorem newSwapped_not_aborted {receipt : Option Receipt} {id : Bytes32} {nonce : ℤ} {put : Bool}
    (h : m.swap.info.status ≠ .completedAbort) :
    (m.newSwapped b receipt id nonce put).swap.info.status ≠ .completedAbort := by
  cases receipt
  case none => exact keysReceivedFailed_not_aborted h
  case some receipt =>
    simp only [newSwapped]
    split
    case h_1 hr =>
      obtain ⟨_, hs, _⟩ := (recordSwap_post h).result hr
      exact hs.status
    case h_2 s' hr =>
      have hs : s'.info.status ≠ .completedAbort := by
        rcases (recordSwap_post h).result hr with ⟨_, hs⟩ | ⟨_, hs⟩ | ⟨_, hs, _⟩
        · exact hs ▸ h
        · exact hs ▸ h
        · exact hs.status
      split
      case isTrue  => exact hs
      case isFalse => exact keysReceivedFailed_not_aborted hs

end Loop

namespace Daemon

variable {b : Backend} {d : Daemon} {m : Loop}

def Aborted (d : Daemon) : Prop :=
  d.info.status = .completedAbort ∨ ∃ m ∈ d.loop, m.swap.info.status = .completedAbort

-- The transaction is included, or it may still be.
def CanInclude (b : Backend) (d : Daemon) (txHash : Bytes32) : Prop :=
  ∃ is, (run (step b) is d).txs txHash = some .included

def AllLost (d : Daemon) : Prop :=
  ∀ h, d.txs h ≠ none → h ∈ d.lost

def savedHash (d : Daemon) : Option Bytes32 :=
  d.recovery.newSwapTxHash d.info.offerID

-- What is known while `NewSwap` runs.
structure Calling (d : Daemon) (m : Loop) : Prop where
  unlocked : m.Unlocked
  newSwap  : m.control = .newSwap
  known    : ∀ h, d.txs h ≠ none → h ∈ d.lost ∨ d.newSwap = .sent h ∨ d.newSwap = .saved h
  status   : d.info.status ≠ .completedAbort

-- What the taker is doing, and which transactions it has not lost sight of.
inductive Phase (d : Daemon) (m : Loop) : Prop
  | panicked (hp : m.control = .panicked) (hc : d.newSwap = .send)
  | idle (hu : m.Unlocked) (hp : m.control ≠ .panicked) (hn : m.control ≠ .newSwap)
    (hc : d.newSwap = .send) (hl : d.AllLost)
    (hs : d.info.status = .completedAbort → m.swap.info.status = .completedAbort)
  | calling (h : d.Calling m)
  | locked {sw : SwapCreatorSwap} (hl : m.Locked sw) (hc : d.newSwap = .send)
    (hs : d.info.status ≠ .completedAbort)

structure Inv (d : Daemon) : Prop where
  phase   : ∀ m ∈ d.loop, d.Phase m
  down    : d.loop = none → d.newSwap = .send
  saved   : ∀ h, d.newSwap = .saved h → d.savedHash = some h
  sent    : ∀ h, d.txs h ≠ none → h ∈ d.lost ∨ d.newSwap = .sent h ∨ d.savedHash = some h
  aborted : d.Aborted → d.AllLost

section StepLoop

variable {i : Input} {written : Bool}

theorem setLoop_aborted (h : (d.setLoop m written).Aborted) :
    d.info.status = .completedAbort ∨ m.swap.info.status = .completedAbort := by
  rcases h with h | ⟨m', hm, h⟩
  · simp only [setLoop] at h
    split at h
    · exact .inr h
    · exact .inl h
  · cases hm
    exact .inr h

theorem Inv.setLoop (h : d.Inv) (hp : (d.setLoop m written).Phase m)
    (ha : d.info.status = .completedAbort ∨ m.swap.info.status = .completedAbort → d.AllLost) :
    (d.setLoop m written).Inv where
  phase _ hm := Option.some_inj.mp hm ▸ hp
  down       := nofun
  saved      := h.saved
  sent       := h.sent
  aborted h  := ha (setLoop_aborted h)

-- The database has the old status or the new one.
theorem setLoop_status {p : Status → Prop} (hd : p d.info.status) (hm : p m.swap.info.status) :
    p (d.setLoop m written).info.status := by
  simp only [Daemon.setLoop]
  split
  · exact hm
  · exact hd

theorem stepLoop_cases (b : Backend) (d : Daemon) (m : Loop) (i : Input) (written : Bool) :
    d.stepLoop b m i written = d ∨
    ∃ written', d.stepLoop b m i written = d.setLoop (m.step b i) written' ∧
      (i = .event .shouldRefund → m.swap.contractSwap.isSome) ∧
      ∀ r id nonce put, i ≠ .newSwapped r id nonce put := by
  unfold stepLoop
  split
  case h_1 => exact .inl rfl
  case h_2 =>
    split
    case isTrue hs => exact .inr ⟨_, rfl, fun _ => hs, nofun⟩
    case isFalse   => exact .inl rfl
  case h_3       => exact .inr ⟨_, rfl, nofun, nofun⟩
  case h_4 hn hs _ => exact .inr ⟨_, rfl, (absurd · hs), hn⟩

theorem stepLoop_inv (h : d.Inv) (hm : m ∈ d.loop) : (d.stepLoop b m i written).Inv := by
  rcases stepLoop_cases b d m i written with hd | ⟨_, hd, hi, hn⟩
  case inl => exact hd.symm ▸ h
  rw [hd]
  cases h.phase m hm
  case panicked hp hc =>
    have ⟨hs, hk⟩ := Loop.step_waits (b := b) (.inr hp) hn
    refine h.setLoop (.panicked (hk.trans hp) hc) fun ha => h.aborted <| ha.imp_right fun ha => ?_
    exact ⟨m, hm, hs ▸ ha⟩
  case idle hu hp _ hc hl hs =>
    have hi : i ≠ .event .shouldRefund := fun hi' => by simp [(hu.fresh hp).swap, hi'] at hi
    have hu' := Loop.step_unlocked (b := b) hu hi hn
    refine h.setLoop ?_ fun _ => hl
    by_cases hp' : (m.step b i).control = .panicked
    case pos => exact .panicked hp' hc
    case neg =>
      by_cases hk : (m.step b i).control = .newSwap
      case pos =>
        have ha := hu'.not_aborted hk
        refine .calling ⟨hu', hk, fun h hs => .inl (hl h hs), ?_⟩
        refine setLoop_status (p := (· ≠ .completedAbort)) (fun hd => ha ?_) ha
        exact Loop.step_aborted hu (hs hd) hi
      case neg =>
        refine .idle hu' hp' hk hc hl ?_
        refine setLoop_status (p := (· = .completedAbort → _)) (fun hd => ?_) id
        exact Loop.step_aborted hu (hs hd) hi
  case calling hc =>
    have ⟨hu, hk, hl, hs⟩ := hc
    have ⟨hs', hk'⟩ := Loop.step_waits (b := b) (.inl hk) hn
    have ha : (m.step b i).swap.info.status ≠ .completedAbort := hs' ▸ hu.not_aborted hk
    refine h.setLoop (.calling ⟨?_, hk'.trans hk, hl, ?_⟩) fun hd => (hd.elim hs ha).elim
    · simpa [Loop.Unlocked, hs', hk'] using hu
    · exact setLoop_status (p := (· ≠ .completedAbort)) hs ha
  case locked sw hl hc hs =>
    have hl := Loop.step_locked (b := b) i hl
    refine h.setLoop (.locked hl hc ?_) fun ha => (ha.elim hs hl.noted.status).elim
    exact setLoop_status (p := (· ≠ .completedAbort)) hs hl.noted.status

end StepLoop

section NewSwap

variable {txHash : Bytes32}

theorem Inv.calling (h : d.Inv) (hm : m ∈ d.loop)
    (hn : m.control = .newSwap ∨ d.newSwap ≠ .send) : d.Calling m := by
  cases h.phase m hm
  case panicked hp hc => simp [hp, hc] at hn
  case idle hk hc _ _ => simp [hk, hc] at hn
  case calling hc     => exact hc
  case locked hl hc _ =>
    have hk := hn.resolve_right (· hc)
    simp [Loop.Locked, hk] at hl

theorem Calling.not_aborted (h : d.Calling m) (hm : m ∈ d.loop) : ¬d.Aborted := by
  rintro (hd | ⟨m', hm', hs⟩)
  · exact h.status hd
  · cases Option.mem_unique hm hm'
    exact h.unlocked.not_aborted h.newSwap hs

theorem Calling.inv (h : d.Calling m) (hm : m ∈ d.loop)
    (hs : ∀ h, d.newSwap = .saved h → d.savedHash = some h) : d.Inv where
  phase _ hm' := Option.mem_unique hm hm' ▸ .calling h
  down hn     := by simp [hn] at hm
  saved       := hs
  sent h' ht  := (h.known h' ht).imp_right <| .imp_right (hs h')
  aborted ha  := absurd ha (h.not_aborted hm)

theorem newSwapFailed_inv {lost : List Bytes32} (hu : m.Unlocked) (hk : m.control = .newSwap)
    (hs : d.info.status ≠ .completedAbort) (hl : ∀ h, d.txs h ≠ none → h ∈ lost) :
    (d.newSwapFailed b m lost).Inv where
  phase m' hm := by
    cases hm
    simp only [Loop.Unlocked, hk] at hu
    have hf : m.newSwapped b none 0 0 false = { m with control := .runHandleEvents } := by
      simp [Loop.newSwapped, Loop.keysReceivedFailed, hu.left.fundsLocked]
    rw [hf]
    exact .idle hu.left (by simp) (by simp) rfl hl fun ha => absurd ha hs
  down hn    := by cases hn
  saved _ hs := by cases hs
  sent h hs  := .inl (hl h hs)
  aborted _  := hl

theorem txSent_inv {accepted ok : Bool} (h : d.Calling m) (hm : m ∈ d.loop)
    (hc : d.newSwap = .send) : (d.txSent b m txHash accepted ok).Inv := by
  have hl (h') (hs : d.txs h' ≠ none) : h' ∈ d.lost := by simpa [hc] using h.known h' hs
  have hu (h') (hs : update d.txs txHash (some .pending) h' ≠ none) :
      h' = txHash ∨ h' ∈ d.lost := by
    rw [update_apply] at hs
    split at hs
    case isTrue he => exact .inl he
    case isFalse   => exact .inr (hl h' hs)
  have hf (h') (hs : h' = txHash ∨ h' ∈ d.lost) : h' ∈ d.lost.filter (· ≠ txHash) ∨
      NewSwapCall.sent txHash = .sent h' ∨ NewSwapCall.sent txHash = .saved h' := by
    by_cases he : h' = txHash
    case pos => exact .inr <| .inl <| he ▸ rfl
    case neg => exact .inl <| by simpa [he] using hs
  unfold txSent
  cases ok <;> cases accepted
  case false.false => exact newSwapFailed_inv h.unlocked h.newSwap h.status hl
  case false.true  =>
    refine newSwapFailed_inv h.unlocked h.newSwap h.status fun h' hs => ?_
    exact List.mem_cons.mpr (hu h' hs)
  case true.false =>
    refine Calling.inv ⟨h.unlocked, h.newSwap, fun h' hs => ?_, h.status⟩ hm nofun
    exact hf h' (.inr (hl h' hs))
  case true.true =>
    refine Calling.inv ⟨h.unlocked, h.newSwap, fun h' hs => ?_, h.status⟩ hm nofun
    exact hf h' (hu h' hs)

theorem hashSaved_inv {ok : Bool} (h : d.Calling m) (hm : m ∈ d.loop)
    (hc : d.newSwap = .sent txHash) : (d.hashSaved b m txHash ok).Inv := by
  have hl (h') (hs : d.txs h' ≠ none) : h' = txHash ∨ h' ∈ d.lost := by
    simpa [hc, or_comm, eq_comm] using h.known h' hs
  cases ok
  case false =>
    exact newSwapFailed_inv h.unlocked h.newSwap h.status fun h' hs => List.mem_cons.mpr (hl h' hs)
  case true =>
    have hr : savedHash { d with
        recovery := d.recovery.putNewSwapTxHash d.info.offerID txHash
        newSwap  := .saved txHash } = some txHash :=
      update_self ..
    refine Calling.inv ⟨h.unlocked, h.newSwap, fun h' hs => ?_, h.status⟩ hm fun h' hs => ?_
    · exact (hl h' hs).elim (fun he => .inr <| .inr <| he ▸ rfl) .inl
    · cases hs
      exact hr

theorem received_inv {r : Receipt} {id : Bytes32} {nonce : ℤ} {put : Bool}
    (h : d.Calling m) (hr : d.savedHash = some txHash) (hc : d.newSwap = .saved txHash) :
    (d.received b m txHash r id nonce put).Inv := by
  have hl (h') (hs : d.txs h' ≠ none) : h' = txHash ∨ h' ∈ d.lost := by
    simpa [hc, or_comm, eq_comm] using h.known h' hs
  have hu := h.unlocked
  simp only [Loop.Unlocked, h.newSwap] at hu
  have hn : (m.newSwapped b (some r) id nonce put).Unlocked ∨
      ∃ sw, (m.newSwapped b (some r) id nonce put).Locked sw :=
    Loop.newSwapped_unlocked hu.left hu.right
  have ha : (m.newSwapped b (some r) id nonce put).swap.info.status ≠ .completedAbort :=
    Loop.newSwapped_not_aborted (h.unlocked.not_aborted h.newSwap)
  simp only [received]
  generalize m.newSwapped b (some r) id nonce put = m' at hn ha ⊢
  have hs : (d.setLoop m' false).info.status ≠ .completedAbort :=
    setLoop_status (p := (· ≠ .completedAbort)) h.status ha
  constructor
  case phase =>
    intro m'' hm
    cases hm
    by_cases hp : m'.control = .panicked
    case pos => exact .panicked hp rfl
    case neg =>
      cases hn
      case inr hl =>
        obtain ⟨sw, hl⟩ := hl
        exact .locked hl rfl hs
      case inl hu' =>
        have hf := (hu'.fresh hp).fundsLocked
        have hl (h') (hs : d.txs h' ≠ none) :
            h' ∈ if m'.swap.fundsLocked ∨ m'.control = .panicked then d.lost
              else txHash :: d.lost := by
          rw [if_neg (by simp [hf, hp])]
          exact List.mem_cons.mpr (hl h' hs)
        by_cases hk : m'.control = .newSwap
        case pos => exact .calling ⟨hu', hk, fun h' hs => .inl (hl h' hs), hs⟩
        case neg => exact .idle hu' hp hk rfl hl (absurd · hs)
  case down => intro hn; cases hn
  case saved => intro _ hs; cases hs
  case sent =>
    intro h' ht
    cases hl h' ht
    case inl he =>
      refine .inr <| .inr ?_
      rw [he]
      simp only [savedHash, setLoop]
      split <;> exact hr
    case inr hm => exact .inl <| by simp only [setLoop]; split <;> simp [hm]
  case aborted => exact fun hd => ((setLoop_aborted hd).elim h.status ha).elim

theorem stepNewSwap_inv {i : DaemonInput} (h : d.Inv) (hm : m ∈ d.loop) :
    (d.stepNewSwap b m i).Inv := by
  unfold stepNewSwap
  split
  case h_1 hc =>
    split
    case isTrue hk => exact txSent_inv (h.calling hm (.inl hk.left)) hm hc
    case isFalse   => exact h
  case h_2 hc => exact hashSaved_inv (h.calling hm (.inr (by simp [hc]))) hm hc
  case h_3 txHash _ _ _ hc =>
    have ⟨hu, hk, hl, hs⟩ := h.calling hm (.inr (by simp [hc]))
    refine newSwapFailed_inv hu hk hs fun h' ht => ?_
    simpa [hc, or_comm, eq_comm] using hl h' ht
  case h_4 txHash _ _ _ _ hc =>
    split
    case isTrue  => exact received_inv (h.calling hm (.inr (by simp [hc]))) (h.saved txHash hc) hc
    case isFalse => exact h
  case h_5 => exact h

end NewSwap

section Restart

variable {calls : RestartCalls} {status : Status}

-- The invariant depends on which transactions there are, and not on what has become of them.
theorem update_txs_inv {txHash : Bytes32} {tx : TxStatus} (h : d.Inv) (ht : d.txs txHash ≠ none) :
    Inv { d with txs := update d.txs txHash (some tx) } := by
  have hs (h') (hs : update d.txs txHash (some tx) h' ≠ none) : d.txs h' ≠ none := by
    rw [update_apply] at hs
    split at hs
    case isTrue he => exact he ▸ ht
    case isFalse   => exact hs
  refine ⟨fun m hm => ?_, h.down, h.saved, fun h' ht => h.sent h' (hs h' ht), ?_⟩
  · cases h.phase m hm
    case panicked hp hc         => exact .panicked hp hc
    case idle hu hp hk hc hl ha => exact .idle hu hp hk hc (fun h' ht => hl h' (hs h' ht)) ha
    case calling hc             =>
      exact .calling ⟨hc.unlocked, hc.newSwap, fun h' ht => hc.known h' (hs h' ht), hc.status⟩
    case locked hl hc ha        => exact .locked hl hc ha
  · exact fun ha h' ht => h.aborted ha h' (hs h' ht)

theorem setStatus_inv (h : d.Inv) (hn : d.loop = none)
    (ha : status = .completedAbort → d.AllLost) : Inv { d with info.status := status } := by
  refine ⟨by simp [hn], h.down, h.saved, h.sent, ?_⟩
  rintro (hs | ⟨_, hm, _⟩)
  · exact ha hs
  · simp [hn] at hm

theorem complete_inv (h : d.Inv) (hn : d.loop = none) (ha : status = .completedAbort → d.AllLost) :
    (d.complete calls status).Inv := by
  unfold complete
  split
  case isTrue  => exact setStatus_inv h hn ha
  case isFalse => exact h

theorem refundOrCancelNewSwap_inv {txHash : Bytes32} (h : d.Inv) (hn : d.loop = none) :
    (d.refundOrCancelNewSwap calls txHash).Inv := by
  unfold refundOrCancelNewSwap
  repeat' split
  · exact h
  · exact update_txs_inv h (by simp_all)
  · exact h
  · exact complete_inv h hn nofun
  · exact h

theorem completeSwap_inv (h : d.Inv) (hn : d.loop = none) : (d.completeSwap calls).Inv := by
  have hw : Inv { d with info.status := .sweepingXMR } := setStatus_inv h hn nofun
  unfold completeSwap
  repeat' split
  · exact h
  · exact complete_inv hw hn nofun
  · exact hw

-- A loop that is started for an ongoing swap has a swap that is locked.
theorem createOngoingSwap_cases (b : Backend) (d : Daemon) (calls : RestartCalls) :
    d.createOngoingSwap b calls = d.completeSwap calls ∨ d.createOngoingSwap b calls = d ∨
    ∃ s sw, Kept sw s ∧
      d.createOngoingSwap b calls = { d with loop := some (.start s calls.stages true) } := by
  unfold createOngoingSwap
  split
  case h_1 => exact .inl rfl
  case h_2 =>
    dsimp only
    split
    case h_2 => exact .inr <| .inl rfl
    case h_1 s hr =>
      simp only [Option.bind_eq_bind, Option.bind_eq_some_iff] at hr
      have ⟨ethSwapInfo, _, _, _, hr⟩ := hr
      have hk := newSwapStateFromOngoing_kept (Except.toOption_eq_some_iff.mp hr)
      exact .inr <| .inr ⟨s, ethSwapInfo.swap, hk, rfl⟩

theorem createOngoingSwap_inv (h : d.Inv) (hn : d.loop = none)
    (hs : d.info.status ≠ .completedAbort) : (d.createOngoingSwap b calls).Inv := by
  rcases createOngoingSwap_cases b d calls with hc | hc | ⟨s, sw, hk, hc⟩
  all_goals rw [hc]
  · exact completeSwap_inv h hn
  · exact h
  · have hl : Loop.Locked sw (.start s calls.stages true) := hk
    refine ⟨fun m hm => ?_, nofun, h.saved, h.sent, ?_⟩
    · cases hm
      exact .locked hl (h.down hn) hs
    · rintro (ha | ⟨_, hm, ha⟩)
      · exact absurd ha hs
      · cases hm
        exact absurd ha hk.noted.status

-- Only a swap without the hash of a transaction is aborted.
theorem checkForOngoingSwaps_inv (h : d.Inv) (hn : d.loop = none) :
    (d.checkForOngoingSwaps b calls).Inv := by
  unfold checkForOngoingSwaps
  repeat' split
  case isTrue => exact h
  case h_1 hr =>
    refine complete_inv h hn fun _ h' ht => (h.sent h' ht).resolve_right ?_
    have hr : d.savedHash = none := by
      simp only [RecoveryDB.getNewSwapTxHash, DB.get] at hr
      split at hr
      case h_1   => contradiction
      case h_2 h => exact h
    simp [h.down hn, hr]
  case h_2 => exact refundOrCancelNewSwap_inv h hn
  case isFalse.isFalse.isTrue => exact complete_inv h hn nofun
  case isFalse.isFalse.isFalse ho _ _ =>
    exact createOngoingSwap_inv h hn fun hs => by simp [hs, Status.isOngoing] at ho

end Restart

-- The transaction of a call whose hash was not saved is lost, the other one is found again.
theorem crash_inv (h : d.Inv) : d.crash.Inv := by
  have hl {h'} (hm : h' ∈ d.lost) : h' ∈ d.crash.lost := by
    simp only [crash]
    split <;> simp [hm]
  constructor
  case phase => exact fun m hm => by simp [crash] at hm
  case down  => exact fun _ => rfl
  case saved => exact fun h' hs => by simp [crash] at hs
  case sent  =>
    intro h' ht
    rcases h.sent h' ht with hs | hs | hs
    · exact .inl (hl hs)
    · exact .inl <| by simp [crash, hs]
    · exact .inr <| .inr hs
  case aborted =>
    rintro (ha | ⟨m, hm, _⟩)
    · exact fun h' ht => hl <| h.aborted (.inl ha) h' ht
    · simp [crash] at hm

theorem txChanged_inv {txHash : Bytes32} {tx : TxStatus} (h : d.Inv) :
    (d.txChanged txHash tx).Inv := by
  unfold txChanged
  split
  case isTrue ht => exact update_txs_inv h (by simp [ht])
  case isFalse   => exact h

theorem step_inv (i : DaemonInput) (h : d.Inv) : (step b d i).Inv := by
  unfold step
  split
  case h_1    => exact crash_inv h
  case h_2    => exact txChanged_inv h
  case h_3 hn => exact checkForOngoingSwaps_inv h hn
  case h_4 hm => exact stepLoop_inv h hm
  case h_5 hm => exact stepNewSwap_inv h hm
  case h_6    => exact h

-- What a restart can change: a loop is started for a locked swap, and a pending transaction is
-- replaced.
structure Restarted (d d' : Daemon) : Prop where
  newSwap : d'.newSwap = d.newSwap
  loop    : d'.loop = d.loop ∨ ∃ s sw stages, Kept sw s ∧ d'.loop = some (.start s stages true)
  txs     : ∀ h, d'.txs h = d.txs h ∨ d.txs h = some .pending
  lost    : d'.lost = d.lost

section Restarted

variable {calls : RestartCalls} {status : Status}

theorem Restarted.refl : d.Restarted d :=
  ⟨rfl, .inl rfl, fun _ => .inl rfl, rfl⟩

theorem complete_restarted : d.Restarted (d.complete calls status) := by
  unfold complete
  split <;> exact ⟨rfl, .inl rfl, fun _ => .inl rfl, rfl⟩

theorem update_pending {txHash h : Bytes32} {tx : TxStatus} (ht : d.txs txHash = some .pending) :
    update d.txs txHash (some tx) h = d.txs h ∨ d.txs h = some .pending := by
  rw [update_apply]
  split
  case isTrue he => exact .inr (he ▸ ht)
  case isFalse   => exact .inl rfl

theorem checkForOngoingSwaps_restarted : d.Restarted (d.checkForOngoingSwaps b calls) := by
  unfold checkForOngoingSwaps
  repeat' split
  case isTrue => exact .refl
  case h_1 => exact complete_restarted
  case h_2 =>
    unfold refundOrCancelNewSwap
    repeat' split
    case isFalse.isTrue ht => exact ⟨rfl, .inl rfl, fun _ => update_pending ht.left, rfl⟩
    all_goals first | exact .refl | exact complete_restarted
  case isFalse.isFalse.isTrue => exact complete_restarted
  case isFalse.isFalse.isFalse =>
    rcases createOngoingSwap_cases b d calls with hc | hc | ⟨s, sw, hk, hc⟩
    all_goals rw [hc]
    · unfold completeSwap complete
      repeat' split
      all_goals exact ⟨rfl, .inl rfl, fun _ => .inl rfl, rfl⟩
    · exact .refl
    · exact ⟨rfl, .inr ⟨s, sw, calls.stages, hk, rfl⟩, fun _ => .inl rfl, rfl⟩

end Restarted

section Transactions

variable {i : DaemonInput} {h : Bytes32}

-- Once it is included, reverted or replaced, a transaction stays so.
theorem stepNewSwap_txs : (d.stepNewSwap b m i).txs h = d.txs h ∨
    d.txs h = none ∧ m.control = .newSwap := by
  unfold stepNewSwap
  split
  case h_1 txHash accepted ok _ =>
    split
    case isFalse   => exact .inl rfl
    case isTrue ht =>
      have hu : update d.txs txHash (some .pending) h = d.txs h ∨
          d.txs h = none ∧ m.control = .newSwap := by
        rw [update_apply]
        split
        case isTrue he => exact .inr ⟨he ▸ ht.right, ht.left⟩
        case isFalse   => exact .inl rfl
      cases accepted <;> cases ok
      all_goals first | exact .inl rfl | exact hu
  case h_2 ok _ => cases ok <;> exact .inl rfl
  case h_3      => exact .inl rfl
  case h_4      => split <;> exact .inl rfl
  case h_5      => exact .inl rfl

theorem step_txs : (step b d i).txs h = d.txs h ∨ d.txs h = some .pending ∨
    d.txs h = none ∧ ∃ m ∈ d.loop, m.control = .newSwap := by
  unfold step
  split
  case h_1 => exact .inl rfl
  case h_2 =>
    unfold txChanged
    split
    case isTrue ht => exact (update_pending ht).imp_right .inl
    case isFalse   => exact .inl rfl
  case h_3 => exact (checkForOngoingSwaps_restarted.txs h).imp_right .inl
  case h_4 i written m _ =>
    rcases stepLoop_cases b d m i written with hd | ⟨_, hd, _, _⟩
    all_goals rw [hd]; exact .inl rfl
  case h_5 hm => exact stepNewSwap_txs.imp_right fun ⟨ht, hc⟩ => .inr ⟨ht, _, hm, hc⟩
  case h_6 => exact .inl rfl

end Transactions

-- No transaction is sent any more: the loop has panicked, or its swap is aborted or locked.
structure Quiet (d : Daemon) : Prop where
  newSwap : d.newSwap = .send
  loop    : ∀ m ∈ d.loop, m.control = .panicked ∨
    m.Unlocked ∧ m.swap.info.status = .completedAbort ∨ ∃ sw, m.Locked sw

theorem Quiet.control (h : d.Quiet) (hm : m ∈ d.loop) : m.control ≠ .newSwap := by
  intro hc
  rcases h.loop m hm with hp | ⟨hu, hs⟩ | ⟨_, hl⟩
  · simp [hc] at hp
  · exact hu.not_aborted hc hs
  · simp [Loop.Locked, hc] at hl

theorem Inv.quiet (h : d.Inv) (ha : d.Aborted) : d.Quiet := by
  cases hn : d.loop
  case none => exact ⟨h.down hn, by simp [hn]⟩
  case some m =>
    cases h.phase m hn
    case panicked hp hc      => exact ⟨hc, by simp [hn, hp]⟩
    case calling hc          => exact absurd ha (hc.not_aborted hn)
    case locked sw hl hc _   =>
      exact ⟨hc, fun m' hm => .inr <| .inr ⟨sw, Option.mem_unique hn hm ▸ hl⟩⟩
    case idle hu _ _ hc _ hs =>
      refine ⟨hc, fun m' hm => .inr <| .inl ?_⟩
      cases Option.mem_unique hn hm
      refine ⟨hu, ha.elim hs ?_⟩
      rintro ⟨_, hm', ha⟩
      exact Option.mem_unique hn hm' ▸ ha

theorem stepLoop_quiet {i : Input} {written : Bool} (h : d.Quiet) (hm : m ∈ d.loop) :
    (d.stepLoop b m i written).Quiet := by
  rcases stepLoop_cases b d m i written with hd | ⟨_, hd, hi, hn⟩
  case inl => exact hd.symm ▸ h
  rw [hd]
  refine ⟨h.newSwap, fun m' hm' => ?_⟩
  cases hm'
  by_cases hp : m.control = .panicked
  case pos => exact .inl <| (Loop.step_waits (.inr hp) hn).right.trans hp
  case neg =>
    rcases (h.loop m hm).resolve_left hp with ⟨hu, hs⟩ | ⟨sw, hl⟩
    · have hi : i ≠ .event .shouldRefund := fun hi' => by simp [(hu.fresh hp).swap, hi'] at hi
      exact .inr <| .inl ⟨Loop.step_unlocked hu hi hn, Loop.step_aborted hu hs hi⟩
    · exact .inr <| .inr ⟨sw, Loop.step_locked i hl⟩

theorem stepNewSwap_quiet {i : DaemonInput} (h : d.Quiet) (hm : m ∈ d.loop) :
    d.stepNewSwap b m i = d := by
  unfold stepNewSwap
  simp only [h.newSwap]
  split
  case h_1 => exact if_neg fun hc => h.control hm hc.left
  case h_5 => rfl
  all_goals contradiction

theorem checkForOngoingSwaps_quiet {calls : RestartCalls} (h : d.Quiet) (hn : d.loop = none) :
    (d.checkForOngoingSwaps b calls).Quiet := by
  have hr : d.Restarted (d.checkForOngoingSwaps b calls) := checkForOngoingSwaps_restarted
  refine ⟨hr.newSwap.trans h.newSwap, fun m hm => ?_⟩
  rcases hr.loop with hl | ⟨s, sw, stages, hk, hl⟩
  · simp [hl, hn] at hm
  · cases hl.symm.trans hm
    exact .inr <| .inr ⟨sw, hk⟩

theorem step_quiet (i : DaemonInput) (h : d.Quiet) : (step b d i).Quiet := by
  unfold step
  split
  case h_1    => exact ⟨rfl, by simp [crash]⟩
  case h_2    =>
    unfold txChanged
    split
    case isTrue  => exact ⟨h.newSwap, h.loop⟩
    case isFalse => exact h
  case h_3 hn => exact checkForOngoingSwaps_quiet h hn
  case h_4 hm => exact stepLoop_quiet h hm
  case h_5 hm => exact (stepNewSwap_quiet h hm).symm ▸ h
  case h_6    => exact h

def Live (d : Daemon) (txHash : Bytes32) : Prop :=
  d.txs txHash = some .included ∨ d.txs txHash = some .pending

instance (d : Daemon) (txHash : Bytes32) : Decidable (d.Live txHash) :=
  inferInstanceAs (Decidable (_ ∨ _))

-- Once the swap is aborted, no transaction is sent, and only those that are pending can change.
theorem canInclude_iff {h : Bytes32} (hq : d.Quiet) : d.CanInclude b h ↔ d.Live h := by
  constructor
  case mp =>
    rintro ⟨is, hr⟩
    by_contra hd
    have ⟨_, hk⟩ : (run (step b) is d).Quiet ∧ (run (step b) is d).txs h = d.txs h := by
      refine run_keeps (I := fun d' : Daemon => d'.Quiet ∧ d'.txs h = d.txs h) ?_ ⟨hq, rfl⟩
      intro d' i ⟨hq, hk⟩
      refine ⟨step_quiet i hq, (step_txs.resolve_right ?_).trans hk⟩
      rintro (ht | ⟨_, m, hm, hc⟩)
      · exact hd (.inr (hk ▸ ht))
      · exact hq.control hm hc
    exact hd (.inl (hk ▸ hr))
  case mpr =>
    rintro (hd | hd)
    · exact ⟨[], hd⟩
    · exact ⟨[.txChanged h .included], by simp [run, step, txChanged, hd]⟩

-- The swap has just been started. The recovery database may have records of other swaps.
structure Initial (d : Daemon) : Prop where
  started : ∃ calls offerID noTransferBack providedAmount exchangeRate ethAsset s stages,
    newSwapStateFromStart calls offerID noTransferBack providedAmount exchangeRate ethAsset =
      .ok s ∧ d.loop = some (.start s stages false) ∧ d.info = s.info
  newSwap : d.newSwap = .send
  txs     : ∀ h, d.txs h = none
  lost    : d.lost = []

theorem Initial.inv (h : d.Initial) : d.Inv := by
  have ⟨_, _, _, _, _, _, s, stages, hs, hl, hi⟩ := h.started
  have hf := newSwapStateFromStart_fresh hs
  have hl' : d.AllLost := fun h' ht => absurd (h.txs h') ht
  refine ⟨fun m hm => ?_, fun _ => h.newSwap, fun h' hs => ?_, fun h' ht => .inl (hl' h' ht), ?_⟩
  · cases hl.symm.trans hm
    exact .idle hf nofun nofun h.newSwap hl' (hi ▸ id)
  · simp [h.newSwap] at hs
  · exact fun _ => hl'

-- A step loses sight of no transaction that is included or may still be: the client returns no
-- error for one that the network has got, its hash is saved before the daemon goes down, its
-- receipt is found, and the swap can be read off the receipt.
def Attentive (d : Daemon) (i : DaemonInput) : Prop :=
  match d.newSwap, i with
  | .send,         .txSent _ accepted ok   => accepted → ok
  | .sent txHash,  .hashSaved ok           => ok ∨ ¬d.Live txHash
  | .sent txHash,  .crash                  => ¬d.Live txHash
  | .saved txHash, .receipt none _ _ _     => ¬d.Live txHash
  | .saved _,      .receipt (some r) _ _ _ => ShowsSwap r
  | _,             _                       => True

instance (d : Daemon) (i : DaemonInput) : Decidable (d.Attentive i) := by
  unfold Attentive
  split <;> infer_instance

-- Nothing becomes of the transactions that the taker has lost sight of.
def LostDead (d : Daemon) : Prop :=
  ∀ h ∈ d.lost, ¬d.Live h

section Lost

variable {txHash : Bytes32}

theorem LostDead.cons (h : d.LostDead) (ht : ¬d.Live txHash) :
    ∀ h ∈ txHash :: d.lost, ¬d.Live h :=
  List.forall_mem_cons.mpr ⟨ht, h⟩

-- A transaction that is not pending stays what it is.
theorem LostDead.update {tx : TxStatus} (h : d.LostDead) (ht : d.txs txHash = some .pending) :
    LostDead { d with txs := update d.txs txHash (some tx) } := by
  intro h' hm
  have hd := h h' hm
  have he : h' ≠ txHash := fun he => hd (.inr (he ▸ ht))
  simpa [Live, he] using hd

theorem txSent_lostDead {accepted ok : Bool} (h : d.LostDead) (ha : accepted → ok) :
    (d.txSent b m txHash accepted ok).LostDead := by
  cases ok
  case false =>
    obtain rfl : accepted = false := by simpa using ha
    exact h
  case true =>
    have hf : ∀ h' ∈ d.lost.filter (· ≠ txHash), h' ≠ txHash ∧ ¬d.Live h' := by
      intro h' hm
      obtain ⟨hm, he⟩ := List.mem_filter.mp hm
      exact ⟨by simpa using he, h h' hm⟩
    cases accepted
    case false => exact fun h' hm => (hf h' hm).right
    case true  =>
      intro h' hm
      obtain ⟨he, hd⟩ := hf h' hm
      simpa [txSent, Live, he] using hd

theorem stepNewSwap_lostDead {i : DaemonInput} (h : d.LostDead) (ha : d.Attentive i) :
    (d.stepNewSwap b m i).LostDead := by
  unfold stepNewSwap
  split
  case h_1 hc =>
    simp only [Attentive, hc] at ha
    split
    case isTrue  => exact txSent_lostDead h ha
    case isFalse => exact h
  case h_2 ok hc =>
    simp only [Attentive, hc] at ha
    cases ok
    case true  => exact h
    case false => exact h.cons (by simpa using ha)
  case h_3 hc =>
    simp only [Attentive, hc] at ha
    exact h.cons ha
  case h_4 hc =>
    simp only [Attentive, hc] at ha
    split
    case isTrue  =>
      simp only [received, Loop.newSwapped_fundsLocked ha, true_or, if_true]
      exact h
    case isFalse => exact h
  case h_5 => exact h

theorem step_lostDead {i : DaemonInput} (h : d.LostDead) (ha : d.Attentive i) :
    (step b d i).LostDead := by
  unfold step
  split
  case h_1 =>
    cases hc : d.newSwap
    all_goals simp only [LostDead, crash, hc]
    case sent txHash =>
      simp only [Attentive, hc] at ha
      exact h.cons ha
    all_goals exact h
  case h_2 =>
    unfold txChanged
    split
    case isTrue ht => exact h.update ht
    case isFalse   => exact h
  case h_3 calls _ =>
    have hr : d.Restarted (d.checkForOngoingSwaps b calls) := checkForOngoingSwaps_restarted
    intro h' hm
    have hd := h h' (hr.lost ▸ hm)
    rcases hr.txs h' with ht | ht
    · simpa only [Live, ht] using hd
    · exact absurd (.inr ht) hd
  case h_4 i written m _ =>
    rcases stepLoop_cases b d m i written with hd | ⟨_, hd, _, _⟩
    all_goals rw [hd]; exact h
  case h_5 => exact stepNewSwap_lostDead h ha
  case h_6 => exact h

end Lost

-- A swap that is aborted locks no asset, as long as the taker loses sight of no transaction that is
-- included or still pending.
theorem aborted_unlocked {is : List DaemonInput} (h₀ : d.Initial)
    (ha : Along (step b) Attentive is d) :
    let d' := run (step b) is d
    d'.Aborted → ∀ h, ¬d'.CanInclude b h := by
  intro d' hd' h
  have hi : d'.Inv := run_keeps (fun _ => step_inv) h₀.inv
  have hl : d'.LostDead :=
    run_invariant (fun _ _ => step_lostDead) (fun _ hm => by simp [h₀.lost] at hm) ha
  rw [canInclude_iff (hi.quiet hd')]
  intro hc
  refine hl h (hi.aborted hd' h fun hn => ?_) hc
  simp [Live, hn] at hc

end Daemon

end XMRTaker

namespace XMRTaker.Sample

open XMRMaker.Sample (swap makerKey)

def daemon : Daemon where
  loop     := some loop
  info     := state.info
  recovery := .empty
  txs _    := none

theorem daemon_initial : daemon.Initial :=
  ⟨⟨_, _, _, _, _, _, _, _, newSwapStateFromStart_state, rfl, rfl⟩, rfl, fun _ => rfl, rfl⟩

-- The taker's transaction has got the hash 7.
def sending : List DaemonInput :=
  [.loop (.event <| .keysReceived ⟨some { coeff := 1 }, true, swap.claimer, makerKey⟩) true,
    .loop (.keysChecked ⟨true, true, true⟩) true, .txSent 7 true true]

-- No receipt is found in time, and then the user cancels the swap.
def timingOut : List DaemonInput :=
  sending ++ [.hashSaved true, .receipt none 0 0 false, .loop (.event .exit) true]

-- The transaction fails.
def reverting : List DaemonInput :=
  sending ++ [.hashSaved true, .txChanged 7 .reverted, .receipt none 0 0 false,
    .loop (.event .exit) true]

def restartCalls : RestartCalls where
  completeOngoingSwap := true
  transactionByHash   := true
  cancelTxWithNonce   := .notFound
  refund              := true
  sweeping            := true
  claimMonero         := true
  start               := startCalls
  noTransferBack      := false
  stages _            := .invalid

-- The daemon goes down before the hash is saved.
def crashing : List DaemonInput :=
  sending ++ [.crash, .restart restartCalls]

end XMRTaker.Sample

namespace XMRTaker.Daemon

open XMRTaker.Sample

theorem aborted_unlocked_reverting :
    let d := run (step backend) reverting daemon
    d.info.status = .completedAbort ∧ d.txs 7 = some .reverted ∧ ∀ h, ¬d.CanInclude backend h := by
  have ha : (run (step backend) reverting daemon).info.status = .completedAbort := by
    decide +kernel
  exact ⟨ha, by decide +kernel, aborted_unlocked daemon_initial (by decide +kernel) (.inl ha)⟩

-- The transaction may be included after the swap has been aborted.
theorem included_after_abort :
    daemon.Initial ∧
    (run (step backend) timingOut daemon).info.status = .completedAbort ∧
    (run (step backend) (timingOut ++ [.txChanged 7 .included]) daemon).txs 7 = some .included ∧
    (run (step backend) crashing daemon).info.status = .completedAbort ∧
    (run (step backend) (crashing ++ [.txChanged 7 .included]) daemon).txs 7 = some .included :=
  ⟨daemon_initial, by decide +kernel⟩

end XMRTaker.Daemon
