import AtomicSwap.Protocol.Recovery
import AtomicSwap.Protocol.Sweep
import AtomicSwap.Protocol.XMRTaker.Theorems.Resumption

open Ethereum SwapCreator Handler Function
open DB (RecoveryDB)
open Monero (Curve PrivateSpendKey)

-- The models in which a daemon is started again agree: each of the smaller ones can do about a swap
-- what the full one does.

namespace Sweep

variable {R : Role} {d : Daemon R}

-- The status that a restart leaves in the database, and the loop that it starts.
def Found.outcome {Loop : Type} (put : Bool) (status claimed : Status) :
    Found Loop → Status × Option Loop
  | .failed                            => (status, none)
  | .completed status'                 => (if put then status' else status, none)
  | .completeSwap noTransferBack calls =>
    let completed status := if put then claimed else status
    ( if !calls.ready then status
      else if noTransferBack then completed status
      else if !calls.written then status
      else if calls.swept then completed .sweepingXMR
      else .sweepingXMR,
      none)
  | .started m                         => (status, some m)

theorem Daemon.check_outcome (ho : d.info.status.isOngoing) (hl : d.loop = none)
    {calls : R.RestartCalls} {put : Bool} {o : Status × Option R.Loop}
    (hr : (R.restart calls d.info).outcome put d.info.status R.claimed = o) :
    (d.checkForOngoingSwaps calls put).info = { d.info with status := o.fst } ∧
    (d.checkForOngoingSwaps calls put).loop = o.snd := by
  subst hr
  rw [checkForOngoingSwaps, if_neg (by simp [ho])]
  cases R.restart calls d.info
  case failed                            => exact ⟨rfl, hl⟩
  case completed status                  => cases put <;> exact ⟨rfl, hl⟩
  case started m                         => exact ⟨rfl, rfl⟩
  case completeSwap noTransferBack calls =>
    obtain ⟨ready, written, swept⟩ := calls
    cases ready <;> cases noTransferBack <;> cases written <;> cases swept <;> cases put <;>
      exact ⟨rfl, hl⟩

end Sweep

namespace XMRTaker.SweepCalls

def failing (noTransferBack : Bool) (stages : Bytes32 → Stage) : SweepCalls where
  getNewSwapTxHash              := none
  refundOrCancelNewSwap         := false
  getCounterpartySwapPrivateKey := false
  getSwapKeys                   := false
  getContractSwapInfo           := none
  start                         := .failing
  stages                        := stages
  noTransferBack                := noTransferBack
  claim                         := ⟨false, false, false⟩

variable {C : Curve} {b : Backend} {recovery : RecoveryDB} {noTransferBack : Bool} {info : Info}
  {calls : SweepCalls} {o : Resumption}

theorem check_expecting (hs : info.status = .expectingKeys) :
    calls.checkForOngoingSwap b info =
      match calls.getNewSwapTxHash with
      | none       => .failed
      | some false => .completed .completedAbort
      | some true  =>
        if calls.refundOrCancelNewSwap then .completed .completedRefund else .failed := by
  unfold checkForOngoingSwap
  exact if_pos hs

theorem check_sweeping (hs : info.status = .sweepingXMR) :
    calls.checkForOngoingSwap b info = .completed .completedSuccess := by
  rw [checkForOngoingSwap, if_neg (by rw [hs]; decide), if_pos hs]

theorem check_other (he : info.status ≠ .expectingKeys) (hs : info.status ≠ .sweepingXMR) :
    calls.checkForOngoingSwap b info = calls.createOngoingSwap b info := by
  rw [checkForOngoingSwap, if_neg he, if_neg hs]

theorem restarts (stages : Bytes32 → Stage) (h : Resumes C b recovery noTransferBack info o) :
    ∃ (calls : SweepCalls) (put : Bool),
      (calls.checkForOngoingSwap b info).outcome put info.status .completedSuccess =
        (o.status, o.state.map (.start · stages true)) := by
  let failing := failing noTransferBack stages
  cases h
  case failed =>
    refine ⟨failing, false, ?_⟩
    by_cases he : info.status = .expectingKeys
    · rw [check_expecting he]
      rfl
    by_cases hs : info.status = .sweepingXMR
    · rw [check_sweeping hs]
      rfl
    · rw [check_other he hs]
      rfl
  case aborted hs ht =>
    refine ⟨{ failing with getNewSwapTxHash := some false }, true, ?_⟩
    rw [check_expecting hs]
    rfl
  case cancelled hs ht =>
    refine ⟨failing, false, ?_⟩
    rw [check_expecting hs]
    rfl
  case refunded hs ht hk =>
    refine ⟨{ failing with getNewSwapTxHash := some true, refundOrCancelNewSwap := true }, true, ?_⟩
    rw [check_expecting hs]
    rfl
  case swept hs =>
    refine ⟨failing, true, ?_⟩
    rw [check_sweeping hs]
    rfl
  case sweeping he hs hc hn =>
    subst hn
    refine ⟨{ failing with
      getCounterpartySwapPrivateKey := true
      getSwapKeys                   := true
      claim                         := ⟨true, true, false⟩ }, true, ?_⟩
    rw [check_other he hs]
    rfl
  case claimed he hs hc =>
    refine ⟨{ failing with
      getCounterpartySwapPrivateKey := true
      getSwapKeys                   := true
      claim                         := ⟨true, true, true⟩ }, true, ?_⟩
    rw [check_other he hs]
    cases noTransferBack <;> rfl
  case started start ethSwapInfo sk kp ss hc hi hk _ _ hs =>
    refine ⟨{ failing with
      getSwapKeys         := true
      getContractSwapInfo := some ethSwapInfo
      start               := start }, true, ?_⟩
    obtain ⟨he, hw⟩ := resumable_other (newSwapStateFromOngoing_resumable hs).left
    rw [check_other he hw]
    simp [createOngoingSwap, failing, SweepCalls.failing, hs, Sweep.Found.outcome]

end XMRTaker.SweepCalls

namespace Recovery

variable {C : Curve} {d d' : Daemon} {e : Entry} {id : Bytes32} {calls : RestartCalls} {kind : Kind}
  {status : Status}

section Post

variable {α β : Type} {f : RecoveryDB → Bytes32 → Except DB.Error α}
  {Q : Except Error β → Daemon → Prop}

-- The daemon after a record has been read.
def Daemon.noted (d : Daemon) (kind : Kind) (id : Bytes32) (e : Entry) : Daemon :=
  { d with records := d.records.read (kind, id) e.swap }

theorem post_read_bind {g : α → M β} :
    (read id e kind f >>= g).Post d Q ↔
      (∀ er, f d.recovery id = .error er → Q (.error (.db er)) d) ∧
      ∀ a, f d.recovery id = .ok a → (g a).Post (d.noted kind id e) Q := by
  simp only [read, post_bind_bind, post_get_bind, post_ofExcept_bind, post_modify_bind,
    post_pure_bind]
  cases f d.recovery id <;> simp [Except.mapError, Daemon.noted]

theorem post_attempt_read_bind {g : Except Error α → M β} :
    (attempt (read id e kind f) >>= g).Post d Q ↔
      (∀ er, f d.recovery id = .error er → (g (.error (.db er))).Post d Q) ∧
      ∀ a, f d.recovery id = .ok a → (g (.ok a)).Post (d.noted kind id e) Q := by
  have hr : read id e kind f d =
      match f d.recovery id with
      | .ok a     => (.ok a, d.noted kind id e)
      | .error er => (.error (.db er), d) := by
    simp only [read, Bind.bind, Handler.get, Handler.ofExcept]
    cases f d.recovery id <;> rfl
  simp only [Post, Bind.bind, attempt, hr]
  cases f d.recovery id <;> simp

theorem post_completeOngoingSwap {Q : Except Error Unit → Daemon → Prop} :
    (completeOngoingSwap calls id e status).Post d Q ↔
      (calls.completeOngoingSwap = false → Q (.error .completeOngoingSwap) d) ∧
      (calls.completeOngoingSwap = true → Q (.ok ()) (d.putSwap id { e with status })) := by
  simp only [completeOngoingSwap, post_throwIf_bind, putStatus, post_modify]
  simp

end Post

-- What a restart leaves behind: the status that is stored, whether the swap runs, and what the
-- recovery database holds.
structure Shows (recovery : RecoveryDB) (id : Bytes32) (e : Entry) (status : Status) (runs : Bool)
    (d : Daemon) : Prop where
  entry    : d.swapDB id = some { e with status }
  running  : (d.running e.swap).isSome = runs
  recovery : d.recovery = recovery

variable {recovery : RecoveryDB}

theorem Shows.noted {runs : Bool} (h : Shows recovery id e status runs d) (kind : Kind) :
    Shows recovery id e status runs (d.noted kind id e) :=
  ⟨h.entry, h.running, h.recovery⟩

theorem Shows.putSwap {runs : Bool} (h : Shows recovery id e status runs d) (status' : Status) :
    Shows recovery id e status' runs (d.putSwap id { e with status := status' }) :=
  ⟨update_self .., h.running, h.recovery⟩

theorem Shows.runSwap {runs : Bool} (h : Shows recovery id e status runs d) :
    (runSwap id e).Post d fun _ => Shows recovery id e status true :=
  post_modify.mpr ⟨h.entry, by simp, h.recovery⟩

theorem Shows.complete {status' : Status} {runs : Bool} (h : Shows recovery id e status runs d)
    (hc : calls.completeOngoingSwap = true) :
    (completeOngoingSwap calls id e status').Post d fun _ => Shows recovery id e status' runs :=
  post_completeOngoingSwap.mpr ⟨by simp [hc], fun _ => h.putSwap _⟩

theorem Shows.complete_failing {status' : Status} {runs : Bool}
    (h : Shows recovery id e status runs d) (hc : calls.completeOngoingSwap = false) :
    (completeOngoingSwap calls id e status').Post d fun _ => Shows recovery id e status runs :=
  post_completeOngoingSwap.mpr ⟨fun _ => h, by simp [hc]⟩

theorem Shows.storedKeys {runs : Bool} (h : Shows recovery id e status runs d) :
    (storedKeys C id e).Post d fun r d' => Shows recovery id e status runs d' ∧
      ∀ sk vk keys, recovery.getSwapPrivateKey id = .ok sk → sk.view C = .ok vk →
        recovery.getCounterpartySwapKeys C id = .ok keys → ∃ a, r = .ok a := by
  obtain rfl := h.recovery
  refine post_read_bind.mpr ⟨fun er he => ⟨h, by simp [he]⟩, fun sk hk => ?_⟩
  refine post_ofExcept_bind.mpr ⟨fun er he => ⟨h.noted _, ?_⟩, fun vk _ => ?_⟩
  · obtain ⟨_, hv, -⟩ := Except.mapError_error_iff.mp he
    intro sk' vk keys hk'
    cases hk.symm.trans hk'
    simp [hv]
  refine post_read_bind.mpr ⟨fun er he => ⟨h.noted _, ?_⟩, fun keys _ => ?_⟩
  · have he : RecoveryDB.getCounterpartySwapKeys C d.recovery id = .error er := he
    simp [he]
  · exact post_pure.mpr ⟨(h.noted _).noted _, by simp⟩

theorem Shows.ongoingSwap {runs : Bool} (h : Shows recovery id e status runs d) :
    (ongoingSwap C id e).Post d fun r d' => Shows recovery id e status runs d' ∧
      ∀ info sk kp, recovery.getContractSwapInfo id = .ok info →
        recovery.getSwapPrivateKey id = .ok sk → sk.asPrivateKeyPair C = .ok kp → r = .ok info := by
  obtain rfl := h.recovery
  refine post_read_bind.mpr ⟨fun er he => ⟨h, by simp [he]⟩, fun info hi => ?_⟩
  refine post_read_bind.mpr ⟨fun er he => ⟨h.noted _, ?_⟩, fun sk hk => ?_⟩
  · have he : d.recovery.getSwapPrivateKey id = .error er := he
    simp [he]
  have hk : d.recovery.getSwapPrivateKey id = .ok sk := hk
  refine post_ofExcept_bind.mpr ⟨fun er he => ⟨(h.noted _).noted _, ?_⟩, fun vk _ => ?_⟩
  · obtain ⟨_, hv, -⟩ := Except.mapError_error_iff.mp he
    intro info sk' kp _ hk'
    cases hk.symm.trans hk'
    simp [hv]
  · refine post_pure.mpr ⟨(h.noted _).noted _, fun info' _ _ hi' _ _ => ?_⟩
    exact congrArg _ <| Except.ok.inj <| hi.symm.trans hi'

def RestartCalls.failing : RestartCalls where
  completeOngoingSwap     := false
  sweeping _              := false
  noTransferBack          := false
  claimMonero             := false
  checkIfAlreadyClaimed _ := none
  newSwapState            := false
  maybeCancelNewSwap _    := none
  newSwapParameters       := false
  refund _                := false

namespace XMRTaker

variable (h : Shows recovery id e e.status false d)
include h

theorem claim_failing {skB : PrivateSpendKey} (hc : ∀ kp, calls.sweeping kp = false) :
    (completeSwap C calls id e skB).Post d fun _ => Shows recovery id e e.status false := by
  refine h.storedKeys.bind (fun _ _ hs => hs.left) fun keys d' hs => ?_
  refine post_bind_bind.mpr <| post_throwIf_bind.mpr ⟨fun _ => hs.left, fun hn => ?_⟩
  simp [hc] at hn

theorem check_failing :
    (checkForOngoingSwap C .failing id e).Post d fun _ => Shows recovery id e e.status false := by
  unfold checkForOngoingSwap
  split
  case isTrue =>
    refine post_attempt_read_bind.mpr ⟨fun _ _ => h.complete_failing rfl, fun txHash _ => ?_⟩
    exact post_ofOption_bind.mpr ⟨fun _ => h.noted _, by simp [RestartCalls.failing]⟩
  split
  case isTrue  => exact h.complete_failing rfl
  case isFalse =>
    refine post_attempt_read_bind.mpr ⟨fun _ _ => ?_, fun skB _ => ?_⟩
    · refine h.ongoingSwap.bind (fun _ _ hs => hs.left) fun _ d' hs => ?_
      refine post_throwIf_bind.mpr ⟨fun _ => hs.left, fun _ => ?_⟩
      refine post_read_bind.mpr ⟨fun _ _ => hs.left, fun _ _ => ?_⟩
      exact post_throwIf_bind.mpr ⟨fun _ => hs.left.noted _, by simp [RestartCalls.failing]⟩
    · exact claim_failing (h.noted _) fun _ => rfl

theorem check_expecting {Q : Except Error Unit → Daemon → Prop} (hs : e.status = .expectingKeys)
    (hq : (∀ txHash, recovery.getNewSwapTxHash id ≠ .ok txHash) →
      (completeOngoingSwap calls id e .completedAbort).Post d Q)
    (ht : ∀ txHash, recovery.getNewSwapTxHash id = .ok txHash →
      (refundOrCancelNewSwap calls id e txHash).Post (d.noted .newSwapTxHash id e) Q) :
    (checkForOngoingSwap C calls id e).Post d Q := by
  obtain rfl := h.recovery
  rw [checkForOngoingSwap, if_pos hs]
  exact post_attempt_read_bind.mpr ⟨fun _ he => hq (by simp [he]), ht⟩

theorem check_other {Q : Except Error Unit → Daemon → Prop} (he : e.status ≠ .expectingKeys)
    (hw : e.status ≠ .sweepingXMR)
    (hq : ∀ skB, recovery.getCounterpartySwapPrivateKey id = .ok skB →
      (completeSwap C calls id e skB).Post (d.noted .counterpartySwapPrivateKey id e) Q)
    (hn : (∀ skB, recovery.getCounterpartySwapPrivateKey id ≠ .ok skB) →
      (ongoingSwap C id e >>= fun _ => newSwapStateFromOngoing C calls id e).Post d Q) :
    (checkForOngoingSwap C calls id e).Post d Q := by
  obtain rfl := h.recovery
  rw [checkForOngoingSwap, if_neg he, if_neg hw]
  exact post_attempt_read_bind.mpr ⟨fun _ he => hn (by simp [he]), hq⟩

theorem restarts {b : XMRTaker.Backend} {noTransferBack : Bool} {info : Info}
    {o : XMRTaker.Resumption} (hi : info.offerID = id) (hs : e.status = info.status)
    (hr : XMRTaker.Resumes C b recovery noTransferBack info o) :
    ∃ calls, (checkForOngoingSwap C calls id e).Post d fun _ =>
      Shows recovery id e o.status o.state.isSome := by
  subst hi
  cases hr
  case failed => exact ⟨.failing, hs ▸ check_failing h⟩
  case aborted hx ht =>
    refine ⟨{ RestartCalls.failing with completeOngoingSwap := true }, ?_⟩
    refine check_expecting h (hs.trans hx) (fun _ => h.complete rfl) fun txHash hn => ?_
    exact absurd hn (ht txHash)
  case cancelled txHash hx ht =>
    refine ⟨{ RestartCalls.failing with maybeCancelNewSwap := fun _ => some true }, ?_⟩
    refine check_expecting h (hs.trans hx) (fun hn => absurd ht (hn txHash)) fun _ _ => ?_
    refine post_ofOption_bind.mpr ⟨by simp, fun cancelled hc => ?_⟩
    obtain rfl := Option.some.inj hc
    exact post_pure.mpr (hs ▸ h.noted _)
  case refunded txHash secret hx ht hk =>
    refine ⟨{ RestartCalls.failing with
      maybeCancelNewSwap  := fun _ => some false
      newSwapParameters   := true
      refund              := fun _ => true
      completeOngoingSwap := true }, ?_⟩
    refine check_expecting h (hs.trans hx) (fun hn => absurd ht (hn txHash)) fun _ _ => ?_
    refine post_ofOption_bind.mpr ⟨by simp, fun cancelled hc => ?_⟩
    obtain rfl := Option.some.inj hc
    refine post_throwIf_bind.mpr ⟨by simp, fun _ => ?_⟩
    refine post_read_bind.mpr ⟨fun er he => ?_, fun _ _ => ?_⟩
    · have he : d.recovery.getSwapPrivateKey info.offerID = .error er := he
      rw [h.recovery, hk] at he
      cases he
    refine post_throwIf_bind.mpr ⟨by simp, fun _ => ?_⟩
    exact Shows.complete ((h.noted _).noted _) rfl
  case swept hx =>
    refine ⟨{ RestartCalls.failing with completeOngoingSwap := true }, ?_⟩
    have hx := hs.trans hx
    rw [checkForOngoingSwap, if_neg (by rw [hx]; decide), if_pos hx]
    exact h.complete rfl
  case sweeping he hw hc hn =>
    obtain ⟨_, skA, vkA, keys, hc, hk, hv, hr⟩ := hc
    refine ⟨{ RestartCalls.failing with sweeping := fun _ => true }, ?_⟩
    refine check_other h (hs ▸ he) (hs ▸ hw) (fun skB _ => ?_) fun hn => absurd hc (hn _)
    refine (h.noted _).storedKeys.bind (fun _ _ hf => ?_) fun _ d' hf => ?_
    · simpa using hf.right skA vkA keys hk hv hr
    refine post_bind_bind.mpr <| post_throwIf_bind.mpr ⟨by simp, fun _ => ?_⟩
    refine post_bind_bind.mpr <| post_modify_bind.mpr ?_
    exact post_throwIf_bind.mpr ⟨fun _ => hf.left.putSwap _, by simp [RestartCalls.failing]⟩
  case claimed he hw hc =>
    obtain ⟨_, skA, vkA, keys, hc, hk, hv, hr⟩ := hc
    refine ⟨{ RestartCalls.failing with
      sweeping            := fun _ => true
      noTransferBack      := true
      claimMonero         := true
      completeOngoingSwap := true }, ?_⟩
    refine check_other h (hs ▸ he) (hs ▸ hw) (fun skB _ => ?_) fun hn => absurd hc (hn _)
    refine (h.noted _).storedKeys.bind (fun _ _ hf => ?_) fun _ d' hf => ?_
    · simpa using hf.right skA vkA keys hk hv hr
    refine post_bind_bind.mpr <| post_throwIf_bind.mpr ⟨by simp, fun _ => ?_⟩
    exact post_throwIf_bind.mpr ⟨by simp, fun _ => hf.left.complete rfl⟩
  case started start ethSwapInfo sk kp ss hc hi hk hp hr hn =>
    obtain ⟨hl, -⟩ := XMRTaker.newSwapStateFromOngoing_resumable hn
    obtain ⟨keys, hr⟩ := hr
    rw [← hs] at hl
    obtain ⟨he, hw⟩ := XMRTaker.resumable_other hl
    refine ⟨{ RestartCalls.failing with newSwapState := true }, ?_⟩
    refine check_other h he hw (fun skB hn => absurd hn (hc skB)) fun _ => ?_
    refine h.ongoingSwap.bind (fun _ _ hf => ?_) fun _ d' hf => ?_
    · simpa using hf.right ethSwapInfo sk kp hi hk hp
    refine post_throwIf_bind.mpr ⟨fun hn => absurd hl (not_or.mpr hn), fun _ => ?_⟩
    refine post_read_bind.mpr ⟨fun er he => ?_, fun _ _ => ?_⟩
    · rw [hf.left.recovery, hr] at he
      cases he
    refine post_throwIf_bind.mpr ⟨by simp, fun _ => ?_⟩
    exact hs ▸ (hf.left.noted _).runSwap

end XMRTaker

namespace XMRMaker

variable (h : Shows recovery id e e.status false d)
include h

theorem check_failing :
    (checkForOngoingSwap C .failing id e).Post d fun _ => Shows recovery id e e.status false := by
  unfold checkForOngoingSwap
  split
  case isTrue => exact h.complete_failing rfl
  split
  case isTrue  => exact h.complete_failing rfl
  case isFalse =>
    refine post_attempt_read_bind.mpr ⟨fun _ _ => ?_, fun skA _ => ?_⟩
    · refine post_get_bind.mpr <| post_throwIf_bind.mpr ⟨fun _ => h, fun _ => ?_⟩
      have ht : Shows recovery id e e.status false (d.takeOffer id) :=
        ⟨h.entry, h.running, h.recovery⟩
      refine post_modify_bind.mpr <| ht.ongoingSwap.bind (fun _ _ hs => hs.left) fun _ d' hs => ?_
      exact post_ofOption_bind.mpr ⟨fun _ => hs.left, by simp [RestartCalls.failing]⟩
    · refine (h.noted _).storedKeys.bind (fun _ _ hs => hs.left) fun keys d' hs => ?_
      refine post_bind_bind.mpr <| post_throwIf_bind.mpr ⟨fun _ => hs.left, ?_⟩
      simp [RestartCalls.failing]

theorem check_other {Q : Except Error Unit → Daemon → Prop}
    (he : ¬(e.status = .keysExchanged ∨ e.status = .expectingKeys)) (hw : e.status ≠ .sweepingXMR)
    (hq : ∀ skA, recovery.getCounterpartySwapPrivateKey id = .ok skA →
      (completeSwap C calls id e skA).Post (d.noted .counterpartySwapPrivateKey id e) Q)
    (hn : (∀ skA, recovery.getCounterpartySwapPrivateKey id ≠ .ok skA) → d.offers id = true ∧
      (ongoingSwap C id e >>= newSwapStateFromOngoing calls id e).Post (d.takeOffer id) Q) :
    (checkForOngoingSwap C calls id e).Post d Q := by
  obtain rfl := h.recovery
  rw [checkForOngoingSwap, if_neg he, if_neg hw]
  refine post_attempt_read_bind.mpr ⟨fun _ he => ?_, hq⟩
  obtain ⟨ho, hn⟩ := hn (by simp [he])
  exact post_get_bind.mpr <| post_throwIf_bind.mpr ⟨by simp [ho], fun _ => post_modify_bind.mpr hn⟩

end XMRMaker

end Recovery

namespace XMRTaker.Instance

-- So it is with each ongoing swap when the process starts.
theorem started_waiting {db : Swap.Table} {recovery : RecoveryDB} {noTransferBack : Bool}
    {s : Swap.Record} (hs : db.getSwap s.offerID = some s) (ho : s.status.isOngoing) :
    ∃ p, (started db recovery noTransferBack).Waiting p s := by
  obtain ⟨p, hp⟩ := Swap.Manager.newManager_points.mpr ⟨hs, ho⟩
  refine ⟨p, ⟨Swap.Manager.newManager_keyed, hp⟩, ?_, rfl⟩
  simpa [started, Swap.Manager.newManager] using hs

-- What the startup code does about a swap of the taker, each of the smaller models can do as well.
theorem startup_simulated {C : Curve} {b : Backend} {inst : Instance} {p : ℕ} {s : Swap.Record}
    {calls : StartupCalls} (h : inst.Waiting p s) (ho : s.status.isOngoing) (hp : s.provides = .eth)
    (hk : calls.start.getCounterpartySwapKeys = true →
      ∃ keys, inst.recovery.getCounterpartySwapKeys C s.offerID = .ok keys)
    (stages : Bytes32 → Stage) :
    ∃ o, inst.Shows (checkForOngoingSwap C b calls s.offerID inst).snd s.offerID o ∧
      (o.cancelled.isSome → Cancels calls) ∧
      (∀ d : Daemon, d.info = s.toInfo → d.recovery = inst.recovery →
        (∀ txHash ∈ o.cancelled, d.txs txHash = some .pending) →
        ∃ calls', d.checkForOngoingSwaps b calls' = d.after stages o) ∧
      (∀ d : Sweep.Daemon (role b), d.info = s.toInfo → d.loop = none → ∃ calls' put,
        (d.checkForOngoingSwaps calls' put).info = { d.info with status := o.status } ∧
        (d.checkForOngoingSwaps calls' put).loop = o.state.map (.start · stages true)) ∧
      ∀ (d : Recovery.Daemon) (e : Recovery.Entry), d.swapDB s.offerID = some e →
        e.provides = .eth → e.status = s.status → d.running e.swap = none →
        d.recovery = inst.recovery → ∃ calls', Recovery.Shows inst.recovery s.offerID e o.status
          o.state.isSome (Recovery.checkForOngoingSwap C calls' s.offerID d) := by
  obtain ⟨o, hr, hc, hs⟩ := h.resumed (b := b) hp hk
  refine ⟨o, hs, hc, fun d hi hd ht => ?_, fun d hi hl => ?_, fun d e he hp hs' hn hd => ?_⟩
  · rw [← hi, ← hd] at hr
    exact d.restarts stages hr (by rw [hi]; exact ho) ht
  · rw [← hi] at hr
    obtain ⟨calls', put, hr⟩ := SweepCalls.restarts stages hr
    exact ⟨calls', put, Sweep.Daemon.check_outcome (by rw [hi]; exact ho) hl hr⟩
  · have hd : Recovery.Shows inst.recovery s.offerID e e.status false d := ⟨he, by simp [hn], hd⟩
    obtain ⟨calls', hd⟩ := Recovery.XMRTaker.restarts hd rfl hs' hr
    have hf : Recovery.checkForOngoingSwap C calls' s.offerID d =
        (Recovery.XMRTaker.checkForOngoingSwap C calls' s.offerID e d).snd := by
      simp [Recovery.checkForOngoingSwap, he, hp, hs', ho]
    exact ⟨calls', hf ▸ hd⟩

end XMRTaker.Instance

namespace XMRMaker

-- The answers are those of the database.
structure SweepCalls.Answers (C : Curve) (calls : SweepCalls) (d : Recovery.Daemon) (id : Bytes32) :
    Prop where
  secret   : calls.getCounterpartySwapPrivateKey = true ↔
    ∃ skA, d.recovery.getCounterpartySwapPrivateKey id = .ok skA
  keys     : calls.getSwapKeys = true → ∃ sk vk kp, d.recovery.getSwapPrivateKey id = .ok sk ∧
    sk.view C = .ok vk ∧ sk.asPrivateKeyPair C = .ok kp ∧
    (calls.getCounterpartySwapPrivateKey = true →
      ∃ keys, d.recovery.getCounterpartySwapKeys C id = .ok keys)
  contract : ∀ info, calls.getContractSwapInfo = some info →
    d.recovery.getContractSwapInfo id = .ok info
  offer    : calls.takeOffer.isSome → d.offers id = true

section Restarts

variable {C : Curve} {b : Backend} {calls : SweepCalls} {info : Info} {put : Bool}
  {d : Recovery.Daemon} {e : Recovery.Entry} {id : Bytes32} {o : Status × Option Loop}

-- The recovery can do about the swap what is described by `o`.
def Recovers (C : Curve) (d : Recovery.Daemon) (e : Recovery.Entry) (id : Bytes32)
    (o : Status × Option Loop) : Prop :=
  ∃ calls, (Recovery.XMRMaker.checkForOngoingSwap C calls id e).Post d fun _ =>
    Recovery.Shows d.recovery id e o.fst o.snd.isSome

variable (h : Recovery.Shows d.recovery id e e.status false d)
include h

theorem recovers_failed : Recovers C d e id (e.status, none) :=
  ⟨.failing, Recovery.XMRMaker.check_failing h⟩

theorem recovers_completed {status : Status}
    (hc : ∀ calls, Recovery.XMRMaker.checkForOngoingSwap C calls id e =
      Recovery.completeOngoingSwap calls id e status) :
    Recovers C d e id (if put then status else e.status, none) := by
  cases put
  case false => exact recovers_failed h
  case true  =>
    refine ⟨{ Recovery.RestartCalls.failing with completeOngoingSwap := true }, ?_⟩
    rw [hc]
    exact h.complete rfl

section Other

variable (he : ¬(e.status = .keysExchanged ∨ e.status = .expectingKeys))
  (hw : e.status ≠ .sweepingXMR) (ha : calls.Answers C d id) (hk : calls.getSwapKeys = true)
include he hw ha hk

theorem recovers_claimed {claim : Sweep.ClaimCalls}
    (hg : calls.getCounterpartySwapPrivateKey = true) :
    Recovers C d e id
      ((Sweep.Found.completeSwap false claim).outcome put e.status .completedRefund) := by
  by_cases hr : claim.ready = true ∧ claim.written = true
  case neg =>
    have ho : (Sweep.Found.completeSwap false claim : Sweep.Found Loop).outcome put e.status
        .completedRefund = (e.status, none) := by
      obtain ⟨ready, written, swept⟩ := claim
      cases ready <;> cases written <;> simp_all [Sweep.Found.outcome]
    exact ho ▸ recovers_failed h
  case pos =>
    obtain ⟨skA, hg⟩ := ha.secret.mp hg
    obtain ⟨sk, vk, _, hp, hv, -, hc⟩ := ha.keys hk
    obtain ⟨keys, hc⟩ := hc (ha.secret.mpr ⟨skA, hg⟩)
    refine ⟨{ Recovery.RestartCalls.failing with
      sweeping            := fun _ => true
      claimMonero         := claim.swept
      completeOngoingSwap := put }, ?_⟩
    refine Recovery.XMRMaker.check_other h he hw (fun _ _ => ?_) fun hn => absurd hg (hn skA)
    refine (h.noted _).storedKeys.bind (fun _ _ hf => ?_) fun _ d' hf => ?_
    · simpa using hf.right sk vk keys hp hv hc
    refine post_bind_bind.mpr <| post_throwIf_bind.mpr ⟨by simp, fun _ => ?_⟩
    refine post_bind_bind.mpr <| post_modify_bind.mpr ?_
    have hf := hf.left.putSwap .sweepingXMR
    refine post_throwIf_bind.mpr ⟨fun hn => ?_, fun hn => ?_⟩
    · have hn : claim.swept = false := by simpa using hn
      simpa [Sweep.Found.outcome, hr, hn] using hf
    · have hn : claim.swept = true := by simpa using hn
      have ho : ((Sweep.Found.completeSwap false claim : Sweep.Found Loop).outcome put e.status
          .completedRefund).fst = if put then .completedRefund else .sweepingXMR := by
        simp [Sweep.Found.outcome, hr, hn]
      rw [ho]
      cases put
      case false => exact hf.complete_failing rfl
      case true  => exact hf.complete rfl

section Ongoing

variable {ethSwapInfo : EthereumSwapInfo} (hg : calls.getCounterpartySwapPrivateKey = false)
  (ho : calls.takeOffer.isSome) (hi : calls.getContractSwapInfo = some ethSwapInfo)
include hg ho hi

theorem check_ongoing {calls' : Recovery.RestartCalls} {status : Status} {runs : Bool}
    (hq : ∀ d', Recovery.Shows d.recovery id e e.status false d' →
      (Recovery.XMRMaker.newSwapStateFromOngoing calls' id e ethSwapInfo).Post d' fun _ =>
        Recovery.Shows d.recovery id e status runs) :
    (Recovery.XMRMaker.checkForOngoingSwap C calls' id e).Post d fun _ =>
      Recovery.Shows d.recovery id e status runs := by
  obtain ⟨sk, _, kp, hp, -, hv, -⟩ := ha.keys hk
  have hs : ∀ skA, d.recovery.getCounterpartySwapPrivateKey id ≠ .ok skA := by
    intro skA hs
    simp [ha.secret.mpr ⟨skA, hs⟩] at hg
  have ht : Recovery.Shows d.recovery id e e.status false (d.takeOffer id) :=
    ⟨h.entry, h.running, h.recovery⟩
  refine Recovery.XMRMaker.check_other h he hw (fun skA hn => absurd hn (hs skA)) fun _ => ?_
  refine ⟨ha.offer ho, ht.ongoingSwap.bind (fun _ _ hf => ?_) fun info d' hf => ?_⟩
  · simpa using hf.right ethSwapInfo sk kp (ha.contract _ hi) hp hv
  · obtain rfl := Except.ok.inj <| hf.right ethSwapInfo sk kp (ha.contract _ hi) hp hv
    exact hq d' hf.left

-- The ETH has already been claimed.
theorem recovers_alreadyClaimed :
    Recovers C d e id (if put then .completedSuccess else e.status, none) := by
  let calls' := { Recovery.RestartCalls.failing with
    checkIfAlreadyClaimed := fun _ => some true
    completeOngoingSwap   := put }
  refine ⟨calls', check_ongoing h he hw ha hk hg ho hi fun d' hd => ?_⟩
  have hp : (Recovery.completeOngoingSwap calls' id e .completedSuccess).Post d' fun _ =>
      Recovery.Shows d.recovery id e (if put then .completedSuccess else e.status) false := by
    cases put
    case false => exact hd.complete_failing rfl
    case true  => exact hd.complete rfl
  refine post_ofOption_bind.mpr ⟨by simp [calls'], fun alreadyClaimed hc => ?_⟩
  obtain rfl := Option.some.inj hc
  refine hp.bind (fun _ _ hf => hf) fun _ d'' hf => ?_
  exact post_modify_bind.mpr ⟨hf.entry, hf.running, hf.recovery⟩

theorem recovers_started {m : Loop} (hs : e.status = .xmrLocked) :
    Recovers C d e id (e.status, some m) := by
  refine ⟨{ Recovery.RestartCalls.failing with
    checkIfAlreadyClaimed := fun _ => some false
    newSwapState          := true }, check_ongoing h he hw ha hk hg ho hi fun d' hd => ?_⟩
  refine post_ofOption_bind.mpr ⟨by simp, fun alreadyClaimed hc => ?_⟩
  obtain rfl := Option.some.inj hc
  refine post_throwIf_bind.mpr ⟨by simp [hs], fun _ => ?_⟩
  exact post_throwIf_bind.mpr ⟨by simp, fun _ => hd.runSwap⟩

end Ongoing

end Other

theorem recovers_createOngoingSwap (he : ¬(e.status = .keysExchanged ∨ e.status = .expectingKeys))
    (hw : e.status ≠ .sweepingXMR) (hs : e.status = info.status) (ha : calls.Answers C d id) :
    Recovers C d e id
      ((calls.createOngoingSwap b info).outcome put e.status .completedRefund) := by
  unfold SweepCalls.createOngoingSwap
  split
  case isTrue hg =>
    split
    case isTrue hk => exact recovers_claimed h he hw ha hk hg
    case isFalse   => exact recovers_failed h
  case isFalse hg =>
    have hg : calls.getCounterpartySwapPrivateKey = false := by simpa using hg
    split
    case h_2 => exact recovers_failed h
    case h_1 offer ethSwapInfo ho hi =>
      have ho : calls.takeOffer.isSome := by simp [ho]
      split
      case isTrue     => exact recovers_failed h
      case isFalse hk =>
        have hk : calls.getSwapKeys = true := by simpa using hk
        split
        case h_1 => exact recovers_failed h
        case h_2 => exact recovers_alreadyClaimed h he hw ha hk hg ho hi
        case h_3 =>
          split
          case h_2      => exact recovers_failed h
          case h_1 s hn =>
            refine recovers_started h he hw ha hk hg ho hi (hs.trans ?_)
            simp only [newSwapStateFromOngoing, Except.bind_ok_iff, Except.failIf_eq_ok] at hn
            obtain ⟨_, hn, _⟩ := hn
            exact not_not.mp hn

theorem recovers_checkForOngoingSwap (hs : e.status = info.status) (ha : calls.Answers C d id) :
    Recovers C d e id
      ((calls.checkForOngoingSwap b info).outcome put e.status .completedRefund) := by
  rw [SweepCalls.checkForOngoingSwap, ← hs]
  split
  case isTrue he =>
    exact recovers_completed h fun _ => by rw [Recovery.XMRMaker.checkForOngoingSwap, if_pos he]
  split
  case isTrue he hw  =>
    refine recovers_completed h fun _ => ?_
    rw [Recovery.XMRMaker.checkForOngoingSwap, if_neg he, if_pos hw]
  case isFalse he hw => exact recovers_createOngoingSwap h he hw hs ha

end Restarts

-- What the maker does about a swap when the daemon is started again, the recovery can do as well.
theorem sweep_recovers {C : Curve} {b : Backend} {calls : (role b).RestartCalls} {id : Bytes32}
    {sweep : Sweep.Daemon (role b)} {d : Recovery.Daemon} {e : Recovery.Entry}
    (hl : sweep.loop = none) (ho : sweep.info.status.isOngoing) (hd : d.swapDB id = some e)
    (hp : e.provides = .xmr) (hs : e.status = sweep.info.status) (hr : d.running e.swap = none)
    (ha : SweepCalls.Answers C calls d id) (put : Bool) :
    ∃ calls', Recovery.Shows d.recovery id e (sweep.checkForOngoingSwaps calls put).info.status
      (sweep.checkForOngoingSwaps calls put).loop.isSome
      (Recovery.checkForOngoingSwap C calls' id d) := by
  have h : Recovery.Shows d.recovery id e e.status false d := ⟨hd, by simp [hr], rfl⟩
  let found := SweepCalls.checkForOngoingSwap b calls sweep.info
  have hc : Recovers C d e id (found.outcome put e.status .completedRefund) :=
    recovers_checkForOngoingSwap h hs ha
  obtain ⟨calls', hc⟩ := hc
  have hf : Recovery.checkForOngoingSwap C calls' id d =
      (Recovery.XMRMaker.checkForOngoingSwap C calls' id e d).snd := by
    simp [Recovery.checkForOngoingSwap, hd, hp, hs, ho]
  have hr : ((role b).restart calls sweep.info).outcome put sweep.info.status (role b).claimed =
      found.outcome put e.status .completedRefund := by
    rw [hs]
    rfl
  obtain ⟨hi, hm⟩ := Sweep.Daemon.check_outcome ho hl hr
  exact ⟨calls', by rw [hf, hi, hm]; exact hc⟩

end XMRMaker
