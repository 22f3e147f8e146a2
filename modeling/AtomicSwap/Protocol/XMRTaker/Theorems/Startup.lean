import AtomicSwap.Protocol.Swap.Theorems.Ongoing
import AtomicSwap.Protocol.Theorems.LockAccount
import AtomicSwap.Protocol.XMRTaker.Startup
import AtomicSwap.Protocol.XMRTaker.Theorems.Retirement

open Ethereum SwapCreator Handler Function
open DB (RecoveryDB)
open Monero (Curve PrivateKeyPair PrivateSpendKey)

namespace XMRTaker.Instance

variable {C : Curve} {b : Backend} {calls : StartupCalls} {inst inst' inst'' : Instance} {p : ℕ}
  {s : Swap.Record} {id : Bytes32} {status : Status}

-- Only the swap with the given ID has been touched, and no keys.
structure Touches (id : Bytes32) (inst inst' : Instance) : Prop where
  frame          : inst.swapManager.Frame id inst'.swapManager
  recovery       : inst'.recovery = inst.recovery
  noTransferBack : inst'.noTransferBack = inst.noTransferBack

theorem Touches.trans (h : Touches id inst inst') (h' : Touches id inst' inst'') :
    Touches id inst inst'' :=
  ⟨h.frame.trans h'.frame, h'.recovery.trans h.recovery,
    h'.noTransferBack.trans h.noTransferBack⟩

-- The swap that a round of the loop is about.
structure Found (inst : Instance) (id : Bytes32) (p : ℕ) (s : Swap.Record) : Prop where
  keyed  : inst.swapManager.Keyed
  points : inst.swapManager.Points id p s

theorem Found.offerID (h : inst.Found id p s) : s.offerID = id :=
  h.points.offerID h.keyed

theorem Found.refl (h : inst.Found id p s) : Touches id inst inst :=
  ⟨.refl h.keyed, rfl, rfl⟩

-- The swap is not ongoing any more, also for the next process.
structure Completed (inst : Instance) (id : Bytes32) (status : Status) : Prop where
  ongoing : id ∉ inst.swapManager.ongoing
  stored  : ∃ s, inst.swapManager.db.getSwap id = some s ∧ s.status = status

theorem Completed.status_eq (h : inst.Completed id status)
    (hs : inst.swapManager.db.getSwap id = some s) : s.status = status := by
  obtain ⟨s', hs', ho⟩ := h.stored
  cases hs.symm.trans hs'
  exact ho

structure Completes (calls : StartupCalls) (inst : Instance) (id : Bytes32) (status : Status)
    (r : Except StartupError Unit) (inst' : Instance) : Prop where
  touches   : Touches id inst inst'
  completed : r = .ok () → inst'.Completed id status
  unstored  : r ≠ .ok () → inst'.swapManager.db.getSwap id = inst.swapManager.db.getSwap id
  succeeds  : calls.put = true → r = .ok ()
  calm      : ∀ e, r = .error e → e.isPanic = false

-- The transaction is pending, and is cancelled.
def Cancels (calls : StartupCalls) : Prop :=
  calls.transactionByHash = some true ∧ calls.cancelTxWithNonce = .included

instance : Decidable (Cancels calls) :=
  inferInstanceAs (Decidable (_ ∧ _))

-- The stored swap has not changed, or is on its way to success.
def Advances (inst : Instance) (id : Bytes32) (inst' : Instance) : Prop :=
  inst'.swapManager.db.getSwap id = inst.swapManager.db.getSwap id ∨
  ∃ s, inst'.swapManager.db.getSwap id = some s ∧
    (s.status = .sweepingXMR ∨ s.status = .completedSuccess)

-- The state of a swap cannot be made from what is stored, since an amount is out of range.
def Panics (C : Curve) (b : Backend) (start : StartCalls) (inst : Instance) (s : Swap.Record) :
    Prop :=
  (∀ skB, inst.recovery.getCounterpartySwapPrivateKey s.offerID ≠ .ok skB) ∧
  ∃ info sk kp e, inst.recovery.getContractSwapInfo s.offerID = .ok info ∧
    inst.recovery.getSwapPrivateKey s.offerID = .ok sk ∧ sk.asPrivateKeyPair C = .ok kp ∧
    newSwapStateFromOngoing b start s.toInfo inst.noTransferBack info = .error e ∧ e.isPanic

section Post

variable {α β : Type} {Q : Except StartupError β → Instance → Prop}

theorem post_recoveryDB_bind {f : RecoveryDB → Except DB.Error α} {g : α → M β} :
    (recoveryDB f >>= g).Post inst Q ↔
      (∀ e, f inst.recovery = .error e → Q (.error (.recoveryDB e)) inst) ∧
      ∀ a, f inst.recovery = .ok a → (g a).Post inst Q := by
  simp only [recoveryDB, post_bind_bind, post_get_bind, post_ofExcept_bind]
  cases f inst.recovery <;> simp [Except.mapError]

theorem post_attempt_recoveryDB_bind {f : RecoveryDB → Except DB.Error α}
    {g : Except StartupError α → M β} :
    (attempt (recoveryDB f) >>= g).Post inst Q ↔
      (∀ e, f inst.recovery = .error e → (g (.error (.recoveryDB e))).Post inst Q) ∧
      ∀ a, f inst.recovery = .ok a → (g (.ok a)).Post inst Q := by
  have hr : recoveryDB f inst = ((f inst.recovery).mapError .recoveryDB, inst) := rfl
  simp only [Post, Bind.bind, attempt, hr]
  cases f inst.recovery <;> simp [Except.mapError]

-- The instance after the status of a swap has been set.
def withStatus (inst : Instance) (p : ℕ) (status : Status) : Instance :=
  { inst with
    swapManager.infos := inst.swapManager.infos.modify p ({ · with status }) }

theorem post_setStatus_bind {g : Unit → M β} :
    (swaps (Swap.Manager.setStatus p status) >>= g).Post inst Q ↔
      (g ()).Post (inst.withStatus p status) Q :=
  Iff.rfl

end Post

theorem maybeCancelNewSwap_post :
    (maybeCancelNewSwap calls).Post inst fun r inst' =>
      inst' = inst ∧ ∀ cancelled, r = .ok cancelled → (cancelled = true ↔ Cancels calls) := by
  refine post_ofOption_bind.mpr ⟨fun _ => ⟨rfl, by simp⟩, fun isPending hp => ?_⟩
  cases isPending
  case false => exact post_pure.mpr ⟨rfl, by simp [Cancels, hp]⟩
  case true  =>
    refine post_throwIf_bind.mpr ⟨fun _ => ⟨rfl, by simp⟩, fun _ => post_pure.mpr ⟨rfl, ?_⟩⟩
    simp [Cancels, hp]

section Functions

variable (h : inst.Found id p s)
include h

theorem withStatus_touches : Touches id inst (inst.withStatus p status) :=
  ⟨Swap.Manager.modify_frame h.points h.keyed rfl, rfl, rfl⟩

theorem withStatus_found : (inst.withStatus p status).Found id p { s with status } :=
  ⟨(withStatus_touches h).frame.keyed, Swap.Manager.modify_points h.points⟩

theorem completeOngoingSwap_post :
    (completeOngoingSwap calls p status).Post inst (Completes calls inst id status) := by
  have ht : Touches id inst (inst.withStatus p status) := withStatus_touches h
  have hs : (inst.withStatus p status).Found id p { s with status } := withStatus_found h
  let s' : Swap.Record := { s with status, endTime := some calls.now }
  have hi : s'.offerID = id := h.offerID
  have hm : (inst.withStatus p status).swapManager.Frame id
      ((inst.withStatus p status).swapManager.moved calls.now p { s with status }) :=
    Swap.Manager.moved_frame hs.points hs.keyed
  refine post_setStatus_bind.mpr <| post_zoom.mpr <|
    (Swap.Manager.post_completeOngoingSwap_points hs.points hs.keyed).mpr ⟨?_, ?_⟩ <;> intro hp
  · refine ⟨ht.trans ⟨hm, rfl, rfl⟩, by simp, fun _ => rfl, by simp [hp], fun e he => ?_⟩
    cases he
    rfl
  · have hf := hm.trans <| Swap.Manager.putSwap_frame hm.keyed hi
    refine ⟨ht.trans ⟨hf, rfl, rfl⟩, fun _ => ⟨?_, s', ?_, rfl⟩, by simp, fun _ => rfl, by simp⟩
    · rw [← hi]
      exact AList.mem_erase.not.mpr (by simp [s'])
    · rw [← hi]
      exact Swap.Table.getSwap_putSwap_self

theorem abortOngoingSwap_post :
    (abortOngoingSwap calls p s).Post inst fun r inst' =>
      Touches id inst inst' ∧ (r = .ok () → inst'.Completed id .completedAbort) := by
  refine (completeOngoingSwap_post h).bind (fun e inst' hr => ⟨hr.touches, by simp⟩) ?_
  rintro _ inst' hr
  have ht := hr.touches
  have hc := hr.completed rfl
  exact post_modify.mpr
    ⟨⟨ht.frame, ht.recovery, ht.noTransferBack⟩, fun _ => ⟨hc.ongoing, hc.stored⟩⟩

theorem refundNewSwap_post :
    (refundNewSwap b calls p s).Post inst fun r inst' =>
      Touches id inst inst' ∧ (r = .ok () → inst'.Completed id .completedRefund) := by
  have he : ∀ e : StartupError, Touches id inst inst ∧
      ((.error e : Except StartupError Unit) = .ok () → inst.Completed id .completedRefund) :=
    fun e => ⟨h.refl, by simp⟩
  refine post_ofOption_bind.mpr ⟨fun _ => he _, fun receipt _ => ?_⟩
  refine post_throwIf_bind.mpr ⟨fun _ => he _, fun _ => ?_⟩
  refine post_ofExcept_bind.mpr ⟨fun _ _ => he _, fun (t1, t2) _ => ?_⟩
  refine post_ofOption_bind.mpr ⟨fun _ => he _, fun params _ => ?_⟩
  refine post_recoveryDB_bind.mpr ⟨fun _ _ => he _, fun secret _ => ?_⟩
  refine post_throwIf_bind.mpr ⟨fun _ => he _, fun _ => ?_⟩
  refine post_ofOption_bind.mpr ⟨fun _ => he _, fun stage _ => ?_⟩
  refine post_throwIf_bind.mpr ⟨fun _ => he _, fun _ => ?_⟩
  refine post_throwIf_bind.mpr ⟨fun _ => he _, fun _ => ?_⟩
  refine post_throwIf_bind.mpr ⟨fun _ => he _, fun _ => ?_⟩
  refine post_throwIf_bind.mpr ⟨fun _ => he _, fun _ => ?_⟩
  exact (completeOngoingSwap_post h).imp fun r inst' hr => ⟨hr.touches, hr.completed⟩

theorem refundOrCancelNewSwap_post :
    (refundOrCancelNewSwap b calls p s).Post inst fun r inst' =>
      Touches id inst inst' ∧
      (r = .ok () →
        if Cancels calls then inst' = inst else inst'.Completed id .completedRefund) := by
  refine maybeCancelNewSwap_post.bind (fun e inst' hc => ?_) fun cancelled inst' hc => ?_
  · obtain ⟨rfl, -⟩ := hc
    exact ⟨h.refl, by simp⟩
  obtain ⟨rfl, hc⟩ := hc
  cases cancelled
  case false => simpa [← hc false rfl] using refundNewSwap_post h
  case true  => exact post_pure.mpr ⟨h.refl, fun _ => by simp [← hc true rfl]⟩

theorem claimMonero_post {kpAB : PrivateKeyPair} :
    (claimMonero calls p kpAB).Post inst fun r inst' =>
      Touches id inst inst' ∧ (∀ e, r = .error e → e.isPanic = false) ∧
      inst.Advances id inst' ∧ ∃ s', inst'.Found id p s' := by
  have hs : (inst.withStatus p .sweepingXMR).Found id p { s with status := .sweepingXMR } :=
    withStatus_found h
  have ht : Touches id inst (inst.withStatus p .sweepingXMR) := withStatus_touches h
  have hf : (inst.withStatus p .sweepingXMR).swapManager.Frame id _ :=
    Swap.Manager.putSwap_frame hs.keyed hs.offerID
  refine post_throwIf_bind.mpr ⟨fun _ => ⟨h.refl, ?_, .inl rfl, s, h⟩, fun _ => ?_⟩
  · simp [StartupError.isPanic]
  refine post_get_bind.mpr ?_
  split
  case isTrue => exact post_pure.mpr ⟨h.refl, by simp, .inl rfl, s, h⟩
  refine post_setStatus_bind.mpr <| post_zoom_bind.mpr <|
    (Swap.Manager.post_writeSwapToDB_points hs.points).mpr ⟨fun _ => ?_, fun _ => ?_⟩
  · exact ⟨ht, by simp [StartupError.isPanic], .inl rfl, _, hs⟩
  · let s' : Swap.Record := { s with status := .sweepingXMR }
    refine post_ofExcept.mpr ⟨ht.trans ⟨hf, rfl, rfl⟩, ?_, .inr ⟨s', ?_, .inl rfl⟩, s', ?_⟩
    · split <;> simp [StartupError.isPanic]
    · exact hs.offerID ▸ Swap.Table.getSwap_putSwap_self
    · exact ⟨hf.keyed, hs.points.lookup, hs.points.info⟩

theorem completeSwap_post {skB : PrivateSpendKey} :
    (completeSwap C calls p s skB).Post inst fun r inst' =>
      Touches id inst inst' ∧ (∀ e, r = .error e → e.isPanic = false) ∧ inst.Advances id inst' := by
  have he : ∀ e : StartupError, e.isPanic = false → Touches id inst inst ∧
      (∀ e', (.error e : Except StartupError Unit) = .error e' → e'.isPanic = false) ∧
      inst.Advances id inst :=
    fun e he => ⟨h.refl, by simp [he], .inl rfl⟩
  refine post_recoveryDB_bind.mpr ⟨fun _ _ => he _ rfl, fun skA _ => ?_⟩
  refine post_ofExcept_bind.mpr ⟨fun e hv => he _ ?_, fun vkA _ => ?_⟩
  · obtain ⟨_, -, rfl⟩ := Except.mapError_error_iff.mp hv
    rfl
  refine post_recoveryDB_bind.mpr ⟨fun _ _ => he _ rfl, fun (_, vkB) _ => ?_⟩
  refine (claimMonero_post h).bind ?_ ?_
  · exact fun e inst' hc => ⟨hc.left, hc.right.left, hc.right.right.left⟩
  rintro _ inst' ⟨ht, -, hd, s', hs'⟩
  refine (completeOngoingSwap_post hs').imp fun r inst'' hr =>
    ⟨ht.trans hr.touches, hr.calm, ?_⟩
  by_cases ho : r = .ok ()
  case pos =>
    obtain ⟨s, hs, hc⟩ := (hr.completed ho).stored
    exact .inr ⟨s, hs, .inr hc⟩
  case neg =>
    rw [Advances, hr.unstored ho]
    exact hd

theorem createOngoingSwap_post :
    (createOngoingSwap C b calls p s).Post inst fun r inst' =>
      Touches id inst inst' ∧ inst.Advances id inst' ∧
      ((∃ e, r = .error e ∧ e.isPanic) ↔ Panics C b calls.start inst s) := by
  refine post_attempt_recoveryDB_bind.mpr ⟨fun _ hr => ?_, fun skB hr => ?_⟩
  case refine_2 =>
    refine (completeSwap_post h).imp fun r inst' ⟨ht, he, hd⟩ => ⟨ht, hd, ?_⟩
    refine iff_of_false ?_ fun hp => hp.left skB hr
    rintro ⟨e, hr, hp⟩
    simp [he e hr] at hp
  case refine_1 =>
    refine post_recoveryDB_bind.mpr ⟨fun e he => ⟨h.refl, .inl rfl, ?_⟩, fun info hi => ?_⟩
    · simp [Panics, he, StartupError.isPanic]
    refine post_recoveryDB_bind.mpr ⟨fun e he => ⟨h.refl, .inl rfl, ?_⟩, fun sk hs => ?_⟩
    · simp [Panics, he, StartupError.isPanic]
    refine post_ofExcept_bind.mpr ⟨fun e he => ⟨h.refl, .inl rfl, ?_⟩, fun kp hp => ?_⟩
    · obtain ⟨e', he', rfl⟩ := Except.mapError_error_iff.mp he
      simp [Panics, hs, he', StartupError.isPanic]
    refine post_get_bind.mpr <| post_ofExcept_bind.mpr
      ⟨fun e he => ⟨h.refl, .inl rfl, ?_⟩, fun ss hs' => ?_⟩
    · obtain ⟨e', he', rfl⟩ := Except.mapError_error_iff.mp he
      simp [Panics, hr, hi, hs, Except.mapError_eq_ok.mp hp, he', StartupError.isPanic]
    · refine post_modify.mpr ⟨⟨h.refl.frame, rfl, rfl⟩, .inl rfl, ?_⟩
      simp [Panics, hi, Except.mapError_eq_ok.mp hs']

end Functions

section Round

-- A swap of the taker that has not got the keys of the maker, as far as the database knows.
def Expecting (s : Swap.Record) : Prop :=
  s.provides = .eth ∧ s.status = .expectingKeys

instance : Decidable (Expecting s) :=
  inferInstanceAs (Decidable (_ ∧ _))

-- The transaction of the swap has been saved, and is cancelled.
def Cancelled (calls : StartupCalls) (recovery : RecoveryDB) (s : Swap.Record) : Prop :=
  (∃ txHash, recovery.getNewSwapTxHash s.offerID = .ok txHash) ∧ Cancels calls

-- No restart can fail because of the swap.
def Harmless (C : Curve) (b : Backend) (start : StartCalls) (inst : Instance) (s : Swap.Record) :
    Prop :=
  s.provides = .eth →
    s.status ≠ .expectingKeys ∧ (s.status ≠ .sweepingXMR → ¬Panics C b start inst s)

structure Settled (inst : Instance) (id : Bytes32) : Prop where
  ongoing : id ∉ inst.swapManager.ongoing
  stored  : ∃ s, inst.swapManager.db.getSwap id = some s ∧
    (s.status = .completedAbort ∨ s.status = .completedRefund)

theorem Completed.settled (h : inst.Completed id status)
    (hs : status = .completedAbort ∨ status = .completedRefund) : inst.Settled id := by
  obtain ⟨s, hs', rfl⟩ := h.stored
  exact ⟨h.ongoing, s, hs', hs⟩

-- What becomes of a swap if the round does not fail.
structure Outcome (C : Curve) (b : Backend) (calls : StartupCalls) (inst : Instance) (id : Bytes32)
    (s : Swap.Record) (inst' : Instance) : Prop where
  settled  : Expecting s → ¬Cancelled calls inst.recovery s → inst'.Settled id
  kept     : Expecting s → Cancelled calls inst.recovery s → id ∈ inst'.swapManager.ongoing
  harmless : (Expecting s → ¬Cancelled calls inst.recovery s) → ∀ s',
    inst'.swapManager.db.getSwap id = some s' → s'.status.isOngoing →
    Harmless C b calls.start inst s'

structure Round (C : Curve) (b : Backend) (calls : StartupCalls) (inst : Instance) (id : Bytes32)
    (s : Swap.Record) (r : Except StartupError Unit) (inst' : Instance) : Prop where
  touches  : Touches id inst inst'
  outcome  : r = .ok () → Outcome C b calls inst id s inst'
  succeeds : Harmless C b calls.start inst s → calls.put = true → r = .ok ()

variable (h : inst.Found id p s)
include h

theorem settleNewSwap_post :
    (settleNewSwap b calls p s).Post inst fun r inst' =>
      Touches id inst inst' ∧
      (r = .ok () → (Cancelled calls inst.recovery s → inst' = inst) ∧
        (¬Cancelled calls inst.recovery s → inst'.Settled id)) := by
  refine post_throwIf_bind.mpr ⟨fun _ => ⟨h.refl, by simp⟩, fun _ => ?_⟩
  refine post_attempt_recoveryDB_bind.mpr ⟨fun _ hr => ?_, fun txHash hr => ?_⟩
  · have hn : ¬Cancelled calls inst.recovery s := by simp [Cancelled, hr]
    refine (abortOngoingSwap_post h).imp fun r inst' ⟨ht, hc⟩ => ⟨ht, fun ho => ?_⟩
    exact ⟨(absurd · hn), fun _ => (hc ho).settled (.inl rfl)⟩
  · have hn : Cancelled calls inst.recovery s ↔ Cancels calls := by simp [Cancelled, hr]
    refine (refundOrCancelNewSwap_post h).imp fun r inst' ⟨ht, hc⟩ => ⟨ht, fun ho => ?_⟩
    rw [hn]
    refine ⟨fun hp => by simpa [hp] using hc ho, fun hp => ?_⟩
    have hc : inst'.Completed id .completedRefund := by simpa [hp] using hc ho
    exact hc.settled (.inr rfl)

theorem resumeOngoingSwap_post :
    (resumeOngoingSwap C b calls p s).Post inst fun r inst' =>
      Touches id inst inst' ∧ inst.Advances id inst' ∧
      (r = .ok () ↔ ¬Panics C b calls.start inst s) := by
  refine (createOngoingSwap_post h).attempt_bind ?_
  rintro (e | u) inst' ⟨ht, hd, hp⟩ <;> rw [← hp]
  case error =>
    refine post_ofExcept.mpr ⟨ht, hd, ?_⟩
    cases he : e.isPanic <;> simp [he]
  case ok => exact post_pure.mpr ⟨ht, hd, by simp⟩

theorem settleNewSwap_round (he : Expecting s) :
    (settleNewSwap b calls p s).Post inst (Round C b calls inst id s) := by
  refine (settleNewSwap_post h).imp fun r inst' ⟨ht, hr⟩ => ⟨ht, fun ho => ?_, fun hh => ?_⟩
  · obtain ⟨hc, hn⟩ := hr ho
    refine ⟨fun _ => hn, fun _ hc' => hc hc' ▸ h.points.mem, fun hn' s' hs' ho' => ?_⟩
    obtain ⟨s'', hs'', hf⟩ := (hn (hn' he)).stored
    cases hs'.symm.trans hs''
    rcases hf with hf | hf <;> simp [hf, Status.isOngoing] at ho'
  · exact absurd he.right (hh he.left).left

theorem sweeping_round (he : ¬Expecting s) :
    (completeOngoingSwap calls p .completedSuccess).Post inst (Round C b calls inst id s) := by
  refine (completeOngoingSwap_post h).imp fun r inst' hr =>
    ⟨hr.touches, fun ho => ?_, fun _ => hr.succeeds⟩
  refine ⟨(absurd · he), (absurd · he), fun _ s' hs' ho' => ?_⟩
  simp [(hr.completed ho).status_eq hs', Status.isOngoing] at ho'

section Stored

variable (hd : inst.swapManager.db.getSwap id = some s)
include hd

theorem resumeOngoingSwap_round (hp : s.provides = .eth) (he : s.status ≠ .expectingKeys)
    (hw : s.status ≠ .sweepingXMR) :
    (resumeOngoingSwap C b calls p s).Post inst (Round C b calls inst id s) := by
  have he' : ¬Expecting s := fun h => he h.right
  refine (resumeOngoingSwap_post h).imp fun r inst' ⟨ht, ha, hr⟩ =>
    ⟨ht, fun ho => ⟨(absurd · he'), (absurd · he'), fun _ s' hs' ho' => ?_⟩, fun hh _ => ?_⟩
  · rcases ha with ha | ⟨s'', hs'', hf⟩
    case inl =>
      cases hd.symm.trans (ha.symm.trans hs')
      exact fun _ => ⟨he, fun _ => hr.mp ho⟩
    case inr =>
      cases hs'.symm.trans hs''
      rcases hf with hf | hf
      case inl => exact fun _ => ⟨by simp [hf], fun hn => absurd hf hn⟩
      case inr => simp [hf, Status.isOngoing] at ho'
  · exact hr.mpr ((hh hp).right hw)

theorem recoverSwap_round : (recoverSwap C b calls p s).Post inst (Round C b calls inst id s) := by
  unfold recoverSwap
  by_cases hp : s.provides = .eth
  case neg =>
    rw [if_pos hp]
    have he : ¬Expecting s := fun he => hp he.left
    refine post_pure.mpr ⟨h.refl, fun _ => ⟨(absurd · he), (absurd · he), ?_⟩, fun _ _ => rfl⟩
    intro _ s' hs _ hp'
    cases hd.symm.trans hs
    exact absurd hp' hp
  case pos =>
    rw [if_neg (not_not.mpr hp)]
    split
    case isTrue he => exact settleNewSwap_round h ⟨hp, he⟩
    split
    case isTrue he hw  => exact sweeping_round h fun h => he h.right
    case isFalse he hw => exact resumeOngoingSwap_round h hd hp he hw

theorem checkForOngoingSwap_round :
    (checkForOngoingSwap C b calls id).Post inst (Round C b calls inst id s) := by
  refine post_zoom_bind.mpr <| post_get_bind.mpr <| post_ofOption.mpr ⟨?_, ?_⟩
  · simp [h.points.lookup]
  intro p' hp
  obtain rfl : p = p' := Option.some.inj (h.points.lookup.symm.trans hp)
  refine post_zoom_bind.mpr <| post_get_bind.mpr <| post_ofOption.mpr ⟨?_, ?_⟩
  · simp [h.points.info]
  intro s' hs
  obtain rfl : s = s' := Option.some.inj (h.points.info.symm.trans hs)
  exact recoverSwap_round h hd

end Stored

end Round

section Run

variable {calls : Bytes32 → StartupCalls} {ids : List Bytes32}

-- The rounds that are left have a swap each, which the database knows as the manager does.
structure Ready (inst : Instance) (ids : List Bytes32) : Prop where
  keyed : inst.swapManager.Keyed
  nodup : ids.Nodup
  found : ∀ id ∈ ids, ∃ p s, inst.swapManager.Points id p s ∧
    inst.swapManager.db.getSwap id = some s

theorem Ready.round (h : inst.Ready (id :: ids)) :
    ∃ s, inst.swapManager.db.getSwap id = some s ∧ ∀ calls,
      (checkForOngoingSwap C b calls id).Post inst (Round C b calls inst id s) := by
  obtain ⟨p, s, hp, hs⟩ := h.found id (by simp)
  exact ⟨s, hs, fun _ => checkForOngoingSwap_round ⟨h.keyed, hp⟩ hs⟩

theorem Ready.next (h : inst.Ready (id :: ids)) (ht : Touches id inst inst') : inst'.Ready ids where
  keyed := ht.frame.keyed
  nodup := (List.nodup_cons.mp h.nodup).right
  found id' hi := by
    have hn : id' ≠ id := fun he => (List.nodup_cons.mp h.nodup).left (he ▸ hi)
    obtain ⟨p, s, hp, hs⟩ := h.found id' (by simp [hi])
    exact ⟨p, s, ht.frame.points hn hp, (ht.frame.stored id' hn).trans hs⟩

theorem Touches.harmless {start : StartCalls} {id' : Bytes32} (h : Touches id' inst inst') :
    Harmless C b start inst' s ↔ Harmless C b start inst s := by
  simp only [Harmless, Panics, h.recovery, h.noTransferBack]

-- A round for another swap changes nothing, neither before nor after.
theorem Touches.outcome_after {calls : StartupCalls} {id' : Bytes32} (h : Touches id' inst inst')
    (ho : Outcome C b calls inst' id s inst'') : Outcome C b calls inst id s inst'' where
  settled  := by simpa only [Cancelled, h.recovery] using ho.settled
  kept     := by simpa only [Cancelled, h.recovery] using ho.kept
  harmless := by simpa only [Cancelled, h.recovery, h.harmless] using ho.harmless

theorem Outcome.congr {calls : StartupCalls} (h : Outcome C b calls inst id s inst')
    (hl : inst''.swapManager.ongoing.lookup id = inst'.swapManager.ongoing.lookup id)
    (hs : inst''.swapManager.db.getSwap id = inst'.swapManager.db.getSwap id) :
    Outcome C b calls inst id s inst'' := by
  have hm : id ∈ inst''.swapManager.ongoing ↔ id ∈ inst'.swapManager.ongoing := by
    rw [← AList.lookup_isSome, hl, AList.lookup_isSome]
  refine ⟨fun he hc => ?_, fun he hc => hm.mpr (h.kept he hc), fun he s' hs' => ?_⟩
  · have hse := h.settled he hc
    exact ⟨hm.not.mpr hse.ongoing, hs ▸ hse.stored⟩
  · exact h.harmless he s' (hs ▸ hs')

theorem checkForOngoingSwaps_outcome (hr : inst.Ready ids)
    (h : checkForOngoingSwaps C b calls ids inst = (.ok (), inst')) :
    (inst'.recovery = inst.recovery ∧ inst'.noTransferBack = inst.noTransferBack) ∧
    (∀ id ∉ ids, inst'.swapManager.ongoing.lookup id = inst.swapManager.ongoing.lookup id ∧
      inst'.swapManager.db.getSwap id = inst.swapManager.db.getSwap id) ∧
    ∀ id ∈ ids, ∀ s, inst.swapManager.db.getSwap id = some s →
      Outcome C b (calls id) inst id s inst' := by
  induction ids generalizing inst
  case nil =>
    obtain ⟨-, rfl⟩ := pure_ok.mp h
    exact ⟨⟨rfl, rfl⟩, fun _ _ => ⟨rfl, rfl⟩, by simp⟩
  case cons id ids hi =>
    obtain ⟨_, inst₁, h₁, h₂⟩ := bind_ok.mp h
    obtain ⟨s, hs, hround⟩ := hr.round (C := C) (b := b)
    have hp := (hround (calls id)).result h₁
    have ht := hp.touches
    obtain ⟨⟨hrec, hntb⟩, hout, hin⟩ := hi (hr.next ht) h₂
    have hni := (List.nodup_cons.mp hr.nodup).left
    refine ⟨⟨hrec.trans ht.recovery, hntb.trans ht.noTransferBack⟩, ?_, ?_⟩
    · intro id' hn
      obtain ⟨hne, hn⟩ := not_or.mp (List.mem_cons.not.mp hn)
      exact ⟨(hout id' hn).left.trans (ht.frame.lookup id' hne),
        (hout id' hn).right.trans (ht.frame.stored id' hne)⟩
    · intro id' hm s' hs'
      rcases List.mem_cons.mp hm with rfl | hm
      case inl =>
        cases hs.symm.trans hs'
        exact (hp.outcome rfl).congr (hout _ hni).left (hout _ hni).right
      case inr =>
        have hne : id' ≠ id := fun he => hni (he ▸ hm)
        exact ht.outcome_after (hin id' hm s' ((ht.frame.stored id' hne).trans hs'))

theorem checkForOngoingSwaps_succeeds (hr : inst.Ready ids) (hp : ∀ id, (calls id).put = true)
    (hh : ∀ id ∈ ids, ∀ s, inst.swapManager.db.getSwap id = some s →
      Harmless C b (calls id).start inst s) :
    (checkForOngoingSwaps C b calls ids).Post inst fun r _ => r = .ok () := by
  induction ids generalizing inst
  case nil          => rfl
  case cons id ids hi =>
    obtain ⟨s, hs, hround⟩ := hr.round (C := C) (b := b)
    refine (hround (calls id)).bind (fun e inst₁ hp' => ?_) fun _ inst₁ hp' => ?_
    · exact hp'.succeeds (hh id (by simp) s hs) (hp id)
    · have ht := hp'.touches
      refine hi (hr.next ht) fun id' hm s' hs' => ?_
      have hne : id' ≠ id := fun he => (List.nodup_cons.mp hr.nodup).left (he ▸ hm)
      exact ht.harmless.mpr (hh id' (by simp [hm]) s' ((ht.frame.stored id' hne).symm.trans hs'))

variable {db : Swap.Table} {recovery : RecoveryDB} {noTransferBack : Bool}

section Started

variable (hp : ids.Perm (Swap.Manager.newManager db).ongoing.keys)
include hp

theorem mem_ongoing_iff : id ∈ ids ↔ ∃ s, db.getSwap id = some s ∧ s.status.isOngoing := by
  have hm : id ∈ ids ↔ id ∈ (Swap.Manager.newManager db).ongoing :=
    hp.mem_iff.trans AList.mem_keys.symm
  simp only [hm, ← AList.lookup_isSome, Option.isSome_iff_exists]
  refine ⟨fun ⟨p, hl⟩ => ?_, fun ⟨s, hs⟩ => ?_⟩
  · obtain ⟨s, hs, -⟩ := Swap.Manager.newManager_keyed id p hl
    exact ⟨s, Swap.Manager.newManager_points.mp ⟨p, hl, hs⟩⟩
  · obtain ⟨p, hp⟩ := Swap.Manager.newManager_points.mpr hs
    exact ⟨p, hp.lookup⟩

theorem started_ready : (started db recovery noTransferBack).Ready ids where
  keyed       := Swap.Manager.newManager_keyed
  nodup       := hp.nodup_iff.mpr (AList.keys_nodup _)
  found id hi := by
    obtain ⟨s, hs⟩ := (mem_ongoing_iff hp).mp hi
    obtain ⟨p, hp⟩ := Swap.Manager.newManager_points.mpr hs
    exact ⟨p, s, hp, by simpa [started, Swap.Manager.newManager] using hs.left⟩

end Started

-- Another restart succeeds, if the database can be written to and the other components give the
-- same answers about the swaps that go on.
def Restarts (C : Curve) (b : Backend) (calls : Bytes32 → StartupCalls) (inst : Instance) : Prop :=
  ∀ calls' ids, (∀ id, (calls' id).put = true ∧ (calls' id).start = (calls id).start) →
    ids.Perm (Swap.Manager.newManager inst.swapManager.db).ongoing.keys →
    (checkForOngoingSwaps C b calls' ids
      (started inst.swapManager.db inst.recovery inst.noTransferBack)).fst = .ok ()

section Returned

variable (hp : ids.Perm (Swap.Manager.newManager db).ongoing.keys)
  (h : checkForOngoingSwaps C b calls ids (started db recovery noTransferBack) = (.ok (), inst))
include hp h

theorem outcome_of_getSwap (hs : db.getSwap id = some s) (ho : s.status.isOngoing) :
    Outcome C b (calls id) (started db recovery noTransferBack) id s inst := by
  obtain ⟨-, -, hin⟩ := checkForOngoingSwaps_outcome (started_ready hp) h
  refine hin id ((mem_ongoing_iff hp).mpr ⟨s, hs, ho⟩) s ?_
  simpa [started, Swap.Manager.newManager] using hs

theorem expecting_outcome (hs : s ∈ db.getAllSwaps) (he : Expecting s) :
    Outcome C b (calls s.offerID) (started db recovery noTransferBack) s.offerID s inst :=
  outcome_of_getSwap hp h (Swap.Table.mem_getAllSwaps.mp hs) (by rw [he.right]; rfl)

-- What the next process finds.
theorem stored_harmless
    (hc : ∀ s ∈ db.getAllSwaps, Expecting s → ¬Cancelled (calls s.offerID) recovery s)
    (hs : inst.swapManager.db.getSwap id = some s) (ho : s.status.isOngoing) :
    Harmless C b (calls id).start (started db recovery noTransferBack) s := by
  obtain ⟨-, hout, -⟩ := checkForOngoingSwaps_outcome (started_ready hp) h
  have hi : id ∈ ids := by
    by_contra hi
    have hd : db.getSwap id = some s := by
      simpa [started, Swap.Manager.newManager] using (hout id hi).right.symm.trans hs
    exact hi ((mem_ongoing_iff hp).mpr ⟨s, hd, ho⟩)
  obtain ⟨s₀, hs₀, ho₀⟩ := (mem_ongoing_iff hp).mp hi
  refine (outcome_of_getSwap hp h hs₀ ho₀).harmless (fun he => ?_) s hs ho
  cases Swap.Table.getSwap_offerID hs₀
  exact hc s₀ (Swap.Table.mem_getAllSwaps.mpr hs₀) he

-- The swaps that wait for the keys are settled for good, unless a transaction is cancelled.
theorem startup_settles_iff :
    (∀ s ∈ db.getAllSwaps, Expecting s → inst.Settled s.offerID) ∧ inst.Restarts C b calls ↔
      ∀ s ∈ db.getAllSwaps, Expecting s → ¬Cancelled (calls s.offerID) recovery s := by
  constructor
  case mp =>
    rintro ⟨hs, -⟩ s hm he hc
    exact (hs s hm he).ongoing ((expecting_outcome hp h hm he).kept he hc)
  case mpr =>
    intro hc
    obtain ⟨⟨hr, hn⟩, -, -⟩ := checkForOngoingSwaps_outcome (started_ready hp) h
    refine ⟨fun s hm he => (expecting_outcome hp h hm he).settled he (hc s hm he), ?_⟩
    intro calls' ids' hc' hp'
    refine checkForOngoingSwaps_succeeds (started_ready hp') (fun id => (hc' id).left) ?_
    intro id hi s hs
    have hs : inst.swapManager.db.getSwap id = some s := by
      simpa [started, Swap.Manager.newManager] using hs
    obtain ⟨s', hs', ho⟩ := (mem_ongoing_iff hp').mp hi
    cases hs.symm.trans hs'
    simpa only [(hc' id).right, Harmless, Panics, started, hr, hn] using
      stored_harmless hp h hc hs ho

end Returned

end Run

namespace Sample

open XMRTaker.Sample (startCalls)

def expecting : Swap.Record where
  offerID        := 1
  providedAmount := { coeff := 5 }
  expectedAmount := { coeff := 1 }
  ethAsset       := ethAssetETH
  status         := .expectingKeys
  provides       := .eth

def swapTable : Swap.Table :=
  Swap.Table.empty.putSwap expecting

-- The transaction that the taker has sent is still pending, and is cancelled.
def cancelling : StartupCalls where
  getNewSwapTxHash  := true
  transactionByHash := some true
  cancelTxWithNonce := .included
  waitForReceipt    := none
  newSwapParameters := none
  newSwapCreator    := true
  swaps _           := none
  txOpts            := true
  refund _ _        := true
  refundReceipt     := true
  createWallet _    := true
  sweepAll          := true
  start             := startCalls
  put               := true
  now               := 0

-- The node has forgotten the transaction.
def replaced : StartupCalls :=
  { cancelling with transactionByHash := none }

end Sample

open Instance.Sample (swapTable cancelling replaced)
open XMRTaker.Sample (backend)

theorem startup_settles_iff_aborted :
    let inst := (checkForOngoingSwaps Sample.curve backend (fun _ => cancelling) [1]
      (started swapTable .empty false)).snd
    inst.Settled 1 ∧ inst.Restarts Sample.curve backend fun _ => cancelling := by
  intro inst
  have h : checkForOngoingSwaps Sample.curve backend (fun _ => cancelling) [1]
      (started swapTable .empty false) = (.ok (), inst) :=
    Prod.ext (by decide) rfl
  have ⟨hs, hr⟩ := (startup_settles_iff (by decide) h).mpr fun s _ _ hc => by
    simp [Cancelled, RecoveryDB.getNewSwapTxHash, RecoveryDB.empty, DB.get] at hc
  exact ⟨hs Sample.expecting (by decide) (by decide), hr⟩

-- The swap stays ongoing, and the next restart fails.
theorem cancelled_stays_ongoing :
    let recovery := RecoveryDB.empty.putNewSwapTxHash 1 7
    let (r, inst) := checkForOngoingSwaps Sample.curve backend (fun _ => cancelling) [1]
      (started swapTable recovery false)
    r = .ok () ∧ 1 ∈ inst.swapManager.ongoing ∧
    (checkForOngoingSwaps Sample.curve backend (fun _ => replaced) [1]
      (started inst.swapManager.db inst.recovery false)).fst = .error .newSwapTransaction := by
  decide

end XMRTaker.Instance
