import AtomicSwap.Protocol.XMRMaker.Theorems.Panics

open Ethereum SwapCreator Handler Machine

namespace XMRMaker

variable {b : Backend}

namespace Loop

variable {m m₁ m' : Loop} {ok ready written : Bool} {n : ℕ} {e : Event}

def closed (m : Loop) : Bool × Bool × Bool :=
  (m.readyClosed, m.doneClosed, m.cancelled)

-- Where the maker cannot wait for the ETH to be locked any more.
def Stage (m : Loop) : Prop :=
  match m.control with
  | .checkETHLocked _ | .prepareLock _        =>
    m.swap.nextExpectedEvent = .ethLocked ∨ m.swap.nextExpectedEvent = .none
  | .claimFunds _ | .exitWait _ | .completeOngoingSwap _ | .reclaimMonero (_ + 1)
  | .sweepAll (_ + 1)                         => m.swap.nextExpectedEvent ≠ .ethLocked
  | _                                         => True

-- A step that neither asks for the transfer nor closes a channel.
structure Moves (m m' : Loop) : Prop where
  next     : m'.swap.nextExpectedEvent = .ethLocked → m.swap.nextExpectedEvent = .ethLocked
  closed   : m'.closed = m.closed
  stage    : m'.Stage
  transfer : m'.control ≠ .transfer

theorem Moves.after (h : m₁.Moves m')
    (hn : m₁.swap.nextExpectedEvent = .ethLocked → m.swap.nextExpectedEvent = .ethLocked)
    (hc : m₁.closed = m.closed) : m.Moves m' :=
  ⟨hn ∘ h.next, h.closed.trans hc, h.stage, h.transfer⟩

theorem exit_moves : m.Moves (m.exit n) := by
  unfold exit
  split
  case h_1 hn => exact ⟨by simp [hn], rfl, by simp [Stage, hn], by simp⟩
  case h_2 hn => exact ⟨by simp [hn], rfl, by simp [Stage, hn], by simp⟩
  case h_3    =>
    refine ⟨?_, rfl, ?_, by simp⟩
    all_goals simp [Stage, clearNextExpectedEvent]

theorem returns_moves (hn : 0 < n → m.swap.nextExpectedEvent ≠ .ethLocked) :
    m.Moves (m.returns n) := by
  cases n
  case zero => exact ⟨id, rfl, trivial, by simp [returns]⟩
  case succ => exact ⟨id, rfl, hn (by simp), by simp [returns]⟩

theorem checked_moves {msg : NotifyETHLocked} {ec : EthClient} {calls : Calls}
    (hn : m.swap.nextExpectedEvent = .ethLocked ∨ m.swap.nextExpectedEvent = .none) :
    m.Moves (m.checked b msg ec calls) := by
  have hk : (amountToLock b ec calls msg m.swap).snd.nextExpectedEvent = _ :=
    amountToLock_keeps untouched_nextExpectedEvent m.swap
  unfold checked resume
  split
  all_goals
    rename_i hr
    rw [hr] at hk
    dsimp only at hk
  case h_1 => exact ⟨by simp [hk], rfl, by simpa [Stage, hk] using hn, by simp⟩
  case h_2 =>
    split
    case isTrue  => exact ⟨by simp [hk], rfl, trivial, by simp⟩
    case isFalse => exact exit_moves.after (by simp [hk]) rfl

theorem startTransfer_waited {calls : Calls} {amount : Decimal} {s s' : SwapState} {u : Unit}
    (h : startTransfer calls amount s = (.ok u, s')) :
    s.nextExpectedEvent ≠ .none ∧ s.nextExpectedEvent ≠ .contractReady := by
  simp only [startTransfer, prepareLock, setNextExpectedEvent, updateStatus, bind_ok, throwIf_ok,
    get_ok, modify_ok] at h
  grind

-- Only if the transfer is asked for, the maker has waited for the ETH.
theorem prepared_moves {calls : Calls} {amount : Decimal} :
    m.Moves (m.prepared calls amount) ∨
    (m.prepared calls amount).control = .transfer ∧
      (m.prepared calls amount).closed = m.closed ∧
      (m.prepared calls amount).swap.nextExpectedEvent ≠ .ethLocked ∧
      m.swap.nextExpectedEvent ≠ .none ∧ m.swap.nextExpectedEvent ≠ .contractReady := by
  simp only [prepared, resume]
  split
  case h_1 hr =>
    have hn := (startTransfer_post.result hr).right.left rfl
    exact .inr ⟨rfl, rfl, by simp [hn], startTransfer_waited hr⟩
  case h_2 hr =>
    have hn := (startTransfer_post.result hr).right.right
    have hs {next} (h : next = m.swap.nextExpectedEvent ∨ next = .contractReady)
        (he : next = .ethLocked) : m.swap.nextExpectedEvent = .ethLocked := by
      simp_all
    split
    case isTrue  => exact .inl ⟨hs hn, rfl, trivial, by simp⟩
    case isFalse => exact .inl <| exit_moves.after (hs hn) rfl

theorem handleEvent_moves (hc : m.control = .runHandleEvents) (he : e ≠ .contractReady) :
    m.Moves (m.handleEvent e) := by
  have hm : m.Moves m := ⟨id, rfl, by simp [Stage, hc], by simp [hc]⟩
  cases e <;> simp only [handleEvent]
  case ethLocked =>
    split
    case isTrue hn => exact ⟨id, rfl, .inl hn, by simp⟩
    case isFalse   => exact hm
  case contractReady => contradiction
  case ethRefunded   => exact ⟨id, rfl, trivial, by simp [handleEventETHRefunded]⟩
  case exit          => exact exit_moves

theorem handleEventInExit_moves (hn : m.swap.nextExpectedEvent ≠ .ethLocked)
    (he : e ≠ .contractReady) : m.Moves (m.handleEventInExit n e) := by
  cases e <;> simp only [handleEventInExit]
  case contractReady => contradiction
  case ethRefunded   => exact ⟨id, rfl, hn, by simp [handleEventETHRefunded]⟩
  all_goals exact ⟨id, rfl, hn, by simp⟩

theorem claimed_moves : m.Moves (m.claimed n ok) := by
  unfold claimed
  split
  case isTrue  => refine (returns_moves ?_).after ?_ rfl <;> simp [clearNextExpectedEvent]
  case isFalse => exact exit_moves

theorem sweeping_moves (hn : 0 < n → m.swap.nextExpectedEvent ≠ .ethLocked) :
    m.Moves (m.sweeping n ready written) := by
  unfold sweeping
  split
  case isTrue => exact returns_moves hn
  case isFalse =>
    split
    case isTrue  => exact Moves.after (returns_moves hn) id rfl
    case isFalse =>
      refine ⟨id, rfl, ?_, by simp⟩
      cases n
      case zero => trivial
      case succ => exact hn (by simp)

theorem swept_moves (hn : 0 < n → m.swap.nextExpectedEvent ≠ .ethLocked) :
    m.Moves (m.swept n ok) := by
  unfold swept
  split
  case isTrue => exact returns_moves hn
  case isFalse =>
    cases n
    case zero => refine exit_moves.after ?_ rfl; simp [clearNextExpectedEvent]
    case succ => refine (returns_moves ?_).after ?_ rfl <;> simp [clearNextExpectedEvent]

theorem handleClaimedLogs_moves (log : Log) (hs : m.Stage) :
    let m' := m.handleClaimedLogs log
    (m'.swap.nextExpectedEvent = .ethLocked → m.swap.nextExpectedEvent = .ethLocked) ∧
    m'.closed = m.closed ∧ m'.Stage ∧ m'.control = m.control := by
  simp only [handleClaimedLogs]
  split
  case h_1 =>
    refine ⟨by simp [clearNextExpectedEvent], rfl, ?_, rfl⟩
    simp only [Stage, clearNextExpectedEvent]
    split <;> simp
  case h_2 => exact ⟨id, rfl, hs, rfl⟩

theorem completed_step (hn : m.swap.nextExpectedEvent ≠ .ethLocked) :
    let m' := m.completed n true
    m'.swap.nextExpectedEvent ≠ .ethLocked ∧ m'.Stage ∧ m'.control ≠ .transfer ∧ m'.doneClosed ∧
    m'.readyClosed = m.readyClosed := by
  simp only [completed, Bool.not_true, Bool.false_eq_true, if_false]
  split
  case isTrue hd => exact ⟨hn, trivial, by simp, hd, rfl⟩
  case isFalse   =>
    cases n
    case zero => exact ⟨hn, trivial, by simp [returns], rfl, rfl⟩
    case succ => exact ⟨hn, hn, by simp [returns], rfl, rfl⟩

theorem completing_iff : m.completing ↔ ∃ n, m.control = .completeOngoingSwap n := by
  cases hc : m.control <;> simp [completing, hc]

theorem contractReady_step (hr : m.receives) (hs : m.Stage) :
    let m' := m.step b (.event .contractReady)
    m'.swap.nextExpectedEvent = m.swap.nextExpectedEvent ∧ m'.doneClosed = m.doneClosed ∧
    m'.cancelled = m.cancelled ∧ m'.Stage ∧ m'.control ≠ .transfer ∧
    (m.swap.nextExpectedEvent = .ethLocked → m' = m) := by
  have hh (n : ℕ) (hn : m.swap.nextExpectedEvent ≠ .ethLocked) :
      let m' := m.handleEventContractReady n
      m'.swap.nextExpectedEvent = m.swap.nextExpectedEvent ∧ m'.doneClosed = m.doneClosed ∧
      m'.cancelled = m.cancelled ∧ m'.Stage ∧ m'.control ≠ .transfer ∧
      (m.swap.nextExpectedEvent = .ethLocked → m' = m) := by
    simp only [handleEventContractReady]
    split
    · exact ⟨rfl, rfl, rfl, trivial, by simp, fun h => absurd h hn⟩
    · exact ⟨rfl, rfl, rfl, hn, by simp, fun h => absurd h hn⟩
  cases hc : m.control <;> simp only [receives, hc, Bool.false_eq_true] at hr
  case runHandleEvents =>
    simp only [step, hc, handleEvent]
    split
    case isTrue hn => exact hh 0 (by simp [hn])
    case isFalse   => exact ⟨rfl, rfl, rfl, hs, by simp [hc], fun _ => rfl⟩
  case exitWait n =>
    simp only [step, hc, handleEventInExit]
    exact hh (n + 1) (by simpa [Stage, hc] using hs)

end Loop

namespace RunningSwap

variable {m : RunningSwap} {i : RunningInput}

-- After the XMR may have been sent, something makes the maker claim the ETH or take the XMR back.
def Triggered (m : RunningSwap) : Prop :=
  m.broadcast → ¬m.loop.doneClosed → 0 < m.t1.waiting + m.t1.sending ∨ m.handled

structure Tracked (m : RunningSwap) : Prop where
  stage     : m.loop.Stage
  unlocked  : m.loop.swap.nextExpectedEvent = .ethLocked →
    m.broadcast = false ∧ m.loop.closed = (false, false, false)
  cancelled : m.loop.cancelled → m.loop.doneClosed
  idle      : m.broadcast = false → m.t1 = {} ∧ m.handled = false
  ready     : m.broadcast → m.loop.readyClosed → m.handled
  transfer  : m.loop.control = .transfer →
    m.broadcast ∧ m.loop.doneClosed = false ∧ m.t1 = {} ∧ m.handled = false
  triggered : m.loop.control ≠ .transfer → m.Triggered

theorem Tracked.congr {m' : RunningSwap} (h : m.Tracked) (hl : m'.loop = m.loop)
    (ht : m'.t1 = m.t1) (hb : m'.broadcast = m.broadcast) (hh : m'.handled = m.handled) :
    m'.Tracked := by
  obtain ⟨_, _, _, _, _, _, _, _⟩ := m'
  subst hl ht hb hh
  exact ⟨h.stage, h.unlocked, h.cancelled, h.idle, h.ready, h.transfer, h.triggered⟩

theorem Tracked.setT1 {t1 : Handlers} (h : m.Tracked) (hi : m.t1 = {} → t1 = {})
    (ht : m.broadcast → ¬m.loop.doneClosed → 0 < m.t1.waiting + m.t1.sending ∨ m.handled →
      0 < t1.waiting + t1.sending ∨ m.handled) : Tracked { m with t1 } where
  stage     := h.stage
  unlocked  := h.unlocked
  cancelled := h.cancelled
  idle hb   := ⟨hi (h.idle hb).left, (h.idle hb).right⟩
  ready     := h.ready
  transfer hc :=
    have ⟨hb, hd, he, hh⟩ := h.transfer hc
    ⟨hb, hd, hi he, hh⟩
  triggered hc hb hd := ht hb hd (h.triggered hc hb hd)

-- The transfer succeeds before `t2`, and the handler of `t1` can wait for it.
def Timely (m : RunningSwap) : RunningInput → Prop
  | .loop (.transferred ok) => m.loop.control = .transfer → ok ∧ m.now ≤ m.loop.swap.t2
  | .t1Expired ok           => ok
  | _                       => True

instance (m : RunningSwap) (i : RunningInput) : Decidable (m.Timely i) := by
  unfold Timely
  split <;> infer_instance

theorem advance_of_moves {i : Input} (h : m.Tracked) (hm : m.loop.Moves (m.loop.step b i))
    (hc : m.loop.control ≠ .transfer) : (m.advance b i).Tracked := by
  have hcl := hm.closed
  simp only [Loop.closed, Prod.mk.injEq] at hcl
  obtain ⟨hr, hd, hx⟩ := hcl
  have hb : (m.advance b i).broadcast = m.broadcast := by simp [advance, hm.transfer]
  have ht : (m.advance b i).t1 = m.t1 := by simp [advance, hc]
  have hh (h : m.handled) : (m.advance b i).handled := by simp [advance, h]
  refine ⟨hm.stage, ?_, ?_, ?_, ?_, fun hc => absurd hc hm.transfer, fun _ => ?_⟩
  · intro hn
    obtain ⟨hb', hcl⟩ := h.unlocked (hm.next hn)
    exact ⟨hb.trans hb', hm.closed.trans hcl⟩
  · intro hc
    exact hd.trans <| h.cancelled (hx.symm.trans hc)
  · intro hn
    obtain ⟨ht', hh'⟩ := h.idle (hb.symm.trans hn)
    exact ⟨ht.trans ht', by simp [advance, hh', hb.symm.trans hn]⟩
  · exact fun hb' hr' => hh <| h.ready (hb.symm.trans hb') (hr.symm.trans hr')
  · intro hb' hd'
    rw [ht]
    refine (h.triggered hc (hb.symm.trans hb') ?_).imp_right hh
    exact fun h => hd' (hd.trans h)

theorem advance_idle {i : Input} (h : m.Tracked) (hl : m.loop.step b i = m.loop) :
    (m.advance b i).Tracked := by
  by_cases hc : m.loop.control = .transfer
  · obtain ⟨hb, hd, ht, hh⟩ := h.transfer hc
    have hr : m.loop.receives = false := by simp [Loop.receives, hc]
    exact h.congr hl (by simp [advance, hl, hc]) (by simp [advance, hb]) (by simp [advance, hr])
  · exact advance_of_moves h (hl.symm ▸ ⟨id, rfl, h.stage, hc⟩) hc

theorem advance_transferred (h : m.Tracked) (hc : m.loop.control = .transfer)
    (ht : m.now ≤ m.loop.swap.t2) : (m.advance b (.transferred true)).Tracked := by
  obtain ⟨hb, hd, _, hh⟩ := h.transfer hc
  have hl : m.loop.step b (.transferred true) = { m.loop with control := .runHandleEvents } := by
    simp [Loop.step, hc, Loop.transferred]
  have ht : (m.advance b (.transferred true)).t1 = m.t1.start := by
    simp [advance, hl, hc, runT1ExpirationHandler, ht]
  have hb' : (m.advance b (.transferred true)).broadcast = true := by simp [advance, hb]
  have hn : (m.advance b (.transferred true)).loop.swap.nextExpectedEvent ≠ .ethLocked := by
    intro hn
    simp only [advance, hl] at hn
    simp [(h.unlocked hn).left] at hb
  refine ⟨by simp [advance, hl, Loop.Stage], fun h => absurd h hn, ?_, by simp [hb'], ?_, ?_, ?_⟩
  · simpa [advance, hl] using h.cancelled
  · intro _ hr
    simp only [advance, hl] at hr
    simp [advance, h.ready hb hr]
  · simp [advance, hl]
  · simp [Triggered, ht, Handlers.start]

theorem advance_prepared {calls : Calls} {amount : Decimal} (h : m.Tracked)
    (hc : m.loop.control = .prepareLock amount) : (m.advance b (.prepared calls)).Tracked := by
  have hl : m.loop.step b (.prepared calls) = m.loop.prepared calls amount := by
    simp [Loop.step, hc]
  rcases Loop.prepared_moves with hm | ⟨ht, hcl, hn, hw⟩
  · exact advance_of_moves h (hl ▸ hm) (by simp [hc])
  · rw [← hl] at ht hcl hn
    -- The maker has still waited for the ETH, so that nothing has been sent or closed before.
    have hs : m.loop.swap.nextExpectedEvent = .ethLocked := by
      have hs := h.stage
      simp only [Loop.Stage, hc] at hs
      exact hs.resolve_right hw.left
    obtain ⟨hb, hcl'⟩ := h.unlocked hs
    obtain ⟨ht', hh⟩ := h.idle hb
    have hcl := hcl.trans hcl'
    simp only [Loop.closed, Prod.mk.injEq] at hcl
    obtain ⟨hr, hd, hx⟩ := hcl
    refine ⟨by simp [advance, Loop.Stage, ht], fun h => absurd h hn, ?_, ?_, ?_, ?_, ?_⟩
    · simp [advance, hx]
    · simp [advance, ht]
    · simp [advance, hr]
    · simp [advance, ht, hd, hc, ht', hh, hb]
    · exact fun h => absurd ht h

theorem advance_claimedLog {log : Log} (h : m.Tracked) :
    (m.advance b (.claimedLog log)).Tracked := by
  obtain ⟨hn, hcl, hs, hc⟩ := Loop.handleClaimedLogs_moves log h.stage
  have hcl' := hcl
  simp only [Loop.closed, Prod.mk.injEq] at hcl'
  obtain ⟨hr, hd, hx⟩ := hcl'
  have hb : (m.advance b (.claimedLog log)).broadcast = m.broadcast := by
    simp only [advance, Loop.step, hc, Bool.or_eq_left_iff_imp, decide_eq_true_eq]
    exact fun ht => (h.transfer ht).left
  have ht : (m.advance b (.claimedLog log)).t1 = m.t1 := by
    simp only [advance, Loop.step, hc]
    split
    case isTrue hc => simp [hc.left] at hc
    case isFalse   => rfl
  have hh : (m.advance b (.claimedLog log)).handled = m.handled := by
    simp [advance, Input.isTrigger]
  refine ⟨hs, fun h' => ?_, fun h' => ?_, ?_, ?_, fun h' => ?_, fun h' => ?_⟩
  · obtain ⟨hb', hcl'⟩ := h.unlocked (hn h')
    exact ⟨hb.trans hb', hcl.trans hcl'⟩
  · exact hd.trans <| h.cancelled (hx.symm.trans h')
  · rw [hb, ht, hh]
    exact h.idle
  · rw [hb, hh]
    exact fun hb' hr' => h.ready hb' (hr.symm.trans hr')
  · rw [hb, ht, hh]
    obtain ⟨hb', hd', ht'⟩ := h.transfer (hc.symm.trans h')
    exact ⟨hb', hd.trans hd', ht'⟩
  · rw [Triggered, hb, ht, hh]
    have ht := h.triggered fun h => h' (hc.trans h)
    exact fun hb' hd' => ht hb' fun h => hd' (hd.trans h)

theorem advance_contractReady {t1 : Handlers} {sent : Bool} (h : m.Tracked) (hr : m.loop.receives)
    (ht : m.broadcast = false → t1 = {}) :
    (advance b { m with t1, readyEventSent := sent } (.event .contractReady)).Tracked := by
  obtain ⟨hn, hd, hx, hs, hc, hi⟩ := Loop.contractReady_step (b := b) hr h.stage
  have hc' : m.loop.control ≠ .transfer := by
    intro hc
    simp [Loop.receives, hc] at hr
  refine ⟨hs, ?_, ?_, ?_, ?_, fun h => absurd h hc, ?_⟩
  · intro he
    have he := hn.symm.trans he
    obtain ⟨hb, hcl⟩ := h.unlocked he
    simp only [advance, hi he]
    exact ⟨by simp [hb, hc'], hcl⟩
  · intro h'
    exact hd.trans <| h.cancelled (hx.symm.trans h')
  · intro hb
    simp only [advance, Bool.or_eq_false_iff] at hb
    simp [advance, hc', ht hb.left, (h.idle hb.left).right, hb.left]
  · intro hb _
    simp [advance, hc] at hb
    simp [advance, hb, hr, Input.isTrigger]
  · intro _ hb _
    simp [advance, hc] at hb
    simp [advance, hb, hr, Input.isTrigger]

theorem advance_completed {n : ℕ} {ok : Bool} (h : m.Tracked)
    (hc : m.loop.control = .completeOngoingSwap n) : (m.advance b (.completed ok)).Tracked := by
  have hn : m.loop.swap.nextExpectedEvent ≠ .ethLocked := by
    simpa [Loop.Stage, hc] using h.stage
  have hl : m.loop.step b (.completed ok) = m.loop.completed n ok := by
    simp [Loop.step, hc]
  cases ok
  case false =>
    have hm : m.loop.Moves (m.loop.completed n false) := Loop.returns_moves fun _ => hn
    exact advance_of_moves h (hl ▸ hm) (by simp [hc])
  case true =>
    obtain ⟨hn', hs, ht, hd, hr⟩ := Loop.completed_step (m := m.loop) (n := n) hn
    rw [← hl] at hn' hs ht hd hr
    refine ⟨hs, fun h => absurd h hn', fun _ => hd, fun hb => ?_, fun hb hr' => ?_,
      fun h => absurd h ht, fun _ _ h => absurd hd h⟩
    · simp only [advance, Bool.or_eq_false_iff] at hb
      simp [advance, hc, hb.left, h.idle hb.left]
    · simp only [advance, ht, decide_false, Bool.or_false] at hb
      simp [advance, h.ready hb (hr.symm.trans hr')]

theorem advance_tracked {i : Input} (h : m.Tracked) (he : i ≠ .event .contractReady)
    (hi : ∀ ok, i ≠ .completed ok) (ht : m.Timely (.loop i)) : (m.advance b i).Tracked := by
  have hl := Loop.step_step b m.loop i
  have hs := h.stage
  generalize he' : m.loop.step b i = l at hl
  cases hl
  case idle          => exact advance_idle h he'
  case claimedLog    => exact advance_claimedLog h
  case ctxDone hc    => exact advance_of_moves h (he' ▸ ⟨id, rfl, trivial, by simp⟩) (by simp [hc])
  case prepared hc   => exact advance_prepared h hc
  case transferred hc =>
    obtain ⟨rfl, hn⟩ := ht hc
    exact advance_transferred h hc hn
  case completed ok _ => exact absurd rfl (hi ok)
  all_goals
    rename_i hc
    simp only [Loop.Stage, hc] at hs
    refine advance_of_moves h ?_ (by simp [hc])
    rw [he']
  case event           => exact Loop.handleEvent_moves hc (by simpa using he)
  case eventInExit n _ => exact Loop.handleEventInExit_moves (n := n) hs (by simpa using he)
  case checked         => exact Loop.checked_moves hs
  case claimed         => exact Loop.claimed_moves
  case sweeping n _ _  =>
    refine Loop.sweeping_moves fun hn => ?_
    cases n <;> trivial
  case swept n _       =>
    refine Loop.swept_moves fun hn => ?_
    cases n <;> trivial

theorem step_tracked (h : m.Tracked) (hc : m.Timely i) : (m.step b i).Tracked := by
  unfold step
  split
  case h_1 => exact h
  case h_2 => exact h
  case h_3 he hd => exact advance_tracked h he hd hc
  case h_4 => exact h.congr rfl rfl rfl rfl
  case h_5 =>
    split
    case isTrue hr =>
      refine h.setT1 (fun ht => by simp [ht]) fun hb hd _ => .inr ?_
      exact h.ready hb <| hr.resolve_right fun hc => hd (h.cancelled hc)
    case isFalse   => exact h
  case h_6 ok =>
    obtain rfl : ok = true := hc
    split
    case isTrue hw =>
      refine h.setT1 (fun ht => by simp [ht] at hw) fun _ _ hp => hp.imp_left fun _ => ?_
      simp [Handlers.expire]
    case isFalse   => exact h
  case h_7 =>
    split
    case isTrue hs =>
      refine advance_contractReady h hs.right fun hb => ?_
      simp [(h.idle hb).left] at hs
    case isFalse   => exact h
  case h_8 =>
    split
    case isTrue hs => exact advance_contractReady h hs.right fun hb => (h.idle hb).left
    case isFalse   => exact h
  case h_9 put =>
    split
    case isTrue hs =>
      obtain ⟨n, hn⟩ := Loop.completing_iff.mp hs
      have hm : (m.advance b (.completed <| m.ongoing && put)).Tracked := advance_completed h hn
      exact hm.congr rfl rfl rfl rfl
    case isFalse   => exact h
  case h_10 => split <;> exact h.congr rfl rfl rfl rfl

theorem Initial.tracked (h : Initial b m) (ht : m.broadcast → m.now ≤ m.loop.swap.t2) :
    m.Tracked := by
  cases h
  case started =>
    refine ⟨trivial, fun _ => ⟨rfl, rfl⟩, ?_, fun _ => ⟨rfl, rfl⟩, ?_, ?_, fun _ => ?_⟩
    all_goals simp [start, Loop.start, Triggered]
  case recovered s now h =>
    have hn := (newSwapStateFromOngoing_kept h).next
    have ht : ¬s.t2 < now := not_lt.mpr (ht rfl)
    refine ⟨trivial, fun h => absurd h hn, ?_, ?_, ?_, ?_, fun _ _ _ => .inl ?_⟩
    case refine_5 =>
      rw [restart, runT1ExpirationHandler, if_neg ht]
      exact Nat.one_pos
    all_goals simp [restart, Loop.start]

-- While the transfer has not returned, the handler of `t1` has not been started.
theorem triggered_iff {is : List RunningInput} (h₀ : Initial b m)
    (ht : m.broadcast → m.now ≤ m.loop.swap.t2) (h : Along (step b) Timely is m) :
    (run (step b) is m).Triggered ↔ (run (step b) is m).loop.control ≠ .transfer := by
  have hm := run_invariant (I := Tracked) (fun _ _ => step_tracked) (h₀.tracked ht) h
  refine ⟨fun h hc => ?_, hm.triggered⟩
  obtain ⟨hb, hd, ht, hh⟩ := hm.transfer hc
  simpa [hd, ht, hh] using h hb

end RunningSwap

end XMRMaker

namespace XMRMaker.Sample

-- The wallet has sent the transaction and waits for its confirmations.
def transferringRun : List RunningInput :=
  [.loop <| .event <| .ethLocked <| notify swap swapID,
    .loop <| .checked (client [newLog swap swapID]) calls, .loop <| .prepared calls]

-- It loses the connection.
def failedRun : List RunningInput :=
  transferringRun ++ [.loop <| .transferred false]

-- The Ethereum client fails while the handler waits for `t1`.
def unwatchedRun : List RunningInput :=
  lockingRun ++ [.t1Expired false]

end XMRMaker.Sample

namespace XMRMaker.RunningSwap

open XMRMaker.Sample

instance (m : RunningSwap) : Decidable m.Triggered := by
  unfold Triggered
  infer_instance

theorem triggered_iff_locking :
    let m := run (step backend) lockingRun running
    m.broadcast ∧ ¬m.loop.doneClosed ∧ m.Triggered := by
  refine ⟨by decide +kernel, by decide +kernel, ?_⟩
  apply (triggered_iff running_initial (by decide) (by decide +kernel)).mpr
  decide +kernel

theorem untriggered :
    (run (step backend) transferringRun running).loop.control = .transfer ∧
    ¬(run (step backend) transferringRun running).Triggered ∧
    (run (step backend) failedRun running).loop.control = .exitWait 0 ∧
    ¬(run (step backend) failedRun running).Triggered ∧
    ¬(run (step backend) unwatchedRun running).Triggered := by
  decide +kernel

end XMRMaker.RunningSwap
