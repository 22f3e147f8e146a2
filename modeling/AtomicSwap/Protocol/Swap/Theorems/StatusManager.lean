import AtomicSwap.Protocol.Swap.StatusManager

open Ethereum Function

namespace Swap.StatusManager

-- The statuses that one step pushes, if `k` says how many stages a swap has gone through: a new
-- stage, attempts to sweep, and final statuses, after which the channel is a new one.
inductive Pushes : ℕ → List Status → ℕ → Prop
  | nil : Pushes k [] k
  | stage (ho : s.isOngoing) (hs : s ≠ .sweepingXMR) (hk : k < k') : Pushes k [s] k'
  | final (hn : ss ≠ []) (hs : ∀ s ∈ ss, s.isOngoing = false) : Pushes k ss k'
  | sweep (h : Pushes k ss k') (hs : ∀ s ∈ ss, s.isOngoing = false) :
      Pushes k (.sweepingXMR :: ss) k'

-- A channel that has at most one status for each stage and each attempt to sweep.
structure Bounded (k n : ℕ) (c : List Status) : Prop where
  stages : c.length ≤ k + c.count .sweepingXMR
  sweeps : c.count .sweepingXMR ≤ n

variable {sm : StatusManager} {id : Bytes32} {s : Status} {k k' n : ℕ} {ss c : List Status}

-- What a channel holds after a status has been pushed.
def received (c : List Status) (s : Status) : List Status :=
  if s.isOngoing then c ++ [s] else []

-- The channel of the given offer ID has been changed to another one, and no other has.
structure Changes (sm : StatusManager) (id : Bytes32) (c : List Status) (sm' : StatusManager) :
    Prop where
  same  : sm'.getStatusChan id = c
  other : ∀ id' ≠ id, sm'.getStatusChan id' = sm.getStatusChan id'

theorem pushNewStatus_changes (h : (sm.getStatusChan id).length < statusChSize) :
    ∃ sm', sm.pushNewStatus id s = some sm' ∧
      sm.Changes id (received (sm.getStatusChan id) s) sm' := by
  cases ho : s.isOngoing
  case false =>
    refine ⟨(sm.send id s).deleteStatusChan id, ?_, ?_, fun id' hi => ?_⟩
    · simp [pushNewStatus, h, ho]
    · simp [received, ho, deleteStatusChan, getStatusChan]
    · simp [deleteStatusChan, send, getStatusChan, hi]
  case true =>
    refine ⟨sm.send id s, ?_, ?_, fun id' hi => ?_⟩
    · simp [pushNewStatus, h, ho]
    · simp [received, ho, send, getStatusChan]
    · simp [send, getStatusChan, hi]

theorem Bounded.nil : Bounded k n [] :=
  ⟨by simp, by simp⟩

theorem Bounded.length (h : Bounded k n c) (hk : k + n < statusChSize) :
    c.length < statusChSize := by
  have hs := h.stages
  have hc := h.sweeps
  omega

theorem Bounded.stage (h : Bounded k n c) (ho : s.isOngoing) (hs : s ≠ .sweepingXMR)
    (hk : k < k') : Bounded k' n (received c s) := by
  have hl := h.stages
  have hc := h.sweeps
  constructor <;> simp [received, ho, List.count_append, hs] <;> omega

theorem Bounded.sweep (h : Bounded k n c) (hc : c.count .sweepingXMR < n) :
    Bounded k n (received c .sweepingXMR) := by
  have hl := h.stages
  constructor <;> simp [received, Status.isOngoing] <;> omega

-- The pushes find room, and leave a channel that the given predicate holds of.
def Fits (sm : StatusManager) (id : Bytes32) (ss : List Status) (P : List Status → Prop) : Prop :=
  ∃ sm' c, sm.pushAll id ss = (true, sm') ∧ sm.Changes id c sm' ∧ P c

theorem Fits.nil {P : List Status → Prop} (h : P (sm.getStatusChan id)) : Fits sm id [] P :=
  ⟨sm, _, rfl, ⟨rfl, fun _ _ => rfl⟩, h⟩

theorem Fits.cons {P : List Status → Prop} (hl : (sm.getStatusChan id).length < statusChSize)
    (h : ∀ sm', sm'.getStatusChan id = received (sm.getStatusChan id) s → Fits sm' id ss P) :
    Fits sm id (s :: ss) P := by
  have ⟨sm₁, hp, hc⟩ := pushNewStatus_changes (s := s) hl
  have ⟨sm₂, c, hp', hc', hP⟩ := h sm₁ hc.same
  refine ⟨sm₂, c, by simp [pushAll, hp, hp'], ⟨hc'.same, fun id' hi => ?_⟩, hP⟩
  rw [hc'.other id' hi, hc.other id' hi]

theorem fits_final (hl : (sm.getStatusChan id).length < statusChSize)
    (hs : ∀ s ∈ ss, s.isOngoing = false) :
    Fits sm id ss fun c => c = if ss = [] then sm.getStatusChan id else [] := by
  induction ss generalizing sm
  case nil           => exact .nil rfl
  case cons s ss hss =>
    refine .cons hl fun sm' hc => ?_
    have hc' : sm'.getStatusChan id = [] := by simpa [received, hs s (by simp)] using hc
    have hl' : (sm'.getStatusChan id).length < statusChSize := by simp [hc', statusChSize]
    have ⟨sm₂, c, hp, hc₂, hP⟩ := hss hl' fun s h => hs s (by simp [h])
    exact ⟨sm₂, c, hp, hc₂, by simpa [hc'] using hP⟩

-- The final statuses are pushed after all others.
theorem Pushes.fits_bounded (h : Pushes k ss k') (hb : Bounded k n (sm.getStatusChan id))
    (hk : k + n < statusChSize)
    (hs : .sweepingXMR ∈ ss → (sm.getStatusChan id).count .sweepingXMR < n) :
    Fits sm id ss (Bounded k' n) := by
  induction h generalizing sm
  case nil => exact .nil hb
  case stage ho hn hk' =>
    exact .cons (hb.length hk) fun sm' hc => .nil (hc ▸ hb.stage ho hn hk')
  case final hn hf =>
    have ⟨sm', c, hp, hc, hP⟩ := fits_final (hb.length hk) hf
    exact ⟨sm', c, hp, hc, by simp [hP, hn, Bounded.nil]⟩
  case sweep hf hh =>
    refine .cons (hb.length hk) fun sm' hc => hh (hc ▸ hb.sweep (hs (by simp))) hk fun hm => ?_
    cases hf _ hm

-- A step pushes the given statuses, of which the last one is the new status of the swap.
structure Logs (ss : List Status) (x x' : ℕ × Status) : Prop where
  pushes : Pushes x.fst ss x'.fst
  status : x'.snd = ss.getLast?.getD x.snd

namespace Logs

variable {x x' : ℕ × Status}

theorem nil (h : x' = x) : Logs [] x x' :=
  h ▸ ⟨.nil, rfl⟩

theorem final (hs : s.isOngoing = false) (h : x'.snd = s) : Logs [s] x x' :=
  ⟨.final (by simp) (by simpa using hs), by simpa using h⟩

theorem sweep (h : Logs ss (x.fst, .sweepingXMR) x') (hs : ∀ s ∈ ss, s.isOngoing = false) :
    Logs (.sweepingXMR :: ss) x x' :=
  ⟨.sweep h.pushes hs, by simp [h.status, List.getLast?_cons]⟩

end Logs

end Swap.StatusManager
