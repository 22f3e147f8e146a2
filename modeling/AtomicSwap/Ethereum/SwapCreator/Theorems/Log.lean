import AtomicSwap.Ethereum.SwapCreator.Theorems.Relays
import AtomicSwap.Ethereum.SwapCreator.Theorems.Secrets
import AtomicSwap.Library.Reentrant.Entries

open Reentrant Code Function

namespace Ethereum.SwapCreator

def Event.swapID : Event → Bytes32
  | new swapID .. | ready swapID | claimed swapID _ | refunded swapID _ => swapID

-- The events about a swap, in the order in which they were logged.
def State.events (s : State) (id : Bytes32) : List Event :=
  s.logs.filter (·.swapID = id)

variable (d : Deployment) (S : Set Swap)

-- The ways in which a swap gets from one stage to the next, each with the event that is logged for
-- it. A secret is only logged if it opens the commitment it belongs to.
inductive Past (id : Bytes32) : Option Swap → Stage → List Event → Prop
  | none : Past id none .invalid []
  | new {sw : Swap} : Past id (some sw) .pending [sw.newEvent id]
  | ready {sw : Swap} {es : List Event} :
    Past id (some sw) .pending es → Past id (some sw) .ready (es ++ [.ready id])
  | claimed {sw : Swap} {stage : Stage} {es : List Event} {secret : Bytes32} :
    Past id (some sw) stage es → stage.IsOpen →
    Secp256k1.mulVerify d.host secret sw.claimCommitment →
    Past id (some sw) .completed (es ++ [.claimed id secret])
  | refunded {sw : Swap} {stage : Stage} {es : List Event} {secret : Bytes32} :
    Past id (some sw) stage es → stage.IsOpen →
    Secp256k1.mulVerify d.host secret sw.refundCommitment →
    Past id (some sw) .completed (es ++ [.refunded id secret])

-- The log tells the past of every swap.
structure State.Logged (s : State) : Prop where
  past  : ∀ id, Past d id (s.swapOf id) (s.swaps id) (s.events id)
  entry : ∀ {id sw}, s.swapOf id = some sw → SwapCreator.swapID d sw = id ∧ sw ∈ S

-- What the past of the swaps depends on.
def State.records (s : State) : (Bytes32 → Stage) × (Bytes32 → Option Swap) × List Event :=
  (s.swaps, s.swapOf, s.logs)

variable {d S} {s s' : State} {sw : Swap} {id : Bytes32} {stage : Stage} {e : Event}
  {o : Option Swap} {es : List Event} {block : Block} {msg : Msg} {secret : Bytes32}
  {asset dst : Address} {v : Uint256} {c : Call}

theorem Past.isSome (h : Past d id o stage es) (hi : stage ≠ .invalid) : ∃ sw, o = some sw := by
  cases h
  case none => contradiction
  all_goals exact ⟨_, rfl⟩

theorem Past.none_of_invalid (h : Past d id o .invalid es) : es = [] := by
  cases h
  rfl

theorem State.Logged.congr (h : s.Logged d S) (hr : s.records = s'.records) : s'.Logged d S := by
  simp only [records, Prod.mk.injEq] at hr
  obtain ⟨hs, ho, hl⟩ := hr
  exact ⟨fun id => hs ▸ ho ▸ (by simpa [events, hl] using h.past id), fun hi => h.entry (ho ▸ hi)⟩

theorem State.events_concat (hl : s'.logs = s.logs ++ [e]) :
    s'.events id = s.events id ++ if e.swapID = id then [e] else [] := by
  by_cases he : e.swapID = id <;> simp [events, hl, List.filter_append, he]

theorem State.Logged.mark (h : s.Logged d S) (he : e.swapID = id)
    (hp : Past d id (s.swapOf id) stage (s.events id ++ [e])) : (s.mark id stage e).Logged d S where
  past i := by
    rw [events_concat (s := s) (e := e) rfl, he]
    by_cases hi : i = id
    case pos => subst hi; simpa [State.mark] using hp
    case neg => simpa [State.mark, hi, Ne.symm hi] using h.past i
  entry := h.entry

theorem State.Logged.create (h : s.Logged d S) (hm : sw ∈ S)
    (hi : s.swaps (SwapCreator.swapID d sw) = .invalid) :
    (s.create (SwapCreator.swapID d sw) sw).Logged d S where
  past i := by
    rw [events_concat (s := s) (e := sw.newEvent <| SwapCreator.swapID d sw) rfl]
    have hp := h.past i
    by_cases hn : i = SwapCreator.swapID d sw
    case pos =>
      subst hn
      rw [hi] at hp
      simpa [State.create, hp.none_of_invalid, Swap.newEvent, Event.swapID] using Past.new
    case neg => simpa [State.create, hn, Swap.newEvent, Event.swapID, Ne.symm hn] using hp
  entry {i sw'} hs := by
    by_cases hn : i = SwapCreator.swapID d sw
    case pos =>
      obtain rfl : sw = sw' := by simpa [State.create, hn] using hs
      exact ⟨hn.symm, hm⟩
    case neg => exact h.entry <| by simpa [State.create, hn] using hs

-- The swap that a call names is the one that the log is about.
theorem State.Logged.swapOf_eq (h : s.Logged d S) (inj : CollisionFree d S) (hm : sw ∈ S)
    (hi : s.swaps (SwapCreator.swapID d sw) ≠ .invalid) :
    s.swapOf (SwapCreator.swapID d sw) = some sw := by
  obtain ⟨sw', hs⟩ := (h.past _).isSome hi
  obtain ⟨hd, hm'⟩ := h.entry hs
  rw [hs, inj hm' hm hd]

section Transitions

-- The ways in which the contract changes what it has recorded about a swap, and that each of them
-- keeps `I`. Other code only gets control between them.
structure Transitions (d : Deployment) (S : Set Swap) (block : Block) (I : State → Prop) :
    Prop where
  congr  : ∀ {s s'}, s.records = s'.records → I s → I s'
  create : ∀ {s sw}, I s → sw ∈ S → s.swaps (swapID d sw) = .invalid →
    I (s.create (swapID d sw) sw)
  ready  : ∀ {s sw}, I s → sw ∈ S → s.swaps (swapID d sw) = .pending →
    I (s.mark (swapID d sw) .ready <| .ready (swapID d sw))
  claim  : ∀ {s sw secret}, I s → sw ∈ S → (s.swaps <| swapID d sw).IsOpen →
    Secp256k1.mulVerify d.host secret sw.claimCommitment →
    I (s.mark (swapID d sw) .completed <| .claimed (swapID d sw) secret)
  refund : ∀ {s sw secret}, I s → sw ∈ S → (s.swaps <| swapID d sw).IsOpen →
    (sw.timeout2 ≤ block.timestamp ∨
      block.timestamp ≤ sw.timeout1 ∧ s.swaps (swapID d sw) ≠ .ready) →
    Secp256k1.mulVerify d.host secret sw.refundCommitment →
    I (s.mark (swapID d sw) .completed <| .refunded (swapID d sw) secret)

namespace Transitions

variable {I : State → Prop} (h : Transitions d S block I)
include h

theorem of_leaves {α : Type} {m : M α} (hl : Leaves State.records m) : Maintains I m :=
  hl.maintains fun _ _ hr hi => h.congr hr hi

theorem payable : Maintains I (payable d msg) :=
  h.of_leaves <| leaves_bind leaves_get fun _ => leaves_bind leaves_revertIf fun _ =>
    leaves_modify fun _ => rfl

theorem lockAsset : Maintains I (lockAsset d msg asset v) :=
  h.of_leaves <| leaves_ite leaves_revertIf <| leaves_ite
    (leaves_bind leaves_get fun _ => leaves_bind leaves_revertIf fun _ =>
      leaves_modify fun _ => rfl)
    leaves_handOver

theorem pay : Maintains I (pay d id asset dst v) :=
  h.of_leaves <| leaves_bind (leaves_modify fun _ => rfl) fun _ => leaves_ite
    (leaves_bind leaves_get fun _ => leaves_bind leaves_revertIf fun _ =>
      leaves_bind leaves_revertIf fun _ => leaves_modify fun _ => rfl)
    leaves_handOver

theorem createSwap (hm : sw ∈ S) : Maintains I (createSwap d sw) := by
  intro s hi
  simp only [SwapCreator.createSwap, emit, setStage, holds_bind, holds_get, holds_revertIf,
    holds_modify, holds_pure, Decidable.not_not]
  exact h.create hi hm

theorem newSwap {ck rk : Bytes32} {claimer : Address} {d₁ d₂ nonce : Uint256}
    (ha : Call.Admissible d S block <| .newSwap msg ck rk claimer d₁ d₂ asset v nonce) :
    Maintains I (newSwap d block msg ck rk claimer d₁ d₂ asset v nonce) := by
  have hm := ha.mem _ <| List.mem_singleton_self _
  refine maintains_bind maintains_revertIf fun _ => ?_
  refine maintains_bind h.lockAsset fun _ => ?_
  refine maintains_bind maintains_revertIf fun _ => maintains_bind maintains_revertIf fun _ =>
    maintains_bind maintains_revertIf fun _ => fun s hi => ?_
  simp only [holds_bind, holds_lift, Uint256.add_eq_ok]
  intro t₁ ht₁ t₂ ht₂
  obtain rfl : t₁ = block.timestamp + d₁ := by bv_omega
  obtain rfl : t₂ = block.timestamp + d₁ + d₂ := by bv_omega
  exact h.createSwap hm s hi

theorem setReady (hm : sw ∈ S) : Maintains I (setReady d msg sw) := by
  intro s hi
  simp only [SwapCreator.setReady, emit, setStage, holds_bind, holds_get, holds_revertIf,
    holds_modify, Decidable.not_not]
  exact fun hp _ => h.ready hi hm hp

theorem _claim (hm : sw ∈ S) : Maintains I (_claim d block sw secret) := by
  intro s hi
  simp only [SwapCreator._claim, checkClaim, verifySecret, emit, setStage, holds_bind, holds_get,
    holds_revertIf, holds_modify, Decidable.not_not]
  exact fun hn hc _ _ hv => h.claim hi hm (Stage.isOpen_iff.mpr ⟨hn, hc⟩) hv

theorem refundSwap (hm : sw ∈ S) : Maintains I (SwapCreator.refund d block msg sw secret) := by
  intro s hi
  simp only [SwapCreator.refund, checkRefund, verifySecret, emit, setStage, holds_bind, holds_get,
    holds_revertIf, holds_modify, Decidable.not_not]
  intro hn hc _ ht hv
  refine h.pay _ <| h.refund hi hm (Stage.isOpen_iff.mpr ⟨hn, hc⟩) ?_ hv
  by_cases hr : s.swaps (swapID d sw) = .ready <;> grind

theorem invariant : Invariant (step d block) I (Call.Admissible d S block) := by
  intro c ha
  cases c
  case newSwap =>
    exact maintains_bind h.payable fun _ => maintains_bind (h.newSwap ha) fun _ => maintains_pure
  case setReady =>
    exact maintains_bind maintains_revertIf fun _ =>
      h.setReady <| ha.mem _ <| List.mem_singleton_self _
  case claim =>
    exact maintains_bind maintains_revertIf fun _ => maintains_bind maintains_revertIf fun _ =>
      maintains_bind (h._claim <| ha.mem _ <| List.mem_singleton_self _) fun _ => h.pay
  case claimRelayer =>
    exact maintains_bind maintains_revertIf fun _ => maintains_bind maintains_revertIf fun _ =>
      maintains_bind maintains_revertIf fun _ => maintains_bind maintains_revertIf fun _ =>
      maintains_bind (h._claim <| ha.mem _ <| List.mem_singleton_self _) fun _ =>
      maintains_bind maintains_lift fun _ => maintains_bind h.pay fun _ => h.pay
  case refund =>
    exact maintains_bind maintains_revertIf fun _ =>
      h.refundSwap <| ha.mem _ <| List.mem_singleton_self _
  case outside =>
    exact h.of_leaves <| leaves_bind leaves_get fun _ => leaves_bind leaves_revertIf fun _ =>
      leaves_modify fun _ => rfl

end Transitions

end Transitions

theorem logged_transitions (inj : CollisionFree d S) (block : Block) :
    Transitions d S block (State.Logged d S) where
  congr hr h       := h.congr hr
  create h hm hi   := h.create hm hi
  ready h hm hp    := by
    have hs := h.swapOf_eq inj hm (by simp [hp])
    have hl := hp ▸ hs ▸ h.past (swapID d _)
    exact h.mark rfl <| hs ▸ hl.ready
  claim h hm ho hv := by
    have hs := h.swapOf_eq inj hm (Stage.isOpen_iff.mp ho).left
    have hl := hs ▸ h.past (swapID d _)
    exact h.mark rfl <| hs ▸ hl.claimed ho hv
  refund h hm ho _ hv := by
    have hs := h.swapOf_eq inj hm (Stage.isOpen_iff.mp ho).left
    have hl := hs ▸ h.past (swapID d _)
    exact h.mark rfl <| hs ▸ hl.refunded ho hv

section Run

variable {balances : Ledger Address Address} {txs : List (Block × Act Call)}

theorem deployed_logged : (State.deployed balances).Logged d S where
  past _  := .none
  entry h := by cases h

theorem visible_logged (inj : CollisionFree d S)
    (h : ∀ tx ∈ txs, tx.snd.All (Call.Admissible d S tx.fst)) :
    ∀ s ∈ visibleTxs (step d) txs (.deployed balances), s.Logged d S :=
  visibleTxs_invariant (fun b => (logged_transitions inj b).invariant) txs h deployed_logged

-- The stage of a swap, as somebody who only reads the log would tell it.
def stageOf (es : List Event) : Stage :=
  match es.getLast? with
  | none                => .invalid
  | some (.new ..)      => .pending
  | some (.ready _)     => .ready
  | some (.claimed ..)  => .completed
  | some (.refunded ..) => .completed

theorem Past.stageOf_eq (h : Past d id o stage es) : stageOf es = stage := by
  cases h <;> simp [stageOf, Swap.newEvent]

-- In all states that any code gets to see, the log tells what has happened to each swap, and no
-- more than the log is needed to know its stage.
theorem log_tells_past (inj : CollisionFree d S)
    (h : ∀ tx ∈ txs, tx.snd.All (Call.Admissible d S tx.fst)) :
    ∀ s ∈ visibleTxs (step d) txs (.deployed balances), ∀ id,
      Past d id (s.swapOf id) (s.swaps id) (s.events id) ∧ stageOf (s.events id) = s.swaps id :=
  fun s hs id =>
    have hl := visible_logged inj h s hs
    ⟨hl.past id, (hl.past id).stageOf_eq⟩

end Run

theorem log_tells_past_claimed :
    let s := runTxs (step Sample.deployment) Sample.claimed (.deployed Sample.funds)
    s.events (swapID Sample.deployment Sample.swap) =
      [Sample.swap.newEvent (swapID Sample.deployment Sample.swap),
        .claimed (swapID Sample.deployment Sample.swap) 1] ∧
    s.swaps (swapID Sample.deployment Sample.swap) = .completed := by
  intro s
  have he : s.events (swapID Sample.deployment Sample.swap) =
      [Sample.swap.newEvent (swapID Sample.deployment Sample.swap),
        .claimed (swapID Sample.deployment Sample.swap) 1] := by
    decide +kernel
  obtain ⟨_, hs⟩ := log_tells_past (Set.injOn_singleton ..) Sample.claimed_admissible s
    (mem_visibleTxs Sample.claimed) (swapID Sample.deployment Sample.swap)
  rw [he] at hs
  exact ⟨he, hs.symm⟩

section Moves

theorem grows_of_leaves {α : Type} {m : M α} (h : Leaves State.logs m) : Moves Grows m :=
  h.moves fun _ _ hl => by simp [Grows, hl]

theorem grows_bind {α β : Type} {m : M α} {f : α → M β} (hm : Moves Grows m)
    (hf : ∀ a, Moves Grows (f a)) : Moves Grows (m >>= f) :=
  moves_bind Grows.trans hm hf

theorem check_moves {p : Prop} [Decidable p] {e : Revert Error} :
    Moves Grows (.revertIf p e : M _) :=
  grows_of_leaves leaves_revertIf

theorem emit_moves : Moves Grows (emit e) :=
  moves_modify fun _ => List.prefix_append ..

theorem setStage_moves : Moves Grows (setStage id stage) :=
  grows_of_leaves <| leaves_modify fun _ => rfl

theorem pay_moves : Moves Grows (pay d id asset dst v) :=
  grows_of_leaves <| leaves_bind (leaves_modify fun _ => rfl) fun _ => leaves_ite
    (leaves_bind leaves_get fun _ => leaves_bind leaves_revertIf fun _ =>
      leaves_bind leaves_revertIf fun _ => leaves_modify fun _ => rfl)
    leaves_handOver

theorem newSwap_moves {ck rk : Bytes32} {claimer : Address} {d₁ d₂ nonce : Uint256} :
    Moves Grows (newSwap d block msg ck rk claimer d₁ d₂ asset v nonce) := by
  have hl : Moves Grows (lockAsset d msg asset v) :=
    grows_of_leaves <| leaves_ite leaves_revertIf <| leaves_ite
      (leaves_bind leaves_get fun _ => leaves_bind leaves_revertIf fun _ =>
        leaves_modify fun _ => rfl)
      leaves_handOver
  refine grows_bind check_moves fun _ => grows_bind hl fun _ => grows_bind check_moves fun _ =>
    grows_bind check_moves fun _ => grows_bind check_moves fun _ =>
    grows_bind (grows_of_leaves leaves_lift) fun _ =>
    grows_bind (grows_of_leaves leaves_lift) fun _ => ?_
  exact grows_bind (grows_of_leaves leaves_get) fun _ => grows_bind check_moves fun _ =>
    grows_bind emit_moves fun _ => grows_bind setStage_moves fun _ =>
    grows_of_leaves <| leaves_bind (leaves_modify fun _ => rfl) fun _ => leaves_pure

theorem _claim_moves : Moves Grows (_claim d block sw secret) :=
  grows_bind
    (grows_of_leaves <| leaves_bind leaves_get fun _ => leaves_bind leaves_revertIf fun _ =>
      leaves_bind leaves_revertIf fun _ => leaves_bind leaves_revertIf fun _ =>
      leaves_bind leaves_revertIf fun _ => leaves_revertIf) fun _ =>
  grows_bind emit_moves fun _ => setStage_moves

theorem step_moves : Moves Grows (step d block c) := by
  cases c
  case newSwap =>
    refine grows_bind (grows_of_leaves ?_) fun _ => grows_bind newSwap_moves fun _ =>
      grows_of_leaves leaves_pure
    exact leaves_bind leaves_get fun _ => leaves_bind leaves_revertIf fun _ =>
      leaves_modify fun _ => rfl
  case setReady =>
    exact grows_bind check_moves fun _ => grows_bind (grows_of_leaves leaves_get) fun _ =>
      grows_bind check_moves fun _ => grows_bind check_moves fun _ =>
      grows_bind setStage_moves fun _ => emit_moves
  case claim =>
    exact grows_bind check_moves fun _ => grows_bind check_moves fun _ =>
      grows_bind _claim_moves fun _ => pay_moves
  case claimRelayer =>
    exact grows_bind check_moves fun _ => grows_bind check_moves fun _ =>
      grows_bind check_moves fun _ => grows_bind check_moves fun _ =>
      grows_bind _claim_moves fun _ => grows_bind (grows_of_leaves leaves_lift) fun _ =>
      grows_bind pay_moves fun _ => pay_moves
  case refund =>
    refine grows_bind check_moves fun _ => grows_bind (grows_of_leaves ?_) fun _ =>
      grows_bind emit_moves fun _ => grows_bind setStage_moves fun _ => pay_moves
    exact leaves_bind leaves_get fun _ => leaves_bind leaves_revertIf fun _ =>
      leaves_bind leaves_revertIf fun _ => leaves_bind leaves_revertIf fun _ =>
      leaves_bind leaves_revertIf fun _ => leaves_revertIf
  case outside =>
    exact grows_of_leaves <| leaves_bind leaves_get fun _ => leaves_bind leaves_revertIf fun _ =>
      leaves_modify fun _ => rfl

end Moves

section Outcome

def Event.isSettlement : Event → Bool
  | new .. | ready ..        => false
  | claimed .. | refunded .. => true

-- What the claimer's side gets: the whole value, or the value without the fee of a relayer.
inductive Swap.ClaimPaid (sw : Swap) : List (Address × ℕ) → Prop
  | direct : ClaimPaid sw [(sw.claimer, sw.value.toNat)]
  | relayed {relayer : Address} {fee : ℕ} :
    fee ≤ sw.value.toNat → ClaimPaid sw [(sw.claimer, sw.value.toNat - fee), (relayer, fee)]

-- How a swap that was created can stand: nobody has been paid and no secret is known, or one side
-- has been paid for one secret. The secrets are those that were logged.
inductive Outcome (d : Deployment) (sw : Swap) (s : State) : Prop
  | unsettled :
    (s.swaps <| swapID d sw).IsOpen → (s.events <| swapID d sw).filter Event.isSettlement = [] →
    s.payouts (swapID d sw) = [] → Outcome d sw s
  | claimed (secret : Bytes32) :
    s.swaps (swapID d sw) = .completed →
    (s.events <| swapID d sw).filter Event.isSettlement = [.claimed (swapID d sw) secret] →
    Secp256k1.mulVerify d.host secret sw.claimCommitment →
    sw.ClaimPaid (s.payouts <| swapID d sw) → Outcome d sw s
  | refunded (secret : Bytes32) :
    s.swaps (swapID d sw) = .completed →
    (s.events <| swapID d sw).filter Event.isSettlement = [.refunded (swapID d sw) secret] →
    Secp256k1.mulVerify d.host secret sw.refundCommitment →
    s.payouts (swapID d sw) = [(sw.owner, sw.value.toNat)] → Outcome d sw s

theorem Past.settlements_of_open (h : Past d id o stage es) (hc : stage ≠ .completed) :
    es.filter Event.isSettlement = [] := by
  induction h
  case none               => rfl
  case new                => rfl
  case ready hi           => rw [List.filter_append, hi (by simp)]; rfl
  case claimed | refunded => contradiction

-- A swap is settled by its last event, and by no event before.
theorem Past.settlement (h : Past d id (some sw) .completed es) :
    (∃ secret, es.filter Event.isSettlement = [.claimed id secret] ∧
      Secp256k1.mulVerify d.host secret sw.claimCommitment) ∨
    (∃ secret, es.filter Event.isSettlement = [.refunded id secret] ∧
      Secp256k1.mulVerify d.host secret sw.refundCommitment) := by
  cases h
  case claimed secret ho hp hv =>
    have hn := hp.settlements_of_open (Stage.isOpen_iff.mp ho).right
    exact .inl ⟨secret, by simp [List.filter_append, hn, Event.isSettlement], hv⟩
  case refunded secret ho hp hv =>
    have hn := hp.settlements_of_open (Stage.isOpen_iff.mp ho).right
    exact .inr ⟨secret, by simp [List.filter_append, hn, Event.isSettlement], hv⟩

-- What is known of a call when it is over.
def Done (d : Deployment) (S : Set Swap) (block : Block) (c : Call) (_ s' : State) : Prop :=
  c.Admissible d S block ∧ ∀ r, c.revelation d = some r → r.event ∈ s'.logs

theorem step_done (ha : c.Admissible d S block) :
    wp Grows (step d block c) (fun _ => Done d S block c s) (fun _ => True) s := by
  cases hr : c.revelation d
  case none   => exact wp_of_forall (fun _ _ => ⟨ha, by simp [hr]⟩) fun _ => trivial
  case some r =>
    refine (step_reveals hr).mono (fun _ s' h => ⟨ha, ?_⟩) fun _ _ => trivial
    rintro _ hr'
    obtain rfl : r = _ := by simpa [hr] using hr'
    exact h.right

variable {balances : Ledger Address Address} {txs : List (Block × Act Call)}

theorem journal_done (h : ∀ tx ∈ txs, tx.snd.All (Call.Admissible d S tx.fst)) :
    let s := runTxs (step d) txs (.deployed balances)
    ∀ e ∈ journal (step d) txs (.deployed balances), e.call.Admissible d S e.block ∧
      ∀ r, e.call.revelation d = some r → r.event ∈ s.logs := by
  intro s e he
  have hj : Entries Grows (Done d S) (s, journal (step d) txs (.deployed balances)) :=
    .journal (R := Grows) (fun _ => List.prefix_rfl) (fun _ _ _ => .trans)
      (fun _ _ _ => step_moves) (fun _ _ ha _ => step_done ha) h
  obtain ⟨ha, hr⟩ := hj.post e he
  exact ⟨ha, fun r hc => (hj.since e he).subset <| hr r hc⟩

theorem State.mem_settlement (he : e ∈ s.logs) (hs : e.isSettlement) :
    e ∈ (s.events e.swapID).filter Event.isSettlement := by
  simp [events, he, hs]

-- What was paid for a claim. If a relayer was paid, then its call is one of those that were made.
inductive Swap.ClaimedBy (sw : Swap) (es : Journal) : List (Address × ℕ) → Prop
  | direct : ClaimedBy sw es [(sw.claimer, sw.value.toNat)]
  | relayed {e : Entry Block Call State} {msg : Msg} {relaySwap : RelaySwap} {secret : Bytes32}
    {relayer : Address} {salt : BitVec 32} {v : UInt8} {r t : Bytes32} :
    e ∈ es → e.call = .claimRelayer msg relaySwap secret relayer salt v r t →
    relaySwap.swap = sw → relaySwap.fee.toNat ≤ sw.value.toNat →
    ClaimedBy sw es [(sw.claimer, sw.value.toNat - relaySwap.fee.toNat),
      (relayer, relaySwap.fee.toNat)]

theorem Swap.ClaimedBy.paid {es : Journal} {paid : List (Address × ℕ)} (h : sw.ClaimedBy es paid) :
    sw.ClaimPaid paid := by
  cases h
  case direct           => exact .direct
  case relayed _ _ _ hf => exact .relayed hf

-- The call that has settled a swap, with the event that it has logged and what was paid for it.
inductive SettledBy (d : Deployment) (sw : Swap) (s : State) (es : Journal) : Prop
  | claim (secret : Bytes32) :
    .claimed (swapID d sw) secret ∈ s.logs → sw.ClaimedBy es (s.payouts <| swapID d sw) →
    SettledBy d sw s es
  | refund (secret : Bytes32) :
    .refunded (swapID d sw) secret ∈ s.logs →
    s.payouts (swapID d sw) = [(sw.owner, sw.value.toNat)] → SettledBy d sw s es

theorem settledBy (inj : CollisionFree d S)
    (h : ∀ tx ∈ txs, tx.snd.All (Call.Admissible d S tx.fst)) (hm : sw ∈ S)
    (hc : (runTxs (step d) txs <| .deployed balances).swaps (swapID d sw) = .completed) :
    SettledBy d sw (runTxs (step d) txs <| .deployed balances)
      (journal (step d) txs <| .deployed balances) := by
  obtain ⟨e, hj, hp⟩ := (tracksSettlement (swapID d sw) h).settled hc
  have he : e ∈ settlements d (swapID d sw) (journal (step d) txs <| .deployed balances) := by
    simp [hj]
  obtain ⟨hm', hi⟩ := List.mem_filter.mp he
  obtain ⟨ha, hl⟩ := journal_done h e hm'
  dsimp only at hp
  have hsw {sw' : Swap} (hd : e.call.settles = some sw') (hm' : sw' ∈ e.call.swaps e.block) :
      sw' = sw :=
    inj (ha.mem sw' hm') hm <| by simpa [Call.settledID, hd] using hi
  generalize hq : (runTxs (step d) txs <| .deployed balances).payouts (swapID d sw) = paid at hp
  cases hp
  case claim hc' _ =>
    obtain rfl := hsw (by rw [hc']; rfl) (by rw [hc']; exact List.mem_singleton_self _)
    exact .claim _ (hl _ <| by rw [hc']; rfl) (hq ▸ .direct)
  case relayed hc' _ hr =>
    obtain rfl := hsw (by rw [hc']; rfl) (by rw [hc']; exact List.mem_singleton_self _)
    exact .claim _ (hl _ <| by rw [hc']; rfl) (hq ▸ .relayed hm' hc' rfl hr.fee)
  case refund hc' _ =>
    obtain rfl := hsw (by rw [hc']; rfl) (by rw [hc']; exact List.mem_singleton_self _)
    exact .refund _ (hl _ <| by rw [hc']; rfl) hq

-- A swap for which a claim was logged is completed, and its claimer was paid.
theorem claimed_by (inj : CollisionFree d S)
    (h : ∀ tx ∈ txs, tx.snd.All (Call.Admissible d S tx.fst)) (hm : sw ∈ S)
    (hs : s = runTxs (step d) txs (.deployed balances))
    (hc : .claimed (swapID d sw) secret ∈ s.logs) :
    s.swaps (swapID d sw) = .completed ∧
    sw.ClaimedBy (journal (step d) txs <| .deployed balances) (s.payouts <| swapID d sw) := by
  subst hs
  have hl := visible_logged inj h _ <| mem_visibleTxs (s := State.deployed balances) txs
  have hp := hl.past (swapID d sw)
  have hc := State.mem_settlement hc rfl
  have hd : (runTxs (step d) txs <| .deployed balances).swaps (swapID d sw) = .completed := by
    by_contra hn
    simp [Event.swapID, hp.settlements_of_open hn] at hc
  refine ⟨hd, ?_⟩
  cases settledBy inj h hm hd
  case claim hs            => exact hs
  case refund secret' hr _ =>
    have hr := State.mem_settlement hr rfl
    rw [hl.swapOf_eq inj hm (by simp [hd]), hd] at hp
    obtain ⟨x, hx, _⟩ | ⟨x, hx, _⟩ := hp.settlement
    · simp [Event.swapID, hx] at hr
    · simp [Event.swapID, hx] at hc

theorem outcome (inj : CollisionFree d S)
    (h : ∀ tx ∈ txs, tx.snd.All (Call.Admissible d S tx.fst)) (hm : sw ∈ S)
    (hi : (runTxs (step d) txs <| .deployed balances).swaps (swapID d sw) ≠ .invalid) :
    Outcome d sw (runTxs (step d) txs <| .deployed balances) := by
  have hl := visible_logged inj h _ <| mem_visibleTxs (s := State.deployed balances) txs
  have hp := hl.swapOf_eq inj hm hi ▸ hl.past (swapID d sw)
  by_cases hc : (runTxs (step d) txs <| .deployed balances).swaps (swapID d sw) = .completed
  case neg =>
    exact .unsettled (Stage.isOpen_iff.mpr ⟨hi, hc⟩) (hp.settlements_of_open hc)
      ((tracksSettlement _ h).unpaid hc).right
  case pos =>
    rw [hc] at hp
    cases settledBy inj h hm hc
    case claim secret he hs =>
      have he := State.mem_settlement he rfl
      obtain ⟨x, hx, hv⟩ | ⟨x, hx, _⟩ := hp.settlement
      · exact .claimed x hc hx hv hs.paid
      · simp [Event.swapID, hx] at he
    case refund secret he hs =>
      have he := State.mem_settlement he rfl
      obtain ⟨x, hx, _⟩ | ⟨x, hx, hv⟩ := hp.settlement
      · simp [Event.swapID, hx] at he
      · exact .refunded x hc hx hv hs

end Outcome

end Ethereum.SwapCreator
