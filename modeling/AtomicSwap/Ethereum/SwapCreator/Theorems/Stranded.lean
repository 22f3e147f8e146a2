import AtomicSwap.Ethereum.SwapCreator.Theorems.Custody

open Reentrant Code Function

namespace Ethereum.SwapCreator

-- The native coin that a call leaves with the contract and that no swap accounts for: `newSwap`
-- accepts it also if the asset is a token.
def Call.stray : Call → ℕ
  | newSwap msg _ _ _ _ _ asset ..                              =>
    if asset = native then 0 else msg.value.toNat
  | setReady .. | claim .. | claimRelayer .. | refund .. | outside .. => 0

def stray (h : Journal) : ℕ :=
  (h.map (·.call.stray)).sum

variable (d : Deployment) (S : Set Swap)

-- The native coin only reaches the contract by its own functions.
def Call.Closed : Call → Prop
  | outside asset holder _                                              =>
    ¬(asset = native ∧ holder = d.this)
  | newSwap .. | setReady .. | claim .. | claimRelayer .. | refund .. => True

-- What the contract has on top of what it owes and what has been left with it.
def excess (p : State × Journal) : ℤ :=
  p.fst.balances native d.this - p.fst.owed native - stray p.snd

def Accounted (p p' : State × Journal) : Prop :=
  Guarantee d S p.fst p'.fst ∧ (p.fst.WF d S → excess d p' = excess d p)

variable {d S} {block : Block} {c : Call} {s s' : State} {h : Journal} {sw : Swap}
  {p p' p₁ p₂ p₃ : State × Journal} {msg : Msg} {asset : Address} {v : Uint256}

theorem Accounted.refl (p : State × Journal) : Accounted d S p p :=
  ⟨.refl _, fun _ => rfl⟩

theorem Accounted.trans (h₁ : Accounted d S p₁ p₂) (h₂ : Accounted d S p₂ p₃) :
    Accounted d S p₁ p₃ := by
  refine ⟨h₁.left.trans h₂.left, fun hw => ?_⟩
  exact (h₂.right (h₁.left hw).wf).trans (h₁.right hw)

theorem wp_accounted {α : Type} {m : M α} {Q : α → State → Prop} {E : Revert Error → Prop}
    (hm : wp (Guarantee d S) m Q E p.fst) :
    wp (Accounted d S) (zoom m) (fun a p => Q a p.fst) E p :=
  hm.zoom fun _ _ hg => hg.left

section Excess

theorem excess_rebalance {b : Ledger Address Address} {q : Bytes32 → List (Address × ℕ)} :
    excess d ({ s with balances := b, payouts := q }, h) =
      excess d (s, h) + b native d.this - s.balances native d.this := by
  have ho : State.owed { s with balances := b, payouts := q } native = s.owed native :=
    State.owed_congr rfl rfl
  simp only [excess, ho]
  omega

theorem excess_create (hi : s.swaps (swapID d sw) = .invalid) :
    excess d (s.create (swapID d sw) sw, h) =
      excess d (s, h) - (Pi.single sw.asset sw.value.toNat : Address → ℕ) native := by
  have ho : (s.create (swapID d sw) sw).owed native = _ := State.owed_create hi
  simp only [excess, State.create] at ho ⊢
  omega

theorem excess_completed {e : Event} (hs : s.swapOf (swapID d sw) = some sw)
    (ho : (s.swaps <| swapID d sw).IsOpen) :
    excess d (s.mark (swapID d sw) .completed e, h) =
      excess d (s, h) + (Pi.single sw.asset sw.value.toNat : Address → ℕ) native := by
  have ho := State.owed_mark_completed (a := native) (e := e) hs ho
  simp only [excess, State.mark] at ho ⊢
  omega

theorem excess_ready {id : Bytes32} (hp : s.swaps id = .pending) :
    excess d (s.mark id .ready (.ready id), h) = excess d (s, h) := by
  have ho : (s.mark id .ready (.ready id)).owed native = s.owed native :=
    State.owed_mark_open (by simp [hp, Stage.IsOpen]) (by simp [Stage.IsOpen])
  simp only [excess, State.mark] at ho ⊢
  omega

end Excess

theorem payable_excess (hs : msg.sender ≠ d.this) :
    wp (Accounted d S) (zoom <| payable d msg)
      (fun _ p' => excess d p' = excess d p + msg.value.toNat) (fun _ => True) p := by
  have ⟨s, h⟩ := p
  simp only [payable, zoom_bind, zoom_get, zoom_revertIf, zoom_modify, wp_bind, wp_get, wp_pure,
    wp_revertIf, wp_modify, implies_true, true_and]
  intro _
  rw [excess_rebalance, Ledger.move_to hs]
  omega

-- A token does not move the native coin, but it may call the contract.
theorem lockAsset_excess (hw : p.fst.WF d S) :
    wp (Accounted d S) (zoom <| lockAsset d msg asset v)
      (fun _ p' => excess d p' = excess d p ∧ (asset = native → v = msg.value))
      (fun _ => True) p := by
  have ⟨s, h⟩ := p
  simp only [lockAsset, safeTransferFrom, zoom_ite, zoom_bind, zoom_get, zoom_revertIf, zoom_modify,
    zoom_handOver, wp_ite, wp_bind, wp_get, wp_pure, wp_revertIf, wp_modify, wp_handOver,
    implies_true, true_and, Decidable.not_not]
  refine ⟨fun _ hv => fun _ => hv, fun ha => ⟨fun _ _ => ⟨?_, (absurd · ha)⟩, fun _ p' hp => ?_⟩⟩
  · rw [excess_rebalance, Ledger.move_of_asset_ne (Ne.symm ha)]
    omega
  · exact ⟨hp.right hw, (absurd · ha)⟩

theorem createSwap_excess :
    wp (Accounted d S) (zoom <| createSwap d sw)
      (fun _ p' => excess d p' =
        excess d p - (Pi.single sw.asset sw.value.toNat : Address → ℕ) native)
      (fun _ => True) p := by
  have ⟨s, h⟩ := p
  simp only [createSwap, emit, setStage, zoom_bind, zoom_get, zoom_revertIf, zoom_modify, zoom_pure,
    wp_bind, wp_get, wp_pure, wp_revertIf, wp_modify, implies_true, true_and, Decidable.not_not]
  exact excess_create

-- A payment takes what it pays from the excess that the completed swap has left.
theorem pay_excess {id : Bytes32} {dst : Address} (hw : p.fst.WF d S)
    (hc : p.fst.swaps id = .completed) :
    wp (Accounted d S) (zoom <| pay d id asset dst v)
      (fun _ p' => excess d p' = excess d p - (Pi.single asset v.toNat : Address → ℕ) native)
      (fun _ => True) p := by
  have ⟨s, h⟩ := p
  simp only [pay, zoom_bind, zoom_modify, zoom_ite, zoom_get, zoom_revertIf, zoom_handOver, wp_bind,
    wp_modify, wp_ite, wp_get, wp_pure, wp_revertIf, wp_handOver, implies_true, true_and]
  refine ⟨fun _ hb hn => ?_, fun ha p' hg => ?_⟩
  · rw [excess_rebalance]
    by_cases ha : asset = native
    case pos =>
      subst ha
      rw [Ledger.move_from fun hd => hn ⟨rfl, hd⟩, Pi.single_eq_same]
      omega
    case neg =>
      rw [Ledger.move_of_asset_ne (Ne.symm ha), Pi.single_eq_of_ne (Ne.symm ha)]
      omega
  · have hn : native ≠ asset := fun hn => ha <| .inl hn.symm
    rw [hg.right ?wf, excess_rebalance, Pi.single_eq_of_ne hn]
    case wf =>
      refine hw.frame rfl rfl rfl fun {i} hi => ?_
      have hi : i ≠ id := fun he => hi <| he ▸ hc
      simp [hi]
    omega

section Calls

variable {secret : Bytes32}

-- Every call keeps the excess, but for what it leaves with the contract.
theorem newSwap_excess
    {claimCommitment refundCommitment : Bytes32} {claimer : Address} {d₁ d₂ value nonce : Uint256}
    (hw : p.fst.WF d S)
    (ha : Call.Admissible d S block <|
      .newSwap msg claimCommitment refundCommitment claimer d₁ d₂ asset value nonce) :
    let c : Call := .newSwap msg claimCommitment refundCommitment claimer d₁ d₂ asset value nonce
    wp (Accounted d S) (zoom <| step d block c)
      (fun _ p' => excess d p' = excess d p + c.stray) (fun _ => True) p := by
  have hs : msg.sender ≠ d.this := by simpa [Call.senders, eq_comm] using ha.sender
  intro c
  simp only [c, step, newSwap, zoom_bind, zoom_revertIf, zoom_lift, zoom_pure, wp_bind]
  refine (wp_accounted (payable_spec hw hs)).and (payable_excess hs) |>.mono
    (fun _ p₁ hq => ?_) fun _ _ => trivial
  obtain ⟨h₁, hx₁⟩ := hq
  simp only [wp_bind, wp_revertIf, implies_true, true_and]
  intro _
  refine (lockAsset_excess h₁.wf).mono (fun _ p₂ hq => ?_) fun _ _ => trivial
  obtain ⟨hx₂, hv⟩ := hq
  simp only [wp_bind, wp_revertIf, wp_lift, implies_true, true_and, and_true]
  intro _ _ _ t₁ _ t₂ _
  refine createSwap_excess.mono (fun _ p₃ hx₃ => ?_) fun _ _ => trivial
  by_cases hn : asset = native
  case pos =>
    simp only [wp_pure, Call.stray, hn, if_true, Pi.single_eq_same, hv hn] at hx₃ ⊢
    omega
  case neg =>
    simp only [wp_pure, Call.stray, hn, if_false, Pi.single_eq_of_ne (Ne.symm hn)] at hx₃ ⊢
    omega

theorem setReady_excess :
    wp (Accounted d S) (zoom <| step d block <| .setReady msg sw)
      (fun _ p' => excess d p' = excess d p) (fun _ => True) p := by
  have ⟨s, h⟩ := p
  simp only [step, nonpayable, setReady, setStage, emit, zoom_bind, zoom_get, zoom_revertIf,
    zoom_modify, wp_bind, wp_get, wp_pure, wp_revertIf, wp_modify, implies_true, true_and,
    Decidable.not_not]
  exact fun _ hp _ => excess_ready hp

theorem outside_excess {holder : Address} {balance : ℕ}
    (hc : Call.Closed d (.outside asset holder balance)) :
    wp (Accounted d S) (zoom <| step d block <| .outside asset holder balance)
      (fun _ p' => excess d p' = excess d p) (fun _ => True) p := by
  have ⟨s, h⟩ := p
  simp only [step, zoom_bind, zoom_get, zoom_revertIf, zoom_modify, wp_bind, wp_get, wp_pure,
    wp_revertIf, wp_modify, implies_true, true_and]
  intro _
  have hb : (s.balances.put asset holder balance) native d.this = s.balances native d.this := by
    by_cases ha : native = asset
    case neg => rw [Ledger.put_of_asset_ne ha]
    case pos => exact Ledger.put_of_holder_ne fun hh => hc ⟨ha.symm, hh.symm⟩
  rw [excess_rebalance, hb]
  omega

section Settle

variable (inj : CollisionFree d S) (hw : p.fst.WF d S)

include inj hw

theorem _claim_excess (hm : sw ∈ S) :
    wp (Accounted d S) (zoom <| _claim d block sw secret)
      (fun _ p' => excess d p' =
        excess d p + (Pi.single sw.asset sw.value.toNat : Address → ℕ) native)
      (fun _ => True) p := by
  have ⟨s, h⟩ := p
  simp only [_claim, checkClaim, verifySecret, setStage, emit, zoom_bind, zoom_get, zoom_revertIf,
    zoom_modify, wp_bind, wp_get, wp_pure, wp_revertIf, wp_modify, implies_true, true_and]
  intro hi hc _ _ _
  exact excess_completed (hw.swapOf_eq inj hm hi) (Stage.isOpen_iff.mpr ⟨hi, hc⟩)

theorem claim_excess (hm : sw ∈ S) :
    wp (Accounted d S) (zoom <| step d block <| .claim msg sw secret)
      (fun _ p' => excess d p' = excess d p) (fun _ => True) p := by
  simp only [step, nonpayable, claim, zoom_bind, zoom_revertIf, wp_bind, wp_revertIf, implies_true,
    true_and]
  intro _ _
  refine (wp_accounted (_claim_spec hw hm)).and (_claim_excess inj hw hm) |>.mono
    (fun _ p₁ hq => ?_) fun _ _ => trivial
  obtain ⟨⟨_, h₁⟩, hx₁⟩ := hq
  refine (pay_excess h₁.evolves.wf h₁.stage).mono (fun _ p₂ hx₂ => ?_) fun _ _ => trivial
  omega

theorem refund_excess (hm : sw ∈ S) :
    wp (Accounted d S) (zoom <| step d block <| .refund msg sw secret)
      (fun _ p' => excess d p' = excess d p) (fun _ => True) p := by
  have ⟨s, h⟩ := p
  simp only [step, nonpayable, refund, checkRefund, verifySecret, setStage, emit, zoom_bind,
    zoom_get, zoom_revertIf, zoom_modify, wp_bind, wp_get, wp_pure, wp_revertIf, wp_modify,
    implies_true, true_and]
  intro _ hi hc _ _ _
  have ho : (s.swaps (swapID d sw)).IsOpen := Stage.isOpen_iff.mpr ⟨hi, hc⟩
  let e := Event.refunded (swapID d sw) secret
  have h₁ : Settling d S s sw [] sw.value.toNat (s.mark (swapID d sw) .completed e) :=
    .start hw hm ho (by simp [e])
  have hx₁ : excess d (s.mark (swapID d sw) .completed e, h) = _ :=
    excess_completed (hw.swapOf_eq inj hm hi) ho
  refine (pay_excess h₁.evolves.wf h₁.stage).mono (fun _ p₂ hx₂ => ?_) fun _ _ => trivial
  have hx₂ : excess d p₂ = excess d (s.mark (swapID d sw) .completed e, h) - _ := hx₂
  omega

theorem claimRelayer_excess
    {relaySwap : RelaySwap} {relayer : Address} {salt : BitVec 32} {v : UInt8} {r t : Bytes32}
    (hm : relaySwap.swap ∈ S) :
    wp (Accounted d S)
      (zoom <| step d block <| .claimRelayer msg relaySwap secret relayer salt v r t)
      (fun _ p' => excess d p' = excess d p) (fun _ => True) p := by
  simp only [step, nonpayable, claimRelayer, zoom_bind, zoom_revertIf, zoom_lift, wp_bind,
    wp_revertIf, implies_true, true_and]
  intro _ _ _ _
  refine (wp_accounted (_claim_spec hw hm)).and (_claim_excess inj hw hm) |>.mono
    (fun _ p₁ hq => ?_) fun _ _ => trivial
  obtain ⟨⟨_, h₁⟩, hx₁⟩ := hq
  simp only [wp_bind, wp_lift, implies_true, and_true, Uint256.sub_eq_ok]
  intro rest hr
  have h₁ : Settling d S p.fst relaySwap.swap [] (rest.toNat + relaySwap.fee.toNat) p₁.fst := by
    rw [Nat.add_comm, hr]
    exact h₁
  refine (wp_accounted (pay_spec _ h₁)).and (pay_excess h₁.evolves.wf h₁.stage) |>.mono
    (fun _ p₂ hq => ?_) fun _ _ => trivial
  obtain ⟨h₂, hx₂⟩ := hq
  refine (pay_excess h₂.evolves.wf h₂.stage).mono (fun _ p₃ hx₃ => ?_) fun _ _ => trivial
  by_cases hn : relaySwap.swap.asset = native
  case pos => simp only [hn, Pi.single_eq_same] at hx₁ hx₂ hx₃; omega
  case neg => simp only [Pi.single_eq_of_ne (Ne.symm hn)] at hx₁ hx₂ hx₃; omega

end Settle

end Calls

theorem step_excess (inj : CollisionFree d S) (hw : p.fst.WF d S) (ha : c.Admissible d S block)
    (hc : c.Closed d) :
    wp (Accounted d S) (zoom <| step d block c)
      (fun _ p' => excess d p' = excess d p + c.stray) (fun _ => True) p := by
  cases c
  case newSwap => exact newSwap_excess hw ha
  all_goals simp only [Call.stray, Nat.cast_zero, Int.add_zero]
  case setReady     => exact setReady_excess
  case claim        => exact claim_excess inj hw <| ha.mem _ <| List.mem_singleton_self _
  case claimRelayer => exact claimRelayer_excess inj hw <| ha.mem _ <| List.mem_singleton_self _
  case refund       => exact refund_excess inj hw <| ha.mem _ <| List.mem_singleton_self _
  case outside      => exact outside_excess hc

theorem step_accounted (inj : CollisionFree d S) (block : Block) :
    Guarantees (record (step d) block) (Accounted d S) (fun _ _ => True)
      (fun c => c.Admissible d S block ∧ c.Closed d) where
  refl  := .refl
  trans := .trans
  call c hc p := by
    by_cases hw : p.fst.WF d S
    case neg => exact wp_of_forall (fun _ _ => ⟨(absurd · hw), (absurd · hw)⟩) fun _ => trivial
    case pos =>
      simp only [record, wp_bind, wp_get]
      refine (wp_accounted (step_spec hw hc.left)).and (step_excess inj hw hc.left hc.right) |>.mono
        (fun _ p' hq => ⟨fun _ => hq.left, fun _ => ?_⟩) fun _ _ => trivial
      have hx := hq.right
      simp only [excess, stray, List.map_append, List.sum_append, List.map_singleton,
        List.sum_singleton] at hx ⊢
      omega

section Run

variable {balances : Ledger Address Address} {txs : List (Block × Act Call)}

theorem native_balance (inj : CollisionFree d S) (hb : balances native d.this = 0)
    (ht : ∀ tx ∈ txs, tx.snd.All fun c => c.Admissible d S tx.fst ∧ c.Closed d) :
    let s₀ := State.deployed balances
    let s  := runTxs (step d) txs s₀
    s.balances native d.this = s.owed native + stray (journal (step d) txs s₀) := by
  intro s₀ s
  have hg : Accounted d S (s₀, []) (s, journal (step d) txs s₀) :=
    journal_guarantees .refl (step_accounted inj) s₀ txs ht
  have hx := hg.right deployed_wf
  have h₀ : s₀.owed native = 0 := by simp [s₀, State.owed, State.held, State.deployed]
  have hb : s₀.balances native d.this = 0 := hb
  simp only [excess, h₀, hb, stray, List.map_nil, List.sum_nil] at hx
  simp only [stray]
  omega

-- The contract holds exactly what it owes as long as nobody creates a swap of tokens and sends the
-- native coin along.
theorem nothing_stranded_iff (inj : CollisionFree d S) (hb : balances native d.this = 0)
    (ht : ∀ tx ∈ txs, tx.snd.All fun c => c.Admissible d S tx.fst ∧ c.Closed d) :
    let s₀ := State.deployed balances
    let s  := runTxs (step d) txs s₀
    s.balances native d.this = s.owed native ↔
      ∀ e ∈ journal (step d) txs s₀, e.call.stray = 0 := by
  intro s₀ s
  have hs : s.balances native d.this = s.owed native + stray _ := native_balance inj hb ht
  rw [hs, Nat.add_eq_left, stray, List.sum_eq_zero_iff]
  simp [s₀]

end Run

namespace Sample

def token : Address :=
  0x70CE

def tokenDeployment : Deployment :=
  { deployment with standard := (· = token) }

def tokenSwap : Swap :=
  { swap with asset := token }

-- The owner sends 1 wei along with 5 units of the token.
def stranded : List (Block × Act Call) :=
  [(⟨1000⟩, ⟨.newSwap ⟨swap.owner, 1⟩ swap.claimCommitment swap.refundCommitment swap.claimer
    100 100 token 5 0, []⟩)]

theorem stranded_admissible :
    ∀ tx ∈ stranded,
      tx.snd.All fun c => c.Admissible tokenDeployment {tokenSwap} tx.fst ∧
        c.Closed tokenDeployment := by
  simp only [stranded, List.mem_singleton, forall_eq]
  refine .mk ⟨⟨by decide, ?_⟩, trivial⟩ (by simp)
  simp [Call.swaps, tokenSwap, swap]

theorem created_admissible :
    ∀ tx ∈ created,
      tx.snd.All fun c => c.Admissible deployment {swap} tx.fst ∧ c.Closed deployment := by
  simp only [created, List.mem_singleton, forall_eq]
  refine .mk ⟨⟨by decide, ?_⟩, trivial⟩ (by simp)
  simp [Call.swaps, swap]

end Sample

-- No open swap is worth the wei that the contract holds.
theorem stranded_wei :
    let s := runTxs (step Sample.tokenDeployment) Sample.stranded (.deployed Sample.funds)
    s.balances native Sample.tokenDeployment.this = 1 ∧ s.owed native = 0 := by
  intro s
  have hs : s.balances native Sample.tokenDeployment.this = s.owed native + stray _ :=
    native_balance (Set.injOn_singleton ..) (by decide) Sample.stranded_admissible
  have hb : s.balances native Sample.tokenDeployment.this = 1 := by decide
  have hj : stray (journal (step Sample.tokenDeployment) Sample.stranded
      (.deployed Sample.funds)) = 1 := by
    decide
  exact ⟨hb, by omega⟩

theorem nothing_stranded_created :
    let s := runTxs (step Sample.deployment) Sample.created (.deployed Sample.funds)
    s.balances native Sample.deployment.this = 5 ∧ s.owed native = 5 := by
  intro s
  have hb : s.balances native Sample.deployment.this = 5 := by decide
  have hj : ∀ e ∈ journal (step Sample.deployment) Sample.created (.deployed Sample.funds),
      e.call.stray = 0 := by
    decide
  have hs := nothing_stranded_iff (Set.injOn_singleton ..) (by decide)
    Sample.created_admissible |>.mpr hj
  exact ⟨hb, hs ▸ hb⟩

end Ethereum.SwapCreator
