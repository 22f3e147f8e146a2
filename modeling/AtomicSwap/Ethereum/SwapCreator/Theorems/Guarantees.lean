import AtomicSwap.Ethereum.SwapCreator.Theorems.Lifecycle

open Reentrant Function

namespace Ethereum.SwapCreator

variable {d : Deployment} {S : Set Swap} {busy : Set Bytes32} {credit credit' : Address → ℕ}
  {s s₀ : State} {sw : Swap} {id : Bytes32} {stage : Stage} {e : Event}

section WF

theorem State.Entry.mono (h : s₀.Entry d S id sw) (hl : s₀.logs ⊆ s.logs) : s.Entry d S id sw :=
  { h with logged := hl h.logged }

theorem State.WF.frame (h : s₀.WF d S) (hs : s.swaps = s₀.swaps) (ho : s.swapOf = s₀.swapOf)
    (hl : s.logs = s₀.logs)
    (hp : ∀ {i}, s.swaps i ≠ .completed → s.payouts i = s₀.payouts i) : s.WF d S where
  created i   := by rw [hs, ho]; exact h.created i
  entry h'    := (h.entry <| ho ▸ h').mono <| by simp [hl]
  recorded h' := by rw [ho]; exact h.recorded <| hl ▸ h'
  unpaid h'   := (hp h').trans <| h.unpaid <| hs ▸ h'

-- The state after an existing swap is moved to another stage.
def State.mark (s : State) (id : Bytes32) (stage : Stage) (e : Event) : State :=
  { s with swaps := update s.swaps id stage, logs := s.logs ++ [e] }

theorem State.WF.mark (h : s.WF d S) (hid : s.swaps id ≠ .invalid) (hst : stage ≠ .invalid)
    (hp : stage ≠ .completed → s.payouts id = [])
    (he : ∀ {i ck rk t₁ t₂ a v}, e ≠ .new i ck rk t₁ t₂ a v) : (s.mark id stage e).WF d S where
  created i := by
    by_cases hi : i = id
    case pos => subst hi; simp [State.mark, hst, ← h.created, hid]
    case neg => simp [State.mark, hi, ← h.created]
  entry h' := (h.entry h').mono <| List.subset_append_left ..
  recorded h' := by
    cases List.mem_append.mp h'
    case inl h' => exact h.recorded h'
    case inr h' => exact absurd (List.mem_singleton.mp h').symm he
  unpaid {i} h' := by
    by_cases hi : i = id
    case pos => subst hi; exact hp <| by simpa [State.mark] using h'
    case neg => exact h.unpaid <| by simpa [State.mark, hi] using h'

def State.create (s : State) (id : Bytes32) (sw : Swap) : State :=
  { s with
    swaps  := update s.swaps id .pending
    logs   := s.logs ++ [sw.newEvent id]
    swapOf := update s.swapOf id (some sw) }

theorem State.WF.create (h : s.WF d S) (hid : s.swaps (SwapCreator.swapID d sw) = .invalid)
    (hm : sw ∈ S) (hv : sw.Valid) : (s.create (SwapCreator.swapID d sw) sw).WF d S := by
  refine ⟨?created, ?entry, ?recorded, ?unpaid⟩
  case created =>
    intro i
    by_cases hi : i = SwapCreator.swapID d sw
    case pos => subst hi; simp [State.create]
    case neg => simp [State.create, hi, ← h.created]
  case entry =>
    intro i sw' h'
    by_cases hi : i = SwapCreator.swapID d sw
    case pos =>
      have he : sw = sw' := by simpa [State.create, hi] using h'
      subst hi he
      exact ⟨rfl, hm, hv, List.mem_append_right _ <| List.mem_singleton_self _⟩
    case neg =>
      have hs : s.swapOf i = some sw' := by simpa [State.create, hi] using h'
      exact (h.entry hs).mono <| List.subset_append_left ..
  case recorded =>
    intro i ck rk t₁ t₂ a v h'
    cases List.mem_append.mp h'
    case inl h' =>
      have ⟨sw', hs, he⟩ := h.recorded h'
      have hi : i ≠ SwapCreator.swapID d sw := by
        intro hi
        have := h.created i |>.mpr ⟨sw', hs⟩
        exact this <| hi ▸ hid
      exact ⟨sw', by simpa [State.create, hi] using hs, he⟩
    case inr h' =>
      have he := List.mem_singleton.mp h'
      have hi : i = SwapCreator.swapID d sw := by simp_all [Swap.newEvent]
      exact ⟨sw, by simp [State.create, hi], by rw [he, hi]⟩
  case unpaid =>
    intro i h'
    by_cases hi : i = SwapCreator.swapID d sw
    case pos => subst hi; exact h.unpaid <| by simp [hid]
    case neg => exact h.unpaid <| by simpa [State.create, hi] using h'

end WF

section Owed

variable {a : Address}

theorem State.held_of_open (hs : s.swapOf id = some sw) (ho : (s.swaps id).IsOpen) :
    s.held a id = (Pi.single sw.asset sw.value.toNat : Address → ℕ) a := by
  simp [held, hs, ho, Pi.single_apply, eq_comm]

theorem State.held_of_not_open (ho : ¬(s.swaps id).IsOpen) : s.held a id = 0 := by
  simp only [held, ho, false_and, if_false]
  split <;> rfl

theorem State.held_mark_of_ne {i : Bytes32} (hi : i ≠ id) :
    (s.mark id stage e).held a i = s.held a i := by
  simp [held, mark, hi]

theorem State.owed_mark_open (ho : (s.swaps id).IsOpen) (hst : stage.IsOpen) :
    (s.mark id stage e).owed a = s.owed a := by
  have hx := owed_exchange (s := s.mark id stage e) (a := a) fun _ => held_mark_of_ne
  have he : (s.mark id stage e).held a id = s.held a id := by
    simp [held, mark, ho, hst]
  omega

theorem State.owed_mark_completed (hs : s.swapOf id = some sw) (ho : (s.swaps id).IsOpen) :
    (s.mark id .completed e).owed a + (Pi.single sw.asset sw.value.toNat : Address → ℕ) a =
    s.owed a := by
  have hx := owed_exchange (s := s.mark id .completed e) (a := a) fun _ => held_mark_of_ne
  have hc : (s.mark id .completed e).held a id = 0 :=
    held_of_not_open <| by simp [mark, Stage.IsOpen]
  have ho := held_of_open (a := a) hs ho
  omega

theorem State.owed_create (hid : s.swaps id = .invalid) :
    (s.create id sw).owed a = s.owed a + (Pi.single sw.asset sw.value.toNat : Address → ℕ) a := by
  have hx : (s.create id sw).owed a + s.held a id = s.owed a + (s.create id sw).held a id :=
    owed_exchange fun i hi => by simp [held, create, hi]
  have h₀ : s.held a id = 0 := held_of_not_open <| by simp [hid, Stage.IsOpen]
  have h₁ : (s.create id sw).held a id = (Pi.single sw.asset sw.value.toNat : Address → ℕ) a :=
    held_of_open (by simp [create]) (by simp [create, Stage.IsOpen])
  omega

end Owed

section Evolves

theorem Evolves.rebalance {b : Ledger Address Address} (h : Evolves d S busy credit s₀ s)
    (hb : ∀ {a}, d.Holds a → credit' a + s.balances a d.this ≤ credit a + b a d.this) :
    Evolves d S busy credit' s₀ { s with balances := b } where
  wf                := h.wf.frame rfl rfl rfl fun _ => rfl
  swapOf            := h.swapOf
  kept              := h.kept
  settled           := h.settled
  covers inj {a} ha := by
    have hc := h.covers inj ha
    have hb := hb ha
    have ho : State.owed { s with balances := b } a = s.owed a := State.owed_congr rfl rfl
    rw [ho]
    dsimp only
    omega

theorem Evolves.ready (h : s.WF d S) (hp : s.swaps id = .pending) :
    Evolves d S ∅ 0 s (s.mark id .ready (.ready id)) where
  wf            := h.mark (by simp [hp]) (by simp) (fun _ => h.unpaid <| by simp [hp]) (by simp)
  swapOf hs     := hs
  kept {i} _ hc := by
    have hi : i ≠ id := by intro hi; simp_all
    exact ⟨by simpa [State.mark, hi] using hc, rfl⟩
  settled _ {i} _ ho hc := by
    by_cases hi : i = id
    case pos => simp [State.mark, hi] at hc
    case neg => exact absurd (by simpa [State.mark, hi] using hc) ho
  covers _ {_} _ := by
    rw [State.owed_mark_open (by simp [hp, Stage.IsOpen]) (by simp [Stage.IsOpen])]
    simp [State.mark]

theorem Evolves.create (h : Evolves d S ∅ (Pi.single sw.asset sw.value.toNat) s₀ s)
    (hid : s.swaps (SwapCreator.swapID d sw) = .invalid) (hm : sw ∈ S) (hv : sw.Valid) :
    Evolves d S ∅ 0 s₀ (s.create (SwapCreator.swapID d sw) sw) where
  wf := h.wf.create hid hm hv
  swapOf {i} _ hs := by
    have hs := h.swapOf hs
    have hi : i ≠ SwapCreator.swapID d sw := by
      intro hi
      exact (h.wf.created i).mpr ⟨_, hs⟩ <| hi ▸ hid
    simpa [State.create, hi] using hs
  kept {i} hb hc := by
    have ⟨hc, hp⟩ := h.kept hb hc
    have hi : i ≠ SwapCreator.swapID d sw := by intro hi; simp_all
    exact ⟨by simpa [State.create, hi] using hc, hp⟩
  settled inj {i} hb ho hc := by
    have hi : i ≠ SwapCreator.swapID d sw := by intro hi; simp [State.create, hi] at hc
    have hc : s.swaps i = .completed := by simpa [State.create, hi] using hc
    have ⟨sw', hs, hp⟩ := h.settled inj hb ho hc
    exact ⟨sw', by simpa [State.create, hi] using hs, hp⟩
  covers inj {_} ha := by
    have hc := h.covers inj ha
    rw [State.owed_create hid]
    simp only [State.create, Pi.zero_apply]
    omega

end Evolves

section Settling

variable (d S) in
-- On the way from `s₀` to `s` the swap `sw` has been completed and `paid` has been paid out for it.
-- Of its value `due` is left.
structure Settling
    (s₀ : State) (sw : Swap) (paid : List (Address × ℕ)) (due : ℕ) (s : State) : Prop where
  evolves : Evolves d S {SwapCreator.swapID d sw} (Pi.single sw.asset due) s₀ s
  swapOf  : CollisionFree d S → s.swapOf (SwapCreator.swapID d sw) = some sw
  stage   : s.swaps (SwapCreator.swapID d sw) = .completed
  payouts : s.payouts (SwapCreator.swapID d sw) = paid

variable {paid : List (Address × ℕ)} {due : ℕ}

theorem Settling.start (h : s.WF d S) (hm : sw ∈ S)
    (ho : (s.swaps (SwapCreator.swapID d sw)).IsOpen)
    (he : ∀ {i ck rk t₁ t₂ a v}, e ≠ .new i ck rk t₁ t₂ a v) :
    Settling d S s sw [] sw.value.toNat (s.mark (SwapCreator.swapID d sw) .completed e) := by
  have hid : s.swaps (SwapCreator.swapID d sw) ≠ .invalid := by
    intro hi
    simp [hi, Stage.IsOpen] at ho
  have hs (inj : CollisionFree d S) := h.swapOf_eq inj hm hid
  refine ⟨⟨h.mark hid (by simp) (by simp) he, fun h => h, ?kept, ?settled, ?covers⟩, hs, ?_, ?_⟩
  case kept =>
    intro i hi hc
    exact ⟨by simpa [State.mark, update_of_ne hi] using hc, rfl⟩
  case settled =>
    intro _ i hi ho hc
    exact absurd (by simpa [State.mark, update_of_ne hi] using hc) ho
  case covers =>
    intro inj a _
    have hc := State.owed_mark_completed (e := e) (a := a) (hs inj) ho
    simp only [State.mark] at hc ⊢
    omega
  · simp [State.mark]
  · exact h.unpaid_of_open ho

theorem Settling.record (h : Settling d S s₀ sw paid due s) (p : Address × ℕ) :
    Settling d S s₀ sw (paid ++ [p]) due
      { s with payouts := update s.payouts (SwapCreator.swapID d sw)
                 (s.payouts (SwapCreator.swapID d sw) ++ [p]) } := by
  refine ⟨⟨h.evolves.wf.frame rfl rfl rfl ?_, h.evolves.swapOf, ?kept, ?settled, ?covers⟩,
    h.swapOf, h.stage, by simp [h.payouts]⟩
  case kept =>
    intro i hi hc
    simpa [update_of_ne hi] using h.evolves.kept hi hc
  case settled =>
    intro inj i hi ho hc
    simpa [update_of_ne hi] using h.evolves.settled inj hi ho hc
  case covers => exact h.evolves.covers
  intro i hc
  have hi : i ≠ SwapCreator.swapID d sw := by intro hi; exact hc <| hi ▸ h.stage
  simp [hi]

theorem Settling.rebalance {b : Ledger Address Address} {due' : ℕ}
    (h : Settling d S s₀ sw paid due s)
    (hb : ∀ {a}, d.Holds a → (Pi.single sw.asset due' : Address → ℕ) a + s.balances a d.this ≤
      (Pi.single sw.asset due : Address → ℕ) a + b a d.this) :
    Settling d S s₀ sw paid due' { s with balances := b } :=
  { h with evolves := h.evolves.rebalance hb }

theorem Settling.trans {s' : State} (h : Settling d S s₀ sw paid due s)
    (hg : Guarantee d S s s') : Settling d S s₀ sw paid due s' := by
  have hg' := hg h.evolves.wf
  have ⟨hs, hp⟩ := hg'.kept (by simp) h.stage
  exact ⟨h.evolves.trans hg, fun inj => hg'.swapOf <| h.swapOf inj, hs, hp.trans h.payouts⟩

theorem Settling.finish (h : Settling d S s₀ sw paid 0 s)
    (ho : (s₀.swaps (SwapCreator.swapID d sw)).IsOpen) (hp : sw.Settlement paid) :
    Evolves d S ∅ 0 s₀ s := by
  have hn : s₀.swaps (SwapCreator.swapID d sw) ≠ .completed := by
    intro hc
    simp [hc, Stage.IsOpen] at ho
  refine ⟨h.evolves.wf, h.evolves.swapOf, ?kept, ?settled, ?covers⟩
  case kept =>
    intro i _ hc
    have hi : i ≠ SwapCreator.swapID d sw := by intro hi; exact hn <| hi ▸ hc
    exact h.evolves.kept hi hc
  case settled =>
    intro inj i _ hn hc
    by_cases hi : i = SwapCreator.swapID d sw
    case pos => subst hi; exact ⟨sw, h.swapOf inj, h.payouts ▸ hp⟩
    case neg => exact h.evolves.settled inj hi hn hc
  case covers =>
    intro inj a ha
    simpa using h.evolves.covers inj ha

theorem pay_spec {dst : Address} {v : Uint256} (due : ℕ)
    (h : Settling d S s₀ sw paid (v.toNat + due) s) :
    Code.wp (Guarantee d S) (pay d (SwapCreator.swapID d sw) sw.asset dst v)
      (fun _ => Settling d S s₀ sw (paid ++ [(dst, v.toNat)]) due) (Reverts d S s₀) s := by
  have h := h.record (dst, v.toNat)
  simp only [pay, Code.wp_bind, Code.wp_modify, Code.wp_ite, Code.wp_get, Code.wp_revertIf,
    Code.wp_handOver]
  refine ⟨fun ha => ⟨?revert, ?transfer⟩, ?token⟩
  case revert =>
    intro hf _ inj hs
    have hc := h.evolves.covers inj ha
    have hs := hs ha
    simp only [Pi.single_eq_same] at hc
    omega
  case transfer =>
    intro hf
    refine ⟨fun _ _ _ _ => by simp, fun _ => h.rebalance ?_⟩
    intro a _
    by_cases hn : a = sw.asset
    case neg => simp [hn, Ledger.move_of_asset_ne hn]
    case pos =>
      subst hn
      have hm := Ledger.le_move_src dst (Nat.le_of_not_lt hf)
      simp only [Pi.single_eq_same]
      omega
  case token =>
    intro ha s' hg
    refine Settling.rebalance (b := s'.balances) (h.trans hg) ?_
    intro a ha'
    have hn : a ≠ sw.asset := by intro hn; exact ha <| hn ▸ ha'
    simp [hn]

end Settling

section Calls

-- The swaps a call encodes and hashes.
def Call.swaps (block : Block) : Call → List Swap
  | newSwap msg claimCommitment refundCommitment claimer d₁ d₂ asset value nonce =>
    [{ owner := msg.sender, claimer, claimCommitment, refundCommitment
       timeout1 := block.timestamp + d₁, timeout2 := block.timestamp + d₁ + d₂
       asset, value, nonce }]
  | setReady _ swap | claim _ swap _ | refund _ swap _ => [swap]
  | claimRelayer _ relaySwap .. => [relaySwap.swap]
  | outside .. => []

def Call.senders : Call → List Address
  | newSwap msg .. | setReady msg .. | claim msg .. | claimRelayer msg .. | refund msg .. =>
    [msg.sender]
  | outside .. => []

variable (d S) in
-- The contract does not call itself.
structure Call.Admissible (block : Block) (c : Call) : Prop where
  sender : d.this ∉ c.senders
  mem    : ∀ sw ∈ c.swaps block, sw ∈ S

variable {block : Block} {msg : Msg} {secret : Bytes32}

theorem Reverts.of_custom {e : Error} : Reverts d S s (.custom e) :=
  fun _ _ _ => by simp

theorem Reverts.of_lift {α : Type} {x : Except (Revert Error) α} (h : Computes x) :
    ∀ e, x = .error e → Reverts d S s e :=
  fun _ hx _ _ _ he => h <| he ▸ hx

theorem payable_spec (h : s.WF d S) (hs : msg.sender ≠ d.this) :
    Code.wp (Guarantee d S) (payable d msg)
      (fun _ => Evolves d S ∅ (Pi.single native msg.value.toNat) s) (Reverts d S s) s := by
  simp only [payable, Code.wp_bind, Code.wp_get, Code.wp_revertIf, Code.wp_modify]
  refine ⟨fun _ _ _ _ => by simp, fun _ => ?_⟩
  refine (Evolves.refl h).rebalance ?_
  intro a _
  by_cases ha : a = native
  case neg => simp [ha, Ledger.move_of_asset_ne ha]
  case pos => subst ha; simp [Ledger.move_to hs]; omega

theorem Evolves.waive (h : Evolves d S busy credit s₀ s) : Evolves d S busy 0 s₀ s :=
  h.rebalance <| by simp

theorem safeTransferFrom_spec {token src : Address} {v : Uint256}
    (h : Evolves d S ∅ credit s₀ s) (hs : src ≠ d.this) (ht : token ≠ native) :
    Code.wp (Guarantee d S) (safeTransferFrom d token src v)
      (fun _ => Evolves d S ∅ (Pi.single token v.toNat) s₀) (Reverts d S s₀) s := by
  simp only [safeTransferFrom, Code.wp_bind, Code.wp_get, Code.wp_ite, Code.wp_revertIf,
    Code.wp_modify, Code.wp_handOver]
  refine ⟨fun _ => ⟨fun _ _ _ _ => by simp, fun _ => ?standard⟩, fun hd s' hg => ?other⟩
  case standard =>
    refine h.waive.rebalance ?_
    intro a _
    by_cases ha : a = token
    case neg => simp [ha, Ledger.move_of_asset_ne ha]
    case pos => subst ha; simp [Ledger.move_to hs]; omega
  case other =>
    refine Evolves.rebalance (b := s'.balances) (h.waive.trans hg) ?_
    intro a ha
    have hn : a ≠ token := by intro hn; subst hn; exact hd <| ha.resolve_left ht
    simp [hn]

theorem lockAsset_spec {asset : Address} {value : Uint256} (hs : msg.sender ≠ d.this)
    (h : Evolves d S ∅ (Pi.single native msg.value.toNat) s₀ s) :
    Code.wp (Guarantee d S) (lockAsset d msg asset value)
      (fun _ => Evolves d S ∅ (Pi.single asset value.toNat) s₀) (Reverts d S s₀) s := by
  simp only [lockAsset, Code.wp_ite, Code.wp_revertIf, Decidable.not_not]
  refine ⟨fun ha => ⟨fun _ => .of_custom, fun hv => ?_⟩, fun ha => safeTransferFrom_spec h hs ha⟩
  subst ha hv
  exact h

theorem createSwap_spec (h : Evolves d S ∅ (Pi.single sw.asset sw.value.toNat) s₀ s) (hm : sw ∈ S)
    (hv : sw.Valid) :
    Code.wp (Guarantee d S) (createSwap d sw) (fun _ => Evolves d S ∅ 0 s₀) (Reverts d S s₀) s := by
  simp only [createSwap, emit, setStage, Code.wp_bind, Code.wp_get, Code.wp_revertIf,
    Code.wp_modify, Code.wp_pure, Decidable.not_not]
  exact ⟨fun _ => .of_custom, fun hid => h.create hid hm hv⟩

theorem newSwap_spec
    {claimCommitment refundCommitment : Bytes32} {claimer asset : Address}
    {d₁ d₂ value nonce : Uint256}
    (h : s.WF d S)
    (ha : Call.Admissible d S block <|
      .newSwap msg claimCommitment refundCommitment claimer d₁ d₂ asset value nonce) :
    Code.wp (Guarantee d S)
      (step d block <|
        .newSwap msg claimCommitment refundCommitment claimer d₁ d₂ asset value nonce)
      (fun _ => Evolves d S ∅ 0 s) (Reverts d S s) s := by
  have hs : msg.sender ≠ d.this := by simpa [Call.senders, eq_comm] using ha.sender
  have hm := ha.mem _ <| List.mem_singleton_self _
  rw [step, Code.wp_bind]
  refine (payable_spec h hs).mono (fun _ s₁ h₁ => ?_) fun _ he => he
  simp only [newSwap, Code.wp_bind, Code.wp_revertIf]
  refine ⟨fun _ => .of_custom, fun hv => ?_⟩
  refine (lockAsset_spec hs h₁).mono (fun _ s₂ h₂ => ?_) fun _ he => he
  simp only [Code.wp_bind, Code.wp_revertIf, Code.wp_lift, Uint256.add_eq_ok]
  refine ⟨fun _ => .of_custom, fun hk => ⟨fun _ => .of_custom, fun hc => ⟨fun _ => .of_custom,
    fun ht => ⟨fun t₁ ht₁ => ⟨fun t₂ ht₂ => ?_, ?_⟩, ?_⟩⟩⟩⟩
  case refine_1 =>
    have ht₁ : t₁ = block.timestamp + d₁ := by bv_omega
    have ht₂ : t₂ = block.timestamp + d₁ + d₂ := by bv_omega
    have hv : Swap.Valid
        { owner := msg.sender, claimer, claimCommitment, refundCommitment, timeout1 := t₁,
          timeout2 := t₂, asset, value, nonce } :=
      ⟨fun h => hk <| .inl h, fun h => hk <| .inr h, hc, hv, by dsimp only; bv_omega⟩
    refine (createSwap_spec h₂ (ht₁ ▸ ht₂ ▸ hm) hv).mono (fun _ _ h => ?_) fun _ he => he
    simpa using h
  all_goals exact .of_lift Uint256.checked_computes

theorem setReady_spec (h : s.WF d S) :
    Code.wp (Guarantee d S) (step d block <| .setReady msg sw)
      (fun _ => Evolves d S ∅ 0 s) (Reverts d S s) s := by
  simp only [step, nonpayable, setReady, setStage, emit, Code.wp_bind, Code.wp_revertIf,
    Code.wp_get, Code.wp_modify, Decidable.not_not]
  exact ⟨fun _ _ _ _ => by simp, fun _ => ⟨fun _ => .of_custom, fun hp => ⟨fun _ => .of_custom,
    fun _ => .ready h hp⟩⟩⟩

theorem _claim_spec (h : s.WF d S) (hm : sw ∈ S) :
    Code.wp (Guarantee d S) (_claim d block sw secret)
      (fun _ s' => (s.swaps (SwapCreator.swapID d sw)).IsOpen ∧
        Settling d S s sw [] sw.value.toNat s')
      (Reverts d S s) s := by
  simp only [_claim, checkClaim, verifySecret, setStage, emit, Code.wp_bind, Code.wp_revertIf,
    Code.wp_get, Code.wp_modify]
  refine ⟨fun _ => .of_custom, fun hi => ⟨fun _ => .of_custom, fun hc => ⟨fun _ => .of_custom,
    fun _ => ⟨fun _ => .of_custom, fun _ => ⟨fun _ => .of_custom, fun _ => ?_⟩⟩⟩⟩⟩
  have ho : (s.swaps (SwapCreator.swapID d sw)).IsOpen := Stage.isOpen_iff.mpr ⟨hi, hc⟩
  exact ⟨ho, .start h hm ho (by simp)⟩

theorem claim_spec (h : s.WF d S) (hm : sw ∈ S) :
    Code.wp (Guarantee d S) (step d block <| .claim msg sw secret)
      (fun _ => Evolves d S ∅ 0 s) (Reverts d S s) s := by
  simp only [step, nonpayable, claim, Code.wp_bind, Code.wp_revertIf]
  refine ⟨fun _ _ _ _ => by simp, fun _ => ⟨fun _ => .of_custom, fun _ => ?_⟩⟩
  refine (_claim_spec h hm).mono (fun _ s₁ hq => ?_) fun _ he => he
  obtain ⟨ho, hs⟩ := hq
  exact (pay_spec 0 hs).mono (fun _ _ hs => hs.finish ho .claim) fun _ he => he

theorem claimRelayer_spec
    {relaySwap : RelaySwap} {relayer : Address} {salt : BitVec 32} {v : UInt8} {r s' : Bytes32}
    (h : s.WF d S) (hm : relaySwap.swap ∈ S) :
    Code.wp (Guarantee d S) (step d block <| .claimRelayer msg relaySwap secret relayer salt v r s')
      (fun _ => Evolves d S ∅ 0 s) (Reverts d S s) s := by
  simp only [step, nonpayable, claimRelayer, Code.wp_bind, Code.wp_revertIf]
  refine ⟨fun _ _ _ _ => by simp, fun _ => ⟨fun _ => .of_custom, fun _ => ⟨fun _ => .of_custom,
    fun _ => ⟨fun _ => .of_custom, fun _ => ?_⟩⟩⟩⟩
  refine (_claim_spec h hm).mono (fun _ s₁ hq => ?_) fun _ he => he
  obtain ⟨ho, hs⟩ := hq
  simp only [Code.wp_bind, Code.wp_lift, Uint256.sub_eq_ok]
  refine ⟨fun rest hr => ?_, .of_lift Uint256.sub_computes⟩
  have hs : Settling d S s relaySwap.swap [] (rest.toNat + relaySwap.fee.toNat) s₁ := by
    rw [Nat.add_comm, hr]
    exact hs
  refine (pay_spec _ hs).mono (fun _ s₂ hs => ?_) fun _ he => he
  refine (pay_spec 0 hs).mono (fun _ s₃ hs => hs.finish ho ?_) fun _ he => he
  have hf : rest.toNat = relaySwap.swap.value.toNat - relaySwap.fee.toNat := by omega
  rw [hf]
  exact .relayed <| by omega

theorem refund_spec (h : s.WF d S) (hm : sw ∈ S) :
    Code.wp (Guarantee d S) (step d block <| .refund msg sw secret)
      (fun _ => Evolves d S ∅ 0 s) (Reverts d S s) s := by
  simp only [step, nonpayable, refund, checkRefund, verifySecret, setStage, emit, Code.wp_bind,
    Code.wp_revertIf, Code.wp_get, Code.wp_modify]
  refine ⟨fun _ _ _ _ => by simp, fun _ => ⟨fun _ => .of_custom, fun hi => ⟨fun _ => .of_custom,
    fun hc => ⟨fun _ => .of_custom, fun _ => ⟨fun _ => .of_custom, fun _ => ⟨fun _ => .of_custom,
    fun _ => ?_⟩⟩⟩⟩⟩⟩
  have ho : (s.swaps (SwapCreator.swapID d sw)).IsOpen := Stage.isOpen_iff.mpr ⟨hi, hc⟩
  have hs : Settling d S s sw [] sw.value.toNat _ :=
    .start (e := .refunded (SwapCreator.swapID d sw) secret) h hm ho (by simp)
  exact (pay_spec 0 hs).mono (fun _ _ hs => hs.finish ho .refund) fun _ he => he

theorem outside_spec {a holder : Address} {balance : ℕ} (h : s.WF d S) :
    Code.wp (Guarantee d S) (step d block <| .outside a holder balance)
      (fun _ => Evolves d S ∅ 0 s) (Reverts d S s) s := by
  simp only [step, Code.wp_bind, Code.wp_get, Code.wp_revertIf, Code.wp_modify]
  refine ⟨fun _ _ _ _ => by simp, fun hb => ?_⟩
  refine (Evolves.refl h).rebalance ?_
  intro a' ha'
  refine Nat.add_le_add_left (Ledger.le_put fun he ht => ?_) _
  subst he ht
  exact not_lt.mp fun hl => hb ⟨rfl, ha', hl⟩

end Calls

end Ethereum.SwapCreator
