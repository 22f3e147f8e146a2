import AtomicSwap.Ethereum.VaultManager.Theorems.Custody
import AtomicSwap.Ethereum.VaultManager.Theorems.Footprints

open Reentrant Code Function

namespace Ethereum.VaultManager

def State.debt (s : State) : ℕ :=
  ∑ lp, (s.vaults lp).debtAmount.toNat

-- The contract manages the token, and the vaults owe all of its supply.
structure State.Backed (d : Deployment) (s : State) : Prop where
  manager   : s.tokenManager = d.this
  supply    : s.totalSupply.toNat = s.debt
  idle      : ∀ {lp}, ¬(s.vaults lp).active → (s.vaults lp).debtAmount = 0
  requested : ∀ {id}, (s.mintRequests id).status = .pending ∨ (s.mintRequests id).status = .ready →
    (s.vaults (s.mintRequests id).lpVault).active

-- The mint requests, and what stands for the supply of the token.
structure Core where
  mintRequests : Bytes32 → MintRequest
  vaults       : Address → Vault
  tokenManager : Address
  totalSupply  : Uint256

-- The amounts of collateral are left out.
def State.core (s : State) : Core where
  mintRequests := s.mintRequests
  vaults lp    := { s.vaults lp with collateralAmount := 0 }
  tokenManager := s.tokenManager
  totalSupply  := s.totalSupply

variable {d : Deployment} {block : Block} {s s' : State} {msg : Msg} {lp asset dst : Address}
  {id : Bytes32} {n m : Uint256} {v : Vault}

theorem State.core_setCollateral (s : State) (lp : Address) (n : Uint256) :
    s.core = State.core
      { s with vaults := update s.vaults lp { s.vaults lp with collateralAmount := n } } := by
  simp only [core, Core.mk.injEq, and_true, true_and]
  funext lp'
  by_cases h : lp' = lp
  case pos => subst h; simp
  case neg => simp [h]

theorem State.Backed.frame (h : s.Backed d) (hc : s.core = s'.core) : s'.Backed d := by
  have hr : s.mintRequests = s'.mintRequests := congrArg Core.mintRequests hc
  have hm : s.tokenManager = s'.tokenManager := congrArg Core.tokenManager hc
  have ht : s.totalSupply = s'.totalSupply := congrArg Core.totalSupply hc
  have hd (lp) : (s.vaults lp).debtAmount = (s'.vaults lp).debtAmount :=
    congrArg (fun c => (c.vaults lp).debtAmount) hc
  have ha (lp) : (s.vaults lp).active = (s'.vaults lp).active :=
    congrArg (fun c => (c.vaults lp).active) hc
  constructor
  case manager   => exact hm ▸ h.manager
  case supply    => simpa only [debt, hd, ht] using h.supply
  case idle      => simpa only [hd, ha] using @h.idle
  case requested => simpa only [hr, ha] using @h.requested

theorem backed_of_leaves {α : Type} {m : M α} (h : Leaves State.core m) :
    Maintains (State.Backed d) m :=
  h.maintains fun _ _ hc hs => hs.frame hc

-- The debt of a vault changes together with the supply.
theorem State.Backed.setVault (h : s.Backed d) (hm : s'.tokenManager = s.tokenManager)
    (hr : s'.mintRequests = s.mintRequests) (hv : s'.vaults = update s.vaults lp v)
    (ha : (s.vaults lp).active → v.active) (hi : ¬v.active → v.debtAmount = 0)
    (ht : s'.totalSupply.toNat + (s.vaults lp).debtAmount.toNat =
      s.totalSupply.toNat + v.debtAmount.toNat) : s'.Backed d where
  manager := hm.trans h.manager
  supply  := by
    have hx := sum_exchange (f := fun i => (s.vaults i).debtAmount.toNat)
      (g := fun i => (update s.vaults lp v i).debtAmount.toNat) lp fun i hi => by simp [hi]
    have hs := h.supply
    simp only [debt, hv, update_self] at hx hs ⊢
    omega
  idle {i} hn := by
    rw [hv] at hn ⊢
    by_cases he : i = lp
    case pos => subst he; simp only [update_self] at hn ⊢; exact hi hn
    case neg => simp only [update_of_ne he] at hn ⊢; exact h.idle hn
  requested {id} hp := by
    rw [hr] at hp ⊢
    rw [hv]
    have hb := h.requested hp
    by_cases he : (s.mintRequests id).lpVault = lp
    case pos => rw [he] at hb ⊢; simpa using ha hb
    case neg => simpa [he] using hb

theorem State.Backed.setMint {r : MintRequest} (h : s.Backed d)
    (hm : s'.tokenManager = s.tokenManager) (ht : s'.totalSupply = s.totalSupply)
    (hv : s'.vaults = s.vaults) (hr : s'.mintRequests = update s.mintRequests id r)
    (hp : r.status = .pending ∨ r.status = .ready → (s.vaults r.lpVault).active) :
    s'.Backed d where
  manager := hm.trans h.manager
  supply  := by rw [ht, debt, hv]; exact h.supply
  idle    := by rw [hv]; exact h.idle
  requested {i} hi := by
    rw [hr] at hi ⊢
    rw [hv]
    by_cases he : i = id
    case pos => subst he; simp only [update_self] at hi ⊢; exact hp hi
    case neg => simp only [update_of_ne he] at hi ⊢; exact h.requested hi

theorem emit_backed {e : Event} : Maintains (State.Backed d) (emit e) :=
  backed_of_leaves <| emit_leaves fun _ _ => rfl

theorem nonReentrant_backed {m : M Unit} (hm : Maintains (State.Backed d) m) :
    Maintains (State.Backed d) (nonReentrant m) :=
  maintains_bind maintains_get fun _ => maintains_bind maintains_revertIf fun _ =>
    maintains_bind (maintains_modify fun _ h => h.frame rfl) fun _ =>
    maintains_bind hm fun _ => maintains_modify fun _ h => h.frame rfl

-- The debt of a vault is reduced, and as much of the token is burned.
theorem reduceVault_burn_backed {α : Type} {f : Unit → M α}
    (hf : ∀ u, Maintains (State.Backed d) (f u)) :
    Maintains (State.Backed d) (do reduceVault lp n m; let u ← burn d dst m; f u) := by
  intro s h
  simp only [reduceVault, burn, VaultManager.setVault, holds_bind, holds_get, holds_lift,
    holds_modify, holds_revertIf, Uint256.sub_eq_ok]
  intro c _ b hb _
  have hl : (s.vaults lp).debtAmount.toNat ≤ s.debt :=
    le_sum (fun lp => (s.vaults lp).debtAmount.toNat) lp
  have hs := h.supply
  refine hf _ _ <| h.setVault rfl rfl rfl (·) (fun ha => ?idle) ?supply
  case idle   => have := h.idle ha; bv_omega
  case supply => bv_omega

theorem createVault_backed : Maintains (State.Backed d) (createVault msg asset) := by
  intro s h
  simp only [createVault, VaultManager.setVault, emit, holds_bind, holds_get, holds_revertIf,
    holds_modify]
  intro ha _
  exact h.setVault rfl rfl rfl (fun ha' => absurd ha' ha) (fun _ => rfl) <| by simp [h.idle ha]

theorem initiateMint_backed {commitment : Bytes32} :
    Maintains (State.Backed d) (initiateMint d block msg lp n commitment m) := by
  intro s h
  simp only [initiateMint, setMintRequest, emit, requireRatio, holds_bind, holds_get,
    holds_revertIf, holds_lift, holds_modify, holds_pure, Decidable.not_not]
  intro _ _ _ ha _ _ _ _ _ _ _ _ _ _
  exact h.setMint rfl rfl rfl rfl fun _ => ha

theorem setMintReady_backed : Maintains (State.Backed d) (setMintReady msg id) := by
  intro s h
  simp only [setMintReady, setMintRequest, emit, holds_bind, holds_get, holds_revertIf,
    holds_modify, Decidable.not_not]
  intro hp _
  exact h.setMint rfl rfl rfl rfl fun _ => h.requested <| .inl hp

theorem cancelMint_backed : Maintains (State.Backed d) (cancelMint block msg id) := by
  intro s h
  simp only [cancelMint, setMintRequest, emit, holds_bind, holds_get, holds_revertIf, holds_lift,
    holds_modify]
  intro _ _ _ _ _
  exact h.setMint rfl rfl rfl rfl <| by simp

theorem finalizeMint_backed {secret : Bytes32} :
    Maintains (State.Backed d) (finalizeMint d id secret) := by
  refine nonReentrant_backed fun s h => ?_
  simp only [verifySecret, VaultManager.setVault, mint, setMintRequest, emit, holds_bind,
    holds_get, holds_revertIf, holds_lift, holds_modify, Decidable.not_not, Uint256.add_eq_ok]
  intro hr _ n hn _ t ht
  have ha := h.requested <| .inr hr
  have hv : State.Backed d
      { s with
        totalSupply := t
        vaults      := update s.vaults (s.mintRequests id).lpVault
          { s.vaults (s.mintRequests id).lpVault with debtAmount := n } } :=
    h.setVault rfl rfl rfl (·) (fun hi => absurd ha hi) (by dsimp only; omega)
  exact hv.setMint rfl rfl rfl rfl <| by simp

theorem initiateBurn_backed {commitment : Bytes32} :
    Maintains (State.Backed d) (initiateBurn d block msg n lp commitment) := by
  refine maintains_bind maintains_get fun _ => maintains_bind maintains_revertIf fun _ =>
    maintains_bind maintains_revertIf fun _ => maintains_bind maintains_revertIf fun _ =>
    maintains_bind maintains_revertIf fun _ => maintains_bind maintains_revertIf fun _ =>
    maintains_bind maintains_lift fun _ => maintains_bind maintains_lift fun _ =>
    maintains_bind maintains_revertIf fun _ => ?_
  -- Otherwise the sum is evaluated when the rules are applied.
  generalize Uint256.add block.timestamp burnTimeout = deadline
  dsimp only
  exact maintains_bind maintains_revertIf fun _ => reduceVault_burn_backed fun _ =>
    maintains_bind maintains_lift fun _ =>
    maintains_bind (maintains_modify fun _ h => h.frame rfl) fun _ =>
    maintains_bind emit_backed fun _ => maintains_pure

theorem liquidate_backed : Maintains (State.Backed d) (liquidate d block msg lp n) :=
  nonReentrant_backed <| maintains_bind maintains_get fun _ =>
    maintains_bind maintains_revertIf fun _ => maintains_bind maintains_revertIf fun _ =>
    maintains_bind maintains_revertIf fun _ => maintains_bind maintains_lift fun _ =>
    maintains_bind maintains_revertIf fun _ => maintains_bind maintains_lift fun _ =>
    reduceVault_burn_backed fun _ =>
    maintains_bind (backed_of_leaves <| sendCollateral_leaves fun _ _ => rfl) fun _ => emit_backed

-- The contract is never replaced as the manager of the token.
def Call.KeepsManager (d : Deployment) : Call → Prop
  | manage tokenManager _ => tokenManager = d.this
  | _                     => True

theorem manage_backed {totalSupply : Uint256} :
    Maintains (State.Backed d) (dispatch d block <| .manage d.this totalSupply) := by
  intro s h
  simp only [dispatch, holds_bind, holds_get, holds_revertIf, holds_modify, h.manager, true_and,
    Decidable.not_not]
  exact fun ht => h.frame <| by simp [State.core, h.manager, ht]

theorem dispatch_backed {c : Call} (hc : c.KeepsManager d) :
    Maintains (State.Backed d) (dispatch d block c) := by
  cases c
  case createVault        => exact createVault_backed
  case depositCollateral  =>
    exact backed_of_leaves <| depositCollateral_leaves (fun _ _ => rfl) (fun _ _ => rfl)
      (fun _ _ => rfl) State.core_setCollateral
  case withdrawCollateral =>
    exact backed_of_leaves <| withdrawCollateral_leaves (fun _ _ => rfl) (fun _ _ => rfl)
      (fun _ _ => rfl) State.core_setCollateral
  case initiateMint       => exact maintains_bind initiateMint_backed fun _ => maintains_pure
  case setMintReady       => exact setMintReady_backed
  case finalizeMint       => exact finalizeMint_backed
  case cancelMint         => exact cancelMint_backed
  case initiateBurn       => exact maintains_bind initiateBurn_backed fun _ => maintains_pure
  case finalizeBurn       =>
    exact backed_of_leaves <| finalizeBurn_leaves (fun _ _ => rfl) (fun _ _ => rfl)
      State.core_setCollateral fun _ _ => rfl
  case claimSlashedCollateral =>
    exact backed_of_leaves <| claimSlashedCollateral_leaves (fun _ _ => rfl) (fun _ _ => rfl)
      (fun _ _ => rfl) fun _ _ => rfl
  case liquidate          => exact liquidate_backed
  case manage             => exact (show _ = d.this from hc) ▸ manage_backed
  all_goals
    refine (dispatch_other_leaves rfl).maintains fun s s' hf h => h.frame ?_
    simp only [State.fixed, Prod.mk.injEq] at hf
    simp [State.core, hf]

theorem step_backed (block : Block) :
    Invariant (step d block) (State.Backed d) (Call.KeepsManager d) := by
  intro c hc
  simp only [step]
  split
  case h_1 =>
    exact maintains_bind (backed_of_leaves <| payable_leaves fun _ _ => rfl) fun _ =>
      dispatch_backed hc
  case h_2 => exact maintains_bind maintains_revertIf fun _ => dispatch_backed hc

section Run

variable {owner : Address} {balances : Ledger Address Address} {txs : List (Block × Act Call)}

theorem constructed_backed : (State.constructed d owner d.this 0 balances).Backed d := by
  constructor <;> simp [State.constructed, State.debt]

-- Whoever looks at the contract, during a call or after it, finds that the vaults owe exactly what
-- is in circulation.
theorem supply_eq_debt (h : ∀ tx ∈ txs, tx.snd.All (Call.KeepsManager d))
    (hs : s ∈ visibleTxs (step d) txs (.constructed d owner d.this 0 balances)) :
    s.totalSupply.toNat = ∑ lp, (s.vaults lp).debtAmount.toNat :=
  (visibleTxs_invariant step_backed txs h constructed_backed s hs).supply

namespace Sample

-- A token is minted. While the provider withdraws 10 MON, the user starts to burn a part of it.
def burned : List (Block × Act Call) :=
  [(blockAt 1000 1, ⟨.createVault ⟨provider, 0⟩ native, []⟩),
   (blockAt 1000 1, ⟨.depositCollateral ⟨provider, 300 * 10 ^ 18⟩ (300 * 10 ^ 18), []⟩),
   (blockAt 1000 1, ⟨.initiateMint ⟨user, 0⟩ provider (10 ^ 12) commitment 3600, []⟩),
   (blockAt 1012 2, ⟨.setMintReady ⟨provider, 0⟩ firstID, []⟩),
   (blockAt 1012 2, ⟨.finalizeMint ⟨user, 0⟩ firstID 1, []⟩),
   (blockAt 1024 3, ⟨.withdrawCollateral ⟨provider, 0⟩ (10 * 10 ^ 18),
     [.returns [⟨.initiateBurn ⟨user, 0⟩ (4 * 10 ^ 7) provider commitment, []⟩]]⟩)]

def afterBurn : State :=
  runTxs (step deployment) burned initial

theorem burned_keepsManager : ∀ tx ∈ burned, tx.snd.All (Call.KeepsManager deployment) := by
  have single (c) (h : Call.KeepsManager deployment c) :
      Act.All (Call.KeepsManager deployment) ⟨c, []⟩ := .mk h (by simp)
  simp only [burned, List.forall_mem_cons, List.not_mem_nil, false_imp_iff, implies_true, and_true]
  refine ⟨single _ trivial, single _ trivial, single _ trivial, single _ trivial, single _ trivial,
    .mk trivial ?_⟩
  simp only [List.mem_singleton, forall_eq, Reply.acts]
  exact single _ trivial

end Sample

theorem supply_eq_debt_burned :
    Sample.afterBurn.totalSupply.toNat = 6 * 10 ^ 7 ∧
    ∑ lp, (Sample.afterBurn.vaults lp).debtAmount.toNat = 6 * 10 ^ 7 := by
  have hs : Sample.afterBurn.totalSupply.toNat = 6 * 10 ^ 7 := by decide
  exact ⟨hs, supply_eq_debt Sample.burned_keepsManager (mem_visibleTxs _) ▸ hs⟩

end Run

end Ethereum.VaultManager
