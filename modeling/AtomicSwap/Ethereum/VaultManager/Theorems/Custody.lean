import AtomicSwap.Ethereum.VaultManager.Theorems.Accounts

open Reentrant Function Code

namespace Ethereum.VaultManager

variable {d : Deployment} {block : Block} {credit credit' : Address → ℤ} {s s₀ : State} {msg : Msg}
  {lp asset : Address} {id : Bytes32} {v : Uint256}

section Oracle

variable {feeds : Address → Bytes32} {a b : Uint256}

theorem getPrice_computes : Computes (getPrice block id) := by
  simp only [getPrice]
  split
  case h_2 => simp [Computes, throw, throwThe, MonadExceptOf.throw]
  case h_1 =>
    split
    case isTrue => simp [Computes, throw, throwThe, MonadExceptOf.throw, bind, Except.bind]
    case isFalse =>
      split
      case isTrue =>
        exact Uint256.checked_computes.bind fun _ => Uint256.checked_computes.bind fun _ =>
          Uint256.checked_computes
      case isFalse =>
        split
        case isTrue => simp [Computes, throw, throwThe, MonadExceptOf.throw]
        case isFalse =>
          split
          case isTrue  => exact Uint256.checked_computes.bind fun _ => Uint256.div_computes
          case isFalse => exact Uint256.checked_computes.bind fun _ => Uint256.checked_computes

theorem getCollateralPrice_computes : Computes (getCollateralPrice block feeds asset) := by
  simp only [getCollateralPrice]
  split
  case isTrue  => simp [Computes, throw, throwThe, MonadExceptOf.throw, bind, Except.bind]
  case isFalse => exact getPrice_computes

theorem getDecimals_computes : Computes (getDecimals block asset) := by
  simp only [getDecimals]
  split
  case isTrue  => simp [Computes]
  case isFalse => split <;> simp [Computes]

theorem calculateCollateralRatio_computes :
    Computes (calculateCollateralRatio block feeds asset a b) := by
  simp only [calculateCollateralRatio]
  split
  case isTrue  => simp [Computes, pure, Except.pure]
  case isFalse =>
    exact getCollateralPrice_computes.bind fun _ => getPrice_computes.bind fun _ =>
      getDecimals_computes.bind fun _ => Uint256.checked_computes.bind fun _ =>
      Uint256.checked_computes.bind fun _ => Uint256.div_computes.bind fun _ =>
      Uint256.checked_computes.bind fun _ => Uint256.div_computes.bind fun _ =>
      Uint256.checked_computes.bind fun _ => Uint256.div_computes

theorem collateralFor_computes : Computes (collateralFor block feeds asset a b) := by
  refine .bind ?_ fun _ => .bind Uint256.checked_computes fun _ =>
    .bind Uint256.div_computes fun _ => ?_
  · exact getPrice_computes.bind fun _ => Uint256.checked_computes.bind fun _ =>
      Uint256.div_computes
  · exact getCollateralPrice_computes.bind fun _ => getDecimals_computes.bind fun _ =>
      Uint256.checked_computes.bind fun _ => Uint256.checked_computes.bind fun _ =>
      Uint256.div_computes

end Oracle

theorem Reverts.of_ne {e : Revert Error} (h : e ≠ .lacksFunds) : Reverts d s e :=
  fun _ _ _ => h

theorem Reverts.of_lift {α : Type} {x : Except (Revert Error) α} (h : Computes x) :
    ∀ e, x = .error e → Reverts d s e :=
  fun _ hx _ _ _ he => h <| he ▸ hx

theorem nonReentrant_spec {m : M Unit} (h : Evolves d credit s₀ s) (he : s.entered = s₀.entered)
    (hm : Evolves d credit s₀ { s with entered := true } →
      wp (Guarantee d) m (fun _ => Evolves d 0 s₀) (Reverts d s₀) { s with entered := true }) :
    wp (Guarantee d) (nonReentrant m) (fun _ => Transition d s₀) (Reverts d s₀) s := by
  simp only [nonReentrant, setEntered, wp_bind, wp_get, wp_revertIf, wp_modify]
  refine ⟨fun _ => .of_ne (by simp), fun hn => ?_⟩
  have hn : s₀.entered = false := by simpa [he] using hn
  refine (hm <| h.frame rfl rfl <| by simp).mono (fun _ s' h' => ?_) fun _ he => he
  exact ⟨h'.frame rfl rfl <| by simp, by simp [hn], by simp [hn]⟩

-- A transfer of `v` from the contract.
theorem Evolves.transfer {dst : Address} (h : Evolves d credit s₀ s)
    (hv : ¬s.balances asset d.this < v.toNat) :
    Evolves d (credit - Pi.single asset (v.toNat : ℤ)) s₀
      { s with balances := s.balances.move asset d.this dst v.toNat } := by
  refine h.frame rfl rfl ?_
  intro a _
  by_cases ha : a = asset
  case neg => simp [ha, Ledger.move_of_asset_ne ha]
  case pos =>
    subst ha
    have hm := Ledger.le_move_src dst (Nat.le_of_not_lt hv)
    simp only [Pi.sub_apply, Pi.single_eq_same]
    omega

theorem Evolves.env {s' : State} (h : Evolves d credit s₀ s) (hg : Guarantee d s s') :
    Evolves d credit s₀ s' :=
  h.trans (hg h.wf).evolves

-- While the receiver of a payment is in control, no pending burn request can be settled.
theorem sendCollateral_spec {dst : Address} (h : Evolves d credit s₀ s) (he : s.entered)
    (hv : d.Holds asset → (v.toNat : ℤ) ≤ s.owed asset + credit asset) :
    wp (Guarantee d) (sendCollateral d asset dst v)
      (fun _ s' => Evolves d (credit - Pi.single asset (v.toNat : ℤ)) s₀ s' ∧ Frozen s s' ∧
        Keeps s s')
      (Reverts d s₀) s := by
  have revert (ha : d.Holds asset) (hf : s.balances asset d.this < v.toNat) :
      Reverts d s₀ .lacksFunds := by
    intro _ _ hs
    have hc := h.covers ha
    have hs := hs ha
    have hv := hv ha
    omega
  simp only [sendCollateral, wp_ite, wp_bind, wp_get, wp_revertIf, wp_modify, wp_handOver]
  refine ⟨fun ha => ⟨revert (.inl ha) ∘ (ha ▸ ·), fun hf s' hg => ?native⟩, fun ha =>
    ⟨fun hs => ⟨revert (.inr hs), fun hf => ?standard⟩, fun hs s' hg => ?other⟩⟩
  case native =>
    subst ha
    have h : Evolves d (credit - Pi.single native (v.toNat : ℤ)) s₀
        { s with balances := s.balances.move native d.this dst v.toNat } := h.transfer hf
    have hg' := hg h.wf
    exact ⟨h.env hg, hg'.frozen he, hg'.evolves.keeps⟩
  case standard => exact ⟨h.transfer hf, fun _ _ => rfl, fun _ ha => ⟨ha, rfl⟩⟩
  case other =>
    have hg' := hg h.wf
    refine ⟨(h.env hg).frame rfl rfl ?_, hg'.frozen he, hg'.evolves.keeps⟩
    intro a hh
    have hn : a ≠ asset := by intro hn; subst hn; exact hs <| hh.resolve_left ha
    simp [hn]

theorem Transition.of_evolves (h : Evolves d 0 s₀ s) (he : s.entered = s₀.entered)
    (hf : Frozen s₀ s) : Transition d s₀ s :=
  ⟨h, he, fun _ => hf⟩

-- A change that the accounts do not depend on.
theorem Transition.of_frame (h : s₀.WF) (hv : s.vaults = s₀.vaults)
    (hb : s.burnRequests = s₀.burnRequests) (hl : s.balances = s₀.balances)
    (he : s.entered = s₀.entered) : Transition d s₀ s :=
  ⟨(Evolves.refl h).frame hv hb <| by simp [hl], he, fun _ _ _ => by rw [hb]⟩

theorem createVault_spec (h : s.WF) :
    wp (Guarantee d) (createVault msg asset) (fun _ => Transition d s) (Reverts d s) s := by
  simp only [createVault, setVault, emit, wp_bind, wp_get, wp_revertIf, wp_modify]
  refine ⟨fun _ => .of_ne (by simp), fun ha => ⟨fun _ => .of_ne (by simp), fun _ => ?_⟩⟩
  exact .of_evolves ((Evolves.newVault h ha rfl rfl).frame rfl rfl <| by simp) rfl fun _ _ => rfl

theorem payable_spec (h : s.WF) (hs : msg.sender ≠ d.this) :
    wp (Guarantee d) (payable d msg)
      (fun _ s' => Evolves d (Pi.single native (msg.value.toNat : ℤ)) s s' ∧ s'.entered = s.entered)
      (Reverts d s) s := by
  simp only [payable, wp_bind, wp_get, wp_revertIf, wp_modify]
  refine ⟨fun _ => .of_ne (by simp), fun _ => ⟨(Evolves.refl h).frame rfl rfl ?_, trivial⟩⟩
  intro a _
  by_cases ha : a = native
  case neg => simp [ha, Ledger.move_of_asset_ne ha]
  case pos => subst ha; simp [Ledger.move_to hs]; omega

theorem safeTransferFrom_spec {token src : Address} (h : Evolves d 0 s₀ s) (hs : src ≠ d.this)
    (ht : token ≠ native) :
    wp (Guarantee d) (safeTransferFrom d token src v)
      (fun _ s' => Evolves d (Pi.single token (v.toNat : ℤ)) s₀ s' ∧ Keeps s s')
      (Reverts d s₀) s := by
  simp only [safeTransferFrom, wp_bind, wp_get, wp_ite, wp_revertIf, wp_modify, wp_handOver]
  refine ⟨fun _ => ⟨fun _ => .of_ne (by simp), fun _ => ⟨h.frame rfl rfl ?standard, fun _ ha =>
    ⟨ha, rfl⟩⟩⟩, fun hd s' hg => ⟨(h.env hg).frame rfl rfl ?other, (hg h.wf).evolves.keeps⟩⟩
  case standard =>
    intro a _
    by_cases ha : a = token
    case neg => simp [ha, Ledger.move_of_asset_ne ha]
    case pos => subst ha; simp [Ledger.move_to hs]; omega
  case other =>
    intro a ha
    have hn : a ≠ token := by intro hn; subst hn; exact hd <| ha.resolve_left ht
    simp [hn]

theorem takeCollateral_spec (hs : msg.sender ≠ d.this)
    (h : Evolves d (Pi.single native (msg.value.toNat : ℤ)) s₀ s) :
    wp (Guarantee d) (takeCollateral d msg asset v)
      (fun _ s' => Evolves d (Pi.single asset (v.toNat : ℤ)) s₀ s' ∧ Keeps s s')
      (Reverts d s₀) s := by
  simp only [takeCollateral, wp_ite, wp_bind, wp_revertIf, Decidable.not_not]
  refine ⟨fun ha => ⟨fun _ => .of_ne (by simp), fun hv => ?_⟩, fun ha =>
    ⟨fun _ => .of_ne (by simp), fun hv => ?_⟩⟩
  · subst ha hv
    exact ⟨h, fun _ ha => ⟨ha, rfl⟩⟩
  · refine safeTransferFrom_spec ?_ hs ha
    simpa [hv] using h

theorem addCollateral_spec (h : Evolves d credit s₀ s) (ha : (s.vaults lp).active) :
    wp (Guarantee d) (addCollateral lp v)
      (fun _ => Evolves d (credit - Pi.single (s.vaults lp).collateralAsset (v.toNat : ℤ)) s₀)
      (Reverts d s₀) s := by
  simp only [addCollateral, setVault, wp_bind, wp_get, wp_lift, wp_modify, Uint256.add_eq_ok]
  refine ⟨fun n hn => ?_, .of_lift Uint256.checked_computes⟩
  refine h.setVault rfl rfl (fun hi => absurd ha hi) ?_
  intro a _
  simp only [Vault.deposit_eq_single, Pi.sub_apply, Pi.single_apply]
  split <;> omega

theorem depositCollateral_spec (hs : msg.sender ≠ d.this)
    (h : Evolves d (Pi.single native (msg.value.toNat : ℤ)) s₀ s) (he : s.entered = s₀.entered) :
    wp (Guarantee d) (depositCollateral d msg v) (fun _ => Transition d s₀) (Reverts d s₀) s := by
  refine nonReentrant_spec h he fun h => ?_
  simp only [emit, wp_bind, wp_get, wp_revertIf, Decidable.not_not]
  refine ⟨fun _ => .of_ne (by simp), fun ha => ⟨fun _ => .of_ne (by simp), fun _ => ?_⟩⟩
  refine (takeCollateral_spec hs h).mono (fun _ s₁ hq => ?_) fun _ he => he
  obtain ⟨h₁, hk⟩ := hq
  obtain ⟨ha, hc⟩ := hk _ ha
  rw [wp_bind]
  refine (addCollateral_spec h₁ ha).mono (fun _ s₂ h₂ => ?_) fun _ he => he
  exact h₂.frame rfl rfl <| by simp [hc]

-- A check that reads prices has no effect.
theorem requireRatio_spec {Q : Unit → State → Prop} {a b : Uint256} (h : Q () s) :
    wp (Guarantee d) (requireRatio block asset a b) Q (Reverts d s₀) s := by
  simp only [requireRatio, wp_bind, wp_get, wp_lift, wp_revertIf]
  exact ⟨fun _ _ => ⟨fun _ => .of_ne (by simp), fun _ => h⟩,
    .of_lift calculateCollateralRatio_computes⟩

theorem checkWithdrawal_spec {Q : Unit → State → Prop} {vault : Vault} (h : Q () s) :
    wp (Guarantee d) (checkWithdrawal block vault v) Q (Reverts d s₀) s := by
  simp only [checkWithdrawal, wp_ite, wp_pure]
  exact ⟨fun _ => requireRatio_spec h, fun _ => h⟩

theorem sendCredit_spec {dst : Address} (h : Evolves d (Pi.single asset (v.toNat : ℤ)) s₀ s)
    (he : s.entered) :
    wp (Guarantee d) (sendCollateral d asset dst v) (fun _ => Evolves d 0 s₀) (Reverts d s₀) s := by
  have hv : (v.toNat : ℤ) ≤ s.owed asset + (Pi.single asset (v.toNat : ℤ) : Address → ℤ) asset := by
    rw [Pi.single_eq_same]
    omega
  refine (sendCollateral_spec h he fun _ => hv).mono (fun _ s' ⟨h', _⟩ => ?_) fun _ he => he
  simpa only [sub_self] using h'

theorem withdrawCollateral_spec (h : s.WF) :
    wp (Guarantee d) (withdrawCollateral d block msg v) (fun _ => Transition d s) (Reverts d s)
      s := by
  refine nonReentrant_spec (.refl h) rfl fun h => ?_
  simp only [setVault, emit, wp_bind, wp_get, wp_revertIf, wp_lift, Decidable.not_not,
    Uint256.sub_eq_ok]
  refine ⟨fun _ => .of_ne (by simp), fun ha => ⟨fun _ => .of_ne (by simp), fun _ =>
    ⟨fun _ => .of_ne (by simp), fun _ => ⟨fun n hn => checkWithdrawal_spec ?_,
    .of_lift Uint256.sub_computes⟩⟩⟩⟩
  have h' : Evolves d (Pi.single (s.vaults msg.sender).collateralAsset (v.toNat : ℤ)) s
      { s with
        entered := true
        vaults  := update s.vaults msg.sender
          { s.vaults msg.sender with collateralAmount := n } } := by
    refine h.setVault rfl rfl (fun hi => absurd ha hi) ?_
    intro a _
    simp only [Vault.deposit_eq_single, Pi.zero_apply, Pi.single_apply]
    split <;> omega
  simp only [wp_bind, wp_modify]
  refine (sendCredit_spec h' rfl).mono (fun _ s' h' => ?_) fun _ he => he
  exact h'.frame rfl rfl <| by simp

theorem reduceVault_spec {debt : Uint256} (h : Evolves d 0 s₀ s) (ha : (s.vaults lp).active) :
    wp (Guarantee d) (reduceVault lp v debt)
      (fun _ s' => Evolves d (Pi.single (s.vaults lp).collateralAsset (v.toNat : ℤ)) s₀ s' ∧
        s'.entered = s.entered ∧ s'.burnRequests = s.burnRequests ∧ Keeps s s')
      (Reverts d s₀) s := by
  simp only [reduceVault, setVault, wp_bind, wp_get, wp_lift, wp_modify, Uint256.sub_eq_ok]
  refine ⟨fun n hn => ⟨fun m hm => ⟨?evolves, trivial, trivial, ?keeps⟩,
    .of_lift Uint256.sub_computes⟩, .of_lift Uint256.sub_computes⟩
  case evolves =>
    refine h.setVault rfl rfl (fun hi => absurd ha hi) ?_
    intro a _
    simp only [Vault.deposit_eq_single, Pi.zero_apply, Pi.single_apply]
    split <;> omega
  case keeps =>
    intro lp' ha'
    by_cases hl : lp' = lp
    case pos => subst hl; simp [ha']
    case neg => simp [hl, ha']

theorem burn_spec {src : Address} (h : Evolves d credit s₀ s) (hs : src ≠ d.this) :
    wp (Guarantee d) (burn d src v)
      (fun _ s' => Evolves d credit s₀ s' ∧ s'.entered = s.entered ∧
        s'.burnRequests = s.burnRequests ∧ s'.vaults = s.vaults)
      (Reverts d s₀) s := by
  simp only [burn, wp_bind, wp_get, wp_revertIf, wp_modify]
  refine ⟨fun _ => .of_ne (by simp), fun _ => ⟨h.frame rfl rfl ?_, trivial, trivial, trivial⟩⟩
  intro a _
  simp [Ledger.put_of_holder_ne (Ne.symm hs)]

theorem liquidate_spec (h : s.WF) (hs : msg.sender ≠ d.this) :
    wp (Guarantee d) (liquidate d block msg lp v) (fun _ => Transition d s) (Reverts d s) s := by
  refine nonReentrant_spec (.refl h) rfl fun h => ?_
  simp only [emit, wp_bind, wp_get, wp_revertIf, wp_lift, Decidable.not_not]
  refine ⟨fun _ => .of_ne (by simp), fun ha => ⟨fun _ => .of_ne (by simp), fun _ =>
    ⟨fun _ => .of_ne (by simp), fun _ => ⟨fun _ _ => ⟨fun _ => .of_ne (by simp), fun _ =>
    ⟨fun c _ => ?_, .of_lift collateralFor_computes⟩⟩,
    .of_lift calculateCollateralRatio_computes⟩⟩⟩⟩
  refine (reduceVault_spec h ha).mono (fun _ s₁ hq => ?_) fun _ he => he
  obtain ⟨h₁, he₁, _⟩ := hq
  rw [wp_bind]
  refine (burn_spec h₁ hs).mono (fun _ s₂ hq => ?_) fun _ he => he
  obtain ⟨h₂, he₂, _⟩ := hq
  rw [wp_bind]
  refine (sendCredit_spec h₂ (by simp [he₂, he₁])).mono (fun _ s₃ h₃ => ?_) fun _ he => he
  exact h₃.frame rfl rfl <| by simp

theorem BurnRequest.escrow_eq_single {r : BurnRequest} {vaults : Address → Vault} {a : Address}
    (h : r.status = .pending) :
    (r.escrow vaults a : ℤ) =
    (Pi.single (vaults r.lpVault).collateralAsset (r.escrowedCollateral.toNat : ℤ) : _ → ℤ) a := by
  by_cases ha : (vaults r.lpVault).collateralAsset = a
  case pos => subst ha; simp [escrow, h]
  case neg => simp [escrow, ha, Ne.symm ha]

theorem State.escrow_le_owed {a : Address} : (s.burnRequests id).escrow s.vaults a ≤ s.owed a :=
  (le_sum (fun i => (s.burnRequests i).escrow s.vaults a) id).trans <| Nat.le_add_left ..

theorem BurnRequest.escrow_of_ne_pending {r : BurnRequest} {vaults : Address → Vault} {a : Address}
    (h : r.status ≠ .pending) : r.escrow vaults a = 0 := by
  simp [escrow, h]

theorem initiateBurn_spec {commitment : Bytes32} (h : s.WF) (hs : msg.sender ≠ d.this) :
    wp (Guarantee d) (initiateBurn d block msg v lp commitment) (fun _ => Transition d s)
      (Reverts d s) s := by
  simp only [initiateBurn, setBurnRequest, emit, wp_bind, wp_get, wp_revertIf, wp_lift,
    Decidable.not_not]
  refine ⟨fun _ => .of_ne (by simp), fun _ => ⟨fun _ => .of_ne (by simp), fun _ =>
    ⟨fun _ => .of_ne (by simp), fun _ => ⟨fun _ => .of_ne (by simp), fun ha =>
    ⟨fun _ => .of_ne (by simp), fun _ => ⟨fun x _ => ⟨fun c _ =>
    ⟨fun _ => .of_ne (by simp), fun _ => ⟨fun _ => .of_ne (by simp), fun hi => ?_⟩⟩,
    .of_lift collateralFor_computes⟩, .of_lift Uint256.checked_computes⟩⟩⟩⟩⟩⟩
  refine (reduceVault_spec (.refl h) ha).mono (fun _ s₁ hq => ?_) fun _ he => he
  obtain ⟨h₁, he₁, hb₁, hk⟩ := hq
  rw [wp_bind]
  refine (burn_spec h₁ hs).mono (fun _ s₂ h => ?_) fun _ he => he
  have h₂ := h.left
  have he₂ := h.right.left
  have hb₂ := h.right.right.left
  have hv₂ := h.right.right.right
  simp only [wp_bind, wp_lift, wp_modify, wp_pure]
  refine ⟨fun t _ => ?_, .of_lift Uint256.checked_computes⟩
  have hc := (hk lp ha).right
  have ha := (hk lp ha).left
  rw [← hv₂] at ha hc
  have hn :
      (s₂.burnRequests <| requestID d block msg.sender lp v commitment).status ≠ .pending := by
    simp [hb₂, hb₁, hi]
  have h₃ : Evolves d 0 s
      { s₂ with
        burnRequests := update s₂.burnRequests (requestID d block msg.sender lp v commitment)
          { requestId := requestID d block msg.sender lp v commitment, user := msg.sender,
            lpVault := lp, wsxmrAmount := v, xmrAmount := x, escrowedCollateral := c,
            refundCommitment := commitment, deadline := t, status := .pending } } := by
    refine h₂.setBurn (fun _ => ha) ?_
    intro a _
    rw [BurnRequest.escrow_of_ne_pending hn, BurnRequest.escrow_eq_single rfl, hc]
    simp
  refine .of_evolves (h₃.frame rfl rfl <| by simp) (by simp [he₂, he₁]) ?_
  intro i hp
  have hn : i ≠ requestID d block msg.sender lp v commitment := by
    intro hn
    simp [hn, hi] at hp
  simp [hn, hb₂, hb₁]

theorem finalizeBurn_spec {secret : Bytes32} (h : s.WF) :
    wp (Guarantee d) (finalizeBurn d block id secret) (fun _ => Transition d s) (Reverts d s)
      s := by
  refine nonReentrant_spec (.refl h) rfl fun h' => ?_
  simp only [verifySecret, addCollateral, setVault, setBurnRequest, emit, wp_bind, wp_get,
    wp_revertIf, wp_lift, wp_modify, Decidable.not_not, Uint256.add_eq_ok]
  refine ⟨fun _ => .of_ne (by simp), fun hp => ⟨fun _ => .of_ne (by simp), fun _ =>
    ⟨fun _ => .of_ne (by simp), fun _ => ⟨fun n hn => ?_, .of_lift Uint256.checked_computes⟩⟩⟩⟩
  have ha := h.backed hp
  have h₁ : Evolves d
      (-Pi.single (s.vaults (s.burnRequests id).lpVault).collateralAsset
        ((s.burnRequests id).escrowedCollateral.toNat : ℤ)) s
      { s with
        entered := true
        vaults  := update s.vaults (s.burnRequests id).lpVault
          { s.vaults (s.burnRequests id).lpVault with collateralAmount := n } } := by
    refine h'.setVault rfl rfl (fun hi => absurd ha hi) ?_
    intro a _
    simp only [Vault.deposit_eq_single, Pi.zero_apply, Pi.neg_apply, Pi.single_apply]
    split <;> omega
  have h₂ : Evolves d 0 s
      { s with
        entered      := true
        vaults       := update s.vaults (s.burnRequests id).lpVault
          { s.vaults (s.burnRequests id).lpVault with collateralAmount := n }
        burnRequests :=
          update s.burnRequests id { s.burnRequests id with status := .completed } } := by
    refine h₁.setBurn (by simp) ?_
    intro a _
    rw [BurnRequest.escrow_eq_single hp, BurnRequest.escrow_of_ne_pending (by simp)]
    simp
  exact h₂.frame rfl rfl <| by simp

theorem claimSlashedCollateral_spec (h : s.WF) :
    wp (Guarantee d) (claimSlashedCollateral d block msg id) (fun _ => Transition d s) (Reverts d s)
      s := by
  refine nonReentrant_spec (.refl h) rfl fun h' => ?_
  simp only [setBurnRequest, emit, wp_bind, wp_get, wp_revertIf, Decidable.not_not]
  refine ⟨fun _ => .of_ne (by simp), fun hp => ⟨fun _ => .of_ne (by simp), fun _ =>
    ⟨fun _ => .of_ne (by simp), fun _ => ?_⟩⟩⟩
  have ha := h.backed hp
  refine (sendCollateral_spec h' rfl ?funds).mono (fun _ s₁ hq => ?_) fun _ he => he
  case funds =>
    intro _
    have he : ((s.burnRequests id).escrow s.vaults
        (s.vaults (s.burnRequests id).lpVault).collateralAsset : ℤ) ≤
        State.owed { s with entered := true } _ :=
      Int.ofNat_le.mpr <| State.escrow_le_owed (s := { s with entered := true })
    simpa only [BurnRequest.escrow_eq_single hp, Pi.single_eq_same, Pi.zero_apply, add_zero]
      using he
  obtain ⟨h₁, hf, hk⟩ := hq
  have hb := hf id hp
  obtain ⟨_, hc⟩ := hk _ ha
  simp only [wp_bind, wp_get, wp_modify]
  have h₂ : Evolves d 0 s
      { s₁ with
        burnRequests :=
          update s₁.burnRequests id { s₁.burnRequests id with status := .slashed } } := by
    refine h₁.setBurn (by simp) ?_
    intro a _
    rw [hb, BurnRequest.escrow_of_ne_pending (by simp), BurnRequest.escrow_eq_single hp, hc]
    simp
  exact h₂.frame rfl rfl <| by simp

theorem initiateMint_spec {commitment : Bytes32} {duration : Uint256} (h : s.WF) :
    wp (Guarantee d) (initiateMint d block msg lp v commitment duration) (fun _ => Transition d s)
      (Reverts d s) s := by
  simp only [initiateMint, setMintRequest, emit, wp_bind, wp_get, wp_revertIf, wp_lift]
  refine ⟨fun _ => .of_ne (by simp), fun _ => ⟨fun _ => .of_ne (by simp), fun _ =>
    ⟨fun _ => .of_ne (by simp), fun _ => ⟨fun _ => .of_ne (by simp), fun _ =>
    ⟨fun _ _ => ⟨fun _ _ => requireRatio_spec ?_, .of_lift Uint256.checked_computes⟩,
    .of_lift Uint256.div_computes⟩⟩⟩⟩⟩
  simp only [wp_bind, wp_revertIf, wp_lift, wp_modify, wp_pure]
  exact ⟨fun _ => .of_ne (by simp), fun _ => ⟨fun _ _ => .of_frame h rfl rfl rfl rfl,
    .of_lift Uint256.checked_computes⟩⟩

theorem setMintReady_spec (h : s.WF) :
    wp (Guarantee d) (setMintReady msg id) (fun _ => Transition d s) (Reverts d s) s := by
  simp only [setMintReady, setMintRequest, emit, wp_bind, wp_get, wp_revertIf, wp_modify]
  exact ⟨fun _ => .of_ne (by simp), fun _ => ⟨fun _ => .of_ne (by simp), fun _ =>
    .of_frame h rfl rfl rfl rfl⟩⟩

theorem cancelMint_spec (h : s.WF) :
    wp (Guarantee d) (cancelMint block msg id) (fun _ => Transition d s) (Reverts d s) s := by
  simp only [cancelMint, setMintRequest, emit, wp_bind, wp_get, wp_revertIf, wp_lift, wp_modify]
  refine ⟨fun _ => .of_ne (by simp), fun _ => ⟨fun _ => .of_ne (by simp), fun _ =>
    ⟨fun _ _ => ⟨fun _ => .of_ne (by simp), fun _ => .of_frame h rfl rfl rfl rfl⟩, .of_lift ?_⟩⟩⟩
  split
  case isTrue  => exact Uint256.checked_computes
  case isFalse => simp [Computes]

theorem finalizeMint_spec {secret : Bytes32} (h : s.WF) :
    wp (Guarantee d) (finalizeMint d id secret) (fun _ => Transition d s) (Reverts d s) s := by
  refine nonReentrant_spec (.refl h) rfl fun h' => ?_
  simp only [verifySecret, setVault, mint, setMintRequest, emit, wp_bind, wp_get, wp_revertIf,
    wp_lift, wp_modify]
  refine ⟨fun _ => .of_ne (by simp), fun _ => ⟨fun _ => .of_ne (by simp), fun _ =>
    ⟨fun n _ => ⟨fun _ => .of_ne (by simp), fun _ => ⟨fun _ _ => ?_,
    .of_lift Uint256.checked_computes⟩⟩, .of_lift Uint256.checked_computes⟩⟩⟩
  have h₁ : Evolves d 0 s
      { s with
        entered := true
        vaults  := update s.vaults (s.mintRequests id).lpVault
          { s.vaults (s.mintRequests id).lpVault with debtAmount := n } } :=
    h'.setVault rfl rfl h.idle fun _ => le_rfl
  refine h₁.frame rfl rfl ?_
  intro a _
  refine Int.add_le_add_left (Int.ofNat_le.mpr <| Ledger.le_put fun ha hu => ?_) _
  simp [ha, hu]

theorem outside_spec {a holder : Address} {balance : ℕ} (h : s.WF) :
    wp (Guarantee d) (dispatch d block <| .outside a holder balance) (fun _ => Transition d s)
      (Reverts d s) s := by
  simp only [dispatch, wp_bind, wp_get, wp_revertIf, wp_modify]
  refine ⟨fun _ => .of_ne (by simp), fun hb => ?_⟩
  refine .of_evolves ((Evolves.refl h).frame rfl rfl ?_) rfl fun _ _ => rfl
  intro a' ha'
  refine Int.add_le_add_left (Int.ofNat_le.mpr <| Ledger.le_put fun he ht => ?_) _
  subst he ht
  exact not_lt.mp fun hl => hb ⟨rfl, ha', hl⟩

theorem dispatch_spec {c : Call} (h : s.WF) (hs : c.msg.sender ≠ d.this)
    (hn : ∀ msg amount, c ≠ .depositCollateral msg amount) :
    wp (Guarantee d) (dispatch d block c) (fun _ => Transition d s) (Reverts d s) s := by
  cases c
  case createVault            => exact createVault_spec h
  case depositCollateral      => exact absurd rfl <| hn _ _
  case withdrawCollateral     => exact withdrawCollateral_spec h
  case initiateMint           => rw [dispatch, wp_bind]; exact initiateMint_spec h
  case setMintReady           => exact setMintReady_spec h
  case finalizeMint           => exact finalizeMint_spec h
  case cancelMint             => exact cancelMint_spec h
  case initiateBurn           => rw [dispatch, wp_bind]; exact initiateBurn_spec h hs
  case finalizeBurn           => exact finalizeBurn_spec h
  case claimSlashedCollateral => exact claimSlashedCollateral_spec h
  case liquidate              => exact liquidate_spec h hs
  case outside                => exact outside_spec h
  all_goals
    simp only [dispatch, addCollateralSupport, removeCollateralSupport, transferOwnership,
      renounceOwnership, onlyOwner, emit, wp_bind, wp_get, wp_revertIf, wp_modify]
    simp [Reverts.of_ne, Transition.of_frame h]

theorem step_spec {c : Call} (h : s.WF) (hs : c.msg.sender ≠ d.this) :
    wp (Guarantee d) (step d block c) (fun _ => Transition d s) (Reverts d s) s := by
  by_cases hd : ∃ msg amount, c = .depositCollateral msg amount
  case pos =>
    obtain ⟨msg, amount, hd⟩ := hd
    subst hd
    simp only [step, wp_bind]
    refine (payable_spec h hs).mono (fun _ s₁ hq => ?_) fun _ he => he
    obtain ⟨h₁, he⟩ := hq
    exact depositCollateral_spec hs h₁ he
  case neg =>
    have hn : ∀ msg amount, c ≠ .depositCollateral msg amount := fun _ _ hc => hd ⟨_, _, hc⟩
    have hp : step d block c = nonpayable c.msg >>= fun _ => dispatch d block c := by
      cases c
      case depositCollateral => exact absurd rfl <| hn _ _
      all_goals rfl
    rw [hp, nonpayable, wp_bind, wp_revertIf]
    exact ⟨fun _ => .of_ne (by simp), fun _ => dispatch_spec h hs hn⟩

variable (d) in
theorem step_guarantees (block : Block) :
    Guarantees (step d block) (Guarantee d) (Reverts d) (·.msg.sender ≠ d.this) where
  refl  := .refl
  trans := .trans
  call c hc s := by
    by_cases h : s.WF
    case pos => exact (step_spec h hc).mono (fun _ _ ht _ => ht) fun _ he => he
    case neg => exact wp_of_forall (fun _ _ hw => absurd hw h) fun _ _ hw => absurd hw h

section Run

variable {owner tokenManager : Address} {totalSupply : Uint256} {balances : Ledger Address Address}
  {txs : List (Block × Act Call)}

theorem constructed_wf : (State.constructed d owner tokenManager totalSupply balances).WF := by
  constructor <;> simp [State.constructed]

theorem constructed_owed {a : Address} :
    (State.constructed d owner tokenManager totalSupply balances).owed a = 0 := by
  simp [State.owed, State.constructed, Vault.deposit, BurnRequest.escrow]

-- The contract owns all collateral that it owes, and a call never reverts because it does not.
theorem solvency (h : ∀ tx ∈ txs, tx.snd.All (·.msg.sender ≠ d.this))
    (hs : s = runTxs (step d) txs (.constructed d owner tokenManager totalSupply balances)) :
    (∀ a, a = native ∨ d.standard a →
      ∑ lp, (s.vaults lp).deposit a + ∑ id, (s.burnRequests id).escrow s.vaults a ≤
      s.balances a d.this) ∧
    (∀ block act, act.All (·.msg.sender ≠ d.this) →
      exec (step d block) act s ≠ .error .lacksFunds) := by
  have ht : Transition d (.constructed d owner tokenManager totalSupply balances) s :=
    hs ▸ runTxs_guarantees .refl (step_guarantees d) _ txs h constructed_wf
  have hs : s.Solvent d := by
    intro a ha
    have hc := ht.evolves.covers ha
    rw [constructed_owed] at hc
    simp only [Pi.zero_apply] at hc
    omega
  refine ⟨fun _ => hs, fun block act ha he => ?_⟩
  have hr := (step_guarantees d block).exec_error ha (by simp [Reverts]) he
  exact hr ht.entered ht.evolves.wf hs rfl

-- A vault that holds 300 MON. The price of XMR is 150 and that of MON is 1.
namespace Sample

def provider : Address := 0x1F
def user : Address := 0xA1

def commitment : Bytes32 := 0xc0a6c424ac7157ae408398df7e5f4552091a69125d5dfcb7b8c2659029395bdf

def firstID : Bytes32 := 0x6a6b806ed7664c718e5f9453d5fc2a4d149b9a26b42668aa0d3223bdbc599bf6
def secondID : Bytes32 := 0xfbcbc35cb18d8df74dfc5b4503d1437421b115b853d1c54d7f420856000ec52c

def blockAt (timestamp number : Uint256) : Block where
  timestamp  := timestamp
  number     := number
  price feed :=
    if feed = xmrUsdFeedID then some ⟨150 * 10 ^ 8, -8⟩
    else if feed = monUsdFeedID then some ⟨10 ^ 8, -8⟩
    else none
  decimals _ := none

def deployment : Deployment where
  host :=
    { keccak256 bs := if bs.getLast? = some 1 then firstID else secondID
      ecrecover _ _ _ t :=
        if t = Secp256k1.gx then 0x7e5f4552091a69125d5dfcb7b8c2659029395bdf else 0 }
  this       := 0x7A
  wsxmrToken := 0x70
  pyth       := 0x71
  standard _ := false

def funds : Ledger Address Address :=
  fun _ holder => if holder = provider then 10 ^ 21 else 0

def initial : State :=
  .constructed deployment 0x72 deployment.this 0 funds

-- The provider withdraws 100 MON and tries to do so once more when it receives them.
def withdrawn : List (Block × Act Call) :=
  [(blockAt 1000 1, ⟨.createVault ⟨provider, 0⟩ native, []⟩),
   (blockAt 1000 1, ⟨.depositCollateral ⟨provider, 300 * 10 ^ 18⟩ (300 * 10 ^ 18), []⟩),
   (blockAt 1012 2, ⟨.withdrawCollateral ⟨provider, 0⟩ (100 * 10 ^ 18),
     [.returns [⟨.withdrawCollateral ⟨provider, 0⟩ (100 * 10 ^ 18), []⟩]]⟩)]

def afterWithdrawal : State :=
  runTxs (step deployment) withdrawn initial

theorem withdrawn_senders : ∀ tx ∈ withdrawn, tx.snd.All (·.msg.sender ≠ deployment.this) := by
  simp only [withdrawn, List.mem_cons, List.not_mem_nil, or_false, forall_eq_or_imp, forall_eq]
  refine ⟨.mk (by decide) (by simp), .mk (by decide) (by simp), .mk (by decide) ?_⟩
  simp only [List.mem_singleton, forall_eq, Reply.acts]
  exact .mk (by decide) (by simp)

end Sample

theorem solvency_withdrawn :
    (Sample.afterWithdrawal.vaults Sample.provider).collateralAmount = 200 * 10 ^ 18 ∧
    ∑ lp, (Sample.afterWithdrawal.vaults lp).deposit native +
      ∑ id, (Sample.afterWithdrawal.burnRequests id).escrow Sample.afterWithdrawal.vaults native ≤
    Sample.afterWithdrawal.balances native Sample.deployment.this := by
  refine ⟨by decide, ?_⟩
  obtain ⟨h, _⟩ := solvency (s := Sample.afterWithdrawal) Sample.withdrawn_senders rfl
  exact h native (.inl rfl)

end Run

end Ethereum.VaultManager
