import AtomicSwap.Ethereum.VaultManager.Theorems.Collateral
import AtomicSwap.Ethereum.VaultManager.Theorems.Footprints

open Reentrant Function Code

namespace Ethereum.VaultManager

variable {d : Deployment} {block : Block} {feeds : Address → Bytes32} {asset : Address} {msg : Msg}
  {lp : Address} {amount r : Uint256} {v v' : Vault} {s s' : State} {rs : List (Reply (Act Call))}

def Vault.ratio (block : Block) (feeds : Address → Bytes32) (v : Vault) :
    Except (Revert Error) Uint256 :=
  calculateCollateralRatio block feeds v.collateralAsset v.collateralAmount v.debtAmount

-- A call that puts collateral of a vault in escrow.
def Call.burnsFrom (lp : Address) : Call → Bool
  | .initiateBurn _ _ lpVault _ => lpVault = lp
  | _                           => false

-- None of the calls that the receivers of payouts make.
def Spared (lp : Address) (rs : List (Reply (Act Call))) : Prop :=
  ∀ r ∈ rs, ∀ a ∈ r.acts, a.All fun c => ¬c.burnsFrom lp

section Nested

-- A guarded function waits for the receiver of a payout, and the vault is `v`.
structure Busy (lp : Address) (v : Vault) (s : State) : Prop where
  entered : s.entered
  vault   : s.vaults lp = v

theorem createVault_busy {msg : Msg} (hv : v.active) :
    Maintains (Busy lp v) (createVault msg asset) := by
  intro s hs
  simp only [createVault, setVault, emit, holds_bind, holds_get, holds_revertIf, holds_modify]
  intro hn _
  refine ⟨hs.entered, ?_⟩
  have hne : lp ≠ msg.sender := by
    rintro rfl
    exact hn (hs.vault ▸ hv)
  simpa [hne] using hs.vault

theorem initiateBurn_busy {lpVault : Address} {commitment : Bytes32} (hn : lpVault ≠ lp) :
    Maintains (Busy lp v) (initiateBurn d block msg amount lpVault commitment) := by
  intro s hs
  simp only [initiateBurn, reduceVault, setVault, burn, setBurnRequest, emit, holds_bind, holds_get,
    holds_revertIf, holds_modify, holds_lift, holds_pure]
  intros
  exact ⟨hs.entered, by simpa [hn.symm] using hs.vault⟩

-- Other calls have nothing to do with the vault, unless they are guarded.
theorem dispatch_busy {c : Call} (hv : v.active) (hc : ¬c.burnsFrom lp) (hg : ¬c.isGuarded) :
    Maintains (Busy lp v) (dispatch d block c) := by
  let g (s : State) := (s.entered, s.vaults lp)
  have maintains {α : Type} {m : M α} (h : Leaves g m) : Maintains (Busy lp v) m := by
    refine h.maintains fun s s' he hs => ?_
    simp only [g, Prod.mk.injEq] at he
    exact ⟨he.left ▸ hs.entered, he.right ▸ hs.vault⟩
  have hl (s : State) (l) : g s = g { s with logs := l } := rfl
  cases c
  case createVault  => exact createVault_busy hv
  case initiateMint =>
    exact maintains <| leaves_bind (initiateMint_leaves hl fun _ _ => rfl) fun _ => leaves_pure
  case setMintReady => exact maintains <| setMintReady_leaves hl fun _ _ => rfl
  case cancelMint   => exact maintains <| cancelMint_leaves hl fun _ _ => rfl
  case initiateBurn =>
    refine maintains_bind (initiateBurn_busy ?_) fun _ => maintains_pure
    simpa [Call.burnsFrom] using hc
  case manage       => exact maintains <| dispatch_manage_leaves fun _ _ _ => rfl
  case depositCollateral | withdrawCollateral | finalizeMint | finalizeBurn
    | claimSlashedCollateral | liquidate => simp [Call.isGuarded] at hg
  all_goals
    refine maintains <| (dispatch_other_leaves rfl).mono fun s s' h => ?_
    simp only [State.fixed, Prod.mk.injEq] at h
    simp [g, h]

theorem step_busy (hv : v.active) :
    Invariant (step d block) (Busy lp v) fun c => ¬c.burnsFrom lp := by
  intro c hc
  by_cases hg : c.isGuarded
  case pos =>
    intro s hs
    have hr : ∃ e, step d block c s = .revert e := step_reverts hg hs.entered
    obtain ⟨e, he⟩ := hr
    simp [holds, he, Tree.Holds]
  case neg =>
    simp only [step]
    split
    case h_1 => simp [Call.isGuarded] at hg
    case h_2 => exact maintains_bind maintains_revertIf fun _ => dispatch_busy hv hc hg

end Nested

-- A liquidation that succeeds and leaves a debt that is worth something, with what the receiver of
-- the payout does.
structure Liquidates (d : Deployment) (block : Block) (msg : Msg) (lp : Address) (amount : Uint256)
    (rs : List (Reply (Act Call))) (s s' : State) : Prop where
  run  : exec (step d block) ⟨.liquidate msg lp amount, rs⟩ s = .ok s'
  owed : ∃ u, getCollateralValueForDebt block (s'.vaults lp).debtAmount = .ok u ∧ u ≠ 0

-- What a liquidation makes of a vault.
structure Liquidated (block : Block) (feeds : Address → Bytes32) (v v' : Vault) : Prop where
  asset  : v'.collateralAsset = v.collateralAsset
  debt   : v.debtAmount ≠ 0
  seized : ∃ w e e' : Uint256,
    collateralFor block feeds v.collateralAsset w liquidationBonus = .ok e' ∧ e.toNat ≤ e'.toNat ∧
    e.toNat + v'.collateralAmount.toNat = v.collateralAmount.toNat ∧
    w.toNat + v'.debtAmount.toNat = v.debtAmount.toNat

-- What the receiver of a payout may do.
def Spares (lp : Address) (s s' : State) : Prop :=
  s.entered → (s.vaults lp).active → s'.vaults lp = s.vaults lp

theorem Spared.spares (h : Spared lp rs) :
    ∀ f, some f ∈ execReplies (step d block) rs → ∀ s, Spares lp s (f s) := by
  intro f hf s he hv
  exact ((step_busy hv).guarantees.execReplies rs h f hf s ⟨he, rfl⟩).vault

theorem sendCollateral_vault {dst : Address} {Q : Unit → State → Prop} (he : s.entered)
    (hv : (s.vaults lp).active) (h : ∀ s', s'.vaults lp = s.vaults lp → Q () s') :
    wp (Spares lp) (sendCollateral d asset dst amount) Q (fun _ => True) s := by
  simp only [sendCollateral, wp_ite, wp_bind, wp_get, wp_revertIf, wp_modify, wp_handOver,
    implies_true, true_and]
  refine ⟨fun _ _ s' hs => h s' (hs he hv), fun _ => ⟨fun _ _ => h _ rfl, fun _ s' hs => ?_⟩⟩
  exact h s' (hs he hv)

theorem liquidate_vault :
    wp (Spares lp) (step d block <| .liquidate msg lp amount)
      (fun _ s' => Liquidated block s.collateralPriceFeeds (s.vaults lp) (s'.vaults lp))
      (fun _ => True) s := by
  simp only [step, nonpayable, dispatch, liquidate, nonReentrant, setEntered, reduceVault, setVault,
    burn, emit, wp_bind, wp_get, wp_revertIf, wp_modify, wp_lift, implies_true, true_and, and_true,
    Uint256.sub_eq_ok]
  intro _ _ hv _ hd _ _ _ e he c hc debt hw _
  apply sendCollateral_vault rfl (by simpa using hv)
  intro s' hs
  simp only [wp_modify]
  rw [hs]
  refine ⟨by simp, hd, _, _, e, he, ?_, by simpa using hc, by simpa using hw⟩
  split <;> bv_omega

theorem Liquidates.liquidated (h : Liquidates d block msg lp amount rs s s') (hr : Spared lp rs) :
    Liquidated block s.collateralPriceFeeds (s.vaults lp) (s'.vaults lp) :=
  exec_wp_of_replies (fun _ _ _ => rfl) hr.spares liquidate_vault h.run

-- As long as the ratio is not below the bonus, what is seized is worth no more than the part of the
-- collateral that belongs to the cleared debt.
theorem Liquidated.ratio_le (h : Liquidated block feeds v v') (hr : v.ratio block feeds = .ok r)
    (hb : r = 0 ∨ liquidationBonus ≤ r)
    (hu : ∃ u, getCollateralValueForDebt block v'.debtAmount = .ok u ∧ u ≠ 0) :
    ∃ r', v'.ratio block feeds = .ok r' ∧ r ≤ r' := by
  obtain ⟨w, e, e', hf, he, hc, hw⟩ := h.seized
  rw [Vault.ratio, h.asset]
  exact ratio_le_of_cleared hr h.debt hb hf he hc hw hu

namespace Sample

-- A block in which XMR has a given price in dollars.
def blockAtPrice (dollars : ℕ) : Block :=
  { blockAt 2000 100 with
    price feed :=
      if feed = xmrUsdFeedID then some ⟨dollars * 10 ^ 8, -8⟩ else (blockAt 2000 100).price feed }

-- The ratios of the provider's vault before and after a liquidation, and the value of the debt that
-- is left.
def ratios (block : Block) (amount : Uint256) (rs : List (Reply (Act Call))) (s : State) :
    Option (Uint256 × Uint256 × Uint256) :=
  match exec (step deployment block) ⟨.liquidate ⟨user, 0⟩ provider amount, rs⟩ s with
  | .error _ => none
  | .ok s'   => do
    let r ← ((s.vaults provider).ratio block s.collateralPriceFeeds).toOption
    let r' ← ((s'.vaults provider).ratio block s.collateralPriceFeeds).toOption
    let u ← (getCollateralValueForDebt block (s'.vaults provider).debtAmount).toOption
    return (r, r', u)

theorem liquidates_of_ratios {r' u : Uint256} (h : ratios block amount rs s = some (r, r', u))
    (hu : u ≠ 0) :
    (s.vaults provider).ratio block s.collateralPriceFeeds = .ok r ∧
    ∃ s', Liquidates deployment block ⟨user, 0⟩ provider amount rs s s' ∧
      (s'.vaults provider).ratio block s.collateralPriceFeeds = .ok r' := by
  simp only [ratios] at h
  split at h
  case h_1 => simp at h
  case h_2 s' hs =>
    simp only [Option.pure_def, Option.bind_eq_bind, Option.bind_eq_some_iff,
      Except.toOption_eq_some_iff, Option.some.injEq, Prod.mk.injEq] at h
    obtain ⟨_, hr, _, hr', _, hv, rfl, rfl, rfl⟩ := h
    exact ⟨hr, s', ⟨hs, _, hv, hu⟩, hr'⟩

-- The provider owes two coins and has collateral for `percent` of their value of 200 dollars.
def indebted (percent : ℕ) : State :=
  { initial with
    vaults       := update initial.vaults provider
      { lpAddress := provider, collateralAsset := native, debtAmount := 2 * 10 ^ 8, active := true
        collateralAmount := percent * (2 * 10 ^ 18) }
    totalSupply  := 2 * 10 ^ 8
    balances     := (funds.put native deployment.this (percent * (2 * 10 ^ 18))).put
      deployment.wsxmrToken user (2 * 10 ^ 8) }

-- One of the coins is cleared for up to 110 dollars.
theorem ratios_indebted (percent : Fin 110) :
    ratios (blockAtPrice 100) (10 ^ 8) [] (indebted percent) =
      some (.ofNat 256 percent, .ofNat 256 (2 * percent - 110), 100 * 10 ^ 18) := by
  revert percent
  decide

end Sample

-- If the receiver of the payout does not put more of the collateral in escrow, then a partial
-- liquidation never lowers the ratio of a vault, except when the ratio is below the bonus and there
-- still is collateral to lose.
theorem liquidates_ratio_le_iff {r : Uint256} :
    (∀ {d block msg lp amount rs} {s s' : State}, Spared lp rs →
      Liquidates d block msg lp amount rs s s' →
      (s.vaults lp).ratio block s.collateralPriceFeeds = .ok r →
      ∃ r', (s'.vaults lp).ratio block s.collateralPriceFeeds = .ok r' ∧ r ≤ r') ↔
    r = 0 ∨ liquidationBonus ≤ r := by
  constructor
  case mp =>
    intro h
    by_contra hn
    simp only [not_or, BitVec.not_le] at hn
    have hb : r.toNat < 110 := hn.right
    have hr := Sample.ratios_indebted ⟨r.toNat, hb⟩
    obtain ⟨hr, s', hl, hr'⟩ := Sample.liquidates_of_ratios hr (by decide)
    obtain ⟨r', hq, hle⟩ := h (by simp [Spared]) hl (by simpa using hr)
    have he := hr'.symm.trans hq
    simp only [Except.ok.injEq] at he
    bv_omega
  case mpr =>
    intro h d block msg lp amount rs s s' hs hl hr
    exact (hl.liquidated hs).ratio_le hr h hl.owed

namespace Sample

def minted : Option State :=
  runCalls deployment (fun _ _ _ => true) oneMint initial

theorem ratios_minted :
    minted.bind (ratios (blockAtPrice 280) (5 * 10 ^ 7) []) = some (107, 104, 140 * 10 ^ 18) := by
  decide

-- When the payout arrives, the user burns most of the coins that are left.
def burning : List (Reply (Act Call)) :=
  [.returns [⟨.initiateBurn ⟨user, 0⟩ 86800000 provider commitment, []⟩]]

theorem ratios_burning :
    minted.bind (ratios (blockAtPrice 260) (10 ^ 7) burning) = some (115, 7, 832 * 10 ^ 16) := by
  decide

end Sample

-- After a mint the price of XMR rises, and the vault loses more of its collateral than of its debt.
-- At a ratio above the bonus this happens if the payout is used for another call.
theorem liquidates_worsens :
    ∃ s, Sample.minted = some s ∧
      ((s.vaults Sample.provider).ratio (Sample.blockAtPrice 280) s.collateralPriceFeeds = .ok 107 ∧
        ∃ s', Liquidates Sample.deployment (Sample.blockAtPrice 280) ⟨Sample.user, 0⟩
            Sample.provider (5 * 10 ^ 7) [] s s' ∧
          (s'.vaults Sample.provider).ratio (Sample.blockAtPrice 280) s.collateralPriceFeeds =
            .ok 104) ∧
      ((s.vaults Sample.provider).ratio (Sample.blockAtPrice 260) s.collateralPriceFeeds = .ok 115 ∧
        ∃ s', Liquidates Sample.deployment (Sample.blockAtPrice 260) ⟨Sample.user, 0⟩
            Sample.provider (10 ^ 7) Sample.burning s s' ∧
          (s'.vaults Sample.provider).ratio (Sample.blockAtPrice 260) s.collateralPriceFeeds =
            .ok 7) := by
  obtain ⟨s, hs, hr⟩ := Option.bind_eq_some_iff.mp Sample.ratios_minted
  have hb := Sample.ratios_burning
  rw [hs, Option.bind_some] at hb
  exact ⟨s, hs, Sample.liquidates_of_ratios hr (by decide),
    Sample.liquidates_of_ratios hb (by decide)⟩

end Ethereum.VaultManager
