import AtomicSwap.Ethereum.VaultManager.Basic
import Mathlib.Algebra.Group.Pi.Basic
import Mathlib.Tactic.NormNum

open Reentrant Function

namespace Ethereum.VaultManager

def Deployment.Holds (d : Deployment) (a : Address) : Prop :=
  a = native ∨ d.standard a

def Vault.deposit (v : Vault) (a : Address) : ℕ :=
  if v.collateralAsset = a then v.collateralAmount.toNat else 0

def BurnRequest.escrow (r : BurnRequest) (vaults : Address → Vault) (a : Address) : ℕ :=
  if r.status = .pending ∧ (vaults r.lpVault).collateralAsset = a then r.escrowedCollateral.toNat
  else 0

-- All collateral in the asset `a` that belongs to the vaults or is in escrow.
def State.owed (s : State) (a : Address) : ℕ :=
  ∑ lp, (s.vaults lp).deposit a + ∑ id, (s.burnRequests id).escrow s.vaults a

structure State.WF (s : State) : Prop where
  idle   : ∀ {lp}, ¬(s.vaults lp).active → (s.vaults lp).collateralAmount = 0
  backed : ∀ {id}, (s.burnRequests id).status = .pending →
    (s.vaults (s.burnRequests id).lpVault).active

-- A vault stays a vault and never changes its asset.
def Keeps (s₀ s : State) : Prop :=
  ∀ lp, (s₀.vaults lp).active →
    (s.vaults lp).active ∧ (s.vaults lp).collateralAsset = (s₀.vaults lp).collateralAsset

variable (d : Deployment)

-- How code changes the state from `s₀` to `s`. In `credit` are the amounts that the contract has
-- received on top of what it owes. They are negative if it has paid out something it still owes.
structure Evolves (credit : Address → ℤ) (s₀ s : State) : Prop where
  wf     : s.WF
  keeps  : Keeps s₀ s
  covers : ∀ {a}, d.Holds a →
    (s.owed a + s₀.balances a d.this + credit a : ℤ) ≤ s₀.owed a + s.balances a d.this

def Frozen (s₀ s : State) : Prop :=
  ∀ id, (s₀.burnRequests id).status = .pending → s.burnRequests id = s₀.burnRequests id

-- What a whole call does. During a call that is guarded against re-entrancy the others leave the
-- pending burn requests alone.
structure Transition (s₀ s : State) : Prop where
  evolves : Evolves d 0 s₀ s
  entered : s.entered = s₀.entered
  frozen  : s₀.entered → Frozen s₀ s

def Guarantee (s₀ s : State) : Prop :=
  s₀.WF → Transition d s₀ s

def State.Solvent (s : State) : Prop :=
  ∀ {a}, d.Holds a → s.owed a ≤ s.balances a d.this

-- A call never reverts because the contract cannot pay what it owes.
def Reverts (s : State) (e : Revert Error) : Prop :=
  s.entered = false → s.WF → s.Solvent d → e ≠ .lacksFunds

variable {d} {credit credit' : Address → ℤ} {s s₀ s₁ s₂ : State} {lp : Address} {id : Bytes32}
  {a : Address} {v : Vault} {r : BurnRequest}

theorem Frozen.trans (h₁ : Frozen s₀ s₁) (h₂ : Frozen s₁ s₂) : Frozen s₀ s₂ := by
  intro id hp
  have h₁ := h₁ id hp
  exact (h₂ id <| h₁ ▸ hp).trans h₁

theorem Keeps.trans (h₁ : Keeps s₀ s₁) (h₂ : Keeps s₁ s₂) : Keeps s₀ s₂ := by
  intro lp ha
  have ⟨ha₁, he₁⟩ := h₁ lp ha
  have ⟨ha₂, he₂⟩ := h₂ lp ha₁
  exact ⟨ha₂, he₂.trans he₁⟩

theorem Evolves.refl (h : s.WF) : Evolves d 0 s s where
  wf         := h
  keeps _ ha := ⟨ha, rfl⟩
  covers _   := by simp only [Pi.zero_apply, add_zero, le_refl]

theorem Evolves.trans (h₁ : Evolves d credit s₀ s₁) (h₂ : Evolves d 0 s₁ s₂) :
    Evolves d credit s₀ s₂ where
  wf        := h₂.wf
  keeps     := h₁.keeps.trans h₂.keeps
  covers ha := by
    have h₁ := h₁.covers ha
    have h₂ := h₂.covers ha
    simp only [Pi.zero_apply] at h₂
    omega

theorem Guarantee.refl (s : State) : Guarantee d s s :=
  fun h => ⟨.refl h, rfl, fun _ _ _ => rfl⟩

theorem Guarantee.trans (h₁ : Guarantee d s₀ s₁) (h₂ : Guarantee d s₁ s₂) : Guarantee d s₀ s₂ := by
  intro h
  have h₁ := h₁ h
  have h₂ := h₂ h₁.evolves.wf
  refine ⟨h₁.evolves.trans h₂.evolves, h₂.entered.trans h₁.entered, fun he => ?_⟩
  exact (h₁.frozen he).trans <| h₂.frozen <| h₁.entered ▸ he

theorem State.owed_congr (hv : s.vaults = s₀.vaults) (hb : s.burnRequests = s₀.burnRequests) :
    s.owed a = s₀.owed a := by
  simp only [owed, hv, hb]

-- A change of anything but the vaults and the burn requests.
theorem Evolves.frame (h : Evolves d credit s₀ s) (hv : s₁.vaults = s.vaults)
    (hb : s₁.burnRequests = s.burnRequests)
    (hc : ∀ {a}, d.Holds a →
      credit' a + s.balances a d.this ≤ credit a + s₁.balances a d.this) :
    Evolves d credit' s₀ s₁ where
  wf        := ⟨by rw [hv]; exact h.wf.idle, by rw [hv, hb]; exact h.wf.backed⟩
  keeps     := by rw [Keeps, hv]; exact h.keeps
  covers ha := by
    have := h.covers ha
    have := hc ha
    rw [State.owed_congr hv hb]
    omega

theorem BurnRequest.escrow_congr {vaults vaults' : Address → Vault}
    (h : r.status = .pending →
      (vaults' r.lpVault).collateralAsset = (vaults r.lpVault).collateralAsset) :
    r.escrow vaults' a = r.escrow vaults a := by
  by_cases hp : r.status = .pending
  case pos => simp [escrow, h hp]
  case neg => simp [escrow, hp]

theorem State.owed_setVault
    (h : ∀ {id}, (s.burnRequests id).status = .pending → (s.burnRequests id).lpVault = lp →
      v.collateralAsset = (s.vaults lp).collateralAsset) :
    State.owed { s with vaults := update s.vaults lp v } a + (s.vaults lp).deposit a =
    s.owed a + v.deposit a := by
  have hx := sum_exchange (f := fun i => (s.vaults i).deposit a)
    (g := fun i => (update s.vaults lp v i).deposit a) lp fun i hi => by simp [hi]
  have he (id) : (s.burnRequests id).escrow (update s.vaults lp v) a =
      (s.burnRequests id).escrow s.vaults a := by
    apply BurnRequest.escrow_congr
    intro hp
    by_cases hl : (s.burnRequests id).lpVault = lp
    case pos => simp [hl, h hp hl]
    case neg => simp [hl]
  simp only [owed, he, update_self] at hx ⊢
  omega

theorem State.owed_setBurn :
    State.owed { s with burnRequests := update s.burnRequests id r } a +
      (s.burnRequests id).escrow s.vaults a =
    s.owed a + r.escrow s.vaults a := by
  have hx := sum_exchange (f := fun i => (s.burnRequests i).escrow s.vaults a)
    (g := fun i => (update s.burnRequests id r i).escrow s.vaults a) id fun i hi => by simp [hi]
  simp only [owed, update_self] at hx ⊢
  omega

theorem Vault.deposit_of_empty (h : v.collateralAmount = 0) : v.deposit a = 0 := by
  simp [deposit, h]

theorem Vault.deposit_eq_single :
    (v.deposit a : ℤ) = (Pi.single v.collateralAsset (v.collateralAmount.toNat : ℤ) : _ → ℤ) a := by
  by_cases h : v.collateralAsset = a
  case pos => subst h; simp [deposit]
  case neg => simp [deposit, h, Ne.symm h]

-- A change of a vault that keeps its asset. The collateral it loses becomes a credit.
theorem Evolves.setVault (h : Evolves d credit s₀ s) (ha : v.active = (s.vaults lp).active)
    (hc : v.collateralAsset = (s.vaults lp).collateralAsset)
    (hi : ¬v.active → v.collateralAmount = 0)
    (hd : ∀ {a}, d.Holds a → credit' a + v.deposit a ≤ credit a + (s.vaults lp).deposit a) :
    Evolves d credit' s₀ { s with vaults := update s.vaults lp v } where
  wf := by
    constructor <;> intro i hp <;> dsimp only at hp ⊢
    case idle =>
      by_cases hn : i = lp
      case pos => subst hn; simp_all
      case neg => simp only [update_of_ne hn] at hp ⊢; exact h.wf.idle hp
    case backed =>
      have hb := h.wf.backed hp
      by_cases hn : (s.burnRequests i).lpVault = lp
      case pos => rw [hn] at hb ⊢; simpa [ha] using hb
      case neg => simpa [hn] using hb
  keeps i hp := by
    have ⟨hp, he⟩ := h.keeps i hp
    by_cases hn : i = lp
    case pos => subst hn; simp [ha, hc, hp, he]
    case neg => simp [hn, hp, he]
  covers {a} hh := by
    have hx := h.covers hh
    have ho : State.owed { s with vaults := update s.vaults lp v } a + (s.vaults lp).deposit a =
        s.owed a + v.deposit a := s.owed_setVault fun _ _ => hc
    have hd := hd hh
    dsimp only
    omega

-- A new vault. No pending request refers to it, since it was not active before.
theorem Evolves.newVault (h : s.WF) (ha : ¬(s.vaults lp).active) (hv : v.active)
    (hz : v.collateralAmount = 0) :
    Evolves d 0 s { s with vaults := update s.vaults lp v } where
  wf := by
    constructor <;> intro i hp <;> dsimp only at hp ⊢
    case idle =>
      by_cases hn : i = lp
      case pos => subst hn; simpa using hz
      case neg => simp only [update_of_ne hn] at hp ⊢; exact h.idle hp
    case backed =>
      by_cases hn : (s.burnRequests i).lpVault = lp
      case pos => simpa [hn] using hv
      case neg => simpa [hn] using h.backed hp
  keeps i hp := by
    have hn : i ≠ lp := by intro hn; exact ha <| hn ▸ hp
    simp [hn, hp]
  covers {a} _ := by
    have ho : State.owed { s with vaults := update s.vaults lp v } a + (s.vaults lp).deposit a =
        s.owed a + v.deposit a :=
      s.owed_setVault fun hp hn => absurd (hn ▸ h.backed hp) ha
    rw [Vault.deposit_of_empty hz, Vault.deposit_of_empty (h.idle ha)] at ho
    simp only [Pi.zero_apply]
    omega

-- A change of a burn request. The collateral it frees becomes a credit.
theorem Evolves.setBurn (h : Evolves d credit s₀ s)
    (hp : r.status = .pending → (s.vaults r.lpVault).active)
    (hc : ∀ {a}, d.Holds a → credit' a + r.escrow s.vaults a ≤
      credit a + (s.burnRequests id).escrow s.vaults a) :
    Evolves d credit' s₀ { s with burnRequests := update s.burnRequests id r } where
  wf := by
    refine ⟨h.wf.idle, ?_⟩
    intro i hi
    by_cases hn : i = id
    case pos => subst hn; simp only [update_self] at hi ⊢; exact hp hi
    case neg => simp only [update_of_ne hn] at hi ⊢; exact h.wf.backed hi
  keeps := h.keeps
  covers {a} hh := by
    have hx := h.covers hh
    have hc := hc hh
    have ho : State.owed { s with burnRequests := update s.burnRequests id r } a +
        (s.burnRequests id).escrow s.vaults a = s.owed a + r.escrow s.vaults a := s.owed_setBurn
    dsimp only
    omega

end Ethereum.VaultManager
