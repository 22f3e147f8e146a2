import AtomicSwap.Ethereum.Token.Theorems.Supply

open Function Machine

namespace Ethereum.Token

-- The calls of a run that did not revert, each counted by `f`.
def tally (f : Call → ℕ) : List Call → State → ℕ
  | [],      _ => 0
  | c :: cs, s => (if (c.run s).toOption.isSome then f c else 0) + tally f cs (step s c)

section Spending

variable (a b : Address)

-- What `a` allows `b` to spend by a call, on top of what was allowed before.
def Call.grants (c : Call) : ℕ :=
  match c.method with
  | .approve spender v | .increaseAllowance spender v =>
    if c.msg.sender = a ∧ spender = b then v.toNat else 0
  | _ => 0

-- What `b` takes from `a` by a call.
def Call.spends (c : Call) : ℕ :=
  match c.method with
  | .transferFrom src _ v => if c.msg.sender = b ∧ src = a then v.toNat else 0
  | _                     => 0

end Spending

-- What is burned of the tokens of `a` by a call.
def Call.burns (a : Address) (c : Call) : ℕ :=
  match c.method with
  | .burn src v => if src = a then v.toNat else 0
  | _           => 0

variable {s s' : State} {c : Call} {a b owner spender : Address} {v : Uint256}

theorem run_cases (s : State) (c : Call) :
    step s c = s ∧ ¬(c.run s).toOption.isSome ∨
    (c.run s).toOption.isSome ∧ Effect s c.msg.sender c.method (step s c) := by
  unfold step
  cases h : c.run s
  case error => exact .inl ⟨rfl, by simp [Except.toOption]⟩
  case ok    =>
    obtain ⟨_, _, h⟩ := Except.bind_ok_iff.mp h
    exact .inr ⟨rfl, Method.effect h⟩

namespace ERC20

variable {s s' : ERC20}

theorem allowances_transfer {src dst : Address} (h : s._transfer src dst v = .ok s') :
    s'.allowances = s.allowances := by
  obtain ⟨_, _, _, rfl⟩ := _transfer_eq_ok.mp h
  rfl

theorem allowances_mint {account : Address} (h : s._mint account v = .ok s') :
    s'.allowances = s.allowances := by
  obtain ⟨_, _, _, rfl⟩ := _mint_eq_ok.mp h
  rfl

theorem allowances_burn {account : Address} (h : s._burn account v = .ok s') :
    s'.allowances = s.allowances := by
  obtain ⟨_, _, rfl⟩ := _burn_eq_ok.mp h
  rfl

theorem allowances_approve (h : s._approve owner spender v = .ok s') :
    s'.allowances a b = if owner = a ∧ spender = b then v else s.allowances a b := by
  obtain ⟨_, _, rfl⟩ := _approve_eq_ok.mp h
  simp only [emit_allowances]
  by_cases ha : a = owner
  case neg => simp [ha, Ne.symm ha]
  case pos =>
    subst ha
    by_cases hb : b = spender
    case pos => subst hb; simp
    case neg => simp [hb, Ne.symm hb]

-- To spend an allowance that is limited reduces it.
theorem allowances_spend (h : s._spendAllowance owner spender v = .ok s')
    (hf : s.allowances a b ≠ .allOnes 256) :
    (s'.allowances a b).toNat + (if spender = b ∧ owner = a then v.toNat else 0) =
      (s.allowances a b).toNat := by
  obtain ⟨hm, rfl⟩ | ⟨_, hv, h⟩ := _spendAllowance_eq_ok.mp h
  · rw [if_neg]
    · rfl
    · rintro ⟨rfl, rfl⟩
      exact hf hm
  · rw [allowances_approve h]
    by_cases ho : owner = a ∧ spender = b
    case pos =>
      obtain ⟨rfl, rfl⟩ := ho
      simp only [and_self, if_true]
      bv_omega
    case neg => rw [if_neg ho, if_neg (mt And.symm ho), Nat.add_zero]

end ERC20

theorem Effect.spends (he : Effect s c.msg.sender c.method s')
    (hf : s.allowances a b ≠ .allOnes 256) :
    (s'.allowances a b).toNat + c.spends a b ≤ (s.allowances a b).toNat + c.grants a b := by
  obtain ⟨msg, m⟩ := c
  dsimp only at he
  cases he <;> simp only [Call.spends, Call.grants, Nat.add_zero]
  case transfer ht        => rw [ERC20.allowances_transfer ht]
  case transferFrom ha ht =>
    rw [ERC20.allowances_transfer ht]
    exact (ERC20.allowances_spend ha hf).le
  case mint hm => rw [ERC20.allowances_mint hm]
  case burn hb => rw [ERC20.allowances_burn hb]
  case approve ha =>
    rw [ERC20.allowances_approve ha]
    split <;> omega
  case increaseAllowance hv ha =>
    rw [ERC20.allowances_approve ha]
    split
    case isTrue h => obtain ⟨rfl, rfl⟩ := h; omega
    case isFalse  => omega
  case decreaseAllowance hv ha =>
    rw [ERC20.allowances_approve ha]
    split
    case isTrue h => obtain ⟨rfl, rfl⟩ := h; bv_omega
    case isFalse  => exact le_rfl
  all_goals exact le_rfl

theorem step_spends (hf : s.allowances a b ≠ .allOnes 256) :
    ((step s c).allowances a b).toNat + tally (·.spends a b) [c] s ≤
      (s.allowances a b).toNat + tally (·.grants a b) [c] s := by
  obtain ⟨he, hn⟩ | ⟨hr, he⟩ := run_cases s c
  · simp [tally, he, hn]
  · simpa [tally, hr] using he.spends hf

-- Whatever calls are made, `b` takes no more from `a` than it was allowed to, as long as it is not
-- allowed to take everything.
theorem spent_within_allowance (cs : List Call)
    (hf : Along step (fun s _ => s.allowances a b ≠ .allOnes 256) cs s) :
    ((run step cs s).allowances a b).toNat + tally (·.spends a b) cs s ≤
      (s.allowances a b).toNat + tally (·.grants a b) cs s := by
  induction cs generalizing s
  case nil          => simp [run, tally]
  case cons c cs hi =>
    have hs := step_spends (c := c) hf.left
    have hi := hi hf.right
    simp only [run, List.foldl_cons, tally, Nat.add_zero] at hs hi ⊢
    omega

theorem spent_within_allowance_traded :
    tally (·.spends 3 4) Sample.traded Sample.deployed ≤ 7 := by
  have h := spent_within_allowance (a := 3) (b := 4) (s := Sample.deployed) Sample.traded
    (by decide)
  have hg : tally (·.grants 3 4) Sample.traded Sample.deployed = 7 := by decide
  have h₀ : (Sample.deployed.allowances 3 4).toNat = 0 := rfl
  rw [hg, h₀, Nat.zero_add] at h
  exact (Nat.le_add_left ..).trans h

section Idle

namespace ERC20

variable {s s' : ERC20} {src dst account : Address}

theorem le_balance_transfer (hs : s.Supplied) (h : s._transfer src dst v = .ok s') :
    (s.balances a).toNat ≤ (s'.balances a).toNat + if src = a then v.toNat else 0 := by
  obtain ⟨_, _, hv, rfl⟩ := _transfer_eq_ok.mp h
  have hu : (s.balances a).toNat ≤ (update s.balances src (s.balances src - v) a).toNat +
      if src = a then v.toNat else 0 := by
    by_cases ha : a = src
    case pos => subst ha; simp only [update_self, if_true]; bv_omega
    case neg => simp [ha]
  rw [emit_balances]
  by_cases ha : a = dst
  case neg => simpa [ha] using hu
  case pos =>
    subst ha
    have ht := toNat_add (a := a) (hs.fits hv)
    simp only [update_self] at ht ⊢
    omega

theorem le_balance_mint (hs : s.Supplied) (h : s._mint account v = .ok s') :
    (s.balances a).toNat ≤ (s'.balances a).toNat := by
  obtain ⟨_, n, hn, rfl⟩ := _mint_eq_ok.mp h
  rw [emit_balances]
  by_cases ha : a = account
  case neg => simp [ha]
  case pos =>
    subst ha
    have hv : total s.balances + v.toNat < 2 ^ 256 := by rw [hs.sum, ← hn]; exact n.isLt
    have ht := toNat_add (a := a) hv
    simp only [update_self] at ht ⊢
    omega

theorem le_balance_burn (h : s._burn account v = .ok s') :
    (s.balances a).toNat ≤ (s'.balances a).toNat + if account = a then v.toNat else 0 := by
  obtain ⟨_, hv, rfl⟩ := _burn_eq_ok.mp h
  rw [emit_balances]
  by_cases ha : a = account
  case pos => subst ha; simp only [update_self, if_true]; bv_omega
  case neg => simp [ha]

-- All that others may take from `a`.
def allowed (s : ERC20) (a : Address) : ℕ :=
  total (s.allowances a)

theorem allowed_congr (h : s'.allowances = s.allowances) : s'.allowed a = s.allowed a := by
  unfold allowed
  rw [h]

theorem allowed_approve (h : s._approve owner spender v = .ok s') (hn : owner ≠ a) :
    s'.allowed a = s.allowed a :=
  congrArg total <| funext fun b => by rw [allowances_approve h, if_neg (hn ·.left)]

theorem allowed_spend (h : s._spendAllowance owner spender v = .ok s')
    (hf : ∀ b, s.allowances a b ≠ .allOnes 256) :
    s'.allowed a + (if owner = a then v.toNat else 0) = s.allowed a := by
  obtain ⟨hm, rfl⟩ | ⟨_, hv, h⟩ := _spendAllowance_eq_ok.mp h
  · rw [if_neg, Nat.add_zero]
    rintro rfl
    exact hf _ hm
  · by_cases ho : owner = a
    case neg => rw [if_neg ho, Nat.add_zero, allowed_approve h ho]
    case pos =>
      subst ho
      obtain ⟨_, _, rfl⟩ := _approve_eq_ok.mp h
      simp only [if_true, allowed, emit_allowances, update_self]
      exact total_sub hv

end ERC20

-- What `a` loses without a call of its own is burned, or others were allowed to take it.
theorem Effect.idle (he : Effect s c.msg.sender c.method s') (hs : s.Supplied)
    (hn : c.msg.sender ≠ a) (hf : ∀ b, s.allowances a b ≠ .allOnes 256) :
    ∃ n, (s.balances a).toNat ≤ (s'.balances a).toNat + c.burns a + n ∧
      s'.allowed a + n = s.allowed a := by
  have keeps {s s' : ERC20} (h : s'.allowed a = s.allowed a) : s'.allowed a + 0 = s.allowed a :=
    (Nat.add_zero _).trans h
  obtain ⟨msg, m⟩ := c
  dsimp only at he hn
  cases he <;> simp only [Call.burns]
  case transfer ht =>
    have hb := ERC20.le_balance_transfer (a := a) hs ht
    rw [if_neg hn] at hb
    exact ⟨0, hb, keeps <| ERC20.allowed_congr (ERC20.allowances_transfer ht)⟩
  case transferFrom ha ht =>
    have hb := ERC20.le_balance_transfer (a := a) (hs.spendAllowance ha) ht
    rw [(ERC20.core_spendAllowance ha).left] at hb
    refine ⟨_, hb, ?_⟩
    rw [ERC20.allowed_congr (ERC20.allowances_transfer ht)]
    exact ERC20.allowed_spend ha hf
  case approve ha | increaseAllowance ha | decreaseAllowance ha =>
    all_goals
      refine ⟨0, ?_, keeps <| ERC20.allowed_approve ha hn⟩
      obtain ⟨_, _, rfl⟩ := ERC20._approve_eq_ok.mp ha
      exact le_rfl
  case mint hm =>
    exact ⟨0, ERC20.le_balance_mint hs hm,
      keeps <| ERC20.allowed_congr (ERC20.allowances_mint hm)⟩
  case burn hb =>
    exact ⟨0, ERC20.le_balance_burn hb,
      keeps <| ERC20.allowed_congr (ERC20.allowances_burn hb)⟩
  all_goals exact ⟨0, le_rfl, keeps rfl⟩

-- A limit that is no limit is at least as much as anybody can hold.
theorem le_allowed_of_unlimited (h : s.allowances a b = .allOnes 256) :
    (s.balances a).toNat ≤ s.allowed a := by
  have hu : (s.balances a).toNat ≤ (s.allowances a b).toNat := by
    rw [h, BitVec.toNat_allOnes]
    exact Nat.le_pred_of_lt (s.balances a).isLt
  unfold ERC20.allowed
  exact hu.trans (ERC20.le_total ..)

theorem idle_run {cs : List Call} (hs : s.Supplied) (hn : ∀ c ∈ cs, c.msg.sender ≠ a) :
    (s.balances a).toNat ≤
      ((run step cs s).balances a).toNat + s.allowed a + tally (·.burns a) cs s := by
  induction cs generalizing s
  case nil          => simp [run, tally]
  case cons c cs hi =>
    by_cases hf : ∀ b, s.allowances a b ≠ .allOnes 256
    case neg =>
      obtain ⟨b, hb⟩ := not_forall.mp hf
      have hl := le_allowed_of_unlimited (Decidable.not_not.mp hb)
      exact (hl.trans <| Nat.le_add_left ..).trans <| Nat.le_add_right ..
    case pos =>
      have hi := hi (step_supplied hs (c := c)) fun c' hc => hn c' (by simp [hc])
      simp only [run, List.foldl_cons, tally] at hi ⊢
      obtain ⟨he, hr⟩ | ⟨hr, he⟩ := run_cases s c
      · simpa only [he, hr, Bool.false_eq_true, if_false, Nat.zero_add] using hi
      · obtain ⟨n, hb, ha⟩ := he.idle hs (hn c <| by simp) hf
        simp only [hr, if_true, ← ha]
        generalize ERC20.allowed _ a = m at hi ⊢
        omega

-- Whatever has happened before, an account that makes no call itself loses at most what it has
-- allowed others to take, and what the manager burns.
theorem idle_account_keeps {s₀ : State} {initialOwner : Address}
    (h : State.new initialOwner = .ok s₀) (cs₁ : List Call) {cs₂ : List Call}
    (hn : ∀ c ∈ cs₂, c.msg.sender ≠ a) :
    let s := run step cs₁ s₀
    (s.balances a).toNat ≤
      ((run step cs₂ s).balances a).toNat + ∑ b, (s.allowances a b).toNat +
      tally (·.burns a) cs₂ s := by
  have hs : (run step cs₁ s₀).Supplied :=
    run_keeps (I := fun s : State => s.Supplied) (fun _ _ => step_supplied) (new_supplied h)
  have hr := idle_run hs hn
  unfold ERC20.allowed ERC20.total at hr
  exact hr

theorem idle_account_keeps_minted :
    let s := run step Sample.minted Sample.deployed
    10 ≤ ((run step [⟨{ sender := 4 }, .transferFrom 3 5 6⟩] s).balances 3).toNat +
      ∑ b, (s.allowances 3 b).toNat := by
  intro s
  have hn : ∀ c ∈ [(⟨{ sender := 4 }, .transferFrom 3 5 6⟩ : Call)], c.msg.sender ≠ 3 := by simp
  have h := idle_account_keeps (rfl : State.new 1 = .ok Sample.deployed) Sample.minted hn
  have hb : (s.balances 3).toNat = 10 := by decide
  have ht : tally (·.burns 3) [⟨{ sender := 4 }, .transferFrom 3 5 6⟩] s = 0 := by decide
  rw [← hb]
  exact h.trans_eq <| (congrArg _ ht).trans (Nat.add_zero _)

end Idle

end Ethereum.Token
