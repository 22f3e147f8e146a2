import AtomicSwap.Ethereum.VaultManager.Theorems.Footprints

open Reentrant Code Function

namespace Ethereum.VaultManager

abbrev Journal := List (Entry Block Call State)

def MintStatus.IsFinal (status : MintStatus) : Prop :=
  status = .completed ∨ status = .cancelled

section Lifecycle

variable (d : Deployment) (id : Bytes32) (r : MintRequest) (e : Entry Block Call State)

-- The user asks for the mint.
def Initiates : Prop :=
  ∃ v duration,
    e.call = .initiateMint ⟨r.user, v⟩ r.lpVault r.xmrAmount r.claimCommitment duration

-- The provider confirms that the XMR is locked.
def Confirms : Prop :=
  ∃ v, e.call = .setMintReady ⟨r.lpVault, v⟩ id

-- The secret is shown, and the user receives tokens for the XMR.
def Mints : Prop :=
  ∃ msg secret,
    e.call = .finalizeMint msg id secret ∧
    Secp256k1.mulVerify d.host secret r.claimCommitment ∧
    e.after.totalSupply.toNat = e.before.totalSupply.toNat + r.xmrAmount.toNat / 10 ^ 4 ∧
    e.after.balances = e.before.balances.put d.wsxmrToken r.user
      (e.before.balances d.wsxmrToken r.user + r.xmrAmount.toNat / 10 ^ 4)

-- The user cancels the request, `delay` seconds after its timeout at the earliest.
def Cancels (delay : ℕ) : Prop :=
  ∃ v, e.call = .cancelMint ⟨r.user, v⟩ id ∧ r.timeout.toNat + delay ≤ e.block.timestamp.toNat

-- The calls that have been made about a request, by its status.
inductive Lifecycle : MintStatus → Journal → Prop
  | invalid : Lifecycle .invalid []
  | pending {i : Entry Block Call State} : Initiates r i → Lifecycle .pending [i]
  | ready {i c : Entry Block Call State} : Initiates r i → Confirms id r c → Lifecycle .ready [i, c]
  | completed {i c m : Entry Block Call State} :
    Initiates r i → Confirms id r c → Mints d id r m → Lifecycle .completed [i, c, m]
  | cancelled {i x : Entry Block Call State} :
    Initiates r i → Cancels id r x 0 → Lifecycle .cancelled [i, x]
  | expired {i c x : Entry Block Call State} :
    Initiates r i → Confirms id r c → Cancels id r x 86400 → Lifecycle .cancelled [i, c, x]

end Lifecycle

variable {d : Deployment} {block : Block} {id : Bytes32} {s s' : State} {c : Call}
  {p p' p₁ p₂ p₃ : State × Journal}

-- What has been decided about a request is not changed any more.
def Sticks (id : Bytes32) (s s' : State) : Prop :=
  (s.mintRequests id).status.IsFinal → s'.mintRequests id = s.mintRequests id

theorem Sticks.trans {s₁ s₂ s₃ : State} (h₁ : Sticks id s₁ s₂) (h₂ : Sticks id s₂ s₃) :
    Sticks id s₁ s₃ := by
  intro hf
  have h₁ := h₁ hf
  exact (h₂ <| h₁ ▸ hf).trans h₁

variable (d id) in
structure TracksMint (p : State × Journal) : Prop where
  lifecycle : Lifecycle d id (p.fst.mintRequests id) (p.fst.mintRequests id).status
    (p.snd.filter fun e => e.call.mintID d e.block = some id)
  amount    : (p.fst.mintRequests id).status ≠ .invalid →
    (p.fst.mintRequests id).wsxmrAmount.toNat = (p.fst.mintRequests id).xmrAmount.toNat / 10 ^ 4
  final     : ∀ e ∈ p.snd, Sticks id e.before p.fst ∧ Sticks id e.after p.fst

variable (d id) in
def MintGuarantee (p p' : State × Journal) : Prop :=
  TracksMint d id p → TracksMint d id p' ∧ Sticks id p.fst p'.fst

theorem MintGuarantee.refl (p : State × Journal) : MintGuarantee d id p p :=
  fun h => ⟨h, fun _ => rfl⟩

theorem MintGuarantee.trans (h₁ : MintGuarantee d id p₁ p₂) (h₂ : MintGuarantee d id p₂ p₃) :
    MintGuarantee d id p₁ p₃ := by
  intro h
  have ⟨h, hs₁⟩ := h₁ h
  have ⟨h, hs₂⟩ := h₂ h
  exact ⟨h, hs₁.trans hs₂⟩

theorem MintGuarantee.of_eq {h : Journal} (he : s.mintRequests id = s'.mintRequests id) :
    MintGuarantee d id (s, h) (s', h) := by
  intro ht
  refine ⟨⟨?lifecycle, ?amount, fun e hm => ?final⟩, fun _ => he.symm⟩
  case lifecycle => exact he ▸ ht.lifecycle
  case amount    => exact he ▸ ht.amount
  case final     =>
    have ⟨hb, ha⟩ := ht.final e hm
    exact ⟨fun hf => he ▸ hb hf, fun hf => he ▸ ha hf⟩

-- A call about another request is noted.
theorem TracksMint.record (h : TracksMint d id p') (hs : Sticks id s p'.fst)
    (hn : c.mintID d block ≠ some id) :
    TracksMint d id (p'.fst, p'.snd ++ [⟨block, c, s, p'.fst⟩]) where
  lifecycle := by simpa [List.filter_append, hn] using h.lifecycle
  amount    := h.amount
  final     := by
    simp only [List.forall_mem_append, List.forall_mem_singleton]
    exact ⟨h.final, hs, fun _ => rfl⟩

-- A call about this request is noted.
theorem TracksMint.advance {r : MintRequest} {h : Journal} (ht : TracksMint d id (s, h))
    (he : s'.mintRequests id = r) (hn : c.mintID d block = some id)
    (hf : ¬(s.mintRequests id).status.IsFinal)
    (hl : ∀ {es}, Lifecycle d id (s.mintRequests id) (s.mintRequests id).status es →
      Lifecycle d id r r.status (es ++ [⟨block, c, s, s'⟩]))
    (hw : r.wsxmrAmount.toNat = r.xmrAmount.toNat / 10 ^ 4) :
    TracksMint d id (s', h ++ [⟨block, c, s, s'⟩]) ∧ Sticks id s s' where
  left := by
    refine ⟨?lifecycle, fun _ => he ▸ hw, ?final⟩
    case lifecycle => simpa [List.filter_append, hn, he] using hl ht.lifecycle
    case final =>
      simp only [List.forall_mem_append, List.forall_mem_singleton]
      refine ⟨fun e hm => ?_, fun h' => absurd h' hf, fun _ => rfl⟩
      have ⟨hb, ha⟩ := ht.final e hm
      exact ⟨fun h' => absurd (hb h' ▸ h') hf, fun h' => absurd (ha h' ▸ h') hf⟩
  right h' := absurd h' hf

section Step

variable {h : Journal} {msg : Msg} (ht : TracksMint d id (s, h))

include ht

end Step

section Run

variable {owner tokenManager : Address} {totalSupply : Uint256} {balances : Ledger Address Address}
  {txs : List (Block × Act Call)}

end Run

end Ethereum.VaultManager
