import AtomicSwap.Ethereum.SwapCreator.Theorems.Custody
import AtomicSwap.Protocol.XMRMaker.Theorems.Lock

open Ethereum SwapCreator Reentrant

namespace XMRMaker

-- A contract with the code of the `SwapCreator`, in a state that some transactions have led it to.
-- The set `S` holds the swaps whose hashes matter.
inductive Genuine (host : Host) (S : Set Swap) : Address → State → Prop
  | deployed {d : Deployment} {txs : List (Block × Act Call)} (balances : Ledger Address Address)
    (hd : d.host = host) (inj : CollisionFree d S)
    (h : ∀ tx ∈ txs, tx.snd.All (Call.Admissible d S tx.fst)) :
    Genuine host S d.this (runTxs (step d) txs <| .deployed balances)

variable {b : Backend} {ec : EthClient} {calls : Calls} {msg : NotifyETHLocked} {s : SwapState}
  {host : Host} {S : Set Swap} {a : Address} {c : State} {sw : SwapCreatorSwap}

section Genuine

theorem Genuine.wf (h : Genuine host S a c) :
    ∃ d : Deployment, d.host = host ∧ CollisionFree d S ∧ c.WF d S := by
  cases h
  case deployed d txs balances hd inj h => exact ⟨d, hd, inj, (runTxs_evolves h).wf⟩

theorem Genuine.swapOf_eq (h : Genuine host S a c) (hm : sw.pack ∈ S)
    (hr : c.swaps (sw.swapID host) ≠ .invalid) : c.swapOf (sw.swapID host) = some sw.pack := by
  have ⟨d, hd, inj, hw⟩ := h.wf
  subst hd
  exact hw.swapOf_eq inj hm hr

theorem Genuine.logged (h : Genuine host S a c) (hm : sw.pack ∈ S)
    (hr : c.swaps (sw.swapID host) ≠ .invalid) :
    sw.pack.newEvent (sw.swapID host) ∈ c.logs := by
  have ⟨_, _, _, hw⟩ := h.wf
  exact hw.entry (h.swapOf_eq hm hr) |>.logged

-- The contract emits `New` only for swaps that it records.
theorem Genuine.recorded {ck rk : Bytes32} {t₁ t₂ v : Uint256} {asset : Address}
    (h : Genuine host S a c) (hm : sw.pack ∈ S)
    (he : .new (sw.swapID host) ck rk t₁ t₂ asset v ∈ c.logs) :
    c.swaps (sw.swapID host) ≠ .invalid ∧ sw.claimCommitment = ck ∧ sw.refundCommitment = rk := by
  have ⟨_, _, _, hw⟩ := h.wf
  have ⟨sw', ho, he'⟩ := hw.recorded he
  have hr := hw.created _ |>.mpr ⟨sw', ho⟩
  have hs : sw' = sw.pack := Option.some.inj <| ho.symm.trans <| h.swapOf_eq hm hr
  subst hs
  simp only [Swap.newEvent, Event.new.injEq] at he'
  exact ⟨hr, he'.right.left, he'.right.right.left⟩

end Genuine

-- The swap that the maker locks its XMR for pays it in exchange for its own secret, or gives it the
-- secret of the other side.
structure Claimable (b : Backend) (s : SwapState) (msg : NotifyETHLocked) (c : State) : Prop where
  recorded         : c.swaps msg.contractSwapID ≠ .invalid
  claimer          : msg.contractSwap.claimer = b.ethAddress
  claimCommitment  :
    s.secp256k1Pub.map (·.keccak256 b.host) = some msg.contractSwap.claimCommitment
  refundCommitment :
    s.xmrtakerSecp256k1PublicKey.map (·.keccak256 b.host) = some msg.contractSwap.refundCommitment

-- A log of the contract itself that passes the maker's checks.
def Emitted (b : Backend) (s : SwapState) (msg : NotifyETHLocked) (c : State) : Prop :=
  ∃ e ∈ c.logs, ∃ n event, parseNew (e.toLog msg.address n) = some event ∧ Seen b s msg event

-- The integers of an accepted swap are not reduced when they are packed.
theorem Accepted.pack_value (h : Accepted b ec s msg) :
    (msg.contractSwap.pack.value.toNat : ℤ) = msg.contractSwap.value := by
  have ⟨_, event, _, he, hv⟩ := h.event
  have ⟨_, _, hp⟩ := List.exists_of_findSome?_eq_some he
  have hl : event.value < 2 ^ 256 := parseNew_value_lt hp
  rw [SwapCreatorSwap.pack, ← hv.value, BitVec.ofInt_natCast, BitVec.toNat_ofNat,
    Nat.mod_eq_of_lt hl]

theorem Claimable.emitted (h : Claimable b s msg c) (hc : Genuine b.host S msg.address c)
    (hm : msg.contractSwap.pack ∈ S) (ha : Accepted b ec s msg) : Emitted b s msg c := by
  have hl := hc.logged hm (ha.swapID.symm ▸ h.recorded)
  refine ⟨_, hl, 0, _, parseNew_toLog, ?_⟩
  exact ⟨ha.swapID, h.claimCommitment, h.refundCommitment, rfl, ha.pack_value⟩

theorem Emitted.claimable (h : Emitted b s msg c) (hc : Genuine b.host S msg.address c)
    (hm : msg.contractSwap.pack ∈ S) (ha : Accepted b ec s msg)
    (hcl : msg.contractSwap.claimer = b.ethAddress) : Claimable b s msg c := by
  have ⟨e, he, n, event, hp, hv⟩ := h
  have ⟨id, ck, rk, t₁, t₂, a, v, hn⟩ := parseNew_toLog_isSome (Option.isSome_of_eq_some hp)
  subst hn
  rw [parseNew_toLog] at hp
  cases hp
  have hid : id = msg.contractSwap.swapID b.host := hv.swapID.trans ha.swapID.symm
  have ⟨hr, hck, hrk⟩ := hc.recorded hm (hid ▸ he)
  exact ⟨ha.swapID ▸ hr, hcl, hck ▸ hv.claimKey, hrk ▸ hv.refundKey⟩

-- The maker can claim the swap or learn the secret exactly if it is the claimer, and the contract
-- has emitted an event as the one that the maker has found in the receipt.
theorem claimable_iff (hc : Genuine b.host S msg.address c) (hm : msg.contractSwap.pack ∈ S)
    (h : Locks b ec calls msg s) :
    Claimable b s msg c ↔ msg.contractSwap.claimer = b.ethAddress ∧ Emitted b s msg c := by
  constructor
  case mp  => exact fun hcl => ⟨hcl.claimer, hcl.emitted hc hm h.accepted⟩
  case mpr => exact fun ⟨hcl, he⟩ => he.claimable hc hm h.accepted hcl

-- The checks are enough as long as no other contract emits a log that looks like a `New`.
theorem Locks.emitted (h : Locks b ec calls msg s)
    (hl : ∀ receipt, ec.waitForReceipt msg.txHash = some receipt → ∀ l ∈ receipt.logs,
      (parseNew l).isSome → ∃ e ∈ c.logs, ∃ n, l = e.toLog msg.address n) :
    Emitted b s msg c := by
  have ⟨receipt, event, hr, he, hv⟩ := h.accepted.event
  have ⟨l, hm, hp⟩ := List.exists_of_findSome?_eq_some he
  have ⟨e, he, n, hn⟩ := hl receipt hr l hm (Option.isSome_of_eq_some hp)
  exact ⟨e, he, n, event, hn ▸ hp, hv⟩

end XMRMaker

-- The taker has a swap of its own asset created, by a transaction whose receipt starts with a log
-- of that asset.
namespace XMRMaker.Sample

def deployment : Deployment where
  host       := host
  this       := swapCreatorAddr
  standard _ := false

def create (sw : SwapCreatorSwap) (value : Uint256) : List (Block × Act Call) :=
  [(⟨1700000000⟩, ⟨.newSwap ⟨sw.owner, value⟩ sw.claimCommitment sw.refundCommitment sw.claimer 3600
    3600 sw.asset sw.pack.value sw.pack.nonce, []⟩)]

def chain (sw : SwapCreatorSwap) (value : Uint256) : State :=
  runTxs (step deployment) (create sw value) <| .deployed fun _ _ => 10 ^ 19

theorem chain_genuine {sw : SwapCreatorSwap} (value : Uint256) (hs : sw = swap ∨ sw = cover) :
    Genuine host {swap.pack, cover.pack} swapCreatorAddr (chain sw value) := by
  have hi : CollisionFree deployment {swap.pack, cover.pack} := by
    rw [CollisionFree, Set.injOn_pair]
    intro h
    exact absurd h <| by decide +kernel
  refine .deployed (d := deployment) _ rfl hi ?_
  simp only [create, List.mem_singleton, forall_eq]
  refine .mk ⟨?_, ?_⟩ (by simp)
  · have ho : deployment.this ∉ [swap.owner] := by decide
    cases hs <;> subst sw <;> exact ho
  · simp only [Call.swaps, List.mem_singleton, forall_eq]
    cases hs <;> subst sw
    case inl => exact .inl <| by decide
    case inr => exact .inr <| by decide

def forged : Log :=
  Event.toLog cover.asset 100 <| swap.pack.newEvent swapID

end XMRMaker.Sample

namespace XMRMaker

open XMRMaker.Sample

theorem claimable_iff_swap :
    Claimable backend state (notify swap swapID) (chain swap <| 5 * 10 ^ 18) := by
  apply (claimable_iff (chain_genuine _ (.inl rfl)) (.inl rfl) swap_locks).mpr
  refine ⟨by decide, swap.pack.newEvent swapID, by decide +kernel, 100, _, parseNew_toLog, ?_⟩
  constructor <;> decide

theorem unrecorded :
    let ec := client [forged, Event.toLog swapCreatorAddr 100 <| cover.pack.newEvent coverID]
    let c := chain cover 0
    Genuine backend.host {swap.pack, cover.pack} swapCreatorAddr c ∧
    c.logs = [cover.pack.newEvent coverID] ∧ Locks backend ec calls (notify swap swapID) state ∧
    ¬Claimable backend state (notify swap swapID) c := by
  refine ⟨chain_genuine _ (.inr rfl), by decide +kernel, by decide +kernel, fun h => ?_⟩
  exact h.recorded <| by decide +kernel

end XMRMaker
