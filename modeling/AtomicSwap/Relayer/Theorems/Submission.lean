import AtomicSwap.Ethereum.Theorems.Client
import AtomicSwap.Relayer.Request
import AtomicSwap.Relayer.Theorems.Validated

open Reentrant Code Function

namespace Ethereum.SwapCreator

variable {d : Deployment} {block : Block} {s s' : State} {secret : Bytes32} {msg : Msg}
  {relaySwap : RelaySwap} {relayer : Address} {salt : BitVec 32} {v : UInt8} {r t : Bytes32}

-- A relayed claim only succeeds for a swap that can be claimed.
theorem claimable_of_claimRelayer
    (h : exec (step d block) ⟨.claimRelayer msg relaySwap secret relayer salt v r t, []⟩ s =
      .ok s') :
    Claimable d block s relaySwap.swap secret := by
  refine exec_nil_wp (E := fun _ => True)
    (Q := fun _ _ => Claimable d block s relaySwap.swap secret) ?_ h
  simp only [step, nonpayable, claimRelayer, _claim, checkClaim, verifySecret, wp_bind, wp_revertIf,
    wp_get, implies_true, true_and, Decidable.not_not]
  intro _ _ _ _ hi hc ha hb hv
  have hq : Claimable d block s relaySwap.swap secret := by
    refine ⟨Stage.isOpen_iff.mpr ⟨hi, hc⟩, ?_, BitVec.not_le.mp hb, hv⟩
    rw [not_and_or, not_not, BitVec.not_lt] at ha
    exact ha
  have skip {α : Type} {m : M α} {Q : α → State → Prop} {s : State} (h : ∀ a s, Q a s) :
      wp (· = ·) m Q (fun _ => True) s := wp_of_forall h fun _ => trivial
  exact skip fun _ _ => skip fun _ _ => skip fun _ _ => hq

end Ethereum.SwapCreator

open Ethereum Ethereum.SwapCreator Handler

namespace Ethereum.EthClient

variable {σ : Type}

-- A transaction that was submitted, with the state outside at that moment.
structure Submission (σ : Type) where
  state : σ
  dst   : Address
  call  : SwapCreator.Call
  deriving DecidableEq

-- The same client, with a list of all transactions that were submitted to it.
def recording (ec : EthClient σ) : EthClient (σ × List (Submission σ)) :=
  { ec.aside (List (Submission σ)) with
    transact dst call p :=
      ((ec.transact dst call p.fst).fst,
        ((ec.transact dst call p.fst).snd, p.snd ++ [⟨p.fst, dst, call⟩])) }

theorem waitRounds_keeps (ec : EthClient σ) (txHash : Bytes32) (n : ℕ) :
    Keeps Prod.snd (waitRounds ec.recording txHash n) := by
  induction n
  case zero      => exact keeps_ofExcept
  case succ n hi =>
    refine keeps_bind keeps_get fun _ => keeps_bind keeps_ofExcept fun _ =>
      keeps_bind (fun _ => rfl) fun r => ?_
    cases r
    case error => exact keeps_bind (keeps_bind (fun _ => rfl) fun _ => keeps_ofExcept) fun _ => hi
    case ok    => exact keeps_bind keeps_ofExcept fun _ => fun _ => rfl

end Ethereum.EthClient

namespace Relayer

variable {σ : Type} {ec : EthClient σ} {rec : Recovery} {check : Address → Bool}
  {request : RelayClaimRequest} {ourSwapCreatorAddr : Address} {salt : BitVec 32}

theorem checkForMinClaimBalance_keeps (ec : EthClient σ) :
    Keeps Prod.snd (checkForMinClaimBalance ec.recording) :=
  keeps_bind (keeps_bind (fun _ => rfl) fun _ => keeps_ofExcept) fun _ =>
    keeps_bind (keeps_bind (fun _ => rfl) fun _ => keeps_ofExcept) fun _ =>
    keeps_bind keeps_ofExcept fun _ _ => rfl

section Moves

variable {R : σ → σ → Prop} (h : ec.Within R) (hr : ∀ x, R x x)
  (ht : ∀ x₁ x₂ x₃, R x₁ x₂ → R x₂ x₃ → R x₁ x₃)
include h hr ht

theorem checkForMinClaimBalance_moves : Moves R (checkForMinClaimBalance ec) :=
  moves_bind ht (moves_askFor h.balance) fun _ =>
    moves_bind ht (moves_askFor h.suggestGasPrice) fun _ =>
    moves_bind ht (moves_ofExcept hr) fun _ => hr

theorem sendTransaction_moves {dst : Address} {call : SwapCreator.Call} :
    Moves R (sendTransaction ec dst call) :=
  moves_bind ht (moves_askFor h.txOpts) fun _ =>
    moves_bind ht (moves_askFor <| h.callContract dst call) fun _ =>
    moves_bind ht (moves_ask <| h.transact dst call) fun _ =>
    moves_bind ht (moves_ofExcept hr) fun tx =>
    moves_bind ht (h.waitForReceipt hr ht tx) fun _ => hr

theorem validateAndSendTransaction_moves :
    Moves R (validateAndSendTransaction ec rec check request ourSwapCreatorAddr salt) :=
  moves_bind ht (moves_ofExcept hr) fun _ =>
    moves_bind ht (checkForMinClaimBalance_moves h hr ht) fun _ => sendTransaction_moves h hr ht

end Moves

-- A transaction is only submitted right after it was simulated.
theorem sendTransaction_submissions (dst : Address) (call : SwapCreator.Call)
    (p : σ × List (EthClient.Submission σ)) :
    let p' := (sendTransaction ec.recording dst call p).snd
    p'.snd = p.snd ∨
    ∃ y z, ec.callContract dst call y = (some (), z) ∧ p'.snd = p.snd ++ [⟨z, dst, call⟩] := by
  have hw : (sendTransaction ec.recording dst call).Post p fun _ p' =>
      p'.snd = p.snd ∨
      ∃ y z, ec.callContract dst call y = (some (), z) ∧ p'.snd = p.snd ++ [⟨z, dst, call⟩] := by
    rw [sendTransaction, post_askFor_bind]
    refine ⟨fun _ => .inl rfl, fun _ _ => ?_⟩
    rw [simulateClaimRelayer, post_askFor_bind]
    refine ⟨fun _ => .inl rfl, fun _ hs => ?_⟩
    refine .inr ⟨_, _, Prod.ext hs rfl, ?_⟩
    have hk {x : Except SubmitError Bytes32} : Keeps Prod.snd (do
        let txHash ← ofExcept x
        let _ ← zoom id (fun s _ => s) .receipt (waitForReceipt ec.recording txHash)
        return txHash) :=
      keeps_bind keeps_ofExcept fun _ => keeps_bind
        (fun p => EthClient.waitRounds_keeps ec _ maxRetries p) fun _ _ => rfl
    exact hk _
  exact hw

theorem submitted_after_simulation {x : σ} {sub : EthClient.Submission σ}
    (h : sub ∈ (validateAndSendTransaction ec.recording rec check request ourSwapCreatorAddr salt
      (x, [])).snd.snd) :
    validateClaimRequest rec check request ec.address salt ourSwapCreatorAddr = .ok () ∧
    sub.dst = request.relaySwap.swapCreator ∧
    sub.call = claimRelayerCall request ec.address salt ∧
    ∃ y, ec.callContract sub.dst sub.call y = (some (), sub.state) := by
  have hn {p : σ × List (EthClient.Submission σ)} (h : sub ∈ p.snd) : p.snd ≠ [] :=
    List.ne_nil_of_mem h
  unfold validateAndSendTransaction at h
  obtain ⟨_, p₁, hv, hc, he⟩ := bind_snd keeps_ofExcept (hn h)
  rw [he] at h
  obtain ⟨hv', rfl⟩ := ofExcept_ok.mp hv
  obtain ⟨_, p₂, hb, hc, he⟩ := bind_snd (checkForMinClaimBalance_keeps ec) hc
  rw [he] at h
  have hp : p₂.snd = [] := by simpa [hb] using checkForMinClaimBalance_keeps ec (x, [])
  refine ⟨Except.mapError_eq_ok.mp hv', ?_⟩
  obtain hs | ⟨y, z, hs, hp'⟩ := sendTransaction_submissions request.relaySwap.swapCreator
    (claimRelayerCall request ec.address salt) p₂
  · exact absurd (hs.trans hp) (hn h)
  · rw [hp, List.nil_append] at hp'
    obtain rfl : sub = ⟨z, _, _⟩ := List.mem_singleton.mp (hp' ▸ h)
    exact ⟨rfl, rfl, y, hs⟩

-- A node simulates truthfully if a call that it reports to succeed does so in the state of the
-- contract at that moment.
def Truthful (d : Deployment) (contract : σ → State) (block : σ → Block) (ec : EthClient σ) :
    Prop :=
  ∀ call x, (ec.callContract d.this call x).fst = some () →
    ∃ s', exec (step d <| block x) ⟨call, []⟩ (contract x) = .ok s'

-- Whatever request is made, a relayer only submits a transaction that succeeded in the state in
-- which it was simulated, and that paid at least the fee to the relayer there.
theorem submission_pays {d : Deployment} {contract : σ → State} {block : σ → Block}
    (hd : Truthful d contract block ec) (hf : request.relaySwap.fee < 2 ^ 256) (x : σ) :
    ∀ sub ∈ (validateAndSendTransaction ec.recording rec check request ourSwapCreatorAddr salt
      (x, [])).snd.snd, sub.dst = d.this →
      ∃ y s' fee, ec.callContract d.this sub.call y = (some (), sub.state) ∧
        exec (step d <| block y) ⟨sub.call, []⟩ (contract y) = .ok s' ∧ relayerFeeWei ≤ (fee : ℕ) ∧
        s'.payouts (swapID d request.relaySwap.pack.swap) =
          (contract y).payouts (swapID d request.relaySwap.pack.swap) ++
          [(request.relaySwap.swap.claimer, request.relaySwap.pack.swap.value.toNat - fee),
            (ec.address, fee)] := by
  intro sub hs hdst
  obtain ⟨hv, -, hc, y, hy⟩ := submitted_after_simulation hs
  have hv := validateClaimRequest_ok hv
  rw [hdst] at hy
  obtain ⟨s', he⟩ := hd sub.call y (congrArg Prod.fst hy)
  refine ⟨y, s', request.relaySwap.pack.fee.toNat, hy, he, ?_, ?_⟩
  · have hl : (0 : ℤ) ≤ relayerFeeWei := by decide
    have hw : (request.relaySwap.pack.fee.toNat : ℤ) = request.relaySwap.fee :=
      Abi.toNat_ofInt ⟨hl.trans hv.fee, hf⟩
    exact hw ▸ hv.fee
  · rw [hc] at he
    exact (claimRelayer_inv (claimable_of_claimRelayer he) hv.asset he).right

namespace Sample

def contract : State :=
  runTxs (step deployment) created (.deployed funds)

-- A node with the contract of the sample, on which nothing else happens.
def client : EthClient Unit where
  address                := 0x4E1A7E
  balance _              := (some (10 ^ 18), ())
  erc20Balance _ _       := (none, ())
  suggestGasPrice _      := (some (10 ^ 9), ())
  txOpts _               := (some (), ())
  callContract _ c _     :=
    ((exec (step deployment ⟨1100⟩) ⟨c, []⟩ contract).toOption.map fun _ => (), ())
  transact _ _ _         := (.ok 9, ())
  transactionReceipt _ _ := (.ok ⟨true, [], 1⟩, ())
  sleepWithContext _     := (some (), ())
  expired _              := false

theorem client_truthful :
    Truthful deployment (fun _ => contract) (fun _ => ⟨1100⟩) client := by
  intro call x h
  obtain ⟨s', hs, _⟩ := Option.map_eq_some_iff.mp h
  exact ⟨s', Except.toOption_eq_some_iff.mp hs⟩

theorem client_submissions :
    (validateAndSendTransaction client.recording recovery (fun _ => true) (requestFor (10 ^ 16))
      0x5C 7 ((), [])).snd.snd =
      [⟨(), 0x5C, claimRelayerCall (requestFor (10 ^ 16)) 0x4E1A7E 7⟩] := by
  decide

end Sample

theorem submission_pays_least :
    ∃ s' fee, exec (step Sample.deployment ⟨1100⟩)
        ⟨claimRelayerCall (Sample.requestFor (10 ^ 16)) 0x4E1A7E 7, []⟩ Sample.contract = .ok s' ∧
      relayerFeeWei ≤ (fee : ℕ) := by
  have hf : (Sample.requestFor (10 ^ 16)).relaySwap.fee < 2 ^ 256 := by decide
  obtain ⟨_, s', fee, -, he, hf, -⟩ := submission_pays Sample.client_truthful hf () _
    (by rw [Sample.client_submissions]; exact List.mem_singleton_self _) rfl
  exact ⟨s', fee, he, hf⟩

end Relayer
