import AtomicSwap.Protocol.XMRMaker.Claim
import AtomicSwap.Relayer.Theorems.Submission

open Reentrant Handler Relayer Ethereum Ethereum.SwapCreator

namespace XMRMaker

variable {σ : Type} {s : ClaimSwap} {w : ClaimEnv σ} {x x' : σ} {receipt : Receipt}

section Receipts

variable {contractAddr : Address} {contractSwapID secret : Bytes32} {log : Log}

theorem checkClaimedLog_eq_ok :
    checkClaimedLog contractAddr contractSwapID secret log = .ok () ↔
    log.address = contractAddr ∧ log.topics = [claimedTopic, contractSwapID, secret] := by
  simp only [checkClaimedLog, Except.bind_ok_iff, Except.failIf_eq_ok, exists_const, ne_eq,
    Decidable.not_not]
  refine and_congr_right fun _ => ⟨?_, by rintro h; simp [h]⟩
  rintro ⟨hn, h₀, h₁, h₂⟩
  obtain ⟨a, b, c, hl⟩ := List.length_eq_three.mp hn
  simp_all

-- The first log of a receipt that is accepted shows the claim.
theorem validateClaimRelayerReceipt_ok {receipt' : Receipt}
    (h : validateClaimRelayerReceipt contractAddr contractSwapID secret receipt = .ok receipt') :
    ∃ log ∈ receipt.logs,
      log.address = contractAddr ∧ log.topics = [claimedTopic, contractSwapID, secret] := by
  simp only [validateClaimRelayerReceipt, Except.bind_ok_iff, Except.failIf_eq_ok,
    Except.mapError_eq_ok] at h
  obtain ⟨_, _, log, hl, _, hc, _⟩ := h
  cases hh : receipt.logs.head? <;> simp only [hh, Option.elim_none, Option.elim_some] at hl
  case none => cases hl
  case some =>
    cases hl
    exact ⟨log, List.mem_of_mem_head? hh, checkClaimedLog_eq_ok.mp hc⟩

theorem eq_claimed_of_topics {e : SwapCreator.Event} {this : Address} {n : ℕ}
    (h : (e.toLog this n).topics = [claimedTopic, contractSwapID, secret]) :
    e = .claimed contractSwapID secret := by
  cases e <;> simp [SwapCreator.Event.toLog, SwapCreator.Event.topic] at h
  case claimed  => simp [h]
  case refunded => exact absurd h.left (by decide)

end Receipts

-- The node of the maker tells the truth about the contract: the logs of a receipt are events of it,
-- and an own transaction with a receipt of success has done what it was made for.
structure Faithful (c : Chain σ) (P : Block → Prop) (ec : Ethereum.EthClient σ) : Prop where
  logs     : ∀ {tx x receipt}, (ec.transactionReceipt tx x).fst = .ok receipt →
    ∀ log ∈ receipt.logs, log.address = c.deployment.this →
      ∃ e ∈ (c.contract (ec.transactionReceipt tx x).snd).logs, ∃ n,
        log = e.toLog c.deployment.this n
  included : ∀ {call tx x y receipt},
    (ec.transact c.deployment.this call x).fst = .ok tx →
    c.Grows P (ec.transact c.deployment.this call x).snd y →
    (ec.transactionReceipt tx y).fst = .ok receipt → receipt.success →
    ∀ r, call.revelation c.deployment = some r →
      r.event ∈ (c.contract (ec.transactionReceipt tx y).snd).logs

-- All that others do while the maker claims changes the world by `R`.
structure ClaimEnv.Within (w : ClaimEnv σ) (R : σ → σ → Prop) : Prop where
  ec                  : w.ec.Within R
  discoverRelayers    : ∀ x, R x (w.discoverRelayers x).snd
  queryRelayerAddress : ∀ p x, R x (w.queryRelayerAddress p x).snd
  submitRelayRequest  : ∀ p req x, R x (w.submitRelayRequest p req x).snd
  writeSwapToDB       : ∀ fee x, R x (w.writeSwapToDB fee x).snd

section Moves

variable {R : σ → σ → Prop} (hw : w.Within R) (hr : ∀ x, R x x)
  (ht : ∀ x₁ x₂ x₃, R x₁ x₂ → R x₂ x₃ → R x₁ x₃)
include hw hr ht

theorem pollRounds_moves {tx : Bytes32} {n : ℕ} :
    Moves R (pollRounds s.swapCreatorAddr s.contractSwapID s.secret w.ec tx n) := by
  induction n
  case zero      => exact moves_ofExcept hr
  case succ n hi =>
    refine moves_bind ht (moves_ask <| hw.ec.transactionReceipt tx) fun r => ?_
    split
    · exact moves_ofExcept hr
    · exact moves_bind ht (moves_askFor hw.ec.sleepWithContext) fun _ => hi
    · exact moves_ofExcept hr

theorem submitClaimToRelayer_moves {p : PeerID} {offerID : Option Bytes32} :
    Moves R (submitClaimToRelayer s w p offerID) :=
  moves_bind ht (moves_askFor <| hw.queryRelayerAddress p) fun _ =>
    moves_bind ht (moves_ofExcept hr) fun _ => moves_askFor <| hw.submitRelayRequest p _

theorem relayClaim_moves {p : PeerID} {offerID : Option Bytes32} :
    Moves R (relayClaim s w p offerID) :=
  moves_bind ht (submitClaimToRelayer_moves hw hr ht) fun _ => pollRounds_moves hw hr ht

theorem tryRelayers_moves {relayers : List PeerID} : Moves R (tryRelayers s w relayers) := by
  induction relayers
  case nil            => exact moves_ofExcept hr
  case cons p rest hi =>
    rw [tryRelayers]
    split
    case isTrue  => exact hi
    case isFalse =>
      refine moves_bind ht (moves_attempt <| relayClaim_moves hw hr ht) fun r => ?_
      cases r
      case ok    => exact hr
      case error => exact hi

theorem claimWithAdvertisedRelayers_moves : Moves R (claimWithAdvertisedRelayers s w) :=
  moves_bind ht (moves_askFor hw.discoverRelayers) fun _ =>
    moves_bind ht (moves_ofExcept hr) fun _ => tryRelayers_moves hw hr ht

theorem relayOrFallBack_moves : Moves R (relayOrFallBack s w) := by
  refine moves_bind ht (moves_attempt <| claimWithAdvertisedRelayers_moves hw hr ht) fun r => ?_
  cases r
  case ok    => exact hr
  case error => exact relayClaim_moves hw hr ht

theorem claimWithRelay_moves : Moves R (claimWithRelay s w) :=
  moves_bind ht (relayOrFallBack_moves hw hr ht) fun _ =>
    moves_bind ht (moves_askFor <| hw.writeSwapToDB _) fun _ => hr

end Moves

-- Without relayers, only the node of the maker is asked.
section Client

variable {R : σ → σ → Prop} (hw : w.ec.Within R) (hr : ∀ x, R x x)
  (ht : ∀ x₁ x₂ x₃, R x₁ x₂ → R x₂ x₃ → R x₁ x₃)
include hw hr ht

variable (hc : Moves R (claimWithRelay s w))
include hc

end Client

section Claimed

variable {c : Chain σ} {P : Block → Prop} {secret id : Bytes32}

-- The claim of the swap with the secret of the maker is in the log.
def Claimed (c : Chain σ) (s : ClaimSwap) (x : σ) : Prop :=
  .claimed s.contractSwapID s.secret ∈ (c.contract x).logs

variable (hw : w.Within (c.Grows P)) (hf : Faithful c P w.ec)
  (ha : s.swapCreatorAddr = c.deployment.this)
include hf ha

theorem pollRounds_claimed {tx : Bytes32} {n : ℕ}
    (h : pollRounds s.swapCreatorAddr s.contractSwapID s.secret w.ec tx n x = (.ok receipt, x')) :
    Claimed c s x' := by
  induction n generalizing x
  case zero      => simp [pollRounds] at h
  case succ n hi =>
    simp only [pollRounds, bind_ok, ask_ok] at h
    obtain ⟨r, x₁, hr, h⟩ := h
    cases r
    case error e =>
      cases e
      case other    => simp at h
      case notFound =>
        simp only [bind_ok] at h
        obtain ⟨_, x₂, _, h⟩ := h
        exact hi h
    case ok receipt₁ =>
      obtain ⟨hv, rfl⟩ := ofExcept_ok.mp h
      obtain ⟨log, hl, hc, ht⟩ := validateClaimRelayerReceipt_ok hv
      obtain ⟨e, he, n, rfl⟩ := hf.logs (congrArg Prod.fst hr) log hl (hc.trans ha)
      rw [hr, eq_claimed_of_topics ht] at he
      exact he

theorem relayClaim_claimed {p : PeerID} {offerID : Option Bytes32}
    (h : relayClaim s w p offerID x = (.ok receipt, x')) : Claimed c s x' := by
  simp only [relayClaim, waitForRelayed, waitForClaimRelayerReceipt, bind_ok, zoom_id_ok] at h
  obtain ⟨tx, x₁, _, h⟩ := h
  exact pollRounds_claimed hf ha h

theorem tryRelayers_claimed {relayers : List PeerID}
    (h : tryRelayers s w relayers x = (.ok receipt, x')) : Claimed c s x' := by
  induction relayers generalizing x
  case nil            => simp [tryRelayers] at h
  case cons p rest hi =>
    rw [tryRelayers] at h
    split at h
    case isTrue  => exact hi h
    case isFalse =>
      simp only [bind_ok, attempt_ok] at h
      obtain ⟨r, x₁, hr, h⟩ := h
      cases r
      case error => exact hi h
      case ok    =>
        obtain ⟨rfl, rfl⟩ := pure_ok.mp h
        exact relayClaim_claimed hf ha hr

theorem claimWithAdvertisedRelayers_claimed
    (h : claimWithAdvertisedRelayers s w x = (.ok receipt, x')) : Claimed c s x' := by
  simp only [claimWithAdvertisedRelayers, bind_ok] at h
  obtain ⟨relayers, _, _, _, _, _, h⟩ := h
  exact tryRelayers_claimed hf ha h

include hw

variable (hid : s.contractSwapID = swapID c.deployment s.contractSwap.pack)
include hid

end Claimed

-- A chain on which a swap can be claimed, and a maker that knows two relayers. The first of them
-- says that it has claimed, but has not.
namespace RelaySample

-- The maker only signs for the fixed fee.
def recovery : Recovery where
  keccak256 bs    :=
    if bs.length = 384 ∧ Bytes.word 9 bs = 10 ^ 16 ∧ Bytes.word 11 bs = 0x5C then 2 else 1
  recover digest _ _ _ := if digest = 1 then none else some 0xB0B

def chain : Chain (List (Block × Act SwapCreator.Call)) where
  deployment := { Relayer.Sample.deployment with host := recovery.host }
  swaps      := {Relayer.Sample.swap.pack}
  balances   := Relayer.Sample.funds
  history x  := x

def makerSwap : ClaimSwap where
  contractSwap    := Relayer.Sample.swap
  contractSwapID  := 1
  swapCreatorAddr := 0x5C
  secret          := 5
  peerID          := 2
  offerID         := 8
  useRelayer      := false

-- The node of the maker, which has no ether.
def makerClient : Ethereum.EthClient (List (Block × Act SwapCreator.Call)) where
  address                 := 0xB0B
  balance x               := (some 0, x)
  erc20Balance _ x        := (none, x)
  suggestGasPrice x       := (some (10 ^ 9), x)
  txOpts x                := (some (), x)
  callContract _ _ x      := (none, x)
  transact _ _ x          := (.error .insufficientFunds, x)
  transactionReceipt tx x :=
    let logs := (chain.contract x).logs.filter SwapCreator.Event.isSettlement
    (if tx = 9 then .ok ⟨true, logs.map (·.toLog 0x5C 1), 1⟩ else .error .notFound, x)
  sleepWithContext x      := (some (), x)
  expired _               := false

-- The node of the second relayer, which includes a transaction at once.
def relayerClient : Ethereum.EthClient (List (Block × Act SwapCreator.Call)) :=
  { makerClient with
    address            := 0x4E1A7E
    balance x          := (some (10 ^ 18), x)
    callContract _ c x :=
      ((exec (step chain.deployment ⟨1150⟩) ⟨c, []⟩ (chain.contract x)).toOption.map fun _ => (), x)
    transact _ c x     :=
      if chain.deployment.this ∉ c.senders ∧
          ∀ sw ∈ c.swaps ⟨1150⟩, sw = Relayer.Sample.swap.pack then
        (.ok 9, x ++ [(⟨1150⟩, ⟨c, []⟩)])
      else (.error .other, x) }

def env : ClaimEnv (List (Block × Act SwapCreator.Call)) where
  ec                         := makerClient
  host                       := recovery.host
  key                        :=
    ⟨0xB0B, fun digest => if digest = 1 then none else some ⟨3, 4, 0⟩⟩
  discoverRelayers x         := (some [3, 1], x)
  queryRelayerAddress _ x    := (some <| relayerAddressHash recovery relayerClient.address 7, x)
  submitRelayRequest p req x :=
    if p = 1 then
      let r := validateAndSendTransaction relayerClient recovery (fun _ => true) req 0x5C 7 x
      (r.fst.toOption, r.snd)
    else (some 6, x)
  writeSwapToDB _ x          := (some (), x)

variable {P : Block → Prop}

theorem makerClient_within : makerClient.Within (chain.Grows P) := by
  constructor <;> intros <;> exact .refl _

theorem transact_grows (h : P ⟨1150⟩) (dst : Address) (c : SwapCreator.Call)
    (x : List (Block × Act SwapCreator.Call)) :
    chain.Grows P x (relayerClient.transact dst c x).snd := by
  simp only [relayerClient]
  split
  case isTrue hc =>
    refine ⟨[(⟨1150⟩, ⟨c, []⟩)], rfl, fun tx ht => ?_⟩
    obtain rfl := List.mem_singleton.mp ht
    exact ⟨.mk ⟨hc.left, hc.right⟩ (by simp), h⟩
  case isFalse => exact .refl x

theorem relayerClient_within (h : P ⟨1150⟩) : relayerClient.Within (chain.Grows P) := by
  constructor
  case transact => exact transact_grows h
  all_goals intros; exact .refl _

theorem env_within (h : P ⟨1150⟩) : env.Within (chain.Grows P) where
  ec                      := makerClient_within
  discoverRelayers x      := .refl x
  queryRelayerAddress _ x := .refl x
  submitRelayRequest p req x := by
    simp only [env]
    split
    case isTrue  =>
      exact validateAndSendTransaction_moves (relayerClient_within h) .refl (fun _ _ _ => .trans) x
    case isFalse => exact .refl x
  writeSwapToDB _ x       := .refl x

theorem makerClient_faithful : Faithful chain P makerClient where
  logs {tx x receipt} h log hl _ := by
    simp only [makerClient] at h
    split at h
    case isFalse => cases h
    case isTrue  =>
      obtain rfl := Except.ok.inj h
      obtain ⟨e, he, rfl⟩ := List.mem_map.mp hl
      exact ⟨e, List.mem_of_mem_filter he, 1, rfl⟩
  included h := by cases h

theorem keccak256_eq {bs : List UInt8} : recovery.host.keccak256 bs ≠ 1 ↔
    bs.length = 384 ∧ Bytes.word 9 bs = 10 ^ 16 ∧ Bytes.word 11 bs = 0x5C := by
  simp [Recovery.host, recovery]

theorem word_abiEncodeRelay (relaySwap : RelaySwap) :
    Bytes.word 9 (abiEncodeRelay relaySwap) = relaySwap.fee.toNat ∧
    Bytes.word 11 (abiEncodeRelay relaySwap) = relaySwap.swapCreator.toNat := by
  simp [abiEncodeRelay, abiEncode, Bytes.word_succ, Bytes.word_zero, Bytes.word_self,
    Bytes.beValue_be_toNat]

theorem addr_eq : makerSwap.swapCreatorAddr = chain.deployment.this :=
  rfl

theorem id_eq : makerSwap.contractSwapID = swapID chain.deployment makerSwap.contractSwap.pack := by
  decide +kernel

theorem created_admits : ∀ tx ∈ chain.history Relayer.Sample.created, chain.Admits tx := by
  simp only [chain, Relayer.Sample.created, List.mem_cons, List.not_mem_nil, or_false, forall_eq]
  exact .mk ⟨by decide, by decide⟩ (by simp)

end RelaySample

end XMRMaker
