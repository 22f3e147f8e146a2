import AtomicSwap.Library.Machine.Runs
import AtomicSwap.Net.Relay
import AtomicSwap.Relayer.Theorems.Validated

open Ethereum Ethereum.SwapCreator Function Machine Relayer

namespace Relay

section Validate

variable {ε δ α β : Type} {rec : Recovery} {check : Address → Bool} {r : ClaimRequest}
  {req : RelayClaimRequest} {ourAddress addr : Address} {salt : BitVec 32}

theorem nonNil_ok {x : Option α} {a : α} : nonNil x = .ok a ↔ x = some a := by
  cases x <;> simp [nonNil]

-- Two computations that differ in the type of their errors only.
theorem bind_eq_mapError {x : Except δ α} {f : α → Except δ β} {x' : Except ε α}
    {f' : α → Except ε β} {g : ε → δ} (hx : x = x'.mapError g) (hf : ∀ a, f a = (f' a).mapError g) :
    x >>= f = (x' >>= f').mapError g := by
  subst hx
  cases x'
  case error => rfl
  case ok a  => exact hf a

theorem failIf_eq_mapError {p : Prop} [Decidable p] {e : ε} {g : ε → δ} :
    Except.failIf p (g e) = (Except.failIf p e).mapError g := by
  by_cases hp : p
  · rw [Except.failIf, Except.failIf, if_pos hp, if_pos hp]
    rfl
  · rw [Except.failIf, Except.failIf, if_neg hp, if_neg hp]
    rfl

theorem ClaimRequest.complete?_eq_some : r.complete? = some req ↔
    ∃ swap fee, r.swap = some swap ∧ r.fee = some fee ∧ r.filled swap fee = req := by
  simp [complete?, Option.bind_eq_some_iff]

theorem validateSwapCreator_eq {swap : SwapCreatorSwap} {fee : ℤ} :
    validateSwapCreator check r addr =
      (Relayer.validateSwapCreator check (r.filled swap fee) addr).mapError .rejected := by
  rw [validateSwapCreator, Relayer.validateSwapCreator]
  by_cases ha : (r.filled swap fee).relaySwap.swapCreator = addr
  · rw [if_pos ha]
    exact if_pos ha
  · rw [if_neg ha]
    refine (if_neg ha).trans ?_
    exact bind_eq_mapError failIf_eq_mapError fun _ => failIf_eq_mapError

-- A request with all its members is validated as its complete form is.
theorem validateClaimRequest_complete (h : r.complete? = some req) :
    validateClaimRequest rec check r ourAddress salt addr =
      (Relayer.validateClaimRequest rec check req ourAddress salt addr).mapError .rejected := by
  obtain ⟨swap, fee, hs, hf, rfl⟩ := ClaimRequest.complete?_eq_some.mp h
  rw [validateClaimRequest, hs, hf, Relayer.validateClaimRequest, Relayer.validateClaimValues]
  simp only [bind_assoc]
  refine bind_eq_mapError validateSwapCreator_eq fun _ => ?_
  refine bind_eq_mapError failIf_eq_mapError fun _ => ?_
  refine bind_eq_mapError failIf_eq_mapError fun _ => ?_
  refine bind_eq_mapError failIf_eq_mapError fun _ => ?_
  exact bind_eq_mapError failIf_eq_mapError fun _ => rfl

theorem validateClaimRequest_ok
    (h : validateClaimRequest rec check r ourAddress salt addr = .ok ()) :
    ∃ req, r.complete? = some req ∧
      Relayer.validateClaimRequest rec check req ourAddress salt addr = .ok () := by
  have hn := h
  simp only [validateClaimRequest, Except.bind_ok_iff, nonNil_ok] at hn
  obtain ⟨_, _, swap, hs, _, _, _, _, _, _, fee, hf, _⟩ := hn
  have hc := ClaimRequest.complete?_eq_some.mpr ⟨swap, fee, hs, hf, rfl⟩
  rw [validateClaimRequest_complete hc, Except.mapError_eq_ok] at h
  exact ⟨_, hc, h⟩

theorem complete?_eq_none_of_panicked
    (h : validateClaimRequest rec check r ourAddress salt addr = .error .panicked) :
    r.complete? = none := by
  refine Option.eq_none_iff_forall_not_mem.mpr fun req hr => ?_
  rw [validateClaimRequest_complete hr, Except.mapError_error_iff] at h
  simp at h

-- The counterparty of a swap can only ask for a claim at the contract of the node.
theorem swapCreator_eq_of_offerID
    (h : Relayer.validateClaimRequest rec check req ourAddress salt addr = .ok ())
    (ho : req.offerID.isSome) : req.relaySwap.swapCreator = addr := by
  simp only [Relayer.validateClaimRequest, Relayer.validateClaimValues, Except.bind_ok_iff] at h
  obtain ⟨_, ⟨_, hs, _⟩, _⟩ := h
  by_contra ha
  simp [Relayer.validateSwapCreator, ha, ho] at hs

theorem validateClaimRequest_missing (hs : r.swap = none) :
    validateClaimRequest rec check { r with swapCreator := addr } ourAddress salt addr =
      .error .panicked := by
  simp only [validateClaimRequest, validateSwapCreator, if_true, hs]
  rfl

-- All checks before the one of the fee pass.
theorem validateClaimRequest_feeless {swap : SwapCreatorSwap} (hs : r.swap = some swap)
    (hf : r.fee = none) (hc : r.swapCreator = addr) (ha : swap.asset = native)
    (hv : relayerFeeWei < swap.value)
    (hr : r.relayerHash = relayerAddressHash rec ourAddress salt) :
    validateClaimRequest rec check r ourAddress salt addr = .error .panicked := by
  have hv : ¬relayerFeeWei ≥ swap.value := not_le.mpr hv
  simp only [validateClaimRequest, validateSwapCreator, Except.failIf, nonNil, bind, Except.bind,
    Option.elim, hs, hf, hc, ha, hr, hv, ne_eq, not_true, if_true, if_false]

end Validate

section Runs

variable (cfg : Config) (is : List Input) (c : Call)

-- At some moment the node has been the taker of this swap, with this peer as the maker.
def Partner (peer : PeerID) (id : Bytes32) : Prop :=
  Once (step cfg) (fun s => ∃ info, s.ongoing.lookup id = some info ∧ info.isTaker ∧
    peer = info.peerID) is {}

-- At some moment the contract of this swap was recorded, and it is the one of the request.
def Recorded (id : Bytes32) : Prop :=
  Once (step cfg) (fun s => ∃ info swap, s.recoveryDB.getContractSwapInfo id = .ok info ∧
    c.request.swap = some swap ∧ info.swapID = swap.swapID cfg.recovery.host) is {}

-- At some moment some contract of this swap was recorded.
def Noted (id : Bytes32) : Prop :=
  Once (step cfg) (fun s => ∃ info, s.recoveryDB.getContractSwapInfo id = .ok info) is {}

-- Why the node relays a claim.
inductive Granted : Prop
  | relayer (ho : c.request.offerID = none) (h : cfg.isRelayer)
  | taker (id : Bytes32) (ho : c.request.offerID = some id) (hp : Partner cfg is c.peer id)
    (hr : Recorded cfg is c id)

-- What is known when a call has come to some phase.
def Stands : Phase → Prop
  | .started id | .ongoing id => c.request.offerID = some id
  | .partner id               => c.request.offerID = some id ∧ Partner cfg is c.peer id
  | .authorized | .read _     => Granted cfg is c
  | .returning | .finished    => True

-- A call that ends the process.
structure Fatal : Prop where
  missing : c.request.complete? = none
  granted : cfg.isRelayer ∧ c.request.offerID = none ∨
    ∃ id, c.request.offerID = some id ∧ Partner cfg is c.peer id ∧ Noted cfg is id

structure Inv (s : State) : Prop where
  stands    : ∀ i c, s.calls[i]? = some c → Stands cfg is c (s.phase i)
  submitted : ∀ i ∈ s.submitted, ∃ c req salt, s.calls[i]? = some c ∧ Granted cfg is c ∧
    c.request.complete? = some req ∧ Relayer.validateClaimRequest cfg.recovery cfg.checkCode req
      cfg.ourAddress salt cfg.swapCreatorAddr = .ok ()
  crashed   : s.crashed → ∃ c ∈ s.calls, Fatal cfg is c

variable {cfg is c} {is' : List Input} {s : State} {i : ℕ} {id : Bytes32} {ok : Bool}

theorem Granted.append (h : Granted cfg is c) : Granted cfg (is ++ is') c := by
  cases h
  case relayer ho hr     => exact .relayer ho hr
  case taker id ho hp hr => exact .taker id ho hp.append hr.append

theorem Stands.append {p : Phase} (h : Stands cfg is c p) : Stands cfg (is ++ is') c p := by
  cases p
  case partner id      => exact ⟨h.left, h.right.append⟩
  case authorized      => exact Granted.append h
  case read            => exact Granted.append h
  all_goals exact h

theorem Fatal.append (h : Fatal cfg is c) : Fatal cfg (is ++ is') c := by
  refine ⟨h.missing, h.granted.imp_right ?_⟩
  rintro ⟨id, ho, hp, hn⟩
  exact ⟨id, ho, hp.append, hn.append⟩

theorem Granted.fatal (h : Granted cfg is c) (hm : c.request.complete? = none) :
    Fatal cfg is c := by
  refine ⟨hm, ?_⟩
  cases h
  case relayer ho hr     => exact .inl ⟨hr, ho⟩
  case taker id ho hp hr =>
    refine .inr ⟨id, ho, hp, hr.mono ?_⟩
    rintro s ⟨info, _, hi, _⟩
    exact ⟨info, hi⟩

theorem Inv.append (h : Inv cfg is s) : Inv cfg (is ++ is') s where
  stands i c hc     := (h.stands i c hc).append
  submitted i hi    := by
    obtain ⟨c, req, salt, hc, hg, hr⟩ := h.submitted i hi
    exact ⟨c, req, salt, hc, hg.append, hr⟩
  crashed hx        := by
    obtain ⟨c, hc, hf⟩ := h.crashed hx
    exact ⟨c, hc, hf.append⟩

theorem Inv.goto {p : Phase} (h : Inv cfg is s) (hc : s.calls[i]? = some c)
    (hp : Stands cfg is c p) : Inv cfg is (s.goto i p) where
  stands j c' hj := by
    by_cases hi : j = i
    · subst hi
      obtain rfl := Option.some.inj <| hc.symm.trans hj
      simpa [State.goto] using hp
    · simpa [State.goto, hi] using h.stands j c' hj
  submitted      := h.submitted
  crashed        := h.crashed

theorem Inv.crash (h : Inv cfg is s) (hc : s.calls[i]? = some c) (hf : Fatal cfg is c) :
    Inv cfg is { s with crashed := true } where
  stands    := h.stands
  submitted := h.submitted
  crashed _ := ⟨c, List.mem_of_getElem? hc, hf⟩

theorem Inv.validateAndSend {salt : BitVec 32} (h : Inv cfg is s) (hc : s.calls[i]? = some c)
    (hg : Granted cfg is c) : Inv cfg is (s.validateAndSend cfg i c.request salt ok) := by
  simp only [State.validateAndSend]
  split
  case h_1 hv => exact h.crash hc <| hg.fatal <| complete?_eq_none_of_panicked hv
  case h_2    => exact h.goto hc trivial
  case h_3 hv =>
    split
    case isFalse => exact h.goto hc trivial
    case isTrue  =>
      have hi := h.goto hc (p := .returning) trivial
      refine ⟨hi.stands, fun j hj => ?_, hi.crashed⟩
      rcases List.mem_append.mp hj with hj | hj
      · exact h.submitted j hj
      · obtain rfl := List.mem_singleton.mp hj
        obtain ⟨req, hr, hv⟩ := validateClaimRequest_ok hv
        exact ⟨c, req, salt, hc, hg, hr, hv⟩

theorem Inv.checkSwapID {info : EthereumSwapInfo} (h : Inv cfg is s)
    (hs : Machine.run (step cfg) is {} = s)
    (hc : s.calls[i]? = some c) (ho : c.request.offerID = some id)
    (hp : Partner cfg is c.peer id) (hr : s.recoveryDB.getContractSwapInfo id = .ok info) :
    Inv cfg is (s.checkSwapID cfg i c.request info) := by
  simp only [State.checkSwapID]
  split
  case h_1 hn =>
    refine h.crash hc ⟨by simp [ClaimRequest.complete?, hn], .inr ⟨id, ho, hp, .now ?_⟩⟩
    rw [hs]
    exact ⟨info, hr⟩
  case h_2 swap hn =>
    split
    case isFalse   => exact h.goto hc trivial
    case isTrue he =>
      refine h.goto hc <| .taker id ho hp <| .now ?_
      rw [hs]
      exact ⟨info, swap, hr, hn, he⟩

theorem Inv.resume (h : Inv cfg is s) (hs : Machine.run (step cfg) is {} = s)
    (hc : s.calls[i]? = some c) : Inv cfg is (s.resume cfg i ok c) := by
  have hp := h.stands i c hc
  simp only [State.resume]
  split
  case h_1 id he =>
    rw [he] at hp
    split
    case isTrue  => exact h.goto hc hp
    case isFalse => exact h.goto hc trivial
  case h_2 id he =>
    rw [he] at hp
    split
    case h_1         => exact h.goto hc trivial
    case h_2 info hl =>
      split
      case isFalse   => exact h.goto hc trivial
      case isTrue ht =>
        refine h.goto hc ⟨hp, .now ?_⟩
        rw [hs]
        exact ⟨info, hl, ht⟩
  case h_3 id he =>
    rw [he] at hp
    split
    case h_1 info hr => exact h.checkSwapID hs hc hp.left hp.right hr
    case h_2         => exact h.goto hc trivial
  case h_4 he =>
    rw [he] at hp
    exact h.goto hc hp
  case h_5 salt he =>
    rw [he] at hp
    exact h.validateAndSend hc hp
  case h_6 =>
    have hi := h.goto hc (p := .finished) trivial
    exact ⟨hi.stands, hi.submitted, hi.crashed⟩
  case h_7 => exact h

theorem Inv.addCall {p : Phase} (h : Inv cfg is s) (hp : Stands cfg is c p) :
    Inv cfg is (State.goto { s with calls := s.calls ++ [c] } s.calls.length p) := by
  have hl : ∀ {j : ℕ} {c' : Call}, s.calls[j]? = some c' → (s.calls ++ [c])[j]? = some c' := by
    intro j c' hj
    rw [List.getElem?_append_left (List.getElem?_eq_some_iff.mp hj).fst, hj]
  refine ⟨fun j c' hj => ?_, fun j hj => ?_, fun hx => ?_⟩
  · by_cases hn : j = s.calls.length
    · subst hn
      simp only [State.goto, List.getElem?_concat_length, Option.some.injEq] at hj
      simpa [State.goto, ← hj] using hp
    · have hc : s.calls[j]? = some c' := by
        simp only [State.goto, List.getElem?_append] at hj
        split at hj
        case isTrue  => exact hj
        case isFalse => simp [show j - s.calls.length ≠ 0 by omega] at hj
      simpa [State.goto, hn] using h.stands j c' hc
  · obtain ⟨c', req, salt, hc, hg⟩ := h.submitted j hj
    exact ⟨c', req, salt, hl hc, hg⟩
  · obtain ⟨c', hc, hf⟩ := h.crashed hx
    exact ⟨c', List.mem_append_left _ hc, hf⟩

theorem Inv.handleRelayStream {peer : PeerID} {request : ClaimRequest} (h : Inv cfg is s) :
    Inv cfg is (s.handleRelayStream cfg peer request) := by
  simp only [State.handleRelayStream]
  split
  case h_1 ho =>
    split
    case isTrue hr => exact h.addCall <| .relayer ho hr
    case isFalse   => exact h
  case h_2 id ho => exact h.addCall ho

theorem inv_step (h : Inv cfg is s) (hs : Machine.run (step cfg) is {} = s) (i : Input) :
    Inv cfg is (step cfg s i) := by
  simp only [step]
  split
  case isTrue  => exact h
  case isFalse =>
    cases i
    case relayerQueryStream peer salt =>
      simp only [State.handleRelayerQueryStream]
      cases salt
      case none      => exact h
      case some salt => dsimp only; split <;> exact ⟨h.stands, h.submitted, h.crashed⟩
    case relayStream => exact h.handleRelayStream
    case resume i ok =>
      dsimp only
      cases hc : s.calls[i]?
      case none   => exact h
      case some c => exact h.resume hs hc
    all_goals exact ⟨h.stands, h.submitted, h.crashed⟩

theorem inv_run : Inv cfg is (run cfg is {}) := by
  refine run_history (I := Inv cfg) ⟨by simp, by simp, by simp⟩ fun is i h => ?_
  exact (inv_step h rfl i).append

end Runs

-- A node only submits a claim if it is a relayer, or for the maker of a swap in which it has been
-- the taker. That peer can only make it claim this very swap, at the contract of the node.
theorem relay_authority (cfg : Config) (is : List Input) :
    ∀ i ∈ (run cfg is {}).submitted, ∃ c req, (run cfg is {}).calls[i]? = some c ∧
      c.request.complete? = some req ∧
      (cfg.isRelayer ∧ req.offerID = none ∨ ∃ id, req.offerID = some id ∧
        Partner cfg is c.peer id ∧ Recorded cfg is c id ∧
        req.relaySwap.swapCreator = cfg.swapCreatorAddr) := by
  intro i hi
  obtain ⟨c, req, salt, hc, hg, hr, hv⟩ := inv_run.submitted i hi
  have ho : req.offerID = c.request.offerID := by
    obtain ⟨swap, fee, -, -, rfl⟩ := ClaimRequest.complete?_eq_some.mp hr
    rfl
  refine ⟨c, req, hc, hr, ?_⟩
  cases hg
  case relayer hn h     => exact .inl ⟨h, ho.trans hn⟩
  case taker id hs hp h =>
    refine .inr ⟨id, ho.trans hs, hp, h, swapCreator_eq_of_offerID hv ?_⟩
    rw [ho, hs]
    rfl

-- A taker, which is not a relayer, and the maker of its swap.
namespace TakerSample

def config : Config where
  recovery        := Sample.recovery
  checkCode _     := true
  ourAddress      := 0x4E1A7E
  swapCreatorAddr := 0x5C
  isRelayer       := false

def request : RelayClaimRequest :=
  { Sample.requestFor (10 ^ 16) with offerID := some 9 }

def record : EthereumSwapInfo where
  startNumber     := 1
  swapID          := request.relaySwap.swap.swapID config.recovery.host
  swap            := request.relaySwap.swap
  swapCreatorAddr := 0x5C

def inputs : List Input :=
  [.addSwap 9 ⟨2, .eth⟩, .putContractSwapInfo 9 record, .relayerQueryStream 2 (some 7),
    .relayStream 2 (.ofComplete request), .resume 0 true, .resume 0 true, .completeOngoingSwap 9,
    .resume 0 true, .resume 0 true, .resume 0 true]

end TakerSample

theorem relay_authority_taker :
    ∃ c req, (run TakerSample.config TakerSample.inputs {}).calls[0]? = some c ∧
      c.request.complete? = some req ∧
      (TakerSample.config.isRelayer ∧ req.offerID = none ∨ ∃ id, req.offerID = some id ∧
        Partner TakerSample.config TakerSample.inputs c.peer id ∧
        Recorded TakerSample.config TakerSample.inputs c id ∧
        req.relaySwap.swapCreator = 0x5C) := by
  have hs : (run TakerSample.config TakerSample.inputs {}).submitted = [0] := by decide +kernel
  exact relay_authority TakerSample.config TakerSample.inputs 0 (by rw [hs]; decide)

section Crash

variable {cfg : Config} {s : State} {peer : PeerID}

-- A request without a swap and a fee.
def emptyRequest (cfg : Config) (offerID : Option Bytes32) : ClaimRequest where
  offerID     := offerID
  swap        := none
  fee         := none
  relayerHash := 0
  swapCreator := cfg.swapCreatorAddr
  secret      := 0
  signature   := ⟨0, 0, 0⟩

def crashing (cfg : Config) (s : State) (peer : PeerID) (offerID : Option Bytes32) : List Input :=
  .relayStream peer (emptyRequest cfg offerID) ::
    List.replicate 3 (.resume s.calls.length true)

theorem relayer_crashes (hs : s.crashed = false) (hr : cfg.isRelayer) :
    (run cfg (crashing cfg s peer none) s).crashed := by
  have hv : ∀ salt, validateClaimRequest cfg.recovery cfg.checkCode (emptyRequest cfg none)
      cfg.ourAddress salt cfg.swapCreatorAddr = .error .panicked :=
    fun _ => validateClaimRequest_missing (r := emptyRequest cfg none) rfl
  have ho : (emptyRequest cfg none).offerID = none := rfl
  simp [run, Machine.run, crashing, List.replicate, step, hs, State.handleRelayStream, ho, hr,
    State.goto, State.resume, State.validateAndSend, hv]

theorem taker_crashes {id : Bytes32} {info : Snapshot} {record : EthereumSwapInfo}
    (hs : s.crashed = false) (hl : s.ongoing.lookup id = some info) (ht : info.isTaker)
    (hp : peer = info.peerID) (hr : s.recoveryDB.getContractSwapInfo id = .ok record) :
    (run cfg (crashing cfg s peer (some id)) s).crashed := by
  have hm : id ∈ s.ongoing := AList.lookup_isSome.mp (by rw [hl]; rfl)
  have ho : (emptyRequest cfg (some id)).offerID = some id := rfl
  have hn : (emptyRequest cfg (some id)).swap = none := rfl
  simp [run, Machine.run, crashing, List.replicate, step, hs, State.handleRelayStream, ho,
    State.goto, State.resume, State.checkSwapID, hm, hl, ht, hp, hr, hn]

-- A request that lacks the fee only.
def feelessRequest (cfg : Config) (offerID : Option Bytes32) (swap : SwapCreatorSwap)
    (salt : BitVec 32) : ClaimRequest :=
  { emptyRequest cfg offerID with swap, relayerHash := cfg.addressHash salt }

section Feeless

variable {swap : SwapCreatorSwap} {salt : BitVec 32}

theorem feeless_panics (cfg : Config) (salt : BitVec 32) (offerID : Option Bytes32)
    (ha : swap.asset = native) (hv : relayerFeeWei < swap.value) :
    validateClaimRequest cfg.recovery cfg.checkCode (feelessRequest cfg offerID swap salt)
      cfg.ourAddress salt cfg.swapCreatorAddr = .error .panicked :=
  validateClaimRequest_feeless rfl rfl rfl ha hv rfl

theorem relayer_crashes_feeless (hs : s.crashed = false) (hr : cfg.isRelayer)
    (hq : s.relayerHash (cfg.addressHash salt) = some salt) (ha : swap.asset = native)
    (hv : relayerFeeWei < swap.value) :
    (run cfg (.relayStream peer (feelessRequest cfg none swap salt) ::
      List.replicate 5 (.resume s.calls.length true)) s).crashed := by
  have hp := feeless_panics cfg salt none ha hv
  have ho : (feelessRequest cfg none swap salt).offerID = none := rfl
  have hh : (feelessRequest cfg none swap salt).relayerHash = cfg.addressHash salt := rfl
  simp [run, Machine.run, List.replicate, step, hs, State.handleRelayStream, ho, hr, State.goto,
    State.resume, State.validateAndSend, hh, hq, hp]

theorem taker_crashes_feeless {id : Bytes32} {info : Snapshot} {record : EthereumSwapInfo}
    (hs : s.crashed = false) (hl : s.ongoing.lookup id = some info) (ht : info.isTaker)
    (hp : peer = info.peerID) (hr : s.recoveryDB.getContractSwapInfo id = .ok record)
    (hi : record.swapID = swap.swapID cfg.recovery.host)
    (hq : s.relayerHash (cfg.addressHash salt) = some salt) (ha : swap.asset = native)
    (hv : relayerFeeWei < swap.value) :
    (run cfg (.relayStream peer (feelessRequest cfg (some id) swap salt) ::
      List.replicate 5 (.resume s.calls.length true)) s).crashed := by
  have hx := feeless_panics cfg salt (some id) ha hv
  have hm : id ∈ s.ongoing := AList.lookup_isSome.mp (by rw [hl]; rfl)
  have ho : (feelessRequest cfg (some id) swap salt).offerID = some id := rfl
  have hh : (feelessRequest cfg (some id) swap salt).relayerHash = cfg.addressHash salt := rfl
  have hn : (feelessRequest cfg (some id) swap salt).swap = some swap := rfl
  simp [run, Machine.run, List.replicate, step, hs, State.handleRelayStream, ho, State.goto,
    State.resume, State.checkSwapID, State.validateAndSend, hm, hl, ht, hp, hr, hn, hi, hh, hq, hx]

end Feeless

end Crash

-- Requests without a swap or a fee can end the process. Any peer can send one to a relayer, and the
-- maker of a swap to its taker once the contract swap is recorded. Nobody else can end the process,
-- and no request with all members. A request that lacks the fee only does so if it passes the
-- checks before the one of the fee, for which the node must have answered a query.
theorem incomplete_request_crashes (cfg : Config) :
    (∀ is, (run cfg is {}).crashed → ∃ c ∈ (run cfg is {}).calls, c.request.complete? = none ∧
      (cfg.isRelayer ∧ c.request.offerID = none ∨
        ∃ id, c.request.offerID = some id ∧ Partner cfg is c.peer id ∧ Noted cfg is id)) ∧
    ∀ s : State, ∀ peer, s.crashed = false →
      ((cfg.isRelayer ∨ ∃ id info record, s.ongoing.lookup id = some info ∧ info.isTaker ∧
        peer = info.peerID ∧ s.recoveryDB.getContractSwapInfo id = .ok record) →
      ∃ request : ClaimRequest, request.complete? = none ∧
        (run cfg (.relayStream peer request :: List.replicate 3 (.resume s.calls.length true))
          s).crashed) ∧
      ∀ swap : SwapCreatorSwap, ∀ salt, s.relayerHash (cfg.addressHash salt) = some salt →
        swap.asset = native → relayerFeeWei < swap.value →
        (cfg.isRelayer ∨ ∃ id info record, s.ongoing.lookup id = some info ∧ info.isTaker ∧
          peer = info.peerID ∧ s.recoveryDB.getContractSwapInfo id = .ok record ∧
          record.swapID = swap.swapID cfg.recovery.host) →
        ∃ request : ClaimRequest, request.swap = some swap ∧ request.fee = none ∧
          (run cfg (.relayStream peer request :: List.replicate 5 (.resume s.calls.length true))
            s).crashed := by
  refine ⟨fun is hx => ?_, fun s peer hs => ⟨?_, fun swap salt hq ha hv => ?_⟩⟩
  · obtain ⟨c, hc, hf⟩ := inv_run.crashed hx
    exact ⟨c, hc, hf.missing, hf.granted⟩
  · rintro (hr | ⟨id, info, record, hl, ht, hp, hr⟩)
    · exact ⟨emptyRequest cfg none, rfl, relayer_crashes hs hr⟩
    · exact ⟨emptyRequest cfg (some id), rfl, taker_crashes hs hl ht hp hr⟩
  · rintro (hr | ⟨id, info, record, hl, ht, hp, hr, hi⟩)
    · exact ⟨_, rfl, rfl, relayer_crashes_feeless hs hr hq ha hv⟩
    · exact ⟨_, rfl, rfl, taker_crashes_feeless hs hl ht hp hr hi hq ha hv⟩

theorem incomplete_request_crashes_taker :
    let s := run TakerSample.config (TakerSample.inputs.take 3) {}
    (∃ request : ClaimRequest, request.complete? = none ∧
      (run TakerSample.config (.relayStream 2 request :: List.replicate 3 (.resume 0 true))
        s).crashed) ∧
    ∃ request : ClaimRequest, request.swap = some TakerSample.record.swap ∧ request.fee = none ∧
      (run TakerSample.config (.relayStream 2 request :: List.replicate 5 (.resume 0 true))
        s).crashed := by
  obtain ⟨he, hf⟩ := (incomplete_request_crashes TakerSample.config).right
    (run TakerSample.config (TakerSample.inputs.take 3) {}) 2 rfl
  refine ⟨he <| .inr ⟨9, ⟨2, .eth⟩, TakerSample.record, rfl, rfl, rfl, rfl⟩, ?_⟩
  refine hf TakerSample.record.swap 7 (by decide) rfl (by decide) <|
    .inr ⟨9, ⟨2, .eth⟩, TakerSample.record, rfl, rfl, rfl, rfl, rfl⟩

end Relay
