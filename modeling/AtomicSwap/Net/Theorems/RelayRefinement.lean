import AtomicSwap.Net.Theorems.Relay

open Ethereum Ethereum.SwapCreator Function Machine Relayer

-- A node with its streams behaves as the backend does on its own, if the answer of the checks for a
-- taker is taken as an input.
namespace Relay

def zeroSwap : SwapCreatorSwap :=
  ⟨0, 0, 0, 0, 0, 0, native, 0, 0⟩

-- Missing integers are zero here.
def ClaimRequest.full (r : ClaimRequest) : RelayClaimRequest :=
  r.filled (r.swap.getD zeroSwap) (r.fee.getD 0)

def Phase.backend : Phase → Backend.Phase
  | .started _ | .ongoing _ | .partner _ | .authorized => .started
  | .read salt                                         => .read salt
  | .returning                                         => .returning
  | .finished                                          => .finished

structure Refines (s : State) (b : Backend.State) : Prop where
  relayerHash : b.relayerHash = s.relayerHash
  requests    : b.requests = s.calls.map (·.request.full)
  phase       : ∀ i < s.calls.length, b.phase i = (s.phase i).backend
  fresh       : ∀ i, s.calls.length ≤ i → b.phase i = .started
  submitted   : b.submitted = s.submitted

section Validate

variable {α β : Type} {rec : Recovery} {check : Address → Bool} {r : ClaimRequest}
  {ourAddress addr : Address} {salt : BitVec 32}

-- The same result, unless there is a panic.
def Agrees (x : Except Fault α) (y : Except Relayer.Error α) : Prop :=
  x = y.mapError .rejected ∨ x = .error .panicked

theorem Agrees.bind {x : Except Fault α} {y : Except Relayer.Error α} {f : α → Except Fault β}
    {g : α → Except Relayer.Error β} (hx : Agrees x y) (hf : ∀ a, Agrees (f a) (g a)) :
    Agrees (x >>= f) (y >>= g) := by
  rcases hx with rfl | rfl
  · cases y
    case error => exact .inl rfl
    case ok a  => exact hf a
  · exact .inr rfl

-- A request is rejected for the same reason whether or not an integer is missing that has not been
-- read before.
theorem validateClaimRequest_full : Agrees (validateClaimRequest rec check r ourAddress salt addr)
    (Relayer.validateClaimRequest rec check r.full ourAddress salt addr) := by
  rw [validateClaimRequest, Relayer.validateClaimRequest, Relayer.validateClaimValues]
  simp only [bind_assoc]
  refine .bind (.inl validateSwapCreator_eq) fun _ => ?_
  cases hs : r.swap
  case none      => exact .inr rfl
  case some swap =>
    have hr : r.full = r.filled swap (r.fee.getD 0) := by rw [ClaimRequest.full, hs]; rfl
    rw [hr]
    refine .bind (.inl failIf_eq_mapError) fun _ => ?_
    refine .bind (.inl failIf_eq_mapError) fun _ => ?_
    refine .bind (.inl failIf_eq_mapError) fun _ => ?_
    cases r.fee
    case none     => exact .inr rfl
    case some fee => exact .bind (.inl failIf_eq_mapError) fun _ => .inl rfl

end Validate

section Steps

variable {cfg : Config} {s : State} {b : Backend.State} {i : ℕ} {c : Call} {p : Phase}

theorem Refines.goto (h : Refines s b) (hi : i < s.calls.length) :
    Refines (s.goto i p) { b with phase := update b.phase i p.backend } where
  relayerHash  := h.relayerHash
  requests     := h.requests
  phase j hj   := by
    by_cases hij : j = i
    · simp [State.goto, hij]
    · simpa [State.goto, hij] using h.phase j hj
  fresh j hj   := by
    have hij : j ≠ i := by
      rintro rfl
      exact absurd hi hj.not_gt
    simpa [State.goto, hij] using h.fresh j hj
  submitted    := h.submitted

-- Steps of the checks for a taker are no steps of the backend, unless they fail.
theorem Refines.pass (h : Refines s b) (hi : i < s.calls.length)
    (hp : p.backend = (s.phase i).backend) : Refines (s.goto i p) b := by
  have hg := h.goto (p := p) hi
  rwa [hp, ← h.phase i hi, update_eq_self] at hg

theorem Refines.getElem? (h : Refines s b) (hc : s.calls[i]? = some c) :
    b.requests[i]? = some c.request.full := by
  rw [h.requests, List.getElem?_map, hc]
  rfl

theorem Refines.fail (h : Refines s b) (hc : s.calls[i]? = some c)
    (hp : (s.phase i).backend = .started) :
    Refines (s.goto i .returning) (Backend.lookUp b i false) := by
  have hi := (List.getElem?_eq_some_iff.mp hc).fst
  have hb : b.phase i = .started := (h.phase i hi).trans hp
  simp only [Backend.lookUp, h.getElem? hc, hb]
  exact h.goto hi

theorem Refines.lookUp (h : Refines s b) (hc : s.calls[i]? = some c)
    (hp : (s.phase i).backend = .started) :
    Refines (s.goto i (.read <| (s.relayerHash c.request.relayerHash).getD 0))
      (Backend.lookUp b i true) := by
  have hi := (List.getElem?_eq_some_iff.mp hc).fst
  have hb : b.phase i = .started := (h.phase i hi).trans hp
  have hg := h.goto (p := .read <| (s.relayerHash c.request.relayerHash).getD 0) hi
  rw [← h.relayerHash] at hg ⊢
  simp only [Backend.lookUp, h.getElem? hc, hb]
  exact hg

theorem Refines.clear (h : Refines s b) (hc : s.calls[i]? = some c)
    (hp : (s.phase i).backend = .returning) :
    Refines { s.goto i .finished with
      relayerHash := update s.relayerHash c.request.relayerHash none }
      (Backend.clearRelayerAddressHash b i) := by
  have hi := (List.getElem?_eq_some_iff.mp hc).fst
  have hb : b.phase i = .returning := (h.phase i hi).trans hp
  have hg := h.goto (p := .finished) hi
  simp only [Backend.clearRelayerAddressHash, h.getElem? hc, hb, h.relayerHash]
  exact ⟨rfl, hg.requests, hg.phase, hg.fresh, hg.submitted⟩

theorem Refines.validateAndSend {salt : BitVec 32} {ok : Bool} (h : Refines s b)
    (hc : s.calls[i]? = some c) (hp : (s.phase i).backend = .read salt)
    (hx : (s.validateAndSend cfg i c.request salt ok).crashed = false) :
    Refines (s.validateAndSend cfg i c.request salt ok)
      (Backend.validateAndSend cfg.toConfig b i ok) := by
  have hi := (List.getElem?_eq_some_iff.mp hc).fst
  have hb : b.phase i = .read salt := (h.phase i hi).trans hp
  have hg := h.goto (p := .returning) hi
  have hv : Agrees (validateClaimRequest cfg.recovery cfg.checkCode c.request cfg.ourAddress salt
      cfg.swapCreatorAddr) (Relayer.validateClaimRequest cfg.recovery cfg.checkCode c.request.full
      cfg.ourAddress salt cfg.swapCreatorAddr) := validateClaimRequest_full
  simp only [Backend.validateAndSend, h.getElem? hc, hb]
  simp only [State.validateAndSend] at hx ⊢
  cases he : validateClaimRequest cfg.recovery cfg.checkCode c.request cfg.ourAddress salt
    cfg.swapCreatorAddr
  case error e =>
    rw [he] at hv hx
    cases e
    case panicked   => simp at hx
    case rejected e =>
      have hr : Relayer.validateClaimRequest cfg.recovery cfg.checkCode c.request.full
          cfg.ourAddress salt cfg.swapCreatorAddr ≠ .ok () := by
        intro hr
        simp [Agrees, hr] at hv
      simp only [hr, false_and, if_false]
      exact hg
  case ok =>
    have hr : Relayer.validateClaimRequest cfg.recovery cfg.checkCode c.request.full
        cfg.ourAddress salt cfg.swapCreatorAddr = .ok () := by
      rw [he] at hv
      exact Except.mapError_eq_ok.mp (hv.resolve_right (by simp)).symm
    cases ok
    case false =>
      simp only [Bool.false_eq_true, and_false, if_false]
      exact hg
    case true  =>
      simp only [hr, and_self, if_true]
      exact ⟨hg.relayerHash, hg.requests, hg.phase, hg.fresh, by rw [h.submitted]⟩

theorem Refines.resume {ok : Bool} (h : Refines s b) (hc : s.calls[i]? = some c)
    (hx : (s.resume cfg i ok c).crashed = false) :
    ∃ js, Refines (s.resume cfg i ok c) (Machine.run (Backend.step cfg.toConfig) js b) := by
  have hi := (List.getElem?_eq_some_iff.mp hc).fst
  simp only [State.resume] at hx ⊢
  split
  case h_1 id he =>
    have hp : (s.phase i).backend = .started := by rw [he]; rfl
    split
    case isTrue  => exact ⟨[], h.pass hi hp.symm⟩
    case isFalse => exact ⟨[.lookUp i false], h.fail hc hp⟩
  case h_2 id he =>
    have hp : (s.phase i).backend = .started := by rw [he]; rfl
    split
    case h_1 => exact ⟨[.lookUp i false], h.fail hc hp⟩
    case h_2 =>
      split
      case isTrue  => exact ⟨[], h.pass hi hp.symm⟩
      case isFalse => exact ⟨[.lookUp i false], h.fail hc hp⟩
  case h_3 id he =>
    have hp : (s.phase i).backend = .started := by rw [he]; rfl
    simp only [he] at hx
    split
    case h_2 => exact ⟨[.lookUp i false], h.fail hc hp⟩
    case h_1 info hr =>
      simp only [hr, State.checkSwapID] at hx ⊢
      cases hw : c.request.swap
      case none      => simp [hw] at hx
      case some swap =>
        dsimp only
        split
        case isTrue  => exact ⟨[], h.pass hi hp.symm⟩
        case isFalse => exact ⟨[.lookUp i false], h.fail hc hp⟩
  case h_4 he      => exact ⟨[.lookUp i true], h.lookUp hc (by rw [he]; rfl)⟩
  case h_5 salt he =>
    simp only [he] at hx
    exact ⟨[.validateAndSend i ok], h.validateAndSend hc (by rw [he]; rfl) hx⟩
  case h_6 he      => exact ⟨[.clearRelayerAddressHash i], h.clear hc (by rw [he]; rfl)⟩
  case h_7         => exact ⟨[], h⟩

theorem Refines.addCall (h : Refines s b) (hp : p.backend = .started) :
    Refines (State.goto { s with calls := s.calls ++ [c] } s.calls.length p)
      { b with requests := b.requests ++ [c.request.full] } where
  relayerHash  := h.relayerHash
  requests     := by simp [State.goto, h.requests]
  phase j hj   := by
    by_cases hn : j = s.calls.length
    · rw [hn]
      simpa [State.goto, hp] using h.fresh _ le_rfl
    · have hl : j < s.calls.length := by
        simp only [State.goto, List.length_append, List.length_singleton] at hj
        omega
      simpa [State.goto, hn] using h.phase j hl
  fresh j hj   := by
    simp only [State.goto, List.length_append, List.length_singleton] at hj
    exact h.fresh j (by omega)
  submitted    := h.submitted

theorem refines_step (h : s.crashed = false → Refines s b) (i : Input) :
    ∃ js, (step cfg s i).crashed = false →
      Refines (step cfg s i) (Machine.run (Backend.step cfg.toConfig) js b) := by
  by_cases hs : s.crashed
  · exact ⟨[], fun hx => absurd hx (by simp [step, hs])⟩
  have h := h (by simpa using hs)
  simp only [step, hs, Bool.false_eq_true, if_false]
  cases i
  case relayerQueryStream peer salt =>
    cases salt
    case none      => exact ⟨[], fun _ => h⟩
    case some salt =>
      simp only [State.handleRelayerQueryStream]
      split
      case isFalse => exact ⟨[], fun _ => h⟩
      case isTrue  =>
        refine ⟨[.getRelayerAddressHash (some salt)], fun _ => ?_⟩
        refine ⟨?_, h.requests, h.phase, h.fresh, h.submitted⟩
        exact congrArg (update · _ _) h.relayerHash
  case relayStream peer request =>
    simp only [State.handleRelayStream]
    split
    case h_2 => exact ⟨[.handleRelayClaimRequest request.full], fun _ => h.addCall rfl⟩
    case h_1 =>
      split
      case isTrue  => exact ⟨[.handleRelayClaimRequest request.full], fun _ => h.addCall rfl⟩
      case isFalse => exact ⟨[], fun _ => h⟩
  case resume i ok =>
    dsimp only
    cases hc : s.calls[i]?
    case none   => exact ⟨[], fun _ => h⟩
    case some c =>
      by_cases hx : (s.resume cfg i ok c).crashed = false
      · obtain ⟨js, hj⟩ := h.resume hc hx
        exact ⟨js, fun _ => hj⟩
      · exact ⟨[], fun h' => absurd h' hx⟩
  all_goals exact ⟨[], fun _ => ⟨h.relayerHash, h.requests, h.phase, h.fresh, h.submitted⟩⟩

end Steps

-- Each run of a node without a crash is a run of the backend with the same calls, salts and
-- submissions, in which a taker knows the swap and the peer of those calls that pass its checks.
theorem relay_refines_backend (cfg : Config) (is : List Input)
    (hx : (run cfg is {}).crashed = false) :
    ∃ js, Refines (run cfg is {}) (Machine.run (Backend.step cfg.toConfig) js {}) := by
  have h₀ : Refines {} {} := ⟨rfl, rfl, by simp, fun _ _ => rfl, rfl⟩
  have hr : ∃ js, (run cfg is {}).crashed = false →
      Refines (run cfg is {}) (Machine.run (Backend.step cfg.toConfig) js {}) :=
    run_simulates (R := fun s b => s.crashed = false → Refines s b)
      (fun _ _ i h => refines_step h i) fun _ => h₀
  obtain ⟨js, hr⟩ := hr
  exact ⟨js, hr hx⟩

theorem relay_refines_backend_taker :
    ∃ js, (Machine.run (Backend.step TakerSample.config.toConfig) js {}).submitted = [0] := by
  have hs : (run TakerSample.config TakerSample.inputs {}).submitted = [0] := by decide +kernel
  obtain ⟨js, hr⟩ := relay_refines_backend TakerSample.config TakerSample.inputs
    (by decide +kernel)
  exact ⟨js, hr.submitted.trans hs⟩

end Relay
