import AtomicSwap.Protocol.XMRMaker.Theorems.Disclosure
import AtomicSwap.Relayer.Theorems.Requests

open Reentrant

namespace Ethereum.SwapCreator

variable {d : Deployment} {S : Set Swap} {block : Block} {late : Prop} {s : State}
  {secret r t : Bytes32} {relaySwap : RelaySwap} {msg : Msg} {relayer : Address} {salt : BitVec 32}
  {v : UInt8} {balances : Ledger Address Address} {txs txs' : List (Block × Act Call)}

theorem State.Secured.claimable {sw : Swap} (h : s.Secured d sw late)
    (hb : InWindow sw late block) (ho : (s.swaps <| swapID d sw).IsOpen)
    (hv : Secp256k1.mulVerify d.host secret sw.claimCommitment) :
    Claimable d block s sw secret := by
  refine ⟨ho, ?_, hb.before, hv⟩
  obtain hr | hc | ⟨hl, _⟩ := h.stage
  · exact .inr hr
  · exact absurd hc (Stage.isOpen_iff.mp ho).right
  · exact .inl <| BitVec.le_of_lt (hb.after hl)

section

variable (inj : CollisionFree d S) (hm : relaySwap.swap ∈ S) (ha : relaySwap.swap.asset = native)
  (hr : Relayable d relaySwap relayer salt v r t) (hg : msg.value = 0)
  (hv : Secp256k1.mulVerify d.host secret relaySwap.swap.claimCommitment)
include inj hm ha hr hg hv

-- In the window a relayed claim succeeds, if nobody has claimed before.
theorem claimRelayer_claims (ht : ∀ tx ∈ txs, tx.snd.All (Call.Admissible d S tx.fst))
    (hs : s = runTxs (step d) txs (.deployed balances)) (hk : s.Secured d relaySwap.swap late)
    (hb : InWindow relaySwap.swap late block) :
    (∃ secret', .claimed (swapID d relaySwap.swap) secret' ∈ s.logs) ∨
    ∃ s', .claimed (swapID d relaySwap.swap) secret ∈ s'.logs ∧
      exec (step d block) ⟨.claimRelayer msg relaySwap secret relayer salt v r t, []⟩ s =
        .ok s' := by
  by_cases ho : (s.swaps <| swapID d relaySwap.swap).IsOpen
  case pos =>
    obtain ⟨-, hf⟩ := funded_of_open inj ht hs hm (.inl ha) ho
    obtain ⟨s', he⟩ := claimRelayer_ok (hk.claimable hb ho hv) ha hr hg (ha ▸ hf)
    refine .inr ⟨s', ?_, he⟩
    exact ((step_grows d block).exec_wp (by simp) (step_reveals rfl) he).right
  case neg =>
    have hc : s.swaps (swapID d relaySwap.swap) = .completed := by
      by_contra hc
      exact ho <| Stage.isOpen_iff.mpr ⟨hk.ne_invalid, hc⟩
    subst hs
    cases settledBy inj ht hm hc
    case claim secret' hl _  => exact .inl ⟨secret', hl⟩
    case refund secret' hl _ => exact absurd hl (hk.kept secret')

-- Once such a transaction is included, the swap was claimed, whatever other transactions there are.
theorem included_claims (ht : ∀ tx ∈ txs, tx.snd.All (Call.Admissible d S tx.fst))
    (hs : s = runTxs (step d) txs (.deployed balances)) (hk : s.Secured d relaySwap.swap late)
    (hw : ∀ tx ∈ txs', tx.snd.All (Call.Admissible d S tx.fst) ∧
      InWindow relaySwap.swap late tx.fst)
    (hi : (block, ⟨.claimRelayer msg relaySwap secret relayer salt v r t, []⟩) ∈ txs') :
    ∃ secret', .claimed (swapID d relaySwap.swap) secret' ∈ (runTxs (step d) txs' s).logs := by
  obtain ⟨before, after, rfl⟩ := List.append_of_mem hi
  have hb : ∀ tx ∈ before, tx.snd.All (Call.Admissible d S tx.fst) ∧
      InWindow relaySwap.swap late tx.fst := fun tx h => hw tx <| List.mem_append_left _ h
  have ht' : ∀ tx ∈ txs ++ before, tx.snd.All (Call.Admissible d S tx.fst) :=
    fun tx h => (List.mem_append.mp h).elim (ht tx) fun h => (hb tx h).left
  rw [runTxs_append]
  obtain ⟨secret', he⟩ | ⟨s', hc, he⟩ := claimRelayer_claims inj hm ha hr hg hv ht'
    (by rw [runTxs_append, ← hs]) (runTxs_secured inj hm hb hk)
    (hw _ <| List.mem_append_right _ <| List.mem_cons_self ..).right
  · exact ⟨secret', (runTxs_grows _).subset he⟩
  · rw [runTxs, he]
    exact ⟨secret, (runTxs_grows after).subset hc⟩

end

end Ethereum.SwapCreator

open Handler Relayer Ethereum Ethereum.SwapCreator

namespace XMRMaker

variable {σ : Type}

-- A peer that relays as the code does, on a node that works: it can pay for the gas, its
-- simulations are right, and its transactions are included while it waits for the receipt. Its
-- response may get lost.
structure HonestRelayer (c : Chain σ) (P : Block → Prop) (rec : Recovery) (w : ClaimEnv σ)
    (p : PeerID) (ec : Ethereum.EthClient σ) (check : Address → Bool) (now : σ → Block) : Prop where
  within    : ec.Within (c.Grows P)
  current   : ∀ x, P (now x)
  apart     : ec.address ≠ c.deployment.this
  funded    : ∀ x, ∃ gasPrice, (Relayer.checkForMinClaimBalance ec x).fst = .ok gasPrice
  txOpts    : ∀ x, (ec.txOpts x).fst = some ()
  simulates : ∀ {call x s'}, exec (step c.deployment <| now x) ⟨call, []⟩ (c.contract x) = .ok s' →
    (ec.callContract c.deployment.this call x).fst = some ()
  included  : ∀ {call}, (∀ block, c.Admits (block, ⟨call, []⟩)) → ∀ x, ∃ tx,
    (ec.transact c.deployment.this call x).fst = .ok tx ∧
    ∃ txs block, (block, ⟨call, []⟩) ∈ txs ∧
      c.history (waitForReceipt ec tx (ec.transact c.deployment.this call x).snd).snd =
        c.history x ++ txs
  answers   : ∀ x, ∃ salt,
    (w.queryRelayerAddress p x).fst = some (relayerAddressHash rec ec.address salt) ∧
    ∀ request, request.relaySwap.relayerHash = relayerAddressHash rec ec.address salt →
      (w.submitRelayRequest p request (w.queryRelayerAddress p x).snd).snd =
        (validateAndSendTransaction ec rec check request c.deployment.this salt
          (w.queryRelayerAddress p x).snd).snd

-- What the maker knows of its swap when it claims.
structure ClaimSwap.Sound (s : ClaimSwap) (c : Chain σ) (rec : Recovery) (w : ClaimEnv σ) :
    Prop where
  id      : s.contractSwapID = swapID c.deployment s.contractSwap.pack
  mem     : s.contractSwap.pack ∈ c.swaps
  addr    : s.swapCreatorAddr = c.deployment.this
  host    : c.deployment.host = rec.host ∧ w.host = rec.host
  key     : w.key.Sound rec
  signs   : ∀ hash, ∃ sig, w.key.sign ((relaySwapOf s hash).hash rec.host) = some sig
  claimer : s.contractSwap.claimer = w.key.address
  apart   : s.contractSwap.claimer ≠ c.deployment.this
  asset   : s.contractSwap.asset = native
  value   : relayerFeeWei < s.contractSwap.value ∧ s.contractSwap.value < 2 ^ 256
  secret  : Secp256k1.mulVerify c.deployment.host s.secret s.contractSwap.pack.claimCommitment

-- Someone has claimed the swap.
def Won (c : Chain σ) (s : ClaimSwap) (x : σ) : Prop :=
  ∃ secret, .claimed s.contractSwapID secret ∈ (c.contract x).logs

-- The swap can be claimed, or it was claimed.
structure Safe (c : Chain σ) (s : ClaimSwap) (late : Prop) (x : σ) : Prop where
  admits  : ∀ tx ∈ c.history x, c.Admits tx
  secured : (c.contract x).Secured c.deployment s.contractSwap.pack late

variable {c : Chain σ} {s : ClaimSwap} {late : Prop} {x x' : σ} {rec : Recovery} {w : ClaimEnv σ}
  {p : PeerID} {P : Block → Prop} {ec : Ethereum.EthClient σ} {check : Address → Bool}
  {now : σ → Block}

theorem Won.grows (h : Won c s x) (hg : c.Grows P x x') : Won c s x' := by
  obtain ⟨secret, h⟩ := h
  exact ⟨secret, hg.mem_logs h⟩

section

variable (inj : CollisionFree c.deployment c.swaps) (hs : s.Sound c rec w)
include inj hs

theorem Safe.grows (h : Safe c s late x) (hg : c.Grows (InWindow s.contractSwap.pack late) x x') :
    Safe c s late x' := by
  refine ⟨hg.admits h.admits, ?_⟩
  obtain ⟨txs, hx, ht⟩ := hg
  rw [Chain.contract, hx, runTxs_append]
  exact runTxs_secured inj hs.mem ht h.secured

section

variable (r : HonestRelayer c (InWindow s.contractSwap.pack late) rec w p ec check now)
  {salt : BitVec 32} {hash a b : Bytes32} {v : UInt8} {call : SwapCreator.Call}
  (hq : Relayable c.deployment (relaySwapOf s hash).pack ec.address salt v a b)
  (hc : call = .claimRelayer ⟨ec.address, 0⟩ (relaySwapOf s hash).pack s.secret ec.address salt
    v a b)
  (h : Safe c s late x)
include r hq hc h

-- A simulation only fails if somebody has claimed before.
theorem simulated_or_won :
    (ec.callContract c.deployment.this call x).fst = some () ∨ Won c s x := by
  have hg : (⟨ec.address, 0⟩ : Msg).value = 0 := rfl
  rw [Won, hs.id]
  obtain hw | ⟨s', _, he⟩ := claimRelayer_claims inj hs.mem hs.asset hq hg hs.secret h.admits rfl
    h.secured (r.current x)
  · exact .inr hw
  · exact .inl <| r.simulates (hc ▸ he)

theorem included_won : ∃ tx, (ec.transact c.deployment.this call x).fst = .ok tx ∧
    Won c s (waitForReceipt ec tx (ec.transact c.deployment.this call x).snd).snd := by
  have ha (block : Block) : c.Admits (block, ⟨call, []⟩) := by
    subst hc
    exact .mk ⟨fun hm => r.apart (List.mem_singleton.mp hm).symm,
      List.forall_mem_singleton.mpr hs.mem⟩ (by simp)
  obtain ⟨tx, htx, txs, block, hi, hh⟩ := r.included ha x
  refine ⟨tx, htx, ?_⟩
  obtain ⟨txs', hh', ht⟩ := (r.within.transact c.deployment.this call x).trans <|
    r.within.waitForReceipt .refl (fun _ _ _ => .trans) tx _
  obtain rfl : txs = txs' := List.append_cancel_left (hh.symm.trans hh')
  rw [Won, Chain.contract, hh, runTxs_append, hs.id]
  subst hc
  have hg : (⟨ec.address, 0⟩ : Msg).value = 0 := rfl
  have hk := included_claims inj hs.mem hs.asset hq hg hs.secret h.admits rfl h.secured ht hi
  exact hk

theorem sendTransaction_won : Won c s (sendTransaction ec c.deployment.this call x).snd := by
  have hw : (sendTransaction ec c.deployment.this call).Post x fun _ => Won c s := by
    rw [sendTransaction, post_askFor_bind]
    refine ⟨fun hn => absurd hn (by simp [r.txOpts]), fun _ _ => ?_⟩
    have h := h.grows inj hs (r.within.txOpts x)
    rw [simulateClaimRelayer, post_askFor_bind]
    have hg := r.within.callContract c.deployment.this call (ec.txOpts x).snd
    refine ⟨fun hn => ?_, fun _ _ => ?_⟩
    · exact ((simulated_or_won inj hs r hq hc h).resolve_left (by simp [hn])).grows hg
    · obtain ⟨tx, htx, hw⟩ := included_won inj hs r hq hc (h.grows inj hs hg)
      rw [post_ask_bind, htx, post_ofExcept_bind]
      refine ⟨by simp [Except.mapError], fun txHash he => ?_⟩
      obtain rfl : tx = txHash := Except.ok.inj he
      exact Post.bind (P := fun _ => Won c s) hw (fun _ _ h => h) fun _ _ h => h
  exact hw

end

section

variable (r : HonestRelayer c (InWindow s.contractSwap.pack late) rec w p ec check now)
  (hw : w.Within (c.Grows <| InWindow s.contractSwap.pack late))
include r

theorem validateAndSendTransaction_won {salt : BitVec 32} {request : RelayClaimRequest}
    (offerID : Option Bytes32)
    (hr : createRelayClaimRequest rec.host w.key
      (relaySwapOf s <| relayerAddressHash rec ec.address salt) s.secret = .ok request)
    (h : Safe c s late x) :
    (validateAndSendTransaction ec rec check { request with offerID } c.deployment.this
      salt).Post x fun _ => Won c s := by
  have hp : Proper rec c.deployment.this ec.address salt
      (relaySwapOf s <| relayerAddressHash rec ec.address salt) :=
    ⟨hs.asset, hs.value, rfl, rfl, hs.addr, hs.apart, r.apart⟩
  have hq := proper_relayable hs.key hr hs.host.left hp
  have hv : validateClaimRequest rec check { request with offerID } ec.address salt
      c.deployment.this = .ok () := proper_validated hs.key hr hp
  obtain ⟨-, sig, -, rfl⟩ := createRelayClaimRequest_eq_ok.mp hr
  have hb : (Relayer.checkForMinClaimBalance ec).Post x fun gasPrice y =>
      Safe c s late y ∧ ∃ n, gasPrice = .ok n :=
    ⟨h.grows inj hs <| Relayer.checkForMinClaimBalance_moves r.within .refl (fun _ _ _ => .trans) x,
      r.funded x⟩
  rw [validateAndSendTransaction, hv, post_ofExcept_bind]
  refine ⟨by simp [Except.mapError], fun _ _ => hb.bind (by simp) fun _ y hy => ?_⟩
  have ht := sendTransaction_won inj hs r hq rfl hy.left
  rw [← hs.addr] at ht
  exact ht

include hw

theorem submitClaimToRelayer_won {offerID : Option Bytes32} (h : Safe c s late x) :
    (submitClaimToRelayer s w p offerID).Post x fun _ => Won c s := by
  obtain ⟨salt, hq, hr⟩ := r.answers x
  rw [submitClaimToRelayer, post_askFor_bind]
  refine ⟨by simp [hq], fun hash ha => ?_⟩
  obtain rfl : hash = relayerAddressHash rec ec.address salt := Option.some.inj (ha.symm.trans hq)
  rw [post_ofExcept_bind, hs.host.right]
  refine ⟨fun e he => ?_, fun request he => ?_⟩
  · obtain ⟨sig, hsig⟩ := hs.signs <| relayerAddressHash rec ec.address salt
    rw [createRelayClaimRequest_eq_ok.mpr ⟨hs.claimer, sig, hsig, rfl⟩] at he
    cases he
  · have he := Except.mapError_eq_ok.mp he
    have hv := validateAndSendTransaction_won inj hs r offerID he <|
      h.grows inj hs (hw.queryRelayerAddress p x)
    obtain ⟨-, sig, -, rfl⟩ := createRelayClaimRequest_eq_ok.mp he
    change Won c s (w.submitRelayRequest p _ _).snd
    rw [hr _ rfl]
    exact hv

-- After an honest relayer was asked, the swap was claimed, whether the maker has seen it or not.
theorem relayClaim_won {offerID : Option Bytes32} (h : Safe c s late x) :
    (relayClaim s w p offerID).Post x fun _ => Won c s := by
  refine (submitClaimToRelayer_won inj hs r hw h).bind (fun _ _ h => h) fun _ _ h => ?_
  exact h.grows <| pollRounds_moves hw .refl (fun _ _ _ => .trans) _

variable (hf : Faithful c (InWindow s.contractSwap.pack late) w.ec)
include hf

-- Relayers that come first may fail, but they cannot make it impossible to claim.
theorem tryRelayers_won {relayers : List PeerID} (hp : p ∈ relayers.filter (· ≠ s.peerID))
    (h : Safe c s late x) : (tryRelayers s w relayers).Post x fun _ => Won c s := by
  induction relayers generalizing x
  case nil            => simp at hp
  case cons q rest hi =>
    rw [tryRelayers]
    by_cases hq : q = s.peerID
    case pos =>
      rw [if_pos hq]
      exact hi (by simpa [hq] using hp) h
    case neg =>
      rw [if_neg hq]
      have hr : (relayClaim s w q none).Post x fun r y =>
          Safe c s late y ∧ ((∃ receipt, r = .ok receipt) ∨ q = p → Won c s y) := by
        refine ⟨h.grows inj hs <| relayClaim_moves hw .refl (fun _ _ _ => .trans) x, ?_⟩
        rintro (⟨receipt, hr⟩ | rfl)
        · exact ⟨s.secret, relayClaim_claimed hf hs.addr (Prod.ext hr rfl)⟩
        · exact relayClaim_won inj hs r hw h
      refine hr.attempt_bind fun r y hy => ?_
      cases r
      case ok receipt => exact hy.right <| .inl ⟨receipt, rfl⟩
      case error      =>
        by_cases hpq : q = p
        case pos =>
          exact (hy.right <| .inr hpq).grows <|
            tryRelayers_moves hw .refl (fun _ _ _ => .trans) y
        case neg => exact hi (by simpa [hq, Ne.symm hpq] using hp) hy.left

theorem claimWithAdvertisedRelayers_won (hp : p ∈ w.relayersAt s x) (h : Safe c s late x) :
    (claimWithAdvertisedRelayers s w).Post x fun _ => Won c s := by
  rw [ClaimEnv.relayersAt] at hp
  rw [claimWithAdvertisedRelayers, post_askFor_bind]
  refine ⟨fun hn => ?_, fun relayers hd => ?_⟩
  · simp [hn] at hp
  · rw [hd, Option.getD_some] at hp
    rw [post_throwIf_bind]
    refine ⟨fun hn => by simp [hn] at hp, fun _ => ?_⟩
    exact tryRelayers_won inj hs r hw hf hp <| h.grows inj hs (hw.discoverRelayers x)

theorem relayOrFallBack_won (hp : p ∈ w.relayersAt s x ∨ p = s.peerID) (h : Safe c s late x) :
    (relayOrFallBack s w).Post x fun _ => Won c s := by
  have ha : (claimWithAdvertisedRelayers s w).Post x fun r y =>
      Safe c s late y ∧ ((∃ receipt, r = .ok receipt) ∨ p ∈ w.relayersAt s x → Won c s y) := by
    have hg := claimWithAdvertisedRelayers_moves (s := s) hw .refl (fun _ _ _ => .trans) x
    refine ⟨h.grows inj hs hg, ?_⟩
    rintro (⟨receipt, hr⟩ | hp)
    · exact ⟨s.secret, claimWithAdvertisedRelayers_claimed hf hs.addr (Prod.ext hr rfl)⟩
    · exact claimWithAdvertisedRelayers_won inj hs r hw hf hp h
  refine ha.attempt_bind fun r' y hy => ?_
  cases r'
  case ok receipt => exact hy.right <| .inl ⟨receipt, rfl⟩
  case error      =>
    obtain hp | rfl := hp
    · exact (hy.right <| .inr hp).grows <| relayClaim_moves hw .refl (fun _ _ _ => .trans) y
    · exact relayClaim_won inj hs r hw hy.left

end

-- One honest relayer is enough: if an advertised relayer is honest, or the counterparty, then the
-- swap was claimed and paid for in the end, whatever the others have done.
theorem honest_relayer_suffices
    (r : HonestRelayer c (InWindow s.contractSwap.pack late) rec w p ec check now)
    (hw : w.Within (c.Grows <| InWindow s.contractSwap.pack late))
    (hf : Faithful c (InWindow s.contractSwap.pack late) w.ec)
    (hx : ∀ tx ∈ c.history x, c.Admits tx)
    (ho : (c.contract x).swaps s.contractSwapID = .ready ∨
      late ∧ (c.contract x).swaps s.contractSwapID = .pending)
    (hp : p ∈ w.relayersAt s x ∨ p = s.peerID) :
    let x' := (claimWithRelay s w x).snd
    (c.contract x').swaps s.contractSwapID = .completed ∧
    s.contractSwap.pack.ClaimPaid ((c.contract x').payouts s.contractSwapID) := by
  intro x'
  rw [hs.id] at ho ⊢
  have h : Safe c s late x := ⟨hx, secured_of_open inj hx rfl ho⟩
  have hd (receipt : Receipt) : Moves (c.Grows <| InWindow s.contractSwap.pack late) (do
      askFor ClaimError.db (w.writeSwapToDB Coins.relayerFeeETH)
      return receipt) :=
    moves_bind (fun _ _ _ => .trans) (moves_askFor <| hw.writeSwapToDB _) fun _ => .refl
  have hc : (claimWithRelay s w).Post x fun _ => Won c s :=
    (relayOrFallBack_won inj hs r hw hf hp h).bind (fun _ _ h => h) fun receipt y h =>
      h.grows (hd receipt y)
  obtain ⟨secret, hc⟩ := hc
  rw [hs.id] at hc
  have hg := claimWithRelay_moves (s := s) hw .refl (fun _ _ _ => .trans) x
  obtain ⟨hs', hp⟩ := claimed_by (s := c.contract x') inj (hg.admits hx) hs.mem rfl hc
  exact ⟨hs', hp.paid⟩

end

namespace RelaySample

theorem inWindow : InWindow makerSwap.contractSwap.pack True ⟨1150⟩ :=
  ⟨by decide, fun _ => by decide⟩

theorem transact_eq {call : SwapCreator.Call} (h : chain.Admits (⟨1150⟩, ⟨call, []⟩))
    (dst : Address) (x : List (Block × Act SwapCreator.Call)) :
    relayerClient.transact dst call x = (.ok 9, x ++ [(⟨1150⟩, ⟨call, []⟩)]) := by
  cases h
  case mk ha _ => exact if_pos ⟨ha.sender, ha.mem⟩

-- The second relayer is honest.
theorem honestRelayer :
    HonestRelayer chain (InWindow makerSwap.contractSwap.pack True) recovery env 1 relayerClient
      (fun _ => true) fun _ => ⟨1150⟩ where
  within    := relayerClient_within inWindow
  current _ := inWindow
  apart     := by decide
  funded _  := ⟨_, rfl⟩
  txOpts _  := rfl
  simulates h := congrArg (fun r => r.toOption.map fun _ => ()) h
  included {call} h x := by
    rw [transact_eq (h ⟨1150⟩)]
    exact ⟨9, rfl, _, _, List.mem_singleton_self _, rfl⟩
  answers x := ⟨7, rfl, fun request _ => by simp only [env, if_true]; rfl⟩

theorem key_sound : env.key.Sound recovery where
  v {digest sig} h := by
    simp only [env] at h
    split at h
    case isTrue  => cases h
    case isFalse => obtain rfl := Option.some.inj h; exact .inl rfl
  signer {digest sig} h := by
    simp only [env] at h
    split at h
    case isTrue     => cases h
    case isFalse hd => exact if_neg hd

theorem key_signs {digest : Bytes32} (h : digest ≠ 1) : ∃ sig, env.key.sign digest = some sig :=
  ⟨⟨3, 4, 0⟩, if_neg h⟩

theorem signed_ne (hash : Bytes32) :
    recovery.host.keccak256 (abiEncodeRelay (relaySwapOf makerSwap hash).pack) ≠ 1 := by
  obtain ⟨hf, hc⟩ := word_abiEncodeRelay (relaySwapOf makerSwap hash).pack
  refine keccak256_eq.mpr ⟨by simp [abiEncodeRelay, abiEncode], hf.trans ?_, hc.trans ?_⟩
  all_goals rfl

theorem makerSwap_sound : makerSwap.Sound chain recovery env where
  id      := id_eq
  mem     := rfl
  addr    := addr_eq
  host    := ⟨rfl, rfl⟩
  key     := key_sound
  signs   := fun hash => key_signs (signed_ne hash)
  claimer := rfl
  apart   := by decide
  asset   := rfl
  value   := by decide
  secret  := by decide

end RelaySample

theorem honest_relayer_suffices_second :
    (RelaySample.chain.contract
      (claimWithRelay RelaySample.makerSwap RelaySample.env Relayer.Sample.created).snd).swaps
      RelaySample.makerSwap.contractSwapID = .completed := by
  have ho : (RelaySample.chain.contract Relayer.Sample.created).swaps
      RelaySample.makerSwap.contractSwapID = .pending := by
    decide +kernel
  have inj : CollisionFree RelaySample.chain.deployment RelaySample.chain.swaps :=
    Set.injOn_singleton ..
  have hp : 1 ∈ RelaySample.env.relayersAt RelaySample.makerSwap Relayer.Sample.created := by decide
  have hc := honest_relayer_suffices inj RelaySample.makerSwap_sound RelaySample.honestRelayer
    (RelaySample.env_within RelaySample.inWindow) RelaySample.makerClient_faithful
    RelaySample.created_admits (.inr ⟨trivial, ho⟩) (.inl hp)
  exact hc.left

end XMRMaker
