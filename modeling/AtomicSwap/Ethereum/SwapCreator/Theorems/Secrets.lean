import AtomicSwap.Ethereum.Utils
import AtomicSwap.Ethereum.SwapCreator.Theorems.Exclusion

open Reentrant Function Code

namespace Ethereum.SwapCreator

variable {d : Deployment} {block : Block} {s s' : State} {sw : Swap} {c : Call}

-- The log of the contract is never rewritten.
def Grows (s s' : State) : Prop :=
  s.logs <+: s'.logs

theorem Grows.trans {s₁ s₂ s₃ : State} (h₁ : Grows s₁ s₂) (h₂ : Grows s₂ s₃) : Grows s₁ s₃ :=
  List.IsPrefix.trans h₁ h₂

section Within

variable {msg : Msg} {id secret : Bytes32} {asset dst : Address} {v : Uint256}

theorem emit_within {e : Event} : Within Grows (emit e) :=
  within_modify fun _ _ h => h.trans <| List.prefix_append ..

theorem setStage_within {stage : Stage} : Within Grows (setStage id stage) :=
  within_modify fun _ _ h => h

theorem payable_within : Within Grows (payable d msg) :=
  within_bind within_get fun _ => within_bind within_revertIf fun _ => within_modify fun _ _ h => h

theorem safeTransferFrom_within {src : Address} : Within Grows (safeTransferFrom d asset src v) :=
  within_ite
    (within_bind within_get fun _ => within_bind within_revertIf fun _ =>
      within_modify fun _ _ h => h)
    (within_handOver .trans)

theorem pay_within : Within Grows (pay d id asset dst v) :=
  within_bind (within_modify fun _ _ h => h) fun _ => within_ite
    (within_bind within_get fun _ => within_bind within_revertIf fun _ =>
      within_bind within_revertIf fun _ => within_modify fun _ _ h => h)
    (within_handOver .trans)

theorem createSwap_within : Within Grows (createSwap d sw) :=
  within_bind within_get fun _ => within_bind within_revertIf fun _ =>
  within_bind emit_within fun _ => within_bind setStage_within fun _ =>
  within_bind (within_modify fun _ _ h => h) fun _ => within_pure

theorem newSwap_within {ck rk : Bytes32} {claimer : Address} {d₁ d₂ nonce : Uint256} :
    Within Grows (newSwap d block msg ck rk claimer d₁ d₂ asset v nonce) :=
  within_bind within_revertIf fun _ =>
  within_bind (within_ite within_revertIf safeTransferFrom_within) fun _ =>
  within_bind within_revertIf fun _ => within_bind within_revertIf fun _ =>
  within_bind within_revertIf fun _ => within_bind within_lift fun _ =>
  within_bind within_lift fun _ => createSwap_within

theorem setReady_within : Within Grows (setReady d msg sw) :=
  within_bind within_get fun _ => within_bind within_revertIf fun _ =>
  within_bind within_revertIf fun _ => within_bind setStage_within fun _ => emit_within

theorem checkClaim_within : Within Grows (checkClaim d block sw secret) :=
  within_bind within_get fun _ => within_bind within_revertIf fun _ =>
  within_bind within_revertIf fun _ => within_bind within_revertIf fun _ =>
  within_bind within_revertIf fun _ => within_revertIf

theorem _claim_within : Within Grows (_claim d block sw secret) :=
  within_bind checkClaim_within fun _ => within_bind emit_within fun _ => setStage_within

theorem checkRefund_within : Within Grows (checkRefund d block msg sw secret) :=
  within_bind within_get fun _ => within_bind within_revertIf fun _ =>
  within_bind within_revertIf fun _ => within_bind within_revertIf fun _ =>
  within_bind within_revertIf fun _ => within_revertIf

theorem step_within (c : Call) : Within Grows (step d block c) := by
  cases c
  case newSwap =>
    exact within_bind payable_within fun _ => within_bind newSwap_within fun _ => within_pure
  case setReady => exact within_bind within_revertIf fun _ => setReady_within
  case claim =>
    exact within_bind within_revertIf fun _ => within_bind within_revertIf fun _ =>
      within_bind _claim_within fun _ => pay_within
  case claimRelayer =>
    exact within_bind within_revertIf fun _ => within_bind within_revertIf fun _ =>
      within_bind within_revertIf fun _ => within_bind within_revertIf fun _ =>
      within_bind _claim_within fun _ => within_bind within_lift fun _ =>
      within_bind pay_within fun _ => pay_within
  case refund =>
    exact within_bind within_revertIf fun _ => within_bind checkRefund_within fun _ =>
      within_bind emit_within fun _ => within_bind setStage_within fun _ => pay_within
  case outside =>
    exact within_bind within_get fun _ => within_bind within_revertIf fun _ =>
      within_modify fun _ _ h => h

variable (d block) in
theorem step_grows : Guarantees (step d block) Grows (fun _ _ => True) (fun _ => True) :=
  .of_within (fun _ => List.prefix_rfl) .trans fun c _ => step_within c

end Within

-- What a call that settles a swap makes public.
structure Revelation where
  commitment : Bytes32
  secret     : Bytes32
  event      : Event

def Call.revelation (d : Deployment) : Call → Option Revelation
  | claim _ swap secret => some ⟨swap.claimCommitment, secret, .claimed (swapID d swap) secret⟩
  | claimRelayer _ relaySwap secret .. =>
    some ⟨relaySwap.swap.claimCommitment, secret, .claimed (swapID d relaySwap.swap) secret⟩
  | refund _ swap secret => some ⟨swap.refundCommitment, secret, .refunded (swapID d swap) secret⟩
  | newSwap .. | setReady .. | outside .. => none

variable {r : Revelation}

def Reveals (d : Deployment) (r : Revelation) (s : State) : Prop :=
  Secp256k1.mulVerify d.host r.secret r.commitment ∧ r.event ∈ s.logs

theorem Reveals.grows (h : Reveals d r s) (hg : Grows s s') : Reveals d r s' :=
  ⟨h.left, hg.subset h.right⟩

theorem _claim_reveals {secret : Bytes32} :
    wp Grows (_claim d block sw secret)
      (fun _ => Reveals d ⟨sw.claimCommitment, secret, .claimed (swapID d sw) secret⟩)
      (fun _ => True) s := by
  simp +contextual [_claim, checkClaim, verifySecret, emit, setStage, Reveals]

theorem pay_reveals {id : Bytes32} {asset dst : Address} {v : Uint256} (h : Reveals d r s) :
    wp Grows (pay d id asset dst v) (fun _ => Reveals d r) (fun _ => True) s :=
  (pay_within s s List.prefix_rfl).mono (fun _ _ => h.grows) fun _ _ => trivial

theorem step_reveals (hc : c.revelation d = some r) :
    wp Grows (step d block c) (fun _ => Reveals d r) (fun _ => True) s := by
  cases c <;> simp only [Call.revelation, Option.some.injEq, reduceCtorEq] at hc <;> subst hc
  case claim =>
    simp only [step, nonpayable, claim, wp_bind, wp_revertIf]
    refine ⟨fun _ => trivial, fun _ => ⟨fun _ => trivial, fun _ => ?_⟩⟩
    exact _claim_reveals.mono (fun _ _ => pay_reveals) fun _ _ => trivial
  case claimRelayer =>
    simp only [step, nonpayable, claimRelayer, wp_bind, wp_revertIf]
    refine ⟨fun _ => trivial, fun _ => ⟨fun _ => trivial, fun _ => ⟨fun _ => trivial, fun _ =>
      ⟨fun _ => trivial, fun _ => ?_⟩⟩⟩⟩
    refine _claim_reveals.mono (fun _ _ h => ?_) fun _ _ => trivial
    simp only [wp_bind, wp_lift]
    refine ⟨fun _ _ => ?_, fun _ _ => trivial⟩
    exact (pay_reveals h).mono (fun _ _ => pay_reveals) fun _ _ => trivial
  case refund =>
    simp only [step, nonpayable, refund, checkRefund, verifySecret, emit, setStage, wp_bind, wp_get,
      wp_revertIf, wp_modify]
    refine ⟨fun _ => trivial, fun _ => ⟨fun _ => trivial, fun _ => ⟨fun _ => trivial, fun _ =>
      ⟨fun _ => trivial, fun _ => ⟨fun _ => trivial, fun _ => ⟨fun _ => trivial, fun hv =>
      pay_reveals ?_⟩⟩⟩⟩⟩⟩
    exact ⟨by simpa using hv, by simp⟩

theorem Call.revelation_event (hc : c.revelation d = some r) (address : Address) (n : ℕ) :
    (r.event.topic = claimedTopic ∨ r.event.topic = refundedTopic) ∧
    (r.event.toLog address n).topics[2]? = some r.secret := by
  cases c <;> simp only [Call.revelation, Option.some.injEq, reduceCtorEq] at hc <;> subst hc <;>
    simp [Event.topic, Event.toLog]

-- The contract accepts every number congruent to the secret, but the counterparty can only use the
-- secret itself.
theorem getSecretFromLog_iff {rs : List (Reply (Act Call))} {pubKeyHash : ℕ → Bytes32} {K : Set ℕ}
    {x : Monero.Scalar}
    (hh : Secp256k1.Recovers d.host pubKeyHash)
    (inj : K.InjOn fun k => (pubKeyHash k).setWidth 160)
    (hc : c.revelation d = some r) (hr : r.commitment = pubKeyHash x) (hx : x.val ≠ 0)
    (hk : x.val ∈ K ∧ r.secret.toNat % Secp256k1.m.toNat ∈ K)
    (hs : exec (step d block) ⟨c, rs⟩ s = .ok s') (n : ℕ) :
    r.event ∈ s'.logs ∧
    (getSecretFromLog (r.event.toLog d.this n) r.event.topic = .ok ⟨x⟩ ↔
      0 < r.secret.toNat ∧ r.secret.toNat < Secp256k1.m.toNat) := by
  have ⟨hv, he⟩ := (step_grows d block).exec_wp (fun _ _ a _ => .of_forall (fun _ => trivial) a)
    (step_reveals hc) hs
  have ⟨ht, hl⟩ := c.revelation_event hc d.this n
  refine ⟨he, ?_⟩
  rw [getSecretFromLog_eq_ok ht hl hx]
  constructor
  case mp =>
    intro h
    have hl : Monero.l < Secp256k1.m.toNat := by decide
    have := x.isLt
    omega
  case mpr =>
    intro h
    rw [Nat.mod_eq_of_lt h.right] at hk
    exact Secp256k1.eq_of_mulVerify hh inj hk.left hk.right h (hr ▸ hv)

namespace Sample

theorem recovers : Secp256k1.Recovers deployment.host pubKeyHash where
  recover t ht _ := by
    have hn : t ≠ 0 := by intro hn; simp [hn] at ht
    simp only [deployment, host, if_neg hn]
  zero := by simp [deployment, host]

def claimWith (secret : Bytes32) : Call :=
  .claim ⟨swap.claimer, 0⟩ swap secret

def claimResult (secret : Bytes32) : Except (Revert Error) State :=
  exec (step deployment ⟨1100⟩) ⟨claimWith secret, []⟩ afterNewSwap

end Sample

theorem revealed_secret_unusable :
    Sample.swap.claimCommitment = Sample.pubKeyHash 1 ∧
    (Sample.claimResult (1 + Secp256k1.m)).toOption.map (·.logs.getLast?) =
      some (some <| .claimed (swapID Sample.deployment Sample.swap) (1 + Secp256k1.m)) ∧
    getSecretFromLog
      ((Event.claimed (swapID Sample.deployment Sample.swap) (1 + Secp256k1.m)).toLog
        Sample.deployment.this 0)
      claimedTopic = .error (.key .invalidEncoding) := by
  decide +kernel

theorem revealed_secret_usable :
    getSecretFromLog
      ((Event.claimed (swapID Sample.deployment Sample.swap) 1).toLog Sample.deployment.this 0)
      claimedTopic = .ok ⟨⟨1, by decide⟩⟩ := by
  have ho : (Sample.claimResult 1).isOk := by decide +kernel
  cases hs : Sample.claimResult 1
  case error => rw [hs] at ho; contradiction
  case ok s' =>
    have h := getSecretFromLog_iff (c := Sample.claimWith 1) (K := {1}) (x := ⟨1, by decide⟩)
      Sample.recovers (Set.injOn_singleton ..) rfl rfl (by decide) ⟨rfl, rfl⟩ hs 0
    exact h.right.mpr <| by decide

end Ethereum.SwapCreator
