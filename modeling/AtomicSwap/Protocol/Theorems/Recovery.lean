import AtomicSwap.Protocol.Recovery
import AtomicSwap.Protocol.Theorems.LockAccount
import AtomicSwap.Protocol.XMRMaker.Theorems.Lock

open Ethereum Monero DB Handler Ownership Machine Function

namespace Recovery

variable {C : Curve} {d : Daemon} {id id' : Bytes32} {n w : ℕ} {kind : Kind}

-- The records that a swap only writes after the keys have been exchanged.
def Kind.isLate : Kind → Bool
  | contractSwapInfo | counterpartySwapPrivateKey | newSwapTxHash => true
  | swapPrivateKey | counterpartySwapKeys                         => false

theorem hasRecord_put {db : RecoveryDB} {r : Record C} :
    hasRecord (r.put db id) id' kind =
      (decide ((kind, id') = (r.kind, id)) || hasRecord db id' kind) := by
  by_cases hi : id' = id
  all_goals
    cases r <;> cases kind <;> simp [hi, hasRecord, Record.put, Record.kind,
      RecoveryDB.putContractSwapInfo, RecoveryDB.putSwapPrivateKey,
      RecoveryDB.putCounterpartySwapPrivateKey, RecoveryDB.putCounterpartySwapKeys,
      RecoveryDB.putNewSwapTxHash]

namespace Daemon

def Wrote (d : Daemon) (n : ℕ) (id : Bytes32) (kind : Kind) : Prop :=
  d.records.writer (kind, id) = some n

-- The last swap that was started on an offer.
def Current (d : Daemon) (n : ℕ) (id : Bytes32) : Prop :=
  ∃ e ∈ d.swapDB id, e.swap = n

def HasKeys (d : Daemon) (n : ℕ) (id : Bytes32) : Prop :=
  d.Current n id ∧ d.Wrote n id .swapPrivateKey ∧ d.Wrote n id .counterpartySwapKeys

structure Inv (d : Daemon) : Prop where
  tracked : ∀ id kind, hasRecord d.recovery id kind = (d.records.writer (kind, id)).isSome
  known   : ∀ id kind w, d.Wrote w id kind → w < d.next ∧ d.offerOf w = id
  entry   : ∀ id, ∀ e ∈ d.swapDB id, e.swap < d.next ∧ d.offerOf e.swap = id
  running : ∀ w, ∀ s ∈ d.running w, d.Current w s.offerID ∧ d.Wrote w s.offerID .swapPrivateKey ∧
    (s.hasKeys = true → d.Wrote w s.offerID .counterpartySwapKeys)
  late    : ∀ id kind w, kind.isLate = true → d.Wrote w id kind → d.HasKeys w id
  funds   : ∀ w, d.funds w = .pending ∨ d.funds w = .locked → d.Current w (d.offerOf w)
  sound   : d.records.Sound

theorem Current.unique (h : d.Current n id) (h' : d.Current w id) : w = n := by
  have ⟨e, he, hn⟩ := h
  have ⟨e', he', hw⟩ := h'
  rw [← hn, ← hw, Option.mem_unique he he']

theorem Current.known (h : d.Current n id) (hi : d.Inv) : n < d.next ∧ d.offerOf n = id := by
  have ⟨e, he, hn⟩ := h
  exact hn ▸ hi.entry id e he

theorem Inv.hasKeys {s : Swap} (h : d.Inv) (hs : s ∈ d.running n) (hk : s.hasKeys = true) :
    d.HasKeys n s.offerID :=
  have ⟨hc, ho, hr⟩ := h.running n s hs
  ⟨hc, ho, hr hk⟩

-- The offers and the swaps in progress do not matter.
theorem Inv.frame {started : Bool} {offers offerDB : Bytes32 → Bool}
    {swapStates : Provides → Bytes32 → Option ℕ} (h : d.Inv) :
    Inv { d with started, offers, offerDB, swapStates } :=
  ⟨h.tracked, h.known, h.entry, h.running, h.late, h.funds, h.sound⟩

theorem wrote_put {r : Record C} : (d.put id n r).Wrote w id' kind ↔
    (kind, id') = (r.kind, id) ∧ n = w ∨ (kind, id') ≠ (r.kind, id) ∧ d.Wrote w id' kind :=
  Registers.write_writer

theorem put_wrote {r : Record C} : (d.put id n r).Wrote n id r.kind :=
  wrote_put.mpr <| .inl ⟨rfl, rfl⟩

-- A record of the current swap replaces one of its own, or one of a swap without funds.
theorem put_inv {r : Record C} (h : d.Inv) (hc : d.Current n id)
    (hk : r.kind.isLate = true → d.HasKeys n id) : (d.put id n r).Inv := by
  have hw {w kind id'} (hc' : d.Current w id') (hw : d.Wrote w id' kind) :
      (d.put id n r).Wrote w id' kind := by
    by_cases he : (kind, id') = (r.kind, id)
    case pos =>
      have hi : id' = id := congrArg Prod.snd he
      exact wrote_put.mpr <| .inl ⟨he, hc'.unique (hi ▸ hc)⟩
    case neg => exact wrote_put.mpr <| .inr ⟨he, hw⟩
  have hk' {w id'} : d.HasKeys w id' → (d.put id n r).HasKeys w id' :=
    fun ⟨hc, ho, hk⟩ => ⟨hc, hw hc ho, hw hc hk⟩
  constructor
  case tracked =>
    intro id' kind
    rw [put, hasRecord_put, h.tracked]
    by_cases he : (kind, id') = (r.kind, id) <;> simp [he, Registers.write]
  case known =>
    intro id' kind w hw
    rcases wrote_put.mp hw with ⟨he, hn⟩ | ⟨_, hw⟩
    · cases he
      exact hn ▸ hc.known h
    · exact h.known id' kind w hw
  case entry => exact h.entry
  case running =>
    intro w s hs
    obtain ⟨hc, ho, hk⟩ := h.running w s hs
    exact ⟨hc, hw hc ho, fun hs => hw hc (hk hs)⟩
  case late =>
    intro id' kind w hl hw
    rcases wrote_put.mp hw with ⟨he, hn⟩ | ⟨_, hw⟩
    · cases he
      exact hk' <| hn ▸ hk hl
    · exact hk' <| h.late id' kind w hl hw
  case funds => exact h.funds
  case sound =>
    refine Registers.write_sound h.sound fun w hw => or_iff_not_imp_right.mpr fun hl => ?_
    obtain ⟨_, ho⟩ := h.known id r.kind w hw
    have hf := h.funds w (.inr (by simpa using hl))
    exact hc.unique (ho ▸ hf)

theorem read_inv (h : d.Inv) (hw : ∀ w, d.Wrote w id kind → w = n) :
    Inv { d with records := d.records.read (kind, id) n } :=
  ⟨h.tracked, h.known, h.entry, h.running, h.late, h.funds, Registers.read_sound h.sound hw⟩

theorem current_putSwap {e : Entry} (hc : d.Current e.swap id) :
    (d.putSwap id e).Current w id' ↔ d.Current w id' := by
  by_cases hi : id' = id
  case pos =>
    subst hi
    refine ⟨fun ⟨e', he, hw⟩ => ?_, fun hw => ⟨e, by simp [putSwap], (hc.unique hw).symm⟩⟩
    have he : e = e' := by simpa [putSwap] using he
    exact hw ▸ he ▸ hc
  case neg => simp [Current, putSwap, hi]

-- The entry of a swap only changes its status.
theorem putSwap_inv {e : Entry} (h : d.Inv) (hc : d.Current e.swap id) : (d.putSwap id e).Inv := by
  have hk {w id'} : d.HasKeys w id' → (d.putSwap id e).HasKeys w id' :=
    .imp_left (current_putSwap hc).mpr
  refine ⟨h.tracked, h.known, fun id' e' he => ?_, fun w s hs => ?_, fun id' kind w hl hw => ?_,
    fun w hf => ?_, h.sound⟩
  · have hc' : d.Current e'.swap id' := (current_putSwap hc).mp ⟨e', he, rfl⟩
    exact hc'.known h
  · exact (h.running w s hs).imp_left (current_putSwap hc).mpr
  · exact hk (h.late id' kind w hl hw)
  · exact (current_putSwap hc).mpr (h.funds w hf)

theorem setRunning_inv {s : Swap} (h : d.Inv) (hc : d.Current n s.offerID)
    (ho : d.Wrote n s.offerID .swapPrivateKey)
    (hk : s.hasKeys = true → d.Wrote n s.offerID .counterpartySwapKeys) :
    Inv { d with running := update d.running n (some s) } := by
  refine ⟨h.tracked, h.known, h.entry, fun w s' hs => ?_, h.late, h.funds, h.sound⟩
  by_cases hw : w = n
  case pos =>
    subst hw
    have hs : s = s' := by simpa using hs
    exact hs ▸ ⟨hc, ho, hk⟩
  case neg => exact h.running w s' (by simpa [hw] using hs)

theorem stop_inv (h : d.Inv) : Inv { d with running := update d.running n none } := by
  refine ⟨h.tracked, h.known, h.entry, fun w s' hs => ?_, h.late, h.funds, h.sound⟩
  by_cases hw : w = n
  case pos => simp [hw] at hs
  case neg => exact h.running w s' (by simpa [hw] using hs)

theorem setFunds_inv {f : Funds} (h : d.Inv) (hc : d.Current n (d.offerOf n)) :
    Inv { d with funds := update d.funds n f } := by
  refine ⟨h.tracked, h.known, h.entry, h.running, h.late, fun w hf => ?_, h.sound⟩
  by_cases hw : w = n
  case pos => exact hw ▸ hc
  case neg => exact h.funds w (by simpa [hw] using hf)

section Swap

variable {s : Swap}

theorem setCounterpartyKeys_inv {sk : PublicKey C} {vk : PrivateViewKey} (h : d.Inv)
    (hs : s ∈ d.running n) : (d.setCounterpartyKeys n s sk vk).Inv := by
  have ⟨hc, ho, _⟩ := h.running n s hs
  have hp : (d.put s.offerID n (.counterpartySwapKeys sk vk)).Inv := put_inv h hc nofun
  refine setRunning_inv (s := { s with hasKeys := true }) hp hc ?_ fun _ => ?_
  · exact wrote_put.mpr <| .inr ⟨by simp [Record.kind], ho⟩
  · exact put_wrote

theorem claimMonero_inv {sk : PrivateSpendKey} (h : d.Inv) (hs : s ∈ d.running n)
    (hk : s.hasKeys = true) : (d.claimMonero (C := C) n s sk).Inv := by
  have hk := h.hasKeys hs hk
  have hp : (d.put s.offerID n (.counterpartySwapPrivateKey sk : Record C)).Inv :=
    put_inv h hk.left fun _ => hk
  unfold claimMonero
  dsimp only
  split
  case isFalse => exact hp
  case isTrue  =>
    refine read_inv hp fun w hw => ?_
    have ⟨_, hw⟩ := (wrote_put.mp hw).resolve_left (by simp [Record.kind])
    exact Option.some_inj.mp <| hw.symm.trans hk.right.right

theorem exit_inv {status : Status} (h : d.Inv) (hs : s ∈ d.running n) :
    (d.exit n s status).Inv := by
  have hp : (d.putSwap s.offerID ⟨n, s.provides, status⟩).Inv :=
    putSwap_inv h (h.running n s hs).left
  unfold exit retireOffer
  dsimp only
  repeat' split
  all_goals exact hp.frame

theorem stepSwap_inv {i : SwapInput C} (h : d.Inv) (hs : s ∈ d.running n) :
    (d.stepSwap n s i).Inv := by
  have hc := (h.running n s hs).left
  have hp {r : Record C} (hk : s.hasKeys = true) : (d.put s.offerID n r).Inv :=
    put_inv h hc fun _ => h.hasKeys hs hk
  cases i
  case counterpartySwapKeys => exact setCounterpartyKeys_inv h hs
  case status               => exact putSwap_inv h hc
  case exit                 => exact exit_inv h hs
  case stop                 => exact stop_inv h
  all_goals
    simp only [stepSwap]
    split
  case newSwapTxHash.isTrue hk              => exact hp hk.left
  case contractSwapInfo.isTrue hk           => exact hp hk
  case counterpartySwapPrivateKey.isTrue hk => exact claimMonero_inv h hs hk
  case fundsSent.isTrue                     => exact setFunds_inv h <| (hc.known h).right.symm ▸ hc
  all_goals exact h

end Swap

-- Earlier swaps on the offer have got no further than the exchange of keys, or their records are
-- gone, and all of them are over.
def Unused (d : Daemon) (id : Bytes32) : Prop :=
  d.recovery.contractSwapInfo id = none ∧ d.recovery.counterpartySwapPrivateKey id = none ∧
  d.recovery.newSwapTxHash id = none ∧
  ∀ w < d.next, d.offerOf w = id →
    d.running w = none ∧ d.funds w ≠ .pending ∧ d.funds w ≠ .locked

instance : Decidable (d.Unused id) :=
  inferInstanceAs <| Decidable (_ ∧ _)

-- The swap is not refused, and gets its entry in the database of swaps.
def Accepts (d : Daemon) (provides : Provides) (id : Bytes32) (calls : StartCalls) : Prop :=
  d.swapStates provides id = none ∧ (provides = .xmr → d.offers id = true) ∧ calls.addSwap = true

instance {provides : Provides} {calls : StartCalls} : Decidable (d.Accepts provides id calls) :=
  inferInstanceAs <| Decidable (_ ∧ _)

section Initiate

variable {provides : Provides} {sk : PrivateSpendKey} {calls : StartCalls}

theorem Unused.not_late (hu : d.Unused id) (h : d.Inv) (hl : kind.isLate = true) :
    ¬d.Wrote w id kind := by
  intro hw
  have ht := h.tracked id kind
  rw [hw] at ht
  have ⟨hi, hp, hn, _⟩ := hu
  cases kind <;> simp_all [Kind.isLate, hasRecord]

theorem newSwap_inv (h : d.Inv) :
    Inv { d with next := d.next + 1, offerOf := update d.offerOf d.next id } := by
  have ho {w} (hw : w < d.next) : w < d.next + 1 ∧ update d.offerOf d.next id w = d.offerOf w :=
    ⟨Nat.lt_succ_of_lt hw, by simp [hw.ne]⟩
  refine ⟨h.tracked, fun id' kind w hw => ?_, fun id' e he => ?_, h.running, h.late,
    fun w hf => ?_, h.sound⟩
  · have ⟨hw, hi⟩ := h.known id' kind w hw
    exact ⟨(ho hw).left, (ho hw).right.trans hi⟩
  · have ⟨hw, hi⟩ := h.entry id' e he
    exact ⟨(ho hw).left, (ho hw).right.trans hi⟩
  · have hc := h.funds w hf
    rw [← (ho (hc.known h).left).right] at hc
    exact hc

-- The swap becomes the current one of its offer.
theorem putNewSwap_inv {e : Entry} (h : d.Inv) (hn : e.swap < d.next) (ho : d.offerOf e.swap = id)
    (hr : ∀ w, ∀ s ∈ d.running w, s.offerID ≠ id)
    (hf : ∀ w, d.funds w = .pending ∨ d.funds w = .locked → d.offerOf w ≠ id)
    (hl : ∀ kind w, kind.isLate = true → ¬d.Wrote w id kind) : (d.putSwap id e).Inv := by
  have hc {w id'} (hi : id' ≠ id) : d.Current w id' → (d.putSwap id e).Current w id' := by
    simp [Current, putSwap, hi]
  refine ⟨h.tracked, h.known, fun id' e' he => ?_, fun w s hs => ?_, fun id' kind w hk hw => ?_,
    fun w hw => hc (hf w hw) (h.funds w hw), h.sound⟩
  · by_cases hi : id' = id
    case pos =>
      subst hi
      have he : e = e' := by simpa [putSwap] using he
      exact he ▸ ⟨hn, ho⟩
    case neg => exact h.entry id' e' (by simpa [putSwap, hi] using he)
  · exact (h.running w s hs).imp_left <| hc (hr w s hs)
  · exact (h.late id' kind w hk hw).imp_left <| hc fun hi => hl kind w hk (hi ▸ hw)

theorem newSwapStateFromStart_inv (h : d.Inv) (hu : calls.addSwap = true → d.Unused id) :
    (d.newSwapStateFromStart (C := C) id provides sk calls).Inv := by
  let d₁ : Daemon := { d with next := d.next + 1, offerOf := update d.offerOf d.next id }
  let e : Entry := ⟨d.next, provides, provides.firstStatus⟩
  have h₁ : d₁.Inv := newSwap_inv h
  have h₂ (hu : d.Unused id) : (d₁.putSwap id e).Inv := by
    have ⟨_, _, _, ho⟩ := hu
    refine putNewSwap_inv h₁ (Nat.lt_succ_self _) (update_self ..) (fun w s hs hi => ?_)
      (fun w hf hi => ?_) fun kind w hl => hu.not_late h hl
    · have ⟨hn, hw⟩ := (h.running w s hs).left.known h
      have hr : d.running w = none := (ho w hn (hw.trans hi)).left
      exact absurd (hr.symm.trans hs) nofun
    · have ⟨hn, _⟩ := (h.funds w hf).known h
      have hw : d.offerOf w = id := (update_of_ne hn.ne ..).symm.trans hi
      exact hf.elim (ho w hn hw).right.left (ho w hn hw).right.right
  have hc : (d₁.putSwap id e).Current d.next id := ⟨e, update_self .., rfl⟩
  unfold newSwapStateFromStart
  dsimp only
  split
  case isTrue     => exact h₁
  case isFalse ha =>
    have h₂ := h₂ <| hu (by simpa using ha)
    split
    case isTrue  => exact h₂
    case isFalse =>
      have h₃ := put_inv (r := (.swapPrivateKey sk : Record C)) h₂ hc nofun
      exact (setRunning_inv (s := { offerID := id, provides }) h₃ hc put_wrote nofun).frame

theorem initiate_inv (h : d.Inv) (hu : d.Accepts provides id calls → d.Unused id) :
    (d.initiate (C := C) id provides sk calls).Inv := by
  unfold initiate
  split
  case isTrue     => exact h
  case isFalse hn =>
    have hn : d.swapStates provides id = none := by simpa using hn
    cases provides
    case xmr =>
      dsimp only
      split
      case isTrue ho =>
        exact newSwapStateFromStart_inv h.frame fun ha => hu ⟨hn, fun _ => ho, ha⟩
      case isFalse   => exact h
    case eth => exact newSwapStateFromStart_inv h fun ha => hu ⟨hn, nofun, ha⟩

end Initiate

theorem fundsChanged_inv {locked : Bool} (h : d.Inv) : (d.fundsChanged n locked).Inv := by
  unfold fundsChanged
  split
  case h_1 hf => exact setFunds_inv h (h.funds n (.inl hf))
  case h_2 hf => exact setFunds_inv h (h.funds n (.inr hf))
  all_goals exact h

theorem crash_inv (h : d.Inv) : d.crash.Inv :=
  ⟨h.tracked, h.known, h.entry, nofun, h.late, h.funds, h.sound⟩

end Daemon

section Restart

variable {calls : RestartCalls} {e : Entry}

-- The entry is one of the current swap.
def Safe (id : Bytes32) (e : Entry) (d : Daemon) : Prop :=
  d.Inv ∧ d.Current e.swap id

def Keyed (id : Bytes32) (e : Entry) (d : Daemon) : Prop :=
  d.Inv ∧ d.HasKeys e.swap id

-- If a late record has been found, the keys have been exchanged.
def Late {α : Type} (id : Bytes32) (e : Entry) (r : Except Error α) (d : Daemon) : Prop :=
  Safe id e d ∧ ∀ a, r = .ok a → Keyed id e d

theorem Keyed.safe (h : Keyed id e d) : Safe id e d :=
  ⟨h.left, h.right.left⟩

theorem read_keyed {α : Type} {f : RecoveryDB → Bytes32 → Except DB.Error α}
    (hk : kind = .swapPrivateKey ∨ kind = .counterpartySwapKeys) :
    (read id e kind f).Preserves (Keyed id e) := by
  refine preserves_bind (fun _ h => h) fun _ => ?_
  refine preserves_bind preserves_ofExcept fun _ => ?_
  refine preserves_bind (preserves_modify fun d h => ?_) fun _ => preserves_pure
  have ⟨h, hc, ho, hs⟩ := h
  refine ⟨Daemon.read_inv h fun w hw => ?_, hc, ho, hs⟩
  rcases hk with rfl | rfl
  · exact Option.some_inj.mp <| hw.symm.trans ho
  · exact Option.some_inj.mp <| hw.symm.trans hs

theorem read_late {α : Type} {f : RecoveryDB → Bytes32 → Except DB.Error α}
    (hl : kind.isLate = true)
    (hf : ∀ db a, f db id = .ok a → hasRecord db id kind = true) (h : Safe id e d) :
    (read id e kind f).Post d (Late id e) := by
  refine post_get_bind.mpr <| post_ofExcept_bind.mpr ⟨fun _ _ => ⟨h, nofun⟩, fun a ha => ?_⟩
  refine post_modify_bind.mpr <| post_pure.mpr ?_
  have ⟨hi, hc⟩ := h
  have hr := hf _ a (Except.mapError_eq_ok.mp ha)
  rw [hi.tracked, Option.isSome_iff_exists] at hr
  have ⟨w, hw⟩ := hr
  have hk := hi.late id kind w hl hw
  cases hc.unique hk.left
  have hi' := Daemon.read_inv hi fun w' hw' => Option.some_inj.mp <| hw'.symm.trans hw
  exact ⟨⟨hi', hc⟩, fun _ _ => ⟨hi', hk⟩⟩

theorem putStatus_safe {status : Status} :
    (putStatus id e status).Preserves (Safe id e) :=
  preserves_modify fun _ h => ⟨Daemon.putSwap_inv h.left h.right,
    (Daemon.current_putSwap (e := { e with status }) h.right).mpr h.right⟩

theorem putStatus_keyed {status : Status} :
    (putStatus id e status).Preserves (Keyed id e) :=
  preserves_modify fun _ h => ⟨Daemon.putSwap_inv h.left h.right.left,
    h.right.imp_left (Daemon.current_putSwap (e := { e with status }) h.right.left).mpr⟩

theorem completeOngoingSwap_safe {status : Status} :
    (completeOngoingSwap calls id e status).Preserves (Safe id e) :=
  preserves_bind preserves_throwIf fun _ => putStatus_safe

theorem completeOngoingSwap_keyed {status : Status} :
    (completeOngoingSwap calls id e status).Preserves (Keyed id e) :=
  preserves_bind preserves_throwIf fun _ => putStatus_keyed

theorem claimMonero_keyed {noTransferBack : Bool} {kpAB : PrivateKeyPair} :
    (claimMonero calls id e noTransferBack kpAB).Preserves (Keyed id e) := by
  refine preserves_bind preserves_throwIf fun _ => preserves_ite ?_ preserves_throwIf
  exact preserves_bind putStatus_keyed fun _ => preserves_throwIf

theorem storedKeys_keyed : (storedKeys C id e).Preserves (Keyed id e) := by
  refine preserves_bind (read_keyed (.inl rfl)) fun _ => ?_
  refine preserves_bind preserves_ofExcept fun _ => ?_
  exact preserves_bind (read_keyed (.inr rfl)) fun _ => preserves_pure

theorem runSwap_keyed : (runSwap id e).Preserves (Keyed id e) := by
  refine preserves_modify fun d h => ⟨?_, h.right⟩
  have ⟨hi, hc, ho, hk⟩ := h
  let s : Swap := { offerID := id, provides := e.provides, hasKeys := true, restarted := true }
  exact (Daemon.setRunning_inv (s := s) hi hc ho fun _ => hk).frame

section Late

theorem get_ok {α : Type} {records : Bytes32 → Option α} {a : α} (h : DB.get records id = .ok a) :
    (records id).isSome := by
  unfold DB.get at h
  split at h
  case h_1 hr => simp [hr]
  case h_2    => contradiction

theorem getContractSwapInfo_late (h : Safe id e d) :
    (getContractSwapInfo id e).Post d (Late id e) :=
  read_late rfl (fun _ _ => get_ok) h

theorem getNewSwapTxHash_late (h : Safe id e d) : (getNewSwapTxHash id e).Post d (Late id e) :=
  read_late rfl (fun _ _ => get_ok) h

theorem getCounterpartySwapPrivateKey_late (h : Safe id e d) :
    (getCounterpartySwapPrivateKey id e).Post d (Late id e) := by
  refine read_late rfl (fun db a ha => ?_) h
  have ⟨_, hr, _⟩ := Except.bind_ok_iff.mp ha
  exact get_ok hr

theorem ongoingSwap_late (h : Safe id e d) : (ongoingSwap C id e).Post d (Late id e) := by
  refine (getContractSwapInfo_late h).bind (fun _ _ h => ⟨h.left, nofun⟩) fun info d' h => ?_
  have hp : (do
      let sk ← getSwapPrivateKey id e
      let _ ← ofExcept ((sk.asPrivateKeyPair C).mapError .view)
      return info : M EthereumSwapInfo).Preserves (Keyed id e) := by
    refine preserves_bind (read_keyed (.inl rfl)) fun _ => ?_
    exact preserves_bind preserves_ofExcept fun _ => preserves_pure
  have hk := hp d' (h.right info rfl)
  exact ⟨hk.safe, fun _ _ => hk⟩

end Late

namespace XMRMaker

theorem completeSwap_keyed {skA : PrivateSpendKey} :
    (completeSwap C calls id e skA).Preserves (Keyed id e) := by
  refine preserves_bind storedKeys_keyed fun _ => ?_
  exact preserves_bind claimMonero_keyed fun _ => completeOngoingSwap_keyed

theorem newSwapStateFromOngoing_keyed {ethSwapInfo : EthereumSwapInfo} :
    (newSwapStateFromOngoing calls id e ethSwapInfo).Preserves (Keyed id e) := by
  refine preserves_bind preserves_ofExcept fun _ => ?_
  have hr : (do
      throwIf (e.status ≠ .xmrLocked) .invalidStageForRecovery
      throwIf (!calls.newSwapState) .newSwapState
      runSwap id e : M Unit).Preserves (Keyed id e) := by
    refine preserves_bind preserves_throwIf fun _ => ?_
    exact preserves_bind preserves_throwIf fun _ => runSwap_keyed
  refine preserves_ite ?_ hr
  refine preserves_bind completeOngoingSwap_keyed fun _ => ?_
  refine preserves_bind (preserves_modify fun _ h => ⟨h.left.frame, h.right⟩) fun _ => ?_
  exact preserves_bind preserves_ofExcept fun _ => hr

theorem createOngoingSwap_inv (h : Safe id e d) : (createOngoingSwap C calls id e d).snd.Inv := by
  refine Post.attempt_bind (Q := fun _ d' => d'.Inv) (getCounterpartySwapPrivateKey_late h) ?_
  rintro (_ | skA) d' ⟨h, hk⟩
  case ok    => exact (completeSwap_keyed d' (hk skA rfl)).left
  case error =>
    refine post_get_bind.mpr <| post_throwIf_bind.mpr ⟨fun _ => h.left, fun _ => ?_⟩
    have ht : Safe id e (d'.takeOffer id) := ⟨h.left.frame, h.right⟩
    refine post_modify_bind.mpr ?_
    refine (ongoingSwap_late ht).bind (fun _ _ h => h.left.left) fun info d'' h => ?_
    exact (newSwapStateFromOngoing_keyed d'' (h.right info rfl)).left

theorem checkForOngoingSwap_inv (h : Safe id e d) :
    (checkForOngoingSwap C calls id e d).snd.Inv := by
  unfold checkForOngoingSwap
  repeat' split
  · exact (completeOngoingSwap_safe d h).left
  · exact (completeOngoingSwap_safe d h).left
  · exact createOngoingSwap_inv h

end XMRMaker

namespace XMRTaker

theorem completeSwap_keyed {skB : PrivateSpendKey} :
    (completeSwap C calls id e skB).Preserves (Keyed id e) := by
  refine preserves_bind storedKeys_keyed fun _ => ?_
  exact preserves_bind claimMonero_keyed fun _ => completeOngoingSwap_keyed

theorem newSwapStateFromOngoing_keyed :
    (newSwapStateFromOngoing C calls id e).Preserves (Keyed id e) := by
  refine preserves_bind preserves_throwIf fun _ => ?_
  refine preserves_bind (read_keyed (.inr rfl)) fun _ => ?_
  exact preserves_bind preserves_throwIf fun _ => runSwap_keyed

theorem createOngoingSwap_inv (h : Safe id e d) : (createOngoingSwap C calls id e d).snd.Inv := by
  refine Post.attempt_bind (Q := fun _ d' => d'.Inv) (getCounterpartySwapPrivateKey_late h) ?_
  rintro (_ | skB) d' ⟨h, hk⟩
  case ok    => exact (completeSwap_keyed d' (hk skB rfl)).left
  case error =>
    refine (ongoingSwap_late h).bind (fun _ _ h => h.left.left) fun info d'' h => ?_
    exact (newSwapStateFromOngoing_keyed d'' (h.right info rfl)).left

theorem refundOrCancelNewSwap_keyed {txHash : Bytes32} :
    (refundOrCancelNewSwap calls id e txHash).Preserves (Keyed id e) := by
  refine preserves_bind preserves_ofExcept fun _ => preserves_ite ?_ preserves_pure
  refine preserves_bind preserves_throwIf fun _ => ?_
  refine preserves_bind (read_keyed (.inl rfl)) fun _ => ?_
  exact preserves_bind preserves_throwIf fun _ => completeOngoingSwap_keyed

theorem checkForOngoingSwap_inv (h : Safe id e d) :
    (checkForOngoingSwap C calls id e d).snd.Inv := by
  unfold checkForOngoingSwap
  repeat' split
  case isTrue =>
    refine Post.attempt_bind (Q := fun _ d' => d'.Inv) (getNewSwapTxHash_late h) ?_
    rintro (_ | txHash) d' ⟨h, hk⟩
    case ok    => exact (refundOrCancelNewSwap_keyed d' (hk txHash rfl)).left
    case error => exact (completeOngoingSwap_safe d' h).left
  case isFalse.isTrue  => exact (completeOngoingSwap_safe d h).left
  case isFalse.isFalse => exact createOngoingSwap_inv h

end XMRTaker

theorem checkForOngoingSwap_inv (h : d.Inv) : (checkForOngoingSwap C calls id d).Inv := by
  unfold checkForOngoingSwap
  split
  case h_1      => exact h
  case h_2 e he =>
    have hs : Safe id e d := ⟨h, e, he, rfl⟩
    repeat' split
    · exact h
    · exact XMRMaker.checkForOngoingSwap_inv hs
    · exact XMRTaker.checkForOngoingSwap_inv hs

end Restart

-- A swap is only started on an offer that has not been used.
def Careful (d : Daemon) : Input C → Prop
  | .initiate provides id _ calls => d.started = true → d.Accepts provides id calls → d.Unused id
  | _                             => True

instance {i : Input C} : Decidable (Careful d i) :=
  match i with
  | .initiate .. => inferInstanceAs <| Decidable (_ → _)
  | .addOffer _ | .deleteOffer _ | .swap .. | .fundsChanged .. | .crash | .restart .. | .start =>
    .isTrue trivial

theorem step_inv (d : Daemon) (i : Input C) (h : d.Inv) (hc : Careful d i) : (step d i).Inv := by
  cases i
  case addOffer | deleteOffer =>
    simp only [step]
    split
    case isTrue  => exact h.frame
    case isFalse => exact h
  case initiate =>
    simp only [step]
    split
    case isTrue hs => exact Daemon.initiate_inv h (hc hs)
    case isFalse   => exact h
  case swap n i =>
    simp only [step]
    cases hs : d.running n
    case none   => exact h
    case some s => exact Daemon.stepSwap_inv h hs
  case fundsChanged => exact Daemon.fundsChanged_inv h
  case crash        => exact Daemon.crash_inv h
  case restart      =>
    simp only [step]
    split
    case isTrue  => exact h
    case isFalse => exact checkForOngoingSwap_inv h
  case start        => exact h.frame

theorem new_inv : Daemon.new.Inv := by
  refine ⟨fun _ kind => by cases kind <;> rfl, nofun, nofun, nofun, nofun, ?_, nofun⟩
  exact fun _ hf => by simp [Daemon.new] at hf

-- Every record that is read for a swap was written by it, and no record of a swap whose funds are
-- locked is replaced by another one.
theorem records_own {is : List (Input C)} (h : Along step Careful is .new) :
    ∀ a ∈ (run step is .new).records.log, a.Sound :=
  (run_invariant step_inv new_inv h).sound

end Recovery

open Sample (curve keyPair)

namespace Recovery.Sample

open XMRMaker.Sample (swap swapID swapCreatorAddr)

-- A swap on the offer 7.
def initiating (provides : Provides) (n : ℕ) : List (Input curve) :=
  [.initiate provides 7 (keyPair 0).sk ⟨true, true⟩,
    .swap n <| .counterpartySwapKeys ((keyPair 1).sk.publicKey curve) (keyPair 1).vk]

-- The maker locks its Monero.
def locking (n : ℕ) : List (Input curve) :=
  initiating .xmr n ++ [.swap n <| .contractSwapInfo ⟨100, swapID, swap, swapCreatorAddr⟩,
    .swap n <| .status .xmrLocked, .swap n .fundsSent, .fundsChanged n true]

def restartCalls : RestartCalls where
  completeOngoingSwap     := true
  sweeping _              := true
  noTransferBack          := false
  claimMonero             := true
  checkIfAlreadyClaimed _ := some false
  newSwapState            := true
  maybeCancelNewSwap _    := some false
  newSwapParameters       := true
  refund _                := true

-- The first swap is aborted before anything is locked.
def aborting : List (Input curve) :=
  [.addOffer 7] ++ initiating .xmr 0 ++ [.swap 0 <| .exit .completedAbort, .swap 0 .stop] ++
  locking 1 ++ [.crash, .restart 7 restartCalls]

-- The first swap is refunded.
def refunding : List (Input curve) :=
  [.addOffer 7] ++ locking 0 ++ [.swap 0 <| .counterpartySwapPrivateKey (keyPair 1).sk,
    .fundsChanged 0 false, .swap 0 <| .exit .completedRefund, .swap 0 .stop] ++
  locking 1 ++ [.crash, .restart 7 restartCalls]

-- The first swap exits although the Monero could not be reclaimed.
def failing : List (Input curve) :=
  [.addOffer 7] ++ locking 0 ++ [.swap 0 <| .counterpartySwapPrivateKey (keyPair 1).sk,
    .swap 0 <| .exit .xmrLocked, .swap 0 .stop] ++ initiating .xmr 1

-- The taker is refunded, and takes the offer again.
def retaking : List (Input curve) :=
  initiating .eth 0 ++ [.swap 0 .fundsSent, .swap 0 <| .newSwapTxHash 9, .fundsChanged 0 true,
    .fundsChanged 0 false, .swap 0 <| .exit .completedRefund, .swap 0 .stop] ++
  initiating .eth 1 ++ [.crash, .restart 7 restartCalls]

end Recovery.Sample

open Recovery.Sample

namespace Recovery

theorem records_own_aborting :
    let log := (run step aborting .new).records.log
    .overwrite (.swapPrivateKey, 7) 1 0 false ∈ log ∧ .read (.contractSwapInfo, 7) 1 1 ∈ log ∧
    ∀ a ∈ log, a.Sound :=
  ⟨by decide, by decide, records_own (by decide)⟩

-- A swap reads the secret of another one, or the hash of its transaction, and the key of a swap
-- whose Monero is locked is replaced.
theorem records_mixed :
    .read (.counterpartySwapPrivateKey, 7) 1 0 ∈ (run step refunding .new).records.log ∧
    .read (.newSwapTxHash, 7) 1 0 ∈ (run step retaking .new).records.log ∧
    .overwrite (.swapPrivateKey, 7) 1 0 true ∈ (run step failing .new).records.log := by
  decide

end Recovery
