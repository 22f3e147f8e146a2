import AtomicSwap.Protocol.XMRMaker.Offers

open Ethereum Handler Function

namespace XMRMaker.Offers

namespace OfferTable

variable {t : OfferTable} {offer : Offer} {id id' : Bytes32} {ids : List Bytes32}

instance : Decidable (t.Has id) :=
  inferInstanceAs (Decidable (_ = true))

@[simp]
theorem has_putOffer : (t.putOffer offer).Has id ↔ id = offer.id ∨ t.Has id := by
  by_cases h : id = offer.id <;> simp [Has, putOffer, h]

@[simp]
theorem has_deleteOffer : (t.deleteOffer id').Has id ↔ id ≠ id' ∧ t.Has id := by
  by_cases h : id = id' <;> simp [Has, deleteOffer, h]

end OfferTable

namespace Manager

variable {U : Bytes32 → Prop} {m : Manager} {id : Bytes32}

-- The offers in memory and those of the IDs in `U` are in the database.
def Stored (U : Bytes32 → Prop) (m : Manager) : Prop :=
  ∀ id, (m.offers id).isSome ∨ U id → m.db.Has id

-- What `createOngoingSwap` asks for after a restart.
def Restorable (m : Manager) (id : Bytes32) : Prop :=
  ∃ offer, m.db.get id = some offer ∧ offer.id = id ∧
    (takeOffer id (newManager m.db)).fst = .ok { offer, useRelayer := false }

theorem takeOffer_ok {oe : OfferWithExtra} {m' : Manager} :
    takeOffer id m = (.ok oe, m') ↔
      m.offers id = some oe ∧ { m with offers := update m.offers id none } = m' := by
  simp [takeOffer, getOffer]

theorem restorable_iff : m.Restorable id ↔ m.db.Has id := by
  constructor
  · rintro ⟨offer, h, -⟩
    simp [OfferTable.Has, h]
  · intro h
    obtain ⟨offer, h⟩ := Option.isSome_iff_exists.mp h
    refine ⟨offer, h, m.db.keyed id offer h, ?_⟩
    exact congrArg Prod.fst <| takeOffer_ok.mpr ⟨by simp [newManager, h], rfl⟩

section Preserves

variable {P : Manager → Prop} {put useRelayer : Bool} {offer : Offer}

theorem preserves_getOffer : (getOffer id).Preserves P :=
  preserves_bind preserves_get fun _ => preserves_ofExcept

theorem preserves_takeOffer (hf : ∀ m, P m → P { m with offers := update m.offers id none }) :
    (takeOffer id).Preserves P :=
  preserves_bind preserves_getOffer fun _ =>
    preserves_bind (preserves_modify hf) fun _ => preserves_pure

theorem preserves_addOffer
    (hp : ∀ m, P m → P
      { m with
        offers := update m.offers offer.id (some { offer, useRelayer })
        db     := m.db.putOffer offer }) :
    (addOffer put offer useRelayer).Preserves P := by
  refine preserves_bind preserves_get fun m => ?_
  split
  case h_1 => exact preserves_pure
  case h_2 =>
    exact preserves_bind preserves_throwIf fun _ =>
      preserves_bind (preserves_modify hp) fun _ => preserves_pure

theorem preserves_clearOfferIDs {del : Bytes32 → Bool} {ids : List Bytes32}
    (hd : ∀ id ∈ ids, (deleteOffer (del id) id).Preserves P) :
    (clearOfferIDs del ids).Preserves P := by
  induction ids
  case nil            => exact preserves_pure
  case cons id ids hi =>
    exact preserves_bind (hd id (by simp)) fun _ => hi fun id' h => hd id' (by simp [h])

end Preserves

theorem Stored.mono {U' : Bytes32 → Prop} (h : m.Stored U) (hu : ∀ id, U' id → U id) :
    m.Stored U' :=
  fun id hi => h id <| hi.imp_right (hu id)

theorem newManager_stored (h : m.Stored U) : (newManager m.db).Stored U := by
  intro id hi
  rcases hi with hi | hi
  case inl => simpa [newManager, OfferTable.Has] using hi
  case inr => exact h id (.inr hi)

-- An offer that is taken stays in the database.
theorem forget_stored (h : m.Stored U) :
    Stored U { m with offers := update m.offers id none } := by
  intro id' hi
  refine h id' <| hi.imp_left fun ho => ?_
  by_cases he : id' = id
  · simp [he] at ho
  · simpa [update_of_ne he] using ho

theorem putOffer_stored {offer : Offer} {useRelayer : Bool} (h : m.Stored U) :
    Stored U
      { m with
        offers := update m.offers offer.id (some { offer, useRelayer })
        db     := m.db.putOffer offer } := by
  intro id hi
  rw [OfferTable.has_putOffer]
  by_cases he : id = offer.id
  · exact .inl he
  · simp only [update_of_ne he] at hi
    exact .inr (h id hi)

-- The offer is removed from memory too, so that it may be removed from the database.
theorem deleted_stored (hu : ¬U id) (h : m.Stored U) :
    Stored U { offers := update m.offers id none, db := m.db.deleteOffer id } := by
  intro id' hi
  have he : id' ≠ id := by
    rintro rfl
    rcases hi with hi | hi
    case inl => simp at hi
    case inr => exact hu hi
  exact OfferTable.has_deleteOffer.mpr ⟨he, forget_stored h id' hi⟩

theorem preserves_deleteOffer {del : Bool} (hu : ¬U id) :
    (deleteOffer del id).Preserves (Stored U) := by
  intro m h
  cases del
  case false => exact forget_stored h
  case true  => exact deleted_stored hu h

theorem preserves_cleared (hu : ∀ id, ¬U id) : (clearAllOffers .cleared).Preserves (Stored U) := by
  intro m h id hi
  rcases hi with hi | hi
  case inl => cases hi
  case inr => exact hu id hi |>.elim

end Manager

namespace Daemon

variable {d : Daemon} {id : Bytes32} {i : Input}

-- A swap takes the offer: it is being started, or it is ongoing, or it will be after a restart.
def InUse (d : Daemon) (id : Bytes32) : Prop :=
  d.starting = some id ∨ (d.ongoing id).isSome ∨ (d.swapDB id).any Status.isOngoing

instance : Decidable (d.InUse id) :=
  inferInstanceAs (Decidable (_ ∨ _))

-- No offer in use is deleted, and the database does not stop half-way when all are.
def Careful (d : Daemon) : Input → Prop
  | .deleteOffer _ id                 => ¬d.InUse id
  | .clearOfferIDs _ ids              => ∀ id ∈ ids, ¬d.InUse id
  | .clearAllOffers .cleared          => ∀ id, ¬d.InUse id
  | .clearAllOffers (.failed deleted) => deleted = []
  | _                                 => True

def Inv (d : Daemon) : Prop :=
  d.manager.Stored d.InUse

-- Each swap whose XMR is locked finds its offer after a restart.
def Recoverable (d : Daemon) : Prop :=
  ∀ id, d.ongoing id = some .xmrLocked → d.manager.Restorable id

theorem new_inv : new.Inv := by
  intro id hi
  simp [new, Manager.newManager, OfferTable.empty, InUse] at hi

theorem Inv.recoverable (h : d.Inv) : d.Recoverable :=
  fun id hi => Manager.restorable_iff.mpr <| h id <| .inr <| .inr <| .inl <| by simp [hi]

theorem Inv.call {α : Type} {x : Manager.M α} (h : d.Inv)
    (hx : x.Preserves (Manager.Stored d.InUse)) : (d.call x).Inv :=
  hx d.manager h

-- An offer that is in use after a step of a swap was so before.
theorem Inv.used (h : d.Inv) {d' : Daemon} (hm : d'.manager = d.manager)
    (hu : ∀ id, d'.InUse id → d.InUse id) : d'.Inv := by
  have hs : d.manager.Stored d'.InUse := h.mono hu
  rwa [← hm] at hs

theorem initiate_inv (h : d.Inv) : (d.step (.initiate id)).Inv := by
  simp only [step]
  split
  case h_1 oe m hs ht =>
    obtain ⟨ho, rfl⟩ := Manager.takeOffer_ok.mp ht
    intro id' hi
    rcases hi with hi | hi | hi
    case inl => exact Manager.forget_stored h id' (.inl hi)
    case inr.inl =>
      obtain rfl : id = id' := Option.some.inj hi
      exact h id (.inl (by simp [ho]))
    case inr.inr => exact h id' (.inr (.inr hi))
  case h_2 => exact h

-- A swap changes only its own entries, and its offer is in use.
theorem Inv.swap {d' : Daemon} (h : d.Inv) (hi : d.InUse id) (hm : d'.manager = d.manager)
    (hs : ∀ id, d'.starting = some id → d.starting = some id)
    (ho : ∀ id' ≠ id, d'.ongoing id' = d.ongoing id')
    (hd : ∀ id' ≠ id, d'.swapDB id' = d.swapDB id') : d'.Inv := by
  refine h.used hm fun id' hu => ?_
  by_cases he : id' = id
  · exact he ▸ hi
  · rw [InUse, ho id' he, hd id' he] at hu
    exact hu.imp_left (hs id')

theorem addSwap_inv {put : Bool} (h : d.Inv) : (d.step (.addSwap put)).Inv := by
  simp only [step]
  split
  case h_1       => exact h
  case h_2 id hs =>
    refine h.swap (.inl hs) rfl (by simp) (fun _ he => update_of_ne he ..) fun _ he => ?_
    cases put <;> simp [he]

theorem initiateFailed_inv (h : d.Inv) : (d.step .initiateFailed).Inv :=
  h.used rfl fun _ hu => .inr (hu.resolve_left (by simp [step]))

theorem updateStatus_inv {status : Status} (h : d.Inv) :
    (d.step (.updateStatus id status)).Inv := by
  simp only [step]
  split
  case isTrue ho =>
    have hi : d.InUse id := .inr (.inl ho)
    exact h.swap hi rfl (fun _ hs => hs) (fun _ he => update_of_ne he ..) fun _ _ => rfl
  case isFalse   => exact h

theorem writeSwapToDB_inv (h : d.Inv) : (d.step (.writeSwapToDB id)).Inv := by
  simp only [step]
  split
  case isTrue ho =>
    have hi : d.InUse id := .inr (.inl ho)
    exact h.swap hi rfl (fun _ hs => hs) (fun _ _ => rfl) fun _ he => update_of_ne he ..
  case isFalse   => exact h

theorem completeOngoingSwap_inv {put : Bool} {status : Status} (h : d.Inv) :
    (d.step (.completeOngoingSwap put id status)).Inv := by
  simp only [step]
  split
  case isTrue ho =>
    have hi : d.InUse id := .inr (.inl ho)
    refine h.swap hi rfl (fun _ hs => hs) (fun _ he => update_of_ne he ..) fun _ he => ?_
    cases put <;> simp [he]
  case isFalse   => exact h

theorem restart_inv (h : d.Inv) : (d.step .restart).Inv := by
  refine Manager.newManager_stored <| h.mono fun id hu => ?_
  rcases hu with hu | hu | hu
  case inl     => cases hu
  case inr.inl =>
    refine .inr <| .inr ?_
    obtain ⟨s, hs⟩ := Option.isSome_iff_exists.mp hu
    obtain ⟨hd, ho⟩ := Option.filter_eq_some_iff.mp hs
    simp [hd, ho]
  case inr.inr => exact .inr <| .inr hu

theorem step_inv (h : d.Inv) (hc : d.Careful i) : (d.step i).Inv := by
  cases i
  case getOffer id                   => exact h.call Manager.preserves_getOffer
  case addOffer put offer useRelayer =>
    exact h.call <| Manager.preserves_addOffer fun _ => Manager.putOffer_stored
  case takeOffer id                  =>
    exact h.call <| Manager.preserves_takeOffer fun _ => Manager.forget_stored
  case deleteOffer del id            => exact h.call (Manager.preserves_deleteOffer hc)
  case clearOfferIDs del ids         =>
    exact h.call <| Manager.preserves_clearOfferIDs fun id hi =>
      Manager.preserves_deleteOffer (hc id hi)
  case clearAllOffers result         =>
    cases result
    case cleared        => exact h.call (Manager.preserves_cleared hc)
    case failed deleted =>
      obtain rfl : deleted = [] := hc
      exact h
  case initiate id                   => exact initiate_inv h
  case addSwap put                   => exact addSwap_inv h
  case initiateFailed                => exact initiateFailed_inv h
  case updateStatus id status        => exact updateStatus_inv h
  case writeSwapToDB id              => exact writeSwapToDB_inv h
  case completeOngoingSwap put id s  => exact completeOngoingSwap_inv h
  case restart                       => exact restart_inv h

-- Offers that are deleted only while no swap takes them are found after each restart.
theorem careful_recoverable (is : List Input) (h : Machine.Along step Careful is new) :
    (run is new).Recoverable :=
  (Machine.run_invariant (fun _ _ => step_inv) new_inv h).recoverable

end Daemon

namespace Sample

def offerOf (id : Bytes32) : Offer where
  id
  minAmount    := { coeff := 1 }
  maxAmount    := { coeff := 10 }
  exchangeRate := { coeff := 5 }
  ethAsset     := ethAssetETH

-- From the taking of an offer to the locking of the XMR.
def locking (id : Bytes32) : List Daemon.Input :=
  [.initiate id, .addSwap true, .updateStatus id .xmrLocked, .writeSwapToDB id]

-- Another offer is cleared while the swap runs, and the daemon is started again.
def clearing : List Daemon.Input :=
  [.addOffer true (offerOf 1) false, .clearAllOffers .cleared, .addOffer true (offerOf 1) true,
    .addOffer true (offerOf 2) false] ++ locking 1 ++
  [.clearOfferIDs (fun _ => true) [2], .restart]

end Sample

namespace Daemon

open XMRMaker.Offers.Sample

theorem careful_recoverable_clearing :
    (run clearing new).ongoing 1 = some .xmrLocked ∧ (run clearing new).Recoverable := by
  refine ⟨by decide, careful_recoverable clearing ?_⟩
  refine ⟨trivial, fun _ => ?_, trivial, trivial, trivial, trivial, trivial, trivial, ?_, trivial,
    trivial⟩
  · exact of_decide_eq_false rfl
  · intro id hi
    obtain rfl := List.mem_singleton.mp hi
    decide

-- The offer of a running swap is cleared, by its ID or with all offers, or it has been left in
-- memory alone before the swap started.
theorem cleared_unrecoverable :
    let added := [Input.addOffer true (offerOf 1) false]
    ¬(run (added ++ locking 1 ++ [.clearOfferIDs (fun _ => true) [1]]) new).Recoverable ∧
    ¬(run (added ++ locking 1 ++ [.clearAllOffers .cleared]) new).Recoverable ∧
    ¬(run (added ++ [.clearAllOffers (.failed [1])] ++ locking 1) new).Recoverable := by
  have hr {d : Daemon} (ho : d.ongoing 1 = some .xmrLocked) (hd : ¬d.manager.db.Has 1) :
      ¬d.Recoverable :=
    fun h => hd <| Manager.restorable_iff.mp (h 1 ho)
  exact ⟨hr (by decide) (by decide), hr (by decide) (by decide),
    hr (by decide) (by decide)⟩

end Daemon

end XMRMaker.Offers
