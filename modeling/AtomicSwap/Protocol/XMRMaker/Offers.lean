import AtomicSwap.Common.Types
import AtomicSwap.Library.Handler
import AtomicSwap.Library.Machine

open Ethereum Handler Function

-- The offers of the maker in memory and in the database, and the swaps that take them.
namespace XMRMaker.Offers

-- The table of offers of the database. An offer is put under its own ID.
structure OfferTable where
  get   : Bytes32 → Option Offer
  keyed : ∀ id offer, get id = some offer → offer.id = id

namespace OfferTable

def empty : OfferTable where
  get _ := none
  keyed := by simp

def putOffer (t : OfferTable) (offer : Offer) : OfferTable where
  get   := update t.get offer.id (some offer)
  keyed := by
    intro id offer' h
    by_cases hi : id = offer.id
    · subst hi
      simp only [update_self, Option.some.injEq] at h
      rw [← h]
    · rw [update_of_ne hi] at h
      exact t.keyed id offer' h

def deleteOffer (t : OfferTable) (id : Bytes32) : OfferTable where
  get   := update t.get id none
  keyed := by
    intro id' offer h
    by_cases hi : id' = id
    · simp [hi] at h
    · rw [update_of_ne hi] at h
      exact t.keyed id' offer h

def deleteOffers (t : OfferTable) (ids : List Bytes32) : OfferTable :=
  ids.foldl deleteOffer t

def Has (t : OfferTable) (id : Bytes32) : Prop :=
  (t.get id).isSome

end OfferTable

structure OfferWithExtra where
  offer      : Offer
  useRelayer : Bool
  deriving DecidableEq

inductive Error
  | offerDoesNotExist
  | db
  deriving DecidableEq

structure Manager where
  offers : Bytes32 → Option OfferWithExtra
  db     : OfferTable

-- How the database ends `ClearAllOffers`: all offers are deleted, or an error stops the loop after
-- some of them.
inductive ClearResult
  | cleared
  | failed (deleted : List Bytes32)

namespace Manager

-- The keys of the map are the IDs of the offers, which are the keys of the table.
def newManager (db : OfferTable) : Manager where
  offers id := (db.get id).map ({ offer := ·, useRelayer := false })
  db

abbrev M := Handler Manager Error

-- Here and below, the calls of the database succeed, or not.

def getOffer (id : Bytes32) : M OfferWithExtra := do
  let m ← get
  ofOption .offerDoesNotExist (m.offers id)

def addOffer (put : Bool) (offer : Offer) (useRelayer : Bool) : M Bool := do
  let m ← get
  match m.offers offer.id with
  | some oe => return oe.useRelayer
  | none    =>
    throwIf (put = false) .db
    modify fun m =>
      { m with
        offers := update m.offers offer.id (some { offer, useRelayer })
        db     := m.db.putOffer offer }
    return useRelayer

def takeOffer (id : Bytes32) : M OfferWithExtra := do
  let oe ← getOffer id
  modify fun m => { m with offers := update m.offers id none }
  return oe

def deleteOffer (del : Bool) (id : Bytes32) : M Unit := do
  modify fun m => { m with offers := update m.offers id none }
  throwIf (del = false) .db
  modify fun m => { m with db := m.db.deleteOffer id }

-- Each ID is treated as `deleteOffer` does.
def clearOfferIDs (del : Bytes32 → Bool) : List Bytes32 → M Unit
  | []        => return ()
  | id :: ids => do
    deleteOffer (del id) id
    clearOfferIDs del ids

def clearAllOffers : ClearResult → M Unit
  | .cleared        => modify fun _ => { offers := fun _ => none, db := .empty }
  | .failed deleted => do
    modify fun m => { m with db := m.db.deleteOffers deleted }
    throwIf True .db

end Manager

-- The offer which `initiate` has taken for a swap that is not yet added, and the maker's swaps in
-- the swap manager and in the database.
structure Daemon where
  manager  : Manager
  starting : Option Bytes32
  ongoing  : Bytes32 → Option Status
  swapDB   : Bytes32 → Option Status

namespace Daemon

def new : Daemon where
  manager   := .newManager .empty
  starting  := none
  ongoing _ := none
  swapDB _  := none

-- The calls of the offer manager, and what the swaps do. Only one swap is started at a time. A swap
-- that exits completes and then adds or deletes its offer.
inductive Input
  | getOffer (id : Bytes32)
  | addOffer (put : Bool) (offer : Offer) (useRelayer : Bool)
  | takeOffer (id : Bytes32)
  | deleteOffer (del : Bool) (id : Bytes32)
  | clearOfferIDs (del : Bytes32 → Bool) (ids : List Bytes32)
  | clearAllOffers (result : ClearResult)
  | initiate (id : Bytes32)
  | addSwap (put : Bool)
  | initiateFailed
  | updateStatus (id : Bytes32) (status : Status)
  | writeSwapToDB (id : Bytes32)
  | completeOngoingSwap (put : Bool) (id : Bytes32) (status : Status)
  | restart

def call {α : Type} (d : Daemon) (x : Manager.M α) : Daemon :=
  { d with manager := (x d.manager).snd }

def step (d : Daemon) : Input → Daemon
  | .getOffer id                   => d.call (Manager.getOffer id)
  | .addOffer put offer useRelayer => d.call (Manager.addOffer put offer useRelayer)
  | .takeOffer id                  => d.call (Manager.takeOffer id)
  | .deleteOffer del id            => d.call (Manager.deleteOffer del id)
  | .clearOfferIDs del ids         => d.call (Manager.clearOfferIDs del ids)
  | .clearAllOffers result         => d.call (Manager.clearAllOffers result)
  | .initiate id                   =>
    match d.starting, Manager.takeOffer id d.manager with
    | none, (.ok _, manager) => { d with manager, starting := some id }
    | _, _                   => d
  | .addSwap put                   =>
    match d.starting with
    | none    => d
    | some id =>
      { d with
        starting := none
        ongoing  := update d.ongoing id (some .keysExchanged)
        swapDB   := if put then update d.swapDB id (some .keysExchanged) else d.swapDB }
  | .initiateFailed                => { d with starting := none }
  | .updateStatus id status        =>
    if (d.ongoing id).isSome then { d with ongoing := update d.ongoing id (some status) } else d
  | .writeSwapToDB id              =>
    if (d.ongoing id).isSome then { d with swapDB := update d.swapDB id (d.ongoing id) } else d
  | .completeOngoingSwap put id s  =>
    if (d.ongoing id).isSome then
      { d with
        ongoing := update d.ongoing id none
        swapDB  := if put then update d.swapDB id (some s) else d.swapDB }
    else d
  | .restart                       =>
    { d with
      manager    := .newManager d.manager.db
      starting   := none
      ongoing id := (d.swapDB id).filter Status.isOngoing }

def run : List Input → Daemon → Daemon :=
  Machine.run step

end Daemon

end XMRMaker.Offers
