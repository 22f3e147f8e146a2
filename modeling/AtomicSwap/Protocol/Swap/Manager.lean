import Mathlib.Data.List.AList
import AtomicSwap.Library.Handler
import AtomicSwap.Library.Machine
import AtomicSwap.Protocol.Basic

open Ethereum Handler

-- The swap manager, which knows the ongoing swaps of both sides and some of the past ones.
namespace Swap

-- `Info` with the fields that only the swap manager and the recovery use.
structure Record extends Info where
  provides : Coins.ProvidesCoin
  endTime  : Option Time := none
  deriving DecidableEq

-- The table of swaps of the database. A swap is put under its own ID.
structure Table where
  entries : AList fun _ : Bytes32 => Record
  keyed   : ∀ id s, entries.lookup id = some s → s.offerID = id

namespace Table

def empty : Table where
  entries := ∅
  keyed   := by simp

def putSwap (t : Table) (s : Record) : Table where
  entries := t.entries.insert s.offerID s
  keyed   := by
    intro id s' h
    by_cases hi : id = s.offerID
    · subst hi
      simp only [AList.lookup_insert, Option.some.injEq] at h
      rw [← h]
    · rw [AList.lookup_insert_ne hi] at h
      exact t.keyed id s' h

def getSwap (t : Table) (id : Bytes32) : Option Record :=
  t.entries.lookup id

def getAllSwaps (t : Table) : List Record :=
  t.entries.entries.map Sigma.snd

end Table

inductive Error
  | noSwapWithOfferID
  | db
  | panicked
  deriving DecidableEq

-- The state machines and the manager share an `Info` by its pointer, which is an index of `infos`.
structure Manager where
  db      : Table
  infos   : List Record
  ongoing : AList fun _ : Bytes32 => ℕ
  past    : AList fun _ : Bytes32 => ℕ

namespace Manager

def load (m : Manager) (s : Record) : Manager :=
  { m with
    infos   := m.infos ++ [s]
    ongoing := m.ongoing.insert s.offerID m.infos.length }

def newManager (db : Table) : Manager :=
  db.getAllSwaps.filter (·.status.isOngoing)
    |>.foldl load { db, infos := [], ongoing := ∅, past := ∅ }

abbrev M := Handler Manager Error

def newInfo (s : Record) : M ℕ := do
  let m ← get
  modify fun m => { m with infos := m.infos ++ [s] }
  return m.infos.length

def info (p : ℕ) : M Record := do
  let m ← get
  ofOption .panicked m.infos[p]?

def setStatus (p : ℕ) (status : Status) : M Unit :=
  modify fun m => { m with infos := m.infos.modify p ({ · with status }) }

-- Here and below, the calls of the database succeed, or not.

def putSwap (put : Bool) (s : Record) : M Unit := do
  throwIf (put = false) .db
  modify fun m => { m with db := m.db.putSwap s }

def addSwap (put : Bool) (p : ℕ) : M Unit := do
  let info ← info p
  modify fun m =>
    if info.status.isOngoing then { m with ongoing := m.ongoing.insert info.offerID p }
    else { m with past := m.past.insert info.offerID p }
  putSwap put info

def writeSwapToDB (put : Bool) (p : ℕ) : M Unit := do
  let info ← info p
  putSwap put info

def getPastIDs (getAllSwaps : Bool) : M (List Bytes32) := do
  let m ← get
  throwIf (getAllSwaps = false) .db
  let stored := m.db.getAllSwaps.filter (!·.status.isOngoing)
  return (m.past.keys ++ stored.map (·.offerID)).dedup

-- The swap that the database returns is a new `Info`.
def getPastSwap (getSwap : Bool) (id : Bytes32) : M ℕ := do
  let m ← get
  match m.past.lookup id with
  | some p => return p
  | none   =>
    throwIf (getSwap = false) .db
    let s ← ofOption .noSwapWithOfferID (m.db.getSwap id)
    let p ← newInfo s
    modify fun m => { m with past := m.past.insert s.offerID p }
    return p

def getOngoingSwap (id : Bytes32) : M ℕ := do
  let m ← get
  ofOption .noSwapWithOfferID (m.ongoing.lookup id)

def completeOngoingSwap (put : Bool) (now : Time) (p : ℕ) : M Unit := do
  let info ← info p
  let m ← get
  throwIf (info.offerID ∉ m.ongoing) .noSwapWithOfferID
  modify fun m =>
    { m with
      infos   := m.infos.modify p ({ · with endTime := some now })
      past    := m.past.insert info.offerID p
      ongoing := m.ongoing.erase info.offerID }
  putSwap put { info with endTime := some now }

def hasOngoingSwap (m : Manager) (id : Bytes32) : Bool :=
  id ∈ m.ongoing

-- What the protocols and the users of a process ask of the manager while the database works. The
-- protocols add an `Info` when they have created it.
inductive Call
  | addSwap (info : Record)
  | setStatus (p : ℕ) (status : Status)
  | writeSwapToDB (p : ℕ)
  | completeOngoingSwap (now : Time) (p : ℕ)
  | getPastSwap (id : Bytes32)
  | getPastIDs
  deriving DecidableEq

def step (m : Manager) : Call → Manager
  | .addSwap info              => ((newInfo info >>= addSwap true) m).snd
  | .setStatus p status        => (setStatus p status m).snd
  | .writeSwapToDB p           => (writeSwapToDB true p m).snd
  | .completeOngoingSwap now p => (completeOngoingSwap true now p m).snd
  | .getPastSwap id            => (getPastSwap true id m).snd
  | .getPastIDs                => (getPastIDs true m).snd

def run : List Call → Manager → Manager :=
  Machine.run step

end Manager

end Swap
