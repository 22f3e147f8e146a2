import AtomicSwap.Common.Types

open Ethereum Function

namespace Swap

def statusChSize : ℕ := 6

-- The status channels by offer ID. Each is the list of the statuses that nobody has read, of which
-- the first is the oldest.
structure StatusManager where
  statusChannels : Bytes32 → Option (List Status)

namespace StatusManager

variable (sm : StatusManager) (id : Bytes32)

def newStatusManager : StatusManager where
  statusChannels _ := none

-- A new channel is empty.
def getStatusChan : List Status :=
  (sm.statusChannels id).getD []

def deleteStatusChan : StatusManager where
  statusChannels := update sm.statusChannels id none

def send (status : Status) : StatusManager where
  statusChannels := update sm.statusChannels id (some (sm.getStatusChan id ++ [status]))

-- If the channel is full, the sender waits for a reader.
def pushNewStatus (status : Status) : Option StatusManager :=
  if (sm.getStatusChan id).length < statusChSize then
    if status.isOngoing then some (sm.send id status)
    else some ((sm.send id status).deleteStatusChan id)
  else none

-- The statuses that are pushed one after the other, up to the first without room.
def pushAll (sm : StatusManager) (id : Bytes32) : List Status → Bool × StatusManager
  | []      => (true, sm)
  | s :: ss =>
    match sm.pushNewStatus id s with
    | some sm => pushAll sm id ss
    | none    => (false, sm)

end StatusManager

end Swap
