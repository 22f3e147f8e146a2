import AtomicSwap.Common.Types
import AtomicSwap.Library.Machine

open Ethereum Function

-- The streams over which swaps are initiated, with all goroutines that handle them. Each step holds
-- `swapMu`, or does not touch the map of swaps.
namespace Net

-- Streams that a peer has opened, and those that `Initiate` opens.
inductive Stream
  | incoming (n : ℕ)
  | outgoing (n : ℕ)
  deriving DecidableEq

-- The swap state is named by the stream for which it was made.
structure Swap where
  stream       : Stream
  swapState    : Option Stream := none
  streamClosed : Bool          := false
  deriving DecidableEq

-- Where `handleProtocolStream` is: `HandleInitiateMessage` is running, it is leaving the swap that
-- it has made, it has returned an error, it has returned a swap state. Then the stream is served.
inductive HandlerState
  | reading
  | initiating (id : Bytes32)
  | exiting (id : Bytes32)
  | failed (id : Bytes32)
  | succeeded (id : Bytes32)
  | serving (id : Bytes32)
  | closed
  deriving DecidableEq

-- The streams that have been put into the map and not been removed from it are not part of the
-- code.
structure Host where
  swaps      : Bytes32 → Option Swap
  handlers   : ℕ → HandlerState
  opened     : ℕ
  panicked   : Bool
  registered : Stream → Option Bytes32

-- A message that is not a `SendKeysMessage`, or cannot be read, is `none`. `Initiate` sends its
-- message, or not. The last three are called by the swaps.
inductive Input
  | received (n : ℕ) (im : Option Bytes32)
  | exit (n : ℕ)
  | initiated (n : ℕ) (ok : Bool)
  | delete (n : ℕ)
  | setSwapState (n : ℕ)
  | streamClosed (n : ℕ)
  | initiate (id : Bytes32) (sent : Bool)
  | closeProtocolStream (id : Bytes32)
  | deleteOngoingSwap (id : Bytes32)

namespace Host

def new : Host where
  swaps _      := none
  handlers _   := .reading
  opened       := 0
  panicked     := false
  registered _ := none

def goto (h : Host) (n : ℕ) (handler : HandlerState) : Host :=
  { h with handlers := update h.handlers n handler }

def register (h : Host) (id : Bytes32) (s : Swap) : Host :=
  { h with
    swaps      := update h.swaps id (some s)
    registered := update h.registered s.stream (some id) }

def unregister (h : Host) (id : Bytes32) : Host :=
  match h.swaps id with
  | none   => h
  | some s =>
    { h with
      swaps      := update h.swaps id none
      registered := update h.registered s.stream none }

-- The first part of `handleProtocolStream`, which ends with the call of `HandleInitiateMessage`.
def handleProtocolStream (h : Host) (n : ℕ) : Option Bytes32 → Host
  | none    => h.goto n .closed
  | some id =>
    match h.swaps id with
    | some _ => h.goto n .closed
    | none   => h.register id { stream := .incoming n } |>.goto n (.initiating id)

def initiated (h : Host) (n : ℕ) (ok : Bool) : Host :=
  match h.handlers n with
  | .initiating id => h.goto n (if ok then .succeeded id else .failed id)
  | .exiting id    => h.goto n (.failed id)
  | _              => h

-- The entry may be missing, and then the assignment panics.
def setSwapState (h : Host) (n : ℕ) (id : Bytes32) : Host :=
  match h.swaps id with
  | none   => { h with panicked := true }
  | some s =>
    { h with swaps := update h.swaps id (some { s with swapState := some (.incoming n) }) }
    |>.goto n (.serving id)

def initiate (h : Host) (id : Bytes32) (sent : Bool) : Host :=
  match h.swaps id with
  | some _ => h
  | none   =>
    if sent then
      let stream := .outgoing h.opened
      { h with opened := h.opened + 1 }.register id { stream, swapState := some stream }
    else h

def closeProtocolStream (h : Host) (id : Bytes32) : Host :=
  match h.swaps id with
  | none   => h
  | some s => { h with swaps := update h.swaps id (some { s with streamClosed := true }) }

def deleteOngoingSwap (h : Host) (id : Bytes32) : Host :=
  h.unregister id

def step (h : Host) (i : Input) : Host :=
  if h.panicked then h else
  match i with
  | .received n im          =>
    match h.handlers n with
    | .reading => h.handleProtocolStream n im
    | _        => h
  | .exit n                 =>
    match h.handlers n with
    | .initiating id => h.goto n (.exiting id)
    | _              => h
  | .initiated n ok         => h.initiated n ok
  | .delete n               =>
    match h.handlers n with
    | .failed id => h.unregister id |>.goto n .closed
    | _          => h
  | .setSwapState n         =>
    match h.handlers n with
    | .succeeded id => h.setSwapState n id
    | _             => h
  | .streamClosed n         =>
    match h.handlers n with
    | .serving _ => h.goto n .closed
    | _          => h
  | .initiate id sent       => h.initiate id sent
  | .closeProtocolStream id => h.closeProtocolStream id
  | .deleteOngoingSwap id   => h.deleteOngoingSwap id

def run : List Input → Host → Host :=
  Machine.run step

end Host

end Net
