import AtomicSwap.Common.Types
import AtomicSwap.Ethereum.Utils

open Ethereum SwapCreator

-- What both sides of a swap keep about it.

-- Nanoseconds since the year 1.
abbrev Time := ℤ

def int64 (n : ℤ) : ℤ :=
  (BitVec.ofInt 64 n).toInt

def unix (seconds : ℤ) : Time :=
  int64 (seconds + 62135596800) * 10 ^ 9

-- Durations are 64-bit numbers of nanoseconds, which differences of times do not exceed.
def Time.sub (t u : Time) : ℤ :=
  max (-2 ^ 63) (min (2 ^ 63 - 1) (t - u))

def absDuration (d : ℤ) : ℤ :=
  if d = -2 ^ 63 then 2 ^ 63 - 1 else |d|

structure Info where
  offerID        : Bytes32
  providedAmount : Decimal
  expectedAmount : Decimal
  ethAsset       : Address
  status         : Status
  deriving DecidableEq

-- What the recovery database holds about the contract of a swap.
structure EthereumSwapInfo where
  startNumber     : ℕ
  swapID          : Bytes32
  swap            : SwapCreatorSwap
  swapCreatorAddr : Address
  deriving DecidableEq

structure Receipt where
  success     : Bool
  logs        : List Log
  blockNumber : ℕ

-- The channel of an event on which its sender waits for one value or for the channel to be closed.
structure ErrCh where
  values : ℕ := 0
  closed : Bool := false
  deriving DecidableEq

def ErrCh.Answered (ch : ErrCh) : Prop :=
  ch.values ≤ 1 ∧ ch.closed

instance : DecidablePred ErrCh.Answered :=
  fun ch => inferInstanceAs (Decidable (ch.values ≤ 1 ∧ ch.closed))
