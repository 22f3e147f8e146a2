import AtomicSwap.Ethereum.Token.Basic
import AtomicSwap.Library.Bytes

-- How a contract calls a token by the libraries `SafeERC20` and `Address`.
namespace Ethereum.SafeERC20

inductive Error
  | nonContract                  -- "Address: call to non-contract"
  | reverted (data : List UInt8) -- with the data of the called contract
  | lowLevelCallFailed           -- "SafeERC20: low-level call failed"
  | malformed                    -- `abi.decode` finds no bool
  | notSucceeded                 -- "SafeERC20: ERC20 operation did not succeed"
  deriving DecidableEq

-- What a low-level call returns.
structure Answer where
  success    : Bool
  returndata : List UInt8
  deriving DecidableEq

def verifyCallResultFromTarget (isContract : Bool) (answer : Answer) (error : Error) :
    Except Error (List UInt8) :=
  if answer.success then do
    .failIf (answer.returndata = [] ∧ ¬isContract) .nonContract
    return answer.returndata
  else if answer.returndata ≠ [] then
    .error (.reverted answer.returndata)
  else
    .error error

def decodeBool (data : List UInt8) : Except Error Bool :=
  if data.length < 32 then .error .malformed
  else
    match Bytes.beValue (data.take 32) with
    | 0 => .ok false
    | 1 => .ok true
    | _ => .error .malformed

def _callOptionalReturn (isContract : Bool) (answer : Answer) : Except Error Unit := do
  let returndata ← verifyCallResultFromTarget isContract answer .lowLevelCallFailed
  let succeeded ← if returndata = [] then .ok true else decodeBool returndata
  .failIf (¬succeeded) .notSucceeded

open Token

variable (revertData : Revert Token.Error → List UInt8)

-- The methods of `ERC20` return `true` or revert.
def answer : Result ERC20 → Answer
  | .ok _    => ⟨true, Bytes.be 32 1⟩
  | .error e => ⟨false, revertData e⟩

-- The state of the token after it was called.
def call (result : Result ERC20) (t : ERC20) : Except Error ERC20 := do
  _callOptionalReturn true (answer revertData result)
  return result.toOption.getD t

def safeTransfer (t : ERC20) (this dst : Address) (value : Uint256) : Except Error ERC20 :=
  call revertData (t.transfer this dst value) t

def safeTransferFrom (t : ERC20) (this src dst : Address) (value : Uint256) :
    Except Error ERC20 :=
  call revertData (t.transferFrom this src dst value) t

variable {revertData} {t t' : ERC20} {result : Result ERC20}

theorem verifyCallResultFromTarget_failed (c : Bool) (data : List UInt8) (e : Error) :
    ∃ e', verifyCallResultFromTarget c ⟨false, data⟩ e = .error e' := by
  by_cases h : data = [] <;> simp [verifyCallResultFromTarget, h]

-- The library accepts exactly the calls that have succeeded.
theorem call_eq_ok : call revertData result t = .ok t' ↔ result = .ok t' := by
  cases result
  case ok u =>
    have ha : _callOptionalReturn true (answer revertData (.ok u)) = .ok () := rfl
    simp [call, ha, Except.toOption]
  case error e =>
    obtain ⟨e', he⟩ := verifyCallResultFromTarget_failed true (revertData e) .lowLevelCallFailed
    simp only [call, _callOptionalReturn, answer, he, Except.bind_error, reduceCtorEq]

end Ethereum.SafeERC20
