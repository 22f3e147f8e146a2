import AtomicSwap.Ethereum.Basic
import AtomicSwap.Library.Except
import AtomicSwap.Library.Machine

open Function

namespace Ethereum.Token

inductive Error
  | transferFromZero            -- "ERC20: transfer from the zero address"
  | transferToZero              -- "ERC20: transfer to the zero address"
  | transferExceedsBalance      -- "ERC20: transfer amount exceeds balance"
  | mintToZero                  -- "ERC20: mint to the zero address"
  | burnFromZero                -- "ERC20: burn from the zero address"
  | burnExceedsBalance          -- "ERC20: burn amount exceeds balance"
  | approveFromZero             -- "ERC20: approve from the zero address"
  | approveToZero               -- "ERC20: approve to the zero address"
  | insufficientAllowance       -- "ERC20: insufficient allowance"
  | decreasedBelowZero          -- "ERC20: decreased allowance below zero"
  | onlyVaultManager
  | zeroAddress
  | ownableUnauthorizedAccount  -- of `Ownable`
  | ownableInvalidOwner         -- of `Ownable`
  deriving DecidableEq

inductive Event
  | transfer (src dst : Address) (value : Uint256)
  | approval (owner spender : Address) (value : Uint256)
  | vaultManagerUpdated (oldManager newManager : Address)
  | ownershipTransferred (previousOwner newOwner : Address)
  deriving DecidableEq

structure ERC20 where
  balances    : Address → Uint256
  allowances  : Address → Address → Uint256
  totalSupply : Uint256
  logs        : List Event

abbrev Result := Except (Revert Error)

namespace ERC20

def new : ERC20 where
  balances _     := 0
  allowances _ _ := 0
  totalSupply    := 0
  logs           := []

variable (s : ERC20)

def emit (e : Event) : ERC20 :=
  { s with logs := s.logs ++ [e] }

@[simp]
theorem emit_balances {e : Event} : (s.emit e).balances = s.balances :=
  rfl

@[simp]
theorem emit_allowances {e : Event} : (s.emit e).allowances = s.allowances :=
  rfl

@[simp]
theorem emit_totalSupply {e : Event} : (s.emit e).totalSupply = s.totalSupply :=
  rfl

-- The sums and differences of balances are not checked by the contract.
def _transfer (src dst : Address) (amount : Uint256) : Result ERC20 := do
  .failIf (src = 0) (.custom .transferFromZero)
  .failIf (dst = 0) (.custom .transferToZero)
  .failIf (s.balances src < amount) (.custom .transferExceedsBalance)
  let balances := update s.balances src (s.balances src - amount)
  let balances := update balances dst (balances dst + amount)
  return { s with balances } |>.emit (.transfer src dst amount)

def _mint (account : Address) (amount : Uint256) : Result ERC20 := do
  .failIf (account = 0) (.custom .mintToZero)
  let totalSupply ← Uint256.add s.totalSupply amount
  let balances := update s.balances account (s.balances account + amount)
  return { s with totalSupply, balances } |>.emit (.transfer 0 account amount)

def _burn (account : Address) (amount : Uint256) : Result ERC20 := do
  .failIf (account = 0) (.custom .burnFromZero)
  .failIf (s.balances account < amount) (.custom .burnExceedsBalance)
  let balances := update s.balances account (s.balances account - amount)
  let totalSupply := s.totalSupply - amount
  return { s with balances, totalSupply } |>.emit (.transfer account 0 amount)

def _approve (owner spender : Address) (amount : Uint256) : Result ERC20 := do
  .failIf (owner = 0) (.custom .approveFromZero)
  .failIf (spender = 0) (.custom .approveToZero)
  let allowances := update s.allowances owner (update (s.allowances owner) spender amount)
  return { s with allowances } |>.emit (.approval owner spender amount)

-- The largest number is no limit at all.
def _spendAllowance (owner spender : Address) (amount : Uint256) : Result ERC20 :=
  if s.allowances owner spender = .allOnes 256 then
    .ok s
  else do
    .failIf (s.allowances owner spender < amount) (.custom .insufficientAllowance)
    _approve s owner spender (s.allowances owner spender - amount)

variable (sender : Address)

def transfer (dst : Address) (amount : Uint256) : Result ERC20 :=
  _transfer s sender dst amount

def approve (spender : Address) (amount : Uint256) : Result ERC20 :=
  _approve s sender spender amount

def transferFrom (src dst : Address) (amount : Uint256) : Result ERC20 := do
  let s ← _spendAllowance s src sender amount
  _transfer s src dst amount

def increaseAllowance (spender : Address) (addedValue : Uint256) : Result ERC20 := do
  let amount ← Uint256.add (s.allowances sender spender) addedValue
  _approve s sender spender amount

def decreaseAllowance (spender : Address) (subtractedValue : Uint256) : Result ERC20 := do
  .failIf (s.allowances sender spender < subtractedValue) (.custom .decreasedBelowZero)
  _approve s sender spender (s.allowances sender spender - subtractedValue)

end ERC20

-- The token `wsXMR`.
structure State extends ERC20 where
  owner        : Address
  vaultManager : Address

namespace State

-- The constructor of `Ownable` runs before the one of `wsXMR`.
def new (initialOwner : Address) : Result State := do
  .failIf (initialOwner = 0) (.custom .ownableInvalidOwner)
  .failIf (initialOwner = 0) (.custom .zeroAddress)
  return {
    ERC20.new.emit (.ownershipTransferred 0 initialOwner) with
    owner        := initialOwner
    vaultManager := 0 }

variable (s : State) (sender : Address)

-- A function that `wsXMR` inherits.
def inherit (f : ERC20 → Result ERC20) : Result State := do
  let token ← f s.toERC20
  return { s with toERC20 := token }

def onlyOwner : Result Unit :=
  .failIf (s.owner ≠ sender) (.custom .ownableUnauthorizedAccount)

def _transferOwnership (newOwner : Address) : State :=
  { s with toERC20 := s.emit (.ownershipTransferred s.owner newOwner), owner := newOwner }

def renounceOwnership : Result State := do
  s.onlyOwner sender
  return s._transferOwnership 0

def transferOwnership (newOwner : Address) : Result State := do
  s.onlyOwner sender
  .failIf (newOwner = 0) (.custom .ownableInvalidOwner)
  return s._transferOwnership newOwner

def setVaultManager (vaultManager : Address) : Result State := do
  s.onlyOwner sender
  .failIf (vaultManager = 0) (.custom .zeroAddress)
  return {
    s with
    toERC20      := s.emit (.vaultManagerUpdated s.vaultManager vaultManager)
    vaultManager := vaultManager }

def mint (dst : Address) (amount : Uint256) : Result State := do
  .failIf (sender ≠ s.vaultManager) (.custom .onlyVaultManager)
  s.inherit (·._mint dst amount)

def burn (src : Address) (amount : Uint256) : Result State := do
  .failIf (sender ≠ s.vaultManager) (.custom .onlyVaultManager)
  s.inherit (·._burn src amount)

end State

-- The methods of the contract that change its state. None of them accepts the native coin.
inductive Method
  | transfer (dst : Address) (amount : Uint256)
  | approve (spender : Address) (amount : Uint256)
  | transferFrom (src dst : Address) (amount : Uint256)
  | increaseAllowance (spender : Address) (addedValue : Uint256)
  | decreaseAllowance (spender : Address) (subtractedValue : Uint256)
  | mint (dst : Address) (amount : Uint256)
  | burn (src : Address) (amount : Uint256)
  | setVaultManager (vaultManager : Address)
  | transferOwnership (newOwner : Address)
  | renounceOwnership
  deriving DecidableEq

structure Call where
  msg    : Msg
  method : Method
  deriving DecidableEq

def Method.run (s : State) (sender : Address) : Method → Result State
  | transfer dst amount                        => s.inherit (·.transfer sender dst amount)
  | approve spender amount                     => s.inherit (·.approve sender spender amount)
  | transferFrom src dst amount                => s.inherit (·.transferFrom sender src dst amount)
  | increaseAllowance spender addedValue       =>
    s.inherit (·.increaseAllowance sender spender addedValue)
  | decreaseAllowance spender subtractedValue  =>
    s.inherit (·.decreaseAllowance sender spender subtractedValue)
  | mint dst amount                            => s.mint sender dst amount
  | burn src amount                            => s.burn sender src amount
  | setVaultManager vaultManager               => s.setVaultManager sender vaultManager
  | transferOwnership newOwner                 => s.transferOwnership sender newOwner
  | renounceOwnership                          => s.renounceOwnership sender

def Call.run (s : State) (c : Call) : Result State := do
  .failIf (c.msg.value ≠ 0) .notPayable
  c.method.run s c.msg.sender

-- A call that reverts leaves the state as it was.
def step (s : State) (c : Call) : State :=
  match c.run s with
  | .ok s'   => s'
  | .error _ => s

end Ethereum.Token
