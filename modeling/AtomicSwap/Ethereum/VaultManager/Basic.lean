import AtomicSwap.Ethereum.Secp256k1

open Reentrant Function

namespace Ethereum.VaultManager

def collateralRatio  : Uint256 := 150
def liquidationRatio : Uint256 := 120
def liquidationBonus : Uint256 := 110
def ratioPrecision   : Uint256 := 100
def burnTimeout      : Uint256 := 86400

def xmrUsdFeedID : Bytes32 := 0x46b8cc9347f04391764a0361e0b17c3ba394b001e7c304f7650f6376e37c321d
def monUsdFeedID : Bytes32 := 0x31491744e2dbf6df7fcf4ac0820d18a609b49076d45066d3568424e62f686cd1

inductive MintStatus
  | invalid
  | pending
  | ready
  | completed
  | cancelled
  deriving DecidableEq

inductive BurnStatus
  | invalid
  | pending
  | completed
  | slashed
  deriving DecidableEq

structure Vault where
  lpAddress        : Address := 0
  collateralAsset  : Address := 0
  collateralAmount : Uint256 := 0
  debtAmount       : Uint256 := 0
  active           : Bool    := false
  deriving DecidableEq

structure MintRequest where
  requestId       : Bytes32    := 0
  user            : Address    := 0
  lpVault         : Address    := 0
  xmrAmount       : Uint256    := 0
  wsxmrAmount     : Uint256    := 0
  claimCommitment : Bytes32    := 0
  timeout         : Uint256    := 0
  status          : MintStatus := .invalid
  deriving DecidableEq

structure BurnRequest where
  requestId          : Bytes32    := 0
  user               : Address    := 0
  lpVault            : Address    := 0
  wsxmrAmount        : Uint256    := 0
  xmrAmount          : Uint256    := 0
  escrowedCollateral : Uint256    := 0
  refundCommitment   : Bytes32    := 0
  deadline           : Uint256    := 0
  status             : BurnStatus := .invalid
  deriving DecidableEq

inductive Error
  | zeroAddress
  | zeroAmount
  | vaultAlreadyExists
  | vaultDoesNotExist
  | insufficientCollateral
  | invalidCollateralAsset
  | mintAlreadyExists
  | burnAlreadyExists
  | invalidSecret
  | invalidStatus
  | timeoutNotReached
  | deadlineExpired
  | deadlineNotExpired
  | vaultHealthy
  | insufficientDebt
  | unauthorized
  | invalidValue
  | stalePrice
  | invalidAsset
  | reentrantCall               -- of `ReentrancyGuard`
  | ownableUnauthorizedAccount  -- of `Ownable`
  | ownableInvalidOwner         -- of `Ownable`
  deriving DecidableEq

inductive Event
  | vaultCreated (lpAddress collateralAsset : Address)
  | collateralDeposited (lpAddress asset : Address) (amount : Uint256)
  | collateralWithdrawn (lpAddress asset : Address) (amount : Uint256)
  | mintInitiated (requestId : Bytes32) (user lpVault : Address) (xmrAmount wsxmrAmount : Uint256)
    (claimCommitment : Bytes32) (timeout : Uint256)
  | mintReady (requestId : Bytes32)
  | mintFinalized (requestId secret : Bytes32)
  | mintCancelled (requestId : Bytes32)
  | burnInitiated (requestId : Bytes32) (user lpVault : Address) (wsxmrAmount xmrAmount : Uint256)
    (refundCommitment : Bytes32) (deadline : Uint256)
  | burnFinalized (requestId secret : Bytes32)
  | burnSlashed (requestId : Bytes32) (user : Address) (collateralSeized : Uint256)
  | vaultLiquidated (lpVault liquidator : Address) (debtCleared collateralSeized : Uint256)
  | collateralSupported (asset oracle : Address)
  deriving DecidableEq

-- The storage and the log of the contract, the supply of the `wsXMR` token and the address that may
-- change it, and the balances of all accounts, those of the token included.
structure State where
  vaults               : Address → Vault
  mintRequests         : Bytes32 → MintRequest
  burnRequests         : Bytes32 → BurnRequest
  vaultList            : List Address
  supportedCollateral  : Address → Bool
  collateralPriceFeeds : Address → Bytes32
  owner                : Address
  entered              : Bool
  logs                 : List Event
  tokenManager         : Address
  totalSupply          : Uint256
  balances             : Ledger Address Address

-- As for the swaps, `standard` are the assets that move exactly the requested amount and call no
-- other contract.
structure Deployment where
  host       : Host
  this       : Address
  wsxmrToken : Address
  pyth       : Address
  standard   : Address → Bool

structure Price where
  price : BitVec 64  -- int64
  expo  : BitVec 32  -- int32
  deriving DecidableEq

-- What a transaction can read besides the state. There is no price if the oracle has none that is
-- young enough, and there are no decimals if the token does not tell them.
structure Block where
  timestamp : Uint256
  number    : Uint256
  price     : Bytes32 → Option Price
  decimals  : Address → Option UInt8

def State.constructed (d : Deployment) (owner tokenManager : Address) (totalSupply : Uint256)
    (balances : Ledger Address Address) : State where
  vaults _             := {}
  mintRequests _       := {}
  burnRequests _       := {}
  vaultList            := []
  supportedCollateral  := update (fun _ => false) native true
  collateralPriceFeeds := update (fun _ => 0) native monUsdFeedID
  owner                := owner
  entered              := false
  logs                 := [.collateralSupported native d.pyth]
  tokenManager         := tokenManager
  totalSupply          := totalSupply
  balances             := balances

abbrev M := Code State (Revert Error)

section Oracle

variable (block : Block) (feeds : Address → Bytes32)

-- The common part of `getXmrPrice` and `getCollateralPrice`.
def getPrice (feedId : Bytes32) : Except (Revert Error) Uint256 := do
  let some priceData := block.price feedId | throw .callFailed
  if priceData.price.toInt ≤ 0 then
    throw <| .custom .stalePrice
  let price : Uint256 := priceData.price.setWidth 256
  if 0 ≤ priceData.expo.toInt then
    let scaled ← Uint256.mul price (← Uint256.pow 10 priceData.expo.toNat)
    Uint256.mul scaled (10 ^ 18)
  else if priceData.expo = .intMin 32 then
    throw .overflow
  else
    let absExpo := (-priceData.expo).toNat
    if 18 ≤ absExpo then
      Uint256.div price (← Uint256.pow 10 (absExpo - 18))
    else
      Uint256.mul price (← Uint256.pow 10 (18 - absExpo))

def getXmrPrice : Except (Revert Error) Uint256 :=
  getPrice block xmrUsdFeedID

def getCollateralPrice (asset : Address) : Except (Revert Error) Uint256 := do
  let feedId := feeds asset
  if feedId = 0 then
    throw <| .custom .invalidAsset
  getPrice block feedId

def getDecimals (asset : Address) : Except (Revert Error) ℕ :=
  if asset = native then .ok 18
  else match block.decimals asset with
    | some n => .ok n.toNat
    | none   => .error .callFailed

def calculateCollateralRatio (collateralAsset : Address) (collateralAmount debtAmount : Uint256) :
    Except (Revert Error) Uint256 := do
  if debtAmount = 0 then
    return .allOnes 256
  let collateralPrice ← getCollateralPrice block feeds collateralAsset
  let xmrPrice ← getXmrPrice block
  let collateralDecimals ← getDecimals block collateralAsset
  let collateralValue ←
    Uint256.div (← Uint256.mul collateralAmount collateralPrice)
      (← Uint256.pow 10 collateralDecimals)
  let debtValue ← Uint256.div (← Uint256.mul debtAmount xmrPrice) (10 ^ 8)
  Uint256.div (← Uint256.mul collateralValue ratioPrecision) debtValue

def getCollateralValueForDebt (debtAmount : Uint256) : Except (Revert Error) Uint256 := do
  let xmrPrice ← getXmrPrice block
  Uint256.div (← Uint256.mul debtAmount xmrPrice) (10 ^ 8)

def usdToCollateral (asset : Address) (usdValue : Uint256) : Except (Revert Error) Uint256 := do
  let collateralPrice ← getCollateralPrice block feeds asset
  let decimals ← getDecimals block asset
  Uint256.div (← Uint256.mul usdValue (← Uint256.pow 10 decimals)) collateralPrice

end Oracle

section Code

variable (d : Deployment)

def emit (e : Event) : M Unit :=
  .modify fun s => { s with logs := s.logs ++ [e] }

def setVault (lp : Address) (f : Vault → Vault) : M Unit :=
  .modify fun s => { s with vaults := update s.vaults lp (f <| s.vaults lp) }

def setMintRequest (id : Bytes32) (r : MintRequest) : M Unit :=
  .modify fun s => { s with mintRequests := update s.mintRequests id r }

def setBurnRequest (id : Bytes32) (r : BurnRequest) : M Unit :=
  .modify fun s => { s with burnRequests := update s.burnRequests id r }

def payable (msg : Msg) : M Unit := do
  let s ← .get
  .revertIf (s.balances native msg.sender < msg.value.toNat) .callFailed
  .modify fun s => { s with balances := s.balances.move native msg.sender d.this msg.value.toNat }

def nonpayable (msg : Msg) : M Unit :=
  .revertIf (msg.value ≠ 0) .notPayable

def setEntered (b : Bool) : M Unit :=
  .modify fun s => { s with entered := b }

def nonReentrant (m : M Unit) : M Unit := do
  let s ← .get
  .revertIf s.entered (.custom .reentrantCall)
  setEntered true
  m
  setEntered false

def onlyOwner (msg : Msg) : M Unit := do
  let s ← .get
  .revertIf (s.owner ≠ msg.sender) (.custom .ownableUnauthorizedAccount)

def safeTransferFrom (token src : Address) (value : Uint256) : M Unit := do
  if d.standard token then
    let s ← .get
    .revertIf (s.balances token src < value.toNat) .callFailed
    .modify fun s => { s with balances := s.balances.move token src d.this value.toNat }
  else
    .handOver

-- Pays out collateral. The receiver of the native coin is called with all the gas that is left.
def sendCollateral (asset dst : Address) (value : Uint256) : M Unit := do
  if asset = native then
    let s ← .get
    .revertIf (s.balances native d.this < value.toNat) .lacksFunds
    .modify fun s => { s with balances := s.balances.move native d.this dst value.toNat }
    .handOver
  else if d.standard asset then
    let s ← .get
    .revertIf (s.balances asset d.this < value.toNat) .lacksFunds
    .modify fun s => { s with balances := s.balances.move asset d.this dst value.toNat }
  else
    .handOver

-- `wsxmrToken.mint`, which only its manager may call.
def mint (dst : Address) (amount : Uint256) : M Unit := do
  let s ← .get
  .revertIf (s.tokenManager ≠ d.this ∨ dst = 0) .callFailed
  let totalSupply ← .lift <| Uint256.add s.totalSupply amount
  .modify fun s =>
    { s with
      totalSupply := totalSupply
      balances    := s.balances.put d.wsxmrToken dst (s.balances d.wsxmrToken dst + amount.toNat) }

-- `wsxmrToken.burn`, which only its manager may call.
def burn (src : Address) (amount : Uint256) : M Unit := do
  let s ← .get
  .revertIf (s.tokenManager ≠ d.this ∨ s.balances d.wsxmrToken src < amount.toNat) .callFailed
  .modify fun s =>
    { s with
      totalSupply := s.totalSupply - amount
      balances    := s.balances.put d.wsxmrToken src (s.balances d.wsxmrToken src - amount.toNat) }

def createVault (msg : Msg) (collateralAsset : Address) : M Unit := do
  let s ← .get
  .revertIf (s.vaults msg.sender).active (.custom .vaultAlreadyExists)
  .revertIf (¬s.supportedCollateral collateralAsset) (.custom .invalidCollateralAsset)
  setVault msg.sender fun _ =>
    { lpAddress := msg.sender, collateralAsset, collateralAmount := 0, debtAmount := 0,
      active := true }
  .modify fun s => { s with vaultList := s.vaultList ++ [msg.sender] }
  emit <| .vaultCreated msg.sender collateralAsset

-- `vault.collateralAmount += amount`
def addCollateral (lp : Address) (amount : Uint256) : M Unit := do
  let s ← .get
  let collateralAmount ← .lift <| Uint256.add (s.vaults lp).collateralAmount amount
  setVault lp fun vault => { vault with collateralAmount }

def takeCollateral (msg : Msg) (asset : Address) (amount : Uint256) : M Unit :=
  if asset = native then
    .revertIf (msg.value ≠ amount) (.custom .invalidValue)
  else do
    .revertIf (msg.value ≠ 0) (.custom .invalidValue)
    safeTransferFrom d asset msg.sender amount

def depositCollateral (msg : Msg) (amount : Uint256) : M Unit := nonReentrant do
  let s ← .get
  let vault := s.vaults msg.sender
  .revertIf (¬vault.active) (.custom .vaultDoesNotExist)
  .revertIf (amount = 0) (.custom .zeroAmount)
  takeCollateral d msg vault.collateralAsset amount
  addCollateral msg.sender amount
  emit <| .collateralDeposited msg.sender vault.collateralAsset amount

variable (block : Block)

def requireRatio (asset : Address) (collateralAmount debtAmount : Uint256) : M Unit := do
  let s ← .get
  let ratio ← .lift <| calculateCollateralRatio block s.collateralPriceFeeds asset collateralAmount
    debtAmount
  .revertIf (ratio < collateralRatio) (.custom .insufficientCollateral)

def checkWithdrawal (vault : Vault) (newCollateralAmount : Uint256) : M Unit :=
  if 0 < vault.debtAmount then
    requireRatio block vault.collateralAsset newCollateralAmount vault.debtAmount
  else
    pure ()

def withdrawCollateral (msg : Msg) (amount : Uint256) : M Unit := nonReentrant do
  let s ← .get
  let vault := s.vaults msg.sender
  .revertIf (¬vault.active) (.custom .vaultDoesNotExist)
  .revertIf (amount = 0) (.custom .zeroAmount)
  .revertIf (vault.collateralAmount < amount) (.custom .insufficientCollateral)
  let newCollateralAmount ← .lift <| Uint256.sub vault.collateralAmount amount
  checkWithdrawal block vault newCollateralAmount
  setVault msg.sender fun vault => { vault with collateralAmount := newCollateralAmount }
  sendCollateral d vault.collateralAsset msg.sender amount
  emit <| .collateralWithdrawn msg.sender vault.collateralAsset amount

def requestID (sender lpVault : Address) (amount : Uint256) (commitment : Bytes32) : Bytes32 :=
  d.host.keccak256 <|
    Bytes.be 20 sender.toNat ++ Bytes.be 20 lpVault.toNat ++ Bytes.be 32 amount.toNat ++
    Bytes.be 32 commitment.toNat ++ Bytes.be 32 block.timestamp.toNat ++
    Bytes.be 32 block.number.toNat

def initiateMint (msg : Msg) (lpVault : Address) (xmrAmount : Uint256) (claimCommitment : Bytes32)
    (timeoutDuration : Uint256) : M Bytes32 := do
  let s ← .get
  let vault := s.vaults lpVault
  .revertIf (lpVault = 0) (.custom .zeroAddress)
  .revertIf (xmrAmount = 0) (.custom .zeroAmount)
  .revertIf (claimCommitment = 0) (.custom .invalidSecret)
  .revertIf (¬vault.active) (.custom .vaultDoesNotExist)
  let wsxmrAmount ← .lift <| Uint256.div xmrAmount (10 ^ 4)
  let newDebt ← .lift <| Uint256.add vault.debtAmount wsxmrAmount
  requireRatio block vault.collateralAsset vault.collateralAmount newDebt
  let requestId := requestID d block msg.sender lpVault xmrAmount claimCommitment
  .revertIf ((s.mintRequests requestId).status ≠ .invalid) (.custom .mintAlreadyExists)
  let timeout ← .lift <| Uint256.add block.timestamp timeoutDuration
  setMintRequest requestId
    { requestId, user := msg.sender, lpVault, xmrAmount, wsxmrAmount, claimCommitment, timeout,
      status := .pending }
  emit <| .mintInitiated requestId msg.sender lpVault xmrAmount wsxmrAmount claimCommitment timeout
  return requestId

def setMintReady (msg : Msg) (requestId : Bytes32) : M Unit := do
  let s ← .get
  let request := s.mintRequests requestId
  .revertIf (request.status ≠ .pending) (.custom .invalidStatus)
  .revertIf (msg.sender ≠ request.lpVault) (.custom .unauthorized)
  setMintRequest requestId { request with status := .ready }
  emit <| .mintReady requestId

def verifySecret (secret commitment : Bytes32) : M Unit :=
  .revertIf (¬Secp256k1.mulVerify d.host secret commitment) (.custom .invalidSecret)

-- The debt is added without another look at the collateral.
def finalizeMint (requestId secret : Bytes32) : M Unit := nonReentrant do
  let s ← .get
  let request := s.mintRequests requestId
  .revertIf (request.status ≠ .ready) (.custom .invalidStatus)
  verifySecret d secret request.claimCommitment
  let debtAmount ← .lift <| Uint256.add (s.vaults request.lpVault).debtAmount request.wsxmrAmount
  setVault request.lpVault fun vault => { vault with debtAmount }
  mint d request.user request.wsxmrAmount
  setMintRequest requestId { request with status := .completed }
  emit <| .mintFinalized requestId secret

def cancelMint (msg : Msg) (requestId : Bytes32) : M Unit := do
  let s ← .get
  let request := s.mintRequests requestId
  .revertIf (request.status ≠ .pending ∧ request.status ≠ .ready) (.custom .invalidStatus)
  .revertIf (msg.sender ≠ request.user) (.custom .unauthorized)
  let requiredTimeout ← .lift <|
    if request.status = .ready then Uint256.add request.timeout 86400 else .ok request.timeout
  .revertIf (block.timestamp < requiredTimeout) (.custom .timeoutNotReached)
  setMintRequest requestId { request with status := .cancelled }
  emit <| .mintCancelled requestId

-- The collateral for a debt, with a bonus in percent on its value.
def collateralFor (feeds : Address → Bytes32) (asset : Address) (debtAmount percent : Uint256) :
    Except (Revert Error) Uint256 := do
  let collateralValue ← getCollateralValueForDebt block debtAmount
  let usdValue ← Uint256.div (← Uint256.mul collateralValue percent) ratioPrecision
  usdToCollateral block feeds asset usdValue

-- `vault.collateralAmount -= collateralAmount; vault.debtAmount -= debtAmount`
def reduceVault (lp : Address) (collateralAmount debtAmount : Uint256) : M Unit := do
  let s ← .get
  let collateralAmount ← .lift <| Uint256.sub (s.vaults lp).collateralAmount collateralAmount
  let debtAmount ← .lift <| Uint256.sub (s.vaults lp).debtAmount debtAmount
  setVault lp fun vault => { vault with collateralAmount, debtAmount }

def initiateBurn (msg : Msg) (wsxmrAmount : Uint256) (lpVault : Address)
    (refundCommitment : Bytes32) : M Bytes32 := do
  let s ← .get
  let vault := s.vaults lpVault
  .revertIf (wsxmrAmount = 0) (.custom .zeroAmount)
  .revertIf (lpVault = 0) (.custom .zeroAddress)
  .revertIf (refundCommitment = 0) (.custom .invalidSecret)
  .revertIf (¬vault.active) (.custom .vaultDoesNotExist)
  .revertIf (vault.debtAmount < wsxmrAmount) (.custom .insufficientDebt)
  let xmrAmount ← .lift <| Uint256.mul wsxmrAmount (10 ^ 4)
  let collateralToEscrow ← .lift <|
    collateralFor block s.collateralPriceFeeds vault.collateralAsset wsxmrAmount liquidationRatio
  .revertIf (vault.collateralAmount < collateralToEscrow) (.custom .insufficientCollateral)
  let requestId := requestID d block msg.sender lpVault wsxmrAmount refundCommitment
  .revertIf ((s.burnRequests requestId).status ≠ .invalid) (.custom .burnAlreadyExists)
  reduceVault lpVault collateralToEscrow wsxmrAmount
  burn d msg.sender wsxmrAmount
  let deadline ← .lift <| Uint256.add block.timestamp burnTimeout
  setBurnRequest requestId
    { requestId, user := msg.sender, lpVault, wsxmrAmount, xmrAmount,
      escrowedCollateral := collateralToEscrow, refundCommitment, deadline, status := .pending }
  emit <|
    .burnInitiated requestId msg.sender lpVault wsxmrAmount xmrAmount refundCommitment deadline
  return requestId

def finalizeBurn (requestId secret : Bytes32) : M Unit := nonReentrant do
  let s ← .get
  let request := s.burnRequests requestId
  .revertIf (request.status ≠ .pending) (.custom .invalidStatus)
  .revertIf (request.deadline ≤ block.timestamp) (.custom .deadlineExpired)
  verifySecret d secret request.refundCommitment
  addCollateral request.lpVault request.escrowedCollateral
  setBurnRequest requestId { request with status := .completed }
  emit <| .burnFinalized requestId secret

-- The request is pending until the collateral has been paid out.
def claimSlashedCollateral (msg : Msg) (requestId : Bytes32) : M Unit := nonReentrant do
  let s ← .get
  let request := s.burnRequests requestId
  .revertIf (request.status ≠ .pending) (.custom .invalidStatus)
  .revertIf (msg.sender ≠ request.user) (.custom .unauthorized)
  .revertIf (block.timestamp < request.deadline) (.custom .deadlineNotExpired)
  sendCollateral d (s.vaults request.lpVault).collateralAsset request.user
    request.escrowedCollateral
  let s ← .get
  let request := s.burnRequests requestId
  setBurnRequest requestId { request with status := .slashed }
  emit <| .burnSlashed requestId request.user request.escrowedCollateral

def liquidate (msg : Msg) (lpVault : Address) (debtToClear : Uint256) : M Unit := nonReentrant do
  let s ← .get
  let vault := s.vaults lpVault
  .revertIf (¬vault.active) (.custom .vaultDoesNotExist)
  .revertIf (debtToClear = 0) (.custom .zeroAmount)
  .revertIf (vault.debtAmount = 0) (.custom .insufficientDebt)
  let debtToClear := if vault.debtAmount < debtToClear then vault.debtAmount else debtToClear
  let ratio ← .lift <| calculateCollateralRatio block s.collateralPriceFeeds vault.collateralAsset
    vault.collateralAmount vault.debtAmount
  .revertIf (liquidationRatio ≤ ratio) (.custom .vaultHealthy)
  let collateralAmount ← .lift <|
    collateralFor block s.collateralPriceFeeds vault.collateralAsset debtToClear liquidationBonus
  let collateralAmount :=
    if vault.collateralAmount < collateralAmount then vault.collateralAmount else collateralAmount
  reduceVault lpVault collateralAmount debtToClear
  burn d msg.sender debtToClear
  sendCollateral d vault.collateralAsset msg.sender collateralAmount
  emit <| .vaultLiquidated lpVault msg.sender debtToClear collateralAmount

def addCollateralSupport (msg : Msg) (asset : Address) (pythFeedId : Bytes32) : M Unit := do
  onlyOwner msg
  .revertIf (pythFeedId = 0) (.custom .invalidAsset)
  .modify fun s =>
    { s with
      supportedCollateral  := update s.supportedCollateral asset true
      collateralPriceFeeds := update s.collateralPriceFeeds asset pythFeedId }
  emit <| .collateralSupported asset d.pyth

def removeCollateralSupport (msg : Msg) (asset : Address) : M Unit := do
  onlyOwner msg
  .modify fun s =>
    { s with
      supportedCollateral  := update s.supportedCollateral asset false
      collateralPriceFeeds := update s.collateralPriceFeeds asset 0 }

def transferOwnership (msg : Msg) (newOwner : Address) : M Unit := do
  onlyOwner msg
  .revertIf (newOwner = 0) (.custom .ownableInvalidOwner)
  .modify fun s => { s with owner := newOwner }

def renounceOwnership (msg : Msg) : M Unit := do
  onlyOwner msg
  .modify fun s => { s with owner := 0 }

end Code

-- The calls that reach the contract. By `outside` everybody else moves assets among themselves or
-- to the contract, and by `manage` the owner of the token hands it to another manager, who may then
-- change its supply.
inductive Call
  | createVault (msg : Msg) (collateralAsset : Address)
  | depositCollateral (msg : Msg) (amount : Uint256)
  | withdrawCollateral (msg : Msg) (amount : Uint256)
  | initiateMint (msg : Msg) (lpVault : Address) (xmrAmount : Uint256) (claimCommitment : Bytes32)
    (timeoutDuration : Uint256)
  | setMintReady (msg : Msg) (requestId : Bytes32)
  | finalizeMint (msg : Msg) (requestId secret : Bytes32)
  | cancelMint (msg : Msg) (requestId : Bytes32)
  | initiateBurn (msg : Msg) (wsxmrAmount : Uint256) (lpVault : Address)
    (refundCommitment : Bytes32)
  | finalizeBurn (msg : Msg) (requestId secret : Bytes32)
  | claimSlashedCollateral (msg : Msg) (requestId : Bytes32)
  | liquidate (msg : Msg) (lpVault : Address) (debtToClear : Uint256)
  | addCollateralSupport (msg : Msg) (asset : Address) (pythFeedId : Bytes32)
  | removeCollateralSupport (msg : Msg) (asset : Address)
  | transferOwnership (msg : Msg) (newOwner : Address)
  | renounceOwnership (msg : Msg)
  | outside (asset holder : Address) (balance : ℕ)
  | manage (tokenManager : Address) (totalSupply : Uint256)

def Call.msg : Call → Msg
  | createVault msg .. | depositCollateral msg .. | withdrawCollateral msg ..
  | initiateMint msg .. | setMintReady msg .. | finalizeMint msg .. | cancelMint msg ..
  | initiateBurn msg .. | finalizeBurn msg .. | claimSlashedCollateral msg .. | liquidate msg ..
  | addCollateralSupport msg .. | removeCollateralSupport msg .. | transferOwnership msg ..
  | renounceOwnership msg => msg
  | outside .. | manage .. => { sender := 0 }

-- The function that a call runs. Only `depositCollateral` accepts the native coin.
def dispatch (d : Deployment) (block : Block) : Call → M Unit
  | .createVault msg collateralAsset => createVault msg collateralAsset
  | .depositCollateral msg amount => depositCollateral d msg amount
  | .withdrawCollateral msg amount => withdrawCollateral d block msg amount
  | .initiateMint msg lpVault xmrAmount claimCommitment timeoutDuration => do
    let _ ← initiateMint d block msg lpVault xmrAmount claimCommitment timeoutDuration
    return ()
  | .setMintReady msg requestId => setMintReady msg requestId
  | .finalizeMint _ requestId secret => finalizeMint d requestId secret
  | .cancelMint msg requestId => cancelMint block msg requestId
  | .initiateBurn msg wsxmrAmount lpVault refundCommitment => do
    let _ ← initiateBurn d block msg wsxmrAmount lpVault refundCommitment
    return ()
  | .finalizeBurn _ requestId secret => finalizeBurn d block requestId secret
  | .claimSlashedCollateral msg requestId => claimSlashedCollateral d block msg requestId
  | .liquidate msg lpVault debtToClear => liquidate d block msg lpVault debtToClear
  | .addCollateralSupport msg asset pythFeedId => addCollateralSupport d msg asset pythFeedId
  | .removeCollateralSupport msg asset => removeCollateralSupport msg asset
  | .transferOwnership msg newOwner => transferOwnership msg newOwner
  | .renounceOwnership msg => renounceOwnership msg
  | .outside asset holder balance => do
    let s ← .get
    .revertIf
      (holder = d.this ∧ (asset = native ∨ d.standard asset) ∧ balance < s.balances asset holder)
      .callFailed
    .modify fun s => { s with balances := s.balances.put asset holder balance }
  | .manage tokenManager totalSupply => do
    let s ← .get
    .revertIf (s.tokenManager = d.this ∧ totalSupply ≠ s.totalSupply) .callFailed
    .modify fun s => { s with tokenManager, totalSupply }

def step (d : Deployment) (block : Block) (c : Call) : M Unit := do
  match c with
  | .depositCollateral msg _ => payable d msg
  | _                        => nonpayable c.msg
  dispatch d block c

end Ethereum.VaultManager
