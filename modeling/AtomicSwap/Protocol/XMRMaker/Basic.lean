import AtomicSwap.Library.Except
import AtomicSwap.Library.Handler
import AtomicSwap.Protocol.Basic
import AtomicSwap.Ethereum.Watcher

open Ethereum SwapCreator Handler

namespace XMRMaker

inductive Error
  -- handleNotifyETHLocked
  | missingAddress
  | nilContractSwapID
  | swapIDMismatch
  | ethClient
  | contextExpired
  | newSwapReverted
  | receiptNotFound
  | contractCode
  | invalidSwapCreatorContract
  | newSwapCreator
  | recoveryDB
  -- checkContract
  | newSwapTransaction
  | invalidETHLockedTransaction
  | newSwapReceipt
  | lockTxReverted
  | cannotFindNewLog
  | unexpectedSwapID
  | unexpectedClaimKey (got expected : Bytes32)
  | unexpectedRefundKey (got expected : Bytes32)
  | unexpectedAsset (got expected : Address)
  | valueMismatch (got : ℕ) (expected : ℤ)
  | erc20Info
  | exceedsDecimals (decimals : ℕ)
  | unexpectedValue (got : ℤ) (expected : ℕ)
  -- checkAndSetTimeouts
  | invalidT1
  | invalidT2
  -- lockFunds
  | balance
  | nextExpectedEvent
  | transfer
  -- HandleInitiateMessage
  | offerIDNotSet
  | noOffer
  | amountProvidedTooLow
  | amountProvidedTooHigh
  | protocolAlreadyInProgress
  | balanceTooLow
  | takeOffer
  | newSwapState
  | missingKeys
  | invalidKeys
  | sendKeys
  | invalidStageForRecovery
  | coins (e : Coins.Error)
  | panicked
  deriving DecidableEq

def Error.isPanic : Error → Bool
  | .panicked | .coins .panicked => true
  | _                            => false

inductive EventType
  | ethLocked
  | contractReady
  | ethRefunded
  | exit
  | none
  deriving DecidableEq, Repr

def nextExpectedEventFromStatus : Status → EventType
  | .expectingKeys | .keysExchanged => .ethLocked
  | .xmrLocked                      => .contractReady
  | _                               => .exit

def EventType.getStatus : EventType → Status
  | ethLocked     => .keysExchanged
  | contractReady => .xmrLocked
  | _             => .unknown

-- The fields of the maker's state that its handlers of messages use. The entry `recovery` stands
-- for the recovery database, and `transfer` records the amount of an XMR transfer that was asked
-- for.
structure SwapState where
  offer                      : Offer
  info                       : Info
  secp256k1Pub               : Option PublicKey
  xmrtakerSecp256k1PublicKey : Option PublicKey
  swapCreatorAddr            : Address
  contractSwapID             : Bytes32
  contractSwap               : Option SwapCreatorSwap
  t1                         : Time
  t2                         : Time
  nextExpectedEvent          : EventType
  readyWatcher               : EventFilter
  refundedWatcher            : EventFilter
  claimedWatcher             : EventFilter
  recovery                   : Option EthereumSwapInfo
  transfer                   : Option Decimal
  deriving DecidableEq

abbrev M := Handler SwapState Error

structure NotifyETHLocked where
  address        : Address
  txHash         : Bytes32
  contractSwapID : Bytes32
  contractSwap   : SwapCreatorSwap
  deriving DecidableEq

structure Transaction where
  dst : Option Address

-- The outcome of one attempt to get a receipt.
inductive ReceiptQuery
  | found (r : Receipt)
  | notFound (contextExpired : Bool)
  | failed

-- The configuration of the daemon.
structure Backend where
  host                         : Host
  env                          : Environment
  ethAddress                   : Address
  swapCreatorAddr              : Address
  expectedSwapCreatorBytecode  : List UInt8

-- What the Ethereum client answers.
structure EthClient where
  transactionReceipt : Bytes32 → ℕ → ReceiptQuery
  transactionByHash  : Bytes32 → Option Transaction
  waitForReceipt     : Bytes32 → Option Receipt
  codeAt             : Address → Option (List UInt8)
  erc20Info          : Address → Option Coins.ERC20TokenInfo

-- Which of the other calls succeed, and the current time.
structure Calls where
  newSwapCreator      : Bool
  putContractSwapInfo : Bool
  now                 : Time
  getBalance          : Bool
  writeSwapToDB       : Bool
  transfer            : Bool

section NotifyETHLocked

variable (b : Backend) (ec : EthClient) (calls : Calls)

def waitForNewSwapReceipt (txHash : Bytes32) (attempts : ℕ) : Except Error Receipt :=
  go attempts 0
where
  go : ℕ → ℕ → Except Error Receipt
    | 0,     _ => .error .receiptNotFound
    | n + 1, i =>
      match ec.transactionReceipt txHash i with
      | .failed        => .error .ethClient
      | .notFound true => .error .contextExpired
      | .notFound _    => go n (i + 1)
      | .found receipt => if receipt.success then .ok receipt else .error .newSwapReverted

def checkSwapCreatorContractCode (contractAddr : Address) : Except Error Unit :=
  match ec.codeAt contractAddr with
  | none      => .error .contractCode
  | some code =>
    if code = b.expectedSwapCreatorBytecode then .ok () else .error .invalidSwapCreatorContract

-- The filters of the watchers are not touched.
def setContract (address : Address) : M Unit := do
  modify fun s => { s with swapCreatorAddr := address }
  throwIf (!calls.newSwapCreator) .newSwapCreator

def getEthAssetAmount (amt : Decimal) (asset : Address) : Except Error Coins.EthAssetAmount :=
  if asset ≠ ethAssetETH then
    match ec.erc20Info asset with
    | none       => .error .erc20Info
    | some token =>
      if Coins.exceedsDecimals amt token.numDecimals then
        .error (.exceedsDecimals token.numDecimals)
      else Coins.newEthAssetAmount amt.reduce (some token) |>.mapError .coins
  else if Coins.exceedsDecimals amt Coins.numEtherDecimals then
    .error (.exceedsDecimals Coins.numEtherDecimals)
  else Coins.newEthAssetAmount amt.reduce none |>.mapError .coins

-- The event is the first log that can be read as one, whichever contract it is from.
def checkEvent (s : SwapState) (contractSwap : SwapCreatorSwap) (event : SwapCreatorNew) :
    M Unit := do
  throwIf (event.swapID ≠ s.contractSwapID) .unexpectedSwapID
  let skOurs ← ofOption .panicked s.secp256k1Pub
  throwIf (event.claimKey ≠ skOurs.keccak256 b.host)
    (.unexpectedClaimKey event.claimKey (skOurs.keccak256 b.host))
  let skTheirs ← ofOption .panicked s.xmrtakerSecp256k1PublicKey
  throwIf (event.refundKey ≠ skTheirs.keccak256 b.host)
    (.unexpectedRefundKey event.refundKey (skTheirs.keccak256 b.host))
  throwIf (contractSwap.asset ≠ event.asset) (.unexpectedAsset event.asset contractSwap.asset)
  throwIf (contractSwap.value ≠ event.value) (.valueMismatch event.value contractSwap.value)

def checkValue (s : SwapState) (contractSwap : SwapCreatorSwap) : M Unit := do
  let expectedAmount ← ofExcept (getEthAssetAmount ec s.info.expectedAmount contractSwap.asset)
  let expected ← ofExcept (expectedAmount.bigInt.mapError .coins)
  throwIf (contractSwap.value ≠ expected) (.unexpectedValue contractSwap.value expected)

def checkContract (txHash : Bytes32) : M Unit := do
  let s ← get
  let tx ← ofOption .newSwapTransaction (ec.transactionByHash txHash)
  throwIf (tx.dst ≠ some s.swapCreatorAddr) .invalidETHLockedTransaction
  let receipt ← ofOption .newSwapReceipt (ec.waitForReceipt txHash)
  throwIf (!receipt.success) .lockTxReverted
  let event ← ofOption .cannotFindNewLog (receipt.logs.findSome? parseNew)
  let contractSwap ← ofOption .panicked s.contractSwap
  checkEvent b s contractSwap event
  checkValue ec s contractSwap

def setTimeouts (t1 t2 : ℤ) : M Unit :=
  modify fun s => { s with t1 := unix (int64 t1), t2 := unix (int64 t2) }

def checkAndSetTimeouts (t1 t2 : ℤ) : M Unit := do
  setTimeouts t1 t2
  let s ← get
  throwIf (b.env ≠ .development ∧ s.t2.sub s.t1 ≠ b.env.swapTimeout) .invalidT2
  throwIf (b.env ≠ .development ∧
    absDuration (Time.sub (calls.now + b.env.swapTimeout) s.t1) > b.env.swapTimeout / 20) .invalidT1

def updateStatus (status : Status) : M Unit :=
  modify fun s => { s with info.status := status }

def setNextExpectedEvent (event : EventType) : M Unit := do
  let s ← get
  throwIf (s.nextExpectedEvent = .none) .panicked
  throwIf (event = s.nextExpectedEvent) .panicked
  modify fun s => { s with nextExpectedEvent := event }
  throwIf (event.getStatus = .unknown) .panicked
  updateStatus event.getStatus
  throwIf (!calls.writeSwapToDB) .nextExpectedEvent

-- All of the maker's work before it asks the wallet for the transfer.
def prepareLock : M Unit := do
  throwIf (!calls.getBalance) .balance
  setNextExpectedEvent calls .contractReady

-- The transfer is recorded when it is asked for, whatever becomes of it.
def startTransfer (amount : Decimal) : M Unit := do
  prepareLock calls
  modify fun s => { s with transfer := some amount }

def lockFunds (amount : Decimal) : M Unit := do
  startTransfer calls amount
  throwIf (!calls.transfer) .transfer

-- The part of the handler that decides whether the funds are locked.
def checkETHLocked (msg : NotifyETHLocked) : M Unit := do
  throwIf (msg.address = 0) .missingAddress
  throwIf (msg.contractSwapID = 0) .nilContractSwapID
  throwIf (msg.contractSwap.swapID b.host ≠ msg.contractSwapID) .swapIDMismatch
  modify fun s =>
    { s with contractSwapID := msg.contractSwapID, contractSwap := some msg.contractSwap }
  let receipt ← ofExcept (waitForNewSwapReceipt ec msg.txHash 10)
  ofExcept (checkSwapCreatorContractCode b ec msg.address)
  setContract calls msg.address
  throwIf (!calls.putContractSwapInfo) .recoveryDB
  modify fun s => { s with
    recovery := some ⟨receipt.blockNumber, msg.contractSwapID, msg.contractSwap, msg.address⟩ }
  checkContract b ec msg.txHash
  checkAndSetTimeouts b calls msg.contractSwap.timeout1 msg.contractSwap.timeout2

def amountToLock (msg : NotifyETHLocked) : M Decimal := do
  checkETHLocked b ec calls msg
  let s ← get
  ofExcept ((Coins.moneroToPiconero s.info.providedAmount).mapError .coins)

def handleNotifyETHLocked (msg : NotifyETHLocked) : M Unit := do
  let amount ← amountToLock b ec calls msg
  lockFunds calls amount

end NotifyETHLocked

section Initiate

-- The taker's keys are sent with a proof that they belong together.
structure SendKeysMessage where
  offerID            : Bytes32
  providedAmount     : Option Decimal
  hasMoneroKeys      : Bool
  secp256k1PublicKey : PublicKey

-- What other components answer when a swap is started.
structure InitiateCalls where
  getOffer            : Bytes32 → Option Offer
  inProgress          : Bool
  unlockedBalance     : Option Decimal
  takeOffer           : Bool
  ethHeader           : Option ℕ
  startSwap           : Bool -- the database and client calls of `newSwapStateFromStart` succeed
  newTxSender         : Bool
  generateKeys        : Option PublicKey
  assetSymbol         : Bool
  verifyKeysAndProof  : Bool
  putCounterpartyKeys : Bool
  sendSwapMessage     : Bool

variable (b : Backend) (ec : EthClient)

def newSwapState (newTxSender : Bool) (offer : Offer) (ethStartNumber : ℕ) (info : Info) :
    Except Error SwapState := do
  .failIf (!newTxSender) .newSwapState
  return {
    offer
    info
    secp256k1Pub               := none
    xmrtakerSecp256k1PublicKey := none
    swapCreatorAddr            := 0
    contractSwapID             := 0
    contractSwap               := none
    t1                         := 0
    t2                         := 0
    nextExpectedEvent          := nextExpectedEventFromStatus info.status
    readyWatcher               := newEventFilter b.swapCreatorAddr ethStartNumber readyTopic
    refundedWatcher            := newEventFilter b.swapCreatorAddr ethStartNumber refundedTopic
    claimedWatcher             := newEventFilter b.swapCreatorAddr ethStartNumber claimedTopic
    recovery                   := none
    transfer                   := none }

def newSwapStateFromStart (calls : InitiateCalls) (offer : Offer) (providesAmount : Decimal)
    (desiredAmount : Coins.EthAssetAmount) : Except Error SwapState := do
  .failIf (!calls.startSwap) .newSwapState
  let some ethHeader := calls.ethHeader | .error .newSwapState
  let providedAmount ← (Coins.asMonero providesAmount).mapError .coins
  let expectedAmount ← desiredAmount.asStd.mapError .coins
  let info : Info :=
    { offerID := offer.id, providedAmount, expectedAmount, ethAsset := offer.ethAsset
      status := .keysExchanged }
  let s ← newSwapState b calls.newTxSender offer ethHeader info
  let some key := calls.generateKeys | .error .newSwapState
  return { s with secp256k1Pub := some key }

def initiate (calls : InitiateCalls) (offer : Offer) (providesAmount : Decimal)
    (desiredAmount : Coins.EthAssetAmount) : Except Error SwapState := do
  .failIf calls.inProgress .protocolAlreadyInProgress
  let some unlocked := calls.unlockedBalance | .error .balance
  .failIf (unlocked.cmp providesAmount ≠ .gt) .balanceTooLow
  .failIf (!calls.takeOffer) .takeOffer
  let s ← newSwapStateFromStart b calls offer providesAmount desiredAmount
  .failIf (!calls.assetSymbol) .erc20Info
  return s

def handleSendKeysMessage (calls : InitiateCalls) (msg : SendKeysMessage) (s : SwapState) :
    Except Error SwapState := do
  .failIf (!msg.hasMoneroKeys) .missingKeys
  .failIf (!calls.verifyKeysAndProof) .invalidKeys
  .failIf (!calls.putCounterpartyKeys) .recoveryDB
  return { s with xmrtakerSecp256k1PublicKey := some msg.secp256k1PublicKey }

-- The token of an asset, if it is one.
def tokenOf (asset : Address) : Except Error (Option Coins.ERC20TokenInfo) :=
  if asset = ethAssetETH then .ok none
  else
    match ec.erc20Info asset with
    | none       => .error .erc20Info
    | some token => .ok (some token)

def handleInitiateMessage (calls : InitiateCalls) (msg : SendKeysMessage) :
    Except Error SwapState := do
  .failIf (msg.offerID = 0) .offerIDNotSet
  let some offer := calls.getOffer msg.offerID | .error .noOffer
  let token ← tokenOf ec offer.ethAsset
  let amount ← (Coins.validatePositive "providedAmount" (Coins.decimalsOf token)
    msg.providedAmount).mapError .coins
  let expectedAmount ← (Coins.newEthAssetAmount amount token).mapError .coins
  let providedAmtAsXMR ←
    (Coins.ExchangeRate.toXMR offer.exchangeRate expectedAmount).mapError .coins
  .failIf (providedAmtAsXMR.cmp offer.minAmount = .lt) .amountProvidedTooLow
  .failIf (providedAmtAsXMR.cmp offer.maxAmount = .gt) .amountProvidedTooHigh
  let providedPiconero ← (Coins.moneroToPiconero providedAmtAsXMR).mapError .coins
  let s ← initiate b calls offer providedPiconero expectedAmount
  let s ← handleSendKeysMessage calls msg s
  .failIf (!calls.sendSwapMessage) .sendKeys
  return s

-- The state of a swap that is found in the database when the daemon starts, unless the ETH has
-- already been claimed.
def newSwapStateFromOngoing (newTxSender newSwapCreator : Bool) (offer : Offer)
    (ethSwapInfo : EthereumSwapInfo) (info : Info) : Except Error SwapState := do
  .failIf (info.status ≠ .xmrLocked) .invalidStageForRecovery
  let s ← newSwapState b newTxSender offer ethSwapInfo.startNumber info
  .failIf (!newSwapCreator) .newSwapCreator
  return { s with
    swapCreatorAddr := ethSwapInfo.swapCreatorAddr
    t1              := unix (int64 ethSwapInfo.swap.timeout1)
    t2              := unix (int64 ethSwapInfo.swap.timeout2)
    contractSwapID  := ethSwapInfo.swapID
    contractSwap    := some ethSwapInfo.swap
    recovery        := some ethSwapInfo }

end Initiate

end XMRMaker
