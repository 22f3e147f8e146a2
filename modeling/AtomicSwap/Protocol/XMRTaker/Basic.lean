import AtomicSwap.Library.Except
import AtomicSwap.Library.Handler
import AtomicSwap.Protocol.Basic

open Ethereum SwapCreator Handler

namespace XMRTaker

inductive Error
  -- handleSendKeysMessage
  | missingProvidedAmount
  | unexpectedProvidedAmount (got expected : Decimal)
  | missingKeys
  | missingAddress
  | invalidKeys
  | assetSymbol
  | setXMRMakerKeys
  -- lockAsset
  | newSwap
  | swapInstantiationNoLogs
  | swapIDNotFound
  | timeoutsNotFound
  | putContractSwapInfo
  -- newSwapState
  | ethClient
  | xmrClient
  | addSwap
  | newTxSender
  | putSwapPrivateKey
  | invalidStageForRecovery
  | getCounterpartySwapKeys
  | contractAddrMismatch (expected : Address)
  | coins (e : Coins.Error)
  | panicked
  deriving DecidableEq

def Error.isPanic : Error → Bool
  | .panicked | .coins .panicked => true
  | _                            => false

inductive EventType
  | keysReceived
  | xmrLocked
  | ethClaimed
  | shouldRefund
  | exit
  | none
  deriving DecidableEq, Repr

def nextExpectedEventFromStatus : Status → EventType
  | .expectingKeys => .keysReceived
  | .ethLocked     => .xmrLocked
  | .contractReady => .ethClaimed
  | _              => .exit

def EventType.getStatus : EventType → Status
  | xmrLocked  => .ethLocked
  | ethClaimed => .contractReady
  | _          => .unknown

-- The keys of the maker, with a proof that they belong together.
structure SendKeysMessage where
  providedAmount     : Option Decimal
  hasMoneroKeys      : Bool
  ethAddress         : Address
  secp256k1PublicKey : PublicKey
  deriving DecidableEq

-- The fields of the taker's state that its handlers use. The entry `recovery` stands for the
-- recovery database.
structure SwapState where
  info                       : Info
  providedAmount             : Coins.EthAssetAmount
  noTransferBack             : Bool
  secp256k1Pub               : Option PublicKey
  xmrmakerSecp256k1PublicKey : Option PublicKey
  xmrmakerAddress            : Address
  contractSwapID             : Bytes32
  contractSwap               : Option SwapCreatorSwap
  t1                         : Time
  t2                         : Time
  nextExpectedEvent          : EventType
  fundsLocked                : Bool
  recovery                   : Option EthereumSwapInfo
  deriving DecidableEq

abbrev M := Handler SwapState Error

structure Backend where
  host            : Host
  ethAddress      : Address
  swapCreatorAddr : Address

-- Which of the calls succeed that are made before the asset is locked.
structure KeysCalls where
  verifyKeysAndProof  : Bool
  assetSymbol         : Bool
  putCounterpartyKeys : Bool

-- The first part of `handleSendKeysMessage`.
def checkKeys (calls : KeysCalls) (msg : SendKeysMessage) : M Unit := do
  let s ← get
  let provided ← ofOption .missingProvidedAmount msg.providedAmount
  throwIf (provided.cmp s.info.expectedAmount = .lt)
    (.unexpectedProvidedAmount provided s.info.expectedAmount)
  throwIf (!msg.hasMoneroKeys) .missingKeys
  throwIf (msg.ethAddress = 0) .missingAddress
  throwIf (!calls.verifyKeysAndProof) .invalidKeys
  modify fun s => { s with xmrmakerAddress := msg.ethAddress }
  throwIf (!calls.assetSymbol) .assetSymbol
  modify fun s => { s with xmrmakerSecp256k1PublicKey := some msg.secp256k1PublicKey }
  throwIf (!calls.putCounterpartyKeys) .setXMRMakerKeys

-- The result for the first log that has one, whichever contract it is from.
def firstOf {α : Type} (get : Log → Except NewLogError α) (e : Error) :
    List Log → Except Error α
  | []      => .error e
  | l :: ls =>
    match get l with
    | .ok a            => .ok a
    | .error .panicked => .error .panicked
    | .error _         => firstOf get e ls

-- The last attempt to find the ID has overwritten it.
def setSwapID (logs : List Log) : M Unit := do
  let id := firstOf getIDFromLog .swapIDNotFound logs
  modify fun s => { s with contractSwapID := id.toOption.getD 0 }
  let _ ← ofExcept id

def setTimeouts (t1 t2 : ℤ) : M Unit :=
  modify fun s => { s with t1 := unix (int64 t1), t2 := unix (int64 t2) }

def newContractSwap (b : Backend) (s : SwapState) (ours theirs : PublicKey) (t1 t2 : ℤ) (value : ℕ)
    (nonce : ℤ) : SwapCreatorSwap where
  owner            := b.ethAddress
  claimer          := s.xmrmakerAddress
  claimCommitment  := theirs.keccak256 b.host
  refundCommitment := ours.keccak256 b.host
  timeout1         := t1
  timeout2         := t2
  asset            := s.info.ethAsset
  value            := value
  nonce            := nonce

-- The part of `lockAsset` that reads the receipt of the transaction.
def readSwap (b : Backend) (nonce : ℤ) (receipt : Receipt) : M SwapCreatorSwap := do
  throwIf (receipt.logs = []) .swapInstantiationNoLogs
  setSwapID receipt.logs
  let (t1, t2) ← ofExcept (firstOf getTimeoutsFromLog .timeoutsNotFound receipt.logs)
  modify fun s => { s with fundsLocked := true }
  setTimeouts t1 t2
  let s ← get
  let ours ← ofOption .panicked s.secp256k1Pub
  let theirs ← ofOption .panicked s.xmrmakerSecp256k1PublicKey
  let value ← ofExcept (s.providedAmount.bigInt.mapError .coins)
  let contractSwap := newContractSwap b s ours theirs t1 t2 value nonce
  modify fun s => { s with contractSwap := some contractSwap }
  return contractSwap

def recordSwap (b : Backend) (nonce : ℤ) (putContractSwapInfo : Bool) (receipt : Receipt) :
    M Unit := do
  let contractSwap ← readSwap b nonce receipt
  throwIf (!putContractSwapInfo) .putContractSwapInfo
  modify fun s => { s with
    recovery := some ⟨receipt.blockNumber, s.contractSwapID, contractSwap, b.swapCreatorAddr⟩ }

section NewSwapState

-- What other components answer when a swap is started or recovered.
structure StartCalls where
  getHeight               : Bool
  ethHeader               : Bool
  addSwap                 : Bool
  hasPrivateKey           : Bool
  newTxSender             : Bool
  erc20Info               : Address → Option Coins.ERC20TokenInfo
  generateKeys            : Option PublicKey
  getCounterpartySwapKeys : Bool

variable (b : Backend) (calls : StartCalls)

-- The token of an asset, if it is one.
def tokenOf (asset : Address) : Except Error (Option Coins.ERC20TokenInfo) :=
  if asset = ethAssetETH then .ok none
  else
    match calls.erc20Info asset with
    | none       => .error .ethClient
    | some token => .ok (some token)

def newSwapState (noTransferBack : Bool) (info : Info) : Except Error SwapState := do
  .failIf (!calls.newTxSender) .newTxSender
  let token ← tokenOf calls info.ethAsset
  let providedAmount ← (Coins.newEthAssetAmount info.providedAmount token).mapError .coins
  return {
    info
    providedAmount
    noTransferBack             := noTransferBack && calls.hasPrivateKey
    secp256k1Pub               := none
    xmrmakerSecp256k1PublicKey := none
    xmrmakerAddress            := 0
    contractSwapID             := 0
    contractSwap               := none
    t1                         := 0
    t2                         := 0
    nextExpectedEvent          := nextExpectedEventFromStatus info.status
    fundsLocked                := false
    recovery                   := none }

def newSwapStateFromStart (offerID : Bytes32) (noTransferBack : Bool)
    (providedAmount : Coins.EthAssetAmount) (exchangeRate : Decimal) (ethAsset : Address) :
    Except Error SwapState := do
  .failIf (!calls.getHeight) .xmrClient
  .failIf (!calls.ethHeader) .ethClient
  let expectedAmount ← (Coins.ExchangeRate.toXMR exchangeRate providedAmount).mapError .coins
  let provided ← providedAmount.asStd.mapError .coins
  .failIf (!calls.addSwap) .addSwap
  let s ← newSwapState calls noTransferBack
    { offerID, providedAmount := provided, expectedAmount, ethAsset, status := .expectingKeys }
  let some key := calls.generateKeys | .error .putSwapPrivateKey
  return { s with secp256k1Pub := some key }

-- The state of a swap that is found in the database when the daemon starts.
def newSwapStateFromOngoing (info : Info) (noTransferBack : Bool) (ethSwapInfo : EthereumSwapInfo) :
    Except Error SwapState := do
  .failIf (info.status ≠ .ethLocked ∧ info.status ≠ .contractReady) .invalidStageForRecovery
  .failIf (!calls.getCounterpartySwapKeys) .getCounterpartySwapKeys
  let s ← newSwapState calls noTransferBack info
  .failIf (b.swapCreatorAddr ≠ ethSwapInfo.swapCreatorAddr)
    (.contractAddrMismatch ethSwapInfo.swapCreatorAddr)
  return { s with
    t1             := unix (int64 ethSwapInfo.swap.timeout1)
    t2             := unix (int64 ethSwapInfo.swap.timeout2)
    contractSwapID := ethSwapInfo.swapID
    contractSwap   := some ethSwapInfo.swap
    recovery       := some ethSwapInfo }

end NewSwapState

section InitiateProtocol

inductive InitiateError
  | amountProvidedTooLow
  | amountProvidedTooHigh
  | balanceTooLow
  | protocolAlreadyInProgress
  | state (e : Error)
  deriving DecidableEq

structure InitiateCalls where
  start              : StartCalls
  validateMinBalance : Bool
  inProgress         : Bool
  noTransferBack     : Bool

variable (calls : InitiateCalls)

def initiate (providesAmount : Coins.EthAssetAmount) (exchangeRate : Decimal) (ethAsset : Address)
    (offerID : Bytes32) : Except InitiateError SwapState := do
  .failIf calls.inProgress .protocolAlreadyInProgress
  newSwapStateFromStart calls.start offerID calls.noTransferBack providesAmount exchangeRate
    ethAsset |>.mapError .state

def initiateProtocol (providesAmount : Option Decimal) (offer : Offer) :
    Except InitiateError SwapState := do
  let token ← (tokenOf calls.start offer.ethAsset).mapError .state
  let amount ← (Coins.validatePositive "providesAmount" (Coins.decimalsOf token)
    providesAmount).mapError (.state ∘ .coins)
  let providedAssetAmount ← (Coins.newEthAssetAmount amount token).mapError (.state ∘ .coins)
  let providesAmtAsXMR ←
    (Coins.ExchangeRate.toXMR offer.exchangeRate providedAssetAmount).mapError (.state ∘ .coins)
  .failIf (providesAmtAsXMR.cmp offer.minAmount = .lt) .amountProvidedTooLow
  .failIf (providesAmtAsXMR.cmp offer.maxAmount = .gt) .amountProvidedTooHigh
  .failIf (!calls.validateMinBalance) .balanceTooLow
  initiate calls providedAssetAmount offer.exchangeRate offer.ethAsset offer.id

end InitiateProtocol

end XMRTaker
