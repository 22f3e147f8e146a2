import AtomicSwap.Protocol.XMRMaker.Expiration
import AtomicSwap.Relayer.Request

open Ethereum Ethereum.SwapCreator Relayer Handler

namespace XMRMaker

-- What `claimFunds` uses of the swap.
structure ClaimSwap where
  contractSwap    : SwapCreatorSwap
  contractSwapID  : Bytes32
  swapCreatorAddr : Address
  secret          : Bytes32
  peerID          : PeerID
  offerID         : Bytes32
  useRelayer      : Bool

-- What `claimFunds` asks others for: its Ethereum node, the network, its peers and the database.
-- The peers answer with anything, or not at all.
structure ClaimEnv (σ : Type) where
  ec                  : Ethereum.EthClient σ
  host                : Host
  key                 : EthKey
  discoverRelayers    : σ → Option (List PeerID) × σ
  queryRelayerAddress : PeerID → σ → Option Bytes32 × σ
  submitRelayRequest  : PeerID → RelayClaimRequest → σ → Option Bytes32 × σ
  writeSwapToDB       : Decimal → σ → Option Unit × σ

inductive ClaimedLogError
  | invalidContractAddr
  | wrongTopicLength
  | wrongEvent
  | wrongSwapID
  | wrongSecret
  deriving DecidableEq

inductive ReceiptCheckError
  | failedTransaction
  | noLogs
  | log (e : ClaimedLogError)
  | client
  | contextExpired
  | notFound
  deriving DecidableEq

inductive ClaimError
  | balance
  | erc20Balance
  | gasPrice
  | txOpts
  | transact (e : TransactError)
  | wait (e : WaitError)
  | discover
  | noRelayers
  | query
  | request (e : RequestError)
  | submit
  | receipt (e : ReceiptCheckError)
  | allRelayersFailed
  | db
  deriving DecidableEq

section Receipts

variable (contractAddr : Address) (contractSwapID secret : Bytes32)

def checkClaimedLog (log : Log) : Except ClaimedLogError Unit := do
  .failIf (log.address ≠ contractAddr) .invalidContractAddr
  .failIf (log.topics.length ≠ 3) .wrongTopicLength
  .failIf (log.topics[0]? ≠ some claimedTopic) .wrongEvent
  .failIf (log.topics[1]? ≠ some contractSwapID) .wrongSwapID
  .failIf (log.topics[2]? ≠ some secret) .wrongSecret

-- Only the first log is looked at.
def validateClaimRelayerReceipt (receipt : Receipt) : Except ReceiptCheckError Receipt := do
  .failIf (receipt.success = false) .failedTransaction
  let log ← receipt.logs.head?.elim (.error .noLogs) .ok
  (checkClaimedLog contractAddr contractSwapID secret log).mapError .log
  return receipt

def maxPolls : ℕ :=
  10

variable {σ : Type} (ec : Ethereum.EthClient σ) (txHash : Bytes32)

-- The rounds of `waitForClaimRelayerReceipt` that are left. Unlike `WaitForReceipt`, it gives up at
-- any other error.
def pollRounds : ℕ → Handler σ ReceiptCheckError Receipt
  | 0     => ofExcept (.error .notFound)
  | n + 1 => do
    match ← ask (ec.transactionReceipt txHash) with
    | .error .other    => ofExcept (.error .client)
    | .error .notFound =>
      askFor .contextExpired ec.sleepWithContext
      pollRounds n
    | .ok receipt      =>
      ofExcept (validateClaimRelayerReceipt contractAddr contractSwapID secret receipt)

def waitForClaimRelayerReceipt : Handler σ ReceiptCheckError Receipt :=
  pollRounds contractAddr contractSwapID secret ec txHash maxPolls

end Receipts

variable {σ : Type} (s : ClaimSwap) (w : ClaimEnv σ)

-- The hash is set when the relayer has sent it.
def relaySwapOf (relayerHash : Bytes32) : SwapCreatorRelaySwap where
  swap        := s.contractSwap
  fee         := relayerFeeWei
  relayerHash := relayerHash
  swapCreator := s.swapCreatorAddr

def submitClaimToRelayer (relayerID : PeerID) (offerID : Option Bytes32) :
    Handler σ ClaimError Bytes32 := do
  let relayerAddrHash ← askFor .query (w.queryRelayerAddress relayerID)
  let req := createRelayClaimRequest w.host w.key (relaySwapOf s relayerAddrHash) s.secret
  let req ← ofExcept (req.mapError .request)
  askFor .submit (w.submitRelayRequest relayerID { req with offerID })

def waitForRelayed (txHash : Bytes32) : Handler σ ClaimError Receipt :=
  zoom id (fun x _ => x) .receipt <|
    waitForClaimRelayerReceipt s.swapCreatorAddr s.contractSwapID s.secret w.ec txHash

-- One relayer is asked, and its transaction is looked for.
def relayClaim (relayerID : PeerID) (offerID : Option Bytes32) : Handler σ ClaimError Receipt := do
  let txHash ← submitClaimToRelayer s w relayerID offerID
  waitForRelayed s w txHash

def relayClaimWithXMRTaker : Handler σ ClaimError Receipt :=
  relayClaim s w s.peerID (some s.offerID)

-- The loop of `claimWithAdvertisedRelayers`.
def tryRelayers : List PeerID → Handler σ ClaimError Receipt
  | []                         => ofExcept (.error .allRelayersFailed)
  | relayerPeerID :: relayers' => do
    if relayerPeerID = s.peerID then tryRelayers relayers'
    else
      match ← attempt (relayClaim s w relayerPeerID none) with
      | .ok receipt => return receipt
      | .error _    => tryRelayers relayers'

def claimWithAdvertisedRelayers : Handler σ ClaimError Receipt := do
  let relayers ← askFor .discover w.discoverRelayers
  throwIf (relayers = []) .noRelayers
  tryRelayers s w relayers

-- The counterparty is the relayer of last resort.
def relayOrFallBack : Handler σ ClaimError Receipt := do
  match ← attempt (claimWithAdvertisedRelayers s w) with
  | .ok receipt => return receipt
  | .error _    => relayClaimWithXMRTaker s w

def claimWithRelay : Handler σ ClaimError Receipt := do
  let receipt ← relayOrFallBack s w
  askFor .db (w.writeSwapToDB Coins.relayerFeeETH)
  return receipt

def claimGas : ℤ :=
  50000

def checkForMinClaimBalance : Handler σ ClaimError Bool := do
  let balance ← askFor .balance w.ec.balance
  if balance = 0 then return false
  else
    let gasPrice ← askFor .gasPrice w.ec.suggestGasPrice
    return gasPrice * claimGas ≤ balance

-- `Claim` of a sender with a private key.
def senderClaim : Handler σ ClaimError Receipt := do
  askFor .txOpts w.ec.txOpts
  let tx ← ask (w.ec.transact s.swapCreatorAddr <|
    .claim ⟨w.ec.address, 0⟩ s.contractSwap.pack s.secret)
  let txHash ← ofExcept (tx.mapError .transact)
  zoom id (fun x _ => x) .wait (waitForReceipt w.ec txHash)

-- The claim is relayed if the maker wants it so, and if it cannot pay for the gas.
def claimOrRelay (hasBalanceToClaim : Bool) : Handler σ ClaimError Receipt := do
  if s.useRelayer ∨ !hasBalanceToClaim then claimWithRelay s w
  else
    match ← attempt (senderClaim s w) with
    | .ok receipt                           => return receipt
    | .error (.transact .insufficientFunds) => claimWithRelay s w
    | .error e                              => ofExcept (.error e)

-- The balances before and after the claim are only logged.

def tokenBalance : Handler σ ClaimError Unit := do
  if s.contractSwap.asset ≠ native then
    let _ ← askFor .erc20Balance (w.ec.erc20Balance s.contractSwap.asset)

def assetBalance : Handler σ ClaimError Unit := do
  if s.contractSwap.asset = native then let _ ← askFor .balance w.ec.balance
  else let _ ← askFor .erc20Balance (w.ec.erc20Balance s.contractSwap.asset)

def claimFunds : Handler σ ClaimError Receipt := do
  let _ ← askFor .balance w.ec.balance
  tokenBalance s w
  let hasBalanceToClaim ← checkForMinClaimBalance w
  let receipt ← claimOrRelay s w hasBalanceToClaim
  assetBalance s w
  return receipt

end XMRMaker
