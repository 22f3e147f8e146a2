import AtomicSwap.Protocol.Swap.Manager
import AtomicSwap.Protocol.XMRMaker.EventLoop
import AtomicSwap.Protocol.XMRMaker.Offers

open Ethereum Handler Function

-- The maker's side of the daemon: it starts a swap when a taker sends a message.
namespace XMRMaker

structure Instance where
  offerManager : Offers.Manager
  swapManager  : Swap.Manager
  swapStates   : Bytes32 → Option SwapState

-- What other components answer while a swap is initiated. The database of the offers works.
structure InstanceCalls where
  unlockedBalance     : Option Decimal
  putSwapRelayerInfo  : Bool
  getHeight           : Bool
  ethHeader           : Option ℕ
  addSwap             : Bool
  newSwapState        : Bool -- the sender is made and the filters are started
  generateKeys        : Option PublicKey
  assetSymbol         : Bool
  verifyKeysAndProof  : Bool
  putCounterpartyKeys : Bool
  sendSwapMessage     : Bool
  completeOngoingSwap : Bool
  now                 : Time

-- The answers as the functions see them that do not depend on the managers.
def InstanceCalls.toInitiateCalls (calls : InstanceCalls) (inst : Instance)
    (oe : Offers.OfferWithExtra) : InitiateCalls where
  getOffer id         := (inst.offerManager.offers id).map (·.offer)
  inProgress          := (inst.swapStates oe.offer.id).isSome
  unlockedBalance     := calls.unlockedBalance
  takeOffer           := (inst.offerManager.offers oe.offer.id).isSome
  ethHeader           := calls.ethHeader
  startSwap           := (!oe.useRelayer || calls.putSwapRelayerInfo) && calls.getHeight
  newTxSender         := calls.addSwap && calls.newSwapState
  generateKeys        := calls.generateKeys
  assetSymbol         := oe.offer.ethAsset = ethAssetETH || calls.assetSymbol
  verifyKeysAndProof  := calls.verifyKeysAndProof
  putCounterpartyKeys := calls.putCounterpartyKeys
  sendSwapMessage     := calls.sendSwapMessage

-- The amount that the maker provides, in piconero, and the one that it expects.
def amountsOf (ec : EthClient) (offer : Offer) (msg : SendKeysMessage) :
    Except Error (Decimal × Coins.EthAssetAmount) := do
  let token ← tokenOf ec offer.ethAsset
  let amount ← (Coins.validatePositive "providedAmount" (Coins.decimalsOf token)
    msg.providedAmount).mapError .coins
  let expectedAmount ← (Coins.newEthAssetAmount amount token).mapError .coins
  let providedAmtAsXMR ←
    (Coins.ExchangeRate.toXMR offer.exchangeRate expectedAmount).mapError .coins
  .failIf (providedAmtAsXMR.cmp offer.minAmount = .lt) .amountProvidedTooLow
  .failIf (providedAmtAsXMR.cmp offer.maxAmount = .gt) .amountProvidedTooHigh
  let providedPiconero ← (Coins.moneroToPiconero providedAmtAsXMR).mapError .coins
  return (providedPiconero, expectedAmount)

namespace Instance

abbrev M := Handler Instance Error

def offers {α : Type} (e : Error) (x : Offers.Manager.M α) : M α :=
  zoom offerManager (fun offerManager inst => { inst with offerManager }) (fun _ => e) x

def swaps {α : Type} (x : Swap.Manager.M α) : M α :=
  zoom swapManager (fun swapManager inst => { inst with swapManager }) (fun _ => .newSwapState) x

variable (b : Backend) (ec : EthClient) (calls : InstanceCalls)

-- A swap that has just been started: its state, the pointer to its `Info`, and its offer.
structure Started where
  state : SwapState
  info  : ℕ
  oe    : Offers.OfferWithExtra

def newSwapStateFromStart (oe : Offers.OfferWithExtra) (providesAmount : Decimal)
    (desiredAmount : Coins.EthAssetAmount) : M Started := do
  throwIf (oe.useRelayer ∧ !calls.putSwapRelayerInfo) .newSwapState
  throwIf (!calls.getHeight) .newSwapState
  let ethHeader ← ofOption .newSwapState calls.ethHeader
  let providedAmount ← ofExcept ((Coins.asMonero providesAmount).mapError .coins)
  let expectedAmount ← ofExcept (desiredAmount.asStd.mapError .coins)
  let info : Info :=
    { offerID := oe.offer.id, providedAmount, expectedAmount, ethAsset := oe.offer.ethAsset
      status := .keysExchanged }
  let p ← swaps (Swap.Manager.newInfo { info with provides := .xmr })
  swaps (Swap.Manager.addSwap calls.addSwap p)
  let s ← ofExcept (newSwapState b calls.newSwapState oe.offer ethHeader info)
  let key ← ofOption .newSwapState calls.generateKeys
  return { state := { s with secp256k1Pub := some key }, info := p, oe }

-- What `exit` defers: the first error ends it.
def retire (s : Started) (fate : OfferFate) : M Unit := do
  swaps (Swap.Manager.completeOngoingSwap calls.completeOngoingSwap calls.now s.info)
  match fate with
  | .readded =>
    let _ ← offers .noOffer (Offers.Manager.addOffer true s.oe.offer s.oe.useRelayer)
  | .deleted => offers .noOffer (Offers.Manager.deleteOffer true s.oe.offer.id)
  | .taken   => return ()

-- `Exit` sends an event to the loop of the swap, which handles it. Its error is not looked at.
def exit (s : Started) : M Unit := do
  let loop := (Loop.start s.state).exit 0
  swaps (Swap.Manager.setStatus s.info loop.swap.info.status)
  let _ ← attempt (retire calls s loop.retireOffer)

def initiate (oe : Offers.OfferWithExtra) (providesAmount : Decimal)
    (desiredAmount : Coins.EthAssetAmount) : M Started := do
  let inst ← get
  throwIf (inst.swapStates oe.offer.id).isSome .protocolAlreadyInProgress
  let unlocked ← ofOption .balance calls.unlockedBalance
  throwIf (unlocked.cmp providesAmount ≠ .gt) .balanceTooLow
  let _ ← offers .takeOffer (Offers.Manager.takeOffer oe.offer.id)
  let s ← newSwapStateFromStart b calls oe providesAmount desiredAmount
  if oe.offer.ethAsset ≠ ethAssetETH ∧ !calls.assetSymbol then
    exit calls s
    throwIf True .erc20Info
  modify fun inst =>
    { inst with swapStates := update inst.swapStates oe.offer.id (some s.state) }
  return s

def handleInitiateMessage (msg : SendKeysMessage) : M SwapState := do
  let inst ← get
  throwIf (msg.offerID = 0) .offerIDNotSet
  let oe ← offers .noOffer (Offers.Manager.getOffer msg.offerID)
  let (providedPiconero, expectedAmount) ← ofExcept (amountsOf ec oe.offer msg)
  let s ← initiate b calls oe providedPiconero expectedAmount
  match handleSendKeysMessage (calls.toInitiateCalls inst oe) msg s.state with
  | .error e  => do
    exit calls s
    ofExcept (.error e)
  | .ok state =>
    if !calls.sendSwapMessage then
      exit calls s
      ofExcept (.error .sendKeys)
    else return state

end Instance

end XMRMaker
