import AtomicSwap.Protocol.XMRMaker.Basic

open Ethereum SwapCreator Handler

namespace XMRMaker

variable {b : Backend} {ec : EthClient} {calls : Calls} {msg : NotifyETHLocked} {s s' : SwapState}

-- The XMR transfer is asked for.
def Locks (b : Backend) (ec : EthClient) (calls : Calls) (msg : NotifyETHLocked) (s : SwapState) :
    Prop :=
  s.transfer = none ∧ (handleNotifyETHLocked b ec calls msg s).snd.transfer ≠ none

instance : Decidable (Locks b ec calls msg s) :=
  inferInstanceAs (Decidable (_ ∧ _))

section Frame

variable {γ : Type} {g : SwapState → γ}

theorem checkEvent_keeps {sw : SwapCreatorSwap} {event : SwapCreatorNew} :
    Keeps g (checkEvent b s sw event) :=
  keeps_bind keeps_ofExcept fun _ => keeps_bind keeps_ofExcept fun _ =>
  keeps_bind keeps_ofExcept fun _ => keeps_bind keeps_ofExcept fun _ =>
  keeps_bind keeps_ofExcept fun _ => keeps_bind keeps_ofExcept fun _ => keeps_ofExcept

theorem checkValue_keeps {sw : SwapCreatorSwap} : Keeps g (checkValue ec s sw) :=
  keeps_bind keeps_ofExcept fun _ => keeps_bind keeps_ofExcept fun _ => keeps_ofExcept

theorem checkContract_keeps {txHash : Bytes32} : Keeps g (checkContract b ec txHash) :=
  keeps_bind keeps_get fun _ => keeps_bind keeps_ofExcept fun _ =>
  keeps_bind keeps_ofExcept fun _ => keeps_bind keeps_ofExcept fun _ =>
  keeps_bind keeps_ofExcept fun _ => keeps_bind keeps_ofExcept fun _ =>
  keeps_bind keeps_ofExcept fun _ => keeps_bind checkEvent_keeps fun _ => checkValue_keeps

-- What the checks of a message leave alone.
structure Untouched (g : SwapState → γ) : Prop where
  swap     : ∀ s id sw, g { s with contractSwapID := id, contractSwap := sw } = g s
  contract : ∀ s addr, g { s with swapCreatorAddr := addr } = g s
  recovery : ∀ s info, g { s with recovery := info } = g s
  timeouts : ∀ s t1 t2, g { s with t1 := t1, t2 := t2 } = g s

theorem checkETHLocked_keeps (h : Untouched g) : Keeps g (checkETHLocked b ec calls msg) :=
  keeps_bind keeps_ofExcept fun _ => keeps_bind keeps_ofExcept fun _ =>
  keeps_bind keeps_ofExcept fun _ => keeps_bind (keeps_modify fun _ => h.swap ..) fun _ =>
  keeps_bind keeps_ofExcept fun _ => keeps_bind keeps_ofExcept fun _ =>
  keeps_bind (keeps_bind (keeps_modify fun _ => h.contract ..) fun _ => keeps_ofExcept) fun _ =>
  keeps_bind keeps_ofExcept fun _ => keeps_bind (keeps_modify fun _ => h.recovery ..) fun _ =>
  keeps_bind checkContract_keeps fun _ =>
  keeps_bind (keeps_modify fun _ => h.timeouts ..) fun _ => keeps_bind keeps_get fun _ =>
  keeps_bind keeps_ofExcept fun _ => keeps_ofExcept

theorem untouched_transfer : Untouched SwapState.transfer := by
  constructor <;> simp

end Frame

-- What the handler knows about the log that it takes for the `New` event.
structure Seen (b : Backend) (s : SwapState) (msg : NotifyETHLocked) (event : SwapCreatorNew) :
    Prop where
  swapID    : event.swapID = msg.contractSwapID
  claimKey  : s.secp256k1Pub.map (·.keccak256 b.host) = some event.claimKey
  refundKey : s.xmrtakerSecp256k1PublicKey.map (·.keccak256 b.host) = some event.refundKey
  asset     : event.asset = msg.contractSwap.asset
  value     : event.value = msg.contractSwap.value

-- What the handler has checked when it locks the maker's funds.
structure Accepted (b : Backend) (ec : EthClient) (s : SwapState) (msg : NotifyETHLocked) :
    Prop where
  address : msg.address ≠ 0
  nonzero : msg.contractSwapID ≠ 0
  swapID  : msg.contractSwap.swapID b.host = msg.contractSwapID
  code    : ec.codeAt msg.address = some b.expectedSwapCreatorBytecode
  tx      : ∃ tx, ec.transactionByHash msg.txHash = some tx ∧ tx.dst = some msg.address
  event   : ∃ receipt event, ec.waitForReceipt msg.txHash = some receipt ∧
    receipt.logs.findSome? parseNew = some event ∧ Seen b s msg event
  value   : ∃ a n, getEthAssetAmount ec s.info.expectedAmount msg.contractSwap.asset = .ok a ∧
    a.bigInt = .ok n ∧ msg.contractSwap.value = n

theorem checkSwapCreatorContractCode_ok {a : Address}
    (h : checkSwapCreatorContractCode b ec a = .ok ()) :
    ec.codeAt a = some b.expectedSwapCreatorBytecode := by
  unfold checkSwapCreatorContractCode at h
  split at h
  case h_1 => contradiction
  case h_2 code hc =>
    split at h
    case isTrue he  => rw [hc, he]
    case isFalse => contradiction

theorem checkEvent_ok {st : SwapState} {event : SwapCreatorNew} {u : Unit}
    (hid : st.contractSwapID = msg.contractSwapID)
    (h : checkEvent b st msg.contractSwap event s = (.ok u, s')) : Seen b st msg event := by
  simp only [checkEvent, bind_ok, throwIf_ok, ofOption_ok, and_assoc, exists_and_left,
    exists_eq_left', exists_const, ne_eq, not_not] at h
  obtain ⟨hs, ours, ho, hc, theirs, ht, hr, ha, hv, _⟩ := h
  exact ⟨hs.trans hid, by simp [ho, hc], by simp [ht, hr], ha.symm, hv.symm⟩

theorem checkValue_ok {st : SwapState} {u : Unit}
    (h : checkValue ec st msg.contractSwap s = (.ok u, s')) :
    ∃ a n, getEthAssetAmount ec st.info.expectedAmount msg.contractSwap.asset = .ok a ∧
      a.bigInt = .ok n ∧ msg.contractSwap.value = n := by
  simp only [checkValue, bind_ok, throwIf_ok, ofExcept_ok, and_assoc, exists_and_left,
    exists_eq_left', ne_eq, not_not, Except.mapError_eq_ok] at h
  obtain ⟨a, ha, n, hn, hv, _⟩ := h
  exact ⟨a, n, ha, hn, hv⟩

theorem checkContract_ok {u : Unit} (hc : s.contractSwap = some msg.contractSwap)
    (hid : s.contractSwapID = msg.contractSwapID)
    (h : checkContract b ec msg.txHash s = (.ok u, s')) :
    (∃ tx, ec.transactionByHash msg.txHash = some tx ∧ tx.dst = some s.swapCreatorAddr) ∧
    (∃ receipt event, ec.waitForReceipt msg.txHash = some receipt ∧
      receipt.logs.findSome? parseNew = some event ∧ Seen b s msg event) ∧
    ∃ a n, getEthAssetAmount ec s.info.expectedAmount msg.contractSwap.asset = .ok a ∧
      a.bigInt = .ok n ∧ msg.contractSwap.value = n := by
  simp only [checkContract, bind_ok, throwIf_ok, ofOption_ok, get_ok, and_assoc, exists_and_left,
    exists_eq_left', exists_const, ne_eq, not_not, hc, Option.some.injEq] at h
  obtain ⟨tx, ht, hd, receipt, hr, _, event, he, _, s₁, hs, hv⟩ := h
  exact ⟨⟨tx, ht, hd⟩, ⟨receipt, event, hr, he, checkEvent_ok hid hs⟩, checkValue_ok hv⟩

-- Which contract the maker uses and which ones it watches.
def SwapState.contractView (s : SwapState) :
    Address × Bytes32 × Option EthereumSwapInfo × EventFilter × EventFilter × EventFilter :=
  (s.swapCreatorAddr, s.contractSwapID, s.recovery, s.readyWatcher, s.refundedWatcher,
    s.claimedWatcher)

theorem checkETHLocked_ok (h : checkETHLocked b ec calls msg s = (.ok (), s')) :
    Accepted b ec s msg ∧
    ∃ n, s'.contractView = (msg.address, msg.contractSwapID,
      some ⟨n, msg.contractSwapID, msg.contractSwap, msg.address⟩, s.readyWatcher,
      s.refundedWatcher, s.claimedWatcher) := by
  simp only [checkETHLocked, setContract, bind_ok, throwIf_ok, ofExcept_ok, modify_ok, and_assoc,
    exists_and_left, exists_eq_left', exists_const, ne_eq, not_not] at h
  obtain ⟨ha, hn, hi, receipt, _, _, hc, _, _, _, s₁, hs, ht⟩ := h
  obtain ⟨htx, ⟨receipt', event, hr, he, hv⟩, hv'⟩ := checkContract_ok rfl rfl hs
  refine ⟨⟨ha, hn, hi, checkSwapCreatorContractCode_ok hc, htx, ?_, hv'⟩, receipt.blockNumber, ?_⟩
  · exact ⟨receipt', event, hr, he, hv.swapID, hv.claimKey, hv.refundKey, hv.asset, hv.value⟩
  · have h₁ : s₁.contractView = _ := hs ▸ checkContract_keeps (g := SwapState.contractView) _
    have h₂ : Keeps SwapState.contractView
        (checkAndSetTimeouts b calls msg.contractSwap.timeout1 msg.contractSwap.timeout2) :=
      keeps_bind (keeps_modify fun _ => rfl) fun _ => keeps_bind keeps_get fun _ =>
      keeps_bind keeps_ofExcept fun _ => keeps_ofExcept
    have h₂ := h₂ s₁
    rw [ht] at h₂
    exact h₂.trans h₁

theorem lockFunds_keeps {amount : Decimal} :
    Keeps SwapState.contractView (lockFunds calls amount) :=
  keeps_bind (keeps_bind (keeps_bind keeps_ofExcept fun _ => keeps_bind keeps_get fun _ =>
    keeps_bind keeps_ofExcept fun _ => keeps_bind keeps_ofExcept fun _ =>
    keeps_bind (keeps_modify fun _ => rfl) fun _ => keeps_bind keeps_ofExcept fun _ =>
    keeps_bind (keeps_modify fun _ => rfl) fun _ => keeps_ofExcept) fun _ =>
  keeps_modify fun _ => rfl) fun _ => keeps_ofExcept

theorem amountToLock_keeps {γ : Type} {g : SwapState → γ} (h : Untouched g) :
    Keeps g (amountToLock b ec calls msg) :=
  keeps_bind (checkETHLocked_keeps h) fun _ => keeps_bind keeps_get fun _ => keeps_ofExcept

theorem amountToLock_ok {amount : Decimal} (h : amountToLock b ec calls msg s = (.ok amount, s')) :
    checkETHLocked b ec calls msg s = (.ok (), s') := by
  simp only [amountToLock, bind_ok, get_ok, ofExcept_ok] at h
  obtain ⟨_, s₁, hs, s₂, s₃, ⟨_, h₁⟩, _, h₂⟩ := h
  rw [hs, h₁, h₂]

theorem Locks.checked (h : Locks b ec calls msg s) :
    ∃ s₁, checkETHLocked b ec calls msg s = (.ok (), s₁) ∧
      (handleNotifyETHLocked b ec calls msg s).snd.contractView = s₁.contractView := by
  have hk : Keeps SwapState.transfer (amountToLock b ec calls msg) :=
    amountToLock_keeps untouched_transfer
  have ⟨_, s₁, hs, _, hr⟩ := bind_snd hk <| h.left ▸ h.right
  refine ⟨s₁, amountToLock_ok hs, ?_⟩
  rw [handleNotifyETHLocked, hr]
  exact lockFunds_keeps s₁

theorem Locks.accepted (h : Locks b ec calls msg s) : Accepted b ec s msg :=
  have ⟨_, hs, _⟩ := h.checked
  (checkETHLocked_ok hs).left

-- The watchers still look at the contract they were created for.
theorem Locks.contractView (h : Locks b ec calls msg s) :
    ∃ n, (handleNotifyETHLocked b ec calls msg s).snd.contractView =
      (msg.address, msg.contractSwapID,
        some ⟨n, msg.contractSwapID, msg.contractSwap, msg.address⟩, s.readyWatcher,
        s.refundedWatcher, s.claimedWatcher) := by
  have ⟨s₁, hs, hv⟩ := h.checked
  have ⟨_, n, hn⟩ := checkETHLocked_ok hs
  exact ⟨n, hv.trans hn⟩

end XMRMaker

-- The maker sells 1 XMR for 5 ETH.
namespace XMRMaker.Sample

def makerKey : PublicKey where
  x := 0x79be667ef9dcbbac55a06295ce870b07029bfcdb2dce28d959f2815b16f81798
  y := 0x483ada7726a3c4655da4fbfc0e1108a8fd17b448a68554199c47d08ffb10d4b8

def takerKey : PublicKey where
  x := 0xc6047f9441ed7d6d3045406e95c07cd85c778e4b8cef3ca7abac09b95c709ee5
  y := 0x1ae168fea63dc339a3c58419466ceaeef7f632653266d0e1236431a950cfe52a

def swapCreatorAddr : Address := 0x5C

def swap : SwapCreatorSwap where
  owner            := 0xA11CE
  claimer          := 0xB0B
  claimCommitment  := 0xc0a6c424ac7157ae408398df7e5f4552091a69125d5dfcb7b8c2659029395bdf
  refundCommitment := 0xeedf1a9c68b3f4a8b1a1032b2b5ad5c4795c026514f8317c7a215e218dccd6cf
  timeout1         := 1700003600
  timeout2         := 1700007200
  asset            := ethAssetETH
  value            := 5 * 10 ^ 18
  nonce            := 0

def swapID : Bytes32 := 0xb3b86f711c7506a812e286008d1e35f8420407d46c1e72c828c7d951a5f1a5bf

-- A swap of 1 unit of another asset, which the maker cannot claim.
def cover : SwapCreatorSwap :=
  { swap with claimer := 0xA11CE, asset := 0xE7, value := 1, nonce := 1 }

def coverID : Bytes32 := 0x2638ed4fcbf68204e3a152c83b8f6172bae22e7586eb30ce971b7fb505ad40c1

-- A swap of 5 units of an asset with 18 decimals.
def tokenSwap : SwapCreatorSwap :=
  { swap with asset := 0xE7 }

def tokenSwapID : Bytes32 := 0x1d2183e6571dcb9f0b49a4a8d496c85957476d9a8f4e3ddbae98561e43195ca0

def host : Host where
  keccak256 bs :=
    if bs = Bytes.be 32 makerKey.x.toNat ++ Bytes.be 32 makerKey.y.toNat then swap.claimCommitment
    else if bs = Bytes.be 32 takerKey.x.toNat ++ Bytes.be 32 takerKey.y.toNat then
      swap.refundCommitment
    else if bs = abiEncode swap.pack then swapID
    else if bs = abiEncode cover.pack then coverID
    else if bs = abiEncode tokenSwap.pack then tokenSwapID
    else 0
  ecrecover _ _ _ _ := 0

def backend : Backend where
  host                        := host
  env                         := .mainnet
  ethAddress                  := 0xB0B
  swapCreatorAddr             := swapCreatorAddr
  expectedSwapCreatorBytecode := [0x60, 0x80]

def client (logs : List Log) : EthClient where
  transactionReceipt _ _ := .found ⟨true, logs, 100⟩
  transactionByHash _    := some ⟨some swapCreatorAddr⟩
  waitForReceipt _       := some ⟨true, logs, 100⟩
  codeAt a               := if a = swapCreatorAddr then some [0x60, 0x80] else some []
  erc20Info a            := if a = tokenSwap.asset then some ⟨a, 18⟩ else none

def calls : Calls where
  newSwapCreator      := true
  putContractSwapInfo := true
  now                 := unix 1700000000
  getBalance          := true
  writeSwapToDB       := true
  transfer            := true

def notify (sw : SwapCreatorSwap) (id : Bytes32) : NotifyETHLocked where
  address        := swapCreatorAddr
  txHash         := 1
  contractSwapID := id
  contractSwap   := sw

def newLog (sw : SwapCreatorSwap) (id : Bytes32) : Log :=
  Event.new id sw.claimCommitment sw.refundCommitment sw.pack.timeout1 sw.pack.timeout2 sw.asset
    sw.pack.value |>.toLog swapCreatorAddr 100

def offer : Offer where
  id           := 1
  minAmount    := { coeff := 1 }
  maxAmount    := { coeff := 1 }
  exchangeRate := { coeff := 5 }
  ethAsset     := ethAssetETH

def state : SwapState where
  offer                      := offer
  info                       := ⟨1, { coeff := 1 }, { coeff := 5 }, ethAssetETH, .keysExchanged⟩
  secp256k1Pub               := some makerKey
  xmrtakerSecp256k1PublicKey := some takerKey
  swapCreatorAddr            := 0
  contractSwapID             := 0
  contractSwap               := none
  t1                         := 0
  t2                         := 0
  nextExpectedEvent          := .ethLocked
  readyWatcher               := newEventFilter swapCreatorAddr 90 readyTopic
  refundedWatcher            := newEventFilter swapCreatorAddr 90 refundedTopic
  claimedWatcher             := newEventFilter swapCreatorAddr 90 claimedTopic
  recovery                   := none
  transfer                   := none

theorem swap_locks :
    Locks backend (client [newLog swap swapID]) calls (notify swap swapID) state := by
  decide +kernel

end XMRMaker.Sample
