import AtomicSwap.Library.Abi
import AtomicSwap.Library.Base58
import AtomicSwap.Library.Base64
import AtomicSwap.Library.Bytes
import AtomicSwap.Library.Decimal
import AtomicSwap.Library.Decimal.Text
import AtomicSwap.Library.Decimal.Rounding
import AtomicSwap.Library.Decimal.Parse
import AtomicSwap.Library.Except
import AtomicSwap.Library.Handler
import AtomicSwap.Library.Hex
import AtomicSwap.Library.Json
import AtomicSwap.Library.Json.Tree
import AtomicSwap.Library.Json.Struct
import AtomicSwap.Library.Ledger
import AtomicSwap.Library.Machine
import AtomicSwap.Library.Machine.Runs
import AtomicSwap.Library.Ownership
import AtomicSwap.Library.Radix
import AtomicSwap.Library.Reentrant
import AtomicSwap.Library.Reentrant.Visible
import AtomicSwap.Library.Reentrant.History
import AtomicSwap.Library.Reentrant.Frame
import AtomicSwap.Library.Reentrant.Entries
import AtomicSwap.Library.Reentrant.Returns
import AtomicSwap.Library.Semver
import AtomicSwap.Library.Text
import AtomicSwap.Library.Utf8
import AtomicSwap.Coins
import AtomicSwap.Common.Types
import AtomicSwap.Common.OfferJSON
import AtomicSwap.Coins.Theorems.Units
import AtomicSwap.Coins.Theorems.Exchange
import AtomicSwap.Common.Theorems.OfferID
import AtomicSwap.Crypto.Monero
import AtomicSwap.Crypto.Monero.Keys
import AtomicSwap.Crypto.Monero.Address
import AtomicSwap.Crypto.DLEq
import AtomicSwap.Ethereum.Basic
import AtomicSwap.Ethereum.Hex
import AtomicSwap.Ethereum.Secp256k1
import AtomicSwap.Ethereum.SwapCreator.Basic
import AtomicSwap.Ethereum.SwapCreator.Theorems.Lifecycle
import AtomicSwap.Ethereum.SwapCreator.Theorems.Guarantees
import AtomicSwap.Ethereum.SwapCreator.Theorems.Custody
import AtomicSwap.Ethereum.SwapCreator.Theorems.Exclusion
import AtomicSwap.Ethereum.SwapCreator.Theorems.Relays
import AtomicSwap.Ethereum.SwapCreator.Theorems.Stranded
import AtomicSwap.Ethereum.Utils
import AtomicSwap.Ethereum.SwapCreator.Theorems.Secrets
import AtomicSwap.Ethereum.SwapCreator.Theorems.Encodings
import AtomicSwap.Ethereum.SwapCreator.Theorems.Log
import AtomicSwap.Ethereum.SwapCreator.Theorems.Window
import AtomicSwap.Ethereum.Watcher
import AtomicSwap.Ethereum.VaultManager.Basic
import AtomicSwap.Ethereum.VaultManager.Theorems.Accounts
import AtomicSwap.Ethereum.VaultManager.Theorems.Custody
import AtomicSwap.Ethereum.VaultManager.Theorems.Collateral
import AtomicSwap.Ethereum.VaultManager.Theorems.Liquidations
import AtomicSwap.Ethereum.VaultManager.Theorems.Escrow
import AtomicSwap.Ethereum.VaultManager.Theorems.Prices
import AtomicSwap.Ethereum.VaultManager.Theorems.Footprints
import AtomicSwap.Ethereum.VaultManager.Theorems.Supply
import AtomicSwap.Ethereum.VaultManager.Theorems.Progress
import AtomicSwap.Ethereum.VaultManager.Theorems.Mints
import AtomicSwap.Ethereum.VaultManager.Theorems.Burns
import AtomicSwap.Ethereum.Token.Basic
import AtomicSwap.Ethereum.Token.Safe
import AtomicSwap.Ethereum.Token.Theorems.Supply
import AtomicSwap.Ethereum.Token.Theorems.Allowances
import AtomicSwap.Ethereum.Token.Theorems.Refinement
import AtomicSwap.Ethereum.Theorems.Commitments
import AtomicSwap.Cmd.WsxmrDaemon
import AtomicSwap.Protocol.Basic
import AtomicSwap.Ethereum.Client
import AtomicSwap.Protocol.Clock
import AtomicSwap.Protocol.Swap.Manager
import AtomicSwap.Protocol.Swap.StatusManager
import AtomicSwap.Protocol.Swap.Theorems.Manager
import AtomicSwap.Protocol.Swap.Theorems.Apart
import AtomicSwap.Protocol.Swap.Theorems.Ongoing
import AtomicSwap.Protocol.Swap.Theorems.StatusManager
import AtomicSwap.DB.RecoveryDB
import AtomicSwap.Protocol.Keys
import AtomicSwap.Protocol.Recovery
import AtomicSwap.Protocol.Theorems.LockAccount
import AtomicSwap.Protocol.Theorems.Secrets
import AtomicSwap.Protocol.XMRMaker.Basic
import AtomicSwap.Protocol.XMRMaker.EventLoop
import AtomicSwap.Protocol.XMRMaker.Expiration
import AtomicSwap.Protocol.XMRMaker.Senders
import AtomicSwap.Protocol.XMRMaker.Answers
import AtomicSwap.Protocol.XMRMaker.Offers
import AtomicSwap.Protocol.XMRMaker.Instance
import AtomicSwap.Protocol.XMRMaker.Theorems.Lock
import AtomicSwap.Protocol.XMRMaker.Theorems.Timeouts
import AtomicSwap.Protocol.XMRMaker.Theorems.Initiate
import AtomicSwap.Protocol.XMRMaker.Theorems.Claimable
import AtomicSwap.Protocol.XMRMaker.Theorems.Amounts
import AtomicSwap.Protocol.XMRMaker.Theorems.Watching
import AtomicSwap.Protocol.XMRMaker.Theorems.Retirement
import AtomicSwap.Protocol.XMRMaker.Theorems.Claims
import AtomicSwap.Protocol.XMRMaker.Theorems.Panics
import AtomicSwap.Protocol.XMRMaker.Theorems.Triggers
import AtomicSwap.Protocol.XMRMaker.Theorems.Offers
import AtomicSwap.Protocol.XMRMaker.Theorems.Instance
import AtomicSwap.Protocol.XMRTaker.Basic
import AtomicSwap.Protocol.XMRTaker.EventLoop
import AtomicSwap.Protocol.XMRTaker.Expiration
import AtomicSwap.Protocol.XMRTaker.Senders
import AtomicSwap.Protocol.XMRTaker.Answers
import AtomicSwap.Protocol.XMRTaker.Instance
import AtomicSwap.Protocol.XMRTaker.Startup
import AtomicSwap.Protocol.Sweep
import AtomicSwap.Protocol.Notifications
import AtomicSwap.Protocol.XMRTaker.Theorems.Retirement
import AtomicSwap.Protocol.XMRTaker.Theorems.Locked
import AtomicSwap.Protocol.XMRTaker.Theorems.Panics
import AtomicSwap.Protocol.XMRTaker.Theorems.Tracking
import AtomicSwap.Protocol.XMRTaker.Theorems.Refunds
import AtomicSwap.Protocol.XMRTaker.Theorems.Aborts
import AtomicSwap.Protocol.XMRTaker.Theorems.Startup
import AtomicSwap.Protocol.XMRTaker.Theorems.Resumption
import AtomicSwap.Protocol.XMRTaker.Theorems.Notifications
import AtomicSwap.Protocol.XMRMaker.Theorems.Notifications
import AtomicSwap.Protocol.Theorems.Recovery
import AtomicSwap.Protocol.Theorems.Answers
import AtomicSwap.Protocol.Theorems.Sweep
import AtomicSwap.Protocol.Theorems.Restarts
import AtomicSwap.Protocol.Theorems.Notifications
import AtomicSwap.Net.Host
import AtomicSwap.Net.Theorems.Initiate
import AtomicSwap.Protocol.Theorems.Amounts
import AtomicSwap.Protocol.TxSender.Calls
import AtomicSwap.Protocol.TxSender.Signing
import AtomicSwap.Relayer.Validate
import AtomicSwap.Relayer.Theorems.Validated
import AtomicSwap.Relayer.Theorems.Fee
import AtomicSwap.Ethereum.SwapCreator.Theorems.Progress
import AtomicSwap.Ethereum.Theorems.Client
import AtomicSwap.Relayer.Request
import AtomicSwap.Relayer.Theorems.Submission
import AtomicSwap.Relayer.Theorems.Requests
import AtomicSwap.Protocol.XMRMaker.Claim
import AtomicSwap.Protocol.XMRMaker.Theorems.Relaying
import AtomicSwap.Protocol.XMRMaker.Theorems.Disclosure
import AtomicSwap.Protocol.XMRMaker.Theorems.Relayers
import AtomicSwap.Protocol.Backend
import AtomicSwap.Net.Relay
import AtomicSwap.Net.Theorems.Relay
import AtomicSwap.Net.Theorems.RelayRefinement
import AtomicSwap.Net.Message
import AtomicSwap.Net.Theorems.Message
import AtomicSwap.Protocol.Theorems.RelayerHashes
import AtomicSwap.Protocol.Theorems.Bookkeeping
import AtomicSwap.Protocol.Theorems.Atomicity
