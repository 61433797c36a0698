import Flodex.Foundations.Run
import Flodex.Foundations.Coupled
import Flodex.Foundations.Escrow
import Flodex.Foundations.Ledger
import Flodex.Foundations.Checked
import Flodex.Contracts.Supersession
import Flodex.Contracts.Lifecycle
import Flodex.Contracts.Race
import Flodex.Contracts.Exit
import Flodex.Contracts.Staking
import Flodex.Dashboard.Eth
import Flodex.Agent.History
import Flodex.Node.Collectible
import Flodex.Node.Exposure
import Flodex.Node.DepositCap
import Flodex.Node.Admission
import Flodex.Node.Refusal
import Flodex.Node.Receipts
import Flodex.Node.Settled
import Flodex.Node.Signers
import Flodex.Node.Billing
import Flodex.Node.Purge
import Flodex.Node.Sealed
import Flodex.Node.Transaction
import Flodex.Protocol.Unambiguous
import Flodex.Coordinator.Bids
import Flodex.Coordinator.Replay
import Flodex.Coordinator.Spelling
import Flodex.LocalLlm.Conversations
import Flodex.LocalLlm.Texts
import Flodex.LocalLlm.RoundTrip
import Flodex.Node.Registration
import Flodex.Node.Decodable
import Flodex.Node.Activity
import Flodex.Client.Delivery
import Flodex.Dashboard.Wallet
import Flodex.Node.Cost
import Flodex.Node.Filing
import Flodex.Node.Restarts
import Flodex.Agent.WebFetch
import Flodex.Node.Watchful
import Flodex.Node.Enrolled
import Flodex.Contracts.Suite
import Flodex.Node.Offers
import Flodex.Proxy.Answered
import Flodex.Proxy.Placement
