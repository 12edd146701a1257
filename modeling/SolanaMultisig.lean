import SolanaMultisig.Lib.Bytes
import SolanaMultisig.Lib.Codec
import SolanaMultisig.Lib.Scan
import SolanaMultisig.Lib.Base58
import SolanaMultisig.Lib.EventLog
import SolanaMultisig.Lib.Rollback
import SolanaMultisig.Lib.Interleaving
import SolanaMultisig.Lib.Guard
import SolanaMultisig.Error
import SolanaMultisig.Runtime
import SolanaMultisig.Anchor
import SolanaMultisig.State
import SolanaMultisig.Space
import SolanaMultisig.Address
import SolanaMultisig.Message
import SolanaMultisig.Program
import SolanaMultisig.Effects
import SolanaMultisig.Machine
import SolanaMultisig.Log
import SolanaMultisig.Refinement
import SolanaMultisig.Simulation
import SolanaMultisig.Authorization
import SolanaMultisig.Interpreter
import SolanaMultisig.Allocation
import SolanaMultisig.Lifecycle
import SolanaMultisig.Reentry
import SolanaMultisig.Locality
import SolanaMultisig.Interleaving
import SolanaMultisig.Registration
import SolanaMultisig.Duplicates
import SolanaMultisig.SignerSeeds
import SolanaMultisig.Privileges
import SolanaMultisig.Lib.Conservation
import SolanaMultisig.Balances
import SolanaMultisig.Rent
import SolanaMultisig.Lib.Blame
import SolanaMultisig.Provenance
import SolanaMultisig.Custody
import SolanaMultisig.Completion
import SolanaMultisig.Lib.Report
import SolanaMultisig.Lib.Matching
import SolanaMultisig.Sdk.Web3
import SolanaMultisig.Lib.Cursor
import SolanaMultisig.Flows
import SolanaMultisig.Sdk.Reader
import SolanaMultisig.Lib.Script
import SolanaMultisig.Sdk.Parsing
import SolanaMultisig.Sdk.Classify
import SolanaMultisig.Sdk.FundFlows
import SolanaMultisig.Sdk.RecipientMatch
import SolanaMultisig.Sdk.Bundle
import SolanaMultisig.Sdk.Decode
import SolanaMultisig.Landing
import SolanaMultisig.Sdk.Legacy
import SolanaMultisig.CreatePath
import SolanaMultisig.Sdk.Proposal
import SolanaMultisig.ReadBack
import SolanaMultisig.Sdk.Consumer
import SolanaMultisig.BundleRun
import SolanaMultisig.ConsumerPath
import SolanaMultisig.Sdk.HonestBundle
import SolanaMultisig.ApprovePath
import SolanaMultisig.OuterInstructions
import SolanaMultisig.Lib.OrderedMap
import SolanaMultisig.Sdk.Build
import SolanaMultisig.Sdk.Completeness
import SolanaMultisig.Sdk.HonestSend
import SolanaMultisig.BuildPath
import SolanaMultisig.Sdk.Client
import SolanaMultisig.ClientAddresses
import SolanaMultisig.NonceRace
import SolanaMultisig.Sdk.Instructions
import SolanaMultisig.Availability
import SolanaMultisig.Delivery
import SolanaMultisig.Lib.Framed
import SolanaMultisig.Schedule
import SolanaMultisig.Sdk.Payout
import SolanaMultisig.Sdk.HonestPayout
import SolanaMultisig.PayoutPath
import SolanaMultisig.Setup
import SolanaMultisig.Quorum
import SolanaMultisig.Slot
import SolanaMultisig.Lib.Signing
import SolanaMultisig.KeyApprovals
import SolanaMultisig.Devices
import SolanaMultisig.Spending
import SolanaMultisig.Network
