import SolanaSample.Library.Run
import SolanaSample.Library.Log
import SolanaSample.Library.Rejection
import SolanaSample.Library.Bookkeeping
import SolanaSample.Library.PrefixCodec
import SolanaSample.Library.Splice
import SolanaSample.Library.Stream
import SolanaSample.Library.Slots
import SolanaSample.Library.LastWrite
import SolanaSample.Library.Holdings
import SolanaSample.Library.Registry
import SolanaSample.Library.Reach
import SolanaSample.Chain.Pubkey
import SolanaSample.Chain.Runtime
import SolanaSample.Chain.TestValidator
import SolanaSample.Chain.BpfRuntime
import SolanaSample.Chain.TestCluster
import SolanaSample.Token.Program
import SolanaSample.Token.Ledger
import SolanaSample.Token.Conservation
import SolanaSample.Token.Authority
import SolanaSample.Token.Outcome
import SolanaSample.Token.Reordering
import SolanaSample.Token.Reach
import SolanaSample.Loader.Instruction
import SolanaSample.Loader.State
import SolanaSample.Loader.Process
import SolanaSample.Loader.Effects
import SolanaSample.Loader.Change
import SolanaSample.Loader.Dispatch
import SolanaSample.Loader.Cluster
import SolanaSample.Loader.Lamports
import SolanaSample.Loader.Lifecycle
import SolanaSample.Loader.Registered
import SolanaSample.Loader.Executors
import SolanaSample.Loader.Kept
import SolanaSample.Chain.Transaction
import SolanaSample.Chain.Service
import SolanaSample.Loader.Builders
import SolanaSample.Deploy.Encode
import SolanaSample.Deploy.Chunks
import SolanaSample.Deploy.Sizes
import SolanaSample.Deploy.Writes
import SolanaSample.Deploy.Script
import SolanaSample.Deploy.ChunkLoop
import SolanaSample.Deploy.Sends
import SolanaSample.Deploy.World
import SolanaSample.Deploy.Outsiders
import SolanaSample.Deploy.Takeover
import SolanaSample.Deploy.Delivery
import SolanaSample.Deploy.Reference
import SolanaSample.Deploy.Calls
import SolanaSample.Deploy.Served
import SolanaSample.Deploy.Completion
import SolanaSample.Fireblocks.WaitForSignature
import SolanaSample.Fireblocks.Polling
import SolanaSample.Fireblocks.Termination
import SolanaSample.Fireblocks.Confirmation
import SolanaSample.Fireblocks.Message
import SolanaSample.Fireblocks.Signers
import SolanaSample.Fireblocks.Settings
import SolanaSample.Fireblocks.Create
import SolanaSample.Fireblocks.Session
import SolanaSample.Fireblocks.SoloHost
import SolanaSample.Fireblocks.Handover
import SolanaSample.Fireblocks.Resubmission
import SolanaSample.Fireblocks.Settling
import SolanaSample.Stake.ParseFloat
import SolanaSample.Stake.Commands
import SolanaSample.Utils.EstimateGas
