import Timechain.Arith
import Timechain.Storage
import Timechain.Run
import Timechain.Transducer
import Timechain.Codec
import Timechain.Primitives
import Timechain.Cctp
import Timechain.GmpBatch
import Timechain.GmpHash
import Timechain.GmpEvm
import Timechain.TasksQueue
import Timechain.TasksFifo
import Timechain.TasksState
import Timechain.TasksPallet
import Timechain.TasksBoard
import Timechain.TasksSteps
import Timechain.TasksCalls
import Timechain.TasksRefine
import Timechain.TasksPlacement
import Timechain.TasksCount
import Timechain.TasksBatching
import Timechain.TasksReading
import Timechain.TasksReadAll
import Timechain.TasksReadOnce
import Timechain.TasksDocket
import Timechain.TasksBatches
import Timechain.TasksLinks
import Timechain.TasksReplay
import Timechain.ChronicleTasks
import Timechain.ChronicleExecutor
import Timechain.ChainState
import Timechain.ChainPallets
import Timechain.ChainRoster
import Timechain.ChainRefine
import Timechain.ChainPresence
import Timechain.ChainElection
import Timechain.ChainCalls
import Timechain.ChainMembership
import Timechain.Ledger
import Timechain.TasksLoad
import Timechain.ChainTasks
import Timechain.ChainActs
import Timechain.ChainLife
import Timechain.ChainTimers
import Timechain.ChainRounds
import Timechain.ChainAvailability
import Timechain.ChainRegistration
import Timechain.ChainNotices
import Timechain.NetworksPallet
import Timechain.RuntimeHeights
import Timechain.RuntimeSafety
import Timechain.RuntimeFirstRead
import Timechain.TssRoast
import Timechain.TssNonces
import Timechain.TssCoordinator
import Timechain.TssState
import Timechain.TssSigner
import Timechain.TssNetwork
import Timechain.TssLink
import Timechain.TssTable
import Timechain.TssHonest
import Timechain.Sharing
import Timechain.TssDkg
import Timechain.TssKeygen
import Timechain.SubxtWorker
import Timechain.SubxtRetry
import Timechain.Currency
import Timechain.TimegraphPallet
import Timechain.AirdropPallet
import Timechain.LaunchPallet
import Timechain.LaunchIssuance
import Timechain.LaunchLedger
import Timechain.LaunchPanics
import Timechain.ChainCommit
import Timechain.ChainScheduling
import Timechain.Multimap
import Timechain.GmpRust
import Timechain.GmpRustLog
import Timechain.BridgeReading
import Timechain.Outcome
import Timechain.Buckets
import Timechain.ChronicleTss
import Timechain.ChronicleWorker
import Timechain.ChronicleFinality
import Timechain.ChronicleQueues
import Timechain.ChronicleRecovery
