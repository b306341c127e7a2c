import TpuTools.Core.LTS
import TpuTools.Core.Interleave
import TpuTools.Core.Ints
import TpuTools.Core.Decimal
import TpuTools.Core.TextFormat
import TpuTools.Core.Floats
import TpuTools.Core.Rounding
import TpuTools.Core.SortByKey
import TpuTools.Core.Chunks
import TpuTools.Core.Cyclic
import TpuTools.Core.Window
import TpuTools.Core.Ranking
import TpuTools.Core.Interval
import TpuTools.Core.RunningMean
import TpuTools.Core.Lru
import TpuTools.Core.KeyedList
import TpuTools.L1Data.CsvRecord
import TpuTools.L1Data.Update
import TpuTools.L2Subscriber.Memo
import TpuTools.L2Subscriber.Classify
import TpuTools.L2Subscriber.Ticks
import TpuTools.L2Subscriber.TicksInPlace
import TpuTools.L2Subscriber.MainLoop
import TpuTools.L2Subscriber.Emission
import TpuTools.L2Sender.BuildTx
import TpuTools.L2Sender.WorkersCache
import TpuTools.L2Sender.BackpressuredBroadcaster
import TpuTools.L2Sender.Scheduler
import TpuTools.L2Sender.Preconnect
import TpuTools.L2Sender.LeaderUpdater
import TpuTools.L2Blockhash.BlockhashUpdater
import TpuTools.L2Blockhash.History
import TpuTools.L2Blockhash.Ending
import TpuTools.L2Leader.SlotEvents
import TpuTools.L2Accounts.ParseBalance
import TpuTools.L2Accounts.BalanceError
import TpuTools.L2Accounts.AccountsFile
import TpuTools.L2Accounts.CreateAccounts
import TpuTools.L2Accounts.AccountsCreator
import TpuTools.L2Accounts.Attempts
import TpuTools.L2Accounts.BatchSize
import TpuTools.L2Accounts.Balances
import TpuTools.L2Generator.TransferBatch
import TpuTools.L2Generator.ReusedBuffers
import TpuTools.L2Generator.TransactionGenerator
import TpuTools.L2Generator.Executable
import TpuTools.L2Generator.Roles
import TpuTools.L2Generator.Delivery
import TpuTools.L2Generator.Pool
import TpuTools.L3Writer.CsvWriter
import TpuTools.L3Writer.Ledger
import TpuTools.L3Writer.Conservation
import TpuTools.L3Writer.Rows
import TpuTools.L3Writer.Shutdown
import TpuTools.L3Writer.BlockRows
import TpuTools.L3Writer.Drain
import TpuTools.L3Writer.CsvText
import TpuTools.L4Client.MemoAgreement
import TpuTools.L4Client.OwnJoin
import TpuTools.L4Client.SlotRows
import TpuTools.L4Client.RunClient
import TpuTools.L4Client.ExpirySweep
import TpuTools.L4Client.SchedulerTicks
import TpuTools.L4Client.Tool
import TpuTools.L4Client.ToolTasks
import TpuTools.L4Client.NumStreams
import TpuTools.L4Client.BenchClient
import TpuTools.L4Client.BenchShutdown
import TpuTools.L4Client.ToolResult
import TpuTools.L4Client.ToolShutdown
import TpuTools.L4Client.Pacing
import TpuTools.L4Client.Commands
import TpuTools.L4Client.FileText
import TpuTools.L4Client.OwnRows
