import Poolifier.Lib.Eff
import Poolifier.Lib.Runs
import Poolifier.Events
import Poolifier.Conservation
import Poolifier.QueueRuns
import Poolifier.Counters
import Poolifier.Quota
import Poolifier.Fifo
import Poolifier.PromiseKeys
import Poolifier.Redistribute
import Poolifier.Effects
import Poolifier.Leaving
import Poolifier.SoftKill
import Poolifier.Lib.Cursor
import Poolifier.Strategies
import Poolifier.Cursors
import Poolifier.Eligibility
import Poolifier.Outline
import Poolifier.PoolSize
import Poolifier.ActiveWorkers
import Poolifier.QueueSetup
import Poolifier.SuppliedOptions
import Poolifier.Lib.OrderedMap
import Poolifier.TaskFunctions
import Poolifier.Operations
import Poolifier.Answers
import Poolifier.Agreement
import Poolifier.Settling
import Poolifier.TaskReplies
import Poolifier.Context
import Poolifier.Interleaved
import Poolifier.Schedules
import Poolifier.FairShareRuns
import Poolifier.SendErrors
import Poolifier.TaskIds
import Poolifier.Guards
import Poolifier.Nesting
import Poolifier.BackPressure
import Poolifier.EmptyQueue
import Poolifier.Direct
import Poolifier.Lib.Shares
import Poolifier.Balance
import Poolifier.StrategyContext
import Poolifier.Refusals
import Poolifier.StrategyChanges
import Poolifier.QueueOptions
import Poolifier.RaisedConcurrency
import Poolifier.Lib.Tally
import Poolifier.FunctionUsage
import Poolifier.ReplyFields
import Poolifier.OperationMessages
import Poolifier.Lib.Chain
import Poolifier.Deque
import Poolifier.Lib.JsArrays
import Poolifier.Lib.Numbers
import Poolifier.CircularArrays
import Poolifier.Measurements
import Poolifier.DefaultWeight
import Poolifier.PollingDelay
import Poolifier.TaskFunctionNames
import Poolifier.Notifications
import Poolifier.OneShotListeners
import Poolifier.KillMessages
import Poolifier.Destroyed
import Poolifier.ChoosingTasks
import Poolifier.PoolInfo
