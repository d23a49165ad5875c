import QuizArena.Lib.KeyedTree
import QuizArena.Config.Value
import QuizArena.Unicode
import QuizArena.Config.Shape
import QuizArena.Config.Section
import QuizArena.Config.Resolve
import QuizArena.Config.Precedence
import QuizArena.Config.Ambiguity
import QuizArena.Config.EnvFile
import QuizArena.Config.Reading
import QuizArena.Config.Required
import QuizArena.Config.Defaults
import QuizArena.Kernel.RepositoryError
import QuizArena.Lib.Prog
import QuizArena.Kernel.UnitOfWork
import QuizArena.Kernel.Atomicity
import QuizArena.Greet.Greeting
import QuizArena.Greet.Repository
import QuizArena.Greet.Usecase
import QuizArena.Kernel.Landing
import QuizArena.Greet.AtMostOnce
import QuizArena.Lib.Store
import QuizArena.Lib.RowLocks
import QuizArena.Lib.Snapshots
import QuizArena.Greet.Control
import QuizArena.Greet.System
import QuizArena.Greet.Progress
import QuizArena.Greet.Landings
import QuizArena.Greet.Linearizable
import QuizArena.Greet.ReadBack
import QuizArena.Lib.Timed
import QuizArena.Server.Serve
import QuizArena.Server.Shutdown
import QuizArena.Lib.Separators
import QuizArena.Server.SignalUrl
import QuizArena.Server.RpcTelemetry
import QuizArena.Server.RpcSpans
import QuizArena.Config.Integers
import QuizArena.Config.Frame
import QuizArena.Config.Load
import QuizArena.Greet.Bounded
import QuizArena.Greet.Cancellation
import QuizArena.Greet.Lifetimes
import QuizArena.Greet.Liveness
import QuizArena.Server.RpcInterleaving
import QuizArena.Server.RpcObserved
import QuizArena.Config.Flat
import QuizArena.Service.Settings
import QuizArena.Lib.Contract
import QuizArena.Service.Lifecycle
import QuizArena.Greet.Account
import QuizArena.Lib.Pipeline
import QuizArena.Proto.Build
import QuizArena.Server.Exported
import QuizArena.Service.Environment
