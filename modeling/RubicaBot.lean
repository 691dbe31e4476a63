import RubicaBot.Transition
import RubicaBot.Simulation
import RubicaBot.Recency
import RubicaBot.PyStr
import RubicaBot.PyVal
import RubicaBot.Dedup
import RubicaBot.Queue
import RubicaBot.TwoClass
import RubicaBot.Queue.Reference
import RubicaBot.Queue.Interleaving
import RubicaBot.Queue.Conservation
import RubicaBot.Queue.Size
import RubicaBot.Queue.Admission
import RubicaBot.Queue.Backlog
import RubicaBot.Queue.Placement
import RubicaBot.Queue.Unfinished
import RubicaBot.Queue.Settlement
import RubicaBot.Queue.Order
import RubicaBot.Worker
import RubicaBot.Worker.Shutdown
import RubicaBot.Worker.Join
import RubicaBot.Worker.Accounting
import RubicaBot.Worker.Statistics
import RubicaBot.Worker.Rest
import RubicaBot.Worker.Handlers
import RubicaBot.Window
import RubicaBot.RateLimiter
import RubicaBot.TokenBucket
import RubicaBot.ApiRateLimiter
import RubicaBot.Client
import RubicaBot.Router
import RubicaBot.Router.Service
import RubicaBot.Router.Retry
import RubicaBot.Router.Authenticity
import RubicaBot.Router.Reading
import RubicaBot.Router.Totality
import RubicaBot.Router.Identity
import RubicaBot.Router.Documented
import RubicaBot.Cache
import RubicaBot.Groups
import RubicaBot.Repository
import RubicaBot.Repository.Transparency
import RubicaBot.Effect
import RubicaBot.Regex
import RubicaBot.Link
import RubicaBot.Database
import RubicaBot.Bot
import RubicaBot.Handlers
import RubicaBot.Plugins.Moderation
import RubicaBot.Plugins.Commands
import RubicaBot.Plugins.Panel
import RubicaBot.Plugins.Dispatch
import RubicaBot.Plugins.Privilege
import RubicaBot.Plugins.Flood
import RubicaBot.Plugins.Isolation
import RubicaBot.Plugins.Filters
import RubicaBot.Plugins.Authority
import RubicaBot.Plugins.Deletion
import RubicaBot.Client.Failure
import RubicaBot.Plugins.Precedence
import RubicaBot.Router.Token
import RubicaBot.Router.FastPath
import RubicaBot.Schema
import RubicaBot.Schema.Convergence
import RubicaBot.Regex.Matches
import RubicaBot.Link.Evasion
import RubicaBot.Cache.Eviction
import RubicaBot.Lines
import RubicaBot.EnvFile
import RubicaBot.EnvFile.Configure
import RubicaBot.Newest
import RubicaBot.Database.Retention
import RubicaBot.Deploy
import RubicaBot.Deploy.Rollback
import RubicaBot.Deploy.Paths
import RubicaBot.ArgParse
import RubicaBot.Install
import RubicaBot.SafeMath
import RubicaBot.SafeMath.Semantics
import RubicaBot.SafeMath.Calc
import RubicaBot.Coroutine
import RubicaBot.Coroutine.Threads
import RubicaBot.Coroutine.Allowed
import RubicaBot.Coroutine.Awaits
import RubicaBot.Coroutine.Blind
import RubicaBot.Coroutine.Script
import RubicaBot.Coroutine.Simulation
import RubicaBot.Plugins.Suspending
import RubicaBot.Plugins.Suspending.Performs
import RubicaBot.Plugins.Suspending.Atomicity
import RubicaBot.Plugins.Suspending.Licence
import RubicaBot.Plugins.Suspending.Sentence
import RubicaBot.Plugins.Suspending.Length
import RubicaBot.Plugins.Suspending.Blind
import RubicaBot.Plugins.Suspending.Cached
import RubicaBot.App
import RubicaBot.App.Serial
import RubicaBot.App.Licence
import RubicaBot.App.Health
import RubicaBot.App.Concurrency
import RubicaBot.App.Order
import RubicaBot.App.Rest
import RubicaBot.App.Errors
import RubicaBot.App.Retention
import RubicaBot.App.Cached
import RubicaBot.App.Cached.Runs
