import StarlingMonkey.WebStreams.Bytes.Conservation
import StarlingMonkey.WebStreams.Readable
import StarlingMonkey.CoreRuntime.System
import StarlingMonkey.CoreRuntime.Agreement
import StarlingMonkey.CoreRuntime.Dispatch
import StarlingMonkey.CoreRuntime.Timers
import StarlingMonkey.CoreRuntime.Driver
import StarlingMonkey.WebFetch.OutgoingBody
import StarlingMonkey.WebFetch.Abort
import StarlingMonkey.Lib.Script
import StarlingMonkey.WebFetch.IncomingBody
import StarlingMonkey.WebStreams.Writable.Controller
import StarlingMonkey.WebStreams.Writable.Discipline
import StarlingMonkey.WebStreams.Writable.Invariant
import StarlingMonkey.WebStreams.Writable.Operations
import StarlingMonkey.WebStreams.Writable.Interface
import StarlingMonkey.WebStreams.Writable.Reactions
import StarlingMonkey.WebStreams.Writable
import StarlingMonkey.Js.Promise
import StarlingMonkey.Js.Futures
import StarlingMonkey.Js.Cancellation
import StarlingMonkey.WebGlobals.Dom
import StarlingMonkey.WebGlobals.Aborting
import StarlingMonkey.WebGlobals.Coherence
import StarlingMonkey.WebGlobals.SignalGraph
import StarlingMonkey.WebGlobals.Dispatching
import StarlingMonkey.WebGlobals.Listeners
import StarlingMonkey.WebGlobals.Turns
import StarlingMonkey.WebGlobals.EventDispatch
import StarlingMonkey.FetchEvents.Accounting
import StarlingMonkey.FetchEvents.EventLifetime
import StarlingMonkey.WebFetch.Headers
import StarlingMonkey.WebFetch.HeaderGuards
import StarlingMonkey.Platform.BodyChannel
import StarlingMonkey.WebFetch.HeaderReads
import StarlingMonkey.WebStreams.Bytes.Width
import StarlingMonkey.Lib.Mpsc
import StarlingMonkey.Serve.RequestBody
import StarlingMonkey.Js.HandlePool
import StarlingMonkey.Js.PoolMemory
import StarlingMonkey.Js.RootScopes
import StarlingMonkey.Serve.Startup
import StarlingMonkey.Serve.Server
import StarlingMonkey.Lib.Interaction
import StarlingMonkey.Serve.Isolation
import StarlingMonkey.Js.Conversion
import StarlingMonkey.Serve.Clock
import StarlingMonkey.WebStreams.Writable.Signals
import StarlingMonkey.CoreRuntime.Modules
import StarlingMonkey.CoreRuntime.Drains
import StarlingMonkey.CoreRuntime.Sends
import StarlingMonkey.Serve.WireResponse
import StarlingMonkey.Js.AsyncFromSync
import StarlingMonkey.WebStreams.From
import StarlingMonkey.Lib.Answering
import StarlingMonkey.Lib.Transducer
import StarlingMonkey.WebGlobals.TextDecoder
import StarlingMonkey.Lib.StableSort
import StarlingMonkey.WebUrl.SortNames
import StarlingMonkey.CoreRuntime.Paths
import StarlingMonkey.CoreRuntime.ByteSize
import StarlingMonkey.WebGlobals.Base64
import StarlingMonkey.Platform.Coalescing
import StarlingMonkey.WebStreams.ReadAllBytes
import StarlingMonkey.WebFetch.BodyProxy
import StarlingMonkey.Lib.PercentEncoding
import StarlingMonkey.WebUrl.QueryObject
import StarlingMonkey.WebGlobals.ConsoleFormat
import StarlingMonkey.WebStreams.AsyncIterator
import StarlingMonkey.WebFetch.Redirects
import StarlingMonkey.WebStreams.Pipe
import StarlingMonkey.WebStreams.Tee
import StarlingMonkey.WebStreams.Transform
import StarlingMonkey.Platform.BodyContent
import StarlingMonkey.Platform.BodyWriter
import StarlingMonkey.Serve.ResponseBody
