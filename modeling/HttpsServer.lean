import HttpsServer.Data.Run
import HttpsServer.Data.InputStream
import HttpsServer.Config.Parse
import HttpsServer.Config.Correctness
import HttpsServer.Config.RoundTrip
import HttpsServer.Config.Layout
import HttpsServer.Config.Quoting
import HttpsServer.Config.EndOfFile
import HttpsServer.Config.Port
import HttpsServer.Config.Invariant
import HttpsServer.Config.KeyPath
import HttpsServer.Config.Termination
import HttpsServer.Dispatch.QuotedPath
import HttpsServer.Dispatch.Routing
import HttpsServer.Dispatch.Consistency
import HttpsServer.Dispatch.Construction
import HttpsServer.Handlers.FileHandler
import HttpsServer.Handlers.ProxyHandler
import HttpsServer.Handlers.ProxyRequest
import HttpsServer.Handlers.Exchanges
import HttpsServer.Handlers.StatusHandler
import HttpsServer.Handlers.StatusMarkup
import HttpsServer.Handlers.EchoHandler
import HttpsServer.Serve.HandlerName
import HttpsServer.Serve.Bounds
import HttpsServer.Serve.Release
import HttpsServer.Data.RequestHead
import HttpsServer.Data.Interleave
import HttpsServer.Serve.Process
import HttpsServer.Serve.Census
import HttpsServer.Serve.Isolation
import HttpsServer.Serve.History
import HttpsServer.Serve.Delivery
import HttpsServer.Handlers.StatusProcess
import HttpsServer.Serve.Survival
import HttpsServer.Handlers.Responses
import HttpsServer.Dispatch.Settings
import HttpsServer.Config.OutParameter
import HttpsServer.Handlers.Service
import HttpsServer.Config.Printable
import HttpsServer.Serve.Startup
