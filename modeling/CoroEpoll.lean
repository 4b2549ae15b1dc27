import CoroEpoll.Library.Transition
import CoroEpoll.EventLoop.Resumption
import CoroEpoll.EventLoop.Partition
import CoroEpoll.EventLoop.Registration
import CoroEpoll.EventLoop.Readiness
import CoroEpoll.EventLoop.Reports
import CoroEpoll.EventLoop.Orphans
import CoroEpoll.Library.Retry
import CoroEpoll.Udp.Receive
import CoroEpoll.EventLoop.Run
import CoroEpoll.EventLoop.Callbacks
import CoroEpoll.EventLoop.Wakeup
import CoroEpoll.EventLoop.Failures
import CoroEpoll.EventLoop.Delivery
import CoroEpoll.Library.CallStack
import CoroEpoll.Task.Promise
import CoroEpoll.Task.Chain
import CoroEpoll.Task.Ticks
import CoroEpoll.Task.Refinement
import CoroEpoll.Task.Resumption
import CoroEpoll.Task.Direct
import CoroEpoll.EventLoop.KernelErrors
import CoroEpoll.Library.Calls
import CoroEpoll.Tcp.Socket
import CoroEpoll.Tcp.Write
import CoroEpoll.Tcp.Read
import CoroEpoll.Tcp.Accept
import CoroEpoll.Task.Nesting
import CoroEpoll.Task.Depth
import CoroEpoll.EventLoop.Spinning
import CoroEpoll.EventLoop.Compaction
import CoroEpoll.Library.Monitor
import CoroEpoll.ThreadPool.Pool
import CoroEpoll.ThreadPool.Execution
import CoroEpoll.ThreadPool.Callers
import CoroEpoll.ThreadPool.HandBack
import CoroEpoll.Library.Rank
import CoroEpoll.ThreadPool.Progress
import CoroEpoll.Sockets.Usability
import CoroEpoll.Sockets.Ownership
import CoroEpoll.Sockets.Destruction
import CoroEpoll.ThreadPool.Startup
import CoroEpoll.Task.Joining
import CoroEpoll.Library.Dialogue
import CoroEpoll.Library.Contracts
import CoroEpoll.Library.Text
import CoroEpoll.Task.Dialogues
import CoroEpoll.Servers.Language
import CoroEpoll.Servers.Sockets
import CoroEpoll.Servers.Echo
import CoroEpoll.Servers.HttpMessages
import CoroEpoll.Servers.HttpServer
import CoroEpoll.Servers.HttpSession
import CoroEpoll.Servers.Accepting
import CoroEpoll.Servers.HttpRuns
import CoroEpoll.Servers.HttpEncoding
import CoroEpoll.Servers.HttpDecoding
import CoroEpoll.Servers.EchoSession
import CoroEpoll.Servers.Proxy
import CoroEpoll.Servers.ProxySession
import CoroEpoll.Servers.UdpEcho
import CoroEpoll.Servers.UdpEchoSession
import CoroEpoll.Library.Holdings
import CoroEpoll.Library.RoundRobin
import CoroEpoll.EventLoop.Construction
import CoroEpoll.EventLoop.Descriptors
import CoroEpoll.ThreadPool.Turns
import CoroEpoll.Servers.EntryPoint
import CoroEpoll.Servers.Arguments
import CoroEpoll.Library.Enactment
import CoroEpoll.Servers.Operations
import CoroEpoll.EventLoop.Tasks
import CoroEpoll.EventLoop.TaskRuns
