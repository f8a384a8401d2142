import Msmuduo.Machine
import Msmuduo.Fairness
import Msmuduo.Window
import Msmuduo.Search
import Msmuduo.OrderedSet
import Msmuduo.CString
import Msmuduo.Numeral
import Msmuduo.BoundedText
import Msmuduo.Pieces
import Msmuduo.Endian
import Msmuduo.Endiantool
import Msmuduo.Buffer
import Msmuduo.BufferDeque
import Msmuduo.BufferInts
import Msmuduo.Channel
import Msmuduo.PollPoller
import Msmuduo.PollPollerIndex
import Msmuduo.PollPollerWatch
import Msmuduo.PollPollerActive
import Msmuduo.PollPollerTable
import Msmuduo.TcpConnection
import Msmuduo.TcpConnectionOutput
import Msmuduo.TcpConnectionLife
import Msmuduo.TcpConnectionShutdown
import Msmuduo.TcpConnectionRace
import Msmuduo.TcpConnectionFlow
import Msmuduo.TcpConnectionFinal
import Msmuduo.TcpConnectionLifetime
import Msmuduo.TcpConnectionDangling
import Msmuduo.TimerQueue
import Msmuduo.TimerQueueInvariant
import Msmuduo.TimerQueueMoves
import Msmuduo.TimerQueueRuns
import Msmuduo.TimerQueueFiring
import Msmuduo.TimerQueueCancel
import Msmuduo.TimerQueueAlarm
import Msmuduo.TimerQueueAdd
import Msmuduo.TimerQueueDelay
import Msmuduo.TimerSequence
import Msmuduo.EventLoop
import Msmuduo.EventLoopFunctors
import Msmuduo.EventLoopWakeup
import Msmuduo.EventLoopThread
import Msmuduo.TcpServerNames
import Msmuduo.TcpServerLoops
import Msmuduo.TcpServerCustody
import Msmuduo.TcpServerHandlers
import Msmuduo.TcpServerRemoval
import Msmuduo.TcpServerFunctors
import Msmuduo.TcpServerAccept
import Msmuduo.TcpServerTeardown
import Msmuduo.TcpServerProgress
import Msmuduo.TcpServerProtocol
import Msmuduo.Connector
import Msmuduo.ConnectorAttempts
import Msmuduo.ConnectorOverlap
import Msmuduo.ConnectorSockets
import Msmuduo.TcpClient
import Msmuduo.HttpServer
import Msmuduo.StringMap
import Msmuduo.HttpParse
import Msmuduo.HttpGrammar
import Msmuduo.HttpDispatch
import Msmuduo.HttpHeaderEnd
import Msmuduo.HttpHeaderMap
import Msmuduo.HttpRejection
import Msmuduo.HttpRequestLine
import Msmuduo.HttpChunks
import Msmuduo.HttpContextHistory
import Msmuduo.HttpResponseDecode
import Msmuduo.HttpSegmentation
import Msmuduo.AsyncLogging
import Msmuduo.AsyncLoggingOrder
import Msmuduo.AsyncLoggingBuffers
import Msmuduo.AsyncLoggingStop
import Msmuduo.LogStream
import Msmuduo.FileUtil
import Msmuduo.FileConfReader
import Msmuduo.FileConfReaderGrammar
import Msmuduo.FileConfReaderReload
import Msmuduo.Logging
import Msmuduo.ConditionVariable
import Msmuduo.ThreadPool
import Msmuduo.ThreadPoolQueue
import Msmuduo.ThreadPoolStop
import Msmuduo.RedBlack
import Msmuduo.Rbtree
import Msmuduo.RbtreeShape
import Msmuduo.RbtreeInsert
import Msmuduo.RbtreeErase
import Msmuduo.RbtreeWalk
import Msmuduo.RbtreeMap
import Msmuduo.Framing
import Msmuduo.Board
import Msmuduo.Hub
import Msmuduo.HubMessages
import Msmuduo.HubClient
import Msmuduo.HubBoard
import Msmuduo.HubServer
import Msmuduo.HubRelay
import Msmuduo.Room
import Msmuduo.Chat
import Msmuduo.ChatMessages
import Msmuduo.ChatBroadcast
import Msmuduo.ChatOrder
import Msmuduo.Heap
import Msmuduo.Segments
import Msmuduo.Yqueue
import Msmuduo.YqueueInvariant
import Msmuduo.YqueueWriter
import Msmuduo.YqueueReader
import Msmuduo.YqueueRuns
import Msmuduo.FastCgi
import Msmuduo.FastCgiParams
import Msmuduo.FastCgiRecords
import Msmuduo.FastCgiRequests
import Msmuduo.FastCgiTransmissions
import Msmuduo.KeyedSet
import Msmuduo.Memcache
