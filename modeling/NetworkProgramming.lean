import NetworkProgramming.Machine
import NetworkProgramming.Threads
import NetworkProgramming.Monitor
import NetworkProgramming.Posix
import NetworkProgramming.Mysem
import NetworkProgramming.MysemWakeups
import NetworkProgramming.RwLock
import NetworkProgramming.RwLockExclusion
import NetworkProgramming.RwLockWakeups
import NetworkProgramming.Prodcons4
import NetworkProgramming.Prodcons4Invariant
import NetworkProgramming.Chain
import NetworkProgramming.Mymq
import NetworkProgramming.StablePriority
import NetworkProgramming.MymqLayout
import NetworkProgramming.MymqSplice
import NetworkProgramming.MymqRuns
import NetworkProgramming.MymqWakeups
import NetworkProgramming.MymqNotify
import NetworkProgramming.OpenHandshake
import NetworkProgramming.OpenHandshakeRuns
import NetworkProgramming.Pxshm
import NetworkProgramming.PxshmMessages
import NetworkProgramming.Mycat2
import NetworkProgramming.Mycat2Copies
import NetworkProgramming.Datagrams
import NetworkProgramming.DgSendRecv
import NetworkProgramming.DgSendRecvMatching
import NetworkProgramming.LinearBuffer
import NetworkProgramming.StrCli
import NetworkProgramming.StrCliRuns
import NetworkProgramming.Web
import NetworkProgramming.WebAccounts
import NetworkProgramming.Web03
import NetworkProgramming.Web03Accounts
import NetworkProgramming.Web03Progress
import NetworkProgramming.Prodcons6
import NetworkProgramming.Prodcons6Accounts
import NetworkProgramming.SemSets
import NetworkProgramming.SvsemOpen
import NetworkProgramming.SvsemOpenOwners
import NetworkProgramming.Icmpd
import NetworkProgramming.IcmpdIsolation
import NetworkProgramming.CText
import NetworkProgramming.MessageQueue
import NetworkProgramming.SvmsgMpx1q
import NetworkProgramming.SvmsgMpx1qReplies
import NetworkProgramming.SvmsgMpx1qProgress
import NetworkProgramming.Serv05
import NetworkProgramming.Serv05Accounts
import NetworkProgramming.Serv08
import NetworkProgramming.Serv08Accounts
import NetworkProgramming.SlotTable
import NetworkProgramming.TcpServSelect01
import NetworkProgramming.TcpServSelect01Rounds
import NetworkProgramming.TcpServPoll01
import NetworkProgramming.TcpServPoll01Reads
import NetworkProgramming.Framing
import NetworkProgramming.Framer
import NetworkProgramming.DelimFramer
import NetworkProgramming.NetworkOrder
import NetworkProgramming.LengthFramer
import NetworkProgramming.Strtok
import NetworkProgramming.VoteProtocol
import NetworkProgramming.VoteEncodingText
import NetworkProgramming.VoteEncodingBin
import NetworkProgramming.VoteFraming
import NetworkProgramming.VoteServerTCP
import NetworkProgramming.VoteEncodings
import NetworkProgramming.SurveyCommon
import NetworkProgramming.SurveyServer2
import NetworkProgramming.DoublyLinked
import NetworkProgramming.RtpQueue
import NetworkProgramming.RtpSeq
import NetworkProgramming.PlayAudio
import NetworkProgramming.RtpWakeups
import NetworkProgramming.TelnetFsm
import NetworkProgramming.Telnet
import NetworkProgramming.TelnetBinary
import NetworkProgramming.TelnetSubneg
import NetworkProgramming.EchoedBit
import NetworkProgramming.TelnetOptions
import NetworkProgramming.TelnetNegotiation
import NetworkProgramming.TelnetEnding
import NetworkProgramming.Readline
import NetworkProgramming.ReadlineShared
import NetworkProgramming.StrCliEpoll06
import NetworkProgramming.StrCliEpoll06Runs
import NetworkProgramming.Tselect
import NetworkProgramming.TselectTimers
import NetworkProgramming.TselectDeadlines
import NetworkProgramming.Xout3
import NetworkProgramming.Xout3Messages
import NetworkProgramming.Custody
import NetworkProgramming.Smb
import NetworkProgramming.ChatServ
import NetworkProgramming.SyncServer
import NetworkProgramming.SyncServerFraming
import NetworkProgramming.ChangeNotice
import NetworkProgramming.AsyncServer
import NetworkProgramming.AsyncServerClients
import NetworkProgramming.MembershipReplies
import NetworkProgramming.Proxy
import NetworkProgramming.TextStream
import NetworkProgramming.HttpClient
import NetworkProgramming.HttpClientCallbacks
import NetworkProgramming.ReadUntil
import NetworkProgramming.HeaderFields
import NetworkProgramming.HttpClientResponses
import NetworkProgramming.HttpServer
import NetworkProgramming.HttpServerHeaders
import NetworkProgramming.HttpServerServices
import NetworkProgramming.ThreadPool
import NetworkProgramming.ThreadPoolQueue
import NetworkProgramming.ThreadPoolDestroy
import NetworkProgramming.Reactor
import NetworkProgramming.ReactorReplies
import NetworkProgramming.Blocks
import NetworkProgramming.Zen
import NetworkProgramming.SrvAsync
import NetworkProgramming.SrvAsyncConsistent
import NetworkProgramming.SrvAsyncTables
import NetworkProgramming.SrvAsyncAnswers
import NetworkProgramming.ZenChunks
import NetworkProgramming.BinaryText
import NetworkProgramming.Queuepi
import NetworkProgramming.OnesComplement
import NetworkProgramming.RawPackets
import NetworkProgramming.GreatestMember
import NetworkProgramming.TcpSelect
import NetworkProgramming.TcpPoll
import NetworkProgramming.TcpEpoll
import NetworkProgramming.DgEcho01
import NetworkProgramming.DgEcho01Queue
import NetworkProgramming.Lockmain
import NetworkProgramming.LockmainCounts
import NetworkProgramming.MutexWaits
import NetworkProgramming.AsyncTcpClient
import NetworkProgramming.AsyncTcpClientGuards
import NetworkProgramming.AsyncTcpClientDeadlock
import NetworkProgramming.EventLoop
import NetworkProgramming.EventLoopMoves
import NetworkProgramming.EventLoopResumes
import NetworkProgramming.Broker
import NetworkProgramming.RpcMqtt
import NetworkProgramming.RpcMqttRequests
import NetworkProgramming.RpcMqttAnswers
import NetworkProgramming.Rtt
import NetworkProgramming.GetIfiInfo
import NetworkProgramming.MymqSizes
import NetworkProgramming.IcmpdReceived
import NetworkProgramming.ReadlineVariants
import NetworkProgramming.RwLockReturns
import NetworkProgramming.MymqOpenErrors
import NetworkProgramming.ChatSelect
import NetworkProgramming.ChatSelectServer
import NetworkProgramming.ChatRegistry
import NetworkProgramming.BruteForceCoding
import NetworkProgramming.RtpProbation
import NetworkProgramming.RtpReceived
import NetworkProgramming.PlayShift
import NetworkProgramming.SurveyFile
import NetworkProgramming.TelnetScript
import NetworkProgramming.RtcpCycle
import NetworkProgramming.RecvCalls
import NetworkProgramming.Readvrec
import NetworkProgramming.EtcpReadline
import NetworkProgramming.Delimited
import NetworkProgramming.Tcpmux
import NetworkProgramming.OpServer
import NetworkProgramming.WebservLinux
import NetworkProgramming.TcpEpollBuffer
import NetworkProgramming.AsyncServerReplies
import NetworkProgramming.RawReceived
import NetworkProgramming.CountedArray
import NetworkProgramming.Rdict
