import IPShadowT.Bytes
import IPShadowT.Runs
import IPShadowT.KeepBest
import IPShadowT.Stream
import IPShadowT.ChunkedWrite
import IPShadowT.HostPort
import IPShadowT.IPAddr
import IPShadowT.LexicalPath
import IPShadowT.Utf8
import IPShadowT.DnsName
import IPShadowT.Base32
import IPShadowT.LengthFraming
import IPShadowT.WeightedTurns
import IPShadowT.Sscanf
import IPShadowT.AckCounters
import IPShadowT.Aead
import IPShadowT.SealTrace
import IPShadowT.FrameStream
import IPShadowT.Handshake
import IPShadowT.Config
import IPShadowT.ConfigDefaults
import IPShadowT.Validate
import IPShadowT.Security
import IPShadowT.Users
import IPShadowT.Lockout
import IPShadowT.Server
import IPShadowT.RateLimit
import IPShadowT.TokenBucket
import IPShadowT.TunnelHeader
import IPShadowT.Socks5
import IPShadowT.Socks5Addr
import IPShadowT.UdpForward
import IPShadowT.WireGuardRelay
import IPShadowT.SplitTunnel
import IPShadowT.Failover
import IPShadowT.FailoverRuns
import IPShadowT.FailoverSwitch
import IPShadowT.FailoverOrder
import IPShadowT.FailoverRecovery
import IPShadowT.Engine
import IPShadowT.EngineRuns
import IPShadowT.Multipath
import IPShadowT.RoundRobin
import IPShadowT.Aggregator
import IPShadowT.LoadBalancer
import IPShadowT.LoadBalancerFairness
import IPShadowT.LoadBalancerHash
import IPShadowT.Cluster
import IPShadowT.DirectPool
import IPShadowT.DirectPoolRuns
import IPShadowT.AdaptivePool
import IPShadowT.AdaptivePoolRuns
import IPShadowT.AdaptivePoolClose
import IPShadowT.Warmup
import IPShadowT.Heartbeat
import IPShadowT.QualityMonitor
import IPShadowT.Sessions
import IPShadowT.SessionPool
import IPShadowT.Reconnector
import IPShadowT.RealityHello
import IPShadowT.ClientHello
import IPShadowT.RealityAuth
import IPShadowT.RealityServer
import IPShadowT.RealityIdentity
import IPShadowT.ReplayRetention
import IPShadowT.ReplayTrace
import IPShadowT.RealityProxy
import IPShadowT.RealityConnect
import IPShadowT.ShadowTLS
import IPShadowT.ShadowTLSRelay
import IPShadowT.HalfDuplex
import IPShadowT.ProbeResist
import IPShadowT.Shaper
import IPShadowT.Obfuscation
import IPShadowT.ProtocolMorph
import IPShadowT.Fragment
import IPShadowT.Padding
import IPShadowT.SniSpoof
import IPShadowT.SniHello
import IPShadowT.Transports
import IPShadowT.TransportSwitch
import IPShadowT.AutoSelect
import IPShadowT.ClientStart
import IPShadowT.FakeTCP
import IPShadowT.SmuxFrames
import IPShadowT.GrpcFrame
import IPShadowT.WsConn
import IPShadowT.Kcp
import IPShadowT.KcpStream
import IPShadowT.KcpListener
import IPShadowT.KcpNonce
import IPShadowT.KcpMtu
import IPShadowT.KcpAcks
import IPShadowT.Plugins
import IPShadowT.ConfigSync
import IPShadowT.Backup
import IPShadowT.BackupWalk
import IPShadowT.BackupRoundTrip
import IPShadowT.DnsQuery
import IPShadowT.DnsResponse
import IPShadowT.DnsTunnel
import IPShadowT.Listener
import IPShadowT.Lines
import IPShadowT.Tunnel
