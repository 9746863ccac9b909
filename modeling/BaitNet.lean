import BaitNet.Data
import BaitNet.Runs
import BaitNet.DataSpec
import BaitNet.Forgery
import BaitNet.Genuine
import BaitNet.Ordered
import BaitNet.Reorder
import BaitNet.Resend
import BaitNet.Ack
import BaitNet.Receive
import BaitNet.Handshake
import BaitNet.Session
import BaitNet.HandshakeSpec
import BaitNet.SessionSpec
import BaitNet.PeerIdentity
import BaitNet.CallSpec
import BaitNet.Admission
import BaitNet.Lossless
import BaitNet.Btls
import BaitNet.BtlsSpec
import BaitNet.BtlsAgreement
import BaitNet.BtlsCalls
import BaitNet.BtlsPinning
import BaitNet.BtlsDelivery
import BaitNet.BtlsNonces
import BaitNet.AntiReplay
import BaitNet.PySession
import BaitNet.Interop
import BaitNet.Exchange
import BaitNet.ExchangeC
import BaitNet.ExchangePy
import BaitNet.Interoperable
import BaitNet.Tables
import BaitNet.Text
import BaitNet.Gateway
import BaitNet.GatewaySpec
import BaitNet.GatewayRuns
import BaitNet.ClassGuard
import BaitNet.Federation
import BaitNet.Askers
import BaitNet.Cryptokey
import BaitNet.Established
import BaitNet.QueryAnswer
import BaitNet.EstablishedC
import BaitNet.EstablishedPy
import BaitNet.StreamReset
import BaitNet.Flood
import BaitNet.Mesh
import BaitNet.InitAtomic
import BaitNet.Routes
import BaitNet.Dhcp
import BaitNet.DhcpLeases
import BaitNet.DhcpGrants
import BaitNet.Tun
import BaitNet.Pppoe
import BaitNet.PppoeTable
import BaitNet.PppoeIsolation
import BaitNet.PppoeAdmission
import BaitNet.PppoeBroadcast
import BaitNet.PppoeDial
import BaitNet.CookieSecret
import BaitNet.InitRoundTrip
import BaitNet.SendAtomic
import BaitNet.ReplayWindows
import BaitNet.Crc
import BaitNet.Checksum
import BaitNet.Bundle
import BaitNet.Bundling
import BaitNet.PyReorder
import BaitNet.PeerTable
import BaitNet.SplitHorizon
import BaitNet.QueryThrottle
import BaitNet.HandshakeNet
import BaitNet.DhcpAlloc
import BaitNet.PppoeWrap
import BaitNet.RateBounds
import BaitNet.TunAcquire
import BaitNet.Keyring
import BaitNet.PyKeyring
import BaitNet.KeyFiles
import BaitNet.PyDhcp
import BaitNet.DhcpWire
import BaitNet.DataNonces
import BaitNet.HexText
import BaitNet.AddrText
import BaitNet.FrameParse
import BaitNet.Regroup
import BaitNet.BaitName
import BaitNet.Dns
import BaitNet.GwResolve
import BaitNet.StdinRelay
import BaitNet.BtlsTalk
import BaitNet.PyBtlsMessages
import BaitNet.BtlsSides
import BaitNet.Paths
import BaitNet.Heads
import BaitNet.BiteServer
import BaitNet.BiteTargets
import BaitNet.AsciiText
import BaitNet.BiteFetch
import BaitNet.BiteServed
import BaitNet.BiteAgree
import BaitNet.BiteDisk
import BaitNet.BiteUrls
import BaitNet.BiteSchedules
import BaitNet.BiteDeadlines
