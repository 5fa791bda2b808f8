import RustNet.Foundations.Run
import RustNet.Foundations.Table
import RustNet.Foundations.Threads
import RustNet.Foundations.CheckThenAct
import RustNet.Network.Types.Connection
import RustNet.Network.Parser.Transport
import RustNet.Network.Merge.Tcp
import RustNet.Network.Merge.Dpi
import RustNet.Network.Merge.Packet
import RustNet.Network.Tcp.Segments
import RustNet.Network.Tcp.Lifecycle
import RustNet.Network.Tcp.StateOrder
import RustNet.Network.Tracker.Basic
import RustNet.Network.Tracker.Capacity
import RustNet.Network.Tracker.KeyConsistency
import RustNet.Network.Tracker.PortReuse
import RustNet.Network.Tracker.Replay
import RustNet.Network.Tracker.Threads
import RustNet.Network.Tracker.Conservation
import RustNet.Network.Tracker.Overshoot
import RustNet.Network.Parser.ExtensionHeaders
import RustNet.Network.Parser.FlowSymmetry
import RustNet.Network.Parser.Fragments
import RustNet.Network.Parser.Padding
import RustNet.Network.Tcp.Analytics
import RustNet.Network.Tcp.Retransmission
import RustNet.Network.Tcp.SequenceWrap
import RustNet.Network.Tracker.Analytics
import RustNet.Network.Tracker.FirstPacket
import RustNet.Foundations.Retention
import RustNet.Network.Tracker.Archive
import RustNet.Foundations.Checked
import RustNet.Network.Parser.Encapsulation
import RustNet.Network.Parser.Indexed.Internet
import RustNet.Network.Parser.Indexed.LinkLayer
import RustNet.Foundations.Fragments
import RustNet.Network.Quic.Reassembly
import RustNet.Foundations.BigEndian
import RustNet.Network.Quic.Varint
import RustNet.Network.Quic.Frames
import RustNet.Network.Quic.FrameSequence
import RustNet.Network.Quic.Datagram
import RustNet.Network.Merge.QuicState
import RustNet.Network.Quic.LongHeader
import RustNet.Network.Quic.ShortHeader
import RustNet.Network.Quic.Coalescing
import RustNet.Network.Tracker.Attribution
import RustNet.Network.Tracker.Activity
import RustNet.App.CaptureLoop
import RustNet.Network.Tracker.RoundTrip
import RustNet.Network.Tracker.RoundTripAverage
import RustNet.Network.Tls.HostName
import RustNet.Network.Tls.Handshake
import RustNet.Network.Tls.Scan
import RustNet.Network.Tls.Extraction
import RustNet.Network.Tls.Inspection
import RustNet.Network.Merge.ServerName
import RustNet.Network.Tls.ClientHello
import RustNet.Network.Tls.Soundness
import RustNet.Foundations.Text
import RustNet.Foundations.Blocks
import RustNet.Foundations.LittleEndian
import RustNet.Network.Types.Octets
import RustNet.Network.Types.Display
import RustNet.Network.Types.TrafficHistory
import RustNet.Network.Tracker.Inspection
import RustNet.Network.DnsResolver
import RustNet.Host.Lookup
import RustNet.Host.Procfs.Basic
import RustNet.Host.Procfs.Tables
import RustNet.Host.Procfs.Attribution
import RustNet.Host.Ebpf.Maps
import RustNet.Host.Ebpf.Programs
import RustNet.Host.Ebpf.Tracker
import RustNet.Host.Ebpf.Cleanup
import RustNet.App.Snapshot
import RustNet.App.Sidecar
import RustNet.App.PacketLoss
import RustNet.Scripts.PcapEnrich
import RustNet.Network.Dns.Names
import RustNet.Network.Dns.Records
import RustNet.Network.Dns.Offsets
import RustNet.Network.Dns.Encoding
import RustNet.Network.Tcp.DuplicateAcks
import RustNet.Network.Merge.Results
import RustNet.Network.Merge.Https
import RustNet.Network.Merge.ResponseIps
import RustNet.Network.Merge.NameServices
import RustNet.Network.Ftp.Analysis
import RustNet.Network.Merge.Ftp
import RustNet.Network.Types.Texts
import RustNet.App.Filter
import RustNet.Network.Ssh.Analysis
import RustNet.Network.Ssh.Roles
import RustNet.Network.Https.Analysis
import RustNet.Network.Https.Truncation
import RustNet.Network.Https.Offer
import RustNet.Foundations.SlidingWindow
import RustNet.Network.Rate.Window
import RustNet.Network.Rate.Steady
import RustNet.Network.Rate.HighRate
import RustNet.App.FilterFields
import RustNet.App.FilterRegex
import RustNet.App.FilterSearch
import RustNet.Foundations.Offsets
import RustNet.App.FilterInput
import RustNet.Foundations.SortedIteration
import RustNet.App.Grouping
import RustNet.Foundations.Cursor
import RustNet.App.Screen
import RustNet.App.Selection
import RustNet.App.GroupedKeys
import RustNet.Host.Lsof
import RustNet.Host.Ebpf.Accept
import RustNet.App.Sorting
import RustNet.Host.Sockstat.Basic
import RustNet.Host.Sockstat.Attribution
import RustNet.App.Truncation
import RustNet.App.DetailFields
import RustNet.App.ClickRegions
import RustNet.App.DetailText
import RustNet.App.Details
import RustNet.App.EventLoop
import RustNet.App.Confirmations
import RustNet.App.Clicks
import RustNet.Network.Parser.Loopback
import RustNet.Network.Ssh.StateScan
import RustNet.Network.NetBios.Names
import RustNet.Foundations.Access
import RustNet.Foundations.Binary64
import RustNet.Foundations.Search
import RustNet.Network.Dhcp.Options
import RustNet.Foundations.Septets
import RustNet.Network.Mqtt.Analysis
import RustNet.Network.Stun.Analysis
import RustNet.Foundations.Ber
import RustNet.Network.Snmp.Analysis
import RustNet.Foundations.Bencode
import RustNet.Network.BitTorrent.Dht
import RustNet.Network.LossyText
import RustNet.Network.Http.Analysis
import RustNet.Network.Http.Heads
import RustNet.Network.Rate.Smoothing
import RustNet.App.RateRefresh
import RustNet.Foundations.Eviction
import RustNet.Network.GeoIp
import RustNet.Network.DnsExpiry
import RustNet.Network.Ssdp.Analysis
import RustNet.Network.Dispatch.Services
import RustNet.Network.Dispatch.Safety
import RustNet.Network.Dispatch.Analysis
import RustNet.Network.Dispatch.Messages
import RustNet.Foundations.Onset
import RustNet.Host.Enhanced.Lookup
import RustNet.Host.Enhanced.Provenance
import RustNet.Host.Enhanced.Monitor
