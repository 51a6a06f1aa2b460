import Inet.Foundations.Fallible
import Inet.Foundations.TransitionSystem
import Inet.Foundations.KeyedMatching
import Inet.Foundations.ShadowFree
import Inet.Foundations.WriteBuffer
import Inet.Foundations.TypeLengthValue
import Inet.LinkLayer.MACAddress
import Inet.Foundations.IntervalList
import Inet.Foundations.AscendingKeys
import Inet.Foundations.SerialNumber
import Inet.Common.ByteArrayBuffer
import Inet.TransportLayer.TCPSegment
import Inet.TransportLayer.TCPVirtualDataRcvQueue
import Inet.TransportLayer.ReceiveStream
import Inet.TransportLayer.TCPByteStreamQueues
import Inet.TransportLayer.ByteStream
import Inet.TransportLayer.MessageStream
import Inet.TransportLayer.Scoreboard
import Inet.TransportLayer.SackSoundness
import Inet.Ndn.Packets
import Inet.Ndn.Pit
import Inet.Ndn.Fib
import Inet.Ndn.Cs
import Inet.Ndn.Forwarding
import Inet.Ndn.Broker
import Inet.Ndn.ForwardingMoves
import Inet.Ndn.PendingRequests
import Inet.Ndn.ReversePath
import Inet.Ndn.LocalInterests
import Inet.Ndn.DelaySlot
import Inet.Ndn.Statistics
import Inet.Ndn.Tools
import Inet.Ndn.DataEncoding
import Inet.Ndn.InterestEncoding
import Inet.Ndn.Provenance
import Inet.Ndn.Apps
import Inet.Ndn.Network
import Inet.Ndn.Tickets
import Inet.Ndn.NetworkMoves
import Inet.Ndn.Attribution
import Inet.Foundations.Tiling
import Inet.Common.ReassemblyBuffer
import Inet.Common.RawPacket
import Inet.NetworkLayer.IPv4Fragmentation
import Inet.NetworkLayer.ARPResolution
import Inet.NetworkLayer.IPv4FragBuf
import Inet.NetworkLayer.RawFragments
import Inet.Foundations.SortedScan
import Inet.NetworkLayer.IPv4Route
import Inet.NetworkLayer.IPv4RoutingTable
import Inet.Foundations.OnesComplement
import Inet.Common.SerializerBuffer
import Inet.Common.TCPIPchecksum
import Inet.TransportLayer.TCPSerializer
import Inet.TransportLayer.TCPSegmentRoundTrip
import Inet.TransportLayer.TCPSegmentParsing
import Inet.Foundations.SetBits
import Inet.Foundations.Trellis
import Inet.PhysicalLayer.ConvolutionalCoder
import Inet.PhysicalLayer.ConvolutionalTables
import Inet.PhysicalLayer.ConvolutionalEncoding
import Inet.PhysicalLayer.ConvolutionalDecoding
import Inet.Foundations.OrderedMap
import Inet.Foundations.ReferenceCounts
import Inet.NetworkLayer.IPv4InterfaceData
import Inet.NetworkLayer.MulticastFilter
import Inet.Routing.RIPRouting
import Inet.Routing.RIPReachable
import Inet.Routing.RIPForeignRoutes
import Inet.Routing.RIPUpdates
import Inet.Routing.AODVRouting
import Inet.Routing.AODVDiscovery
import Inet.LinkLayer.Ieee80211Frame
import Inet.LinkLayer.Fragmentation
import Inet.LinkLayer.Reassembly
import Inet.LinkLayer.Contention
import Inet.LinkLayer.ChannelAccess
import Inet.LinkLayer.FrameExchange
import Inet.LinkLayer.FrameExchanges
import Inet.LinkLayer.ExchangeAttempts
import Inet.LinkLayer.UnicastExchanges
import Inet.LinkLayer.DuplicateDetectors
import Inet.LinkLayer.DuplicateDetection
import Inet.Applications.DHCPServer
import Inet.Applications.DHCPLeases
import Inet.Routing.OSPFLinkStateUpdate
import Inet.NetworkLayer.IGMPSerializer
import Inet.NetworkLayer.IPv4Serializer
import Inet.TransportLayer.SCTPGapListRuns
import Inet.Routing.OSPFInterAreaRoutes
import Inet.Foundations.Words
import Inet.Ndn.FibLookup
import Inet.Ndn.FibRuns
import Inet.NetworkLayer.IPv6Datagram
import Inet.NetworkLayer.IPv6Fragmentation
import Inet.NetworkLayer.IPv6FragBuf
import Inet.NetworkLayer.IPv6PrefixMatch
import Inet.NetworkLayer.IPv6Serializer
import Inet.Routing.OSPFExchangeProgress
import Inet.Foundations.TimedMachine
import Inet.Foundations.FifoCache
import Inet.Ndn.PitRuns
import Inet.Ndn.CsRuns
import Inet.Ndn.ConsumerRuns
import Inet.Ndn.PacketSize
import Inet.TransportLayer.TCPSender
import Inet.TransportLayer.LossDetection
import Inet.TransportLayer.TCPPipe
import Inet.TransportLayer.TCPReceiveWindow
import Inet.TransportLayer.TCPSendProgress
import Inet.TransportLayer.TCPLossRecovery
import Inet.Foundations.Numerals
import Inet.LinkLayer.MACAddressParsing
import Inet.LinkLayer.Ieee8021dForwarding
import Inet.LinkLayer.MACAddressTableAging
import Inet.LinkLayer.STPHello
import Inet.NetworkLayer.IPv4AddressText
import Inet.NetworkLayer.IPv6AddressText
import Inet.Common.InternetChecksum
import Inet.NetworkLayer.DiffservMeters
import Inet.NetworkLayer.MeterConformance
import Inet.LinkLayer.ReassemblyPurge
import Inet.LinkLayer.TransmissionQueue
import Inet.Common.WRRScheduler
import Inet.Routing.AODVRingSearch
import Inet.Routing.OSPFDesignatedRouter
import Inet.TransportLayer.TCPSegmentTransmitInfoList
import Inet.TransportLayer.SCTPForwardTsn
import Inet.Routing.AODVReplies
import Inet.Routing.RIPNetwork
import Inet.LinkLayer.STPNetwork
import Inet.TransportLayer.SCTPDeliveryRuns
