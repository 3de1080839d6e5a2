import JsOS.Library.Run
import JsOS.Net.Tcp.Delivery
import JsOS.Net.Tcp.Step
import JsOS.Net.Tcp.Filling
import JsOS.Net.Tcp.FlowControl
import JsOS.Net.Tcp.Accounting
import JsOS.Net.Tcp.Segmentation
import JsOS.Net.Tcp.Handshake
import JsOS.Net.Tcp.OwnEnd
import JsOS.Net.Tcp.PeerEnd
import JsOS.Net.Tcp.Closing
import JsOS.Net.Tcp.Progress
import JsOS.Net.Tcp.Drain
import JsOS.Net.PortAllocator
import JsOS.Net.Tcp.Stack
import JsOS.Net.Tcp.Wired
import JsOS.Net.Tcp.Isolation
import JsOS.Net.Tcp.Moves
import JsOS.Net.Tcp.PortOwnership
import JsOS.Net.Tcp.Destroyed
import JsOS.Net.Tcp.Registration
import JsOS.Library.Tiling
import JsOS.Net.Ip4.Header
import JsOS.Net.Ip4.Fragments
import JsOS.Net.Ip4.Datagram
import JsOS.Net.Ip4.Trimming
import JsOS.Net.Ip4.FragmentStore
import JsOS.Net.Ip4.Assembly
import JsOS.Net.Ip4.Reassembly
import JsOS.Net.Ip4.Completion
import JsOS.Net.Ip4.DatagramIsolation
import JsOS.Library.Linked
import JsOS.Driver.Virtio.VRing
import JsOS.Driver.Virtio.DescriptorTable
import JsOS.Library.RingBuffer
import JsOS.Driver.Virtio.Exchange
import JsOS.Driver.Virtio.Chains
import JsOS.Driver.Virtio.Handoff
import JsOS.Driver.Virtio.Channel
import JsOS.Driver.Virtio.Blk
import JsOS.Driver.Virtio.Rng
import JsOS.Library.Refinement
import JsOS.Net.PortMap
import JsOS.Net.Route
import JsOS.Net.Udp.Socket
import JsOS.Net.Ethernet
import JsOS.Service.DhcpPacket
import JsOS.Service.DhcpClient
import JsOS.Driver.Virtio.Layout
import JsOS.Library.Rounding
import JsOS.Kernel.PagesStack
import JsOS.Kernel.MemoryMap
import JsOS.Kernel.PhysicalAllocator
import JsOS.Kernel.PhysicalMemory
import JsOS.Library.Framing
import JsOS.Kernel.Transport.Value
import JsOS.Kernel.Transport.Serialize
import JsOS.Kernel.Transport.Unpack
import JsOS.Kernel.Transport.Parts
import JsOS.Kernel.Transport.Failure
import JsOS.Kernel.Transport.Received
import JsOS.Kernel.Transport.RoundTrip
import JsOS.Library.Radix
import JsOS.Library.BinaryHeap
import JsOS.Kernel.PageTable
import JsOS.Kernel.AddressSpace
import JsOS.Kernel.Mapping
import JsOS.Kernel.PageMap
import JsOS.Kernel.FreshPages
import JsOS.Kernel.DemandPaging
import JsOS.Kernel.Timers
import JsOS.Kernel.TimerDispatch
import JsOS.Kernel.Interrupts
import JsOS.Kernel.Resources
import JsOS.Library.BitField
import JsOS.Core.Pci.Config
import JsOS.Core.Pci.FieldAccess
import JsOS.Component.DnsPacket
import JsOS.Component.DnsClient
import JsOS.Component.DnsRequests
import JsOS.Driver.Realtek.Rtl8139
import JsOS.Driver.Realtek.FrameTransfer
import JsOS.Core.Tty.Printer
import JsOS.Core.Tty.Cursor
import JsOS.Library.Buffer
import JsOS.Net.U8View
import JsOS.Net.Icmp.Echo
import JsOS.Net.NextHop
import JsOS.Library.Binary64
import JsOS.Library.NumericString
import JsOS.Net.Ip4AddressText
import JsOS.Net.Arp
import JsOS.Library.OnesComplement
import JsOS.Net.Checksum
import JsOS.Net.Transmit
import JsOS.Net.Verification
import JsOS.Net.Icmp.Ping
import JsOS.Net.Tcp.Cumulative
import JsOS.Net.Tcp.Retransmission
import JsOS.Net.Tcp.SequenceWindows
import JsOS.Core.Tty.LineEditor
import JsOS.Core.Tty.Editing
import JsOS.Core.Tty.ReadLine
import JsOS.Net.Ip4.Receive
import JsOS.Net.Host
import JsOS.Net.Loopback
import JsOS.Net.Tcp.Insertion
import JsOS.Net.Padding
import JsOS.Net.Tcp.Ignoring
import JsOS.Net.Ip4.Taking
import JsOS.Net.Malformed
import JsOS.Service.DhcpOptions
import JsOS.Service.DhcpWriter
import JsOS.Kernel.BufferAddress
import JsOS.Driver.Virtio.Directions
import JsOS.Driver.Virtio.Net
import JsOS.Library.Traced
import JsOS.Library.ByteMemory
import JsOS.Library.ReflectedDivision
import JsOS.Kernel.Crc32
import JsOS.Kernel.Utils
import JsOS.Kernel.Initrd
import JsOS.Library.BigEndian
import JsOS.Kernel.InitrdFormat
import JsOS.Kernel.InitrdReading
import JsOS.Kernel.InitrdLoop
import JsOS.Kernel.InitrdLoading
import JsOS.Kernel.InitrdBounds
import JsOS.Kernel.ThreadReferences
import JsOS.Kernel.Madt
import JsOS.Component.DnsResponse
import JsOS.Library.Saturation
import JsOS.Component.DnsQuery
import JsOS.Component.DnsMessage
import JsOS.Modules.DnsLookup
import JsOS.Modules.Net
import JsOS.Core.Pci.Bars
import JsOS.Driver.Ps2.Keyboard
import JsOS.Driver.Ps2.Mouse
import JsOS.Driver.Ata.Drive
import JsOS.Core.Fs.Partitions
import JsOS.Core.Fs.Confinement
import JsOS.Core.Random.Entropy
import JsOS.Core.Graphics.PseudoGraphics
import JsOS.Core.Fs.SystemPaths
import JsOS.Core.Storage
import JsOS.Library.Calendar
import JsOS.Core.CmosTime
import JsOS.Library.Procedure
import JsOS.Library.Extent
import JsOS.Core.Fs.Fat.Volume
import JsOS.Core.Fs.Fat.SectorCache
import JsOS.Core.Fs.Fat.Chains
import JsOS.Core.Fs.Fat.ChainWriting
import JsOS.Core.Fs.Fat.ChainReading
import JsOS.Core.Fs.Fat.SectorChains
import JsOS.Core.Fs.Fat.StructFu
import JsOS.Core.Fs.Fat.ClusterChains
import JsOS.Core.Fs.Fat.ClusterContents
import JsOS.Core.Fs.Fat.Files
import JsOS.Core.Fs.Fat.TableRuns
import JsOS.Core.Fs.Fat.FifoLock
import JsOS.Core.Fs.Fat.Truncation
