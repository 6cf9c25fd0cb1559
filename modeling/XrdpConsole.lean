import XrdpConsole.RegionHistory
import XrdpConsole.VncParserInvariant
import XrdpConsole.VncRefinement
import XrdpConsole.JobHandover
import XrdpConsole.PlanarAsync
import XrdpConsole.PlanarConvergence
import XrdpConsole.GfxStream
import XrdpConsole.ResizeRecovery
import XrdpConsole.ResizeQueue
import XrdpConsole.Backpressure
import XrdpConsole.ScreenBounds
import XrdpConsole.ProxyLifetime
import XrdpConsole.VncServerLayout
import XrdpConsole.BenchGraphics
import XrdpConsole.CompletionProtocol
import XrdpConsole.PlanarScratch
import XrdpConsole.PlanarReproduction
import XrdpConsole.VncScanlines
import XrdpConsole.Library.TextSearch
import XrdpConsole.BenchCodec
import XrdpConsole.LineReader
import XrdpConsole.Library.UnicodeText
import XrdpConsole.Library.Worklist
import XrdpConsole.ProcessTree
import XrdpConsole.Library.Sections
import XrdpConsole.BenchConfig
import XrdpConsole.ConfigLines
import XrdpConsole.ConfigEdit
import XrdpConsole.ConfigFlags
import XrdpConsole.Library.ByteText
import XrdpConsole.IniReader
import XrdpConsole.ConfigReading
import XrdpConsole.BenchPorts
import XrdpConsole.Library.Occurrences
import XrdpConsole.Library.Utf8Decoder
import XrdpConsole.LogEvents
import XrdpConsole.Library.BigEndian
import XrdpConsole.Library.WebSocketFrame
import XrdpConsole.GpuProbe
import XrdpConsole.GpuHandshake
import XrdpConsole.GpuSession
import XrdpConsole.Library.Overlay
import XrdpConsole.Library.Pattern
import XrdpConsole.SocketStats
import XrdpConsole.SocketLines
import XrdpConsole.SocketScan
import XrdpConsole.SocketTotals
import XrdpConsole.Library.WireFields
import XrdpConsole.Library.Reassembly
import XrdpConsole.EgfxWire
import XrdpConsole.EgfxRoundTrip
import XrdpConsole.DynamicChannel
import XrdpConsole.ChannelRuns
import XrdpConsole.ChannelDelivery
import XrdpConsole.EgfxDelivery
import XrdpConsole.WireScreen
import XrdpConsole.Library.ByteStream
import XrdpConsole.EgfxReceive
import XrdpConsole.EgfxHeard
import XrdpConsole.ClientDelivery
import XrdpConsole.Library.Enclosure
import XrdpConsole.MonitorLayout
import XrdpConsole.MonitorDescriptions
import XrdpConsole.LayoutMessages
import XrdpConsole.LayoutSession
