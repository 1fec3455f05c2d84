import VirtualCaptureStream.Lib.Transition
import VirtualCaptureStream.SourceHandles
import VirtualCaptureStream.SourceFillBuffer
import VirtualCaptureStream.PinDescriptor
import VirtualCaptureStream.SinkFilter
import VirtualCaptureStream.SinkFraming
import VirtualCaptureStream.SinkDiscard
import VirtualCaptureStream.LinkFidelity
import VirtualCaptureStream.LinkBuffer
import VirtualCaptureStream.SinkReceive
import VirtualCaptureStream.SinkRename
import VirtualCaptureStream.SinkDisconnect
import VirtualCaptureStream.PinDecode
import VirtualCaptureStream.SourceDiscovery
import VirtualCaptureStream.ServerStop
import VirtualCaptureStream.ServerClients
import VirtualCaptureStream.SinkAttach
import VirtualCaptureStream.PinLifetime
import VirtualCaptureStream.SinkCapture
import VirtualCaptureStream.SourceSample
import VirtualCaptureStream.SourceRebase
import VirtualCaptureStream.SourcePinLists
import VirtualCaptureStream.SourcePinIds
import VirtualCaptureStream.SinkConnect
import VirtualCaptureStream.SinkEnumPins
import VirtualCaptureStream.SinkDiscovery
import VirtualCaptureStream.SourceEnumPins
import VirtualCaptureStream.SinkAllocators
import VirtualCaptureStream.StreamName
import VirtualCaptureStream.SinkSizes
import VirtualCaptureStream.SourceCaps
import VirtualCaptureStream.SinkRefPoint
import VirtualCaptureStream.SinkWriterPool
import VirtualCaptureStream.SinkWriterSlot
import VirtualCaptureStream.SinkSamples
import VirtualCaptureStream.SourceStreamName
import VirtualCaptureStream.SourcePlay
import VirtualCaptureStream.SourceFilter
import VirtualCaptureStream.SourceConnect
import VirtualCaptureStream.SinkLedger
import VirtualCaptureStream.LinkLedger
import VirtualCaptureStream.SourceBuffers
import VirtualCaptureStream.SinkFlags
import VirtualCaptureStream.LinkThreads
import VirtualCaptureStream.LinkDelivery
