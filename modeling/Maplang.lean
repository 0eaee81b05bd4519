import Maplang.Graph.Confinement
import Maplang.Graph.Wakeup
import Maplang.Graph.Delivery
import Maplang.Graph.Order
import Maplang.Graph.Nesting
import Maplang.Graph.Draining
import Maplang.Graph.Unfolding
import Maplang.Graph.Merging
import Maplang.Graph.Provenance
import Maplang.Graph.DotExporter
import Maplang.Graph.ThreadGroups
import Maplang.Graph.GraphBuilder
import Maplang.Graph.Renaming
import Maplang.Graph.Start
import Maplang.Nodes.ContextualInstances
import Maplang.Nodes.CohesiveGroup
import Maplang.Http.Lockstep
import Maplang.Http.HeaderBlock
import Maplang.Http.LeadingBreaks
import Maplang.Http.RequestHead
import Maplang.Http.WholeMessage
import Maplang.Nodes.PacketProgress
import Maplang.Nodes.BigEndian
import Maplang.Nodes.BufferAccumulator
import Maplang.Nodes.RemoveAll
import Maplang.Nodes.VolatileKeyValueStore
import Maplang.Stream.RingResizing
import Maplang.Stream.RingSafety
import Maplang.Stream.SetSearch
import Maplang.Stream.Splitting
import Maplang.Stream.Bounds
import Maplang.Queue.BlockOnEmptyConcurrentQueue
import Maplang.Pool.BlockingBufferPool
import Maplang.Pool.BlockingObjectPool
import Maplang.Tcp.Tables
import Maplang.Tcp.Closing
import Maplang.Http.EchoServer
