import GbfLibrary.Memory.Machine
import GbfLibrary.Trees.RedBlack
import GbfLibrary.Trees.Rebalance
import GbfLibrary.Trees.Search
import GbfLibrary.Maps.Bindings
import GbfLibrary.Rbtree.Model
import GbfLibrary.Rbtree.Represent
import GbfLibrary.Rbtree.Search
import GbfLibrary.Rbtree.Insert
import GbfLibrary.Rbtree.Remove
import GbfLibrary.Rbtree.Invariant
import GbfLibrary.Rbtree.WellFormed
import GbfLibrary.Rbtree.Contents
import GbfLibrary.Rbtree.Update
import GbfLibrary.Rbtree.Runs
import GbfLibrary.Errno
import GbfLibrary.Maps.Increasing
import GbfLibrary.Trees.Reshape
import GbfLibrary.Trees.TwoThree
import GbfLibrary.TwoThree.Delete
import GbfLibrary.TwoThree.Insert
import GbfLibrary.TwoThree.Model
import GbfLibrary.TwoThree.Repair
import GbfLibrary.TwoThree.Represent
import GbfLibrary.TwoThree.Runs
import GbfLibrary.TwoThree.Search
import GbfLibrary.TwoThree.Update
import GbfLibrary.TwoThree.WellFormed
import GbfLibrary.Memory.Chain
import GbfLibrary.Systems.Fifo
import GbfLibrary.Systems.Run
import GbfLibrary.Thp.Lifecycle
import GbfLibrary.Thp.Lists
import GbfLibrary.Thp.Task
import GbfLibrary.Thp.TaskRuns
import GbfLibrary.Thp.Watcher
import GbfLibrary.Lock.RwLock
import GbfLibrary.Systems.Shares
import GbfLibrary.Thp.Handle
import GbfLibrary.Enet.Handle
import GbfLibrary.Enet.HandleRuns
import GbfLibrary.Thp.HandleRuns
import GbfLibrary.Enet.Places
import GbfLibrary.Enet.Traffic
import GbfLibrary.Systems.Custody
import GbfLibrary.Enet.PacketOwners
import GbfLibrary.Enet.TrafficSteps
import GbfLibrary.Enet.ConnectionOwners
import GbfLibrary.Enet.Disconnects
import GbfLibrary.Enet.Chunks
import GbfLibrary.Enet.ClientRuns
import GbfLibrary.Enet.Clients
import GbfLibrary.Lock.RwLockRuns
import GbfLibrary.Enet.Shutdown
import GbfLibrary.Enet.ShutdownRuns
import GbfLibrary.Rbtree.Failures
import GbfLibrary.Rbtree.Depth
import GbfLibrary.Rbtree.Walk
import GbfLibrary.Trees.Walk
import GbfLibrary.Rbtree.Integrity
import GbfLibrary.TwoThree.Failures
import GbfLibrary.TwoThree.Reserved
import GbfLibrary.Enet.Packet
import GbfLibrary.Memory.Block
import GbfLibrary.Enet.Unpack
import GbfLibrary.Events.Engine
import GbfLibrary.Events.Ring
import GbfLibrary.Ecore.Config
import GbfLibrary.Ecore.Strings
import GbfLibrary.Memory.Occurrence
import GbfLibrary.Ecore.Parse
import GbfLibrary.Ecore.ModuleList
import GbfLibrary.Lock.Ledger
import GbfLibrary.Handles.World
import GbfLibrary.Thp.PoolCalls
import GbfLibrary.Thp.HandleCalls
import GbfLibrary.Enet.Ends
import GbfLibrary.Enet.Frames
import GbfLibrary.Enet.Receive
import GbfLibrary.Enet.BufferMode
import GbfLibrary.Enet.PacketPool
import GbfLibrary.Enet.Send
import GbfLibrary.Events.Timer
import GbfLibrary.Events.TimerRuns
import GbfLibrary.Memory.Circle
import GbfLibrary.Enet.Faults
import GbfLibrary.Enet.HandlePool
import GbfLibrary.Enet.Stream
import GbfLibrary.Handles.Pool
import GbfLibrary.Thp.HandlePool
import GbfLibrary.Enet.HandleCalls
import GbfLibrary.Enet.Calls
import GbfLibrary.Handles.Balance
import GbfLibrary.Enet.ReuseTable
import GbfLibrary.Enet.LiveHandle
import GbfLibrary.Enet.NewClient
import GbfLibrary.Enet.ServerWorker
import GbfLibrary.Thp.WorkerLoop
import GbfLibrary.Enet.HttpHeaders
import GbfLibrary.Enet.HttpStatusLine
import GbfLibrary.Enet.HttpParser
import GbfLibrary.Enet.HttpFields
import GbfLibrary.Enet.HttpSafety
import GbfLibrary.Ecore.Bounds
import GbfLibrary.Ecore.Modules
import GbfLibrary.Ecore.ModuleIndex
import GbfLibrary.Ecore.ModuleRuns
import GbfLibrary.Rbtree.Checked
import GbfLibrary.TwoThree.Successor
import GbfLibrary.Enet.HttpObject
import GbfLibrary.Enet.HttpUrl
import GbfLibrary.Enet.HttpRequest
import GbfLibrary.Enet.HttpResponse
import GbfLibrary.Memory.Heap
import GbfLibrary.Enet.HttpHandles
import GbfLibrary.Memory.Mixing
import GbfLibrary.Ecore.Copies
import GbfLibrary.Stdlbs.Strings
import GbfLibrary.Enet.HttpHandleList
import GbfLibrary.Enet.HttpHandleRuns
import GbfLibrary.Stdlbs.Copies
import GbfLibrary.Streams.Blocks
import GbfLibrary.Hash.Context
import GbfLibrary.Hash.Md5
import GbfLibrary.Streams.Rounds
import GbfLibrary.Hash.Md5Digest
import GbfLibrary.Hash.Sha1
import GbfLibrary.Hash.Sha1Digest
import GbfLibrary.Hash.Collisions
import GbfLibrary.Streams.Collisions
import GbfLibrary.Rbtree.Delete
import GbfLibrary.Lock.MainLock
import GbfLibrary.Maps.Cursor
import GbfLibrary.Ecore.ModuleWalk
import GbfLibrary.Ecore.ModuleIds
import GbfLibrary.Ecore.Messages
import GbfLibrary.Memory.Beside
import GbfLibrary.TwoThree.Strays
import GbfLibrary.TwoThree.Check
import GbfLibrary.Ecore.ConfigFree
import GbfLibrary.Ecore.Start
import GbfLibrary.Enet.UdpReceive
import GbfLibrary.Enet.AddedClients
import GbfLibrary.TwoThree.Header
import GbfLibrary.Enet.ReuseEntries
import GbfLibrary.Memory.SameHeap
