import Aesd.Lib.CircularList
import Aesd.Lib.Segments
import Aesd.Lib.BoundedQueue
import Aesd.Lib.CommandLog
import Aesd.Lib.Heap
import Aesd.Lib.LinkedList
import Aesd.Lib.Run
import Aesd.Lib.CriticalSections
import Aesd.Lib.Linearization
import Aesd.Lib.Simulation
import Aesd.Lib.Excerpt
import Aesd.Lib.Overlay
import Aesd.Lib.Pieces
import Aesd.Lib.Decimal
import Aesd.Lib.Ledger
import Aesd.Lib.LocalArray
import Aesd.Driver.CircularBuffer
import Aesd.Driver.RingQueue
import Aesd.Driver.Lookup
import Aesd.Driver.Kernel
import Aesd.Driver.Device
import Aesd.Driver.Module
import Aesd.Driver.Invariant
import Aesd.Driver.ReadSpec
import Aesd.Driver.WriteSpec
import Aesd.Driver.SeekSpec
import Aesd.Driver.Calls
import Aesd.Driver.LockDiscipline
import Aesd.Driver.LogRefinement
import Aesd.Driver.Conservation
import Aesd.Driver.CommitDecision
import Aesd.Driver.Ownership
import Aesd.Driver.SeekContract
import Aesd.Driver.Reader
import Aesd.Driver.DeviceEnd
import Aesd.Driver.EndOfFile
import Aesd.Driver.LogDevice
import Aesd.Driver.Overtaken
import Aesd.Driver.Teardown
import Aesd.Server.ReadUntilTerm
import Aesd.Server.ReadCall
import Aesd.Server.StreamSplit
import Aesd.Server.BufferGrowth
import Aesd.Server.Interrupts
import Aesd.Server.ReadLine
import Aesd.Server.Session
import Aesd.Server.SessionSpec
import Aesd.Server.Echo
import Aesd.Server.Transfer
import Aesd.Server.Serializability
import Aesd.Server.Contract
import Aesd.Server.Progress
import Aesd.Server.SeekRequest
import Aesd.Server.LineBuffers
import Aesd.Server.Timestamp
import Aesd.Server.FileReplies
import Aesd.Server.Builds
import Aesd.Server.Timer
import Aesd.Server.MainLoop
import Aesd.Server.NodeInvariant
import Aesd.Server.NodeLifecycle
import Aesd.Server.Descriptors
import Aesd.Server.Process
import Aesd.Server.Shutdown
import Aesd.Server.Unwind
import Aesd.Examples.SystemCalls
import Aesd.Examples.Threading
import Aesd.FinderApp.Writer
