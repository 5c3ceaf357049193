import EpollNet.Verif.Handlers
import EpollNet.Verif.Steps
import EpollNet.Verif.Reactor
import EpollNet.Verif.Orderly
import EpollNet.Verif.Pool
import EpollNet.Verif.Clients
import EpollNet.Verif.Loss
import EpollNet.Verif.Lifecycle
import EpollNet.Verif.Incarnation
import EpollNet.Verif.Inbound
import EpollNet.Verif.Outbound
import EpollNet.Verif.Custody
import EpollNet.Verif.ReceiveQueue
import EpollNet.Verif.Delivery
import EpollNet.Verif.Stalled
import EpollNet.Verif.Edge
import EpollNet.Net.Registration
import EpollNet.Verif.Exclusive
import EpollNet.Verif.Turns
import EpollNet.Verif.Registration
import EpollNet.Verif.Interrupted
import EpollNet.Verif.Slots
import EpollNet.Verif.SendBuffers
import EpollNet.Verif.Written
import EpollNet.Verif.Stale
import EpollNet.Verif.Payloads
import EpollNet.Verif.Termination
import EpollNet.Net.Senders
import EpollNet.Basis.Chain
import EpollNet.Net.DataList
import EpollNet.Verif.DataList
import EpollNet.Verif.Hearing
import EpollNet.Verif.Sequences
import EpollNet.Basis.Calls
import EpollNet.Basis.Classes
import EpollNet.Net.HashTable
import EpollNet.Verif.HashTable
import EpollNet.Net.Threadpool
import EpollNet.Verif.PoolSteps
import EpollNet.Verif.Dispatch
import EpollNet.Verif.Shutdown
import EpollNet.Basis.Records
import EpollNet.Net.DynamicArray
import EpollNet.Verif.DynamicArray
import EpollNet.Verif.Capacity
import EpollNet.Verif.Reading
import EpollNet.Basis.Residue
import EpollNet.Net.Wait
import EpollNet.Verif.PerEntry
import EpollNet.Verif.Batch
import EpollNet.Verif.Prepending
import EpollNet.Verif.Insertion
import EpollNet.Verif.Refusals
import EpollNet.Net.CStr
import EpollNet.Verif.Strings
import EpollNet.Net.Threadmgr
import EpollNet.Verif.Threadmgr
import EpollNet.Basis.Escape
import EpollNet.Net.Decode
import EpollNet.Verif.Decode
import EpollNet.Net.Log
import EpollNet.Verif.LogLine
import EpollNet.Basis.Archive
import EpollNet.Verif.Rotation
import EpollNet.Verif.Rotated
import EpollNet.Verif.Logged
import EpollNet.Basis.Channels
import EpollNet.Basis.Descent
import EpollNet.Basis.Simulation
import EpollNet.Net.Streams
import EpollNet.Verif.Arrivals
import EpollNet.Verif.PoolRest
import EpollNet.Verif.Rest
import EpollNet.Verif.Streams
import EpollNet.Basis.Sections
import EpollNet.Net.LogSteps
import EpollNet.Net.QueueSteps
import EpollNet.Verif.Closing
import EpollNet.Verif.LogThreads
import EpollNet.Verif.QueueThreads
import EpollNet.Basis.Delimited
import EpollNet.Verif.LogFile
import EpollNet.Basis.Loans
import EpollNet.Verif.Cleared
import EpollNet.Verif.Leaks
import EpollNet.Basis.Peak
import EpollNet.Verif.Footprint
import EpollNet.Verif.Presented
import EpollNet.Verif.Startup
import EpollNet.Basis.Boxes
import EpollNet.Net.Replies
import EpollNet.Verif.Replies
import EpollNet.Net.Interest
import EpollNet.Verif.Interest
