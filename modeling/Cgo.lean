import Cgo.Lib.Path
import Cgo.Channel.Message
import Cgo.Channel.System
import Cgo.Channel.Turn
import Cgo.Channel.WellFormed
import Cgo.Channel.Matched
import Cgo.Channel.Ledger
import Cgo.Channel.Delivery
import Cgo.Channel.Order
import Cgo.Channel.Loss
import Cgo.Channel.Select
import Cgo.Lib.Placement
import Cgo.Schedule.Place
import Cgo.Schedule.Tasks
import Cgo.Lib.Fifo
import Cgo.Schedule.Fifo
import Cgo.Lib.Batch
import Cgo.Lib.PriorityQueue
import Cgo.Timed.System
import Cgo.Timed.Firing
import Cgo.Schedule.Run
import Cgo.Lib.Permits
import Cgo.Schedule.Semaphore
import Cgo.Schedule.Notified
import Cgo.Schedule.Counting
import Cgo.Schedule.Shutdown
import Cgo.Coroutine.Linked
import Cgo.Coroutine.Body
import Cgo.Coroutine.Machine
import Cgo.Coroutine.CallStack
import Cgo.Coroutine.Plug
import Cgo.Coroutine.Session
import Cgo.Lib.Ranked
import Cgo.Coroutine.Ownership
import Cgo.Coroutine.Forest
import Cgo.Coroutine.Construct
import Cgo.Coroutine.Nest
import Cgo.Coroutine.Destroy
import Cgo.Coroutine.Steps
import Cgo.Coroutine.Once
import Cgo.Lib.Chains
import Cgo.Coroutine.Intrusive
import Cgo.Schedule.Unfinished
import Cgo.Schedule.Removed
import Cgo.Schedule.Linked
import Cgo.Lib.Locking
import Cgo.Locking.Operations
import Cgo.Locking.Order
import Cgo.Event.Handler
import Cgo.Lib.Registry
import Cgo.Event.Frame
import Cgo.Event.Registrations
import Cgo.Event.Socket
import Cgo.Event.Attached
import Cgo.Event.Oneshot
import Cgo.Event.Waiters
import Cgo.Event.Failure
import Cgo.Event.Race
import Cgo.Event.Wrapping
import Cgo.Event.Send
import Cgo.Workers.Signals
import Cgo.Workers.Rearm
import Cgo.Channel.Locality
import Cgo.Channel.Guarded
import Cgo.Channel.Absent
import Cgo.Channel.Finished
import Cgo.Channel.Shuffle
import Cgo.Channel.Nowait
import Cgo.Channel.Capacity
import Cgo.Channel.Operating
import Cgo.Channel.Linked
import Cgo.Lib.Critical
import Cgo.Schedule.Spinlock
import Cgo.Schedule.Allocator
import Cgo.Schedule.Pools
import Cgo.Lib.Barrier
import Cgo.Workers.Barrier
import Cgo.Workers.Passes
import Cgo.Lib.Retry
import Cgo.Event.Calls
import Cgo.Event.Stream
import Cgo.Event.Callbacks
import Cgo.Event.Closed
import Cgo.Event.Scheduled
import Cgo.Lib.Attempts
import Cgo.Schedule.Attempts
import Cgo.Schedule.Wakes
import Cgo.Schedule.Oneshot
import Cgo.Schedule.Component
import Cgo.Schedule.Defer
import Cgo.Timed.Attempts
import Cgo.Locking.Library
import Cgo.Timed.Callback
import Cgo.Timed.Timeout
import Cgo.Timed.Sleep
