import BareKit.Transition
import BareKit.Circular
import BareKit.Queue
import BareKit.Channel
import BareKit.Refinement
import BareKit.Calls
import BareKit.History
import BareKit.EndOfStream
import BareKit.Wakeups
import BareKit.Ipc
import BareKit.IPCStream
import BareKit.Ends
import BareKit.Wire
import BareKit.ByteStream
import BareKit.Retry
import BareKit.Poll
import BareKit.HostView
import BareKit.Readable
import BareKit.Writable
import BareKit.Life
import BareKit.Shares
import BareKit.Ownership
import BareKit.Suspension
import BareKit.Mutex
import BareKit.Standalone
import BareKit.Teardown
import BareKit.Destroy
import BareKit.Readiness
import BareKit.Opening
import BareKit.Stopping
import BareKit.Pairing
import BareKit.Pool
import BareKit.Process
import BareKit.Entry
import BareKit.Signals
import BareKit.Paths
import BareKit.Extract
import BareKit.LockOrder
import BareKit.Locking
import BareKit.Control
import BareKit.Custody
import BareKit.Buffers
import BareKit.Atomic
import BareKit.Expiry
import BareKit.Polls
import BareKit.Creating
import BareKit.Linearization
import BareKit.Pipe
import BareKit.Calling
import BareKit.Reading
import BareKit.Handoff
import BareKit.Finishing
import BareKit.Apple
import BareKit.Waiting
import BareKit.Jvm
import BareKit.Starting
import BareKit.Returning
