import Msgq.Memory
import Msgq.Records
import Msgq.Traces
import Msgq.Words
import Msgq.Queue
import Msgq.Position
import Msgq.Broadcast
import Msgq.Run
import Msgq.Registry
import Msgq.Sending
import Msgq.Tracking
import Msgq.Integrity
import Msgq.Layout
import Msgq.Following
import Msgq.Reading
import Msgq.Lapped
import Msgq.Emptiness
import Msgq.Gaps
import Msgq.CaughtUp
import Msgq.Backlog
import Msgq.Stopping
import Msgq.Crash
import Msgq.Accesses
import Msgq.Slots
import Msgq.Trails
import Msgq.Draining
import Msgq.Drained
import Msgq.Fake
import Msgq.VisionIpc
import Msgq.Connecting
import Msgq.Indexing
import Msgq.Frames
import Msgq.Reopening
import Msgq.Sights
import Msgq.Writing
import Msgq.Seeing
import Msgq.Straddled
import Msgq.Attending
import Msgq.Takeover
import Msgq.Admission
import Msgq.Resuming
import Msgq.Converging
import Msgq.Polling
import Msgq.Interval
import Msgq.Conserving
import Msgq.Rotation
import Msgq.Fields
import Msgq.Mapped
import Msgq.Mapping
import Msgq.Blocking
import Msgq.Pacing
import Msgq.Synced
import Msgq.Streaming
import Msgq.Package
import Msgq.Serving
import Msgq.Pictures
import Msgq.Events
import Msgq.Handshake
