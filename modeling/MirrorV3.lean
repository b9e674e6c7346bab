import MirrorV3.Bin.Destinations
import MirrorV3.Bin.Directories
import MirrorV3.Bin.Gate
import MirrorV3.Bin.Outcome
import MirrorV3.Bin.Recovered
import MirrorV3.Bin.Registration
import MirrorV3.Bin.Restarts
import MirrorV3.Bin.Stopping
import MirrorV3.Bin.Resolution
import MirrorV3.Bin.Supervise
import MirrorV3.Cache.Complete
import MirrorV3.Cache.Fold
import MirrorV3.Cache.Listing
import MirrorV3.Cache.Status
import MirrorV3.Config.Interpolation
import MirrorV3.Core.Cache
import MirrorV3.Core.FanOut
import MirrorV3.Core.Fatal
import MirrorV3.Core.IdleCheck
import MirrorV3.Core.Observed
import MirrorV3.Core.Startup
import MirrorV3.Core.Tee
import MirrorV3.Envelope.RoundTrip
import MirrorV3.Flush.Delivered
import MirrorV3.Fs.Atomic
import MirrorV3.Fs.Daily
import MirrorV3.Fs.Lifetimes
import MirrorV3.Fs.Listing
import MirrorV3.Fs.Lost
import MirrorV3.Fs.Position
import MirrorV3.Fs.Sound
import MirrorV3.Kafka.Commit
import MirrorV3.Kafka.Intrusion
import MirrorV3.Kafka.Opening
import MirrorV3.Kafka.Produce
import MirrorV3.Kafka.RecordBatch
import MirrorV3.Lib.Digits
import MirrorV3.Lib.Fanout
import MirrorV3.Lib.History
import MirrorV3.Notify.Acks
import MirrorV3.Notify.Dispatch
import MirrorV3.Notify.Payload
import MirrorV3.Notify.Relayed
import MirrorV3.Restore.BackedUp
import MirrorV3.Restore.Backup
import MirrorV3.Restore.Drain
import MirrorV3.Restore.Following
import MirrorV3.Restore.Holes
import MirrorV3.Restore.Seeking
import MirrorV3.Restore.Spelling
import MirrorV3.Restore.Standby
import MirrorV3.Restore.Wrapping
import MirrorV3.Restore.Yielding
import MirrorV3.Resume.Compacted
import MirrorV3.Resume.Contradicted
import MirrorV3.Resume.Folded
import MirrorV3.Core.Replay
import MirrorV3.Resume.Trimmed
import MirrorV3.S3.Directory
