import PitBox.Scheduler.BusyTime
import PitBox.Scheduler.EventLog
import PitBox.Scheduler.LaneReturn
import PitBox.Scheduler.Snapshot
import PitBox.Scheduler.Utilization
import PitBox.Scheduler.Wakeup
import PitBox.Runtime.Limiter
import PitBox.Runtime.CacheReuse
import PitBox.Runtime.CacheSafety
import PitBox.Runtime.Outcome
import PitBox.Runtime.PaddockWriters
import PitBox.Runtime.Panics
import PitBox.Runtime.ServiceResponse
import PitBox.Runtime.WarmDigests
import PitBox.Gateway.NormalForm
import PitBox.Gateway.Panics
import PitBox.Gateway.PercentCodec
import PitBox.Gateway.Replay
import PitBox.Node.Report
import PitBox.Garage.DepthLimit
import PitBox.Garage.ClusterProgress
import PitBox.Garage.LimitReporting
import PitBox.Garage.Readiness
import PitBox.Garage.ResponseSchedules
import PitBox.Garage.Responses
import PitBox.Garage.Singleflight
