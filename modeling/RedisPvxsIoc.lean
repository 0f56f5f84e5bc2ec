import RedisPvxsIoc.NTNDArray.Frame
import RedisPvxsIoc.Runtime.FrameCounts
import RedisPvxsIoc.Runtime.AlarmLadder
import RedisPvxsIoc.Access.RightsChanges
import RedisPvxsIoc.Config.Structure
import RedisPvxsIoc.Config.Secrets
import RedisPvxsIoc.Alarm.Delivery
import RedisPvxsIoc.Alarm.Budget
import RedisPvxsIoc.Alarm.Truncation
import RedisPvxsIoc.PVRegistry.Closing
import RedisPvxsIoc.Access.Audit
import RedisPvxsIoc.Runtime.AlarmFeed
import RedisPvxsIoc.Runtime.Outcome
import RedisPvxsIoc.Application.Reported
import RedisPvxsIoc.OperationQueue.Failures
import RedisPvxsIoc.OperationQueue.Rollback
import RedisPvxsIoc.OperationQueue.QueuedExec
import RedisPvxsIoc.Runtime.Outage
import RedisPvxsIoc.Runtime.Timestamps
import RedisPvxsIoc.Runtime.Conversions
