import IPStat.Lib.Chain
import IPStat.Core.Users
import IPStat.Core.Agreement
import IPStat.Lib.Ring
import IPStat.Lib.Run
import IPStat.Threads.Queue
import IPStat.Collect.Decode
import IPStat.Collect.Netfilter
import IPStat.Lib.Regex
import IPStat.Core.Fingerprint
import IPStat.Www.Ports
import IPStat.Aggregate.Ip
import IPStat.Core.Sync
import IPStat.Lib.Tally
import IPStat.Core.Conservation
import IPStat.Core.Charge
import IPStat.Core.UserTraffic
import IPStat.Lib.Aged
import IPStat.Policy.Eviction
import IPStat.Aggregate.Balance
import IPStat.Aggregate.FiniteMap
import IPStat.Aggregate.Time
import IPStat.Aggregate.Export
import IPStat.Limits.Group
import IPStat.Limits.Overshoot
import IPStat.Limits.Conservation
import IPStat.Www.Delete
import IPStat.System.Rotation
import IPStat.System.Modules
import IPStat.Lib.Keyed
import IPStat.Policy.Decision
import IPStat.Policy.History
import IPStat.Policy.DayClock
import IPStat.Lib.CString
import IPStat.Collect.Message
import IPStat.System.Conf
import IPStat.Core.Balance
import IPStat.Core.Convergence
import IPStat.Lib.Numeral
import IPStat.Policy.Weekly
import IPStat.Core.Concurrent
import IPStat.Lib.Quoted
import IPStat.Collect.Statements
import IPStat.System.Log
import IPStat.Aggregate.Calls
import IPStat.Lib.DList
import IPStat.Threads.Pool
import IPStat.Threads.Bookkeeping
import IPStat.Limits.Sync
import IPStat.Lib.Reread
import IPStat.System.Vanished
import IPStat.Core.Chains
import IPStat.Limits.Duplicates
import IPStat.Core.Flush
import IPStat.Core.Reload
import IPStat.Aggregate.Retry
import IPStat.Policy.Url
import IPStat.Lib.Meter
import IPStat.Core.Widths
import IPStat.Aggregate.Widths
import IPStat.Lib.Overwrite
import IPStat.System.Status
import IPStat.Limits.Exhausted
import IPStat.Core.Hooks
import IPStat.Lib.BitPrefix
import IPStat.Aggregate.Height
import IPStat.Core.Netmask
import IPStat.Aggregate.Flows
import IPStat.Collect.Arguments
import IPStat.System.Schedule
import IPStat.System.Crontab
import IPStat.Collect.Input
import IPStat.Core.Auth
import IPStat.Policy.Verdict
import IPStat.System.Formats
import IPStat.Glist
import IPStat.Aggregate.Lost
import IPStat.Collect.Bounds
import IPStat.Threads.Request
import IPStat.Lib.Rounding
import IPStat.Www.Limitation
import IPStat.Collect.Pppd
import IPStat.Aggregate.Destroy
import IPStat.Glist.Cells
import IPStat.Glist.Sort
import IPStat.Glist.Store
import IPStat.System.Scheduler
import IPStat.Lib.Transaction
import IPStat.System.Periods
import IPStat.Collect.Redirector
import IPStat.Aggregate.Pipeline
import IPStat.Aggregate.FlowLog
import IPStat.Collect.Accounting
import IPStat.Lib.LineReader
import IPStat.Collect.SquidLog
import IPStat.Collect.Limited
