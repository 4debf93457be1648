import Webhookd.Accounting
import Webhookd.Action
import Webhookd.Admission
import Webhookd.Boot
import Webhookd.Cancellation
import Webhookd.Cluster.Answers
import Webhookd.Cluster.Basic
import Webhookd.Cluster.Deployment
import Webhookd.Cluster.Redelivery
import Webhookd.Cluster.Success
import Webhookd.Cluster.Tickets
import Webhookd.Cluster.Versions
import Webhookd.Config
import Webhookd.Deadline
import Webhookd.Dispatcher
import Webhookd.Executor
import Webhookd.Go.Bookings
import Webhookd.Go.Chan
import Webhookd.Go.Encode
import Webhookd.Go.Http
import Webhookd.Go.Json
import Webhookd.Go.Mux
import Webhookd.Go.Rate
import Webhookd.Go.Render
import Webhookd.Go.Strconv
import Webhookd.Go.Strings
import Webhookd.Go.Time
import Webhookd.Go.Unmarshal
import Webhookd.Go.Writer
import Webhookd.Inert
import Webhookd.Intake
import Webhookd.Jsm.Naming
import Webhookd.Jsm.Passes
import Webhookd.Jsm.Payload
import Webhookd.Jsm.Provider
import Webhookd.Lifecycle.Budget
import Webhookd.Lifecycle.Exit
import Webhookd.Lifecycle.Process
import Webhookd.Lifecycle.Requests
import Webhookd.Lifecycle.Termination
import Webhookd.Loading
import Webhookd.Machine.Basic
import Webhookd.Machine.Pool
import Webhookd.Machine.Registry
import Webhookd.Middleware
import Webhookd.Probe
import Webhookd.RateLimit
import Webhookd.Recorder
import Webhookd.Refusal
import Webhookd.Replay
import Webhookd.Serial
import Webhookd.Signature
import Webhookd.Startup
import Webhookd.Telemetry
import Webhookd.Traffic
import Webhookd.Watch
import Webhookd.Wire
