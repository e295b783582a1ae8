import Simulcast.Conference
import Simulcast.Proofs.Caps.Minimum
import Simulcast.Proofs.Caps.Sanitize
import Simulcast.Proofs.Publisher.Failures
import Simulcast.Proofs.Bitrate
import Simulcast.Proofs.Json.Numbers
import Simulcast.Proofs.Json.Strings
import Simulcast.Proofs.Json.Decimals
import Simulcast.Proofs.Json.Objects
import Simulcast.Proofs.Estimator.Cap
import Simulcast.Proofs.Message.Members
import Simulcast.Proofs.Message.RoundTrip
import Simulcast.Proofs.Meeting.Steps
import Simulcast.Proofs.Meeting.Safety
import Simulcast.Proofs.Meeting.Renewal
import Simulcast.Proofs.Estimator.Calls
import Simulcast.Proofs.Estimator.Requests
import Simulcast.Proofs.Estimator.Throttle
import Simulcast.Proofs.Estimator.Acknowledgement
import Simulcast.Proofs.Estimator.Forgetting
import Simulcast.Proofs.Estimator.Backoff
import Simulcast.Proofs.Activity
import Simulcast.Proofs.Watchdog.Counters
import Simulcast.Proofs.Watchdog.Runs
import Simulcast.Proofs.Watchdog.Schedule
import Simulcast.Proofs.Watchdog.Outage
import Simulcast.Proofs.Publisher.LowLayer
import Simulcast.Proofs.Message.Acceptance
import Simulcast.Proofs.Message.NormalForm
import Simulcast.Proofs.Caps.Wire
import Simulcast.Proofs.Arbitration.Delivery
import Simulcast.Proofs.Arbitration.Independence
import Simulcast.Proofs.Arbitration.ArrivalOrder
import Simulcast.Proofs.Arbitration.Wire
import Simulcast.Proofs.Binary64.Share
import Simulcast.Proofs.Caps.Ordered
import Simulcast.Proofs.Arbitration.Ordered
import Simulcast.Proofs.Arbitration.Changes
import Simulcast.Proofs.Publisher.Accounting
import Simulcast.Proofs.Subscriber.Attribution
import Simulcast.Proofs.Frame
import Simulcast.Proofs.Message.Layout
import Simulcast.Proofs.Binary64.Nonnegative
import Simulcast.Proofs.Estimator.Window
import Simulcast.Proofs.Estimator.Malformed
import Simulcast.Proofs.Rid
