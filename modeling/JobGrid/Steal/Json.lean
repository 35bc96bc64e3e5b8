import JobGrid.Member.Json
import JobGrid.Steal.Pass

/-!
# The stealing status in JSON

The figures of work stealing are reported as a JSON object with fixed names.
-/

namespace JobGrid

namespace StealingStatus

def toJson (status : StealingStatus) : Json :=
  .ofMembers [
    ("waiting_jobs", .ofNat status.waiting),
    ("active_jobs", .ofNat status.active),
    ("total_stolen_jobs", .ofNat status.stolen),
    ("total_requested_jobs", .ofNat status.requested),
    ("current_steal_requests", .ofInt status.currentRequests),
    ("outstanding_sent_requests", .ofNat status.outstanding),
    ("active_jobs_threshold", encode status.config.activeThreshold),
    ("wait_jobs_threshold", encode status.config.waitThreshold),
    ("max_stealing_attempts", encode status.config.maxStealing),
    ("message_expire_time_ms", encode status.config.requestExpiry),
    ("stealing_enabled", .bool status.config.enabled)]

end StealingStatus

end JobGrid
