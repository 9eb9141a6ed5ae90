import Mailroom.Error
/-!
Reports on the health of a component, each made from the outcome of one probe.
-/

namespace Mailroom

/-- How a component fares. -/
inductive HealthStatus where
  | healthy
  /-- It can be reached but does not answer in time. -/
  | degraded
  | unhealthy
deriving DecidableEq, Repr

namespace HealthStatus

/-- Every status. -/
def all : List HealthStatus := [healthy, degraded, unhealthy]

/-- The name of a status. -/
def name : HealthStatus → String
  | healthy => "Healthy"
  | degraded => "Degraded"
  | unhealthy => "Unhealthy"

end HealthStatus

/-- A report on one component; what is not healthy has a cause. -/
structure HealthReport where
  component : String
  status : HealthStatus
  cause : Option String
deriving DecidableEq, Repr

namespace HealthReport

/-- A component that works. -/
def healthy (component : String) : HealthReport := ⟨component, .healthy, none⟩

/-- A component that works badly, and why. -/
def degraded (component cause : String) : HealthReport := ⟨component, .degraded, some cause⟩

/-- A component that does not work, and why. -/
def unhealthy (component cause : String) : HealthReport := ⟨component, .unhealthy, some cause⟩

/-- The report on a probe: a missed deadline degrades a component, any other error makes it
unhealthy. -/
def ofProbe (component : String) : Except StoreError Unit → HealthReport
  | .ok () => healthy component
  | .error (.timeout reason) => degraded component (StoreError.timeout reason).message
  | .error error => unhealthy component error.message

/-- Whether the component works. -/
def isHealthy (report : HealthReport) : Bool := report.status = .healthy

end HealthReport

end Mailroom
