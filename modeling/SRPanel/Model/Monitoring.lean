import Mathlib.Data.List.Sort
import SRPanel.Model.Logs
import SRPanel.Model.Site

/-!
# Monitoring

`services/monitoring.ts` keeps a book of incidents: after each round of checks `evaluateIncidents`
opens and resolves them by the latest metrics of every active server, and a person may resolve one
by hand. The messages that announce an incident are left out; its events are kept.
-/

namespace SRPanel

inductive ServerStatus
  | unknown | online | offline | authError
  deriving DecidableEq

/-- `ServerLite`, with the switch of the server. -/
structure MonitoredServer where
  isActive : Bool
  status : ServerStatus
  lastError : Option String
  deriving DecidableEq

structure ServerMetric where
  serverId : ServerId
  at' : ℤ
  online : Bool
  cpu : Option ℚ
  xrayState : Option String
  deriving DecidableEq

/-- The part of `MonitoringSettings` that incidents go by. -/
structure MonitoringSettings where
  failThreshold : ℤ
  cpuThreshold : ℚ

/-- What `emitEvent` is called with: `server.incident_opened` or `server.incident_resolved`. -/
inductive IncidentEvent
  | opened (incident : Incident)
  | resolved (incident : Incident) (manual : Bool)
  deriving DecidableEq

/-- The incident of an event. -/
def IncidentEvent.incident : IncidentEvent → Incident
  | opened i => i
  | resolved i _ => i

def IncidentEvent.isOpened : IncidentEvent → Bool
  | opened _ => true
  | resolved _ _ => false

/-- What the monitoring reads and writes. -/
structure Monitor where
  now : ℤ
  nextId : ℕ
  servers : Table ServerId MonitoredServer
  metrics : List ServerMetric
  settings : MonitoringSettings
  incidents : List Incident
  /-- the events emitted so far, the last one at the end -/
  events : List IncidentEvent

/-- Number of events of a round. -/
structure Round where
  monitor : Monitor
  opened : ℕ
  resolved : ℕ

/-! ## Incidents -/

/-- The row after `status: "RESOLVED", resolvedAt`. -/
def Incident.resolve (i : Incident) (resolvedAt : ℤ) : Incident :=
  { i with status := .resolved, resolvedAt := some resolvedAt }

namespace Monitor

/-- `openIncident`. -/
def openIncident (m : Monitor) (serverId : ServerId) (kind : IncidentKind)
    (message : Option String) : Monitor :=
  let inc : Incident := ⟨m.nextId, serverId, kind, .open', (message.bind orNull).map (sliceTo 500),
    m.now, none⟩
  { m with nextId := m.nextId + 1, incidents := m.incidents ++ [inc], events := m.events ++
    [.opened inc] }

/-- `resolveIncident`. -/
def resolveIncident (m : Monitor) (inc : Incident) (manual : Bool) : Monitor :=
  { m with
    incidents := m.incidents.map fun i => if i.id = inc.id then i.resolve m.now else i
    events := m.events ++ [.resolved (inc.resolve m.now) manual] }

/-- The open incidents of a server. -/
def openIncidents (m : Monitor) (serverId : ServerId) : List Incident :=
  m.incidents.filter fun i => i.serverId = serverId && i.status = .open'

/-- The latest metrics of a server, the last one first. -/
def recentMetrics (m : Monitor) (serverId : ServerId) : List ServerMetric :=
  ((m.metrics.filter fun r => r.serverId = serverId).insertionSort fun a b => b.at' ≤ a.at').take
    (max m.settings.failThreshold 3).toNat

end Monitor

/-! ## A round -/

/-- `xs.slice(0, n)`. -/
def sliceFirst {α : Type} (n : ℤ) (xs : List α) : List α :=
  xs.take (if n < 0 then xs.length + n else n).toNat

namespace Round

/-- Open an incident and count it. -/
def openIncident (r : Round) (serverId : ServerId) (kind : IncidentKind)
    (message : Option String) : Round :=
  { r with monitor := r.monitor.openIncident serverId kind message, opened := r.opened + 1 }

/-- Resolve an incident and count it. -/
def resolveIncident (r : Round) (inc : Incident) : Round :=
  { r with monitor := r.monitor.resolveIncident inc false, resolved := r.resolved + 1 }

/-- Resolve the incident, if there is one. -/
def resolveOpen (r : Round) (inc : Option Incident) : Round :=
  match inc with
  | some inc => r.resolveIncident inc
  | none => r

/-- The part of `evaluateIncidents` about a server that cannot be reached. -/
def evaluateReach (r : Round) (serverId : ServerId) (s : MonitoredServer)
    («open» : IncidentKind → Option Incident) (failThreshold : ℤ) (latest : ServerMetric)
    (recent : List ServerMetric) : Round :=
  let lastN := sliceFirst failThreshold recent
  let down := failThreshold ≤ lastN.length ∧ lastN.all fun m => !m.online
  if down then
    if («open» .offline).isNone && («open» .authError).isNone then
      r.openIncident serverId (if s.status = .authError then .authError else .offline) s.lastError
    else r
  else if latest.online then (r.resolveOpen («open» .offline)).resolveOpen («open» .authError)
  else r

/-- The part of `evaluateIncidents` about Xray, for a server that is online. -/
def evaluateXray (r : Round) (serverId : ServerId) (xi : Option Incident)
    (latest : ServerMetric) : Round :=
  let xrayDown := (latest.xrayState.bind orNull).any fun s => s ≠ "running"
  match xi with
  | none =>
      if xrayDown then r.openIncident serverId .xrayDown (latest.xrayState.map fun s =>
        "xray: " ++ s) else r
  | some inc => if !xrayDown then r.resolveIncident inc else r

/-- The part of `evaluateIncidents` about the load, for a server that is online. -/
def evaluateCpu (r : Round) (serverId : ServerId) (ci : Option Incident) (cpuThreshold : ℚ)
    (latest : ServerMetric) (recent : List ServerMetric) : Round :=
  let last3 := recent.take 3
  let cpuHigh := last3.length = 3 ∧ last3.all fun m => cpuThreshold ≤ m.cpu.getD 0
  match ci with
  | none =>
      if cpuHigh then
        r.openIncident serverId .highCpu
          (some ("CPU " ++ toString (mathRound (latest.cpu.getD 0)) ++ "%"))
      else r
  | some inc => if latest.cpu.getD 0 < max 0 (cpuThreshold - 10) then r.resolveIncident inc else r

/-- One turn of the loop of `evaluateIncidents`, for a server with these open incidents. -/
def evaluateServer (r : Round) (serverId : ServerId) (s : MonitoredServer)
    (incidents : List Incident) : Round :=
  let m := r.monitor.settings
  let recent := r.monitor.recentMetrics serverId
  let «open» := fun kind => incidents.find? fun i => i.kind = kind
  match recent with
  | [] => r
  | latest :: _ =>
      let r := r.evaluateReach serverId s «open» m.failThreshold latest recent
      if latest.online then
        (r.evaluateXray serverId («open» .xrayDown) latest).evaluateCpu serverId
          («open» .highCpu) m.cpuThreshold latest recent
      else r

end Round

namespace Monitor

/-- `evaluateIncidents`. The open incidents of all the servers are read before the first turn. -/
def evaluateIncidents (m : Monitor) : Round :=
  let servers := (m.servers.rows.filter fun row => row.2.isActive).map fun row =>
    (row, m.openIncidents row.1)
  servers.foldl (fun r row => r.evaluateServer row.1.1 row.1.2 row.2) ⟨m, 0, 0⟩

/-- `resolveIncidentManually`. -/
def resolveIncidentManually (m : Monitor) (id : ℕ) : Except AppError Monitor :=
  match m.incidents.find? fun i => i.id = id with
  | none => .error (notFoundError "رخداد پیدا نشد")
  | some inc => if inc.status = .resolved then .ok m else .ok (m.resolveIncident inc true)

/-- `pruneHistory`, of metrics and incidents. -/
def pruneHistory (m : Monitor) : Monitor :=
  { m with
    metrics := m.metrics.filter fun r => !(r.at' < m.now - 7 * 86400000)
    incidents := m.incidents.filter fun i =>
      !(i.status = .resolved && i.resolvedAt.any fun t => t < m.now - 90 * 86400000) }

end Monitor

/-- What happens to the monitoring. Metrics, servers and settings are the business of others. -/
inductive MonitorCall
  | wait (ms : ℕ)
  | metric (r : ServerMetric)
  | server (id : ServerId) (s : MonitoredServer)
  | settings (s : MonitoringSettings)
  | evaluateIncidents
  | resolveIncidentManually (id : ℕ)
  | pruneHistory

namespace Monitor

/-- The effect of a call. -/
def step (m : Monitor) : MonitorCall → Monitor
  | .wait ms => { m with now := m.now + ms }
  | .metric r => { m with metrics := m.metrics ++ [r] }
  | .server id s => { m with servers := m.servers.set id s }
  | .settings s => { m with settings := s }
  | .evaluateIncidents => m.evaluateIncidents.monitor
  | .resolveIncidentManually id => (m.resolveIncidentManually id).toOption.getD m
  | .pruneHistory => m.pruneHistory

/-- The state after calls, one after the other. -/
def run (m : Monitor) (calls : List MonitorCall) : Monitor := calls.foldl step m

/-- A monitoring with an empty book. -/
def start (now : ℤ) (nextId : ℕ) (servers : Table ServerId MonitoredServer)
    (metrics : List ServerMetric) (settings : MonitoringSettings) : Monitor where
  now := now
  nextId := nextId
  servers := servers
  metrics := metrics
  settings := settings
  incidents := []
  events := []

end Monitor

end SRPanel
