import Wacp.Library.Table
import Wacp.Model.SessionStore

/-!
# The session monitor

`console-core/src/session_monitor.rs`: what the events and `resolve_gate` of `routes/highway.rs` do
to the pending gates, the loop of a stream driver, and the tasks that keep `active_sessions`.
-/

namespace Wacp.Console

open Library

/-! ## Pending gates -/

structure GateEvent where
  (gateId workspaceId : String)
  deriving DecidableEq

structure TrailEvent where
  (workspaceId eventType : String)
  body : List UInt8

inductive GateStep where
  | gate (raw : GateEvent)
  | trail (raw : TrailEvent)
  | resolveGate (gid : String)

section Gates

variable (parseGateId : List UInt8 → Option String) (workspaces : WorkspaceSet)

def pendingGates (pending : List GateEvent) : GateStep → List GateEvent
  | .gate raw => if raw.workspaceId ∈ workspaces.members then pending ++ [raw] else pending
  | .trail raw =>
    if raw.workspaceId ∈ workspaces.members ∧ raw.eventType = "gate_resolved" then
      match parseGateId raw.body with
      | some gateId => pending.filter (·.gateId ≠ gateId)
      | none => pending
    else pending
  | .resolveGate gid => pending.filter (·.gateId ≠ gid)

end Gates

/-! ## The stream driver -/

/-- What a task does next. A launch inserts the handle of the monitor it has spawned and then
starts the watchdog, recovery the other way round. -/
inductive MonitorTask where
  | launchInsert (id : String) (monitor : ℕ)
  | launchWatch (id : String) (monitor : ℕ)
  | recoveryWatch (id : String) (monitor : ℕ)
  | recoveryInsert (id : String) (monitor : ℕ)
  | watchdogJoin (id : String) (monitor : ℕ)
  | watchdogRemove (id : String)
  | cancelRemove (id : String)
  | cancelShutdown (monitor : ℕ)
  deriving DecidableEq

structure MonitorState where
  sessionId : String
  running : Bool
  shutdown : Bool
  deriving DecidableEq

structure Registry where
  activeSessions : Table String ℕ
  monitors : List MonitorState
  tasks : List MonitorTask

inductive RegistryOp where
  | launch (id : String)
  | recover (id : String)
  | cancel (id : String)
  | monitorExit (monitor : ℕ)
  | task (t : MonitorTask)

namespace Registry

def empty : Registry := ⟨∅, [], []⟩

variable (s : Registry)

def spawn (id : String) (task : ℕ → MonitorTask) : Registry :=
  { s with
    monitors := s.monitors ++ [⟨id, true, false⟩], tasks := task s.monitors.length :: s.tasks }

def runs (monitor : ℕ) : Bool := (s.monitors[monitor]?).any (·.running)

/-- The effect of a task's next step, and what the tasks do after it; a watchdog that joins waits
for its monitor. -/
def perform : MonitorTask → Option (Registry × List MonitorTask)
  | .launchInsert id m =>
    some ({ s with activeSessions := s.activeSessions.set id m }, [.launchWatch id m])
  | .launchWatch id m => some (s, [.watchdogJoin id m])
  | .recoveryWatch id m => some (s, [.recoveryInsert id m, .watchdogJoin id m])
  | .recoveryInsert id m => some ({ s with activeSessions := s.activeSessions.set id m }, [])
  | .watchdogJoin id m => if s.runs m then none else some (s, [.watchdogRemove id])
  | .watchdogRemove id => some ({ s with activeSessions := s.activeSessions.remove id }, [])
  | .cancelRemove id =>
    some ({ s with activeSessions := s.activeSessions.remove id },
      (s.activeSessions.get id).toList.map .cancelShutdown)
  | .cancelShutdown m =>
    some ({ s with monitors := s.monitors.modify m fun x => { x with shutdown := true } }, [])

def step : RegistryOp → Option Registry
  | .launch id => some (s.spawn id (.launchInsert id))
  | .recover id => some (s.spawn id (.recoveryWatch id))
  | .cancel id => some { s with tasks := .cancelRemove id :: s.tasks }
  | .monitorExit m =>
    some { s with monitors := s.monitors.modify m fun x => { x with running := false } }
  | .task t =>
    if t ∈ s.tasks then
      (s.perform t).map fun (s', next) => { s' with tasks := next ++ s.tasks.erase t }
    else none

/-- No task can go on, and no monitor has been told to stop and not stopped yet. -/
def Quiet : Prop :=
  (∀ t ∈ s.tasks, s.perform t = none) ∧ ∀ m ∈ s.monitors, m.running → m.shutdown = false

end Registry

end Wacp.Console
