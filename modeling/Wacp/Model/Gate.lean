import Wacp.Library.Table
import Wacp.Model.Types

/-!
# Approval gates

`wacp-coordinator/src/gate.rs`. Task gates and checkpoint gates are in two tables and share one
counter. A task gate is answered by `resolve`, a checkpoint gate by `resolve_checkpoint`; `timeout`
is for both.
-/

namespace Wacp

open Library

inductive GateType where
  | taskApproval | workspaceCreate | envelopeDelivery | integration | conflictResolution
  | workspaceAbort | checkpointApproval
  deriving DecidableEq

inductive GateDecision where
  | approve | reject | modify
  deriving DecidableEq

structure GateEvent where
  gateId : String
  gateType : GateType
  subject : List UInt8
  workspaceId : WorkspaceId
  taskId : Option TaskId
  timeoutMs : ℕ
  fallbackAction : String
  createdAt : ℕ
  deriving DecidableEq

inductive GateFallback where
  | autoApprove | cancel
  deriving DecidableEq

def GateFallback.action : GateFallback → String
  | .autoApprove => "auto_approve"
  | .cancel => "cancel"

structure PendingGate where
  gateId : String
  taskId : TaskId
  taskName : String
  timeoutMs : ℕ
  fallback : GateFallback
  createdAt : ℕ
  deriving DecidableEq

structure PendingCheckpointGate where
  gateId : String
  workspaceId : WorkspaceId
  checkpointId : CheckpointId
  checkpointType : String
  timeoutMs : ℕ
  fallback : GateFallback
  createdAt : ℕ
  deriving DecidableEq

inductive GateResolution where
  | approved (source : String)
  | rejected
  deriving DecidableEq

structure GateController where
  pending : Table String PendingGate
  pendingCheckpoints : Table String PendingCheckpointGate
  (nextId defaultTimeoutMs : ℕ)
  defaultFallback : GateFallback
  deriving DecidableEq

namespace GateController

def new (defaultTimeoutMs : ℕ) (defaultFallback : GateFallback) : GateController :=
  { pending := ∅, pendingCheckpoints := ∅, nextId := 1, defaultTimeoutMs := defaultTimeoutMs
    defaultFallback := defaultFallback }

/-! ## Task gates -/

variable (c : GateController)

def taskGate (taskId : TaskId) (taskName : String) (timeoutMs : Option ℕ)
    (fallback : Option GateFallback) : PendingGate :=
  { gateId := "gate-" ++ toString c.nextId, taskId := taskId, taskName := taskName
    timeoutMs := timeoutMs.getD c.defaultTimeoutMs
    fallback := fallback.getD c.defaultFallback, createdAt := 0 }

def openGate (taskId : TaskId) (taskName taskDescription : String) (timeoutMs : Option ℕ)
    (fallback : Option GateFallback) : GateController × GateEvent :=
  let gate := c.taskGate taskId taskName timeoutMs fallback
  ({ c with nextId := c.nextId + 1, pending := c.pending.set gate.gateId gate },
    { gateId := gate.gateId, gateType := .taskApproval
      subject := taskDescription.toUTF8.data.toList, workspaceId := ⟨""⟩, taskId := some taskId
      timeoutMs := gate.timeoutMs, fallbackAction := gate.fallback.action, createdAt := 0 })

def humanResolution : GateDecision → GateResolution
  | .approve => .approved "human"
  | .modify => .approved "human"
  | .reject => .rejected

def timeoutResolution : GateFallback → GateResolution
  | .autoApprove => .approved "timeout_auto_approve"
  | .cancel => .rejected

variable (gateId : String)

def resolve (decision : GateDecision) : GateController × Option GateResolution :=
  ({ c with pending := c.pending.remove gateId },
    (c.pending.get gateId).map fun _ => humanResolution decision)

def timeout : GateController × Option GateResolution :=
  ({ c with pending := c.pending.remove gateId },
    (c.pending.get gateId).map fun gate => timeoutResolution gate.fallback)

def isPending : Bool := c.pending.contains gateId

/-! ## Checkpoint gates -/

def checkpointGate (workspaceId : WorkspaceId) (checkpointId : CheckpointId)
    (checkpointType : String) (timeoutMs : Option ℕ) (fallback : Option GateFallback) :
    PendingCheckpointGate :=
  { gateId := "gate-" ++ toString c.nextId, workspaceId := workspaceId
    checkpointId := checkpointId, checkpointType := checkpointType
    timeoutMs := timeoutMs.getD c.defaultTimeoutMs
    fallback := fallback.getD c.defaultFallback, createdAt := 0 }

def openCheckpointGate (workspaceId : WorkspaceId) (checkpointId : CheckpointId)
    (checkpointType : String) (timeoutMs : Option ℕ) (fallback : Option GateFallback) :
    GateController × GateEvent :=
  let gate := c.checkpointGate workspaceId checkpointId checkpointType timeoutMs fallback
  ({ c with
      nextId := c.nextId + 1
      pendingCheckpoints := c.pendingCheckpoints.set gate.gateId gate },
    { gateId := gate.gateId, gateType := .checkpointApproval
      subject := checkpointId.text.toUTF8.data.toList, workspaceId := workspaceId, taskId := none
      timeoutMs := gate.timeoutMs, fallbackAction := gate.fallback.action, createdAt := 0 })

def resolveCheckpoint : GateController × Option PendingCheckpointGate :=
  ({ c with pendingCheckpoints := c.pendingCheckpoints.remove gateId },
    c.pendingCheckpoints.get gateId)

def isCheckpointPending : Bool :=
  c.pendingCheckpoints.contains gateId

end GateController

end Wacp
