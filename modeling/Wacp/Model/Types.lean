import Mathlib.Data.Finset.Basic

/-!
# The protocol's types

Identifiers, enumerations and records of `wacp-types`. A `HashMap` keyed by `id.to_string()` is a
table keyed by the identifier. `u64` counters and timestamps are naturals; the `f32`
`warning_threshold` is its bit pattern.
-/

namespace Wacp

/-! ## Identifiers (wacp-types/src/id.rs) -/

structure WorkspaceId where
  text : String
  deriving DecidableEq

structure EnvelopeId where
  text : String
  deriving DecidableEq

structure CheckpointId where
  text : String
  deriving DecidableEq

structure TaskId where
  text : String
  deriving DecidableEq

structure UserId where
  text : String
  deriving DecidableEq

/-! ## Enumerations (wacp-types/src/enums.rs) -/

inductive SignalType where
  | ready | started | blocked | checkpoint | complete | failed
  | integrate | acknowledged | escalation | suspend | migrate
  deriving DecidableEq

def SignalType.debug : SignalType → String
  | .ready => "Ready"
  | .started => "Started"
  | .blocked => "Blocked"
  | .checkpoint => "Checkpoint"
  | .complete => "Complete"
  | .failed => "Failed"
  | .integrate => "Integrate"
  | .acknowledged => "Acknowledged"
  | .escalation => "Escalation"
  | .suspend => "Suspend"
  | .migrate => "Migrate"

inductive WorkspaceState where
  | idle | active | blocked | suspended | migrating | integrating | conflicted
  | closed | failed
  deriving DecidableEq

def WorkspaceState.isTerminal : WorkspaceState → Bool
  | .closed | .failed => true
  | _ => false

def WorkspaceState.debug : WorkspaceState → String
  | .idle => "Idle"
  | .active => "Active"
  | .blocked => "Blocked"
  | .suspended => "Suspended"
  | .migrating => "Migrating"
  | .integrating => "Integrating"
  | .conflicted => "Conflicted"
  | .closed => "Closed"
  | .failed => "Failed"

inductive TaskStatus where
  | draft | pending | assigned | inProgress | completed | failed | integrated | cancelled
  deriving DecidableEq

/-- `matches!(status, Integrated | Cancelled)`, the test every task function writes out. -/
def TaskStatus.isTerminal : TaskStatus → Bool
  | .integrated | .cancelled => true
  | _ => false

def TaskStatus.debug : TaskStatus → String
  | .draft => "Draft"
  | .pending => "Pending"
  | .assigned => "Assigned"
  | .inProgress => "InProgress"
  | .completed => "Completed"
  | .failed => "Failed"
  | .integrated => "Integrated"
  | .cancelled => "Cancelled"

inductive CheckpointStatus where
  | provisional | final
  deriving DecidableEq

def CheckpointStatus.debug : CheckpointStatus → String
  | .provisional => "Provisional"
  | .final => "Final"

inductive Confidence where
  | high | medium | low
  deriving DecidableEq

inductive EnvelopePriority where
  | normal | urgent | blocking
  deriving DecidableEq

inductive EnvelopeOrigin where
  | agent | human
  deriving DecidableEq

inductive EnvelopeState where
  | created | validated | delivered | acknowledged | rejected
  deriving DecidableEq

inductive BaseRole where
  | coordinator | worker | observer
  deriving DecidableEq

inductive MergeStrategy where
  | direct | layered | evaluated
  deriving DecidableEq

inductive IntegrationMode where
  | normal | salvage
  deriving DecidableEq

inductive PortRightType where
  | send | receive | sendOnce
  deriving DecidableEq

inductive Originator where
  | system
  | user (id : UserId)
  deriving DecidableEq

/-! ## Records -/

structure ResourceUsage where
  (tokens wallTimeMs storageBytes networkBytes costMicros : ℕ)
  deriving DecidableEq

def ResourceUsage.default : ResourceUsage := ⟨0, 0, 0, 0, 0⟩

/-- Per-workspace resource limits; `warningThreshold` is the bit pattern of the `f32`. -/
structure ResourceBudget where
  (maxTokens maxWallTimeMs maxStorageBytes maxNetworkBytes maxCostMicros : Option ℕ)
  warningThreshold : UInt32
  deriving DecidableEq

structure Envelope where
  id : EnvelopeId
  (fromWorkspace toWorkspace : WorkspaceId)
  envelopeType : String
  payload : List UInt8
  inReplyTo : Option EnvelopeId
  timestamp : ℕ
  priority : EnvelopePriority
  origin : EnvelopeOrigin
  state : EnvelopeState
  deriving DecidableEq

structure Checkpoint where
  id : CheckpointId
  workspaceId : WorkspaceId
  checkpointType : String
  payload : List UInt8
  (contentHash intent : String)
  parentCheckpoint : Option CheckpointId
  status : CheckpointStatus
  confidence : Confidence
  timestamp : ℕ
  resourceUsage : Option ResourceUsage
  deriving DecidableEq

structure Signal where
  signalType : SignalType
  workspaceId : WorkspaceId
  timestamp : ℕ
  reason : Option String
  context : Option (List UInt8)
  deriving DecidableEq

structure Task where
  id : TaskId
  (name description : String)
  dependsOn : List TaskId
  parentTask : Option TaskId
  status : TaskStatus
  workspaceRef : Option WorkspaceId
  workspaceHistory : List WorkspaceId
  checkpointRef : Option CheckpointId
  deriving DecidableEq

/-! ## JSON values (serde_json::Value) -/

/-- A JSON value; a float is kept as its bit pattern. The keys of an object are distinct. -/
inductive JsonValue where
  | null
  | bool (b : Bool)
  | posInt (n : UInt64)
  | negInt (n : ℤ)
  | float (bits : UInt64)
  | string (s : String)
  | array (items : List JsonValue)
  | object (fields : List (String × JsonValue))

namespace JsonValue

def get (value : JsonValue) (key : String) : Option JsonValue :=
  match value with
  | .object fields => (fields.find? fun field => field.1 = key).map Prod.snd
  | _ => none

def asStr : JsonValue → Option String
  | .string s => some s
  | _ => none

def asU64 : JsonValue → Option UInt64
  | .posInt n => some n
  | _ => none

def asObject : JsonValue → Option (List (String × JsonValue))
  | .object fields => some fields
  | _ => none

def getStr (value : JsonValue) (key : String) : Option String := (value.get key).bind asStr

end JsonValue

end Wacp
