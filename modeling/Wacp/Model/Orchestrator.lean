import Wacp.Model.Tree
import Wacp.Model.TaskGraph
import Wacp.Model.Workspace

/-!
# The coordinator and its actors

`wacp-coordinator/src/orchestrator.rs` with the parts of `migration.rs` and `integration.rs` it
calls, and the workspace actors in the order they were spawned, handles to them, and one event
channel. A step is one thing one party does: the coordinator dispatches, sends a command or handles
the next event; an agent sends a message; an actor takes a turn, gets one event through, or ends
because nobody can send to it any more. `handle_event` may not return when the traversals of the
tree do not.
-/

namespace Wacp

open Library

/-! ## Migrations -/

structure AgentRef where
  agentType : String
  config : Option (List UInt8)
  deriving DecidableEq

structure MigrationRequest where
  workspaceId : WorkspaceId
  newAgent : AgentRef
  reason : String
  deriving DecidableEq

structure MigrationContext where
  workspaceId : WorkspaceId
  preMigrationState : WorkspaceState
  oldAgent : String
  newAgent : AgentRef
  reason : String
  snapshot : Option MigrationSnapshot
  startedAtMs : ℕ
  deriving DecidableEq

inductive MigrationError where
  | workspaceNotFound (id : String)
  | invalidState (state : WorkspaceState)
  | alreadyMigrating (id : String)
  | notMigrating (id : String)
  | snapshotAlreadySet (id : String)
  deriving DecidableEq

structure MigrationCoordinator where
  active : Table WorkspaceId MigrationContext
  timeoutMs : ℕ
  deriving DecidableEq

namespace MigrationCoordinator

def new (timeoutMs : ℕ) : MigrationCoordinator := { active := ∅, timeoutMs := timeoutMs }

variable (m : MigrationCoordinator)

def start (request : MigrationRequest) (currentState : WorkspaceState) (oldAgent : String)
    (nowMs : ℕ) : Except MigrationError MigrationCoordinator :=
  if currentState ≠ .active ∧ currentState ≠ .blocked then .error (.invalidState currentState)
  else if m.active.contains request.workspaceId then
    .error (.alreadyMigrating request.workspaceId.text)
  else
    let ctx : MigrationContext :=
      { workspaceId := request.workspaceId, preMigrationState := currentState
        oldAgent := oldAgent, newAgent := request.newAgent, reason := request.reason
        snapshot := none, startedAtMs := nowMs }
    .ok { m with active := m.active.set request.workspaceId ctx }

variable (workspaceId : WorkspaceId)

def setSnapshot (snapshot : MigrationSnapshot) : Except MigrationError MigrationCoordinator :=
  match m.active.get workspaceId with
  | none => .error (.notMigrating workspaceId.text)
  | some ctx =>
    if ctx.snapshot.isSome then .error (.snapshotAlreadySet workspaceId.text)
    else .ok { m with active := m.active.set workspaceId { ctx with snapshot := some snapshot } }

def take : Except MigrationError (MigrationCoordinator × MigrationContext) :=
  match m.active.get workspaceId with
  | none => .error (.notMigrating workspaceId.text)
  | some ctx => .ok ({ m with active := m.active.remove workspaceId }, ctx)

def complete : Except MigrationError (MigrationCoordinator × MigrationContext) :=
  m.take workspaceId

def fail (_error : String) (_step : ℕ) :
    Except MigrationError (MigrationCoordinator × MigrationContext) :=
  m.take workspaceId

def isMigrating : Bool :=
  m.active.contains workspaceId

end MigrationCoordinator

/-! ## Integration -/

/-- The outcome of an integration; no modelled function reads what the source attaches to the
last two. -/
inductive IntegrationResult where
  | success | conflict | failed
  deriving DecidableEq

def IntegrationEngine.integrate (mode : IntegrationMode) (strategy : MergeStrategy)
    (_checkpoint : Checkpoint) : IntegrationResult :=
  match mode with
  | .salvage => .success
  | .normal =>
    match strategy with
    | .direct => .success
    | .layered => .success
    | .evaluated => .success

/-! ## The coordinator -/

structure DispatchRequest where
  taskId : TaskId
  config : WorkspaceConfig
  deriving DecidableEq

structure Coordinator where
  tree : WorkspaceTree
  taskGraph : TaskGraph
  migration : MigrationCoordinator
  workspaceHandles : Table WorkspaceId ℕ
  lastCheckpoint : Table WorkspaceId Checkpoint
  deriving DecidableEq

namespace Coordinator

def new (rootId : WorkspaceId) (owner : UserId) : Coordinator :=
  { tree := .new rootId owner, taskGraph := .new, migration := .new 60000
    workspaceHandles := ∅, lastCheckpoint := ∅ }

def nodeOf (request : DispatchRequest) : WorkspaceNode :=
  { id := request.config.id, parent := some request.config.parent, children := []
    owner := request.config.owner, originator := request.config.originator, status := .idle
    taskId := some request.taskId }

variable (c : Coordinator)

/-- Dispatch to the actor with number `handle`. An error of the tree is ignored. -/
def dispatch (request : DispatchRequest) (handle : ℕ) : Coordinator :=
  { c with
    tree :=
      match c.tree.insert (nodeOf request) with
      | .ok tree => tree
      | .error _ => c.tree
    workspaceHandles := c.workspaceHandles.set request.config.id handle }

variable (workspaceId : WorkspaceId)

def autoIntegrate : List (ℕ × CoordinatorCommand) :=
  match c.workspaceHandles.get workspaceId with
  | none => []
  | some handle =>
    let cmd :=
      match c.lastCheckpoint.get workspaceId with
      | some checkpoint =>
        match IntegrationEngine.integrate .normal .direct checkpoint with
        | .success => .integrationSucceeded
        | .conflict => .conflictDetected
        | .failed => .integrationFailed
      | none => .integrationSucceeded
    [(handle, cmd)]

/-- The tree after a change of state: the new status, and the cascade when it is Failed. -/
def recordState (tree : WorkspaceTree) (workspaceId : WorkspaceId) (status : WorkspaceState) :
    Option WorkspaceTree :=
  let tree' := tree.updateStatus workspaceId status
  if status = .failed then (tree'.cascadeFailure workspaceId).map Prod.fst else some tree'

def handleEvent : WorkspaceEvent → Option (Coordinator × List (ℕ × CoordinatorCommand))
  | .stateChanged workspaceId _ after =>
    (recordState c.tree workspaceId after).map fun tree =>
      let c' := { c with tree := tree }
      (c', if after = .integrating then c'.autoIntegrate workspaceId else [])
  | .checkpointCreated cp =>
    some ({ c with lastCheckpoint := c.lastCheckpoint.set cp.workspaceId cp }, [])
  | .terminated archived =>
    some ({ c with
      tree := c.tree.updateStatus archived.id archived.terminalState
      workspaceHandles := c.workspaceHandles.remove archived.id
      lastCheckpoint := c.lastCheckpoint.remove archived.id }, [])
  | .migrationSnapshot workspaceId snapshot =>
    match c.migration.setSnapshot workspaceId snapshot with
    | .ok migration => some ({ c with migration := migration }, [])
    | .error _ => some (c, [])
  | .signal _ => some (c, [])
  | .error _ _ => some (c, [])

/-- A command for a workspace, if the coordinator holds its handle (`abort_workspace`,
`route_envelope`, and the runtime's sends through `handle`). -/
def command (cmd : CoordinatorCommand) : List (ℕ × CoordinatorCommand) :=
  match c.workspaceHandles.get workspaceId with
  | none => []
  | some handle => [(handle, cmd)]

def startMigration (request : MigrationRequest) (oldAgent : String) (nowMs : ℕ) :
    Except MigrationError (Coordinator × List (ℕ × CoordinatorCommand)) :=
  match c.tree.get request.workspaceId with
  | none => .error (.workspaceNotFound request.workspaceId.text)
  | some node =>
    match c.migration.start request node.status oldAgent nowMs with
    | .error e => .error e
    | .ok migration =>
      .ok ({ c with migration := migration }, c.command request.workspaceId .migrateBegin)

def completeMigration : Option (Coordinator × List (ℕ × CoordinatorCommand)) :=
  match c.migration.active.get workspaceId with
  | none => none
  | some ctx =>
    let sent := c.command workspaceId
      (.migrationComplete (decide (ctx.preMigrationState = .blocked)))
    match c.migration.complete workspaceId with
    | .ok (migration, _) => some ({ c with migration := migration }, sent)
    | .error _ => some (c, sent)

def failMigration (error : String) (step : ℕ) :
    Option (Coordinator × List (ℕ × CoordinatorCommand)) :=
  match c.migration.fail workspaceId error step with
  | .error _ => none
  | .ok (migration, _) =>
    some ({ c with migration := migration }, c.command workspaceId .migrationFailed)

end Coordinator

/-! ## The system -/

/-- The coordinator, the actors in the order of spawning, and the event channel. -/
structure System where
  coordinator : Coordinator
  actors : List WorkspaceActor
  events : List WorkspaceEvent

namespace System

def init (rootId : WorkspaceId) (owner : UserId) : System :=
  { coordinator := .new rootId owner, actors := [], events := [] }

/-- Put a command into the channel of an actor; one that has ended does not receive it. -/
def deliver (actors : List WorkspaceActor) (sent : ℕ × CoordinatorCommand) : List WorkspaceActor :=
  actors.modify sent.1 fun a =>
    if a.stopped then a else { a with coordinatorRx := a.coordinatorRx ++ [sent.2] }

def send (s : System) (r : Coordinator × List (ℕ × CoordinatorCommand)) : System :=
  { s with coordinator := r.1, actors := r.2.foldl deliver s.actors }

def dispatch (s : System) (request : DispatchRequest) : System :=
  { s with
    coordinator := s.coordinator.dispatch request s.actors.length
    actors := s.actors ++ [.spawn request.config] }

inductive Label where
  | dispatch (request : DispatchRequest)
  | command (workspaceId : WorkspaceId) (cmd : CoordinatorCommand)
  | startMigration (request : MigrationRequest) (oldAgent : String) (nowMs : ℕ)
  | completeMigration (workspaceId : WorkspaceId)
  | failMigration (workspaceId : WorkspaceId) (error : String) (step : ℕ)
  | agent (actor : ℕ) (msg : AgentMessage)
  | turn (actor : ℕ)
  | flush (actor : ℕ)
  | hangUp (actor : ℕ)
  | handleEvent

def apply (s : System) : Label → Option System
  | .dispatch request => some (s.dispatch request)
  | .command workspaceId cmd => some (s.send (s.coordinator, s.coordinator.command workspaceId cmd))
  | .startMigration request oldAgent nowMs =>
    match s.coordinator.startMigration request oldAgent nowMs with
    | .ok r => some (s.send r)
    | .error _ => some s
  | .completeMigration workspaceId =>
    match s.coordinator.completeMigration workspaceId with
    | some r => some (s.send r)
    | none => some s
  | .failMigration workspaceId error step =>
    match s.coordinator.failMigration workspaceId error step with
    | some r => some (s.send r)
    | none => some s
  | .agent actor msg =>
    some { s with actors := s.actors.modify actor fun a =>
      if a.stopped then a else { a with agentRx := a.agentRx ++ [msg] } }
  | .turn actor =>
    match s.actors[actor]? with
    | none => none
    | some a =>
      if a.stopped = false ∧ a.outbox = [] then
        a.turn.map fun a' => { s with actors := s.actors.set actor a' }
      else none
  | .flush actor =>
    match s.actors[actor]? with
    | none => none
    | some a =>
      match a.outbox with
      | [] => none
      | event :: rest =>
        some { s with
          actors := s.actors.set actor { a with outbox := rest }
          events := s.events ++ [event] }
  | .hangUp actor =>
    match s.actors[actor]? with
    | none => none
    | some a =>
      -- both channels closed and empty: the handle is gone
      if a.stopped = false ∧ a.outbox = [] ∧ a.coordinatorRx = [] ∧ a.agentRx = [] ∧
          s.coordinator.workspaceHandles.get a.state.id ≠ some actor then
        some { s with actors := s.actors.set actor { a with stopped := true } }
      else none
  | .handleEvent =>
    match s.events with
    | [] => none
    | event :: rest =>
      (s.coordinator.handleEvent event).map fun r => { s with events := rest }.send r

def Step (s : System) (label : Label) (s' : System) : Prop := s.apply label = some s'

/-- All queues are empty: no command, no agent message, no event on its way. -/
def Quiescent (s : System) : Prop :=
  s.events = [] ∧ ∀ a ∈ s.actors, a.coordinatorRx = [] ∧ a.agentRx = [] ∧ a.outbox = []

end System

end Wacp
