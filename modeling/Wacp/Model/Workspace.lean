import Mathlib.Data.Finset.Lattice.Fold
import Wacp.Model.Fsm

/-!
# The workspace actor

`wacp-workspace/src/state.rs` and `actor.rs`. An actor works on two channels, from the coordinator
and from its agent; the first has priority. Events go to an outbox: `send(..).await` may wait, and
the next message is taken once all sends went through. The channels of the source hold 64 messages;
here they are unbounded.
-/

namespace Wacp

/-! ## The state of a workspace -/

structure WorkspaceConfig where
  id : WorkspaceId
  role : String
  baseRole : BaseRole
  parent : WorkspaceId
  owner : UserId
  originator : Originator
  directive : Envelope
  context : List UInt8
  (visibility authority : Finset String)
  delegate : Bool
  budget : Option ResourceBudget
  deriving DecidableEq

structure ResourceMeter where
  usage : ResourceUsage
  budget : Option ResourceBudget
  deriving DecidableEq

/-- The source's `WorkspaceState` record (the enumeration of that name is the `status` field). -/
structure WorkspaceData where
  id : WorkspaceId
  status : WorkspaceState
  role : String
  baseRole : BaseRole
  parent : WorkspaceId
  owner : UserId
  originator : Originator
  delegate : Bool
  directive : Envelope
  inbox : List Envelope
  (context workingMemory : List UInt8)
  checkpointRegister : List Checkpoint
  resourceMeter : ResourceMeter
  trailSequence : ℕ
  (visibilitySet authoritySet deliveredEnvelopeIds : Finset String)
  deriving DecidableEq

structure ArchivedWorkspace where
  id : WorkspaceId
  terminalState : WorkspaceState
  role : String
  parent : WorkspaceId
  owner : UserId
  originator : Originator
  directive : Envelope
  context : List UInt8
  checkpoints : List Checkpoint
  finalUsage : ResourceUsage
  (visibility authority : Finset String)
  deriving DecidableEq

structure MigrationSnapshot where
  inbox : List Envelope
  workingMemory : List UInt8
  checkpointRegister : List Checkpoint
  resourceMeter : ResourceMeter
  trailSequence : ℕ
  deliveredEnvelopeIds : Finset String
  deriving DecidableEq

def priorityRank : EnvelopePriority → ℕ
  | .blocking => 2
  | .urgent => 1
  | .normal => 0

namespace WorkspaceData

def new (config : WorkspaceConfig) : WorkspaceData :=
  { id := config.id, status := .idle, role := config.role, baseRole := config.baseRole
    parent := config.parent, owner := config.owner, originator := config.originator
    delegate := config.delegate, directive := config.directive, inbox := []
    context := config.context, workingMemory := [], checkpointRegister := []
    resourceMeter := { usage := .default, budget := config.budget }
    trailSequence := 0, visibilitySet := config.visibility
    authoritySet := config.authority, deliveredEnvelopeIds := ∅ }

variable (d : WorkspaceData)

def grantVisibility (resources : List String) : WorkspaceData :=
  { d with visibilitySet := resources.foldl (fun set r => insert r set) d.visibilitySet }

def pushInbox (envelope : Envelope) : WorkspaceData :=
  let pos := d.inbox.findIdx fun e =>
    decide (priorityRank e.priority < priorityRank envelope.priority)
  { d with inbox := d.inbox.insertIdx pos envelope }

def popInbox : WorkspaceData × Option Envelope :=
  match d.inbox with
  | [] => (d, none)
  | envelope :: rest =>
    ({ d with inbox := rest
              deliveredEnvelopeIds := insert envelope.id.text d.deliveredEnvelopeIds },
      some envelope)

def isEnvelopeDelivered (id : String) : Bool :=
  decide (id ∈ d.deliveredEnvelopeIds)

def pushCheckpoint (cp : Checkpoint) : WorkspaceData :=
  { d with checkpointRegister := d.checkpointRegister ++ [cp] }

def lastCheckpoint : Option Checkpoint := d.checkpointRegister.getLast?

def captureSnapshot : MigrationSnapshot :=
  { inbox := d.inbox, workingMemory := d.workingMemory
    checkpointRegister := d.checkpointRegister, resourceMeter := d.resourceMeter
    trailSequence := d.trailSequence, deliveredEnvelopeIds := d.deliveredEnvelopeIds }

/-- The rest comes from the configuration of the workspace, the visibility set with it. -/
def restoreFromSnapshot (config : WorkspaceConfig) (snapshot : MigrationSnapshot)
    (restoreStatus : WorkspaceState) : WorkspaceData :=
  { id := config.id, status := restoreStatus, role := config.role, baseRole := config.baseRole
    parent := config.parent, owner := config.owner, originator := config.originator
    delegate := config.delegate, directive := config.directive, inbox := snapshot.inbox
    context := config.context, workingMemory := snapshot.workingMemory
    checkpointRegister := snapshot.checkpointRegister
    resourceMeter := snapshot.resourceMeter, trailSequence := snapshot.trailSequence
    visibilitySet := config.visibility, authoritySet := config.authority
    deliveredEnvelopeIds := snapshot.deliveredEnvelopeIds }

def archive : ArchivedWorkspace :=
  { id := d.id, terminalState := d.status, role := d.role, parent := d.parent
    owner := d.owner, originator := d.originator, directive := d.directive
    context := d.context, checkpoints := d.checkpointRegister
    finalUsage := d.resourceMeter.usage, visibility := d.visibilitySet
    authority := d.authoritySet }

end WorkspaceData

/-! ## Messages and events -/

inductive CoordinatorCommand where
  | abort
  | suspend
  | resume
  | migrateBegin
  | migrationComplete (restoreBlocked : Bool)
  | migrationFailed
  | integrationSucceeded
  | integrationFailed
  | conflictDetected
  | conflictResolved
  | conflictUnresolvable
  | grantVisibility (resources : List String)
  | updateBudget (budget : ResourceBudget)
  | deliverEnvelope (envelope : Envelope)
  | gracefulTermination (gracePeriodMs : ℕ)
  | checkpointApproved (checkpointId : String)
  | checkpointRejected (checkpointId : String)
  deriving DecidableEq

inductive AgentMessage where
  | emitSignal (signalType : SignalType) (reason : Option String) (context : Option (List UInt8))
  | createCheckpoint (checkpointType : String) (payload : List UInt8) (contentHash : String)
      (intent : String) (status : CheckpointStatus) (confidence : Confidence)
      (resourceUsage : Option ResourceUsage)
  deriving DecidableEq

inductive WorkspaceEvent where
  | signal (signal : Signal)
  | stateChanged (workspaceId : WorkspaceId) (before after : WorkspaceState)
  | terminated (archived : ArchivedWorkspace)
  | checkpointCreated (cp : Checkpoint)
  | migrationSnapshot (workspaceId : WorkspaceId) (snapshot : MigrationSnapshot)
  | error (workspaceId : WorkspaceId) (message : String)
  deriving DecidableEq

/-! ## The actor -/

/-- An actor with its two receivers, the events it still has to send, and whether its task has
ended. -/
structure WorkspaceActor where
  state : WorkspaceData
  coordinatorRx : List CoordinatorCommand
  agentRx : List AgentMessage
  firstEnvelopeReceived : Bool
  outbox : List WorkspaceEvent
  stopped : Bool
  deriving DecidableEq

namespace WorkspaceActor

def spawn (config : WorkspaceConfig) : WorkspaceActor :=
  { state := .new config, coordinatorRx := [], agentRx := [], firstEnvelopeReceived := false
    outbox := [], stopped := false }

variable (a : WorkspaceActor)

def emit (event : WorkspaceEvent) : WorkspaceActor :=
  { a with outbox := a.outbox ++ [event] }

def transition (a : WorkspaceActor) (trigger : WorkspaceTrigger) : WorkspaceActor :=
  match WorkspaceFsm.transition a.state.status trigger with
  | .ok next =>
    { a with state := { a.state with status := next } }.emit
      (.stateChanged a.state.id a.state.status next)
  | .error e => a.emit (.error a.state.id e.message)

def handleCoordinatorCmd : CoordinatorCommand → WorkspaceActor
  | .abort => a.transition .coordinatorAbort
  | .suspend => a.transition .coordinatorSuspend
  | .resume => a.transition .coordinatorResume
  | .migrateBegin =>
    let a₁ := a.transition .coordinatorMigrate
    -- captured and emitted if the transition succeeded (or the workspace was migrating already)
    if a₁.state.status = .migrating then
      a₁.emit (.migrationSnapshot a₁.state.id a₁.state.captureSnapshot)
    else a₁
  | .migrationComplete restoreBlocked =>
    a.transition (if restoreBlocked then .migrationSucceededBlocked else .migrationSucceeded)
  | .migrationFailed => a.transition .migrationFailed
  | .integrationSucceeded => a.transition .integrationSucceeded
  | .integrationFailed => a.transition .integrationFailed
  | .conflictDetected => a.transition .conflictDetected
  | .conflictResolved => a.transition .conflictResolved
  | .conflictUnresolvable => a.transition .conflictUnresolvable
  | .grantVisibility resources => { a with state := a.state.grantVisibility resources }
  | .updateBudget budget =>
    { a with state := { a.state with
        resourceMeter := { a.state.resourceMeter with budget := some budget } } }
  | .deliverEnvelope envelope =>
    if a.state.isEnvelopeDelivered envelope.id.text then a
    else
      let a₁ :=
        if a.firstEnvelopeReceived = false ∧ a.state.status = .idle then
          { a with firstEnvelopeReceived := true }.transition .receiveFirstEnvelope
        else a
      { a₁ with state := a₁.state.pushInbox envelope }
  | .gracefulTermination _ => a
  | .checkpointApproved _ => a.transition .agentStarted
  | .checkpointRejected _ => a.transition .coordinatorAbort

def signalTrigger : SignalType → Option WorkspaceTrigger
  | .started => some .agentStarted
  | .blocked => some .agentBlocked
  | .complete => some .agentComplete
  | .failed => some .agentFailed
  | _ => none

def handleCreateCheckpoint (checkpointType : String) (payload : List UInt8)
    (contentHash intent : String) (status : CheckpointStatus) (confidence : Confidence)
    (resourceUsage : Option ResourceUsage) : WorkspaceActor :=
  let cp : Checkpoint :=
    { id := ⟨"cp-" ++ toString a.state.checkpointRegister.length⟩
      workspaceId := a.state.id, checkpointType := checkpointType, payload := payload
      contentHash := contentHash, intent := intent
      parentCheckpoint := a.state.lastCheckpoint.map (·.id), status := status
      confidence := confidence, timestamp := 0, resourceUsage := resourceUsage }
  let usage := a.state.resourceMeter.usage
  let metered := { a.state with resourceMeter := { a.state.resourceMeter with
    usage := { usage with storageBytes := usage.storageBytes + payload.length } } }
  let a₁ := { a with state := metered.pushCheckpoint cp }
  let a₂ := (a₁.emit (.checkpointCreated cp)).emit (.signal
    { signalType := .checkpoint, workspaceId := a.state.id, timestamp := 0, reason := none
      context := none })
  if status = .provisional then a₂.transition .agentBlocked else a₂

def handleAgentMsg (msg : AgentMessage) : WorkspaceActor :=
  if a.state.status = .migrating then a
  else
    match msg with
    | .emitSignal signalType reason context =>
      let a₁ :=
        match signalTrigger signalType with
        | some trigger => a.transition trigger
        | none => a
      a₁.emit (.signal
        { signalType := signalType, workspaceId := a₁.state.id, timestamp := 0, reason := reason
          context := context })
    | .createCheckpoint checkpointType payload contentHash intent status confidence usage =>
      a.handleCreateCheckpoint checkpointType payload contentHash intent status confidence usage

/-- One turn of the loop of `run`, once all sends went through: a terminal workspace is archived
and the task ends, and with it both channels; otherwise a command is taken, or if there is none
an agent message. `none` while there is neither. -/
def turn : Option WorkspaceActor :=
  if a.state.status.isTerminal then
    some { a.emit (.terminated a.state.archive) with
      coordinatorRx := [], agentRx := [], stopped := true }
  else
    match a.coordinatorRx, a.agentRx with
    | cmd :: rest, _ => some ({ a with coordinatorRx := rest }.handleCoordinatorCmd cmd)
    | [], msg :: rest => some ({ a with agentRx := rest }.handleAgentMsg msg)
    | [], [] => none

end WorkspaceActor

end Wacp
