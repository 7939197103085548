import Wacp.Model.Workspace

/-!
# The status after a message

What a turn does to the status depends on it and on the trigger of the message only. Two messages
are apart: an envelope moves an idle workspace only if it is the first, and a migrating one drops
what its agent says.
-/

namespace Wacp.WorkspaceActor

def afterTrigger (status : WorkspaceState) (trigger : WorkspaceTrigger) : WorkspaceState :=
  match WorkspaceFsm.transition status trigger with
  | .ok next => next
  | .error _ => status

theorem status_transition {a : WorkspaceActor} {trigger : WorkspaceTrigger} :
    (a.transition trigger).state.status = afterTrigger a.state.status trigger := by
  unfold transition afterTrigger
  cases WorkspaceFsm.transition a.state.status trigger <;> rfl

/-- The trigger of a command; an envelope has one only while the workspace is idle. -/
def commandTrigger : CoordinatorCommand → Option WorkspaceTrigger
  | .abort => some .coordinatorAbort
  | .suspend => some .coordinatorSuspend
  | .resume => some .coordinatorResume
  | .migrateBegin => some .coordinatorMigrate
  | .migrationComplete restoreBlocked =>
    some (if restoreBlocked then .migrationSucceededBlocked else .migrationSucceeded)
  | .migrationFailed => some .migrationFailed
  | .integrationSucceeded => some .integrationSucceeded
  | .integrationFailed => some .integrationFailed
  | .conflictDetected => some .conflictDetected
  | .conflictResolved => some .conflictResolved
  | .conflictUnresolvable => some .conflictUnresolvable
  | .grantVisibility _ => none
  | .updateBudget _ => none
  | .deliverEnvelope _ => none
  | .gracefulTermination _ => none
  | .checkpointApproved _ => some .agentStarted
  | .checkpointRejected _ => some .coordinatorAbort

def messageTrigger : AgentMessage → Option WorkspaceTrigger
  | .emitSignal signalType _ _ => signalTrigger signalType
  | .createCheckpoint _ _ _ _ status _ _ =>
    if status = .provisional then some .agentBlocked else none

def after (status : WorkspaceState) : Option WorkspaceTrigger → WorkspaceState
  | some trigger => afterTrigger status trigger
  | none => status

theorem status_handleCoordinatorCmd (a : WorkspaceActor) (cmd : CoordinatorCommand)
    (hidle : a.state.status ≠ .idle) :
    (a.handleCoordinatorCmd cmd).state.status = after a.state.status (commandTrigger cmd) := by
  cases cmd with
  | migrateBegin =>
    rw [commandTrigger, after, ← status_transition]
    show (if _ then _ else _ : WorkspaceActor).state.status = _
    split <;> rfl
  | grantVisibility | updateBudget | gracefulTermination => rfl
  | deliverEnvelope =>
    show (if _ then _ else _ : WorkspaceActor).state.status = _
    rw [if_neg (fun h : a.firstEnvelopeReceived = false ∧ _ => hidle h.2)]
    split <;> rfl
  | _ => exact status_transition

theorem status_handleAgentMsg (a : WorkspaceActor) (msg : AgentMessage)
    (hmigrating : a.state.status ≠ .migrating) :
    (a.handleAgentMsg msg).state.status = after a.state.status (messageTrigger msg) := by
  unfold handleAgentMsg
  rw [if_neg hmigrating]
  cases msg with
  | emitSignal signalType =>
    cases htrigger : signalTrigger signalType with
    | none => simp only [messageTrigger, htrigger]; rfl
    | some trigger =>
      simp only [messageTrigger, htrigger]
      exact status_transition
  | createCheckpoint =>
    simp only [handleCreateCheckpoint, messageTrigger]
    split
    · exact status_transition
    · rfl

end Wacp.WorkspaceActor
