import Wacp.Model.Types

/-!
# The lifecycle state machines

Of `wacp-fsm`, the workspace lifecycle with nine states and the task lifecycle with eight statuses.
A transition is a new state or an error that names the state and the trigger.
-/

namespace Wacp

inductive TransitionError where
  | illegalTransition (state trigger : String)
  | terminalState (state : String)
  deriving DecidableEq

def TransitionError.message : TransitionError → String
  | .illegalTransition state trigger => "illegal transition: " ++ state ++ " + " ++ trigger
  | .terminalState state => "terminal state: " ++ state ++ " rejects all triggers"

/-! ## Workspaces -/

inductive WorkspaceTrigger where
  | agentReady | agentStarted | agentBlocked | agentComplete | agentFailed
  | receiveFirstEnvelope | coordinatorAbort | coordinatorSuspend | coordinatorResume
  | coordinatorMigrate | migrationSucceeded | migrationSucceededBlocked | migrationFailed
  | integrationSucceeded | integrationFailed | conflictDetected | conflictResolved
  | conflictUnresolvable
  | timeoutExceeded | budgetExceeded | creationError
  deriving DecidableEq

def WorkspaceTrigger.debug : WorkspaceTrigger → String
  | .agentReady => "AgentReady"
  | .agentStarted => "AgentStarted"
  | .agentBlocked => "AgentBlocked"
  | .agentComplete => "AgentComplete"
  | .agentFailed => "AgentFailed"
  | .receiveFirstEnvelope => "ReceiveFirstEnvelope"
  | .coordinatorAbort => "CoordinatorAbort"
  | .coordinatorSuspend => "CoordinatorSuspend"
  | .coordinatorResume => "CoordinatorResume"
  | .coordinatorMigrate => "CoordinatorMigrate"
  | .migrationSucceeded => "MigrationSucceeded"
  | .migrationSucceededBlocked => "MigrationSucceededBlocked"
  | .migrationFailed => "MigrationFailed"
  | .integrationSucceeded => "IntegrationSucceeded"
  | .integrationFailed => "IntegrationFailed"
  | .conflictDetected => "ConflictDetected"
  | .conflictResolved => "ConflictResolved"
  | .conflictUnresolvable => "ConflictUnresolvable"
  | .timeoutExceeded => "TimeoutExceeded"
  | .budgetExceeded => "BudgetExceeded"
  | .creationError => "CreationError"

/-- The legal edges of the workspace lifecycle, terminal states aside. -/
def workspaceEdge : WorkspaceState → WorkspaceTrigger → Option WorkspaceState
  -- Idle
  | .idle, .receiveFirstEnvelope => some .active
  | .idle, .creationError => some .failed
  | .idle, .timeoutExceeded => some .failed
  | .idle, .coordinatorAbort => some .failed
  | .idle, .budgetExceeded => some .failed
  -- Active
  | .active, .agentBlocked => some .blocked
  | .active, .coordinatorMigrate => some .migrating
  | .active, .coordinatorSuspend => some .suspended
  | .active, .agentComplete => some .integrating
  | .active, .agentFailed => some .failed
  | .active, .coordinatorAbort => some .failed
  | .active, .timeoutExceeded => some .failed
  | .active, .budgetExceeded => some .failed
  -- Blocked
  | .blocked, .agentStarted => some .active
  | .blocked, .coordinatorMigrate => some .migrating
  | .blocked, .coordinatorSuspend => some .suspended
  | .blocked, .coordinatorAbort => some .failed
  | .blocked, .timeoutExceeded => some .failed
  | .blocked, .budgetExceeded => some .failed
  -- Migrating
  | .migrating, .migrationSucceeded => some .active
  | .migrating, .migrationSucceededBlocked => some .blocked
  | .migrating, .migrationFailed => some .failed
  | .migrating, .coordinatorAbort => some .failed
  -- Suspended
  | .suspended, .coordinatorResume => some .active
  | .suspended, .coordinatorAbort => some .failed
  -- Integrating
  | .integrating, .integrationSucceeded => some .closed
  | .integrating, .conflictDetected => some .conflicted
  | .integrating, .integrationFailed => some .failed
  -- Conflicted
  | .conflicted, .conflictResolved => some .closed
  | .conflicted, .conflictUnresolvable => some .failed
  -- everything else is illegal
  | _, _ => none

def WorkspaceFsm.transition (state : WorkspaceState) (trigger : WorkspaceTrigger) :
    Except TransitionError WorkspaceState :=
  if state.isTerminal then .error (.terminalState state.debug)
  else
    match workspaceEdge state trigger with
    | some next => .ok next
    | none => .error (.illegalTransition state.debug trigger.debug)

/-! ## Tasks -/

inductive TaskTrigger where
  | approve | assign | start | complete | fail | integrate | cancel
  deriving DecidableEq

def TaskTrigger.debug : TaskTrigger → String
  | .approve => "Approve"
  | .assign => "Assign"
  | .start => "Start"
  | .complete => "Complete"
  | .fail => "Fail"
  | .integrate => "Integrate"
  | .cancel => "Cancel"

/-- The legal edges of the task lifecycle, terminal statuses aside. -/
def taskEdge : TaskStatus → TaskTrigger → Option TaskStatus
  | .draft, .approve => some .pending
  | .draft, .cancel => some .cancelled
  | .pending, .assign => some .assigned
  | .pending, .cancel => some .cancelled
  | .assigned, .start => some .inProgress
  | .assigned, .cancel => some .cancelled
  | .inProgress, .complete => some .completed
  | .inProgress, .fail => some .failed
  | .inProgress, .cancel => some .cancelled
  | .completed, .integrate => some .integrated
  | .completed, .fail => some .failed
  -- Failed is retriable
  | .failed, .assign => some .assigned
  | _, _ => none

def TaskFsm.transition (state : TaskStatus) (trigger : TaskTrigger) :
    Except TransitionError TaskStatus :=
  if state.isTerminal then .error (.terminalState state.debug)
  else
    match taskEdge state trigger with
    | some next => .ok next
    | none => .error (.illegalTransition state.debug trigger.debug)

/-! ## What a transition can do -/

theorem WorkspaceFsm.not_terminal_of_ok {s s' : WorkspaceState} {t : WorkspaceTrigger}
    (h : WorkspaceFsm.transition s t = .ok s') : s.isTerminal = false := by
  unfold WorkspaceFsm.transition at h
  cases hs : s.isTerminal with
  | false => rfl
  | true => simp [hs] at h

theorem TaskFsm.not_terminal_of_ok {s s' : TaskStatus} {t : TaskTrigger}
    (h : TaskFsm.transition s t = .ok s') : s.isTerminal = false := by
  unfold TaskFsm.transition at h
  cases hs : s.isTerminal with
  | false => rfl
  | true => simp [hs] at h

end Wacp
