import Wacp.Library.Programs
import Wacp.Model.Types

/-!
# Sessions of the console: states, rows and calls

A session is a row of `sessions` and its rows of `session_assignments` (`console-db/src/queries`);
its life is that of `console-core/src/session_state.rs`. `Call` has the statements and other calls
to the row, the runtime and the monitor of one session, and `exec` what each does. A statement fails
and changes nothing, or is carried out on the row of that moment. `Outside` (the runtime's answers,
a failure of the database, the time) may be different at every call.
-/

namespace Wacp.Console

open Library

/-! ## States -/

inductive SessionState where
  | configuring | validating | launching | active | completed | failed | cancelled
  deriving DecidableEq

def SessionState.text : SessionState → String
  | .configuring => "configuring"
  | .validating => "validating"
  | .launching => "launching"
  | .active => "active"
  | .completed => "completed"
  | .failed => "failed"
  | .cancelled => "cancelled"

def SessionState.isTerminal : SessionState → Bool
  | .completed | .failed | .cancelled => true
  | _ => false

structure Violation where
  field : Option String
  (code message : String)
  deriving DecidableEq

inductive ConsoleError where
  | database (message : String)
  | notFound (entity id : String)
  | validation (message : String) (violations warnings : List Violation)
  | forbidden (message : String)
  | conflict (message : String)
  | runtime (message : String) (grpcStatus service method : Option String)
  deriving DecidableEq

def validateTransition (fromState toState : SessionState) : Except ConsoleError Unit :=
  let valid := match fromState, toState with
    | .configuring, .validating => true
    | .configuring, .cancelled => true
    | .validating, .configuring => true
    | .validating, .launching => true
    | .validating, .cancelled => true
    | .launching, .active => true
    | .launching, .failed => true
    | .launching, .cancelled => true
    | .active, .completed => true
    | .active, .failed => true
    | .active, .cancelled => true
    | _, _ => false
  if valid then .ok ()
  else .error (.conflict
    ("Invalid state transition: " ++ fromState.text ++ " → " ++ toState.text))

inductive CancelAction where
  | noOp | bestEffortAbort | abortWorkspace
  deriving DecidableEq

def cancelActionForState : SessionState → Option CancelAction
  | .configuring | .validating => some .noOp
  | .launching => some .bestEffortAbort
  | .active => some .abortWorkspace
  | _ => none

/-! ## Rows -/

structure SessionRow where
  id : String
  name : Option String
  (ownerUserId workflow : String)
  (context coordinatorWorkspaceId : Option String)
  state : SessionState
  (launchedAt closedAt : Option String)
  (budgetMaxCostMicros budgetMaxTokens budgetMaxWallTimeMs : Option ℤ)
  deriving DecidableEq

structure SessionAssignmentRow where
  (id roleRef : String)
  slotPosition : ℤ
  profileId : String
  workspaceId : Option String
  (budgetMaxCostMicros budgetMaxTokens budgetMaxWallTimeMs : Option ℤ)
  deriving DecidableEq

structure ProfileRow where
  (llmProvider llmModel : String)
  llmTemperature : Option Float
  llmMaxTokens : Option ℤ
  autonomy : String
  (toolAllowlist toolDenylist : Option String)
  budgetWarningThreshold : Option Float

/-- A statement that fails, or a row that is not there although it is needed. -/
inductive DbError where
  | rowNotFound
  | failed (message : String)
  deriving DecidableEq

def DbError.text : DbError → String
  | .rowNotFound => "no rows returned by a query that expected to return at least one row"
  | .failed message => message

variable (row : SessionRow) (toState : SessionState) (now : String)

/-- The columns that the UPDATE of `transition_state` sets, which depend on the new state. -/
def SessionRow.moveTo : SessionRow :=
  match toState with
  | .active => { row with state := toState, launchedAt := some now }
  | .completed | .failed | .cancelled => { row with state := toState, closedAt := some now }
  | _ => { row with state := toState }

theorem SessionRow.id_moveTo : (row.moveTo toState now).id = row.id := by
  cases toState <;> rfl

theorem SessionRow.state_moveTo : (row.moveTo toState now).state = toState := by
  cases toState <;> rfl

theorem SessionRow.closedAt_moveTo : (row.moveTo toState now).closedAt =
      if toState.isTerminal then some now else row.closedAt := by
  cases toState <;> rfl

theorem SessionRow.coordinatorWorkspaceId_moveTo :
    (row.moveTo toState now).coordinatorWorkspaceId = row.coordinatorWorkspaceId := by
  cases toState <;> rfl

/-! ## The runtime -/

inductive Code where
  | ok | cancelled | unknown | invalidArgument | deadlineExceeded | notFound | alreadyExists
  | permissionDenied | resourceExhausted | failedPrecondition | aborted | outOfRange
  | unimplemented | internal | unavailable | dataLoss | unauthenticated
  deriving DecidableEq

def Code.debug : Code → String
  | .ok => "Ok"
  | .cancelled => "Cancelled"
  | .unknown => "Unknown"
  | .invalidArgument => "InvalidArgument"
  | .deadlineExceeded => "DeadlineExceeded"
  | .notFound => "NotFound"
  | .alreadyExists => "AlreadyExists"
  | .permissionDenied => "PermissionDenied"
  | .resourceExhausted => "ResourceExhausted"
  | .failedPrecondition => "FailedPrecondition"
  | .aborted => "Aborted"
  | .outOfRange => "OutOfRange"
  | .unimplemented => "Unimplemented"
  | .internal => "Internal"
  | .unavailable => "Unavailable"
  | .dataLoss => "DataLoss"
  | .unauthenticated => "Unauthenticated"

structure Status where
  code : Code
  (codeText message : String)
  deriving DecidableEq

structure SubmitGoalRequest where
  description : String
  context : List UInt8
  deriving DecidableEq

structure TaskDefinition where
  (name description : String)
  dependsOn : List String
  role : String
  directivePayload : List UInt8
  tools : List String
  deriving DecidableEq

structure ResourceBudget where
  (maxTokens maxWallTimeMs maxStorageBytes maxNetworkBytes maxCostMicros : ℕ)
  warningThreshold : Float32

structure DispatchRequest where
  (taskId role : String)
  directivePayload : List UInt8
  tools : List String
  budget : Option ResourceBudget

structure AbortWorkspaceRequest where
  (workspaceId reason : String)
  deriving DecidableEq

/-! ## The pieces that calls carry -/

structure LaunchedAssignment where
  (assignmentId workspaceId : String)
  deriving DecidableEq

structure DirectivePayload where
  (role llmProvider llmModel : String)
  llmTemperature : Option Float
  llmMaxTokens : Option ℤ
  autonomy : String
  tools : List String
  sessionContext : Option String
  slotPosition : ℤ

structure SessionViolation where
  (code message : String)
  slot : Option ℤ
  deriving DecidableEq

structure WorkspaceSet where
  root : String
  members : List String
  deriving DecidableEq

def WorkspaceSet.new (root : String) (assignments : List String) : WorkspaceSet :=
  { root := root, members := root :: assignments }

/-- What the main loop of a monitor receives, as far as it matters to the session: a change of a
workspace (no state stands for Unspecified), the end of a stream driver, a frame that is passed
on and nothing else, or the command to stop. -/
inductive MonitorInput where
  | workspaceChange (workspaceId : String) (current : Option WorkspaceState)
  | fatal
  | frame
  | shutdown
  deriving DecidableEq

/-! ## Calls -/

inductive Call where
  | getById
  | transitionState (fromState toState : SessionState)
  | setCancelled
  | listActive
  | listBySession
  | getCurrent (profileId : String)
  | finalize (rootWorkspaceId : String) (launched : List LaunchedAssignment)
  | validateSession (session : SessionRow)
  | toolsFromStr (text : String)
  | directiveToVec (directive : DirectivePayload)
  | coordinator
  | submitGoal (request : SubmitGoalRequest)
  | decompose (tasks : List TaskDefinition)
  | dispatch (request : DispatchRequest)
  | abortWorkspace (request : AbortWorkspaceRequest)
  | highway
  | getWorkspace (workspaceId : String)
  | spawnMonitor (workspaces : WorkspaceSet)
  | removeMonitor

abbrev Reply : Call → Type
  | .getById => Except DbError (Option SessionRow)
  | .transitionState _ _ => Except DbError Bool
  | .setCancelled => Except DbError Bool
  | .listActive => Except DbError (List SessionRow)
  | .listBySession => Except DbError (List SessionAssignmentRow)
  | .getCurrent _ => Except DbError (Option ProfileRow)
  | .finalize _ _ => Except DbError Unit
  | .validateSession _ => List SessionViolation
  | .toolsFromStr _ => Option (List String)
  | .directiveToVec _ => Except String (List UInt8)
  | .coordinator => Bool
  | .submitGoal _ => Except Status String
  | .decompose _ => Except Status (List String)
  | .dispatch _ => Except Status String
  | .abortWorkspace _ => Except Status Unit
  | .highway => Bool
  | .getWorkspace _ => Except Status (Option WorkspaceState)
  | .spawnMonitor _ => Unit
  | .removeMonitor => Unit

abbrev Program (α : Type) := Prog Call Reply α

structure Outside where
  now : String
  dbError : Option DbError
  profile : Option ProfileRow
  violations : List SessionViolation
  tools : Option (List String)
  bytes : Except String (List UInt8)
  channel : Bool
  rootWorkspaceId : Except Status String
  taskIds : Except Status (List String)
  workspaceId : Except Status String
  abortWorkspace : Except Status Unit
  view : Except Status (Option WorkspaceState)
  inputs : List MonitorInput

/-- What the console keeps of one session: its row, its assignments, and whether `active_sessions`
has an entry for it. -/
structure SessionData where
  row : SessionRow
  assignments : List SessionAssignmentRow
  monitored : Bool
  deriving DecidableEq

namespace SessionData

def statement {α : Type} (s : SessionData) (o : Outside) (result : α) (s' : SessionData) :
    Except DbError α × SessionData :=
  match o.dbError with
  | some e => (.error e, s)
  | none => (.ok result, s')

theorem statement_cases {α : Type} (s s' : SessionData) (o : Outside) (a : α) :
    (∃ e, s.statement o a s' = (.error e, s)) ∨ s.statement o a s' = (.ok a, s') := by
  unfold SessionData.statement
  cases o.dbError with
  | some e => exact .inl ⟨e, rfl⟩
  | none => exact .inr rfl

variable (s : SessionData)

def withRow (row : SessionRow) : SessionData := { s with row := row }

def transitionState (o : Outside) (fromState toState : SessionState) :
    Except DbError Bool × SessionData :=
  if s.row.state = fromState then s.statement o true (s.withRow (s.row.moveTo toState o.now))
  else s.statement o false s

def setCancelled (o : Outside) : Except DbError Bool × SessionData :=
  if s.row.state.isTerminal then s.statement o false s
  else s.statement o true (s.withRow (s.row.moveTo .cancelled o.now))

def setWorkspaceId (assignments : List SessionAssignmentRow) (la : LaunchedAssignment) :
    List SessionAssignmentRow :=
  assignments.map fun a =>
    if a.id = la.assignmentId then { a with workspaceId := some la.workspaceId } else a

/-- The transaction is carried out as a whole, or it is rolled back. -/
def finalize (o : Outside) (rootWorkspaceId : String) (launched : List LaunchedAssignment) :
    Except DbError Unit × SessionData :=
  if s.row.state = .launching then
    s.statement o ()
      { s with
        row := { s.row with
          state := .active
          coordinatorWorkspaceId := some rootWorkspaceId
          launchedAt := some o.now }
        assignments := launched.foldl setWorkspaceId s.assignments }
  else (.error ((o.dbError).getD .rowNotFound), s)

end SessionData

def exec : (c : Call) → Outside → SessionData → Reply c × SessionData
  | .getById, o, s => s.statement o (some s.row) s
  | .transitionState fromState toState, o, s => s.transitionState o fromState toState
  | .setCancelled, o, s => s.setCancelled o
  | .listActive, o, s => s.statement o (if s.row.state = .active then [s.row] else []) s
  | .listBySession, o, s => s.statement o s.assignments s
  | .getCurrent _, o, s => s.statement o o.profile s
  | .finalize rootWorkspaceId launched, o, s => s.finalize o rootWorkspaceId launched
  | .validateSession _, o, s => (o.violations, s)
  | .toolsFromStr _, o, s => (o.tools, s)
  | .directiveToVec _, o, s => (o.bytes, s)
  | .coordinator, o, s => (o.channel, s)
  | .submitGoal _, o, s => (o.rootWorkspaceId, s)
  | .decompose _, o, s => (o.taskIds, s)
  | .dispatch _, o, s => (o.workspaceId, s)
  | .abortWorkspace _, o, s => (o.abortWorkspace, s)
  | .highway, o, s => (o.channel, s)
  | .getWorkspace _, o, s => (o.view, s)
  | .spawnMonitor _, _, s => ((), { s with monitored := true })
  | .removeMonitor, _, s => ((), { s with monitored := false })

/-- **What no change of state touches, no call changes.** -/
theorem exec_keeps {β : Type} {f : SessionRow → β}
    (hmove : ∀ (row : SessionRow) toState now, f (row.moveTo toState now) = f row)
    (hfinalize : ∀ (row : SessionRow) rootWorkspaceId now,
      f { row with
        state := .active
        coordinatorWorkspaceId := some rootWorkspaceId
        launchedAt := some now } = f row)
    {c : Call} {o : Outside} {s : SessionData} : f (exec c o s).2.row = f s.row := by
  have hstatement : ∀ {α : Type} (a : α) (s' : SessionData), f s'.row = f s.row →
      f (s.statement o a s').2.row = f s.row :=
    fun a s' => keeps_of_tried (s.statement_cases s' o a) (f ·.row = f s.row) rfl
  cases c with
  | transitionState fromState toState =>
    simp only [exec, SessionData.transitionState]
    split_ifs
    · exact hstatement _ _ (hmove s.row toState o.now)
    · exact hstatement _ _ rfl
  | setCancelled =>
    simp only [exec, SessionData.setCancelled]
    split_ifs
    · exact hstatement _ _ rfl
    · exact hstatement _ _ (hmove s.row .cancelled o.now)
  | finalize rootWorkspaceId =>
    simp only [exec, SessionData.finalize]
    split_ifs
    · exact hstatement _ _ (hfinalize s.row rootWorkspaceId o.now)
    · rfl
  | getById => exact hstatement _ _ rfl
  | listActive => exact hstatement _ _ rfl
  | listBySession => exact hstatement _ _ rfl
  | getCurrent => exact hstatement _ _ rfl
  | _ => rfl

end Wacp.Console
