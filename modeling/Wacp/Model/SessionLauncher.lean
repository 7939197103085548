import Wacp.Model.SessionStore

/-!
# Launching a session

`console-core/src/session_launcher.rs`: SubmitGoal, one Decompose request with a task for each
assignment, a Dispatch request for each, and the transaction that makes the session active.
-/

namespace Wacp.Console

open Library Prog

/-! ## Queries and requests -/

def getById : Program (Except DbError (Option SessionRow)) := perform Call.getById

def transitionState (fromState toState : SessionState) : Program (Except DbError Bool) :=
  perform (Call.transitionState fromState toState)

def listBySession : Program (Except DbError (List SessionAssignmentRow)) :=
  perform Call.listBySession

def getCurrent (profileId : String) : Program (Except DbError (Option ProfileRow)) :=
  perform (Call.getCurrent profileId)

def toolsFromStr (text : String) : Program (Option (List String)) :=
  perform (Call.toolsFromStr text)

def directiveToVec (directive : DirectivePayload) : Program (Except String (List UInt8)) :=
  perform (Call.directiveToVec directive)

def coordinator : Program Bool := perform Call.coordinator

def submitGoal (request : SubmitGoalRequest) : Program (Except Status String) :=
  perform (Call.submitGoal request)

def decompose (tasks : List TaskDefinition) : Program (Except Status (List String)) :=
  perform (Call.decompose tasks)

def dispatch (request : DispatchRequest) : Program (Except Status String) :=
  perform (Call.dispatch request)

def abortWorkspace (request : AbortWorkspaceRequest) : Program (Except Status Unit) :=
  perform (Call.abortWorkspace request)

def finalize (rootWorkspaceId : String) (launched : List LaunchedAssignment) :
    Program (Except DbError Unit) :=
  perform (Call.finalize rootWorkspaceId launched)

/-! ## Outcomes and errors -/

inductive LaunchOutcome where
  | active (coordinatorWorkspaceId : String) (assignments : List LaunchedAssignment)
  | alreadyActive (state : SessionState)
  deriving DecidableEq

inductive LaunchStep where
  | submitGoal | decompose | dispatch | finalize
  deriving DecidableEq

def LaunchStep.asStr : LaunchStep → String
  | .submitGoal => "submit_goal"
  | .decompose => "decompose"
  | .dispatch => "dispatch"
  | .finalize => "finalize"

inductive LaunchError where
  | sessionNotFound (id : String)
  | unexpectedState (state : SessionState)
  | noAssignments
  | poolUnavailable
  | step (step : LaunchStep) (reason : String) (source : Option Status) (recoverable : Bool)
  | db (message : String)
  deriving DecidableEq

/-! ## Compensation -/

/-- Every workspace is sent AbortWorkspace; what is answered is not looked at. -/
def abortEach : List String → Program Unit
  | [] => return ()
  | ws :: workspaces => do
      let _ ← abortWorkspace ⟨ws, "launch_rollback"⟩
      abortEach workspaces

def rollback (workspaces : List String) : Program Unit := do
  if ← coordinator then abortEach workspaces else return ()

def markFailed : Program Unit := do
  let _ ← transitionState .launching .failed
  return ()

def stepError (step : LaunchStep) (status : Status) (rollbackWorkspaces : List String) :
    Program LaunchError := do
  let recoverable := match status.code with
    | .unavailable | .deadlineExceeded | .resourceExhausted => true
    | _ => false
  let reason := status.codeText ++ ": " ++ status.message
  let err := LaunchError.step step reason (some status) recoverable
  if rollbackWorkspaces.isEmpty then return err
  else
    rollback rollbackWorkspaces
    return err

/-! ## Directives -/

structure PreparedDirective where
  payloadBytes : List UInt8
  tools : List String
  budget : Option ResourceBudget

/-- The tool names in a column, none if there is no text or it cannot be read. -/
def toolList : Option String → Program (List String)
  | none => return []
  | some text => do return (← toolsFromStr text).getD []

def resolveBudget (assignment session : Option ℤ) : ℕ :=
  ((assignment.or session).map fun v => (max v 0).toNat).getD 0

variable (session : SessionRow) (asgn : SessionAssignmentRow)

/-- The payload, and the budget, for one assignment and its profile. -/
def directiveFor (profile : Option ProfileRow) (tools : List String) :
    DirectivePayload × ResourceBudget :=
  ({ role := asgn.roleRef
     llmProvider := (profile.map (·.llmProvider)).getD ""
     llmModel := (profile.map (·.llmModel)).getD ""
     llmTemperature := profile.bind (·.llmTemperature)
     llmMaxTokens := profile.bind (·.llmMaxTokens)
     autonomy := (profile.map (·.autonomy)).getD "supervised"
     tools := tools
     sessionContext := session.context
     slotPosition := asgn.slotPosition },
   { maxTokens := resolveBudget asgn.budgetMaxTokens session.budgetMaxTokens
     maxWallTimeMs := resolveBudget asgn.budgetMaxWallTimeMs session.budgetMaxWallTimeMs
     maxStorageBytes := 0
     maxNetworkBytes := 0
     maxCostMicros := resolveBudget asgn.budgetMaxCostMicros session.budgetMaxCostMicros
     warningThreshold :=
      ((profile.bind (·.budgetWarningThreshold)).map Float.toFloat32).getD 0.8 })

/-- The allowed tools that are not denied; none without a profile. -/
def effectiveTools : Option ProfileRow → Program (List String)
  | none => return []
  | some p => do
      let allow ← toolList p.toolAllowlist
      let deny ← toolList p.toolDenylist
      return allow.filter fun t => !deny.contains t

def buildDirective : Program (Except LaunchError PreparedDirective) := do
  match ← getCurrent asgn.profileId with
  | .error e => return .error (.db e.text)
  | .ok profile =>
    let tools ← effectiveTools profile
    let (directive, budget) := directiveFor session asgn profile tools
    match ← directiveToVec directive with
    | .error e => return .error (.db ("directive serialization failed: " ++ e))
    | .ok payloadBytes => return .ok ⟨payloadBytes, tools, some budget⟩

def taskFor (directive : PreparedDirective) : TaskDefinition :=
  { name := session.workflow ++ ":" ++ asgn.roleRef
    description := "role " ++ asgn.roleRef ++ " slot " ++ toString asgn.slotPosition
    dependsOn := []
    role := asgn.roleRef
    directivePayload := directive.payloadBytes
    tools := directive.tools }

/-- The loop that prepares the tasks; the first directive that cannot be built ends the launch,
with no compensation. -/
def prepare (session : SessionRow) : List SessionAssignmentRow →
    List (SessionAssignmentRow × PreparedDirective) →
    Program (Except LaunchError (List (SessionAssignmentRow × PreparedDirective)))
  | [], prepared => return .ok prepared
  | asgn :: assignments, prepared => do
      match ← buildDirective session asgn with
      | .error e => return .error e
      | .ok directive => prepare session assignments (prepared ++ [(asgn, directive)])

/-! ## The steps -/

def finalizeStep (rootWs : String) (launched : List LaunchedAssignment)
    (createdWorkspaces : List String) : Program (Except LaunchError LaunchOutcome) := do
  match ← finalize rootWs launched with
  | .error e =>
    let err := LaunchError.step .finalize ("finalize_db_failed: " ++ e.text) none false
    rollback createdWorkspaces
    markFailed
    return .error err
  | .ok () => return .ok (.active rootWs launched)

/-- The loop of Dispatch requests, with the workspaces created so far. -/
def dispatchStep (rootWs : String) : List ((SessionAssignmentRow × PreparedDirective) × String) →
    List LaunchedAssignment → List String → Program (Except LaunchError LaunchOutcome)
  | [], launched, createdWorkspaces => finalizeStep rootWs launched createdWorkspaces
  | ((asgn, directive), taskId) :: tasks, launched, createdWorkspaces => do
      let dispatchReq : DispatchRequest :=
        { taskId := taskId
          role := asgn.roleRef
          directivePayload := directive.payloadBytes
          tools := directive.tools
          budget := directive.budget }
      match ← dispatch dispatchReq with
      | .error status =>
        let err ← stepError .dispatch status createdWorkspaces
        markFailed
        return .error err
      | .ok wsId =>
        dispatchStep rootWs tasks (launched ++ [⟨asgn.id, wsId⟩]) (createdWorkspaces ++ [wsId])

def decomposeStep (rootWs : String) (session : SessionRow)
    (prepared : List (SessionAssignmentRow × PreparedDirective)) :
    Program (Except LaunchError LaunchOutcome) := do
  match ← decompose (prepared.map fun (asgn, directive) => taskFor session asgn directive) with
  | .error status =>
    let err ← stepError .decompose status [rootWs]
    markFailed
    return .error err
  | .ok taskIds =>
    if taskIds.length ≠ prepared.length then
      let err := LaunchError.step .decompose
        ("runtime decomposed " ++ toString taskIds.length ++ " of " ++
          toString prepared.length ++ " tasks") none false
      rollback [rootWs]
      markFailed
      return .error err
    else dispatchStep rootWs (prepared.zip taskIds) [] [rootWs]

def submitStep (assignments : List SessionAssignmentRow) :
    Program (Except LaunchError LaunchOutcome) := do
  let submitReq : SubmitGoalRequest :=
    { description := session.name.getD session.workflow
      context := (session.context.map fun s => s.toUTF8.data.toList).getD [] }
  match ← submitGoal submitReq with
  | .error status =>
    let err ← stepError .submitGoal status []
    markFailed
    return .error err
  | .ok rootWs =>
    match ← prepare session assignments [] with
    | .error e => return .error e
    | .ok prepared => decomposeStep rootWs session prepared

def launch (sessionId : String) : Program (Except LaunchError LaunchOutcome) := do
  match ← getById with
  | .error e => return .error (.db e.text)
  | .ok none => return .error (.sessionNotFound sessionId)
  | .ok (some session) =>
    if session.state ≠ .launching then
      match session.state with
      | .active | .completed | .failed | .cancelled =>
        return .ok (.alreadyActive session.state)
      | _ => return .error (.unexpectedState session.state)
    else
      match ← listBySession with
      | .error e => return .error (.db e.text)
      | .ok assignments =>
        if assignments.isEmpty then
          markFailed
          return .error .noAssignments
        else if ← coordinator then submitStep session assignments
        else return .error .poolUnavailable

end Wacp.Console
