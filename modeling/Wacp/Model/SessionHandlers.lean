import Wacp.Model.SessionLauncher

/-!
# The components that act on a session

`launch_session` and `cancel_session` of `console-api/src/routes/sessions.rs`, the monitor of
`console-core/src/session_monitor.rs` and the recovery pass of `console-core/src/recovery.rs`. None
asks `validate_transition`: each has a guarded UPDATE of its own, after a read that may be out of
date. `Session` is one session with any number of them. A step is one call of one component, a new
request or recovery pass, or a crash. Only the last input of a monitor matters to the row, so the
inputs are chosen when it is spawned.
-/

namespace Wacp.Console

open Library Prog

/-! ## Requests and errors -/

structure Auth where
  userId : String
  isAdmin : Bool
  deriving DecidableEq

structure ErrorDetails where
  step : Option LaunchStep
  grpcStatus : Option String
  service : String
  method : Option String
  recoverable : Bool
  deriving DecidableEq

/-- An error of the console, turned into a response as every such error is, or a response of the
handler's own.
console-api/src/error.rs -/
inductive ApiError where
  | console (e : ConsoleError)
  | response (status : ℕ) (error message : String) (details : ErrorDetails)
  deriving DecidableEq

def ApiError.notFound (entity id : String) : ApiError := .console (.notFound entity id)

def ApiError.runtimeUnavailable (service method : String) : ApiError :=
  .response 503 "runtime_unavailable"
    (service ++ "." ++ method ++ " unavailable: pool has no live channel")
    ⟨none, none, service, some method, false⟩

def ApiError.fromTonic (s : Status) (service method : String) : ApiError :=
  let details : ErrorDetails := ⟨none, some s.code.debug, service, some method, false⟩
  match s.code with
  | .notFound => .response 404 "not_found" s.message details
  | .failedPrecondition => .response 409 "conflict" s.message details
  | .unavailable | .deadlineExceeded => .response 503 "runtime_unavailable" s.message details
  | .permissionDenied => .response 403 "forbidden" s.message details
  | _ => .response 502 "runtime_error" ("runtime: " ++ s.message) details

def checkSessionWriteAccess (auth : Auth) (session : SessionRow) : Except ApiError Unit :=
  if auth.isAdmin then .ok ()
  else if session.ownerUserId = auth.userId then .ok ()
  else .error (.console (.forbidden "Only the owner or an admin can modify this session"))

def LaunchStep.method : LaunchStep → Option String
  | .submitGoal => some "SubmitGoal"
  | .decompose => some "Decompose"
  | .dispatch => some "Dispatch"
  | .finalize => none

def mapLaunchError : LaunchError → ApiError
  | .sessionNotFound id => .notFound "session" id
  | .unexpectedState s =>
    .console (.conflict ("session in state '" ++ s.text ++ "' cannot be launched"))
  | .noAssignments => .console (.validation "session has no assignments" [] [])
  | .poolUnavailable =>
    .console (.runtime "coordinator channel unavailable" none (some "CoordinatorService") none)
  | .step step reason source recoverable =>
    let grpcStatus := source.map fun s => s.code.debug
    let message := "launch " ++ step.asStr ++ ": " ++ reason
    if recoverable then
      .response 503 "runtime_unavailable" message
        ⟨some step, grpcStatus, "CoordinatorService", step.method, true⟩
    else .console (.runtime message grpcStatus (some "CoordinatorService") step.method)
  | .db message => .console (.database message)

/-! ## Calls of the handlers -/

def validateSession (session : SessionRow) : Program (List SessionViolation) :=
  perform (Call.validateSession session)

def setCancelled : Program (Except DbError Bool) := perform Call.setCancelled

def listActive : Program (Except DbError (List SessionRow)) := perform Call.listActive

def highway : Program Bool := perform Call.highway

def getWorkspace (workspaceId : String) : Program (Except Status (Option WorkspaceState)) :=
  perform (Call.getWorkspace workspaceId)

def spawnMonitor (workspaces : WorkspaceSet) : Program Unit :=
  perform (Call.spawnMonitor workspaces)

def removeMonitor : Program Unit := perform Call.removeMonitor

/-! ## Launch -/

structure LaunchResponse where
  id : String
  state : SessionState
  coordinatorWorkspaceId : String
  deriving DecidableEq

def violationsOf (violations : List SessionViolation) : List Violation :=
  violations.map fun v =>
    { field := v.slot.map fun s => "slot_" ++ toString s, code := v.code, message := v.message }

def runLauncher (id : String) : Program (Except ApiError LaunchResponse) := do
  match ← launch id with
  | .ok (.active coordinatorWorkspaceId assignments) =>
    spawnMonitor (.new coordinatorWorkspaceId (assignments.map (·.workspaceId)))
    return .ok ⟨id, .active, coordinatorWorkspaceId⟩
  | .ok (.alreadyActive state) =>
    return .error (.console (.conflict ("session already in state '" ++ state.text ++ "'")))
  | .error err => return .error (mapLaunchError err)

/-- Neither UPDATE looks at whether it found the row in the state it was read in. -/
def launchSession (auth : Auth) (id : String) : Program (Except ApiError LaunchResponse) := do
  match ← getById with
  | .error e => return .error (.console (.database e.text))
  | .ok none => return .error (.notFound "session" id)
  | .ok (some session) =>
    match checkSessionWriteAccess auth session with
    | .error e => return .error e
    | .ok () =>
      if session.state ≠ .configuring then
        return .error (.console
          (.conflict "Session can only be launched from configuring state"))
      else
        match ← transitionState .configuring .validating with
        | .error e => return .error (.console (.database e.text))
        | .ok _ =>
          let violations ← validateSession session
          if violations ≠ [] then
            let _ ← transitionState .validating .configuring
            return .error (.console
              (.validation "Session validation failed" (violationsOf violations) []))
          else
            match ← transitionState .validating .launching with
            | .error e => return .error (.console (.database e.text))
            | .ok _ => runLauncher id

/-! ## Cancel -/

structure CancelResponse where
  id : String
  state : SessionState
  deriving DecidableEq

def cancel : Program (Except DbError (Option SessionState)) := do
  match ← getById with
  | .error e => return .error e
  | .ok none => return .ok none
  | .ok (some session) =>
    if session.state.isTerminal then return .ok none
    else
      match ← setCancelled with
      | .error e => return .error e
      | .ok true => return .ok (some session.state)
      | .ok false => return .ok none

/-- The abort of a launch that was under way, with the workspace that was read at the start. -/
def bestEffortAbort (session : SessionRow) (reason : String) : Program Unit := do
  match session.coordinatorWorkspaceId with
  | none => return ()
  | some workspaceId =>
    if ← coordinator then
      let _ ← abortWorkspace ⟨workspaceId, reason⟩
      return ()
    else return ()

def finishCancel (id : String) (session : SessionRow) (action : CancelAction) (reason : String) :
    Program (Except ApiError CancelResponse) := do
  match ← cancel with
  | .error e => return .error (.console (.database e.text))
  | .ok none =>
    return .error (.console (.conflict "Session is already in a terminal state"))
  | .ok (some _) =>
    if action = .bestEffortAbort then bestEffortAbort session reason
    removeMonitor
    return .ok ⟨id, .cancelled⟩

def cancelSession (auth : Auth) (id : String) (reason : Option String) :
    Program (Except ApiError CancelResponse) := do
  match ← getById with
  | .error e => return .error (.console (.database e.text))
  | .ok none => return .error (.notFound "session" id)
  | .ok (some session) =>
    match checkSessionWriteAccess auth session with
    | .error e => return .error e
    | .ok () =>
      match cancelActionForState session.state with
      | none =>
        return .error (.console
          (.conflict ("Session in '" ++ session.state.text ++ "' state cannot be cancelled")))
      | some .abortWorkspace =>
        match session.coordinatorWorkspaceId with
        | none =>
          return .error (.console
            (.conflict "Session has no coordinator workspace; cannot abort"))
        | some workspaceId =>
          if ← coordinator then
            match ← abortWorkspace ⟨workspaceId, reason.getD ""⟩ with
            | .error s =>
              return .error (.fromTonic s "CoordinatorService" "AbortWorkspace")
            | .ok () => finishCancel id session .abortWorkspace (reason.getD "")
          else
            return .error (.runtimeUnavailable "CoordinatorService" "AbortWorkspace")
      | some action => finishCancel id session action (reason.getD "")

/-! ## Monitor -/

def handleEvent (workspaces : WorkspaceSet) : MonitorInput → Option SessionState
  | .workspaceChange workspaceId current =>
    if workspaces.members.contains workspaceId && workspaceId == workspaces.root then
      match current with
      | some .failed => some .failed
      | some .closed => some .completed
      | _ => none
    else none
  | .fatal => some .failed
  | .frame | .shutdown => none

/-- The main loop; the watchdog removes the entry when it has ended. -/
def monitorRun (workspaces : WorkspaceSet) : List MonitorInput → Program Unit
  | [] => removeMonitor
  | .shutdown :: _ => removeMonitor
  | input :: inputs =>
    match handleEvent workspaces input with
    | some sessionTerminal => do
        let _ ← transitionState .active sessionTerminal
        removeMonitor
    | none => monitorRun workspaces inputs

/-! ## Recovery -/

inductive RecoveryFailureReason where
  | stuckInLaunching
  | workspaceMissing
  | dbError (message : String)
  | runtimeError (message : String)
  deriving DecidableEq

inductive RecoveryOutcome where
  | resumed
  | syncedTerminal (state : SessionState)
  | failed (reason : RecoveryFailureReason)
  | skippedUnavailable
  deriving DecidableEq

def markRecoveryFailed : Program Unit := do
  let _ ← transitionState .active .failed
  return ()

def resume (coordWs : String) : Program RecoveryOutcome := do
  match ← listBySession with
  | .error e => return .failed (.dbError e.text)
  | .ok assignments =>
    spawnMonitor (.new coordWs (assignments.filterMap (·.workspaceId)))
    return .resumed

def reconcile (coordWs : String) : Except Status (Option WorkspaceState) → Program RecoveryOutcome
  | .error s =>
    match s.code with
    | .notFound => do
        markRecoveryFailed
        return .failed .workspaceMissing
    | .unavailable | .deadlineExceeded => return .skippedUnavailable
    | _ => do
        markRecoveryFailed
        return .failed (.runtimeError s.message)
  | .ok (some .failed) => do
      let _ ← transitionState .active .failed
      return .syncedTerminal .failed
  | .ok (some .closed) => do
      let _ ← transitionState .active .completed
      return .syncedTerminal .completed
  | .ok _ => resume coordWs

def recoverOne (row : SessionRow) : Program RecoveryOutcome := do
  match row.coordinatorWorkspaceId with
  | none =>
    markRecoveryFailed
    return .failed .stuckInLaunching
  | some coordWs =>
    if ← highway then reconcile coordWs (← getWorkspace coordWs)
    else return .skippedUnavailable

def recoverEach : List SessionRow → Program (List RecoveryOutcome)
  | [] => return []
  | row :: rows => do
      let outcome ← recoverOne row
      return outcome :: (← recoverEach rows)

def recoveryRun : Program (List RecoveryOutcome) := do
  match ← listActive with
  | .error _ => return []
  | .ok rows => recoverEach rows

/-! ## One session and its components -/

inductive Finished where
  | launched (response : Except ApiError LaunchResponse)
  | cancelled (response : Except ApiError CancelResponse)
  | monitorStopped
  | recovered (outcomes : List RecoveryOutcome)
  | killed

abbrev Session := Pool Call Reply SessionData Finished

def spawns : Call → Outside → List (Program Finished)
  | .spawnMonitor workspaces, o =>
    [do
      monitorRun workspaces o.inputs
      return .monitorStopped]
  | _, _ => []

namespace Session

inductive Label where
  | launchRequest (auth : Auth)
  | cancelRequest (auth : Auth) (reason : Option String)
  | recovery
  | call (component : ℕ) (o : Outside)
  | crash

def new (row : SessionRow) (assignments : List SessionAssignmentRow) : Session :=
  { shared := ⟨row, assignments, false⟩, processes := [], history := [] }

def row (s : Session) : SessionRow := s.shared.row

def crash (s : Session) : Session :=
  { s.stop .killed with shared := { s.shared with monitored := false } }

def apply (s : Session) : Label → Option Session
  | .launchRequest auth =>
    some (s.start do return .launched (← launchSession auth s.row.id))
  | .cancelRequest auth reason =>
    some (s.start do return .cancelled (← cancelSession auth s.row.id reason))
  | .recovery => some (s.start do return .recovered (← recoveryRun))
  | .call component o => s.advance exec spawns component o
  | .crash => some s.crash

def Step (s : Session) (label : Label) (s' : Session) : Prop := s.apply label = some s'

end Session

end Wacp.Console
