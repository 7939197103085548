import Wacp.Model.Orchestrator

/-!
# The coordinator service

The requests of `wacp-runtime/src/coordinator_service.rs` that touch tasks: SubmitGoal, Decompose,
Dispatch, CancelTask and GetReadyTasks. In between the coordinator system goes on, by its steps
other than dispatch.
-/

namespace Wacp

structure Runtime where
  system : System
  (nextGoalId nextWorkspaceId : ℕ)

structure TaskDefinition where
  (name description : String)
  dependsOn : List String
  deriving DecidableEq

inductive CoordinatorRequest where
  | submitGoal (description : String) (context : List UInt8)
  | dispatch (taskId role : String) (directivePayload : List UInt8)
  | decompose (tasks : List TaskDefinition)
  | cancelTask (taskId : String)
  deriving DecidableEq

inductive ServiceStatus where
  | internal (message : String)
  | notFound (message : String)
  | failedPrecondition (message : String)
  deriving DecidableEq

inductive CoordinatorResponse where
  | submitGoal (goalId rootWorkspaceId : String)
  | dispatch (workspaceId taskId : String)
  | decompose (taskIds : List String)
  | cancelTask
  deriving DecidableEq

structure TaskView where
  (taskId name description : String)
  status : TaskStatus
  assignedWorkspace : String
  dependsOn : List String
  deriving DecidableEq

namespace Runtime

def new : Runtime :=
  { system := .init ⟨"ws-root"⟩ ⟨"system"⟩, nextGoalId := 0, nextWorkspaceId := 0 }

def graph (r : Runtime) : TaskGraph := r.system.coordinator.taskGraph

def tree (r : Runtime) : WorkspaceTree := r.system.coordinator.tree

def setGraph (r : Runtime) (g : TaskGraph) : Runtime :=
  { r with system := { r.system with coordinator := { r.system.coordinator with taskGraph := g } } }

def tryTransition (g : TaskGraph) (id : TaskId) (trigger : TaskTrigger) : TaskGraph :=
  match g.transition id trigger with
  | .ok (_, g') => g'
  | .error _ => g

def tryBind (g : TaskGraph) (id : TaskId) (workspaceId : WorkspaceId) : TaskGraph :=
  match g.bind id workspaceId with
  | .ok g' => g'
  | .error _ => g

def draftTask (id : TaskId) (name description : String) (dependsOn : List TaskId) : Task :=
  { id := id, name := name, description := description, dependsOn := dependsOn
    parentTask := none, status := .draft, workspaceRef := none, workspaceHistory := []
    checkpointRef := none }

def workspaceConfig (root id : WorkspaceId) (role envelopeId : String) (payload : List UInt8) :
    WorkspaceConfig :=
  { id := id, role := role, baseRole := .worker, parent := root, owner := ⟨"system"⟩
    originator := .system
    directive :=
      { id := ⟨envelopeId⟩, fromWorkspace := root, toWorkspace := id
        envelopeType := "directive", payload := payload, inReplyTo := none, timestamp := 0
        priority := .normal, origin := .human, state := .created }
    context := [], visibility := ∅, authority := ∅, delegate := false, budget := none }

def wsId (wsid : ℕ) : WorkspaceId := ⟨"ws-" ++ toString wsid⟩

/-- Dispatch a task to a new workspace, bind the two and advance the task to Assigned; neither
result is looked at. -/
def place (r : Runtime) (taskId : TaskId) (role envelopeId : String) (payload : List UInt8) :
    Runtime × WorkspaceId :=
  let id := wsId r.nextWorkspaceId
  let config := workspaceConfig r.tree.root id role envelopeId payload
  let r₁ := { r with
    nextWorkspaceId := r.nextWorkspaceId + 1
    system := r.system.dispatch { taskId := taskId, config := config } }
  (r₁.setGraph (tryTransition (tryBind r₁.graph taskId id) taskId .assign), id)

def submitGoal (r : Runtime) (description : String) (context : List UInt8) :
    Runtime × Except ServiceStatus CoordinatorResponse :=
  let gid := r.nextGoalId
  let r₁ := { r with nextGoalId := gid + 1 }
  let goalId := "goal-" ++ toString gid
  let taskId : TaskId := ⟨"task-" ++ goalId⟩
  match r.graph.addTask (draftTask taskId description description []) with
  | (.error e, g) => (r₁.setGraph g, .error (.internal ("task graph error: " ++ e.message)))
  | (.ok (), g) =>
    let r₂ := r₁.setGraph (tryTransition g taskId .approve)
    let (r₃, id) := r₂.place taskId "worker" ("env-goal-" ++ toString gid) context
    (r₃, .ok (.submitGoal goalId id.text))

def dispatch (r : Runtime) (taskId role : String) (directivePayload : List UInt8) :
    Runtime × Except ServiceStatus CoordinatorResponse :=
  match r.graph.get ⟨taskId⟩ with
  | none => (r, .error (.notFound ("task '" ++ taskId ++ "' not found")))
  | some _ =>
    let (r₁, id) := r.place ⟨taskId⟩ role ("env-dispatch-" ++ toString r.nextWorkspaceId)
      directivePayload
    (r₁, .ok (.dispatch id.text taskId))

/-- One task of a Decompose request; one that the graph rejects is skipped. -/
def decomposeStep (acc : Runtime × List String) (taskDef : TaskDefinition) :
    Runtime × List String :=
  let r := acc.1
  let gid := r.nextGoalId
  let r₁ := { r with nextGoalId := gid + 1 }
  let tid : TaskId := ⟨"task-decompose-" ++ toString gid⟩
  let deps : List TaskId := taskDef.dependsOn.map fun d => ⟨d⟩
  match r.graph.addTask (draftTask tid taskDef.name taskDef.description deps) with
  | (.ok (), g) => (r₁.setGraph (tryTransition g tid .approve), acc.2 ++ [tid.text])
  | (.error _, g) => (r₁.setGraph g, acc.2)

def decompose (r : Runtime) (tasks : List TaskDefinition) :
    Runtime × Except ServiceStatus CoordinatorResponse :=
  let (r₁, taskIds) := tasks.foldl decomposeStep (r, [])
  (r₁, .ok (.decompose taskIds))

def cancelTask (r : Runtime) (taskId : String) :
    Runtime × Except ServiceStatus CoordinatorResponse :=
  match r.graph.transition ⟨taskId⟩ .cancel with
  | .error e => (r, .error (.failedPrecondition ("cannot cancel task: " ++ e.message)))
  | .ok (_, g) =>
    let r₁ := r.setGraph g
    -- a bound workspace is aborted
    match (g.get ⟨taskId⟩).bind (·.workspaceRef) with
    | some ws =>
      let c := r₁.system.coordinator
      ({ r₁ with system := r₁.system.send (c, c.command ws .abort) }, .ok .cancelTask)
    | none => (r₁, .ok .cancelTask)

/-- The answer to GetReadyTasks, in no order. The request changes nothing and is no step of the
runtime below. -/
def getReadyTasks (r : Runtime) : Multiset TaskView :=
  r.graph.readyTasks.filterMap fun tid =>
    (r.graph.get tid).map fun t =>
      { taskId := t.id.text, name := t.name, description := t.description, status := t.status
        assignedWorkspace := (t.workspaceRef.map WorkspaceId.text).getD ""
        dependsOn := t.dependsOn.map TaskId.text }

def handleCoordinatorRequest (r : Runtime) :
    CoordinatorRequest → Runtime × Except ServiceStatus CoordinatorResponse
  | .submitGoal description context => r.submitGoal description context
  | .dispatch taskId role directivePayload => r.dispatch taskId role directivePayload
  | .decompose tasks => r.decompose tasks
  | .cancelTask taskId => r.cancelTask taskId

inductive Label where
  | request (req : CoordinatorRequest)
  | system (label : System.Label)

def apply (r : Runtime) : Label → Option Runtime
  | .request req => some (r.handleCoordinatorRequest req).1
  | .system (.dispatch _) => none
  | .system label => (r.system.apply label).map fun system => { r with system := system }

def Step (r : Runtime) (label : Label) (r' : Runtime) : Prop := r.apply label = some r'

end Runtime

end Wacp
