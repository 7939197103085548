import Wacp.Library.Table
import Wacp.Model.Fsm

/-!
# The task graph

`wacp-coordinator/src/task_graph.rs`: tasks with dependencies, a readiness counter per task, forward
edges to dependents, and a binding to workspaces kept in two maps and in the task. `add_subtasks`
and `cancel_task` are from `scheduling.rs`. A function that may fail after it has written returns
its result with the graph it leaves. `dispatchable`, in the order of a `HashMap`, is a multiset.
-/

namespace Wacp

open Library

inductive GraphError where
  | dependencyNotFound (id : String)
  | duplicateTask (id : String)
  | taskNotFound (id : String)
  | transition (e : TransitionError)
  | workspaceAlreadyBound (id : WorkspaceId)
  | taskAlreadyBound (id : TaskId)
  deriving DecidableEq

def GraphError.message : GraphError → String
  | .dependencyNotFound id => "dependency not found: " ++ id
  | .duplicateTask id => "task already exists: " ++ id
  | .taskNotFound id => "task not found: " ++ id
  | .transition e => "transition error: " ++ e.message
  | .workspaceAlreadyBound id => "workspace already bound: " ++ id.text
  | .taskAlreadyBound id => "task already bound: " ++ id.text

structure TaskGraph where
  tasks : Table TaskId Task
  remainingDeps : Table TaskId ℕ
  forward : Table TaskId (List TaskId)
  taskWorkspace : Table TaskId WorkspaceId
  workspaceTask : Table WorkspaceId TaskId
  deriving DecidableEq

namespace TaskGraph

def new : TaskGraph :=
  { tasks := ∅, remainingDeps := ∅, forward := ∅, taskWorkspace := ∅, workspaceTask := ∅ }

/-- The dependency loop of `add_task`: every dependency that exists gets its forward edge at
once and is counted unless it is terminal; the first that does not exist ends the loop. -/
def addDeps (id : TaskId) : List TaskId → ℕ → TaskGraph → Except GraphError ℕ × TaskGraph
  | [], remaining, g => (.ok remaining, g)
  | dep :: deps, remaining, g =>
    match g.tasks.get dep with
    | none => (.error (.dependencyNotFound dep.text), g)
    | some depTask =>
      let g' := { g with forward := g.forward.push dep id }
      addDeps id deps (if depTask.status.isTerminal then remaining else remaining + 1) g'

variable (g : TaskGraph)

def addTask (task : Task) : Except GraphError Unit × TaskGraph :=
  if g.tasks.contains task.id then (.error (.duplicateTask task.id.text), g)
  else
    match addDeps task.id task.dependsOn 0 g with
    | (.error e, g') => (.error e, g')
    | (.ok remaining, g') =>
      (.ok (), { g' with
        remainingDeps := g'.remainingDeps.set task.id remaining
        tasks := g'.tasks.set task.id task })

def get (g : TaskGraph) (id : TaskId) : Option Task := g.tasks.get id

def setStatus (id : TaskId) (status : TaskStatus) : TaskGraph :=
  { g with tasks := g.tasks.modify id fun t => { t with status := status } }

def transition (g : TaskGraph) (id : TaskId) (trigger : TaskTrigger) :
    Except GraphError (TaskStatus × TaskGraph) :=
  match g.tasks.get id with
  | none => .error (.taskNotFound id.text)
  | some task =>
    match TaskFsm.transition task.status trigger with
    | .error e => .error (.transition e)
    | .ok newStatus => .ok (newStatus, g.setStatus id newStatus)

/-- One dependent in `mark_completed`: its counter goes down, and it is listed if the counter
is then zero. -/
def markStep (acc : Table TaskId ℕ × List TaskId) (depId : TaskId) : Table TaskId ℕ × List TaskId :=
  match acc.1.get depId with
  | none => acc
  | some count =>
    (acc.1.set depId (count - 1), if count - 1 = 0 then acc.2 ++ [depId] else acc.2)

/-- Tell the dependents of a task that it is terminal; returns the newly ready ones. -/
def markCompleted (id : TaskId) : TaskGraph × List TaskId :=
  let (remainingDeps, newlyReady) := (g.forward.getList id).foldl markStep (g.remainingDeps, [])
  ({ g with remainingDeps := remainingDeps }, newlyReady)

def markFailed (id : TaskId) : List TaskId := g.forward.getList id

def bind (taskId : TaskId) (workspaceId : WorkspaceId) : Except GraphError TaskGraph :=
  match g.tasks.get taskId with
  | none => .error (.taskNotFound taskId.text)
  | some task =>
    if task.workspaceRef.isSome then .error (.taskAlreadyBound taskId)
    else if g.workspaceTask.contains workspaceId then .error (.workspaceAlreadyBound workspaceId)
    else
      .ok { g with
        tasks := g.tasks.modify taskId fun t => { t with
          workspaceRef := some workspaceId
          workspaceHistory := t.workspaceHistory ++ [workspaceId] }
        taskWorkspace := g.taskWorkspace.set taskId workspaceId
        workspaceTask := g.workspaceTask.set workspaceId taskId }

def unbind (taskId : TaskId) : TaskGraph :=
  match g.tasks.get taskId with
  | none => g
  | some task =>
    { g with
      tasks := g.tasks.modify taskId fun t => { t with workspaceRef := none }
      workspaceTask :=
        match task.workspaceRef with
        | some ws => g.workspaceTask.remove ws
        | none => g.workspaceTask
      taskWorkspace := g.taskWorkspace.remove taskId }

def taskForWorkspace (workspaceId : WorkspaceId) : Option TaskId :=
  g.workspaceTask.get workspaceId

def dispatchable : Multiset TaskId :=
  (g.tasks.values.filter fun t =>
    t.status = .pending ∧ (g.remainingDeps.get t.id).getD 0 = 0).map (·.id)

def readyTasks : Multiset TaskId := g.dispatchable

end TaskGraph

namespace SchedulingOps

/-- One dependent of a cancelled task: if it is Draft or Pending at its turn, it is cancelled in
the same way. `cancel` is the recursive call. -/
def cancelStep (cancel : TaskGraph → TaskId → Option (List TaskId × TaskGraph))
    (acc : List TaskId × TaskGraph) (depId : TaskId) : Option (List TaskId × TaskGraph) :=
  match acc.2.get depId with
  | none => some acc
  | some dep =>
    if dep.status = .draft ∨ dep.status = .pending then
      (cancel acc.2 depId).map fun sub => (acc.1 ++ sub.1, sub.2)
    else some acc

/-- Cancel a task and its dependents that have not started; `none` when the recursion is deeper
than the fuel. -/
def cancelTaskFuel : ℕ → TaskGraph → TaskId → Option (List TaskId × TaskGraph)
  | 0, _, _ => none
  | fuel + 1, g, taskId =>
    match g.transition taskId .cancel with
    | .error _ => some ([], g)
    | .ok (_, g') =>
      (g'.markFailed taskId).foldlM (cancelStep (cancelTaskFuel fuel)) ([taskId], g')

/-- `cancel_task`. Each recursive call is made with one task less to cancel, so the number of
tasks is fuel enough. -/
def cancelTask (g : TaskGraph) (taskId : TaskId) : Option (List TaskId × TaskGraph) :=
  cancelTaskFuel (g.tasks.keys.card + 1) g taskId

def addSubtasksLoop (parentTaskId : TaskId) :
    List Task → List TaskId → TaskGraph → Except GraphError (List TaskId) × TaskGraph
  | [], ids, g => (.ok ids, g)
  | task :: rest, ids, g =>
    match g.addTask { task with parentTask := some parentTaskId } with
    | (.error e, g') => (.error e, g')
    | (.ok (), g') => addSubtasksLoop parentTaskId rest (ids ++ [task.id]) g'

def addSubtasks (g : TaskGraph) (parentTaskId : TaskId) (subtasks : List Task) :
    Except GraphError (List TaskId) × TaskGraph :=
  match g.get parentTaskId with
  | none => (.error (.taskNotFound parentTaskId.text), g)
  | some _ => addSubtasksLoop parentTaskId subtasks [] g

end SchedulingOps

end Wacp
