import Mathlib.Algebra.BigOperators.Group.Finset.Defs
import Wacp.Model.TaskGraph

/-!
# The task list of GetTaskGraph

The query of `wacp-coordinator/src/handler.rs`; `wacp-runtime/src/highway_service.rs` goes through
the graph in the same way. The order in which the hash map lists the roots is a parameter.
-/

namespace Wacp.TaskGraph

structure TaskView where
  id : TaskId
  name : String
  status : TaskStatus
  workspaceRef : Option WorkspaceId
  dependsOn : List TaskId
  parentTask : Option TaskId
  deriving DecidableEq

def TaskView.of (task : Task) : TaskView :=
  { id := task.id, name := task.name, status := task.status, workspaceRef := task.workspaceRef
    dependsOn := task.dependsOn, parentTask := task.parentTask }

variable (g : TaskGraph)

def dependents (id : TaskId) : List TaskId := g.forward.getList id

def roots : Multiset TaskId :=
  (g.tasks.values.filter fun t => t.parentTask = none).map (·.id)

/-- The loop over the queue; `none` when it takes more steps than the fuel. -/
def listTasks {V : Type} (view : Task → V) :
    ℕ → List TaskId → Finset TaskId → List V → Option (List V)
  | _, [], _, tasks => some tasks
  | 0, _ :: _, _, _ => none
  | fuel + 1, tid :: queue, visited, tasks =>
    if tid ∈ visited then listTasks view fuel queue visited tasks
    else
      match g.get tid with
      | some task =>
        listTasks view fuel (queue ++ g.dependents tid) (insert tid visited) (tasks ++ [view task])
      | none => listTasks view fuel queue (insert tid visited) tasks

/-- What is popped was a root or a dependent of a task visited once, so there are not more steps
than these. -/
def handleGetTaskGraph (roots : List TaskId) : Option (List TaskView) :=
  g.listTasks TaskView.of (roots.length + ∑ id ∈ g.tasks.keys, (g.dependents id).length)
    roots ∅ []

end Wacp.TaskGraph
