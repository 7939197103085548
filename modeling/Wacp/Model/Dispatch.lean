import Wacp.Model.TaskGraph
import Wacp.Model.Topology

/-!
# The dispatcher

`wacp-coordinator/src/dispatch.rs`: while the topology has capacity, `try_dispatch` creates a
workspace for each dispatchable task and binds the two. The order of the tasks, that of a `HashMap`,
is an argument.
-/

namespace Wacp

open Library

structure DispatchConfig where
  maxConcurrentWorkspaces : Option ℕ
  defaultBudget : ResourceBudget
  budgetMargin : Float32

structure DispatchAction where
  taskId : TaskId
  (workspaceId parent : WorkspaceId)
  budget : ResourceBudget

structure Dispatcher where
  config : DispatchConfig
  nextWsId : ℕ

namespace Dispatcher

def new (config : DispatchConfig) : Dispatcher := { config := config, nextWsId := 1 }

/-- The parent of a new workspace: the workspace of the parent task, else the root. -/
def selectParent (graph : TaskGraph) (task : Task) (root : WorkspaceId) : WorkspaceId :=
  match task.parentTask.bind graph.get with
  | some parentTask => parentTask.workspaceRef.getD root
  | none => root

def allocateBudget (d : Dispatcher) (base : ResourceBudget) : ResourceBudget :=
  let scale : Float := 1.0 + d.config.budgetMargin.toFloat
  let scaled (v : ℕ) : ℕ := ((UInt64.ofNat v).toFloat * scale).toUInt64.toNat
  { maxTokens := base.maxTokens.map scaled
    maxWallTimeMs := base.maxWallTimeMs.map scaled
    maxStorageBytes := base.maxStorageBytes.map scaled
    maxNetworkBytes := base.maxNetworkBytes.map scaled
    maxCostMicros := base.maxCostMicros.map scaled
    warningThreshold := base.warningThreshold }

def hasCapacity (topo : TopologySet) : Option ℕ → Bool
  | none => true
  | some limit =>
    let active := topo.tree.activeWorkspaces.card
    let workerCount := if active > 0 then active - 1 else 0
    decide (workerCount < limit)

def wsId (n : ℕ) : WorkspaceId := ⟨"ws-" ++ toString n⟩

def generateWorkspaceId (d : Dispatcher) : Dispatcher × WorkspaceId :=
  ({ d with nextWsId := d.nextWsId + 1 }, wsId d.nextWsId)

end Dispatcher

structure DispatchState where
  dispatcher : Dispatcher
  graph : TaskGraph
  topo : TopologySet
  actions : List DispatchAction

namespace DispatchState

open Dispatcher

def paramsFor (s : DispatchState) (taskId : TaskId) (parent id : WorkspaceId) :
    CreateWorkspaceParams :=
  { id := id
    parent := parent
    owner := ((s.topo.tree.get s.topo.tree.root).map (·.owner)).getD ⟨"system"⟩
    originator := .system
    status := .idle
    taskId := some taskId }

def dispatchOne (s : DispatchState) (taskId : TaskId) : DispatchState :=
  match s.graph.get taskId with
  | none => s
  | some task =>
    let parent := selectParent s.graph task s.topo.tree.root
    let budget := s.dispatcher.allocateBudget s.dispatcher.config.defaultBudget
    let (dispatcher, workspaceId) := s.dispatcher.generateWorkspaceId
    let s₁ := { s with dispatcher := dispatcher }
    match s.topo.createWorkspace (s.paramsFor taskId parent workspaceId) with
    | .error _ => s₁
    | .ok topo =>
      let s₂ := { s₁ with topo := topo }
      match s.graph.bind taskId workspaceId with
      | .error _ => s₂
      | .ok graph =>
        { s₂ with
          graph := graph
          actions := s.actions ++ [⟨taskId, workspaceId, parent, budget⟩] }

/-- The loop of `try_dispatch`; it stops when there is no capacity. -/
def dispatchLoop : List TaskId → DispatchState → DispatchState
  | [], s => s
  | taskId :: rest, s =>
    if hasCapacity s.topo s.dispatcher.config.maxConcurrentWorkspaces then
      dispatchLoop rest (s.dispatchOne taskId)
    else s

end DispatchState

def Dispatcher.tryDispatch (d : Dispatcher) (order : List TaskId) (graph : TaskGraph)
    (topo : TopologySet) : DispatchState :=
  DispatchState.dispatchLoop order
    { dispatcher := d, graph := graph, topo := topo, actions := [] }

end Wacp
