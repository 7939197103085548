import Wacp.Analysis.DispatchBinding

/-!
# Retried tasks and the dispatcher

`prepare_retry` unbinds a failed task and leaves it Failed, while `try_dispatch` goes through the
Pending tasks only.
-/

namespace Wacp

open Library List Option Table

namespace DispatchState

open Dispatcher TaskGraph

variable {s s' s'' : DispatchState} {t : TaskId}

/-- No workspace is gone, and the task, its bindings and the reports about it are the same. -/
structure Passes (t : TaskId) (s s' : DispatchState) : Prop where
  nodes : ∀ w, s'.topo.tree.get w = none → s.topo.tree.get w = none
  task : s'.graph.get t = s.graph.get t
  bound : ∀ w, s.graph.taskForWorkspace w = some t → s'.graph.taskForWorkspace w = some t
  actions : ∀ a : DispatchAction, a.taskId = t → (a ∈ s'.actions ↔ a ∈ s.actions)

theorem Passes.refl (t : TaskId) (s : DispatchState) : Passes t s s :=
  ⟨fun _ h => h, rfl, fun _ h => h, fun _ _ => Iff.rfl⟩

theorem Passes.trans (h : Passes t s s') (h' : Passes t s' s'') : Passes t s s'' where
  nodes w hw := h.nodes w (h'.nodes w hw)
  task := h'.task.trans h.task
  bound w hw := h'.bound w (h.bound w hw)
  actions a ha := (h'.actions a ha).trans (h.actions a ha)

section

variable {topo topo' : TopologySet} {params : CreateWorkspaceParams}
  (h : topo.createWorkspace params = .ok topo')
include h

end

end DispatchState

namespace DispatchSystem

open Dispatcher DispatchState TaskGraph

variable {s : DispatchSystem} {t : TaskId} {order : List TaskId}

def Begun (g : TaskGraph) (t : TaskId) : Prop :=
  ∃ task, g.tasks.get t = some task ∧ task.status ≠ .draft ∧ task.status ≠ .pending

theorem Begun.of_sameTasks {g g' : TaskGraph} (h : Begun g t) (hs : SameTasks g g') :
    Begun g' t := by
  obtain ⟨task, ht, hdraft, hpending⟩ := h
  obtain ⟨f, hget, hf⟩ := hs.tasks
  refine ⟨f t task, by rw [hget, ht, map_some], ?_⟩
  rw [(hf t task).2.2]
  exact ⟨hdraft, hpending⟩

end DispatchSystem

end Wacp
