import Wacp.Analysis.CancelReach

/-!
# Cancellation of a task and its dependents

`SchedulingOps::cancel_task` also cancels the dependents that have not started; the service's
CancelTask makes one transition and one abort.
-/

namespace Wacp.Runtime

open Library List Option
open TaskGraph

/-- A running actor of the workspace has the abort at the end of its queue. -/
def SentAbort (r r' : Runtime) (ws : WorkspaceId) : Prop :=
  ∀ handle actor, r.system.coordinator.workspaceHandles.get ws = some handle →
    r.system.actors[handle]? = some actor → actor.stopped = false →
      r'.system.actors[handle]? =
        some { actor with coordinatorRx := actor.coordinatorRx ++ [.abort] }

/-- `r'` agrees with a cascade from `r` that cancelled `ids` and left the graph `g`. -/
structure AgreesWith (r r' : Runtime) (ids : List TaskId) (g : TaskGraph) : Prop where
  cancelled : ∀ y, r'.graph.IsCancelled y ↔ g.IsCancelled y
  counters : ∀ y, ¬ g.IsCancelled y → r'.graph.remainingDeps.get y = g.remainingDeps.get y
  aborted : ∀ y ∈ ids, ∀ ws, r.graph.refOf y = some ws → SentAbort r r' ws

variable {r : Runtime} {x : String}

/-- **What a successful request does**: one transition and one abort. -/
theorem cancelTask_ok (h : (r.cancelTask x).2 = .ok .cancelTask) :
    r.graph.transition ⟨x⟩ .cancel = .ok (.cancelled, r.graph.setStatus ⟨x⟩ .cancelled) ∧
      (r.cancelTask x).1.graph = r.graph.setStatus ⟨x⟩ .cancelled ∧
      ∀ ws, r.graph.refOf ⟨x⟩ = some ws → SentAbort r (r.cancelTask x).1 ws := by
  unfold Runtime.cancelTask at h ⊢
  cases htr : r.graph.transition ⟨x⟩ .cancel with
  | error =>
    rw [htr] at h
    cases h
  | ok res =>
    obtain ⟨status, g⟩ := res
    obtain ⟨-, -, -, rfl, rfl⟩ := transition_cancel htr
    have href : ((r.graph.setStatus ⟨x⟩ .cancelled).get ⟨x⟩).bind (·.workspaceRef) =
        r.graph.refOf ⟨x⟩ := (sameBindings_setStatus r.graph ⟨x⟩ .cancelled).ref ⟨x⟩
    dsimp only
    rw [href]
    cases hws : r.graph.refOf ⟨x⟩ with
    | none => exact ⟨rfl, rfl, by simp⟩
    | some ws =>
      refine ⟨rfl, rfl, ?_⟩
      intro ws' heq handle actor hhandle hactor hrun
      cases heq
      have hcmd : r.system.coordinator.command ws .abort = [(handle, .abort)] := by
        unfold Coordinator.command
        rw [hhandle]
      show (List.foldl System.deliver r.system.actors
        (r.system.coordinator.command ws .abort))[handle]? = _
      rw [hcmd]
      simp [System.deliver, hactor, hrun]

/-- **CancelTask and the cascade**, for every runtime and task. -/
theorem cancelTask_agrees_iff (r : Runtime) (x : String)
    (h : (r.cancelTask x).2 = .ok .cancelTask) :
    ∃ ids g, SchedulingOps.cancelTask r.graph ⟨x⟩ = some (ids, g) ∧
      (AgreesWith r (r.cancelTask x).1 ids g ↔
        ∀ d ∈ r.graph.forward.getList ⟨x⟩, d ≠ ⟨x⟩ → ¬ r.graph.Waits d) ∧
      (AgreesWith r (r.cancelTask x).1 ids g → (r.cancelTask x).1.graph = g) := by
  obtain ⟨htr, hgraph, habort⟩ := cancelTask_ok h
  obtain ⟨ids, hcancel, hswept⟩ := SchedulingOps.cancelTask_sweep htr
  by_cases hno : ∀ d ∈ r.graph.forward.getList ⟨x⟩, d ≠ ⟨x⟩ → ¬ r.graph.Waits d
  · have hone : ids = [] := by
      refine eq_nil_iff_forall_not_mem.mpr fun d hd => ?_
      obtain ⟨-, s, hs, hw, -⟩ := hswept.reached d hd
      obtain ⟨hne, hw⟩ := waits_cancelAll.mp hw
      exact hno s hs (fun h => hne (mem_singleton.mpr h)) hw
    subst hone
    refine ⟨_, _, hcancel, iff_of_true ?_ hno, fun _ => hgraph⟩
    refine ⟨?_, ?_, ?_⟩
    · intro y
      rw [hgraph]
      rfl
    · intro y _
      rw [hgraph]
      rfl
    · intro y hy ws hws
      rw [mem_singleton] at hy
      rw [hy] at hws
      exact habort ws hws
  · have hdis : ¬ AgreesWith r (r.cancelTask x).1 (⟨x⟩ :: ids)
        (r.graph.cancelAll (⟨x⟩ :: ids)) := by
      intro hagree
      -- a dependent that waits is cancelled by the cascade and not by the request
      refine hno fun d hd hne hw => ?_
      obtain ⟨t', ht', hst'⟩ := hw
      have hmem := (hswept.mem_cons_iff d).mpr (.single ⟨hd, t', ht', hst'⟩)
      obtain ⟨t, ht, hst⟩ := (hagree.cancelled d).mpr (isCancelled_cancelAll hmem ht')
      rw [hgraph, get_setStatus, ht', map_some, if_neg hne] at ht
      cases ht
      rw [hst] at hst'
      obtain hst' | hst' := hst' <;> cases hst'
    exact ⟨_, _, hcancel, iff_of_false hdis hno, fun hagree => absurd hagree hdis⟩

theorem cancelTask_agrees_of_last :
    ∃ ids g, SchedulingOps.cancelTask chainRuntime.graph ⟨"task-decompose-1"⟩ = some (ids, g) ∧
      AgreesWith chainRuntime (chainRuntime.cancelTask "task-decompose-1").1 ids g := by
  obtain ⟨ids, g, hcancel, hiff, -⟩ :=
    cancelTask_agrees_iff chainRuntime "task-decompose-1" (by decide)
  refine ⟨ids, g, hcancel, hiff.mpr ?_⟩
  intro d hd
  have hnil : chainRuntime.graph.forward.getList ⟨"task-decompose-1"⟩ = [] := by decide
  rw [hnil] at hd
  cases hd

/-- The cascade cancels the second task, the request leaves it Pending. -/
theorem cancelTask_leaves_dependent :
    (chainRuntime.cancelTask "task-decompose-0").2 = .ok .cancelTask ∧
      ∀ ids g, SchedulingOps.cancelTask chainRuntime.graph ⟨"task-decompose-0"⟩ = some (ids, g) →
        ¬ AgreesWith chainRuntime (chainRuntime.cancelTask "task-decompose-0").1 ids g := by
  refine ⟨by decide, ?_⟩
  intro ids g hcancel hagree
  have hcascade : (SchedulingOps.cancelTask chainRuntime.graph ⟨"task-decompose-0"⟩).map
      (fun res => (res.2.tasks.get ⟨"task-decompose-1"⟩).map Task.status) =
        some (some .cancelled) := by decide
  have hrequest : ((chainRuntime.cancelTask "task-decompose-0").1.graph.tasks.get
      ⟨"task-decompose-1"⟩).map Task.status = some .pending := by decide
  rw [hcancel] at hcascade
  obtain ⟨t, ht, hst⟩ := map_eq_some_iff.mp (Option.some.inj hcascade)
  obtain ⟨t', ht', hst'⟩ := (hagree.cancelled ⟨"task-decompose-1"⟩).mpr ⟨t, ht, hst⟩
  rw [ht'] at hrequest
  rw [map_some, hst'] at hrequest
  cases hrequest

end Wacp.Runtime
