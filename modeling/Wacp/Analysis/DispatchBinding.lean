import Wacp.Model.Dispatch
import Wacp.Analysis.AtomicAdd
import Wacp.Analysis.RightsExpiry

/-!
# Dispatched workspaces and their tasks

`try_dispatch` leaves its tasks Pending, so the next call picks them again. A workspace is created
before the binding is tried, and stays if that fails.
-/

namespace Wacp

open Library List Option Table

/-! ## Bindings -/

namespace TaskGraph

variable {g g' : TaskGraph}

def BoundTo (g : TaskGraph) (w : WorkspaceId) (t : TaskId) : Prop :=
  g.taskForWorkspace w = some t ∧ ∃ task, g.get t = some task ∧ task.workspaceRef = some w

def IsBound (g : TaskGraph) (t : TaskId) : Prop :=
  ∃ task w, g.get t = some task ∧ task.workspaceRef = some w

theorem bind_eq_ok {t : TaskId} {w : WorkspaceId} {task : Task} (ht : g.tasks.get t = some task)
    (hfree : task.workspaceRef = none) (hw : g.workspaceTask.get w = none) :
    ∃ g', g.bind t w = .ok g' ∧ g'.remainingDeps = g.remainingDeps ∧
      (∀ w', g'.workspaceTask.get w' = if w' = w then some t else g.workspaceTask.get w') ∧
      ∀ k, g'.tasks.get k = (g.tasks.get k).map fun task => if k = t then { task with
        workspaceRef := some w
        workspaceHistory := task.workspaceHistory ++ [w] } else task := by
  have hnot : g.workspaceTask.contains w = false := contains_eq_false_iff.mpr hw
  unfold bind
  simp only [ht, hfree, hnot, isSome_none, Bool.false_eq_true, if_false]
  refine ⟨_, rfl, rfl, fun w' => get_set _, fun k => ?_⟩
  rw [get_modify]
  by_cases hk : k = t <;> simp [hk]

theorem IsBound.ref {t : TaskId} (h : g.IsBound t)
    (hfree : ∀ task, g.get t = some task → task.workspaceRef = none) : False := by
  obtain ⟨task, w, ht, href⟩ := h
  rw [hfree task ht] at href
  cases href

theorem mem_dispatchable {id : TaskId} : id ∈ g.dispatchable ↔ ∃ k t, g.tasks.get k = some t ∧
    t.id = id ∧ t.status = .pending ∧ (g.remainingDeps.get id).getD 0 = 0 := by
  unfold dispatchable
  rw [Multiset.mem_map]
  constructor
  · rintro ⟨t, hmem, rfl⟩
    obtain ⟨hval, hpending, hcount⟩ := Multiset.mem_filter.mp hmem
    obtain ⟨k, hk⟩ := mem_values.mp hval
    exact ⟨k, t, hk, rfl, hpending, hcount⟩
  · rintro ⟨k, t, hk, rfl, hpending, hcount⟩
    refine ⟨t, Multiset.mem_filter.mpr ⟨?_, hpending, hcount⟩, rfl⟩
    exact mem_values.mpr ⟨k, hk⟩

def Keyed (g : TaskGraph) : Prop := ∀ k t, g.tasks.get k = some t → t.id = k

theorem Keyed.nodup_dispatchable (h : g.Keyed) : g.dispatchable.Nodup := by
  have hkeys : (g.tasks.values.map (·.id)).Nodup := by
    rw [map_values_eq_keys h]
    exact g.tasks.keys.nodup
  exact Multiset.nodup_of_le (Multiset.map_le_map (Multiset.filter_le _ _)) hkeys

theorem Keyed.of_map (h : g.Keyed) (f : TaskId → Task → Task)
    (hget : ∀ k, g'.tasks.get k = (g.tasks.get k).map (f k)) (hid : ∀ k t, (f k t).id = t.id) :
    g'.Keyed := by
  intro k t' ht'
  rw [hget] at ht'
  obtain ⟨t, ht, rfl⟩ := map_eq_some_iff.mp ht'
  rw [hid]
  exact h k t ht

theorem Keyed.addTask (h : g.Keyed) (task : Task) : (g.addTask task).2.Keyed := by
  rcases g.addTask_cases task with ⟨-, hadd⟩ | ⟨-, -, g', hadd⟩ | ⟨-, _, _, _, -, -, -, hadd⟩
  · rw [hadd]
    exact h
  · rw [hadd]
    obtain ⟨-, -, rfl⟩ := addTask_ok hadd
    intro k t ht
    have ht' := (get_set g.tasks).symm.trans ht
    split at ht'
    · rename_i hk
      cases ht'
      exact hk.symm
    · exact h k t ht'
  · rw [hadd]
    exact h

theorem Keyed.setStatus (h : g.Keyed) (id : TaskId) (status : TaskStatus) :
    (g.setStatus id status).Keyed :=
  h.of_map _ get_setStatus fun _ _ => rfl

theorem Keyed.of_sameTasks (h : g.Keyed) (hs : SameTasks g g') : g'.Keyed := by
  obtain ⟨f, hget, hf⟩ := hs.tasks
  exact h.of_map f hget fun k t => (hf k t).1

end TaskGraph

namespace DispatchState

open Dispatcher TaskGraph

variable {s s' s'' : DispatchState}

/-! ## One task -/

/-- The tasks `todo` are distinct and unbound, and the identifiers they may need are free. -/
structure Clear (todo : List TaskId) (s : DispatchState) : Prop where
  nodup : todo.Nodup
  unbound : ∀ id ∈ todo, ∀ task, s.graph.get id = some task → task.workspaceRef = none
  free : ∀ m, s.dispatcher.nextWsId ≤ m → m < s.dispatcher.nextWsId + todo.length →
    s.topo.tree.get (wsId m) = none ∧ s.graph.taskForWorkspace (wsId m) = none

/-- The parent the task's workspace would go under is no node. -/
def Unplaceable (graph : TaskGraph) (topo : TopologySet) (id : TaskId) : Prop :=
  ∀ task, graph.get id = some task →
    topo.tree.get (selectParent graph task topo.tree.root) = none

/-- Nodes and bindings stay, and every new node is bound to its task and reported. -/
structure Extends (s s' : DispatchState) : Prop where
  config : s'.dispatcher.config = s.dispatcher.config
  next : s.dispatcher.nextWsId ≤ s'.dispatcher.nextWsId
  node : ∀ w n, s.topo.tree.get w = some n → ∃ n', s'.topo.tree.get w = some n' ∧
    n'.taskId = n.taskId
  binding : ∀ w t, s.graph.BoundTo w t → s'.graph.BoundTo w t
  created : ∀ w n, s.topo.tree.get w = none → s'.topo.tree.get w = some n →
    ∃ t action, n.taskId = some t ∧ s'.graph.BoundTo w t ∧ action ∈ s'.actions ∧
      action.workspaceId = w ∧ action.taskId = t
  reports : ∃ added, s'.actions = s.actions ++ added ∧ (added.map (·.workspaceId)).Nodup ∧
    ∀ a ∈ added, ∃ m, s.dispatcher.nextWsId ≤ m ∧ m < s'.dispatcher.nextWsId ∧
      a.workspaceId = wsId m

theorem Extends.refl (s : DispatchState) : Extends s s where
  config := rfl
  next := le_refl _
  node w n h := ⟨n, h, rfl⟩
  binding _ _ h := h
  created w n h h' := by
    rw [h] at h'
    cases h'
  reports := ⟨[], by simp⟩

theorem wsId_injective {m n : ℕ} (h : wsId m = wsId n) : m = n :=
  numbered_injective "ws-" (congrArg WorkspaceId.text h)

theorem Extends.trans (h : Extends s s') (h' : Extends s' s'') : Extends s s'' where
  config := h'.config.trans h.config
  next := h.next.trans h'.next
  node w n hn := by
    obtain ⟨n', hn', ht'⟩ := h.node w n hn
    obtain ⟨n'', hn'', ht''⟩ := h'.node w n' hn'
    exact ⟨n'', hn'', ht''.trans ht'⟩
  binding w t hb := h'.binding w t (h.binding w t hb)
  created w n hnone hsome := by
    obtain ⟨added, hactions, -, -⟩ := h'.reports
    cases hmid : s'.topo.tree.get w with
    | none => exact h'.created w n hmid hsome
    | some n' =>
      obtain ⟨t, action, ht, hb, hmem, hw, hid⟩ := h.created w n' hnone hmid
      obtain ⟨n'', hn'', htag⟩ := h'.node w n' hmid
      rw [hsome] at hn''
      cases hn''
      refine ⟨t, action, htag.trans ht, h'.binding w t hb, ?_, hw, hid⟩
      rw [hactions]
      exact mem_append_left _ hmem
  reports := by
    obtain ⟨added, hactions, hnd, hids⟩ := h.reports
    obtain ⟨added', hactions', hnd', hids'⟩ := h'.reports
    have hnext := h.next
    have hnext' := h'.next
    refine ⟨added ++ added', by rw [hactions', hactions, append_assoc], ?_, ?_⟩
    · rw [map_append, nodup_append]
      refine ⟨hnd, hnd', ?_⟩
      intro w hw w' hw' heq
      obtain ⟨a, ha, rfl⟩ := mem_map.mp hw
      obtain ⟨a', ha', rfl⟩ := mem_map.mp hw'
      obtain ⟨m, -, hm, hid⟩ := hids a ha
      obtain ⟨m', hm', -, hid'⟩ := hids' a' ha'
      have := wsId_injective (hid.symm.trans (heq.trans hid'))
      omega
    · intro a ha
      rcases mem_append.mp ha with ha | ha
      · obtain ⟨m, hlow, hhigh, hid⟩ := hids a ha
        exact ⟨m, hlow, by omega, hid⟩
      · obtain ⟨m, hlow, hhigh, hid⟩ := hids' a ha
        exact ⟨m, by omega, hhigh, hid⟩

variable {topo : TopologySet} {params : CreateWorkspaceParams}

theorem createWorkspace_error {e : TreeError}
    (hfree : topo.tree.get params.id = none) (h : topo.createWorkspace params = .error e) :
    topo.tree.get params.parent = none := by
  have hnot : topo.tree.nodes.contains params.id = false :=
    contains_eq_false_iff.mpr hfree
  cases hp : topo.tree.nodes.contains params.parent with
  | false => exact contains_eq_false_iff.mp hp
  | true =>
    simp [TopologySet.createWorkspace, WorkspaceTree.insert, TopologySet.nodeOf, hnot, hp] at h

theorem createWorkspace_of_orphan (params : CreateWorkspaceParams)
    (h : topo.tree.get params.parent = none) : ∃ e, topo.createWorkspace params = .error e := by
  have hp : topo.tree.nodes.contains params.parent = false :=
    contains_eq_false_iff.mpr h
  unfold TopologySet.createWorkspace WorkspaceTree.insert TopologySet.nodeOf
  by_cases hid : topo.tree.nodes.contains params.id
  · simp [hid]
  · simp [hid, hp]

theorem createWorkspace_get {topo' : TopologySet}
    (h : topo.createWorkspace params = .ok topo') (w : WorkspaceId) :
    (topo'.tree.get w).map (·.taskId) =
      if w = params.id then some params.taskId else (topo.tree.get w).map (·.taskId) := by
  unfold TopologySet.createWorkspace at h
  split at h
  · cases h
  · rename_i tree hins
    cases h
    exact WorkspaceTree.map_get_insert hins (·.taskId) (fun _ _ => rfl) w

structure Skipped (s s' : DispatchState) (id : TaskId) : Prop where
  unplaceable : Unplaceable s.graph s.topo id
  config : s'.dispatcher.config = s.dispatcher.config
  next_le : s.dispatcher.nextWsId ≤ s'.dispatcher.nextWsId
  le_next : s'.dispatcher.nextWsId ≤ s.dispatcher.nextWsId + 1
  graph : s'.graph = s.graph
  topo : s'.topo = s.topo
  actions : s'.actions = s.actions

structure Placed (s s' : DispatchState) (id : TaskId) : Prop where
  exists_task : ∃ task, s.graph.tasks.get id = some task
  config : s'.dispatcher.config = s.dispatcher.config
  next : s'.dispatcher.nextWsId = s.dispatcher.nextWsId + 1
  tags : ∀ w, (s'.topo.tree.get w).map (·.taskId) =
    if w = wsId s.dispatcher.nextWsId then some (some id) else (s.topo.tree.get w).map (·.taskId)
  counters : s'.graph.remainingDeps = s.graph.remainingDeps
  reverse : ∀ w, s'.graph.taskForWorkspace w =
    if w = wsId s.dispatcher.nextWsId then some id else s.graph.taskForWorkspace w
  tasks : ∀ k, s'.graph.tasks.get k = (s.graph.tasks.get k).map fun task =>
    if k = id then { task with
      workspaceRef := some (wsId s.dispatcher.nextWsId)
      workspaceHistory := task.workspaceHistory ++ [wsId s.dispatcher.nextWsId] } else task
  actions : ∃ parent budget, s'.actions =
    s.actions ++ [⟨id, wsId s.dispatcher.nextWsId, parent, budget⟩]

theorem dispatchOne_cases {id : TaskId} {rest : List TaskId} (h : Clear (id :: rest) s) :
    Skipped s (s.dispatchOne id) id ∨ Placed s (s.dispatchOne id) id := by
  obtain ⟨hnode, hrev⟩ := h.free s.dispatcher.nextWsId (le_refl _) (by simp)
  unfold dispatchOne
  cases htask : s.graph.get id with
  | none =>
    left
    refine ⟨?_, rfl, le_refl _, by simp, rfl, rfl, rfl⟩
    intro task ht
    rw [htask] at ht
    cases ht
  | some task =>
    simp only [generateWorkspaceId]
    cases hcreate : s.topo.createWorkspace (s.paramsFor id
        (selectParent s.graph task s.topo.tree.root) (wsId s.dispatcher.nextWsId)) with
    | error e =>
      left
      refine ⟨?_, rfl, by simp, by simp, rfl, rfl, rfl⟩
      intro task' ht'
      rw [htask] at ht'
      cases ht'
      exact createWorkspace_error hnode hcreate
    | ok topo =>
      right
      have hunbound := h.unbound id (by simp) task htask
      obtain ⟨graph, hbind, hcounts, hback, htasks⟩ := bind_eq_ok htask hunbound hrev
      simp only [hbind]
      exact ⟨⟨task, htask⟩, rfl, rfl, createWorkspace_get hcreate, hcounts, hback, htasks,
        _, _, rfl⟩

theorem Skipped.isExtension {id : TaskId} (h : Skipped s s' id) : Extends s s' where
  config := h.config
  next := h.next_le
  node w n hn := ⟨n, by rw [h.topo]; exact hn, rfl⟩
  binding w t hb := by
    rw [h.graph]
    exact hb
  created w n hnone hsome := by
    rw [h.topo, hnone] at hsome
    cases hsome
  reports := ⟨[], by simp [h.actions]⟩

theorem Skipped.clear {id : TaskId} {rest : List TaskId} (h : Skipped s s' id)
    (hclear : Clear (id :: rest) s) : Clear rest s' := by
  have hlow := h.next_le
  have hhigh := h.le_next
  refine ⟨(nodup_cons.mp hclear.nodup).2, ?_, ?_⟩
  · rw [h.graph]
    exact fun k hk => hclear.unbound k (mem_cons_of_mem id hk)
  · intro m hm hm'
    rw [h.graph, h.topo]
    exact hclear.free m (by omega) (by simp only [length_cons]; omega)

section Placed

variable {id : TaskId} {rest : List TaskId}

theorem Placed.boundTo (h : Placed s s' id) : s'.graph.BoundTo (wsId s.dispatcher.nextWsId) id := by
  obtain ⟨task, ht⟩ := h.exists_task
  refine ⟨by rw [h.reverse, if_pos rfl], { task with
    workspaceRef := some (wsId s.dispatcher.nextWsId)
    workspaceHistory := task.workspaceHistory ++ [wsId s.dispatcher.nextWsId] }, ?_, rfl⟩
  rw [TaskGraph.get, h.tasks, ht]
  simp

theorem Placed.isExtension (h : Placed s s' id) (hclear : Clear (id :: rest) s) : Extends s s' := by
  obtain ⟨hnode, hrev⟩ := hclear.free s.dispatcher.nextWsId (le_refl _) (by simp)
  obtain ⟨parent, budget, hactions⟩ := h.actions
  have hnext := h.next
  refine ⟨h.config, by omega, ?_, ?_, ?_, ?_⟩
  · intro w n hn
    have hne : w ≠ wsId s.dispatcher.nextWsId := by
      rintro rfl
      rw [hnode] at hn
      cases hn
    have hw := h.tags w
    rw [if_neg hne, hn] at hw
    obtain ⟨n', hn', htag⟩ := map_eq_some_iff.mp hw
    exact ⟨n', hn', htag⟩
  · -- an old binding is of another workspace and another task
    rintro w t ⟨hback, t₀, ht₀, href⟩
    have hne : w ≠ wsId s.dispatcher.nextWsId := by
      rintro rfl
      rw [hrev] at hback
      cases hback
    have hkt : t ≠ id := by
      rintro rfl
      rw [hclear.unbound t (by simp) t₀ ht₀] at href
      cases href
    refine ⟨by rw [h.reverse, if_neg hne]; exact hback, t₀, ?_, href⟩
    rw [TaskGraph.get, h.tasks, show s.graph.tasks.get t = some t₀ from ht₀]
    simp [hkt]
  · intro w n hnone hsome
    have hw := h.tags w
    rw [hsome, hnone] at hw
    by_cases hwid : w = wsId s.dispatcher.nextWsId
    · rw [if_pos hwid] at hw
      refine ⟨id, ⟨id, wsId s.dispatcher.nextWsId, parent, budget⟩, Option.some.inj hw,
        hwid ▸ h.boundTo, ?_, hwid.symm, rfl⟩
      rw [hactions]
      simp
    · rw [if_neg hwid] at hw
      cases hw
  · refine ⟨_, hactions, by simp, fun a ha => ⟨s.dispatcher.nextWsId, le_refl _, by omega, ?_⟩⟩
    rw [mem_singleton.mp ha]

theorem Placed.clear (h : Placed s s' id) (hclear : Clear (id :: rest) s) : Clear rest s' := by
  obtain ⟨hid, hrest⟩ := nodup_cons.mp hclear.nodup
  have hnext := h.next
  refine ⟨hrest, ?_, ?_⟩
  · intro k hk t ht
    have hne : k ≠ id := fun e => hid (e ▸ hk)
    rw [TaskGraph.get, h.tasks] at ht
    obtain ⟨t₀, ht₀, rfl⟩ := map_eq_some_iff.mp ht
    rw [if_neg hne]
    exact hclear.unbound k (mem_cons_of_mem id hk) t₀ ht₀
  · intro m hm hm'
    obtain ⟨hnode, hrev⟩ := hclear.free m (by omega) (by simp only [length_cons]; omega)
    have hne : wsId m ≠ wsId s.dispatcher.nextWsId := by
      intro e
      have := wsId_injective e
      omega
    refine ⟨?_, by rw [h.reverse, if_neg hne]; exact hrev⟩
    have hw := h.tags (wsId m)
    rw [if_neg hne, hnode] at hw
    simpa using hw

end Placed

/-! ## The loop -/

variable {todo : List TaskId}

theorem dispatchLoop_extends (h : Clear todo s) : Extends s (dispatchLoop todo s) := by
  induction todo generalizing s with
  | nil => exact Extends.refl s
  | cons id rest ih =>
    unfold dispatchLoop
    split
    · rcases dispatchOne_cases h with hskip | hplaced
      · exact hskip.isExtension.trans (ih (hskip.clear h))
      · exact (hplaced.isExtension h).trans (ih (hplaced.clear h))
    · exact Extends.refl s

theorem dispatchLoop_unbound (h : Clear todo s)
    (hnone : ∀ id ∈ todo, ¬ (dispatchLoop todo s).graph.IsBound id) :
    (dispatchLoop todo s).graph = s.graph ∧ (dispatchLoop todo s).topo = s.topo ∧
      (hasCapacity s.topo s.dispatcher.config.maxConcurrentWorkspaces →
        ∀ id ∈ todo, Unplaceable s.graph s.topo id) := by
  induction todo generalizing s with
  | nil => exact ⟨rfl, rfl, by simp⟩
  | cons id rest ih =>
    unfold dispatchLoop at hnone ⊢
    split
    · rename_i hcap
      rw [if_pos hcap] at hnone
      rcases dispatchOne_cases h with hskip | hplaced
      · obtain ⟨hgraph, htopo, hrest⟩ := ih (hskip.clear h)
          fun k hk => hnone k (mem_cons_of_mem id hk)
        rw [hskip.graph, hskip.topo, hskip.config] at hrest
        refine ⟨hgraph.trans hskip.graph, htopo.trans hskip.topo, fun _ k hk => ?_⟩
        rcases mem_cons.mp hk with rfl | hk
        · exact hskip.unplaceable
        · exact hrest hcap k hk
      · -- a placed task stays bound to the end
        have hext := dispatchLoop_extends (hplaced.clear h)
        obtain ⟨-, task, ht, href⟩ := hext.binding _ _ hplaced.boundTo
        exact absurd ⟨task, _, ht, href⟩ (hnone id (by simp))
    · rename_i hcap
      exact ⟨rfl, rfl, fun hcap' => absurd hcap' hcap⟩

theorem dispatchLoop_of_unplaceable (h : ∀ id ∈ todo, Unplaceable s.graph s.topo id) :
    (dispatchLoop todo s).graph = s.graph ∧ (dispatchLoop todo s).topo = s.topo ∧
      (dispatchLoop todo s).actions = s.actions := by
  induction todo generalizing s with
  | nil => exact ⟨rfl, rfl, rfl⟩
  | cons id rest ih =>
    have hone : (s.dispatchOne id).graph = s.graph ∧ (s.dispatchOne id).topo = s.topo ∧
        (s.dispatchOne id).actions = s.actions := by
      unfold dispatchOne
      cases htask : s.graph.get id with
      | none => exact ⟨rfl, rfl, rfl⟩
      | some task =>
        obtain ⟨e, he⟩ := createWorkspace_of_orphan (s.paramsFor id
          (selectParent s.graph task s.topo.tree.root) (wsId s.dispatcher.nextWsId))
          (h id (by simp) task htask)
        simp [generateWorkspaceId, he]
    obtain ⟨hgraph, htopo, hactions⟩ := hone
    unfold dispatchLoop
    split
    · have hrest : ∀ k ∈ rest, Unplaceable (s.dispatchOne id).graph (s.dispatchOne id).topo k := by
        rw [hgraph, htopo]
        exact fun k hk => h k (mem_cons_of_mem id hk)
      obtain ⟨hg, ht, ha⟩ := ih hrest
      exact ⟨hg.trans hgraph, ht.trans htopo, ha.trans hactions⟩
    · exact ⟨rfl, rfl, rfl⟩

theorem sameTasks_dispatchOne {s : DispatchState} {id : TaskId} :
    SameTasks s.graph (s.dispatchOne id).graph := by
  unfold dispatchOne
  split
  · exact SameTasks.refl _
  · simp only
    split
    · exact SameTasks.refl _
    · split
      · exact SameTasks.refl _
      · rename_i graph hbind
        exact sameTasks_bind hbind

theorem sameTasks_dispatchLoop (todo : List TaskId) (s : DispatchState) :
    SameTasks s.graph (dispatchLoop todo s).graph := by
  induction todo generalizing s with
  | nil => exact SameTasks.refl _
  | cons id rest ih =>
    unfold dispatchLoop
    split
    · exact sameTasks_dispatchOne.trans (ih _)
    · exact SameTasks.refl _

theorem mem_dispatchable_dispatchLoop {id : TaskId} (h : Clear todo s)
    (hid : id ∈ s.graph.dispatchable) : id ∈ (dispatchLoop todo s).graph.dispatchable := by
  induction todo generalizing s with
  | nil => exact hid
  | cons k rest ih =>
    unfold dispatchLoop
    split
    · rcases dispatchOne_cases h with hskip | hplaced
      · exact ih (hskip.clear h) (by rw [hskip.graph]; exact hid)
      · apply ih (hplaced.clear h)
        rw [mem_dispatchable] at hid ⊢
        obtain ⟨j, t, ht, htid, hpending, hcount⟩ := hid
        refine ⟨j, _, by rw [hplaced.tasks, ht]; rfl, ?_, ?_, by rw [hplaced.counters]; exact hcount⟩
        · split <;> exact htid
        · split <;> exact hpending
    · exact hid

end DispatchState

/-! ## The system -/

/-- A dispatcher, its graph and topology, and the actions returned so far. -/
structure DispatchSystem where
  dispatcher : Dispatcher
  graph : TaskGraph
  topo : TopologySet
  log : List DispatchAction

namespace DispatchSystem

open Dispatcher DispatchState TaskGraph

variable {s s' s'' : DispatchSystem}

inductive GraphOp where
  | addTask (task : Task)
  | transition (id : TaskId) (trigger : TaskTrigger)
  | markCompleted (id : TaskId)
  | bind (taskId : TaskId) (workspaceId : WorkspaceId)
  | unbind (taskId : TaskId)

def GraphOp.apply (g : TaskGraph) : GraphOp → TaskGraph
  | .addTask task => (g.addTask task).2
  | .transition id trigger =>
    match g.transition id trigger with
    | .ok (_, g') => g'
    | .error _ => g
  | .markCompleted id => (g.markCompleted id).1
  | .bind taskId workspaceId =>
    match g.bind taskId workspaceId with
    | .ok g' => g'
    | .error _ => g
  | .unbind taskId => g.unbind taskId

inductive Op where
  | graph (op : GraphOp)
  | topo (op : TopologySet.Op)
  | tryDispatch (order : List TaskId)

def init (config : DispatchConfig) (rootId : WorkspaceId) (rootOwner : UserId) : DispatchSystem :=
  { dispatcher := .new config, graph := .new, topo := .new rootId rootOwner, log := [] }

def dispatch (s : DispatchSystem) (order : List TaskId) : DispatchSystem :=
  let r := s.dispatcher.tryDispatch order s.graph s.topo
  { dispatcher := r.dispatcher, graph := r.graph, topo := r.topo, log := s.log ++ r.actions }

/-- A call of `try_dispatch` takes the dispatchable tasks in any order. -/
inductive Step : DispatchSystem → Op → DispatchSystem → Prop where
  | graph (s : DispatchSystem) (op : GraphOp) :
      Step s (.graph op) { s with graph := op.apply s.graph }
  | topo (s : DispatchSystem) (op : TopologySet.Op) (topo' : TopologySet)
      (h : s.topo.apply op = some topo') : Step s (.topo op) { s with topo := topo' }
  | tryDispatch (s : DispatchSystem) (order : List TaskId)
      (h : (order : Multiset TaskId) = s.graph.dispatchable) :
      Step s (.tryDispatch order) (s.dispatch order)

/-- No capacity, or no dispatchable task is bound and the next identifiers are free. -/
def Guarded (s : DispatchSystem) : Op → Prop
  | .tryDispatch _ =>
    hasCapacity s.topo s.dispatcher.config.maxConcurrentWorkspaces = false ∨
      ((∀ id ∈ s.graph.dispatchable, ∀ task, s.graph.get id = some task →
          task.workspaceRef = none) ∧
        ∀ m, s.dispatcher.nextWsId ≤ m →
          m < s.dispatcher.nextWsId + s.graph.dispatchable.card →
            s.topo.tree.get (wsId m) = none ∧ s.graph.taskForWorkspace (wsId m) = none)
  | _ => True

/-- Tasks are keyed, and the log has distinct used identifiers. -/
structure Sound (s : DispatchSystem) : Prop where
  keyed : s.graph.Keyed
  distinct : (s.log.map (·.workspaceId)).Nodup
  used : ∀ a ∈ s.log, ∃ m < s.dispatcher.nextWsId, a.workspaceId = wsId m

def start (s : DispatchSystem) : DispatchState :=
  { dispatcher := s.dispatcher, graph := s.graph, topo := s.topo, actions := [] }

variable {order : List TaskId}

theorem dispatchLoop_of_full
    (h : hasCapacity s.topo s.dispatcher.config.maxConcurrentWorkspaces = false) :
    dispatchLoop order s.start = s.start := by
  cases order with
  | nil => rfl
  | cons =>
    unfold dispatchLoop
    rw [if_neg]
    rw [show s.start.topo = s.topo from rfl, show s.start.dispatcher = s.dispatcher from rfl, h]
    simp

theorem clear_start (h : s.Sound) (horder : (order : Multiset TaskId) = s.graph.dispatchable)
    (hunbound : ∀ id ∈ s.graph.dispatchable, ∀ task, s.graph.get id = some task →
      task.workspaceRef = none)
    (hfree : ∀ m, s.dispatcher.nextWsId ≤ m →
      m < s.dispatcher.nextWsId + s.graph.dispatchable.card →
        s.topo.tree.get (wsId m) = none ∧ s.graph.taskForWorkspace (wsId m) = none) :
    Clear order s.start := by
  refine ⟨?_, ?_, ?_⟩
  · rw [← Multiset.coe_nodup, horder]
    exact h.keyed.nodup_dispatchable
  · intro id hid
    apply hunbound
    rw [← horder]
    exact hid
  · rw [← horder] at hfree
    exact hfree

theorem extends_dispatch (h : s.Sound) (horder : (order : Multiset TaskId) = s.graph.dispatchable)
    (hg : s.Guarded (.tryDispatch order)) : Extends s.start (dispatchLoop order s.start) := by
  rcases hg with hfull | ⟨hunbound, hfree⟩
  · rw [dispatchLoop_of_full hfull]
    exact Extends.refl _
  · exact dispatchLoop_extends (clear_start h horder hunbound hfree)

theorem keyed_graphOp {g : TaskGraph} (h : g.Keyed) (op : GraphOp) : (op.apply g).Keyed := by
  cases op with
  | addTask task => exact h.addTask task
  | transition id trigger =>
    simp only [GraphOp.apply]
    split
    · rename_i status g' htr
      obtain ⟨-, -, -, -, rfl⟩ := transition_ok htr
      exact h.setStatus id status
    · exact h
  | markCompleted => exact h
  | bind taskId workspaceId =>
    simp only [GraphOp.apply]
    split
    · rename_i g' hb
      exact h.of_sameTasks (sameTasks_bind hb)
    · exact h
  | unbind taskId => exact h.of_sameTasks (sameTasks_unbind g taskId)

theorem sound_step {op : Op} (h : s.Sound) (hg : s.Guarded op) (hs : Step s op s') : s'.Sound := by
  cases hs with
  | graph op => exact ⟨keyed_graphOp h.keyed op, h.distinct, h.used⟩
  | topo => exact ⟨h.keyed, h.distinct, h.used⟩
  | tryDispatch order horder =>
    have hext := extends_dispatch h horder hg
    obtain ⟨added, hadded, hnd, hids⟩ := hext.reports
    have hlog : (s.dispatch order).log = s.log ++ added := by
      show s.log ++ (dispatchLoop order s.start).actions = s.log ++ added
      rw [hadded]
      rfl
    have hnext : s.dispatcher.nextWsId ≤ (s.dispatch order).dispatcher.nextWsId := hext.next
    refine ⟨h.keyed.of_sameTasks (sameTasks_dispatchLoop order s.start), ?_, ?_⟩
    · rw [hlog, map_append, nodup_append]
      refine ⟨h.distinct, hnd, ?_⟩
      intro w hw w' hw' heq
      obtain ⟨a, ha, rfl⟩ := mem_map.mp hw
      obtain ⟨a', ha', rfl⟩ := mem_map.mp hw'
      obtain ⟨m, hm, hid⟩ := h.used a ha
      obtain ⟨m', hm', -, hid'⟩ := hids a' ha'
      have hmm := wsId_injective (hid.symm.trans (heq.trans hid'))
      have : s.dispatcher.nextWsId ≤ m' := hm'
      omega
    · intro a ha
      rw [hlog] at ha
      rcases mem_append.mp ha with ha | ha
      · obtain ⟨m, hm, hid⟩ := h.used a ha
        exact ⟨m, by omega, hid⟩
      · obtain ⟨m, -, hm, hid⟩ := hids a ha
        exact ⟨m, hm, hid⟩

theorem dispatch_of_full
    (hfull : hasCapacity s.topo s.dispatcher.config.maxConcurrentWorkspaces = false) :
    s.dispatch order = s := by
  have hsame : s.dispatch order = { s with log := s.log ++ [] } := by
    unfold dispatch tryDispatch
    rw [show DispatchState.mk s.dispatcher s.graph s.topo [] = s.start from rfl,
      dispatchLoop_of_full hfull]
    rfl
  rw [hsame, append_nil]

theorem dispatch_of_unplaceable (h : ∀ id ∈ order, Unplaceable s.graph s.topo id) :
    (s.dispatch order).topo = s.topo ∧ (s.dispatch order).log = s.log := by
  obtain ⟨-, htopo, hactions⟩ := dispatchLoop_of_unplaceable (s := s.start) h
  refine ⟨htopo, ?_⟩
  show s.log ++ (dispatchLoop order s.start).actions = s.log
  rw [hactions]
  exact append_nil _

theorem dispatch_again (h : s.Sound) {order' : List TaskId}
    (horder : (order : Multiset TaskId) = s.graph.dispatchable)
    (hg : s.Guarded (.tryDispatch order))
    (horder' : (order' : Multiset TaskId) = (s.dispatch order).graph.dispatchable)
    (hg' : (s.dispatch order).Guarded (.tryDispatch order')) :
    ((s.dispatch order).dispatch order').topo = (s.dispatch order).topo ∧
      ((s.dispatch order).dispatch order').log = (s.dispatch order).log := by
  rcases hg' with hfull' | ⟨hunbound', -⟩
  · rw [dispatch_of_full hfull']
    exact ⟨rfl, rfl⟩
  rcases hg with hfull | ⟨hunbound, hfree⟩
  · rw [dispatch_of_full hfull, dispatch_of_full hfull]
    exact ⟨rfl, rfl⟩
  have hclear := clear_start h horder hunbound hfree
  -- whatever the first call had bound would still be dispatchable
  have hnone : ∀ id ∈ order, ¬ (dispatchLoop order s.start).graph.IsBound id := by
    intro id hid hbound
    have hmem : id ∈ s.start.graph.dispatchable := by
      show id ∈ s.graph.dispatchable
      rw [← horder]
      exact hid
    exact hbound.ref (hunbound' id (mem_dispatchable_dispatchLoop hclear hmem))
  obtain ⟨hgraph, htopo, hplace⟩ := dispatchLoop_unbound hclear hnone
  have hgraph' : (s.dispatch order).graph = s.graph := hgraph
  have htopo' : (s.dispatch order).topo = s.topo := htopo
  by_cases hcap : hasCapacity s.topo s.dispatcher.config.maxConcurrentWorkspaces
  · refine dispatch_of_unplaceable fun id hid => ?_
    have hmem : id ∈ order := by
      rw [← Multiset.mem_coe, horder, ← hgraph', ← horder']
      exact hid
    rw [hgraph', htopo']
    exact hplace hcap id hmem
  · have hconfig : (s.dispatch order).dispatcher.config = s.dispatcher.config :=
      (dispatchLoop_extends hclear).config
    have hfull' : hasCapacity (s.dispatch order).topo
        (s.dispatch order).dispatcher.config.maxConcurrentWorkspaces = false := by
      rw [htopo', hconfig]
      simpa using hcap
    rw [dispatch_of_full hfull']
    exact ⟨rfl, rfl⟩

/-- **Dispatched workspaces in a guarded run**, among any operations; a second guarded call changes
nothing. -/
theorem dispatch_binding_of_run {config : DispatchConfig} {rootId : WorkspaceId}
    {rootOwner : UserId} (h : Run Step Guarded (init config rootId rootOwner) s) :
    (s.log.map (·.workspaceId)).Nodup ∧
    ∀ order s', Step s (.tryDispatch order) s' → s.Guarded (.tryDispatch order) →
      (∀ w n, s.topo.tree.get w = none → s'.topo.tree.get w = some n →
        ∃ t task action, n.taskId = some t ∧ s'.graph.taskForWorkspace w = some t ∧
          s'.graph.get t = some task ∧ task.workspaceRef = some w ∧
          action ∈ s'.log ∧ action.workspaceId = w ∧ action.taskId = t ∧
          (s'.log.map (·.workspaceId)).count w = 1) ∧
      ∀ order' s'', Step s' (.tryDispatch order') s'' → s'.Guarded (.tryDispatch order') →
        s''.topo = s'.topo ∧ s''.log = s'.log := by
  have hinit : (init config rootId rootOwner).Sound := by
    refine ⟨?_, by simp [init], by simp [init]⟩
    intro k t ht
    simp [init, TaskGraph.new] at ht
  have hsound : s.Sound :=
    h.invariant Sound sound_step hinit
  refine ⟨hsound.distinct, ?_⟩
  intro order s' hstep hg
  have hsound' := sound_step hsound hg hstep
  cases hstep with
  | tryDispatch order horder =>
    refine ⟨?_, ?_⟩
    · intro w n hnone hsome
      have hext := extends_dispatch hsound horder hg
      obtain ⟨t, action, ht, ⟨hback, task, htask, href⟩, hmem, hw, hid⟩ :=
        hext.created w n hnone hsome
      have hlog : action ∈ (s.dispatch order).log := mem_append_right _ hmem
      refine ⟨t, task, action, ht, hback, htask, href, hlog, hw, hid, ?_⟩
      exact count_eq_one_of_mem hsound'.distinct (mem_map.mpr ⟨action, hlog, hw⟩)
    · intro order' s'' hstep' hg'
      cases hstep' with
      | tryDispatch order' horder' => exact dispatch_again hsound horder hg horder' hg'

def sampleConfig : DispatchConfig :=
  { maxConcurrentWorkspaces := none
    defaultBudget := ⟨none, none, none, none, none, 0⟩
    budgetMargin := 0.2 }

def samplePending : GraphOp := .addTask { sampleTask "t" [] with status := .pending }

def sampleSystem : DispatchSystem :=
  { init sampleConfig ⟨"root"⟩ ⟨"alice"⟩ with graph := samplePending.apply .new }

theorem run_sampleSystem {ok : DispatchSystem → Op → Prop}
    (hok : ok (init sampleConfig ⟨"root"⟩ ⟨"alice"⟩) (.graph samplePending)) :
    Run Step ok (init sampleConfig ⟨"root"⟩ ⟨"alice"⟩) sampleSystem :=
  Run.tail (.graph samplePending) (Run.refl _) hok (Step.graph _ samplePending)

theorem dispatch_binding_of_first_call :
    ∃ s s' n, Run Step Guarded (init sampleConfig ⟨"root"⟩ ⟨"alice"⟩) s ∧
      Step s (.tryDispatch [⟨"t"⟩]) s' ∧ s.Guarded (.tryDispatch [⟨"t"⟩]) ∧
      s.topo.tree.get (wsId 1) = none ∧ s'.topo.tree.get (wsId 1) = some n ∧
      ∃ t, n.taskId = some t ∧ s'.graph.taskForWorkspace (wsId 1) = some t := by
  have hrun : Run Step Guarded (init sampleConfig ⟨"root"⟩ ⟨"alice"⟩) sampleSystem :=
    run_sampleSystem trivial
  have hstep : Step sampleSystem (.tryDispatch [⟨"t"⟩]) (sampleSystem.dispatch [⟨"t"⟩]) :=
    Step.tryDispatch _ _ (by decide)
  have hguard : sampleSystem.Guarded (.tryDispatch [⟨"t"⟩]) := by
    refine .inr ⟨by decide, fun m hlow hhigh => ?_⟩
    have hcard : sampleSystem.graph.dispatchable.card = 1 := by decide
    have hnext : sampleSystem.dispatcher.nextWsId = 1 := rfl
    have hm : m = 1 := by omega
    subst hm
    decide
  have hnone : sampleSystem.topo.tree.get (wsId 1) = none := by decide
  obtain ⟨n, hn⟩ : ∃ n, (sampleSystem.dispatch [⟨"t"⟩]).topo.tree.get (wsId 1) = some n :=
    isSome_iff_exists.mp (by decide)
  obtain ⟨t, -, -, ht, hback, -⟩ :=
    ((dispatch_binding_of_run hrun).2 _ _ hstep hguard).1 _ n hnone hn
  exact ⟨_, _, n, hrun, hstep, hguard, hnone, hn, t, ht, hback⟩

/-- **An orphaned workspace.** The task stays Pending, so a second call makes another one, bound to
nothing and not reported. -/
theorem orphan_run : ∃ s₁ s₂, Run Step anyStep (init sampleConfig ⟨"root"⟩ ⟨"alice"⟩) s₁ ∧
      Step s₁ (.tryDispatch [⟨"t"⟩]) s₂ ∧
      s₁.topo.tree.get (wsId 2) = none ∧
      (s₂.topo.tree.get (wsId 2)).map (·.taskId) = some (some ⟨"t"⟩) ∧
      s₂.graph.taskForWorkspace (wsId 2) = none ∧
      (s₂.graph.get ⟨"t"⟩).map (·.workspaceRef) = some (some (wsId 1)) ∧
      s₂.log.map (·.workspaceId) = [wsId 1] := by
  refine ⟨sampleSystem.dispatch [⟨"t"⟩], (sampleSystem.dispatch [⟨"t"⟩]).dispatch [⟨"t"⟩],
    Run.tail (.tryDispatch [⟨"t"⟩]) (run_sampleSystem trivial) trivial
      (Step.tryDispatch _ _ (by decide)),
    Step.tryDispatch _ _ (by decide), by decide, by decide, by decide, by decide, by decide⟩

end DispatchSystem

end Wacp
