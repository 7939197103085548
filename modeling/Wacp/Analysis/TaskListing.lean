import Mathlib.Algebra.Order.BigOperators.Group.Finset
import Wacp.Analysis.DispatchBinding
import Wacp.Model.TaskListing

/-!
# What GetTaskGraph lists

A breadth-first search along the dependents from the tasks without a parent; a subtask is reachable
by its dependencies only.
-/

namespace Wacp.TaskGraph

open Library Relation List Table SchedulingOps TaskView

variable {g : TaskGraph} {V : Type} {view : Task → V} {start queue ids : List TaskId}
  {visited : Finset TaskId} {tasks : List V} {tid : TaskId}

def Edge (g : TaskGraph) (a b : TaskId) : Prop := b ∈ g.dependents a ∧ g.tasks.contains b

def Found (g : TaskGraph) (start : List TaskId) (id : TaskId) : Prop :=
  ∃ r ∈ start, g.tasks.contains r ∧ ReflTransGen g.Edge r id

/-- The state of the search; `ids` are the tasks listed so far. -/
structure Explored (g : TaskGraph) (view : Task → V) (start queue : List TaskId)
    (visited : Finset TaskId) (tasks : List V) (ids : List TaskId) : Prop where
  ahead : ∀ b, (b ∈ start ∨ ∃ a ∈ visited, g.tasks.contains a ∧ b ∈ g.dependents a) →
    b ∈ visited ∨ b ∈ queue
  found : ∀ a, a ∈ visited ∨ a ∈ queue → g.tasks.contains a → g.Found start a
  nodup : ids.Nodup
  mem : ∀ a, a ∈ ids ↔ a ∈ visited ∧ g.tasks.contains a
  listed : tasks = ids.filterMap fun a => (g.get a).map view

theorem explored_start : Explored g view start start ∅ [] [] where
  ahead := by simp
  found a ha hin := ⟨a, by simpa using ha, hin, .refl⟩
  nodup := nodup_nil
  mem := by simp
  listed := rfl

section

variable (h : Explored g view start (tid :: queue) visited tasks ids)
include h

theorem Explored.skip (hseen : tid ∈ visited) : Explored g view start queue visited tasks ids where
  ahead b hb := by
    have := h.ahead b hb
    grind
  found a ha := h.found a (by grind)
  nodup := h.nodup
  mem := h.mem
  listed := h.listed

theorem Explored.absent (hget : g.get tid = none) :
    Explored g view start queue (insert tid visited) tasks ids where
  ahead b hb := by
    have := h.ahead b
    have := contains_eq_false_iff.mpr hget
    grind
  found a ha := h.found a (by grind)
  nodup := h.nodup
  mem a := by
    have := h.mem a
    have := contains_eq_false_iff.mpr hget
    grind
  listed := h.listed

theorem Explored.visit (hnew : tid ∉ visited) {task : Task} (hget : g.get tid = some task) :
    Explored g view start (queue ++ g.dependents tid) (insert tid visited) (tasks ++ [view task])
      (ids ++ [tid]) where
  ahead b hb := by
    have := h.ahead b
    grind
  found a ha hin := by
    by_cases hdep : a ∈ g.dependents tid
    · obtain ⟨r, hr, hrin, hpath⟩ :=
        h.found tid (.inr mem_cons_self) (contains_iff.mpr ⟨task, hget⟩)
      exact ⟨r, hr, hrin, hpath.tail ⟨hdep, hin⟩⟩
    · exact h.found a (by grind) hin
  nodup := by
    have := h.nodup
    have := h.mem tid
    grind
  mem a := by
    have := h.mem a
    have := contains_iff.mpr ⟨task, hget⟩
    grind
  listed := by simp [h.listed, hget]

end

theorem Explored.finish (h : Explored g view start [] visited tasks ids) (a : TaskId) :
    a ∈ ids ↔ g.Found start a := by
  rw [h.mem]
  refine ⟨fun ha => h.found a (.inl ha.1) ha.2, ?_⟩
  rintro ⟨r, hr, hin, hpath⟩
  -- nothing is left ahead, so the whole path is visited
  induction hpath with
  | refl => exact ⟨by simpa using h.ahead r (.inl hr), hin⟩
  | tail _ hedge ih =>
    exact ⟨by simpa using h.ahead _ (.inr ⟨_, ih.1, ih.2, hedge.1⟩), hedge.2⟩

/-- The measure is the queue with what unvisited tasks will add to it. -/
theorem listTasks_of_explored (fuel : ℕ)
    (hfuel : queue.length + ∑ id ∈ g.tasks.keys \ visited, (g.dependents id).length ≤ fuel)
    (h : Explored g view start queue visited tasks ids) :
    ∃ ids : List TaskId, ids.Nodup ∧ (∀ a, a ∈ ids ↔ g.Found start a) ∧
      g.listTasks view fuel queue visited tasks =
        some (ids.filterMap fun a => (g.get a).map view) := by
  induction fuel generalizing queue visited tasks ids with
  | zero =>
    obtain rfl : queue = [] := length_eq_zero_iff.mp (by omega)
    exact ⟨ids, h.nodup, h.finish, by rw [listTasks, h.listed]⟩
  | succ fuel ih =>
    obtain _ | ⟨tid, queue⟩ := queue
    · exact ⟨ids, h.nodup, h.finish, by rw [listTasks, h.listed]⟩
    · simp only [length_cons] at hfuel
      rw [listTasks]
      split_ifs with hseen
      · exact ih (by omega) (h.skip hseen)
      · cases hget : g.get tid with
        | none =>
          refine ih ?_ (h.absent hget)
          have := Finset.sum_le_sum_of_subset (f := fun id => (g.dependents id).length)
            (Finset.sdiff_subset_sdiff (Finset.Subset.refl g.tasks.keys)
              (Finset.subset_insert tid visited))
          omega
        | some task =>
          refine ih ?_ (h.visit hseen hget)
          have hmem : tid ∈ g.tasks.keys \ visited :=
            Finset.mem_sdiff.mpr ⟨Table.mem_keys.mpr ⟨task, hget⟩, hseen⟩
          have := Finset.sum_erase_add _ (fun id => (g.dependents id).length) hmem
          rw [← Finset.sdiff_insert] at this
          rw [length_append]
          omega

/-! ## Graphs built by additions -/

inductive Built : TaskGraph → Prop
  | new : Built .new
  | addTask {g : TaskGraph} (task : Task) (h : Built g) : Built (g.addTask task).2
  | addSubtasks {g : TaskGraph} (parent : TaskId) (subtasks : List Task) (h : Built g) :
    Built (addSubtasks g parent subtasks).2

theorem Keyed.addSubtasksLoop (h : g.Keyed) (parent : TaskId) (subtasks : List Task)
    (ids : List TaskId) : (addSubtasksLoop parent subtasks ids g).2.Keyed := by
  induction subtasks generalizing ids g with
  | nil => exact h
  | cons task rest ih =>
    have hstep := h.addTask { task with parentTask := some parent }
    unfold addSubtasksLoop
    split <;> rename_i hadd <;> rw [hadd] at hstep
    · exact hstep
    · exact ih hstep _

theorem Built.keyed (h : Built g) : g.Keyed := by
  induction h with
  | new => simp [Keyed, TaskGraph.new]
  | addTask task h ih => exact ih.addTask task
  | addSubtasks parent subtasks h ih =>
    unfold SchedulingOps.addSubtasks
    split
    · exact ih
    · exact ih.addSubtasksLoop _ _ _

def IsRoot (g : TaskGraph) (r : TaskId) : Prop := ∃ t, g.get r = some t ∧ t.parentTask = none

theorem Keyed.mem_roots (h : g.Keyed) (r : TaskId) : r ∈ g.roots ↔ g.IsRoot r := by
  simp only [roots, Multiset.mem_map, Multiset.mem_filter, mem_values]
  constructor
  · rintro ⟨t, ⟨⟨k, hk⟩, hparent⟩, rfl⟩
    rw [h k t hk]
    exact ⟨t, hk, hparent⟩
  · rintro ⟨t, ht, hparent⟩
    exact ⟨t, ⟨⟨r, ht⟩, hparent⟩, h r t ht⟩

/-- **When the list is complete.** The query returns tasks of the graph, each once, and all exactly
if each is reachable from a task without parent. -/
theorem getTaskGraph_complete_iff (h : Built g) (order : List TaskId)
    (horder : (order : Multiset TaskId) = g.roots) :
    ∃ views, g.handleGetTaskGraph order = some views ∧ (views.map (·.id)).Nodup ∧
      (∀ v ∈ views, ∃ t, g.get v.id = some t ∧ v = of t) ∧
      ((∀ id t, g.get id = some t → of t ∈ views) ↔
        ∀ id t, g.get id = some t → ∃ r, g.IsRoot r ∧ ReflTransGen g.Edge r id) := by
  obtain ⟨ids, hnodup, hmem, hrun⟩ := listTasks_of_explored
    (order.length + ∑ id ∈ g.tasks.keys, (g.dependents id).length) (by simp)
    (explored_start : Explored g of order order ∅ [] [])
  have hids : ∀ a, a ∈ ids ↔ ∃ r, g.IsRoot r ∧ ReflTransGen g.Edge r a := by
    intro a
    rw [hmem]
    refine exists_congr fun r => ?_
    rw [← Multiset.mem_coe, horder, h.keyed.mem_roots, ← and_assoc]
    refine and_congr_left fun _ => and_iff_left_of_imp ?_
    rintro ⟨t, ht, -⟩
    exact contains_iff.mpr ⟨t, ht⟩
  have hkey : ∀ a v, (g.get a).map of = some v → v.id = a := by
    intro a v hv
    obtain ⟨t, ht, rfl⟩ := Option.map_eq_some_iff.mp hv
    exact h.keyed a t ht
  refine ⟨_, hrun, ?_, ?_, ?_⟩
  · rw [map_filterMap]
    refine hnodup.filterMap fun a a' b hb hb' => ?_
    obtain ⟨v, hv, rfl⟩ := Option.map_eq_some_iff.mp hb
    obtain ⟨v', hv', hid⟩ := Option.map_eq_some_iff.mp hb'
    rw [← hkey a v hv, ← hkey a' v' hv', hid]
  · intro v hv
    obtain ⟨a, -, ha⟩ := mem_filterMap.mp hv
    obtain ⟨t, ht, rfl⟩ := Option.map_eq_some_iff.mp ha
    exact ⟨t, by rwa [hkey a _ ha], rfl⟩
  · refine forall_congr' fun id => forall_congr' fun t => imp_congr_right fun ht => ?_
    rw [← hids, mem_filterMap]
    refine ⟨?_, fun hid => ⟨id, hid, by rw [ht]; rfl⟩⟩
    rintro ⟨a, ha, hv⟩
    have hid : t.id = a := hkey a _ hv
    rwa [← h.keyed id t ht, hid]

def oneTask : TaskGraph := (new.addTask (sampleTask "a" [])).2

def withSubtask : TaskGraph :=
  (addSubtasks oneTask ⟨"a"⟩ [sampleTask "b" []]).2

theorem getTaskGraph_complete_iff_one : ∃ views, oneTask.handleGetTaskGraph [⟨"a"⟩] = some views ∧
    (views.map (·.id)).Nodup := by
  obtain ⟨views, hrun, hnodup, -⟩ := getTaskGraph_complete_iff (.addTask (sampleTask "a" []) .new)
    [⟨"a"⟩] rfl
  exact ⟨views, hrun, hnodup⟩

/-- A subtask without dependencies is not listed. -/
theorem subtask_not_listed : Built withSubtask ∧ withSubtask.tasks.contains ⟨"b"⟩ ∧
    ([TaskId.mk "a"] : Multiset TaskId) = withSubtask.roots ∧
    withSubtask.handleGetTaskGraph [⟨"a"⟩] = some [of (sampleTask "a" [])] :=
  ⟨.addSubtasks _ _ (.addTask _ .new), rfl, rfl, rfl⟩

end Wacp.TaskGraph
