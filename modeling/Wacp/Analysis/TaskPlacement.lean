import Wacp.Analysis.DispatchBinding
import Wacp.Analysis.SystemSteps
import Wacp.Model.CoordinatorService

/-!
# Tasks and the workspaces of the coordinator service

SubmitGoal and Dispatch drop the result of the binding. A goal's task is new; a Dispatch may name a
task that has a workspace, and nothing ever unbinds one.
-/

namespace Wacp

open Library List Option Table WorkspaceTree Coordinator

/-! ## Bindings of the task graph -/

namespace TaskGraph

variable {g g' g'' : TaskGraph}

def refOf (g : TaskGraph) (t : TaskId) : Option WorkspaceId := (g.get t).bind (·.workspaceRef)

variable {w : WorkspaceId} {t : TaskId}

theorem boundTo_iff : g.BoundTo w t ↔ g.taskForWorkspace w = some t ∧ g.refOf t = some w := by
  unfold BoundTo refOf
  rw [bind_eq_some_iff]

structure SameBindings (g g' : TaskGraph) : Prop where
  task : ∀ w, g'.taskForWorkspace w = g.taskForWorkspace w
  ref : ∀ t, g'.refOf t = g.refOf t

theorem SameBindings.trans (h : SameBindings g g') (h' : SameBindings g' g'') :
    SameBindings g g'' :=
  ⟨fun w => (h'.task w).trans (h.task w), fun t => (h'.ref t).trans (h.ref t)⟩

theorem SameBindings.boundTo (h : SameBindings g g') : g'.BoundTo w t ↔ g.BoundTo w t := by
  rw [boundTo_iff, boundTo_iff, h.task, h.ref]

theorem sameBindings_setStatus (g : TaskGraph) (id : TaskId) (status : TaskStatus) :
    SameBindings g (g.setStatus id status) := by
  refine ⟨fun _ => rfl, fun t => ?_⟩
  unfold refOf get
  rw [get_setStatus]
  cases g.tasks.get t <;> rfl

theorem sameBindings_tryTransition (g : TaskGraph) (id : TaskId) (trigger : TaskTrigger) :
    SameBindings g (Runtime.tryTransition g id trigger) := by
  unfold Runtime.tryTransition
  split
  · next h =>
      obtain ⟨task, -, -, -, rfl⟩ := transition_ok h
      exact sameBindings_setStatus g id _
  · exact ⟨fun _ => rfl, fun _ => rfl⟩

variable {task : Task}

theorem sameBindings_addTask (g : TaskGraph) (hfree : task.workspaceRef = none) :
    SameBindings g (g.addTask task).2 := by
  rcases g.addTask_cases task with ⟨-, hadd⟩ | ⟨-, -, g', hadd⟩ | ⟨-, _, _, _, -, -, -, hadd⟩
  · rw [hadd]
    exact ⟨fun _ => rfl, fun _ => rfl⟩
  · rw [hadd]
    obtain ⟨hnew, -, rfl⟩ := addTask_ok hadd
    refine ⟨fun _ => rfl, fun t => ?_⟩
    unfold refOf get
    rw [get_set]
    by_cases ht : t = task.id
    · rw [if_pos ht, ht, hnew]
      exact hfree
    · rw [if_neg ht]
  · rw [hadd]
    exact ⟨fun _ => rfl, fun _ => rfl⟩

/-- The references of the tasks and the map from the workspaces say the same. -/
def Paired (g : TaskGraph) : Prop := ∀ t w, g.refOf t = some w ↔ g.taskForWorkspace w = some t

theorem Paired.of_sameBindings (h : g.Paired) (hs : SameBindings g g') : g'.Paired := by
  intro t w
  rw [hs.ref, hs.task]
  exact h t w

theorem bind_ok (hb : g.bind t w = .ok g') : g.refOf t = none ∧ g.taskForWorkspace w = none ∧
    (∀ k, g'.refOf k = if k = t then some w else g.refOf k) ∧
      ∀ w', g'.taskForWorkspace w' = if w' = w then some t else g.taskForWorkspace w' := by
  unfold bind at hb
  split at hb
  · cases hb
  · rename_i task ht
    split_ifs at hb with hbound hused
    cases hb
    have hunused := contains_eq_false_iff.mp (eq_false_of_ne_true hused)
    refine ⟨by simpa [refOf, get, ht] using hbound, hunused, fun k => ?_, fun w' => get_set _⟩
    unfold refOf get
    rw [get_modify]
    by_cases hk : k = t <;> simp [hk, ht]

theorem refOf_unbind (k : TaskId) : (g.unbind t).refOf k = if k = t then none else g.refOf k := by
  unfold unbind
  split
  · rename_i ht
    by_cases hk : k = t <;> simp [hk, refOf, get, ht]
  · unfold refOf get
    rw [get_modify]
    by_cases hk : k = t
    · cases g.tasks.get t <;> simp [hk]
    · simp [hk]

theorem taskForWorkspace_unbind (w : WorkspaceId) : (g.unbind t).taskForWorkspace w =
    if g.refOf t = some w then none else g.taskForWorkspace w := by
  unfold unbind refOf get taskForWorkspace
  split
  · rename_i ht
    simp [ht]
  · rename_i task ht
    cases hws : task.workspaceRef with
    | none => simp [ht, hws]
    | some => simp [ht, hws, get_remove, eq_comm]

theorem Paired.bind (h : g.Paired) (hb : g.bind t w = .ok g') : g'.Paired := by
  obtain ⟨hfree, hunused, href, htask⟩ := bind_ok hb
  intro k w'
  have hold := h k w'
  rw [href, htask]
  grind

theorem Paired.unbind (h : g.Paired) (t : TaskId) : (g.unbind t).Paired := by
  intro k w
  have hold := h k w
  have hself := h t w
  rw [refOf_unbind, taskForWorkspace_unbind]
  grind

theorem get_addTask_of_ne (g : TaskGraph) (ht : t ≠ task.id) :
    (g.addTask task).2.get t = g.get t := by
  rcases g.addTask_cases task with ⟨-, hadd⟩ | ⟨-, -, g', hadd⟩ | ⟨-, _, _, _, -, -, -, hadd⟩
  · rw [hadd]
  · rw [hadd]
    obtain ⟨-, -, rfl⟩ := addTask_ok hadd
    exact (get_set _).trans (if_neg ht)
  · rw [hadd]
    rfl

theorem get_setStatus_eq_none_iff {id : TaskId} {status : TaskStatus} :
    (g.setStatus id status).get t = none ↔ g.get t = none := by
  unfold get
  rw [get_setStatus, map_eq_none_iff]

theorem get_tryTransition_eq_none_iff {id : TaskId} {trigger : TaskTrigger} :
    (Runtime.tryTransition g id trigger).get t = none ↔ g.get t = none := by
  unfold Runtime.tryTransition
  split
  · next hok =>
      obtain ⟨task, -, -, -, rfl⟩ := transition_ok hok
      exact get_setStatus_eq_none_iff
  · exact Iff.rfl

theorem tryBind_of_free (ht : g.get t = some task) (hfree : task.workspaceRef = none)
    (hw : g.taskForWorkspace w = none) :
    (Runtime.tryBind g t w).BoundTo w t ∧
    (∀ w' t', g.BoundTo w' t' → (Runtime.tryBind g t w).BoundTo w' t') ∧
    (∀ w', w' ≠ w → (Runtime.tryBind g t w).taskForWorkspace w' = g.taskForWorkspace w') ∧
    ∀ t', g.get t' = none → (Runtime.tryBind g t w).get t' = none := by
  obtain ⟨g', hbind, -, htask, hget⟩ := bind_eq_ok ht hfree hw
  have heq : Runtime.tryBind g t w = g' := by simp only [Runtime.tryBind, hbind]
  rw [heq]
  refine ⟨⟨?_, ?_⟩, ?_, ?_, ?_⟩
  · exact (htask w).trans (if_pos rfl)
  · refine ⟨_, (hget t).trans (by rw [show g.tasks.get t = some task from ht]; rfl), ?_⟩
    simp
  · rintro w' t' ⟨htask', task', hget', href'⟩
    have hw' : w' ≠ w := by
      rintro rfl
      cases hw.symm.trans htask'
    have ht' : t' ≠ t := by
      rintro rfl
      rw [hget'] at ht
      cases ht
      rw [hfree] at href'
      cases href'
    refine ⟨(htask w').trans ((if_neg hw').trans htask'), task', ?_, href'⟩
    refine (hget t').trans ?_
    rw [show g.tasks.get t' = some task' from hget', map_some, if_neg ht']
  · intro w' hw'
    exact (htask w').trans (if_neg hw')
  · intro t' ht'
    exact (hget t').trans (by rw [show g.tasks.get t' = none from ht']; rfl)

theorem tryBind_of_bound (ht : g.get t = some task) (hbound : task.workspaceRef.isSome) :
    Runtime.tryBind g t w = g := by
  have hget : g.tasks.get t = some task := ht
  simp [Runtime.tryBind, bind, hget, hbound]

end TaskGraph

namespace DispatchSystem

open TaskGraph Dispatcher

/-- Only tasks without a workspace are added. -/
def GraphOp.Unbound : GraphOp → Prop
  | .addTask task => task.workspaceRef = none
  | _ => True

theorem paired_apply {g : TaskGraph} (h : g.Paired) {op : GraphOp} (hop : op.Unbound) :
    (op.apply g).Paired := by
  cases op with
  | addTask => exact h.of_sameBindings (sameBindings_addTask g hop)
  | transition id trigger => exact h.of_sameBindings (sameBindings_tryTransition g id trigger)
  | markCompleted => exact h
  | bind taskId workspaceId =>
    simp only [GraphOp.apply]
    cases hb : g.bind taskId workspaceId with
    | ok => exact h.bind hb
    | error => exact h
  | unbind taskId => exact h.unbind taskId

/-- **The binding is a partial bijection** after all operations in which only tasks without a
workspace are added. -/
theorem binding_bijective (ops : List GraphOp) (hops : ∀ op ∈ ops, op.Unbound) {g : TaskGraph}
    (hg : g = ops.foldl GraphOp.apply .new) :
    (∀ t w, g.refOf t = some w ↔ g.taskForWorkspace w = some t) ∧
      (∀ t t' w, g.refOf t = some w → g.refOf t' = some w → t = t') ∧
      ∀ t w w', g.taskForWorkspace w = some t → g.taskForWorkspace w' = some t → w = w' := by
  have hpaired : g.Paired := by
    subst hg
    refine List.foldlRecOn (motive := TaskGraph.Paired) ops GraphOp.apply (b := .new) ?_ ?_
    · intro t w
      simp [refOf, TaskGraph.get, taskForWorkspace, TaskGraph.new]
    · exact fun g h op hop => paired_apply h (hops op hop)
  refine ⟨hpaired, ?_, ?_⟩
  · intro t t' w ht ht'
    have := (hpaired t w).mp ht
    have := (hpaired t' w).mp ht'
    grind
  · intro t w w' hw hw'
    have := (hpaired t w).mpr hw
    have := (hpaired t w').mpr hw'
    grind

def retriedOps : List GraphOp :=
  [samplePending, .bind ⟨"t"⟩ (wsId 1), .unbind ⟨"t"⟩, .bind ⟨"t"⟩ (wsId 2)]

theorem binding_bijective_retried :
    (retriedOps.foldl GraphOp.apply .new).taskForWorkspace (wsId 2) = some ⟨"t"⟩ :=
  ((binding_bijective retriedOps (by simp [retriedOps, samplePending, GraphOp.Unbound]; rfl) rfl).1
    _ _).mp (by decide)

end DispatchSystem

/-! ## The runtime -/

namespace Runtime

open TaskGraph

variable {r r' : Runtime} {label : Label}

def goalTask (gid : ℕ) : TaskId := ⟨"task-" ++ ("goal-" ++ toString gid)⟩

theorem goalTask_eq (gid : ℕ) : goalTask gid = ⟨"task-goal-" ++ toString gid⟩ := by
  unfold goalTask
  rw [← String.append_assoc]
  rfl

theorem goalTask_injective : Function.Injective goalTask := by
  intro m n h
  rw [goalTask_eq, goalTask_eq] at h
  exact numbered_injective "task-goal-" (TaskId.mk.inj h)

theorem goalTask_ne_decompose {m n : ℕ} : goalTask m ≠ ⟨"task-decompose-" ++ toString n⟩ := by
  intro h
  rw [goalTask_eq] at h
  exact append_ne_append (by decide) (by decide) (TaskId.mk.inj h)

theorem wsId_injective : Function.Injective wsId := by
  intro m n h
  exact numbered_injective "ws-" (WorkspaceId.mk.inj h)

/-- Every workspace is bound to the task it is tagged with, and the next names are free. -/
structure Sound (r : Runtime) : Prop where
  tree : r.tree.WellFormed
  tagged : ∀ w n t, r.tree.nodes.get w = some n → n.taskId = some t → r.graph.BoundTo w t
  workspaces : ∀ m, r.nextWorkspaceId ≤ m →
    r.tree.nodes.get (wsId m) = none ∧ r.graph.taskForWorkspace (wsId m) = none
  goals : ∀ m, r.nextGoalId ≤ m → r.graph.get (goalTask m) = none

theorem sound_new : new.Sound where
  tree := wellFormed_new _ _
  tagged := by
    intro w n t hn ht
    have hget := get_new ⟨"ws-root"⟩ ⟨"system"⟩ w
    rw [show new.tree.nodes.get w = _ from hget] at hn
    split_ifs at hn
    cases hn
    cases ht
  workspaces := by
    intro m _
    refine ⟨?_, rfl⟩
    refine (get_new ⟨"ws-root"⟩ ⟨"system"⟩ (wsId m)).trans (if_neg ?_)
    intro h
    have hname : "ws-" ++ toString m = "ws-" ++ "root" := WorkspaceId.mk.inj h
    exact numbered_ne ⟨'r', by decide, by decide⟩ m hname
  goals := fun _ _ => rfl

theorem Sound.setGraph (h : r.Sound) {g : TaskGraph} {gid : ℕ} (hg : SameBindings r.graph g)
    (hgoals : ∀ m, gid ≤ m → g.get (goalTask m) = none) :
    ({ r with nextGoalId := gid }.setGraph g).Sound where
  tree := h.tree
  tagged := fun w n t hn ht => hg.boundTo.mpr (h.tagged w n t hn ht)
  workspaces := fun m hm => ⟨(h.workspaces m hm).1, (hg.task _).trans (h.workspaces m hm).2⟩
  goals := hgoals

/-! ## Placing a task -/

theorem Sound.place_tree (h : r.Sound) {taskId : TaskId} {role envelopeId : String}
    {payload : List UInt8} :
    ∃ node, node.id = wsId r.nextWorkspaceId ∧ node.taskId = some taskId ∧ node.children = [] ∧
      r.tree.insert node = .ok (r.place taskId role envelopeId payload).1.tree := by
  obtain ⟨root, hroot, -⟩ := h.tree.root_node
  let request : DispatchRequest :=
    { taskId := taskId
      config := workspaceConfig r.tree.root (wsId r.nextWorkspaceId) role envelopeId payload }
  exact ⟨nodeOf request, rfl, rfl, rfl,
    insert_nodeOf (h.workspaces _ le_rfl).1 rfl hroot r.system.actors.length⟩

section

variable (h : r.Sound) {taskId : TaskId} {task : Task} (ht : r.graph.get taskId = some task)
include h ht

theorem Sound.place (hfree : task.workspaceRef = none) (role envelopeId : String)
    (payload : List UInt8) : (r.place taskId role envelopeId payload).1.Sound ∧
    (r.place taskId role envelopeId payload).1.graph.BoundTo (wsId r.nextWorkspaceId) taskId := by
  obtain ⟨node, hid, htag, hchildren, hins⟩ := h.place_tree
  obtain ⟨hbound, hold, htask, hnone⟩ := tryBind_of_free (w := wsId r.nextWorkspaceId) ht hfree
    (h.workspaces _ le_rfl).2
  have hsame := sameBindings_tryTransition (tryBind r.graph taskId (wsId r.nextWorkspaceId))
    taskId .assign
  have hgraph : (r.place taskId role envelopeId payload).1.graph =
      tryTransition (tryBind r.graph taskId (wsId r.nextWorkspaceId)) taskId .assign := rfl
  have hnew : (r.place taskId role envelopeId payload).1.graph.BoundTo
      (wsId r.nextWorkspaceId) taskId := by
    rw [hgraph]
    exact hsame.boundTo.mpr hbound
  refine ⟨⟨h.tree.insert hchildren hins, ?_, ?_, ?_⟩, hnew⟩
  · intro w n t hn ht
    have hget := map_get_insert hins (·.taskId) (fun _ _ => rfl) w
    rw [hn, map_some, ht, hid] at hget
    by_cases hw : w = wsId r.nextWorkspaceId
    · rw [if_pos hw, htag] at hget
      cases hget
      rw [hw]
      exact hnew
    · rw [if_neg hw] at hget
      obtain ⟨n', hn', htag'⟩ := map_eq_some_iff.mp hget.symm
      rw [hgraph]
      exact hsame.boundTo.mpr (hold w t (h.tagged w n' t hn' htag'))
  · intro m hm
    have hlt : r.nextWorkspaceId < m := hm
    have hne : wsId m ≠ wsId r.nextWorkspaceId := fun heq => by
      have := wsId_injective heq
      omega
    obtain ⟨hnode, hws⟩ := h.workspaces m hlt.le
    refine ⟨?_, ?_⟩
    · rw [get_insert hins, hid, if_neg hne, hnode]
      rfl
    · rw [hgraph, hsame.task, htask _ hne, hws]
  · intro m hm
    rw [hgraph]
    exact get_tryTransition_eq_none_iff.mpr (hnone _ (h.goals m hm))

theorem Sound.place_of_bound (hbound : task.workspaceRef.isSome) {role envelopeId : String}
    {payload : List UInt8} :
    ¬ (r.place taskId role envelopeId payload).1.graph.BoundTo (wsId r.nextWorkspaceId)
      taskId := by
  have hgraph : (r.place taskId role envelopeId payload).1.graph =
      tryTransition (tryBind r.graph taskId (wsId r.nextWorkspaceId)) taskId .assign := rfl
  rw [hgraph, tryBind_of_bound ht hbound, (sameBindings_tryTransition r.graph taskId .assign).boundTo]
  rintro ⟨htask, -⟩
  rw [(h.workspaces _ le_rfl).2] at htask
  cases htask

end

/-! ## The requests -/

theorem Sound.addGoal (h : r.Sound) {description : String} :
    ∃ g task, r.graph.addTask (draftTask (goalTask r.nextGoalId) description description []) =
        (.ok (), g) ∧
      (tryTransition g (goalTask r.nextGoalId) .approve).get (goalTask r.nextGoalId) = some task ∧
      task.workspaceRef = none ∧
      ({ r with nextGoalId := r.nextGoalId + 1 }.setGraph
        (tryTransition g (goalTask r.nextGoalId) .approve)).Sound := by
  have hnew : r.graph.get (goalTask r.nextGoalId) = none := h.goals _ le_rfl
  set task := draftTask (goalTask r.nextGoalId) description description [] with htask
  obtain ⟨g, hadd⟩ : ∃ g, r.graph.addTask task = (.ok (), g) := by
    rcases r.graph.addTask_cases task with ⟨hdup, -⟩ | ⟨-, -, hok⟩ | ⟨-, _, _, _, hsplit, -⟩
    · cases hdup.symm.trans (contains_eq_false_iff.mpr hnew)
    · exact hok
    · simp [htask, draftTask] at hsplit
  have hget : g.get (goalTask r.nextGoalId) = some task := by
    obtain ⟨-, -, rfl⟩ := addTask_ok hadd
    exact get_set_self _
  have hsnd : (r.graph.addTask task).2 = g := by rw [hadd]
  have hsame := sameBindings_addTask r.graph (show task.workspaceRef = none from rfl)
  have hkeep := sameBindings_tryTransition g (goalTask r.nextGoalId) .approve
  have hgoals : ∀ m, r.nextGoalId + 1 ≤ m → g.get (goalTask m) = none := by
    intro m hm
    have hne : goalTask m ≠ task.id := fun heq => by
      have := goalTask_injective heq
      omega
    rw [← hsnd, get_addTask_of_ne _ hne]
    exact h.goals m (by omega)
  have hfree : (tryTransition g (goalTask r.nextGoalId) .approve).refOf (goalTask r.nextGoalId) =
      none := by
    rw [hkeep.ref, refOf, hget]
    rfl
  rw [hsnd] at hsame
  cases htask' : (tryTransition g (goalTask r.nextGoalId) .approve).get
      (goalTask r.nextGoalId) with
  | none =>
    rw [get_tryTransition_eq_none_iff, hget] at htask'
    cases htask'
  | some task' =>
    rw [refOf, htask'] at hfree
    exact ⟨g, task', hadd, htask', hfree, h.setGraph (hsame.trans hkeep)
      fun m hm => get_tryTransition_eq_none_iff.mpr (hgoals m hm)⟩

theorem Sound.submitGoal (h : r.Sound) (description : String) (context : List UInt8) :
    (r.submitGoal description context).1.Sound ∧
    (r.submitGoal description context).2 = .ok (.submitGoal ("goal-" ++ toString r.nextGoalId)
      (wsId r.nextWorkspaceId).text) ∧
    (r.submitGoal description context).1.graph.BoundTo (wsId r.nextWorkspaceId)
      (goalTask r.nextGoalId) := by
  obtain ⟨g, task, hadd, htask, hfree, hsound⟩ := h.addGoal
  obtain ⟨hs, hb⟩ := hsound.place htask hfree "worker" ("env-goal-" ++ toString r.nextGoalId)
    context
  have heq : r.submitGoal description context =
      ((({ r with nextGoalId := r.nextGoalId + 1 }.setGraph
        (tryTransition g (goalTask r.nextGoalId) .approve)).place (goalTask r.nextGoalId) "worker"
          ("env-goal-" ++ toString r.nextGoalId) context).1,
        .ok (.submitGoal ("goal-" ++ toString r.nextGoalId) (wsId r.nextWorkspaceId).text)) := by
    unfold Runtime.submitGoal
    dsimp only
    rw [show r.graph.addTask (draftTask ⟨"task-" ++ ("goal-" ++ toString r.nextGoalId)⟩ description
      description []) = _ from hadd]
    rfl
  rw [heq]
  exact ⟨hs, rfl, hb⟩

theorem Sound.decomposeStep {acc : Runtime × List String} (h : acc.1.Sound)
    (taskDef : TaskDefinition) : (Runtime.decomposeStep acc taskDef).1.Sound := by
  set id : TaskId := ⟨"task-decompose-" ++ toString acc.1.nextGoalId⟩ with hid
  set task := draftTask id taskDef.name taskDef.description (taskDef.dependsOn.map fun d => ⟨d⟩)
    with htask
  have hsame := sameBindings_addTask acc.1.graph (show task.workspaceRef = none from rfl)
  have hgoals : ∀ m, acc.1.nextGoalId + 1 ≤ m →
      (acc.1.graph.addTask task).2.get (goalTask m) = none := by
    intro m hm
    rw [get_addTask_of_ne _ goalTask_ne_decompose]
    exact h.goals m (by omega)
  unfold Runtime.decomposeStep
  dsimp only
  rw [← hid, ← htask]
  split
  · next g hadd =>
      rw [hadd] at hsame hgoals
      exact h.setGraph (hsame.trans (sameBindings_tryTransition _ _ _))
        fun m hm => get_tryTransition_eq_none_iff.mpr (hgoals m hm)
  · next e g hadd =>
      rw [hadd] at hsame hgoals
      exact h.setGraph hsame hgoals

theorem Sound.decompose (h : r.Sound) (tasks : List TaskDefinition) :
    (r.decompose tasks).1.Sound := by
  have hloop : ∀ acc : Runtime × List String, acc.1.Sound →
      (tasks.foldl Runtime.decomposeStep acc).1.Sound := by
    induction tasks with
    | nil => exact fun _ hacc => hacc
    | cons taskDef rest ih => exact fun acc hacc => ih _ (hacc.decomposeStep taskDef)
  exact hloop (r, []) h

theorem Sound.cancelTask (h : r.Sound) (taskId : String) : (r.cancelTask taskId).1.Sound := by
  unfold Runtime.cancelTask
  split
  · exact h
  · next status g hok =>
      obtain ⟨task, -, -, -, rfl⟩ := transition_ok hok
      have hs := h.setGraph (sameBindings_setStatus r.graph ⟨taskId⟩ status)
        fun m hm => get_setStatus_eq_none_iff.mpr (h.goals m hm)
      split
      · exact ⟨hs.tree, hs.tagged, hs.workspaces, hs.goals⟩
      · exact hs

theorem Sound.of_tags (h : r.Sound) {s : System} (hwf : s.coordinator.tree.WellFormed)
    (hgraph : s.coordinator.taskGraph = r.graph)
    (hnode : ∀ w, (s.coordinator.tree.nodes.get w).map (·.taskId) =
      (r.tree.nodes.get w).map (·.taskId)) : { r with system := s }.Sound := by
  refine ⟨hwf, ?_, ?_, ?_⟩
  · intro w n t hn ht
    have htag := hnode w
    rw [show s.coordinator.tree.nodes.get w = some n from hn, map_some, ht] at htag
    obtain ⟨n', hn', ht'⟩ := map_eq_some_iff.mp htag.symm
    show s.coordinator.taskGraph.BoundTo w t
    rw [hgraph]
    exact h.tagged w n' t hn' ht'
  · intro m hm
    obtain ⟨hfree, hws⟩ := h.workspaces m hm
    have htag := hnode (wsId m)
    rw [hfree, map_none] at htag
    refine ⟨map_eq_none_iff.mp htag, ?_⟩
    show s.coordinator.taskGraph.taskForWorkspace (wsId m) = none
    rw [hgraph]
    exact hws
  · show ∀ m, _ → s.coordinator.taskGraph.get (goalTask m) = none
    rw [hgraph]
    exact h.goals

theorem Sound.system (h : r.Sound) {label : System.Label} {s : System}
    (he : System.Effect r.system label s) (hnot : ∀ request, label ≠ .dispatch request) :
    { r with system := s }.Sound := by
  cases he with
  | within htree hgraph =>
    refine h.of_tags ?_ hgraph ?_
    · rw [htree]
      exact h.tree
    · intro w
      rw [htree]
      rfl
  | flush => exact h.of_tags h.tree rfl fun _ => rfl
  | spawn request => exact absurd rfl (hnot request)
  | receive _ hc =>
    have hrec := handleEvent_recorded h.tree hc
    exact h.of_tags hrec.wellFormed (handleEvent_taskGraph hc) hrec.node

/-! ## Every run -/

def placed : CoordinatorResponse → Option (WorkspaceId × TaskId)
  | .submitGoal goalId rootWorkspaceId => some (⟨rootWorkspaceId⟩, ⟨"task-" ++ goalId⟩)
  | .dispatch workspaceId taskId => some (⟨workspaceId⟩, ⟨taskId⟩)
  | _ => none

/-- A task answered with a workspace is bound to it afterwards. -/
def AnswersBound (r : Runtime) (req : CoordinatorRequest) : Prop :=
  ∀ response w t, (r.handleCoordinatorRequest req).2 = .ok response →
    placed response = some (w, t) → (r.handleCoordinatorRequest req).1.graph.BoundTo w t

def RunningFor (r : Runtime) (w : WorkspaceId) (t : TaskId) : Prop :=
  ∃ n, r.tree.get w = some n ∧ n.taskId = some t ∧ n.status.isTerminal = false

/-- Of two running workspaces with one task, never only one is bound to it. -/
def NoStray (r : Runtime) : Prop :=
  ∀ t w w', w ≠ w' → r.RunningFor w t → r.RunningFor w' t →
    ¬ (r.graph.BoundTo w t ∧ ¬ r.graph.BoundTo w' t)

/-- A Dispatch request does not name a task that has a workspace. -/
def Guarded (r : Runtime) : Label → Prop
  | .request (.dispatch taskId _ _) =>
    ∀ task, r.graph.get ⟨taskId⟩ = some task → task.workspaceRef = none
  | _ => True

theorem Sound.dispatch (h : r.Sound) {taskId : String} (role : String) (payload : List UInt8)
    (hg : ∀ task, r.graph.get ⟨taskId⟩ = some task → task.workspaceRef = none) :
    (r.dispatch taskId role payload).1.Sound := by
  unfold Runtime.dispatch
  split
  · exact h
  · next task ht => exact (h.place ht (hg task ht) role _ payload).1

theorem apply_system {label : System.Label} (h : r.apply (.system label) = some r') :
    (∀ request, label ≠ .dispatch request) ∧
      ∃ s, r.system.apply label = some s ∧ r' = { r with system := s } := by
  cases label with
  | dispatch => cases h
  | _ =>
    refine ⟨by rintro request ⟨⟩, ?_⟩
    simp only [apply, map_eq_some_iff] at h
    obtain ⟨s, hs, hr'⟩ := h
    exact ⟨s, hs, hr'.symm⟩

theorem Sound.step (h : r.Sound) (hg : r.Guarded label) (hstep : Step r label r') : r'.Sound := by
  cases label with
  | request req =>
    cases hstep
    cases req with
    | submitGoal description context => exact (h.submitGoal description context).1
    | dispatch taskId role payload => exact h.dispatch role payload hg
    | decompose tasks => exact h.decompose tasks
    | cancelTask taskId => exact h.cancelTask taskId
  | system =>
    obtain ⟨hnot, s, hs, rfl⟩ := apply_system hstep
    exact h.system (System.effect_of_step hs) hnot

theorem Sound.answersBound_dispatch (h : r.Sound) {taskId role : String} {payload : List UInt8} :
    r.AnswersBound (.dispatch taskId role payload) ↔
      ∀ task, r.graph.get ⟨taskId⟩ = some task → task.workspaceRef = none := by
  have hanswer : ∀ task, r.graph.get ⟨taskId⟩ = some task →
      r.dispatch taskId role payload = ((r.place ⟨taskId⟩ role
        ("env-dispatch-" ++ toString r.nextWorkspaceId) payload).1,
        .ok (.dispatch (wsId r.nextWorkspaceId).text taskId)) := by
    intro task ht
    simp only [Runtime.dispatch, ht]
    rfl
  constructor
  · intro hall task ht
    by_contra hne
    have hsome : task.workspaceRef.isSome := isSome_iff_ne_none.mpr hne
    have heq : r.handleCoordinatorRequest (.dispatch taskId role payload) = _ := hanswer task ht
    have hbound := hall _ (wsId r.nextWorkspaceId) ⟨taskId⟩ (congrArg Prod.snd heq) rfl
    rw [heq] at hbound
    exact h.place_of_bound ht hsome hbound
  · intro hfree response w t hok hplaced
    cases ht : r.graph.get ⟨taskId⟩ with
    | none =>
      simp only [handleCoordinatorRequest, Runtime.dispatch, ht] at hok
      cases hok
    | some task =>
      have heq : r.handleCoordinatorRequest (.dispatch taskId role payload) = _ :=
        hanswer task ht
      rw [heq] at hok ⊢
      cases hok
      cases hplaced
      exact (h.place ht (hfree task ht) role _ payload).2

/-- **Placements**, in every run in which no Dispatch request names a task that has a workspace. -/
theorem placement_of_run (h : Run Step Guarded new r) :
    r.NoStray ∧ ∀ req, r.AnswersBound req ↔ r.Guarded (.request req) := by
  have hs : r.Sound := h.invariant Sound Sound.step sound_new
  refine ⟨?_, ?_⟩
  · rintro t w w' - - ⟨n, hn, htag, -⟩ ⟨-, hnot⟩
    exact hnot (hs.tagged w' n t hn htag)
  · intro req
    cases req with
    | submitGoal description context =>
      refine iff_of_true ?_ trivial
      intro response w t hok hplaced
      obtain ⟨-, hanswer, hbound⟩ := hs.submitGoal description context
      have hok' : (r.submitGoal description context).2 = .ok response := hok
      rw [hanswer] at hok'
      cases hok'
      cases hplaced
      exact hbound
    | dispatch taskId role payload => exact hs.answersBound_dispatch
    | decompose =>
      refine iff_of_true ?_ trivial
      intro response w t hok hplaced
      cases hok
      cases hplaced
    | cancelTask =>
      refine iff_of_true ?_ trivial
      intro response w t hok hplaced
      have hresponse : response = .cancelTask := by
        simp only [handleCoordinatorRequest, Runtime.cancelTask] at hok
        split at hok
        · cases hok
        · split at hok <;> exact (Except.ok.inj hok).symm
      rw [hresponse] at hplaced
      cases hplaced

def goalAndTask : List Label :=
  [.request (.submitGoal "ship" []), .request (.decompose [⟨"build", "build", ["task-goal-0"]⟩])]

theorem placement_of_goal_and_task : ∃ r, Run Step Guarded new r ∧
      (r.handleCoordinatorRequest (.dispatch "task-decompose-1" "worker" [])).2 =
        .ok (.dispatch "ws-1" "task-decompose-1") ∧
      (r.handleCoordinatorRequest (.dispatch "task-decompose-1" "worker" [])).1.graph.BoundTo
        ⟨"ws-1"⟩ ⟨"task-decompose-1"⟩ := by
  have hok : ∀ label ∈ goalAndTask, ∀ r, Guarded r label := by
    intro label hlabel r
    simp only [goalAndTask, mem_cons, not_mem_nil, or_false] at hlabel
    rcases hlabel with rfl | rfl <;> trivial
  have hrun := Run.of_foldlM hok (rfl : goalAndTask.foldlM apply new = some _)
  obtain ⟨-, hbound⟩ := placement_of_run hrun
  have hanswers := (hbound (.dispatch "task-decompose-1" "worker" [])).mpr (by rintro task ⟨⟩; rfl)
  exact ⟨_, hrun, by decide, hanswers (.dispatch "ws-1" "task-decompose-1") _ _ (by decide) rfl⟩

/-- A Dispatch for the task of a goal is answered with a second workspace; both run with the task,
and only the first is bound to it. -/
theorem second_placement_run :
    ∃ r, Run Step anyStep new r ∧ ¬ r.AnswersBound (.dispatch "task-goal-0" "worker" []) ∧
      ∃ r', Step r (.request (.dispatch "task-goal-0" "worker" [])) r' ∧ ¬ r'.NoStray := by
  refine ⟨_, Run.of_ops (rfl : [Label.request (.submitGoal "ship" [])].foldlM apply new = some _),
    ?_, _, rfl, ?_⟩
  · intro hall
    have hbound := hall (.dispatch "ws-1" "task-goal-0") _ _ (by decide) rfl
    rw [boundTo_iff] at hbound
    exact absurd hbound (by decide)
  · intro hno
    refine hno ⟨"task-goal-0"⟩ ⟨"ws-0"⟩ ⟨"ws-1"⟩ (by decide) ⟨_, rfl, rfl, rfl⟩ ⟨_, rfl, rfl, rfl⟩ ?_
    rw [boundTo_iff, boundTo_iff]
    decide

end Runtime

end Wacp
