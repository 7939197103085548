import Wacp.Analysis.CancelCascade

/-!
# Which tasks are listed as ready

Only `mark_completed` lowers a counter, and nothing in the runtime calls it. `Edit` lists what the
handlers do to the graph.
-/

namespace Wacp

open Library List Option Table

namespace TaskGraph

/-! ## Edits of the graph -/

/-- The handlers add a task, bind one, and advance it by Approve or Assign or, if allowed, Cancel.
-/
inductive Edit (cancels : Bool) : TaskGraph → TaskGraph → Prop where
  | add {g : TaskGraph} (task : Task) (hdraft : task.status = .draft) :
      Edit cancels g (g.addTask task).2
  | move {g : TaskGraph} (id : TaskId) {trigger : TaskTrigger}
      (htrigger : trigger = .approve ∨ trigger = .assign ∨ cancels ∧ trigger = .cancel) :
      Edit cancels g (Runtime.tryTransition g id trigger)
  | bind {g : TaskGraph} (id : TaskId) (ws : WorkspaceId) :
      Edit cancels g (Runtime.tryBind g id ws)

abbrev Edits (cancels : Bool) : TaskGraph → TaskGraph → Prop :=
  Relation.ReflTransGen (Edit cancels)

variable {cancels : Bool} {g g' g'' : TaskGraph}

/-- What an edit leaves alone. -/
structure Keeps (cancels : Bool) (g g' : TaskGraph) : Prop where
  task : ∀ k t, g.tasks.get k = some t → ∃ t', g'.tasks.get k = some t' ∧
    t'.dependsOn = t.dependsOn ∧ g'.remainingDeps.get k = g.remainingDeps.get k ∧
    (t.status = .cancelled → t'.status = .cancelled) ∧
    (cancels = false → t'.status = .cancelled → t.status = .cancelled)

theorem Keeps.refl (g : TaskGraph) : Keeps cancels g g :=
  ⟨fun _ t ht => ⟨t, ht, rfl, rfl, id, fun _ => id⟩⟩

theorem Keeps.trans (h : Keeps cancels g g') (h' : Keeps cancels g' g'') : Keeps cancels g g'' := by
  refine ⟨fun k t ht => ?_⟩
  obtain ⟨t', ht', hdeps, hcount, hdone, honly⟩ := h.task k t ht
  obtain ⟨t'', ht'', hdeps', hcount', hdone', honly'⟩ := h'.task k t' ht'
  exact ⟨t'', ht'', hdeps'.trans hdeps, hcount'.trans hcount, fun hc => hdone' (hdone hc),
    fun hno hc => honly hno (honly' hno hc)⟩

variable {id : TaskId}

theorem Keeps.isCancelled (h : Keeps cancels g g') (hc : g.IsCancelled id) : g'.IsCancelled id := by
  obtain ⟨t, ht, hst⟩ := hc
  obtain ⟨t', ht', -, -, hdone, -⟩ := h.task id t ht
  exact ⟨t', ht', hdone hst⟩

theorem Keeps.isCancelled_iff (h : Keeps false g g') {t : Task}
    (ht : g.tasks.get id = some t) : g'.IsCancelled id ↔ g.IsCancelled id := by
  constructor
  · rintro ⟨u, hu, hst⟩
    obtain ⟨t', ht', -, -, -, honly⟩ := h.task id t ht
    cases hu.symm.trans ht'
    exact ⟨t, ht, honly rfl hst⟩
  · exact h.isCancelled

structure Plain (g : TaskGraph) : Prop where
  key : ∀ k t, g.tasks.get k = some t → t.id = k
  status : ∀ k t, g.tasks.get k = some t → t.status ≠ .integrated

theorem plain_new : new.Plain where
  key := by
    intro k t h
    simp [new] at h
  status := by
    intro k t h
    simp [new] at h

theorem Plain.finished_iff (h : g.Plain) (id : TaskId) : g.finished id ↔ g.IsCancelled id := by
  unfold finished IsCancelled
  cases hget : g.tasks.get id with
  | none => simp
  | some t =>
    have hst := h.status id t hget
    simp only [map_some, getD_some, Option.some.injEq, exists_eq_left']
    cases hs : t.status with
    | integrated => exact absurd hs hst
    | cancelled => simp [TaskStatus.isTerminal]
    | _ => simp [TaskStatus.isTerminal]

/-! ### One edit -/

/-- A task changed in place; without Cancel it is not newly cancelled. -/
structure Advances (cancels : Bool) (t t' : Task) : Prop where
  id : t'.id = t.id
  dependsOn : t'.dependsOn = t.dependsOn
  cancelled : t.status = .cancelled → t'.status = .cancelled
  integrated : t'.status = .integrated → t.status = .integrated
  only : cancels = false → t'.status = .cancelled → t.status = .cancelled

theorem Advances.of_status {t t' : Task} (hid : t'.id = t.id)
    (hdeps : t'.dependsOn = t.dependsOn) (hst : t'.status = t.status) : Advances cancels t t' :=
  ⟨hid, hdeps, fun h => hst.trans h, fun h => hst.symm.trans h, fun _ h => hst.symm.trans h⟩

theorem status_of_trigger {s s' : TaskStatus} {trigger : TaskTrigger}
    (htrigger : trigger = .approve ∨ trigger = .assign ∨ trigger = .cancel)
    (h : TaskFsm.transition s trigger = .ok s') :
    s' ≠ .integrated ∧ (trigger ≠ .cancel → s' ≠ .cancelled) := by
  obtain rfl | rfl | rfl := htrigger <;> cases s <;> cases h <;> decide

/-- One new task, whose counter is the number of its unfinished dependencies. -/
structure Adds (g g' : TaskGraph) (task : Task) : Prop where
  draft : task.status = .draft
  fresh : g.tasks.get task.id = none
  exist : ∀ d ∈ task.dependsOn, ∃ td, g.tasks.get d = some td
  tasks : g'.tasks = g.tasks.set task.id task
  counters : g'.remainingDeps = g.remainingDeps.set task.id (g.unfinished task.dependsOn)

structure Maps (cancels : Bool) (g g' : TaskGraph) (f : TaskId → Task → Task) : Prop where
  tasks : ∀ k, g'.tasks.get k = (g.tasks.get k).map (f k)
  counters : g'.remainingDeps = g.remainingDeps
  advances : ∀ k t, g.tasks.get k = some t → Advances cancels t (f k t)

theorem Maps.same (htasks : g'.tasks = g.tasks) (hcounters : g'.remainingDeps = g.remainingDeps) :
    Maps cancels g g' fun _ t => t := by
  refine ⟨?_, hcounters, fun _ _ _ => .of_status rfl rfl rfl⟩
  intro k
  rw [htasks, Option.map_id']

theorem Edit.inv (h : Edit cancels g g') : (∃ task, Adds g g' task) ∨ ∃ f, Maps cancels g g' f := by
  cases h with
  | add task hdraft =>
    rcases g.addTask_cases task with ⟨-, hadd⟩ | ⟨-, -, g₁, hadd⟩ | ⟨-, _, _, _, -, -, -, hadd⟩
    · rw [hadd]
      exact .inr ⟨_, Maps.same rfl rfl⟩
    · rw [hadd]
      obtain ⟨hnew, hdeps, rfl⟩ := addTask_ok hadd
      exact .inl ⟨task, hdraft, hnew, hdeps, rfl, rfl⟩
    · rw [hadd]
      exact .inr ⟨_, Maps.same rfl rfl⟩
  | move id htrigger =>
    rename_i trigger
    right
    unfold Runtime.tryTransition
    cases htr : g.transition id trigger with
    | error => exact ⟨_, Maps.same rfl rfl⟩
    | ok res =>
      obtain ⟨status, g₁⟩ := res
      obtain ⟨task, htask, hopen, hfsm, rfl⟩ := transition_ok htr
      obtain ⟨hint, hcan⟩ := status_of_trigger (by tauto) hfsm
      refine ⟨_, get_setStatus, rfl, ?_⟩
      intro k t ht
      by_cases hk : k = id
      · subst hk
        cases htask.symm.trans ht
        refine ⟨rfl, rfl, ?_, ?_, ?_⟩
        · intro hst
          rw [hst] at hopen
          cases hopen
        · intro hst
          exact absurd (by simpa using hst) hint
        · intro hno hst
          refine absurd (by simpa using hst) (hcan ?_)
          rintro rfl
          simp [hno] at htrigger
      · exact .of_status rfl rfl (by simp [hk])
  | bind id ws =>
    right
    unfold Runtime.tryBind
    cases hb : g.bind id ws with
    | error => exact ⟨_, Maps.same rfl rfl⟩
    | ok =>
      have hsame := sameTasks_bind hb
      obtain ⟨f, hget, hf⟩ := hsame.tasks
      refine ⟨f, hget, hsame.counters, fun k t _ => ?_⟩
      exact .of_status (hf k t).1 (hf k t).2.1 (hf k t).2.2

theorem Adds.get {task : Task} (h : Adds g g' task) (k : TaskId) :
    g'.tasks.get k = if k = task.id then some task else g.tasks.get k := by
  rw [h.tasks, get_set]

theorem Edit.keeps (h : Edit cancels g g') : Keeps cancels g g' := by
  refine ⟨fun k t ht => ?_⟩
  obtain ⟨task, hadd⟩ | ⟨f, hmap⟩ := h.inv
  · have hk : k ≠ task.id := by
      rintro rfl
      cases hadd.fresh.symm.trans ht
    refine ⟨t, by rw [hadd.get, if_neg hk, ht], rfl, ?_, id, fun _ => id⟩
    rw [hadd.counters, get_set, if_neg hk]
  · have hadv := hmap.advances k t ht
    exact ⟨f k t, by rw [hmap.tasks, ht]; rfl, hadv.dependsOn, by rw [hmap.counters],
      hadv.cancelled, hadv.only⟩

theorem Edit.plain (h : Edit cancels g g') (hp : g.Plain) : g'.Plain := by
  obtain ⟨task, hadd⟩ | ⟨f, hmap⟩ := h.inv
  · constructor
    · intro k t ht
      rw [hadd.get] at ht
      split at ht
      · rename_i hk
        cases ht
        exact hk.symm
      · exact hp.key k t ht
    · intro k t ht
      rw [hadd.get] at ht
      split at ht
      · cases ht
        rw [hadd.draft]
        decide
      · exact hp.status k t ht
  · constructor
    · intro k t' ht'
      rw [hmap.tasks] at ht'
      obtain ⟨t, ht, rfl⟩ := map_eq_some_iff.mp ht'
      rw [(hmap.advances k t ht).id]
      exact hp.key k t ht
    · intro k t' ht' hst
      rw [hmap.tasks] at ht'
      obtain ⟨t, ht, rfl⟩ := map_eq_some_iff.mp ht'
      exact hp.status k t ht ((hmap.advances k t ht).integrated hst)

variable {k : TaskId}

theorem Edit.adds (h : Edit cancels g g') {t : Task} (hnone : g.tasks.get k = none)
    (ht : g'.tasks.get k = some t) : Adds g g' t ∧ t.id = k := by
  obtain ⟨task, hadd⟩ | ⟨f, hmap⟩ := h.inv
  · rw [hadd.get] at ht
    split at ht
    · rename_i hk
      cases ht
      exact ⟨hadd, hk.symm⟩
    · cases hnone.symm.trans ht
  · rw [hmap.tasks, hnone] at ht
    cases ht

/-! ### Sequences of edits -/

theorem Edits.keeps (h : Edits cancels g g') : Keeps cancels g g' := by
  induction h with
  | refl => exact .refl g
  | tail _ hedit ih => exact ih.trans hedit.keeps

theorem Edits.plain (h : Edits cancels g g') (hp : g.Plain) : g'.Plain := by
  induction h with
  | refl => exact hp
  | tail _ hedit ih => exact hedit.plain ih

def Tells (g : TaskGraph) (k : TaskId) : Prop :=
  ∀ t, g.tasks.get k = some t → (∀ d ∈ t.dependsOn, ∃ td, g.tasks.get d = some td) ∧
    ((g.remainingDeps.get k).getD 0 = 0 ↔ ∀ d ∈ t.dependsOn, g.IsCancelled d)

theorem Keeps.tells (h : Keeps false g g') {t : Task}
    (ht : g.tasks.get k = some t) (htells : g.Tells k) : g'.Tells k := by
  intro t' ht'
  obtain ⟨u, hu, hdeps, hcount, -, -⟩ := h.task k t ht
  cases hu.symm.trans ht'
  obtain ⟨hexist, hiff⟩ := htells t ht
  rw [hdeps, hcount, hiff]
  refine ⟨?_, ?_⟩
  · intro d hd
    obtain ⟨td, htd⟩ := hexist d hd
    obtain ⟨td', htd', -⟩ := h.task d td htd
    exact ⟨td', htd'⟩
  · apply forall₂_congr
    intro d hd
    obtain ⟨td, htd⟩ := hexist d hd
    exact (h.isCancelled_iff htd).symm

/-- **A task that comes without Cancel**: its counter ends at zero exactly if all its dependencies
are cancelled. -/
theorem Edits.born (h : Edits false g g') (hp : g.Plain)
    (hnew : g.tasks.get k = none) : g'.Tells k := by
  induction h with
  | refl =>
    intro t ht
    cases hnew.symm.trans ht
  | tail hedits hedit ih =>
    rename_i g₁ g₂
    have hp₁ := Edits.plain hedits hp
    have hkeep := hedit.keeps
    cases hk : g₁.tasks.get k with
    | some => exact hkeep.tells hk ih
    | none =>
      intro t ht
      obtain ⟨hadd, rfl⟩ := hedit.adds hk ht
      refine ⟨?_, ?_⟩
      · intro d hd
        obtain ⟨td, htd⟩ := hadd.exist d hd
        obtain ⟨td', htd', -⟩ := hkeep.task d td htd
        exact ⟨td', htd'⟩
      · rw [hadd.counters, get_set_self, getD_some, unfinished, countP_eq_zero]
        apply forall₂_congr
        intro d hd
        obtain ⟨td, htd⟩ := hadd.exist d hd
        rw [hkeep.isCancelled_iff htd, ← hp₁.finished_iff]
        simp

theorem Plain.mem_readyTasks (h : g.Plain) (k : TaskId) :
    k ∈ g.readyTasks ↔ ∃ t, g.tasks.get k = some t ∧ t.status = .pending ∧
      (g.remainingDeps.get k).getD 0 = 0 := by
  unfold readyTasks dispatchable
  rw [Multiset.mem_map]
  constructor
  · rintro ⟨t, hmem, rfl⟩
    obtain ⟨hval, hpending, hcount⟩ := Multiset.mem_filter.mp hmem
    obtain ⟨k, hk⟩ := mem_values.mp hval
    have hid := h.key k t hk
    exact ⟨t, by rw [hid]; exact hk, hpending, hcount⟩
  · rintro ⟨t, ht, hpending, hcount⟩
    have hid := h.key k t ht
    refine ⟨t, Multiset.mem_filter.mpr ⟨mem_values.mpr ⟨k, ht⟩, hpending, ?_⟩, hid⟩
    rw [hid]
    exact hcount

end TaskGraph

/-! ## The runtime -/

namespace Runtime

open TaskGraph

variable {r r' : Runtime} {label : Label}

def Label.cancels : Label → Bool
  | .request (.cancelTask _) => true
  | _ => false

theorem edits_place (r : Runtime) (taskId : TaskId) (role envelopeId : String)
    (payload : List UInt8) : Edits false r.graph (r.place taskId role envelopeId payload).1.graph :=
  .tail (.single (.bind taskId (wsId r.nextWorkspaceId))) (.move taskId (by simp))

theorem edits_decomposeStep (acc : Runtime × List String) {taskDef : TaskDefinition} :
    Edits false acc.1.graph (decomposeStep acc taskDef).1.graph := by
  have hadd : Edit false acc.1.graph (acc.1.graph.addTask
      (draftTask ⟨"task-decompose-" ++ toString acc.1.nextGoalId⟩ taskDef.name
        taskDef.description (taskDef.dependsOn.map fun d => ⟨d⟩))).2 := .add _ rfl
  unfold decomposeStep
  dsimp only
  split
  · rename_i g hok
    rw [hok] at hadd
    exact .tail (.single hadd) (.move _ (by simp))
  · rename_i g herr
    rw [herr] at hadd
    exact .single hadd

theorem edits_decompose (tasks : List TaskDefinition) (acc : Runtime × List String) :
    Edits false acc.1.graph (tasks.foldl decomposeStep acc).1.graph := by
  induction tasks generalizing acc with
  | nil => exact .refl
  | cons taskDef tasks ih => exact (edits_decomposeStep acc).trans (ih _)

/-- **What a step does to the graph**: edits, with Cancel for CancelTask only. -/
theorem edits_of_step (h : Step r label r') : Edits label.cancels r.graph r'.graph := by
  cases label with
  | system =>
    obtain ⟨-, s, hs, rfl⟩ := apply_system h
    have hgraph : s.coordinator.taskGraph = r.graph := by
      cases System.effect_of_step hs with
      | within _ hgraph => exact hgraph
      | flush | spawn => rfl
      | receive _ hc => exact Coordinator.handleEvent_taskGraph hc
    show Relation.ReflTransGen _ r.graph s.coordinator.taskGraph
    rw [hgraph]
  | request req =>
    cases h
    cases req with
    | submitGoal description context =>
      have hadd : Edit false r.graph (r.graph.addTask
          (draftTask ⟨"task-" ++ ("goal-" ++ toString r.nextGoalId)⟩ description
            description [])).2 := .add _ rfl
      show Edits false r.graph (r.submitGoal description context).1.graph
      unfold submitGoal
      dsimp only
      split
      · rename_i e g herr
        rw [herr] at hadd
        exact .single hadd
      · rename_i g hok
        rw [hok] at hadd
        have happroved := Relation.ReflTransGen.tail (.single hadd)
          (.move ⟨"task-" ++ ("goal-" ++ toString r.nextGoalId)⟩ (.inl rfl))
        have hplaced := edits_place ({ r with nextGoalId := r.nextGoalId + 1 }.setGraph
            (tryTransition g ⟨"task-" ++ ("goal-" ++ toString r.nextGoalId)⟩ .approve))
          ⟨"task-" ++ ("goal-" ++ toString r.nextGoalId)⟩ "worker"
          ("env-goal-" ++ toString r.nextGoalId) context
        exact happroved.trans hplaced
    | dispatch taskId role payload =>
      show Edits false r.graph (r.dispatch taskId role payload).1.graph
      unfold dispatch
      split
      · exact .refl
      · exact edits_place _ _ _ _ _
    | decompose tasks =>
      exact edits_decompose tasks (r, [])
    | cancelTask taskId =>
      show Edits true r.graph (r.cancelTask taskId).1.graph
      have hmove : Edit true r.graph (tryTransition r.graph ⟨taskId⟩ .cancel) :=
        .move _ (by simp)
      unfold tryTransition at hmove
      unfold cancelTask
      split
      · exact .refl
      · rename_i status g hok
        rw [hok] at hmove
        split <;> exact .single hmove

variable {t : TaskId}

theorem get_cancelTask_eq_none_iff {x : String} :
    (r.cancelTask x).1.graph.get t = none ↔ r.graph.get t = none := by
  unfold cancelTask
  split
  · exact Iff.rfl
  · rename_i status g hok
    obtain ⟨task, -, -, -, rfl⟩ := transition_ok hok
    split <;> exact get_setStatus_eq_none_iff

theorem plain_of_run (h : Run Step anyStep new r) : r.graph.Plain :=
  h.invariant (fun r => r.graph.Plain)
    (fun hp _ hstep => Edits.plain (edits_of_step hstep) hp) plain_new

theorem keeps_of_run (h : Run Step anyStep r r') : Keeps true r.graph r'.graph := by
  refine h.invariant (fun s => Keeps true r.graph s.graph) ?_ (.refl _)
  intro s label s' hkeep _ hstep
  refine hkeep.trans ⟨fun k t ht => ?_⟩
  obtain ⟨t', ht', hdeps, hcount, hdone, -⟩ := (Edits.keeps (edits_of_step hstep)).task k t ht
  exact ⟨t', ht', hdeps, hcount, hdone, by simp⟩

/-! ## Ready and finished -/

def Lists (r : Runtime) (t : TaskId) : Prop := ∃ v ∈ r.getReadyTasks, v.taskId = t.text

def EventsHandled (r : Runtime) : Prop :=
  r.system.events = [] ∧ ∀ a ∈ r.system.actors, a.outbox = []

def HasClosed (r : Runtime) (w : WorkspaceId) : Prop :=
  ∃ a ∈ r.system.actors, a.state.id = w ∧ a.state.status = .closed

def Finished (r : Runtime) (d : TaskId) : Prop :=
  r.graph.IsCancelled d ∨ ∃ w, r.graph.refOf d = some w ∧ r.HasClosed w

theorem lists_iff (hp : r.graph.Plain) (t : TaskId) : r.Lists t ↔ t ∈ r.graph.readyTasks := by
  unfold Lists getReadyTasks
  simp only [Multiset.mem_filterMap, map_eq_some_iff]
  constructor
  · rintro ⟨v, ⟨k, hk, u, hu, rfl⟩, hv⟩
    have hid : u.id = t := by
      cases hu' : u.id
      cases t
      simp_all
    rw [hp.key k u hu] at hid
    rwa [← hid]
  · intro ht
    obtain ⟨u, hu, -, -⟩ := (hp.mem_readyTasks t).mp ht
    exact ⟨_, ⟨t, ht, u, hu, rfl⟩, by rw [hp.key t u hu]⟩

structure AddedIn (r₁ r₂ r : Runtime) (t : TaskId) : Prop where
  before : Run Step anyStep new r₁
  step : ∃ label, Step r₁ label r₂
  after : Run Step anyStep r₂ r
  absent : r₁.graph.get t = none
  present : r₂.graph.get t ≠ none

theorem exists_addedIn (hrun : Run Step anyStep new r) (ht : r.graph.get t ≠ none) :
    ∃ r₁ r₂, AddedIn r₁ r₂ r t := by
  have hempty : new.graph.get t = none := get_empty
  obtain ⟨r₁, label, r₂, hbefore, -, hstep, hafter, habsent, hpresent⟩ :=
    hrun.crossing (fun s => s.graph.get t ≠ none) (not_not.mpr hempty) ht
  exact ⟨r₁, r₂, hbefore, ⟨label, hstep⟩, hafter, not_not.mp habsent, hpresent⟩

/-- **A Pending task is listed** exactly if its dependencies were all cancelled when it was added.
-/
theorem AddedIn.lists_iff {r₁ r₂ : Runtime} {task : Task} (h : AddedIn r₁ r₂ r t)
    (ht : r.graph.get t = some task) (hpending : task.status = .pending) :
    (r.Lists t ↔ ∀ d ∈ task.dependsOn, r₂.graph.IsCancelled d) ∧
      Keeps true r₂.graph r.graph := by
  obtain ⟨label, hstep⟩ := h.step
  -- the step that adds a task does not cancel
  have hcancels : label.cancels = false := by
    cases label with
    | system => rfl
    | request req =>
      cases req with
      | cancelTask =>
        cases hstep
        exact absurd (get_cancelTask_eq_none_iff.mpr h.absent) h.present
      | _ => rfl
  have hedits := edits_of_step hstep
  rw [hcancels] at hedits
  have hp₁ := plain_of_run h.before
  have hkeep := keeps_of_run h.after
  have hp := plain_of_run ((h.before.tail label trivial hstep).trans h.after)
  obtain ⟨u, hu⟩ := ne_none_iff_exists'.mp h.present
  have htells := (Edits.born hedits hp₁ h.absent u hu).2
  obtain ⟨u', hu', hdeps, hcount, -, -⟩ := hkeep.task t u hu
  cases hu'.symm.trans ht
  refine ⟨?_, hkeep⟩
  rw [Runtime.lists_iff hp, hp.mem_readyTasks, hdeps, ← htells, ← hcount]
  constructor
  · rintro ⟨-, -, -, hzero⟩
    exact hzero
  · intro hzero
    exact ⟨task, ht, hpending, hzero⟩

/-- **Ready tasks**, in every state of every run. -/
theorem ready_iff_finished_iff (r : Runtime) (t : TaskId) (task : Task)
    (hrun : Run Step anyStep new r) (ht : r.graph.get t = some task)
    (hpending : task.status = .pending) : ∃ r₁ r₂, AddedIn r₁ r₂ r t ∧
      ((r.Lists t ↔ ∀ d ∈ task.dependsOn, r.Finished d) ↔
        ((∀ d ∈ task.dependsOn, r.Finished d) →
          ∀ d ∈ task.dependsOn, r₂.graph.IsCancelled d)) := by
  obtain ⟨r₁, r₂, hadded⟩ := exists_addedIn hrun (t := t) (by simp [ht])
  obtain ⟨hlists, hkeep⟩ := hadded.lists_iff ht hpending
  refine ⟨r₁, r₂, hadded, ?_⟩
  have hfinished : (∀ d ∈ task.dependsOn, r₂.graph.IsCancelled d) →
      ∀ d ∈ task.dependsOn, r.Finished d := fun hall d hd => .inl (hkeep.isCancelled (hall d hd))
  rw [hlists]
  exact ⟨fun hiff hall => hiff.mpr hall, fun himp => ⟨hfinished, himp⟩⟩

def cancelledFirst : List Label :=
  [.request (.decompose [⟨"build", "", []⟩]), .request (.cancelTask "task-decompose-0"),
    .request (.decompose [⟨"test", "", ["task-decompose-0"]⟩])]

theorem ready_of_cancelled_first :
    ∃ r task, Run Step anyStep new r ∧ r.graph.get ⟨"task-decompose-1"⟩ = some task ∧
      task.status = .pending ∧
      ∃ r₁ r₂, AddedIn r₁ r₂ r ⟨"task-decompose-1"⟩ ∧
        ((r.Lists ⟨"task-decompose-1"⟩ ↔ ∀ d ∈ task.dependsOn, r.Finished d) ↔
          ((∀ d ∈ task.dependsOn, r.Finished d) →
            ∀ d ∈ task.dependsOn, r₂.graph.IsCancelled d)) := by
  have hrun := Run.of_ops (rfl : cancelledFirst.foldlM apply new = some _)
  exact ⟨_, _, hrun, rfl, rfl, ready_iff_finished_iff _ _ _ hrun rfl rfl⟩

/-- The first of two tasks, which the second depends on, is cancelled. -/
def cancelledDependency : List Label :=
  [.request (.decompose [⟨"build", "", []⟩, ⟨"test", "", ["task-decompose-0"]⟩]),
    .request (.cancelTask "task-decompose-0")]

/-- Or it is dispatched, and its workspace Closes. -/
def closedDependency : List Label :=
  [.request (.decompose [⟨"build", "", []⟩, ⟨"test", "", ["task-decompose-0"]⟩]),
    .request (.dispatch "task-decompose-0" "worker" []),
    .system (.command ⟨"ws-0"⟩ (.deliverEnvelope
      { id := ⟨"env-1"⟩, fromWorkspace := ⟨"ws-root"⟩, toWorkspace := ⟨"ws-0"⟩
        envelopeType := "directive", payload := [], inReplyTo := none, timestamp := 0
        priority := .normal, origin := .human, state := .created })),
    .system (.turn 0), .system (.flush 0), .system .handleEvent,
    .system (.agent 0 (.emitSignal .complete none none)),
    .system (.turn 0), .system (.flush 0), .system (.flush 0),
    .system .handleEvent, .system .handleEvent,
    .system (.turn 0), .system (.flush 0), .system .handleEvent,
    .system (.turn 0), .system (.flush 0), .system .handleEvent]

/-- All is handled, and a Pending task with finished dependencies is not listed. -/
def Overlooks (r : Runtime) (t : TaskId) : Prop :=
  r.EventsHandled ∧ ∃ task, r.graph.get t = some task ∧ task.status = .pending ∧
    (∀ d ∈ task.dependsOn, r.Finished d) ∧ ¬ r.Lists t

theorem overlooks_of_counter {d : TaskId} (hrun : Run Step anyStep new r)
    (hhandled : r.EventsHandled) (hfin : r.Finished d)
    (htask : (r.graph.get t).map (fun u => (u.status, u.dependsOn)) = some (.pending, [d]))
    (hcount : r.graph.remainingDeps.get t = some 1) : r.Overlooks t := by
  obtain ⟨task, ht, heq⟩ := map_eq_some_iff.mp htask
  obtain ⟨hst, hdeps⟩ := Prod.mk.inj heq
  refine ⟨hhandled, task, ht, hst, ?_, ?_⟩
  · intro d' hd'
    rw [hdeps, mem_singleton] at hd'
    rw [hd']
    exact hfin
  · rw [lists_iff (plain_of_run hrun), (plain_of_run hrun).mem_readyTasks]
    rintro ⟨-, -, -, hzero⟩
    rw [hcount] at hzero
    cases hzero

theorem finished_dependency_not_listed :
    (∃ r, cancelledDependency.foldlM apply new = some r ∧ r.Overlooks ⟨"task-decompose-1"⟩) ∧
      ∃ r, closedDependency.foldlM apply new = some r ∧ r.Overlooks ⟨"task-decompose-1"⟩ := by
  constructor
  · have hrun := Run.of_ops (rfl : cancelledDependency.foldlM apply new = some _)
    exact ⟨_, rfl, overlooks_of_counter hrun ⟨rfl, by decide⟩ (.inl ⟨_, rfl, rfl⟩) rfl rfl⟩
  · have hrun := Run.of_ops (rfl : closedDependency.foldlM apply new = some _)
    exact ⟨_, rfl, overlooks_of_counter hrun ⟨rfl, by decide⟩
      (.inr ⟨⟨"ws-0"⟩, rfl, _, mem_singleton_self _, rfl, rfl⟩) rfl rfl⟩

end Runtime

end Wacp
