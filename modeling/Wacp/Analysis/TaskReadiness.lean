import Wacp.Library.Runs
import Wacp.Model.TaskGraph

/-!
# Counter-based readiness

Adding a task counts its unfinished dependencies, and completing one lowers the counters of its
dependents once per edge. `Counted` makes this exact, repeated dependencies included.
-/

namespace Wacp.TaskGraph

open Library List Option Table

variable {g g' : TaskGraph}

def finished (g : TaskGraph) (id : TaskId) : Bool :=
  ((g.tasks.get id).map (·.status.isTerminal)).getD false

def unfinished (g : TaskGraph) (deps : List TaskId) : ℕ := deps.countP fun d => !g.finished d

theorem finished_of_get {id : TaskId} {task : Task} (h : g.tasks.get id = some task) :
    g.finished id = task.status.isTerminal := by
  simp [finished, h]

/-! ## Adding a task -/

def pushEdges (id : TaskId) (deps : List TaskId) (forward : Table TaskId (List TaskId)) :
    Table TaskId (List TaskId) :=
  deps.foldl (fun f d => f.push d id) forward

theorem getList_pushEdges (id : TaskId) (deps : List TaskId)
    (forward : Table TaskId (List TaskId)) (d : TaskId) : (pushEdges id deps forward).getList d =
      forward.getList d ++ List.replicate (deps.count d) id := by
  induction deps generalizing forward with
  | nil => simp [pushEdges]
  | cons a deps ih =>
    have hstep := ih (forward.push a id)
    unfold pushEdges at hstep ⊢
    rw [foldl_cons, hstep, getList_push, append_assoc]
    by_cases had : d = a
    · subst had
      simp [replicate_succ]
    · simp [had, Ne.symm had]

theorem addDeps_of_exist (id : TaskId) {deps : List TaskId} (n : ℕ) (g : TaskGraph)
    (h : ∀ d ∈ deps, ∃ t, g.tasks.get d = some t) : addDeps id deps n g =
      (.ok (n + g.unfinished deps), { g with forward := pushEdges id deps g.forward }) := by
  induction deps generalizing n g with
  | nil => simp [addDeps, unfinished, pushEdges]
  | cons d deps ih =>
    obtain ⟨t, ht⟩ := h d (by simp)
    have hrest := ih (if t.status.isTerminal then n else n + 1)
      { g with forward := g.forward.push d id } fun d' hd' => h d' (mem_cons_of_mem d hd')
    have hfin := finished_of_get ht
    have hsame : ∀ l, unfinished { g with forward := g.forward.push d id } l =
        g.unfinished l := fun _ => rfl
    simp only [addDeps, ht, hrest, hsame]
    have hcount : g.unfinished (d :: deps) =
        g.unfinished deps + if t.status.isTerminal then 0 else 1 := by
      unfold unfinished
      rw [countP_cons, hfin]
      cases t.status.isTerminal <;> rfl
    rw [hcount]
    have hsum : (if t.status.isTerminal then n else n + 1) + g.unfinished deps =
        n + (g.unfinished deps + if t.status.isTerminal then 0 else 1) := by
      split <;> omega
    rw [hsum]
    rfl

/-- **The dependency loop, when one does not exist.** The edges of those before it stay. -/
theorem addDeps_of_missing (id : TaskId) {before after : List TaskId} {d : TaskId} (n : ℕ)
    (g : TaskGraph) (h : ∀ d ∈ before, ∃ t, g.tasks.get d = some t) (hd : g.tasks.get d = none) :
    addDeps id (before ++ d :: after) n g =
      (.error (.dependencyNotFound d.text),
        { g with forward := pushEdges id before g.forward }) := by
  induction before generalizing n g with
  | nil => simp [addDeps, hd, pushEdges]
  | cons a before ih =>
    obtain ⟨t, ht⟩ := h a (by simp)
    simp only [cons_append, addDeps, ht]
    exact ih _ { g with forward := g.forward.push a id }
      (fun d' hd' => h d' (mem_cons_of_mem a hd')) hd

theorem exist_or_missing (g : TaskGraph) (deps : List TaskId) :
    (∀ d ∈ deps, ∃ t, g.tasks.get d = some t) ∨
      ∃ before d after, deps = before ++ d :: after ∧ g.tasks.get d = none ∧
        ∀ d' ∈ before, ∃ t, g.tasks.get d' = some t := by
  induction deps with
  | nil => exact .inl (by simp)
  | cons a deps ih =>
    cases ha : g.tasks.get a with
    | none => exact .inr ⟨[], a, deps, rfl, ha, by simp⟩
    | some t =>
      rcases ih with hall | ⟨before, d, after, rfl, hd, hbefore⟩
      · refine .inl fun d hd => ?_
        rcases mem_cons.mp hd with rfl | hd
        · exact ⟨t, ha⟩
        · exact hall d hd
      · refine .inr ⟨a :: before, d, after, rfl, hd, fun d' hd' => ?_⟩
        rcases mem_cons.mp hd' with rfl | hd'
        · exact ⟨t, ha⟩
        · exact hbefore d' hd'

theorem addTask_ok {task : Task} (h : g.addTask task = (.ok (), g')) :
    g.tasks.get task.id = none ∧ (∀ d ∈ task.dependsOn, ∃ t, g.tasks.get d = some t) ∧
      g' = { g with
        forward := pushEdges task.id task.dependsOn g.forward
        remainingDeps := g.remainingDeps.set task.id (g.unfinished task.dependsOn)
        tasks := g.tasks.set task.id task } := by
  unfold addTask at h
  cases hid : g.tasks.contains task.id with
  | true => simp [hid] at h
  | false =>
    refine ⟨contains_eq_false_iff.mp hid, ?_⟩
    rcases g.exist_or_missing task.dependsOn with hall | ⟨before, d, after, hdeps, hd, hbefore⟩
    · refine ⟨hall, ?_⟩
      rw [addDeps_of_exist _ _ _ hall] at h
      simp only [hid, Bool.false_eq_true, if_false, Nat.zero_add, Prod.mk.injEq, true_and] at h
      exact h.symm
    · rw [hdeps, addDeps_of_missing _ _ _ hbefore hd] at h
      simp [hid] at h

/-! ## Completing a task -/

/-- **The completion loop.** A task is reported for every time its counter is found at zero. -/
theorem foldl_markStep (l : List TaskId) (acc : Table TaskId ℕ × List TaskId) (k : TaskId) :
    (l.foldl markStep acc).1.get k = (acc.1.get k).map (· - l.count k) ∧
      (l.foldl markStep acc).2.count k =
        acc.2.count k + ((acc.1.get k).map fun c => l.count k - (c - 1)).getD 0 := by
  induction l generalizing acc with
  | nil => cases hk : acc.1.get k <;> simp [hk]
  | cons a l ih =>
    obtain ⟨hget, hcount⟩ := ih (markStep acc a)
    rw [foldl_cons, hget, hcount]
    cases ha : acc.1.get a with
    | none =>
      have hstep : markStep acc a = acc := by simp [markStep, ha]
      rw [hstep]
      by_cases hka : k = a
      · subst hka
        simp [ha]
      · simp [count_cons_of_ne (Ne.symm hka)]
    | some c =>
      have hstep : markStep acc a = (acc.1.set a (c - 1),
          if c - 1 = 0 then acc.2 ++ [a] else acc.2) := by simp [markStep, ha]
      rw [hstep]
      by_cases hka : k = a
      · subst hka
        simp only [get_set_self, map_some, getD_some, ha, count_cons_self]
        refine ⟨?_, ?_⟩
        · congr 1
          omega
        · by_cases hc : c - 1 = 0
          · simp only [hc, if_true, count_append, count_singleton_self]
            omega
          · simp only [hc, if_false]
            omega
      · have hlist : (if c - 1 = 0 then acc.2 ++ [a] else acc.2).count k = acc.2.count k := by
          split
          · simp [Ne.symm hka]
          · rfl
        simp only [get_set, if_neg hka, hlist, count_cons_of_ne (Ne.symm hka)]
        exact ⟨trivial, trivial⟩

/-! ## The invariant -/

structure Wired (g : TaskGraph) : Prop where
  key : ∀ k t, g.tasks.get k = some t → t.id = k
  exist : ∀ k t, g.tasks.get k = some t → ∀ d ∈ t.dependsOn, ∃ td, g.tasks.get d = some td
  edges : ∀ d k, (g.forward.getList d).count k =
    ((g.tasks.get k).map fun t => t.dependsOn.count d).getD 0

structure Counted (g : TaskGraph) : Prop extends g.Wired where
  counter : ∀ k t, g.tasks.get k = some t → g.remainingDeps.get k = some (g.unfinished t.dependsOn)

theorem counted_new : new.Counted where
  key k t h := by simp [new] at h
  exist k t h := by simp [new] at h
  edges d k := by simp [new]
  counter k t h := by simp [new] at h

theorem Wired.count_edges (h : g.Wired) {k : TaskId} {t : Task} (ht : g.tasks.get k = some t)
    (d : TaskId) : (g.forward.getList d).count k = t.dependsOn.count d := by
  rw [h.edges, ht]
  rfl

theorem Wired.of_map (h : g.Wired) (f : TaskId → Task → Task)
    (hget : ∀ k, g'.tasks.get k = (g.tasks.get k).map (f k))
    (hkeep : ∀ k t, (f k t).id = t.id ∧ (f k t).dependsOn = t.dependsOn)
    (hforward : g'.forward = g.forward) : g'.Wired := by
  have hback : ∀ k t', g'.tasks.get k = some t' → ∃ t, g.tasks.get k = some t ∧ t' = f k t := by
    intro k t' ht'
    rw [hget] at ht'
    obtain ⟨t, ht, heq⟩ := map_eq_some_iff.mp ht'
    exact ⟨t, ht, heq.symm⟩
  refine ⟨?_, ?_, ?_⟩
  · intro k t' ht'
    obtain ⟨t, ht, rfl⟩ := hback k t' ht'
    rw [(hkeep k t).1]
    exact h.key k t ht
  · intro k t' ht' d hd
    obtain ⟨t, ht, rfl⟩ := hback k t' ht'
    rw [(hkeep k t).2] at hd
    obtain ⟨td, htd⟩ := h.exist k t ht d hd
    exact ⟨f d td, by rw [hget, htd]; rfl⟩
  · intro d k
    rw [hforward, h.edges, hget]
    cases g.tasks.get k with
    | none => rfl
    | some t => simp [(hkeep k t).2]

theorem Counted.of_map (h : g.Counted) (f : TaskId → Task → Task)
    (hget : ∀ k, g'.tasks.get k = (g.tasks.get k).map (f k))
    (hkeep : ∀ k t, (f k t).id = t.id ∧ (f k t).dependsOn = t.dependsOn)
    (hforward : g'.forward = g.forward)
    (hfin : ∀ k t, g.tasks.get k = some t → (f k t).status.isTerminal = t.status.isTerminal)
    (hcounters : g'.remainingDeps = g.remainingDeps) : g'.Counted := by
  refine ⟨h.toWired.of_map f hget hkeep hforward, fun k t' ht' => ?_⟩
  have hfinished : ∀ d, g'.finished d = g.finished d := by
    intro d
    unfold finished
    rw [hget]
    cases hd : g.tasks.get d with
    | none => rfl
    | some t => simp [hfin d t hd]
  rw [hget] at ht'
  obtain ⟨t, ht, rfl⟩ := map_eq_some_iff.mp ht'
  rw [hcounters, h.counter k t ht, (hkeep k t).2]
  unfold unfinished
  simp [hfinished]

theorem Counted.addTask (h : g.Counted) {task : Task} (hadd : g.addTask task = (.ok (), g')) :
    g'.Counted := by
  obtain ⟨hfresh, hdeps, hg'⟩ := addTask_ok hadd
  have hget : ∀ k, g'.tasks.get k = if k = task.id then some task else g.tasks.get k := by
    intro k
    rw [hg']
    exact get_set _
  have hne : ∀ {d : TaskId}, (∃ t, g.tasks.get d = some t) → d ≠ task.id := by
    rintro d ⟨t, ht⟩ rfl
    rw [hfresh] at ht
    cases ht
  have hcases : ∀ {k t}, g'.tasks.get k = some t →
      (k = task.id ∧ t = task) ∨ (k ≠ task.id ∧ g.tasks.get k = some t) := by
    intro k t ht
    rw [hget] at ht
    split at ht
    · rename_i hk
      exact .inl ⟨hk, (Option.some.inj ht).symm⟩
    · rename_i hk
      exact .inr ⟨hk, ht⟩
  have hexist : ∀ {k t}, g'.tasks.get k = some t →
      ∀ d ∈ t.dependsOn, ∃ td, g.tasks.get d = some td := by
    intro k t ht d hd
    rcases hcases ht with ⟨-, rfl⟩ | ⟨-, ht⟩
    · exact hdeps d hd
    · exact h.exist k t ht d hd
  refine ⟨⟨?_, ?_, ?_⟩, ?_⟩
  · intro k t ht
    rcases hcases ht with ⟨hk, rfl⟩ | ⟨-, ht⟩
    · exact hk.symm
    · exact h.key k t ht
  · intro k t ht d hd
    obtain ⟨td, htd⟩ := hexist ht d hd
    refine ⟨td, ?_⟩
    rw [hget, if_neg (hne ⟨td, htd⟩)]
    exact htd
  · intro d k
    have hforward : (g'.forward.getList d).count k = (g.forward.getList d).count k +
        (List.replicate (task.dependsOn.count d) task.id).count k := by
      rw [hg', ← count_append, ← getList_pushEdges]
    rw [hforward, h.edges, hget, count_replicate]
    by_cases hk : k = task.id
    · simp [hk, hfresh]
    · simp [hk, Ne.symm hk]
  · intro k t ht
    -- what the tasks depend on existed before, so the new task finishes nothing
    have hsame : g'.unfinished t.dependsOn = g.unfinished t.dependsOn := by
      apply countP_congr
      intro d hd
      simp [finished, hget, hne (hexist ht d hd)]
    rw [hsame, hg']
    rcases hcases ht with ⟨hk, rfl⟩ | ⟨hk, ht⟩
    · simp [hk]
    · rw [get_set, if_neg hk]
      exact h.counter k t ht

/-! ## Transitions -/

theorem transition_ok {id : TaskId} {trigger : TaskTrigger} {status : TaskStatus}
    (h : g.transition id trigger = .ok (status, g')) :
    ∃ task, g.tasks.get id = some task ∧ task.status.isTerminal = false ∧
      TaskFsm.transition task.status trigger = .ok status ∧ g' = g.setStatus id status := by
  unfold transition at h
  split at h
  · cases h
  · rename_i task htask
    split at h
    · cases h
    · rename_i newStatus hok
      cases h
      exact ⟨task, htask, TaskFsm.not_terminal_of_ok hok, hok, rfl⟩

theorem get_setStatus {g : TaskGraph} {id : TaskId} {status : TaskStatus} (k : TaskId) :
    (g.setStatus id status).tasks.get k =
      (g.tasks.get k).map fun t => { t with status := if k = id then status else t.status } := by
  unfold setStatus
  rw [get_modify]
  by_cases hk : k = id
  · simp [hk]
  · cases g.tasks.get k <;> simp [hk]

theorem Counted.transition (h : g.Counted) {id : TaskId} {trigger : TaskTrigger}
    {status : TaskStatus} (htr : g.transition id trigger = .ok (status, g'))
    (hstatus : status.isTerminal = false) : g'.Counted := by
  obtain ⟨task, htask, hopen, -, rfl⟩ := transition_ok htr
  refine h.of_map _ get_setStatus (fun k t => ⟨rfl, rfl⟩) rfl ?_ rfl
  intro k t ht
  by_cases hk : k = id
  · rw [hk, htask] at ht
    cases ht
    simp [hk, hstatus, hopen]
  · simp [hk]

section Finish

variable {id : TaskId} {task : Task} {status : TaskStatus}

theorem finished_setStatus (htask : g.tasks.get id = some task)
    (hstatus : status.isTerminal) (d : TaskId) :
    (g.setStatus id status).finished d = (decide (d = id) || g.finished d) := by
  unfold finished
  rw [get_setStatus]
  by_cases hd : d = id
  · simp [hd, htask, hstatus]
  · cases g.tasks.get d <;> simp [hd]

theorem unfinished_setStatus (htask : g.tasks.get id = some task)
    (hopen : task.status.isTerminal = false) (hstatus : status.isTerminal)
    (l : List TaskId) : g.unfinished l = (g.setStatus id status).unfinished l + l.count id := by
  have hid : g.finished id = false := (finished_of_get htask).trans hopen
  unfold unfinished
  induction l with
  | nil => rfl
  | cons d l ih =>
    rw [countP_cons, countP_cons, count_cons, ih, finished_setStatus htask hstatus]
    by_cases hd : d = id
    · simp only [hd, hid, decide_true, Bool.true_or, Bool.not_true, Bool.not_false,
        Bool.false_eq_true, if_true, if_false, beq_self_eq_true]
      omega
    · simp only [hd, decide_false, Bool.false_or, beq_iff_eq, if_false]
      omega

theorem Counted.markCompleted (h : g.Counted) (htask : g.tasks.get id = some task)
    (hopen : task.status.isTerminal = false) (hstatus : status.isTerminal) :
    ((g.setStatus id status).markCompleted id).1.Counted := by
  have hwired : (g.setStatus id status).Wired :=
    h.toWired.of_map _ get_setStatus (fun k t => ⟨rfl, rfl⟩) rfl
  refine ⟨⟨hwired.key, hwired.exist, hwired.edges⟩, fun k t' ht' => ?_⟩
  have ht : ∃ t, g.tasks.get k = some t ∧ t'.dependsOn = t.dependsOn := by
    obtain ⟨t, ht, rfl⟩ := map_eq_some_iff.mp ((get_setStatus k).symm.trans ht')
    exact ⟨t, ht, rfl⟩
  obtain ⟨t, ht, hdeps⟩ := ht
  have hsum := unfinished_setStatus htask hopen hstatus t.dependsOn
  show ((g.forward.getList id).foldl markStep (g.remainingDeps, [])).1.get k =
    some ((g.setStatus id status).unfinished t'.dependsOn)
  rw [(foldl_markStep _ _ k).1, hdeps, h.counter k t ht, h.count_edges ht]
  simp only [map_some, Option.some.injEq]
  omega

theorem Counted.count_ready (h : g.Counted) (status : TaskStatus) (k : TaskId) :
    ((g.setStatus id status).markCompleted id).2.count k = ((g.tasks.get k).map fun t =>
      t.dependsOn.count id - (g.unfinished t.dependsOn - 1)).getD 0 := by
  show ((g.forward.getList id).foldl markStep (g.remainingDeps, [])).2.count k = _
  rw [(foldl_markStep _ _ k).2]
  cases hk : g.tasks.get k with
  | none =>
    have hzero : (g.forward.getList id).count k = 0 := by
      rw [h.edges, hk]
      rfl
    cases g.remainingDeps.get k <;> simp [hzero]
  | some t => simp [h.counter k t hk, h.count_edges hk]

/-- **What `mark_completed` returns**: the dependents whose other dependencies were finished, each
once. -/
theorem Counted.ready (h : g.Counted) (htask : g.tasks.get id = some task)
    (hopen : task.status.isTerminal = false) (hstatus : status.isTerminal) :
    ((g.setStatus id status).markCompleted id).2.Nodup ∧
      ∀ k, k ∈ ((g.setStatus id status).markCompleted id).2 ↔
        ∃ t, g.tasks.get k = some t ∧ id ∈ t.dependsOn ∧
          ∀ d ∈ t.dependsOn, d = id ∨ g.finished d := by
  have hsum := unfinished_setStatus htask hopen hstatus
  constructor
  · rw [nodup_iff_count_le_one]
    intro k
    rw [h.count_ready]
    cases g.tasks.get k with
    | none => simp
    | some t =>
      have := hsum t.dependsOn
      simp only [map_some, getD_some]
      omega
  · intro k
    rw [← count_pos_iff, h.count_ready]
    cases g.tasks.get k with
    | none => simp
    | some t =>
      have hmem : id ∈ t.dependsOn ↔ 0 < t.dependsOn.count id := count_pos_iff.symm
      have hrest : (∀ d ∈ t.dependsOn, d = id ∨ g.finished d) ↔
          (g.setStatus id status).unfinished t.dependsOn = 0 := by
        unfold unfinished
        rw [countP_eq_zero]
        simp [finished_setStatus htask hstatus, or_iff_not_imp_left]
      have := hsum t.dependsOn
      simp only [map_some, getD_some, Option.some.injEq, exists_eq_left', hmem, hrest]
      omega

end Finish

/-! ## Bindings -/

structure SameTasks (g g' : TaskGraph) : Prop where
  tasks : ∃ f : TaskId → Task → Task, (∀ k, g'.tasks.get k = (g.tasks.get k).map (f k)) ∧
    ∀ k t, (f k t).id = t.id ∧ (f k t).dependsOn = t.dependsOn ∧ (f k t).status = t.status
  forward : g'.forward = g.forward
  counters : g'.remainingDeps = g.remainingDeps

theorem SameTasks.refl (g : TaskGraph) : SameTasks g g :=
  ⟨⟨fun _ t => t, fun k => by simp, fun _ _ => ⟨rfl, rfl, rfl⟩⟩, rfl, rfl⟩

theorem SameTasks.trans {g'' : TaskGraph} (h : SameTasks g g') (h' : SameTasks g' g'') :
    SameTasks g g'' := by
  obtain ⟨f, hget, hf⟩ := h.tasks
  obtain ⟨f', hget', hf'⟩ := h'.tasks
  refine ⟨⟨fun k t => f' k (f k t), fun k => ?_, fun k t => ?_⟩, h'.forward.trans h.forward,
    h'.counters.trans h.counters⟩
  · rw [hget', hget, Option.map_map]
    rfl
  · exact ⟨(hf' k _).1.trans (hf k t).1, (hf' k _).2.1.trans (hf k t).2.1,
      (hf' k _).2.2.trans (hf k t).2.2⟩

theorem sameTasks_modify {taskId : TaskId} {f : Task → Task}
    (htasks : g'.tasks = g.tasks.modify taskId f)
    (hf : ∀ t, (f t).id = t.id ∧ (f t).dependsOn = t.dependsOn ∧ (f t).status = t.status)
    (hforward : g'.forward = g.forward) (hcounters : g'.remainingDeps = g.remainingDeps) :
    SameTasks g g' := by
  refine ⟨⟨fun k t => if k = taskId then f t else t, ?_, ?_⟩, hforward, hcounters⟩
  · intro k
    rw [htasks, get_modify]
    by_cases hk : k = taskId <;> simp [hk]
  · intro k t
    dsimp only
    by_cases hk : k = taskId
    · rw [if_pos hk]
      exact hf t
    · rw [if_neg hk]
      exact ⟨rfl, rfl, rfl⟩

theorem sameTasks_bind {taskId : TaskId} {ws : WorkspaceId} (hb : g.bind taskId ws = .ok g') :
    SameTasks g g' := by
  unfold bind at hb
  split at hb
  · cases hb
  · split at hb
    · cases hb
    · split at hb
      · cases hb
      · cases hb
        exact sameTasks_modify rfl (fun _ => ⟨rfl, rfl, rfl⟩) rfl rfl

theorem sameTasks_unbind (g : TaskGraph) (taskId : TaskId) : SameTasks g (g.unbind taskId) := by
  unfold unbind
  split
  · exact SameTasks.refl g
  · exact sameTasks_modify rfl (fun _ => ⟨rfl, rfl, rfl⟩) rfl rfl

theorem Counted.of_sameTasks (h : g.Counted) (hs : SameTasks g g') : g'.Counted := by
  obtain ⟨f, hget, hf⟩ := hs.tasks
  refine h.of_map f hget (fun k t => ⟨(hf k t).1, (hf k t).2.1⟩) hs.forward ?_ hs.counters
  intro k t _
  rw [(hf k t).2.2]

/-! ## Runs -/

/-- A transition carries the `mark_completed` that follows it. -/
inductive Op where
  | addTask (task : Task)
  | transition (id : TaskId) (trigger : TaskTrigger)
  | bind (taskId : TaskId) (workspaceId : WorkspaceId)
  | unbind (taskId : TaskId)

/-- A failed `add_task` is no operation of a run; a failed transition or binding changes nothing. -/
def apply (g : TaskGraph) : Op → Option TaskGraph
  | .addTask task =>
    match g.addTask task with
    | (.ok (), g') => some g'
    | (.error _, _) => none
  | .transition id trigger =>
    match g.transition id trigger with
    | .ok (status, g') =>
      if status.isTerminal then some (g'.markCompleted id).1 else some g'
    | .error _ => some g
  | .bind taskId workspaceId =>
    match g.bind taskId workspaceId with
    | .ok g' => some g'
    | .error _ => some g
  | .unbind taskId => some (g.unbind taskId)

def Step (g : TaskGraph) (op : Op) (g' : TaskGraph) : Prop := g.apply op = some g'

theorem counted_step {op : Op} (h : g.Counted) (hs : Step g op g') : g'.Counted := by
  unfold Step at hs
  cases op with
  | addTask task =>
    simp only [apply] at hs
    split at hs
    · rename_i g₁ hadd
      cases hs
      exact h.addTask hadd
    · cases hs
  | transition id trigger =>
    simp only [apply] at hs
    split at hs
    · rename_i status g₁ htr
      split at hs
      · rename_i hstatus
        obtain ⟨task, htask, hopen, -, rfl⟩ := transition_ok htr
        cases hs
        exact h.markCompleted htask hopen hstatus
      · rename_i hstatus
        cases hs
        exact h.transition htr (by simpa using hstatus)
    · cases hs
      exact h
  | bind taskId workspaceId =>
    simp only [apply] at hs
    split at hs
    · rename_i g₁ hb
      cases hs
      exact h.of_sameTasks (sameTasks_bind hb)
    · cases hs
      exact h
  | unbind taskId =>
    cases hs
    exact h.of_sameTasks (sameTasks_unbind g taskId)

theorem Counted.dispatchable (h : g.Counted) :
    g.dispatchable.Nodup ∧ ∀ k, k ∈ g.dispatchable ↔ ∃ t, g.tasks.get k = some t ∧
      t.status = .pending ∧ ∀ d ∈ t.dependsOn, g.finished d := by
  have hzero : ∀ {k t}, g.tasks.get k = some t →
      ((g.remainingDeps.get t.id).getD 0 = 0 ↔ ∀ d ∈ t.dependsOn, g.finished d) := by
    intro k t ht
    rw [h.key k t ht, h.counter k t ht]
    simp [unfinished, countP_eq_zero]
  constructor
  · have hkeys : (g.tasks.values.map (·.id)).Nodup := by
      rw [map_values_eq_keys h.key]
      exact g.tasks.keys.nodup
    exact Multiset.nodup_of_le (Multiset.map_le_map (Multiset.filter_le _ _)) hkeys
  · intro k
    unfold TaskGraph.dispatchable
    rw [Multiset.mem_map]
    constructor
    · rintro ⟨t, hmem, hid⟩
      obtain ⟨hval, hpending, hcount⟩ := Multiset.mem_filter.mp hmem
      obtain ⟨k', hk'⟩ := mem_values.mp hval
      have hkk : k' = k := (h.key k' t hk').symm.trans hid
      subst hkk
      exact ⟨t, hk', hpending, (hzero hk').mp hcount⟩
    · rintro ⟨t, ht, hpending, hdeps⟩
      refine ⟨t, Multiset.mem_filter.mpr ⟨?_, hpending, (hzero ht).mpr hdeps⟩, h.key k t ht⟩
      exact mem_values.mpr ⟨k, ht⟩

/-- **Readiness in every run** of successful additions, transitions with their `mark_completed`,
bindings and unbindings. -/
theorem readiness_of_run (h : Run Step anyStep new g) :
    (∀ k t, g.get k = some t → g.remainingDeps.get k = some (g.unfinished t.dependsOn)) ∧
    (g.dispatchable.Nodup ∧ ∀ k, k ∈ g.dispatchable ↔ ∃ t, g.get k = some t ∧
      t.status = .pending ∧ ∀ d ∈ t.dependsOn, g.finished d) ∧
    (∀ id trigger status g', g.transition id trigger = .ok (status, g') →
      status.isTerminal →
        g.finished id = false ∧ (g'.markCompleted id).2.Nodup ∧
        ∀ k, k ∈ (g'.markCompleted id).2 ↔ ∃ t, g.get k = some t ∧ id ∈ t.dependsOn ∧
          ∀ d ∈ t.dependsOn, d = id ∨ g.finished d) := by
  have hcounted : g.Counted :=
    h.invariant Counted (fun hI _ hstep => counted_step hI hstep) counted_new
  refine ⟨hcounted.counter, hcounted.dispatchable, ?_⟩
  intro id trigger status g' htr hstatus
  obtain ⟨task, htask, hopen, -, rfl⟩ := transition_ok htr
  exact ⟨(finished_of_get htask).trans hopen, hcounted.ready htask hopen hstatus⟩

def sampleTask (id : String) (deps : List String) : Task :=
  { id := ⟨id⟩, name := id, description := "", dependsOn := deps.map TaskId.mk,
    parentTask := none, status := .draft, workspaceRef := none, workspaceHistory := [],
    checkpointRef := none }

theorem readiness_of_sample_run : ∃ g, Run Step anyStep new g ∧ g.remainingDeps.get ⟨"t"⟩ = some 2 ∧
      ∃ g', g.transition ⟨"a"⟩ .cancel = .ok (.cancelled, g') ∧
        ∀ k, k ∈ (g'.markCompleted ⟨"a"⟩).2 ↔ ∃ t, g.get k = some t ∧ ⟨"a"⟩ ∈ t.dependsOn ∧
          ∀ d ∈ t.dependsOn, d = ⟨"a"⟩ ∨ g.finished d := by
  have hrun := Run.of_ops (rfl : [Op.addTask (sampleTask "a" []), .addTask (sampleTask "b" []),
    .addTask (sampleTask "t" ["a", "b", "a"]), .transition ⟨"b"⟩ .cancel].foldlM apply new = some _)
  exact ⟨_, hrun, by decide, _, rfl, ((readiness_of_run hrun).2.2 _ .cancel .cancelled _ rfl rfl).2.2⟩

end Wacp.TaskGraph
