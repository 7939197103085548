import Wacp.Analysis.TaskReadiness

/-!
# Failed additions

`add_task` writes the edge of each dependency before it looks at the next, and `add_subtasks` adds
one after the other; neither undoes anything. A leftover edge counts twice later.
-/

namespace Wacp.TaskGraph

open Library List Table SchedulingOps

variable {g g' : TaskGraph}

def AddTaskAtomic (g : TaskGraph) (task : Task) : Prop :=
  ∀ e g', g.addTask task = (.error e, g') → g' = g

def AddSubtasksAtomic (g : TaskGraph) (parent : TaskId) (subtasks : List Task) : Prop :=
  ∀ e g', addSubtasks g parent subtasks = (.error e, g') → g' = g

def FailsAtOnce (g : TaskGraph) (task : Task) : Prop :=
  g.tasks.contains task.id ∨
    ∃ d, task.dependsOn.head? = some d ∧ g.tasks.contains d = false

def Insertable : (TaskId → Bool) → List Task → Prop
  | _, [] => True
  | known, task :: rest =>
    known task.id = false ∧ (∀ d ∈ task.dependsOn, known d) ∧
      Insertable (fun d => decide (d = task.id) || known d) rest

/-! ## One task -/

theorem contains_iff_exists {d : TaskId} : g.tasks.contains d ↔ ∃ t, g.tasks.get d = some t :=
  contains_iff

theorem forward_pushEdges_ne {id a : TaskId} {before : List TaskId} :
    { g with forward := pushEdges id (a :: before) g.forward } ≠ g := by
  intro h
  have hforward : pushEdges id (a :: before) g.forward = g.forward := congrArg forward h
  have hlen : ((pushEdges id (a :: before) g.forward).getList a).length =
      (g.forward.getList a).length := by rw [hforward]
  rw [getList_pushEdges, length_append, length_replicate, count_cons_self] at hlen
  omega

theorem addTask_cases (g : TaskGraph) (task : Task) : (g.tasks.contains task.id ∧
      g.addTask task = (.error (.duplicateTask task.id.text), g)) ∨
    (g.tasks.contains task.id = false ∧ (∀ d ∈ task.dependsOn, g.tasks.contains d) ∧
      ∃ g', g.addTask task = (.ok (), g')) ∨
    (g.tasks.contains task.id = false ∧ ∃ before d after,
      task.dependsOn = before ++ d :: after ∧ g.tasks.contains d = false ∧
      (∀ d' ∈ before, g.tasks.contains d') ∧
      g.addTask task = (.error (.dependencyNotFound d.text),
        { g with forward := pushEdges task.id before g.forward })) := by
  cases hid : g.tasks.contains task.id with
  | true => exact .inl ⟨rfl, by simp [addTask, hid]⟩
  | false =>
    rcases g.exist_or_missing task.dependsOn with hall | ⟨before, d, after, hdeps, hd, hbefore⟩
    · refine .inr (.inl ⟨rfl, fun d hd => contains_iff_exists.mpr (hall d hd), ?_⟩)
      unfold addTask
      rw [addDeps_of_exist _ _ _ hall]
      simp [hid]
    · refine .inr (.inr ⟨rfl, before, d, after, hdeps, ?_, ?_, ?_⟩)
      · exact contains_eq_false_iff.mpr hd
      · exact fun d' hd' => contains_iff_exists.mpr (hbefore d' hd')
      · unfold addTask
        rw [hdeps, addDeps_of_missing _ _ _ hbefore hd]
        simp [hid]

theorem addTaskAtomic_iff (g : TaskGraph) (task : Task) : g.AddTaskAtomic task ↔
      (∀ d ∈ task.dependsOn, g.tasks.contains d) ∨ g.FailsAtOnce task := by
  rcases g.addTask_cases task with ⟨hdup, hadd⟩ | ⟨-, hall, g', hadd⟩ |
    ⟨hnew, before, d, after, hdeps, hd, hbefore, hadd⟩
  · refine ⟨fun _ => .inr (.inl hdup), fun _ e g' h => ?_⟩
    rw [hadd] at h
    cases h
    rfl
  · refine ⟨fun _ => .inl hall, fun _ e g'' h => ?_⟩
    rw [hadd] at h
    cases h
  · constructor
    · intro hatomic
      have hsame := hatomic _ _ hadd
      cases before with
      | nil => exact .inr (.inr ⟨d, by simp [hdeps], hd⟩)
      | cons a before => exact absurd hsame forward_pushEdges_ne
    · rintro hcond e g' h
      rw [hadd] at h
      cases h
      have hempty : before = [] := by
        rcases hcond with hall | hdup | ⟨a, ha, hmissing⟩
        · have := hall d (by simp [hdeps])
          rw [hd] at this
          cases this
        · rw [hnew] at hdup
          cases hdup
        · cases before with
          | nil => rfl
          | cons b =>
            have hab : b = a := by simpa [hdeps] using ha
            have := hbefore a (by simp [hab])
            rw [hmissing] at this
            cases this
      rw [hempty]
      rfl

/-! ## A list of subtasks -/

variable {task : Task}

theorem contains_addTask (h : g.addTask task = (.ok (), g')) (d : TaskId) :
    g'.tasks.contains d = (decide (d = task.id) || g.tasks.contains d) := by
  obtain ⟨-, -, rfl⟩ := addTask_ok h
  unfold Table.contains
  rw [get_set]
  by_cases hd : d = task.id <;> simp [hd]

variable {d : TaskId}

theorem contains_addTask_of_contains (task : Task) (h : g.tasks.contains d) :
    (g.addTask task).2.tasks.contains d := by
  rcases g.addTask_cases task with ⟨-, hadd⟩ | ⟨-, -, g', hadd⟩ | ⟨-, _, _, _, -, -, -, hadd⟩
  · rw [hadd]
    exact h
  · rw [hadd]
    rw [contains_addTask hadd, h, Bool.or_true]
  · rw [hadd]
    exact h

theorem contains_addSubtasksLoop (parent : TaskId) (subtasks : List Task) (ids : List TaskId)
    (h : g.tasks.contains d) : (addSubtasksLoop parent subtasks ids g).2.tasks.contains d := by
  induction subtasks generalizing ids g with
  | nil => exact h
  | cons task rest ih =>
    have hstep := contains_addTask_of_contains { task with parentTask := some parent } h
    unfold addSubtasksLoop
    split
    · rename_i e g₁ hadd
      rw [hadd] at hstep
      exact hstep
    · rename_i g₁ hadd
      rw [hadd] at hstep
      exact ih _ hstep

theorem addSubtasksLoop_ok_iff (parent : TaskId) (subtasks : List Task) (ids : List TaskId)
    (g : TaskGraph) : (∃ ids' g', addSubtasksLoop parent subtasks ids g = (.ok ids', g')) ↔
      Insertable g.tasks.contains subtasks := by
  induction subtasks generalizing ids g with
  | nil => exact ⟨fun _ => trivial, fun _ => ⟨ids, g, rfl⟩⟩
  | cons task rest ih =>
    unfold addSubtasksLoop Insertable
    rcases g.addTask_cases { task with parentTask := some parent } with
      ⟨hdup, hadd⟩ | ⟨hnew, hall, g', hadd⟩ | ⟨hnew, before, d, after, hdeps, hd, -, hadd⟩
    · simp [hadd, show g.tasks.contains task.id = true from hdup]
    · have hknown : g'.tasks.contains =
          fun d => decide (d = task.id) || g.tasks.contains d := by
        funext d
        exact contains_addTask hadd d
      simp only [hadd]
      rw [ih, hknown]
      exact ⟨fun h => ⟨hnew, hall, h⟩, fun h => h.2.2⟩
    · simp only [hadd]
      constructor
      · rintro ⟨ids', g', h⟩
        cases h
      · rintro ⟨-, hall, -⟩
        have := hall d (by rw [show task.dependsOn = _ from hdeps]; simp)
        rw [hd] at this
        cases this

variable {parent : TaskId} {rest : List Task} {g₁ : TaskGraph}

theorem addSubtasksLoop_error_ne {ids : List TaskId} {g₂ : TaskGraph} {e : GraphError}
    (hadd : g.addTask { task with parentTask := some parent } = (.ok (), g₁))
    (hloop : addSubtasksLoop parent rest ids g₁ = (.error e, g₂)) : g₂ ≠ g := by
  intro heq
  have hfirst : g₁.tasks.contains task.id := by
    rw [contains_addTask hadd]
    simp
  have hlast := contains_addSubtasksLoop parent rest ids hfirst
  rw [hloop, heq] at hlast
  have hnone := (addTask_ok hadd).1
  rw [contains_eq_false_iff.mpr hnone] at hlast
  cases hlast

theorem loop_atomic_of_added {g : TaskGraph} (hnew : g.tasks.contains task.id = false)
    (hall : ∀ d ∈ task.dependsOn, g.tasks.contains d)
    (hadd : g.addTask { task with parentTask := some parent } = (.ok (), g₁)) :
    (∀ e g', addSubtasksLoop parent (task :: rest) [] g = (.error e, g') → g' = g) ↔
      Insertable g.tasks.contains (task :: rest) ∨ g.FailsAtOnce task := by
  have hok := addSubtasksLoop_ok_iff parent (task :: rest) [] g
  simp only [addSubtasksLoop, hadd] at hok ⊢
  constructor
  · intro hatomic
    left
    cases hres : addSubtasksLoop parent rest ([] ++ [task.id]) g₁ with
    | mk r g₂ =>
      cases r with
      | ok ids => exact hok.mp ⟨ids, g₂, hres⟩
      | error e => exact absurd (hatomic e g₂ hres) (addSubtasksLoop_error_ne hadd hres)
  · rintro (hins | hdup | ⟨d, hd, hmissing⟩) e g' h
    · obtain ⟨ids, g₂, hres⟩ := hok.mpr hins
      rw [hres] at h
      cases h
    · rw [hnew] at hdup
      cases hdup
    · have := hall d (mem_of_mem_head? hd)
      rw [hmissing] at this
      cases this

theorem loop_atomic_of_missing {g : TaskGraph} {e₁ : GraphError} (hmem : d ∈ task.dependsOn)
    (hd : g.tasks.contains d = false)
    (hadd : g.addTask { task with parentTask := some parent } = (.error e₁, g₁)) :
    (∀ e g', addSubtasksLoop parent (task :: rest) [] g = (.error e, g') → g' = g) ↔
      Insertable g.tasks.contains (task :: rest) ∨ g.FailsAtOnce task := by
  have hnot : ¬ ∀ d' ∈ task.dependsOn, g.tasks.contains d' := by
    intro hall
    rw [hall d hmem] at hd
    cases hd
  have hfirst := addTaskAtomic_iff g { task with parentTask := some parent }
  simp only [addSubtasksLoop, hadd]
  constructor
  · intro hatomic
    have hatomic' : g.AddTaskAtomic { task with parentTask := some parent } := by
      intro e g' h
      rw [hadd] at h
      cases h
      exact hatomic _ _ rfl
    exact .inr ((hfirst.mp hatomic').resolve_left hnot)
  · rintro (⟨-, hall, -⟩ | hfails) e g' h
    · exact absurd hall hnot
    · cases h
      exact hfirst.mpr (.inr hfails) _ _ hadd

theorem addSubtasksAtomic_iff {g : TaskGraph} {parent : TaskId} {subtasks : List Task} :
    g.AddSubtasksAtomic parent subtasks ↔ g.tasks.contains parent = false ∨
      Insertable g.tasks.contains subtasks ∨
        ∃ task rest, subtasks = task :: rest ∧ g.FailsAtOnce task := by
  unfold AddSubtasksAtomic addSubtasks TaskGraph.get
  cases hparent : g.tasks.get parent with
  | none =>
    refine ⟨fun _ => .inl (contains_eq_false_iff.mpr hparent), fun _ e g' h => ?_⟩
    cases h
    rfl
  | some p =>
    have hknown : g.tasks.contains parent := contains_iff_exists.mpr ⟨p, hparent⟩
    simp only [hknown, Bool.true_eq_false, false_or]
    cases subtasks with
    | nil =>
      refine ⟨fun _ => .inl trivial, fun _ e g' h => ?_⟩
      cases h
    | cons task rest =>
      have hhead : (∃ task' rest', task :: rest = task' :: rest' ∧ g.FailsAtOnce task') ↔
          g.FailsAtOnce task := by
        constructor
        · rintro ⟨task', rest', heq, hfails⟩
          cases heq
          exact hfails
        · exact fun hfails => ⟨task, rest, rfl, hfails⟩
      rw [hhead]
      -- whether the first subtask fails, and how, decides
      rcases g.addTask_cases { task with parentTask := some parent } with
        ⟨hdup, hadd⟩ | ⟨hnew, hall, g₁, hadd⟩ | ⟨-, before, d, after, hdeps, hd, -, hadd⟩
      · refine ⟨fun _ => .inr (.inl hdup), fun _ e g' h => ?_⟩
        simp only [addSubtasksLoop, hadd] at h
        cases h
        rfl
      · exact loop_atomic_of_added hnew hall hadd
      · have hmem : d ∈ task.dependsOn := by
          rw [show task.dependsOn = _ from hdeps]
          simp
        exact loop_atomic_of_missing hmem hd hadd

/-- **When failed additions are without effect**, for every graph, task and subtasks. -/
theorem add_atomic_iff (g : TaskGraph) (task : Task) (parent : TaskId) (subtasks : List Task) :
    (g.AddTaskAtomic task ↔ (∀ d ∈ task.dependsOn, g.tasks.contains d) ∨ g.FailsAtOnce task) ∧
    (g.AddSubtasksAtomic parent subtasks ↔ g.tasks.contains parent = false ∨
      Insertable g.tasks.contains subtasks ∨
        ∃ first rest, subtasks = first :: rest ∧ g.FailsAtOnce first) :=
  ⟨addTaskAtomic_iff g task, addSubtasksAtomic_iff⟩

/-- **A leftover edge.** `t` depends on `a` and on `x`, which is missing. Later it has two edges
from `a`, so cancelling `a` reports `t` as ready while `x` is a draft. -/
theorem leftover_edge_run : ∃ g g₁ g₂ g₃, new.addTask (sampleTask "a" []) = (.ok (), g) ∧
      g.addTask (sampleTask "t" ["a", "x"]) = (.error (.dependencyNotFound "x"), g₁) ∧
      g₁ ≠ g ∧ ¬ g.AddTaskAtomic (sampleTask "t" ["a", "x"]) ∧
      g₁.apply (.addTask (sampleTask "x" [])) = some g₂ ∧
      g₂.apply (.addTask (sampleTask "t" ["a", "x"])) = some g₃ ∧
      g₃.forward.getList ⟨"a"⟩ = [⟨"t"⟩, ⟨"t"⟩] ∧
      ((g₃.setStatus ⟨"a"⟩ .cancelled).markCompleted ⟨"a"⟩).2 = [⟨"t"⟩] ∧
      g₃.finished ⟨"x"⟩ = false ∧
      (∃ h₂ h₃, g.apply (.addTask (sampleTask "x" [])) = some h₂ ∧
        h₂.apply (.addTask (sampleTask "t" ["a", "x"])) = some h₃ ∧
        ((h₃.setStatus ⟨"a"⟩ .cancelled).markCompleted ⟨"a"⟩).2 = []) := by
  refine ⟨_, _, _, _, rfl, rfl, by decide, ?_, rfl, rfl, by decide, by decide, by decide,
    _, _, rfl, rfl, by decide⟩
  intro hatomic
  exact absurd (hatomic _ _ rfl) (by decide)

end Wacp.TaskGraph
