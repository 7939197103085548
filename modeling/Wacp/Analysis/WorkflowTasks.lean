import Wacp.Analysis.ReadyTasks
import Wacp.Model.Workflow

/-!
# The tasks of a workflow

The client refers to stages by their ids. The runtime makes up ids of its own, reads the client's as
such, and skips a task with an unknown dependency.
-/

namespace Wacp

open Library List

/-! ## Workflows -/

namespace Workflow

def DependsOn (w : Workflow) (a b : String) : Prop :=
  ∃ stage ∈ w.stages, stage.id = a ∧ b ∈ stage.dependsOn

structure WellFormed (w : Workflow) : Prop where
  distinct : (w.stages.map WorkflowStage.id).Nodup
  known : ∀ stage ∈ w.stages, ∀ d ∈ stage.dependsOn, d ∈ w.stages.map WorkflowStage.id
  acyclic : ∀ a, ¬ Relation.TransGen w.DependsOn a a

theorem acyclic_of_rank {w : Workflow} (rank : String → ℕ)
    (h : ∀ a b, w.DependsOn a b → rank b < rank a) (a : String) :
    ¬ Relation.TransGen w.DependsOn a a := by
  intro hcycle
  have hlt : ∀ b, Relation.TransGen w.DependsOn a b → rank b < rank a := by
    intro b hb
    induction hb with
    | single hab => exact h _ _ hab
    | tail _ hbc ih => exact (h _ _ hbc).trans ih
  exact lt_irrefl _ (hlt a hcycle)

end Workflow

def CoordinatorRequest.dispatched : CoordinatorRequest → Option String
  | .dispatch taskId _ _ => some taskId
  | _ => none

namespace Runtime

open TaskGraph

/-! ## One task of a Decompose request -/

def decomposeId (n : ℕ) : TaskId := ⟨"task-decompose-" ++ toString n⟩

theorem decomposeId_injective : Function.Injective decomposeId := by
  intro m n h
  exact numbered_injective "task-decompose-" (TaskId.mk.inj h)

def pendingTask (n : ℕ) (taskDef : TaskDefinition) : Task :=
  { draftTask (decomposeId n) taskDef.name taskDef.description
      (taskDef.dependsOn.map fun d => ⟨d⟩) with status := .pending }

/-- Its id is new and its dependencies are in the graph. -/
def AcceptsNext (r : Runtime) (taskDef : TaskDefinition) : Prop :=
  r.graph.tasks.get (decomposeId r.nextGoalId) = none ∧
    ∀ d ∈ taskDef.dependsOn, ∃ t, r.graph.tasks.get ⟨d⟩ = some t

def newTask (n : ℕ) (taskDef : TaskDefinition) : Task :=
  draftTask (decomposeId n) taskDef.name taskDef.description (taskDef.dependsOn.map fun d => ⟨d⟩)

variable {taskDef : TaskDefinition}

theorem acceptsNext_iff {r : Runtime} : r.AcceptsNext taskDef ↔
      ∃ g, r.graph.addTask (newTask r.nextGoalId taskDef) = (.ok (), g) := by
  constructor
  · rintro ⟨hnew, hdeps⟩
    rcases r.graph.addTask_cases (newTask r.nextGoalId taskDef) with
      ⟨hdup, -⟩ | ⟨-, -, g, hadd⟩ | ⟨-, before, d, after, hsplit, hd, -, -⟩
    · obtain ⟨t, ht⟩ := contains_iff_exists.mp hdup
      cases hnew.symm.trans ht
    · exact ⟨g, hadd⟩
    · have hmem : d ∈ (newTask r.nextGoalId taskDef).dependsOn := by simp [hsplit]
      obtain ⟨d', hd', rfl⟩ := mem_map.mp hmem
      rw [contains_iff_exists.mpr (hdeps d' hd')] at hd
      cases hd
  · rintro ⟨g, hadd⟩
    obtain ⟨hnew, hdeps, -⟩ := addTask_ok hadd
    exact ⟨hnew, fun d hd => hdeps ⟨d⟩ (mem_map.mpr ⟨d, hd, rfl⟩)⟩

theorem tryTransition_approve {g : TaskGraph} {id : TaskId} {t : Task}
    (ht : g.tasks.get id = some t) (hst : t.status = .draft) :
    tryTransition g id .approve = g.setStatus id .pending := by
  simp only [tryTransition, TaskGraph.transition, ht, hst]
  rfl

variable {acc : Runtime × List String}

/-- **An accepted definition** becomes a Pending task, and its id is returned. -/
theorem decomposeStep_of_accepts (h : acc.1.AcceptsNext taskDef) :
    (decomposeStep acc taskDef).2 = acc.2 ++ [(decomposeId acc.1.nextGoalId).text] ∧
      (decomposeStep acc taskDef).1.nextGoalId = acc.1.nextGoalId + 1 ∧
      ∀ k, (decomposeStep acc taskDef).1.graph.tasks.get k =
        if k = decomposeId acc.1.nextGoalId then some (pendingTask acc.1.nextGoalId taskDef)
        else acc.1.graph.tasks.get k := by
  obtain ⟨g, hadd⟩ := acceptsNext_iff.mp h
  have hadd' : acc.1.graph.addTask (draftTask ⟨"task-decompose-" ++ toString acc.1.nextGoalId⟩
      taskDef.name taskDef.description (taskDef.dependsOn.map fun d => ⟨d⟩)) = (.ok (), g) := hadd
  obtain ⟨-, -, hg⟩ := addTask_ok hadd
  have hself : g.tasks.get (decomposeId acc.1.nextGoalId) =
      some (newTask acc.1.nextGoalId taskDef) := by
    rw [hg]
    exact Table.get_set_self _
  have hgraph : (decomposeStep acc taskDef).1.graph =
      g.setStatus (decomposeId acc.1.nextGoalId) .pending := by
    rw [← tryTransition_approve hself rfl]
    simp only [decomposeStep, hadd']
    rfl
  refine ⟨?_, ?_, ?_⟩
  · simp only [decomposeStep, hadd']
    rfl
  · simp only [decomposeStep, hadd']
    rfl
  · intro k
    rw [hgraph, get_setStatus]
    by_cases hk : k = decomposeId acc.1.nextGoalId
    · rw [hk, hself, Option.map_some, if_pos rfl, if_pos rfl]
      rfl
    · have hother : g.tasks.get k = acc.1.graph.tasks.get k := by
        rw [hg]
        exact (Table.get_set _).trans (if_neg hk)
      simp [hk, hother]

theorem decomposeStep_of_not_accepts (h : ¬ acc.1.AcceptsNext taskDef) :
    (decomposeStep acc taskDef).2 = acc.2 := by
  cases hadd : acc.1.graph.addTask (newTask acc.1.nextGoalId taskDef) with
  | mk res g =>
    cases res with
    | ok => exact absurd (acceptsNext_iff.mpr ⟨g, hadd⟩) h
    | error e =>
      have hadd' : acc.1.graph.addTask (draftTask ⟨"task-decompose-" ++
          toString acc.1.nextGoalId⟩ taskDef.name taskDef.description
            (taskDef.dependsOn.map fun d => ⟨d⟩)) = (.error e, g) := hadd
      simp only [decomposeStep, hadd']

/-! ## A whole Decompose request -/

/-- None is skipped: the ids made up are new, and every dependency is in the graph or a definition
before. -/
structure Accepts (r : Runtime) (defs : List TaskDefinition) : Prop where
  fresh : ∀ i < defs.length, r.graph.tasks.get (decomposeId (r.nextGoalId + i)) = none
  deps : ∀ i d, defs[i]? = some d → ∀ dep ∈ d.dependsOn,
    (∃ t, r.graph.tasks.get ⟨dep⟩ = some t) ∨ ∃ j < i, ⟨dep⟩ = decomposeId (r.nextGoalId + j)

variable {defs : List TaskDefinition}

theorem accepts_cons {d : TaskDefinition} : acc.1.Accepts (d :: defs) ↔
      acc.1.AcceptsNext d ∧ (decomposeStep acc d).1.Accepts defs := by
  constructor
  · intro h
    have hnext : acc.1.AcceptsNext d := by
      refine ⟨h.fresh 0 (by simp), ?_⟩
      intro dep hdep
      obtain ht | ⟨j, hj, -⟩ := h.deps 0 d rfl dep hdep
      · exact ht
      · omega
    obtain ⟨-, hn, hget⟩ := decomposeStep_of_accepts hnext
    refine ⟨hnext, ?_, ?_⟩
    · intro i hi
      have hne : decomposeId (acc.1.nextGoalId + 1 + i) ≠ decomposeId acc.1.nextGoalId :=
        fun heq => by have := decomposeId_injective heq; omega
      rw [hn, hget, if_neg hne, Nat.add_assoc, Nat.add_comm 1 i]
      exact h.fresh (i + 1) (by simpa using hi)
    · intro i d' hd' dep hdep
      rw [hn, hget]
      split
      · exact .inl ⟨_, rfl⟩
      · rename_i hne
        obtain ht | ⟨j, hj, heq⟩ := h.deps (i + 1) d' (by simpa using hd') dep hdep
        · exact .inl ht
        · cases j with
          | zero => exact absurd heq hne
          | succ j =>
            refine .inr ⟨j, by omega, ?_⟩
            rw [heq]
            congr 1
            omega
  · rintro ⟨hnext, hrest⟩
    obtain ⟨-, hn, hget⟩ := decomposeStep_of_accepts hnext
    refine ⟨?_, ?_⟩
    · intro i hi
      cases i with
      | zero => exact hnext.1
      | succ i =>
        have hf := hrest.fresh i (by simpa using hi)
        rw [hn, hget] at hf
        split at hf
        · cases hf
        · rw [← hf]
          congr 2
          omega
    · intro i d' hd' dep hdep
      cases i with
      | zero =>
        cases hd'
        exact .inl (hnext.2 dep hdep)
      | succ i =>
        obtain ⟨t, ht⟩ | ⟨j, hj, heq⟩ := hrest.deps i d' (by simpa using hd') dep hdep
        · rw [hget] at ht
          split at ht
          · rename_i hk
            exact .inr ⟨0, by omega, hk⟩
          · exact .inl ⟨t, ht⟩
        · refine .inr ⟨j + 1, by omega, ?_⟩
          rw [heq, hn]
          congr 1
          omega

def decomposeIds (n : ℕ) (count : ℕ) : List String :=
  (List.range count).map fun i => (decomposeId (n + i)).text

theorem decomposeIds_succ (n count : ℕ) :
    decomposeIds n (count + 1) = (decomposeId n).text :: decomposeIds (n + 1) count := by
  unfold decomposeIds
  rw [range_succ_eq_map, map_cons, map_map]
  congr 1
  apply map_congr_left
  intro i _
  simp only [Function.comp_apply]
  congr 2
  omega

theorem accepts_of_length (defs : List TaskDefinition) (acc : Runtime × List String) :
    (defs.foldl decomposeStep acc).2.length ≤ acc.2.length + defs.length ∧
      ((defs.foldl decomposeStep acc).2.length = acc.2.length + defs.length →
        acc.1.Accepts defs) := by
  induction defs generalizing acc with
  | nil => exact ⟨le_refl _, fun _ => ⟨by simp, by simp⟩⟩
  | cons d defs ih =>
    obtain ⟨hle, haccepts⟩ := ih (decomposeStep acc d)
    rw [foldl_cons, length_cons]
    by_cases hnext : acc.1.AcceptsNext d
    · obtain ⟨hids, -, -⟩ := decomposeStep_of_accepts hnext
      rw [hids, length_append, length_singleton] at hle haccepts
      refine ⟨by omega, ?_⟩
      intro hlen
      exact accepts_cons.mpr ⟨hnext, haccepts (by omega)⟩
    · rw [decomposeStep_of_not_accepts hnext] at hle haccepts
      exact ⟨by omega, fun hlen => by omega⟩

/-- **A request of which no definition is skipped** returns the ids in order. -/
theorem Accepts.get (acc : Runtime × List String)
    (h : acc.1.Accepts defs) : (defs.foldl decomposeStep acc).2 =
        acc.2 ++ decomposeIds acc.1.nextGoalId defs.length ∧
      (∀ i d, defs[i]? = some d →
        (defs.foldl decomposeStep acc).1.graph.tasks.get (decomposeId (acc.1.nextGoalId + i)) =
          some (pendingTask (acc.1.nextGoalId + i) d)) ∧
      ∀ k, (∀ i < defs.length, k ≠ decomposeId (acc.1.nextGoalId + i)) →
        (defs.foldl decomposeStep acc).1.graph.tasks.get k = acc.1.graph.tasks.get k := by
  induction defs generalizing acc with
  | nil => exact ⟨by simp [decomposeIds], by simp, fun _ _ => rfl⟩
  | cons d defs ih =>
    obtain ⟨hnext, hrest⟩ := accepts_cons.mp h
    obtain ⟨hids, hn, hget⟩ := decomposeStep_of_accepts hnext
    obtain ⟨hids', htasks, hothers⟩ := ih (decomposeStep acc d) hrest
    rw [hn] at hids' htasks hothers
    rw [foldl_cons, length_cons]
    refine ⟨?_, ?_, ?_⟩
    · rw [hids', hids, decomposeIds_succ, append_assoc]
      rfl
    · intro i d' hd'
      cases i with
      | zero =>
        cases hd'
        rw [Nat.add_zero, hothers, hget, if_pos rfl]
        intro i _ heq
        have := decomposeId_injective heq
        omega
      | succ i =>
        have hi := htasks i d' (by simpa using hd')
        rw [Nat.add_assoc, Nat.add_comm 1 i] at hi
        exact hi
    · intro k hk
      rw [hothers, hget, if_neg (by simpa using hk 0 (by omega))]
      intro i hi
      have hne := hk (i + 1) (by omega)
      rwa [← Nat.add_assoc, Nat.add_right_comm] at hne

/-! ## Client and runtime -/

/-- The new tasks are `ids`, the `i`-th that of the `i`-th stage, and depend on each other as the
stages do. -/
structure TasksOf (r r' : Runtime) (w : Workflow) (ids : List String) : Prop where
  length : ids.length = w.stages.length
  distinct : ids.Nodup
  fresh : ∀ id ∈ ids, r.graph.get ⟨id⟩ = none
  exactly : ∀ k, r'.graph.get k ≠ none ↔ r.graph.get k ≠ none ∨ k.text ∈ ids
  task : ∀ (i : ℕ) (stage : WorkflowStage) (id : String), w.stages[i]? = some stage →
    ids[i]? = some id → ∃ t, r'.graph.get ⟨id⟩ = some t ∧ t.name = stage.id ∧
      ∀ (j : ℕ) (stage' : WorkflowStage) (id' : String), w.stages[j]? = some stage' →
        ids[j]? = some id' → (⟨id'⟩ ∈ t.dependsOn ↔ stage'.id ∈ stage.dependsOn)

/-- Every later Dispatch of a stage names its task and is not refused as unknown. -/
def Dispatches (r' : Runtime) (w : Workflow) (ids : List String) : Prop :=
  ∀ (i : ℕ) (stage : WorkflowStage) (id : String), w.stages[i]? = some stage →
    ids[i]? = some id → ∀ stageGoal r'', Run Step anyStep r' r'' →
      (stage.dispatchRequest stageGoal).dispatched = some id ∧
        ∀ message, (r''.handleCoordinatorRequest (stage.dispatchRequest stageGoal)).2 ≠
          .error (.notFound message)

def AgreesOn (r : Runtime) (w : Workflow) : Prop :=
  ∃ ids r', r.handleCoordinatorRequest w.decomposeRequest = (r', .ok (.decompose ids)) ∧
    TasksOf r r' w ids ∧ Dispatches r' w ids

/-- The stage ids are those made up next, in order, and every dependency is a stage before. -/
def Foresees (r : Runtime) (w : Workflow) : Prop :=
  ∀ (i : ℕ) (stage : WorkflowStage), w.stages[i]? = some stage →
    (⟨stage.id⟩ : TaskId) = decomposeId (r.nextGoalId + i) ∧ r.graph.get ⟨stage.id⟩ = none ∧
      ∀ d ∈ stage.dependsOn, ∃ j < i, ∃ stage', w.stages[j]? = some stage' ∧ stage'.id = d

variable {r : Runtime} {w : Workflow}

theorem getElem?_decomposeIds {n count i : ℕ} (hi : i < count) :
    (decomposeIds n count)[i]? = some (decomposeId (n + i)).text := by
  simp [decomposeIds, hi]

theorem nodup_decomposeIds {n count : ℕ} : (decomposeIds n count).Nodup := by
  refine List.Nodup.map ?_ nodup_range
  intro i j h
  have := decomposeId_injective (congrArg TaskId.mk h)
  omega

theorem dispatch_found {r' : Runtime} {id role : String} {payload : List UInt8} {t : Task}
    (ht : r.graph.get ⟨id⟩ = some t) (hrun : Run Step anyStep r r') (message : String) :
    (r'.handleCoordinatorRequest (.dispatch id role payload)).2 ≠ .error (.notFound message) := by
  obtain ⟨t', ht', -⟩ := (keeps_of_run hrun).task ⟨id⟩ t ht
  have hget : r'.graph.get ⟨id⟩ = some t' := ht'
  simp [handleCoordinatorRequest, dispatch, hget]

theorem Foresees.accepts (h : r.Foresees w) : r.Accepts (w.stages.map WorkflowStage.task) := by
  refine ⟨?_, ?_⟩
  · intro i hi
    rw [length_map] at hi
    obtain ⟨hid, hfresh, -⟩ := h i w.stages[i] (getElem?_eq_getElem hi)
    rw [← hid]
    exact hfresh
  · intro i d hd dep hdep
    rw [getElem?_map] at hd
    obtain ⟨stage, hstage, rfl⟩ := Option.map_eq_some_iff.mp hd
    obtain ⟨j, hj, stage', hstage', rfl⟩ := (h i stage hstage).2.2 dep hdep
    exact .inr ⟨j, hj, (h j stage' hstage').1⟩

theorem Foresees.agreesOn (h : r.Foresees w) : r.AgreesOn w := by
  obtain ⟨hids, htasks, hothers⟩ := Accepts.get (r, []) h.accepts
  rw [nil_append, length_map] at hids
  rw [length_map] at hothers
  -- the `i`-th returned id is the id of the `i`-th stage
  have hid : ∀ (i : ℕ) (stage : WorkflowStage) (id : String), w.stages[i]? = some stage →
      (decomposeIds r.nextGoalId w.stages.length)[i]? = some id →
        i < w.stages.length ∧ stage.id = id ∧ (⟨id⟩ : TaskId) = decomposeId (r.nextGoalId + i) := by
    intro i stage id hstage hid
    obtain ⟨hlt, -⟩ := List.getElem?_eq_some_iff.mp hstage
    rw [getElem?_decomposeIds hlt] at hid
    cases hid
    exact ⟨hlt, congrArg TaskId.text (h i stage hstage).1, rfl⟩
  have htask : ∀ (i : ℕ) (stage : WorkflowStage) (id : String), w.stages[i]? = some stage →
      (decomposeIds r.nextGoalId w.stages.length)[i]? = some id →
        (r.decompose (w.stages.map WorkflowStage.task)).1.graph.get ⟨id⟩ =
          some (pendingTask (r.nextGoalId + i) stage.task) := by
    intro i stage id hstage hi
    rw [(hid i stage id hstage hi).2.2]
    exact htasks i stage.task (by rw [getElem?_map, hstage]; rfl)
  refine ⟨decomposeIds r.nextGoalId w.stages.length,
    (r.decompose (w.stages.map WorkflowStage.task)).1, ?_, ⟨?_, ?_, ?_, ?_, ?_⟩, ?_⟩
  · rw [← hids]
    rfl
  · simp [decomposeIds]
  · exact nodup_decomposeIds
  · intro id hmem
    obtain ⟨i, hi, rfl⟩ := mem_map.mp hmem
    have hacc := h.accepts.fresh i (by simpa using hi)
    exact hacc
  · intro k
    by_cases hk : ∃ i < w.stages.length, k = decomposeId (r.nextGoalId + i)
    · obtain ⟨i, hi, rfl⟩ := hk
      have hmem : (decomposeId (r.nextGoalId + i)).text ∈
          decomposeIds r.nextGoalId w.stages.length :=
        mem_map.mpr ⟨i, mem_range.mpr hi, rfl⟩
      refine iff_of_true ?_ (.inr hmem)
      have ht := htask i w.stages[i] _ (getElem?_eq_getElem hi) (getElem?_decomposeIds hi)
      intro hnone
      cases hnone.symm.trans ht
    · have hnot : k.text ∉ decomposeIds r.nextGoalId w.stages.length := by
        intro hmem
        obtain ⟨i, hi, heq⟩ := mem_map.mp hmem
        exact hk ⟨i, mem_range.mp hi, by cases k; exact congrArg TaskId.mk heq.symm⟩
      have hsame : (r.decompose (w.stages.map WorkflowStage.task)).1.graph.get k =
          r.graph.get k := hothers k fun i hi heq => hk ⟨i, hi, heq⟩
      rw [hsame, or_iff_left hnot]
  · intro i stage id hstage hi
    refine ⟨_, htask i stage id hstage hi, rfl, ?_⟩
    intro j stage' id' hstage' hj
    obtain ⟨-, rfl, -⟩ := hid j stage' id' hstage' hj
    simp [pendingTask, draftTask, WorkflowStage.task]
  · intro i stage id hstage hi stageGoal r'' hrun
    obtain ⟨-, rfl, -⟩ := hid i stage id hstage hi
    exact ⟨rfl, dispatch_found (htask i stage _ hstage hi) hrun⟩

theorem AgreesOn.foresees (hw : w.WellFormed) (h : r.AgreesOn w) : r.Foresees w := by
  obtain ⟨ids, r', hreq, htasks, hdispatch⟩ := h
  have hfold : ((w.stages.map WorkflowStage.task).foldl decomposeStep (r, [])).2 = ids := by
    have hsnd := congrArg Prod.snd hreq
    exact CoordinatorResponse.decompose.inj (Except.ok.inj hsnd)
  have haccepts : r.Accepts (w.stages.map WorkflowStage.task) := by
    refine (accepts_of_length _ (r, [])).2 ?_
    rw [hfold, htasks.length]
    simp
  have hids := (Accepts.get (r, []) haccepts).1
  rw [hfold, nil_append, length_map] at hids
  have hid : ∀ (i : ℕ) (stage : WorkflowStage), w.stages[i]? = some stage →
      (⟨stage.id⟩ : TaskId) = decomposeId (r.nextGoalId + i) := by
    intro i stage hstage
    obtain ⟨hlt, -⟩ := List.getElem?_eq_some_iff.mp hstage
    have hi : ids[i]? = some (decomposeId (r.nextGoalId + i)).text := by
      rw [hids]
      exact getElem?_decomposeIds hlt
    have hnames := (hdispatch i stage _ hstage hi [] r' (Run.refl r')).1
    exact congrArg TaskId.mk (Option.some.inj hnames)
  intro i stage hstage
  obtain ⟨hlt, -⟩ := List.getElem?_eq_some_iff.mp hstage
  have hfresh : ∀ (j : ℕ), j < w.stages.length →
      r.graph.tasks.get (decomposeId (r.nextGoalId + j)) = none := by
    intro j hj
    exact haccepts.fresh j (by simpa using hj)
  refine ⟨hid i stage hstage, ?_, ?_⟩
  · rw [hid i stage hstage]
    exact hfresh i hlt
  · intro d hd
    -- a dependency is the id of a stage, so it is not in the graph from before
    obtain ⟨stage', hmem, rfl⟩ := mem_map.mp (hw.known stage (mem_of_getElem? hstage) d hd)
    obtain ⟨k, hk⟩ := mem_iff_getElem?.mp hmem
    obtain ⟨hklt, -⟩ := List.getElem?_eq_some_iff.mp hk
    obtain ⟨t, ht⟩ | ⟨j, hj, heq⟩ := haccepts.deps i stage.task
      (by rw [getElem?_map, hstage]; rfl) stage'.id hd
    · rw [hid k stage' hk, hfresh k hklt] at ht
      cases ht
    · rw [hid k stage' hk] at heq
      have hkj : r.nextGoalId + k = r.nextGoalId + j := decomposeId_injective heq
      exact ⟨k, by omega, stage', hk, rfl⟩

/-- **Workflow client and runtime agree**, for every acyclic workflow with distinct stage ids and
known dependencies, exactly if the stage ids are those made up next. -/
theorem workflow_agrees_iff (r : Runtime) (w : Workflow) (hw : w.WellFormed) :
    r.AgreesOn w ↔ r.Foresees w :=
  ⟨fun h => h.foresees hw, fun h => h.agreesOn⟩

def foreseenWorkflow : Workflow :=
  { id := "w", name := "w", description := ""
    stages := [⟨"task-decompose-0", "plan", "planner", [], false⟩,
      ⟨"task-decompose-1", "code", "coder", ["task-decompose-0"], false⟩] }

def namedWorkflow : Workflow :=
  { id := "w", name := "w", description := ""
    stages := [⟨"plan", "plan", "planner", [], false⟩, ⟨"code", "code", "coder", ["plan"], false⟩] }

theorem wellFormed_pair {id name description : String} {a b : WorkflowStage} (hne : a.id ≠ b.id)
    (ha : a.dependsOn = []) (hb : b.dependsOn = [a.id]) :
    (Workflow.mk id name description [a, b]).WellFormed := by
  refine ⟨by simp [hne], ?_, ?_⟩
  · intro stage hstage d hd
    simp only [mem_cons, not_mem_nil, or_false] at hstage
    obtain rfl | rfl := hstage
    · rw [ha] at hd
      cases hd
    · rw [hb, mem_singleton] at hd
      simp [hd]
  · refine Workflow.acyclic_of_rank (fun s => if s = b.id then 1 else 0) ?_
    rintro x y ⟨stage, hstage, rfl, hy⟩
    simp only [mem_cons, not_mem_nil, or_false] at hstage
    obtain rfl | rfl := hstage
    · rw [ha] at hy
      cases hy
    · rw [hb, mem_singleton] at hy
      simp [hy, hne]

theorem workflow_agrees_of_foreseen : new.AgreesOn foreseenWorkflow := by
  refine (workflow_agrees_iff new foreseenWorkflow (wellFormed_pair (by decide) rfl rfl)).mpr ?_
  intro i stage hstage
  cases i with
  | zero =>
    cases hstage
    exact ⟨rfl, rfl, by simp⟩
  | succ i =>
    cases i with
    | zero =>
      cases hstage
      refine ⟨rfl, rfl, ?_⟩
      intro d hd
      rw [mem_singleton] at hd
      exact ⟨0, by omega, _, rfl, hd.symm⟩
    | succ => cases hstage

/-- The second stage is skipped, and the Dispatch for the first is refused as unknown. -/
theorem workflow_disagrees : namedWorkflow.WellFormed ∧ ¬ new.AgreesOn namedWorkflow ∧
      (new.handleCoordinatorRequest namedWorkflow.decomposeRequest).2 =
        .ok (.decompose ["task-decompose-0"]) ∧
      ((new.handleCoordinatorRequest namedWorkflow.decomposeRequest).1.handleCoordinatorRequest
        (.dispatch "plan" "planner" [])).2 = .error (.notFound "task 'plan' not found") := by
  have hwf : namedWorkflow.WellFormed := wellFormed_pair (by decide) rfl rfl
  refine ⟨hwf, ?_, by decide, by decide⟩
  intro hagree
  have hid := (hagree.foresees hwf 0 _ rfl).1
  exact absurd hid (by decide)

end Runtime

end Wacp
