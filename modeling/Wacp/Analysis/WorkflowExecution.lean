import Wacp.Model.WorkflowExecutor

/-!
# The execution of workflows

`Progress.next` says what an executor may do: it takes up a stage once, after all its dependencies
completed and its gate was approved, hands it the outputs so far, and stops at the first failure.
-/

namespace Wacp.Local.WorkflowExecutor

open Library DepthFirst List Prog.Follows
open Cli (AgentProfile)

/-- The stages can be numbered: there is no cycle. -/
def Dag (w : Workflow) : Prop :=
  ∃ rank : String → ℕ, ∀ stage ∈ w.stages, rank stage.id < w.stages.length ∧
    ∀ d ∈ stage.dependsOn, d ∈ w.stages.map (·.id) ∧ rank d < rank stage.id

def sample : Workflow :=
  ⟨"w", "", "", [⟨"build", "Build", "coder", ["plan"], true⟩, ⟨"plan", "Plan", "lead", [], false⟩]⟩

theorem sample_dag : Dag sample := ⟨(·.length - 4), by decide⟩

/-! ## The protocol -/

structure Progress where
  completed : List String
  approved : Option String
  context : String
  stopped : Bool

namespace Progress

def Ready (φ : Progress) (stage : WorkflowStage) : Prop :=
  φ.stopped = false ∧ stage.id ∉ φ.completed ∧ ∀ d ∈ stage.dependsOn, d ∈ φ.completed

def afterGate (φ : Progress) (stage : WorkflowStage) : Except String Bool → Progress
  | .ok true => { φ with approved := some stage.id }
  | _ => { φ with stopped := true }

def afterStage (φ : Progress) (stage : WorkflowStage) : Except String String → Progress
  | .ok output =>
    { φ with completed := φ.completed ++ [stage.id]
             context := φ.context ++ "\n\n" ++ checkpoint stage output }
  | .error _ => { φ with stopped := true }

open Classical in
noncomputable def next (w : Workflow) (goal : String) (φ : Progress) :
    Exchange Call Reply → Option Progress
  | ⟨.promptGate stage, r⟩ =>
    if stage ∈ w.stages ∧ φ.Ready stage then some (φ.afterGate stage r) else none
  | ⟨.executeStage profile stageGoal priorContext id, r⟩ => do
    let stage ← getStage w.stages id
    if φ.Ready stage ∧ (stage.gated → φ.approved = some id) ∧ profile.roleId = stage.roleId ∧
        stageGoal = goal ∧ priorContext = φ.context then
      some (φ.afterStage stage r)
    else none
  | ⟨.onSignal (.stageFailed _ _ _), _⟩ => some { φ with stopped := true }
  | ⟨.onSignal (.stageCompleted id _), _⟩ => if id ∈ φ.completed then some φ else none
  | ⟨.onSignal .workflowCompleted, _⟩ =>
    if φ.stopped = false ∧ ∀ stage ∈ w.stages, stage.id ∈ φ.completed then some φ else none
  | ⟨.onSignal .workflowFailed, _⟩ => if φ.stopped then some φ else none
  | _ => some φ

end Progress

/-- The results that succeeded are the stages completed; all is a success if nothing failed. -/
def Reports (w : Workflow) (φ : Progress) (results : List StageResult) (ok : Bool) : Prop :=
  ok = !φ.stopped ∧ φ.completed = (results.filter (·.success)).map (·.stageId) ∧
    (ok = true → ∀ stage ∈ w.stages, stage.id ∈ φ.completed)

/-! ## The order of the stages -/

variable {w : Workflow} {φ : Progress} {stage : WorkflowStage} {t : Search String WorkflowStage}

theorem of_getStage {id : String} (h : getStage w.stages id = some stage) :
    stage ∈ w.stages ∧ stage.id = id :=
  ⟨by simpa using mem_of_find?_eq_some h, by simpa using find?_some h⟩

theorem getStage_ne_none {id : String} (h : id ∈ w.stages.map (·.id)) :
    getStage w.stages id ≠ none := by
  obtain ⟨stage, hmem, rfl⟩ := mem_map.mp h
  intro hnone
  simpa using find?_eq_none.mp hnone stage (by simpa using hmem)

theorem Dag.exists_sorted (hw : Dag w) : ∃ t, topologicalSort w.stages = some t.finished ∧
    Sound (getStage w.stages) (·.dependsOn) (·.id) [] t ∧
      ∀ stage ∈ w.stages, stage.id ∈ t.finished.map (·.id) := by
  obtain ⟨rank, hrank⟩ := hw
  have hfind : ∀ id stage, getStage w.stages id = some stage → stage.id = id ∧
      ∀ d ∈ stage.dependsOn, getStage w.stages d ≠ none ∧ rank d < rank id := by
    intro id stage h
    obtain ⟨hmem, rfl⟩ := of_getStage h
    refine ⟨rfl, fun d hd => ?_⟩
    obtain ⟨hknown, hlt⟩ := (hrank stage hmem).2 d hd
    exact ⟨getStage_ne_none hknown, hlt⟩
  obtain ⟨t, ht, hsound, hsub⟩ := exists_search (s := ⟨[], []⟩) hfind (w.stages.length + 1)
    ⟨nodup_nil, .refl _, by simp, by simp⟩ (forall_mem_map.mpr fun stage h =>
      ⟨getStage_ne_none (mem_map_of_mem h), (hrank stage h).1.trans (Nat.lt_succ_self _), by simp⟩)
  refine ⟨t, by simp [topologicalSort, ht], hsound, fun stage h => ?_⟩
  simpa using hsound.perm.mem_iff.mp (hsub (mem_append_left _ (mem_map_of_mem h)))

/-- **The sort** has every id once, and every stage after those that it depends on. -/
theorem topologicalSort_sorts (w : Workflow) (hw : Dag w) : ∃ sorted,
    topologicalSort w.stages = some sorted ∧ (sorted.map (·.id)).Nodup ∧ sorted ⊆ w.stages ∧
      w.stages.map (·.id) ⊆ sorted.map (·.id) ∧ ∀ before stage after,
        sorted = before ++ stage :: after → ∀ d ∈ stage.dependsOn, d ∈ before.map (·.id) := by
  obtain ⟨t, ht, hsound, hall⟩ := hw.exists_sorted
  refine ⟨_, ht, ?_, fun stage h => (of_getStage (hsound.found stage h)).1,
    forall_mem_map.mpr hall, hsound.ordered⟩
  simpa using hsound.perm.nodup_iff.mp hsound.nodup

theorem sample_sorted : (topologicalSort sample.stages).isSome := by
  obtain ⟨_, h, _⟩ := topologicalSort_sorts sample sample_dag
  simp [h]

/-! ## The executor -/

open Progress

variable {profiles : List AgentProfile} {goal : String}

theorem gate_follows (hmem : stage ∈ w.stages) (hready : φ.Ready stage) :
    (gate stage).Follows (Progress.next w goal) (fun φ' r => φ'.completed = φ.completed ∧
      (r = .ok true → φ'.context = φ.context ∧ φ'.stopped = false ∧
        (stage.gated → φ'.approved = some stage.id))) φ := by
  by_cases hgated : stage.gated
  · rw [show gate stage = _ from if_pos hgated]
    refine perform fun _ => ⟨φ, rfl, fun r => ⟨_, if_pos ⟨hmem, hready⟩, ?_⟩⟩
    obtain e | _ | _ := r <;> simp [Prog.Follows, afterGate, hready.1]
  · rw [show gate stage = _ from if_neg hgated]
    exact ⟨rfl, fun _ => ⟨rfl, hready.1, fun h => absurd h hgated⟩⟩

theorem executeStages_follows (hsound : Sound (getStage w.stages) (·.dependsOn) (·.id) [] t)
    (hall : ∀ stage ∈ w.stages, stage.id ∈ t.finished.map (·.id)) (done : List WorkflowStage)
    (before : List StageResult) {rest : List WorkflowStage} (hsplit : t.finished = done ++ rest)
    (hdone : φ.completed = done.map (·.id)) (hgoing : φ.stopped = false)
    (hbefore : (before.filter (·.success)).map (·.stageId) = done.map (·.id)) :
    (executeStages profiles goal φ.context rest).Follows (Progress.next w goal)
      (fun φ r => ∀ results ok, r = .ok (results, ok) → Reports w φ (before ++ results) ok) φ := by
  -- what is left of the sorted stages, with those done all completed
  induction rest generalizing done φ before with
  | nil =>
    rintro results ok ⟨⟩
    rw [hsplit, append_nil, ← hdone] at hall
    exact ⟨by simp [hgoing], by simp [hdone, hbefore], fun _ => hall⟩
  | cons stage rest ih =>
    have hfound := hsound.found stage (by simp [hsplit])
    have hready : φ.Ready stage := by
      have hnodup := hsound.perm.nodup_iff.mp hsound.nodup
      rw [append_nil, hsplit, map_append, map_cons, nodup_append] at hnodup
      refine ⟨hgoing, ?_, hdone ▸ hsound.ordered done stage rest hsplit⟩
      exact hdone ▸ fun h => hnodup.2.2 _ h _ mem_cons_self rfl
    simp only [executeStages]
    cases hprofile : profiles.find? fun p => p.roleId == stage.roleId with
    | none =>
      refine perform fun _ => ⟨_, rfl, ?_⟩
      rintro results ok ⟨⟩
      simp [Reports, hdone, hbefore, failed]
    | some profile =>
      refine (gate_follows (of_getStage hfound).1 hready).bind ?_
      rintro φ' (e | _ | _) ⟨hcompleted, happroved⟩
      · exact nofun
      · refine perform fun _ => ⟨_, rfl, ?_⟩
        rintro results ok ⟨⟩
        simp [Reports, hdone, hbefore, hcompleted, failed]
      obtain ⟨hcontext, hgoing', hgate⟩ := happroved rfl
      refine perform fun _ => ⟨φ', rfl, perform fun r => ⟨φ'.afterStage stage r, ?_, ?_⟩⟩
      · simp only [Progress.next, hfound, Option.bind_eq_bind, Option.bind_some]
        refine if_pos ⟨⟨hgoing', hcompleted ▸ hready.2⟩, hgate, ?_, rfl, hcontext.symm⟩
        simpa using find?_some hprofile
      obtain message | output := r
      · refine perform fun _ => ⟨_, rfl, perform fun _ => ⟨_, rfl, ?_⟩⟩
        rintro results ok ⟨⟩
        simp [Reports, hdone, hbefore, hcompleted, failed, afterStage]
      · refine perform fun _ => ⟨_, rfl, perform fun _ => ⟨_, if_pos (by simp [afterStage]), ?_⟩⟩
        rw [← hcontext]
        refine (ih (φ := φ'.afterStage stage (.ok output)) (done ++ [stage])
          (before ++ [⟨stage.id, stage.roleId, output, true, checkpoint stage output⟩])
          (by simp [hsplit]) (by simp [afterStage, hcompleted, hdone]) hgoing'
          (by simp [hbefore])).bind ?_
        rintro φ'' (e | ⟨results, ok⟩) hends
        · exact nofun
        · rintro results' ok' ⟨⟩
          simpa using hends results ok rfl

/-- **An executor keeps to the protocol**, whatever its callbacks answer. -/
theorem execute_follows (profiles : List AgentProfile) (goal : String) (w : Workflow)
    (hw : Dag w) : ∃ p, execute profiles goal w = some p ∧
      p.Follows (Progress.next w goal)
        (fun φ r => ∀ result, r = .ok result → Reports w φ result.stages result.success)
        ⟨[], none, "Goal: " ++ goal, false⟩ := by
  obtain ⟨t, ht, hsound, hall⟩ := hw.exists_sorted
  refine ⟨_, by rw [execute, ht]; rfl, ?_⟩
  refine (executeStages_follows (φ := ⟨[], none, "Goal: " ++ goal, false⟩) hsound hall [] [] rfl
    rfl rfl rfl).bind ?_
  rintro φ (e | ⟨results, ok⟩) hends
  · exact nofun
  · have hreports := hends results ok rfl
    refine perform fun _ => ⟨φ, ?_, ?_⟩
    · cases ok
      · exact if_pos (by simpa using hreports.1)
      · exact if_pos ⟨by simpa using hreports.1, hreports.2.2 rfl⟩
    · rintro result ⟨⟩
      exact hreports

theorem sample_executed : (execute [] "goal" sample).isSome := by
  obtain ⟨_, h, _⟩ := execute_follows [] "goal" sample sample_dag
  simp [h]

end Wacp.Local.WorkflowExecutor
