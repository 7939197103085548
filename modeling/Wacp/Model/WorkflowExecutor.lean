import Wacp.Library.DepthFirst
import Wacp.Model.StageAgent
import Wacp.Model.Workflow

/-!
# The executor of workflows

`wacp-local/src/orchestrator.ts`: the stages run one after another, sorted by a depth-first search.
The callbacks may answer anything; an error of `promptGate` ends the executor.
-/

namespace Wacp.Local.WorkflowExecutor

open Library
open Cli (AgentProfile)

inductive WorkflowSignal where
  | stageStarted (stageId roleId : String)
  | stageCompleted (stageId roleId : String)
  | stageFailed (stageId : String) (roleId : Option String) (detail : String)
  | gateRequired (stageId roleId : String)
  | workflowCompleted
  | workflowFailed

inductive Call where
  | executeStage (profile : AgentProfile) (goal priorContext stageId : String)
  | promptGate (stage : WorkflowStage)
  | onSignal (signal : WorkflowSignal)
  | addHistory (entry : String)

def Reply : Call → Type
  | .executeStage _ _ _ _ => Except String String
  | .promptGate _ => Except String Bool
  | _ => Unit

abbrev Action (α : Type) := Prog Call Reply α

structure StageResult where
  (stageId roleId content : String)
  success : Bool
  checkpoint : String

structure WorkflowResult where
  workflowId : String
  stages : List StageResult
  success : Bool
  finalOutput : String

/-- `stageMap.get`: of two stages with one id the map has the later. -/
def getStage (stages : List WorkflowStage) (id : String) : Option WorkflowStage :=
  stages.reverse.find? fun stage => stage.id == id

/-- A chain of visits has at most all stages and one id more. -/
def topologicalSort (stages : List WorkflowStage) : Option (List WorkflowStage) :=
  let visit := DepthFirst.visit (getStage stages) (·.dependsOn) (stages.length + 1)
  ((stages.map (·.id)).foldlM visit ⟨[], []⟩).map (·.finished)

def onSignal (signal : WorkflowSignal) : Action Unit := Prog.perform (Call.onSignal signal)

def failed (stage : WorkflowStage) (content : String) : StageResult :=
  ⟨stage.id, stage.roleId, content, false, ""⟩

def checkpoint (stage : WorkflowStage) (output : String) : String :=
  "[" ++ stage.name ++ " (" ++ stage.roleId ++ ")]\n" ++ output

def gate (stage : WorkflowStage) : Action (Except String Bool) := do
  if stage.gated then
    onSignal (.gateRequired stage.id stage.roleId)
    Prog.perform (Call.promptGate stage)
  else pure (.ok true)

variable (profiles : List AgentProfile) (goal : String)

/-- The loop of `execute`, with the results and `allSucceeded`. -/
def executeStages : String → List WorkflowStage →
    Action (Except String (List StageResult × Bool))
  | _, [] => pure (.ok ([], true))
  | accumulatedContext, stage :: rest =>
    match profiles.find? fun p => p.roleId == stage.roleId with
    | none => do
      onSignal (.stageFailed stage.id (some stage.roleId)
        ("No profile found for role '" ++ stage.roleId ++ "'"))
      pure (.ok ([failed stage ""], false))
    | some profile => do
      match ← gate stage with
      | .error e => pure (.error e)
      | .ok false =>
        onSignal (.stageFailed stage.id none "Gate rejected by user")
        pure (.ok ([failed stage ""], false))
      | .ok true =>
        onSignal (.stageStarted stage.id stage.roleId)
        match ← Prog.perform (Call.executeStage profile goal accumulatedContext stage.id) with
        | .error message =>
          onSignal (.stageFailed stage.id (some stage.roleId) message)
          Prog.perform (Call.addHistory ("stage:" ++ stage.id ++ ": failed: " ++ message))
          pure (.ok ([failed stage message], false))
        | .ok output =>
          Prog.perform (Call.addHistory ("stage:" ++ stage.id ++ ": completed"))
          onSignal (.stageCompleted stage.id stage.roleId)
          let later ← executeStages
            (accumulatedContext ++ "\n\n" ++ checkpoint stage output) rest
          pure (later.map fun l =>
            (⟨stage.id, stage.roleId, output, true, checkpoint stage output⟩ :: l.1, l.2))

/-- `execute`, unless the sort does not return. -/
def execute (workflow : Workflow) : Option (Action (Except String WorkflowResult)) :=
  (topologicalSort workflow.stages).map fun sorted => do
    match ← executeStages profiles goal ("Goal: " ++ goal) sorted with
    | .error e => pure (.error e)
    | .ok (stageResults, allSucceeded) =>
      onSignal (if allSucceeded then .workflowCompleted else .workflowFailed)
      pure (.ok ⟨workflow.id, stageResults, allSucceeded,
        "\n\n".intercalate ((stageResults.filter (·.success)).map (·.content))⟩)

end Wacp.Local.WorkflowExecutor
