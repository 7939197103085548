import Wacp.Model.CoordinatorService

/-!
# Workflows of the command-line client

`wacp-cli/src/workflow.ts`: the client submits a goal, asks to decompose it into one task per stage,
and runs the stages one after another, with a Dispatch request for each. The model has the requests.
-/

namespace Wacp

structure WorkflowStage where
  (id name roleId : String)
  dependsOn : List String
  gated : Bool
  deriving DecidableEq

structure Workflow where
  (id name description : String)
  stages : List WorkflowStage
  deriving DecidableEq

/-- The entry of a stage in the Decompose request, as far as the runtime reads it. -/
def WorkflowStage.task (stage : WorkflowStage) : TaskDefinition :=
  { name := stage.id
    description := stage.name ++ " (" ++ stage.roleId ++ ")"
    dependsOn := stage.dependsOn }

def Workflow.decomposeRequest (w : Workflow) : CoordinatorRequest :=
  .decompose (w.stages.map WorkflowStage.task)

/-- The Dispatch request for a stage; the profile is the one of the stage's role. -/
def WorkflowStage.dispatchRequest (stage : WorkflowStage) (stageGoal : List UInt8) :
    CoordinatorRequest :=
  .dispatch stage.id stage.roleId stageGoal

end Wacp
