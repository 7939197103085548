import Wacp.Model.CheckpointService

/-!
# The highway in the runtime

The requests of `wacp-runtime/src/highway_service.rs` that act on a workspace: `RespondToGate`,
which is that of `CheckpointService`, `RespondToEscalation` and `InjectEnvelope`. Each names a gate,
an escalation or a workspace by its id and nothing else.
-/

namespace Wacp

open Library

/-! ## Requests (proto/highway.proto) -/

structure InjectEnvelopeRequest where
  (toWorkspace type : String)
  payload : List UInt8
  priority : ℤ
  clientRequestId : String
  deriving DecidableEq

structure InjectEnvelopeResponse where
  (envelopeId clientRequestId : String)
  deriving DecidableEq

/-- The fields of the envelope in a feedback that the runtime reads. -/
structure FeedbackEnvelope where
  type : String
  payload : List UInt8
  deriving DecidableEq

inductive EscalationAction where
  | feedback (envelope : FeedbackEnvelope)
  | abort (value : Bool)
  | delegateToCoordinator (value : Bool)
  deriving DecidableEq

structure EscalationResponse where
  escalationId : String
  action : Option EscalationAction
  clientRequestId : String
  deriving DecidableEq

structure EscalationResponseAck where
  escalationId : String
  applied : Bool
  clientRequestId : String
  deriving DecidableEq

inductive InjectError where
  | notFound (message : String)
  | unavailable (message : String)
  deriving DecidableEq

/-! ## The runtime -/

/-- The fields of the runtime that these requests go through; the index of escalations is with
the trail. -/
structure HighwayRuntime extends CheckpointRuntime where
  nextEnvelopeId : ℕ

namespace HighwayRuntime

variable (rt : HighwayRuntime)

/-- A command through the handle of a workspace, and whether its actor takes it. -/
def sendCommand (id : WorkspaceId) (cmd : CoordinatorCommand) : HighwayRuntime × Bool :=
  ({ rt with
      system := rt.system.send (rt.system.coordinator, rt.system.coordinator.command id cmd) },
    (rt.system.coordinator.workspaceHandles.get id).any fun handle =>
      (rt.system.actors[handle]?).any fun a => !a.stopped)

def routeEnvelope (toWs : WorkspaceId) (envelope : Envelope) : HighwayRuntime × Bool :=
  rt.sendCommand toWs (.deliverEnvelope envelope)

def abortWorkspace (id : WorkspaceId) : HighwayRuntime × Bool :=
  rt.sendCommand id .abort

def nextEnvelope (toWs : WorkspaceId) (type : String) (payload : List UInt8)
    (priority : EnvelopePriority) : HighwayRuntime × Envelope :=
  ({ rt with nextEnvelopeId := rt.nextEnvelopeId + 1 },
    { id := ⟨"env-" ++ toString rt.nextEnvelopeId⟩, fromWorkspace := ⟨"highway"⟩
      toWorkspace := toWs, envelopeType := type, payload := payload, inReplyTo := none
      timestamp := 0, priority := priority, origin := .human, state := .created })

def envelopePriority (priority : ℤ) : EnvelopePriority :=
  if priority = 2 then .urgent else if priority = 3 then .blocking else .normal

def injectEnvelope (request : InjectEnvelopeRequest) :
    HighwayRuntime × Except InjectError InjectEnvelopeResponse :=
  let toWs : WorkspaceId := ⟨request.toWorkspace⟩
  match rt.system.coordinator.tree.get toWs with
  | none =>
    (rt, .error (.notFound ("target workspace '" ++ request.toWorkspace ++ "' not found")))
  | some _ =>
    let (rt₁, envelope) := rt.nextEnvelope toWs request.type request.payload
      (envelopePriority request.priority)
    let (rt₂, routed) := rt₁.routeEnvelope toWs envelope
    if routed then
      (rt₂, .ok { envelopeId := envelope.id.text, clientRequestId := request.clientRequestId })
    else (rt₂, .error (.unavailable ("workspace '" ++ toWs.text ++ "' is not running")))

def respondToGate (rt : HighwayRuntime) (request : GateResponse) :
    HighwayRuntime × GateResponseAck :=
  let answered := rt.toCheckpointRuntime.respondToGate request
  ({ rt with toCheckpointRuntime := answered.1 }, answered.2)

def applyAction (wsId : WorkspaceId) : Option EscalationAction → HighwayRuntime × Bool
  | some (.feedback env) =>
    let (rt₁, envelope) := rt.nextEnvelope wsId env.type env.payload .normal
    rt₁.routeEnvelope wsId envelope
  | some (.abort true) => rt.abortWorkspace wsId
  | some (.delegateToCoordinator true) => (rt, true)
  | _ => (rt, false)

def removeEscalation (escalationId : String) : HighwayRuntime :=
  { rt with
    trail := { rt.trail with escalationIndex := rt.trail.escalationIndex.remove escalationId } }

/-- The escalation is taken out of the index, whatever the answer is. -/
def respondToEscalation (request : EscalationResponse) : HighwayRuntime × EscalationResponseAck :=
  let rt₁ := rt.removeEscalation request.escalationId
  let (rt₂, applied) :=
    match rt.trail.escalationIndex.get request.escalationId with
    | some wsId => rt₁.applyAction ⟨wsId⟩ request.action
    | none => (rt₁, false)
  (rt₂, { escalationId := request.escalationId, applied := applied
          clientRequestId := request.clientRequestId })

end HighwayRuntime

end Wacp
