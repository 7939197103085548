import Wacp.Model.Chain
import Wacp.Model.EventTrail
import Wacp.Model.Gate
import Wacp.Model.Orchestrator

/-!
# Checkpoints in the runtime

The way of a checkpoint through `wacp-runtime`: `CreateCheckpoint` stores the payload under its
hash, indexes the checkpoint under an id, forwards it to the actor, and opens a gate for a
provisional one; `RespondToGate` sends the decision to the actor; `GetCheckpoint` looks an id up.
SHA-256 and the text of a JSON value are parameters.
-/

namespace Wacp

open Library

/-! ## The store (wacp-trail/src/fs_checkpoint.rs) -/

abbrev CheckpointStorage := Table ChainHash (List UInt8)

namespace CheckpointStorage

def store (storage : CheckpointStorage) (contentHash : ChainHash) (payload : List UInt8) :
    CheckpointStorage × Bool :=
  if storage.contains contentHash then (storage, false)
  else (storage.set contentHash payload, true)

def read (sha256 : List UInt8 → ChainHash) (storage : CheckpointStorage)
    (contentHash : ChainHash) : Except StorageError (Option (List UInt8)) :=
  match storage.get contentHash with
  | none => .ok none
  | some data =>
    let computed := sha256 data
    if computed ≠ contentHash then
      .error (.corruption ("checkpoint hash mismatch: expected " ++ contentHash.display ++
        ", computed " ++ computed.display))
    else .ok (some data)

end CheckpointStorage

def StorageError.message : StorageError → String
  | .io message => "I/O error: " ++ message
  | .corruption message => "corruption detected: " ++ message
  | .capacityExceeded => "capacity exceeded"
  | .segmentNotFound id => "segment not found: " ++ toString id
  | .notFound => "not found"

/-! ## Messages of agents -/

/-- Put a message into the channel of an actor from its agent; one that has ended does not receive
it. -/
def System.message (s : System) (handle : ℕ) (msg : AgentMessage) : System :=
  { s with actors := s.actors.modify handle fun a =>
      if a.stopped then a else { a with agentRx := a.agentRx ++ [msg] } }

/-! ## Requests (wacp-runtime/src/conversions.rs, proto/agent.proto, proto/highway.proto) -/

/-- An unknown number is taken as Provisional, as 0 and 1 are.
conversions.rs:35-43; agent_service.rs:222-225 -/
def protoToCheckpointStatus (status : ℤ) : CheckpointStatus :=
  if status = 2 then .final else .provisional

def protoToConfidence (confidence : ℤ) : Confidence :=
  if confidence = 2 then .medium else if confidence = 3 then .low else .high

structure CreateCheckpointRequest where
  checkpointType : String
  payload : List UInt8
  intent : String
  (status confidence : ℤ)
  resourceUsage : Option ResourceUsage
  clientRequestId : String
  deriving DecidableEq

structure CreateCheckpointResponse where
  (checkpointId contentHash clientRequestId : String)
  deriving DecidableEq

structure GateResponse where
  gateId : String
  decision : ℤ
  clientRequestId : String
  deriving DecidableEq

structure GateResponseAck where
  gateId : String
  applied : Bool
  clientRequestId : String
  deriving DecidableEq

/-- What `GetCheckpoint` answers: the metadata, and the payload next to it. -/
structure CheckpointView where
  (id workspaceId checkpointType contentHash intent : String)
  (status confidence : ℤ)
  resourceUsage : Option ResourceUsage
  payload : List UInt8
  deriving DecidableEq

inductive RequestError where
  | notFound (message : String)
  | internal (message : String)
  deriving DecidableEq

/-! ## The runtime (wacp-runtime/src/init.rs, agent_service.rs, highway_service.rs) -/

structure CheckpointRecord where
  contentHash : ChainHash
  (workspaceId checkpointType intent : String)
  (status confidence : ℤ)
  resourceUsage : Option ResourceUsage
  deriving DecidableEq

structure CheckpointRuntime where
  system : System
  checkpointStorage : CheckpointStorage
  checkpointIndex : Table String CheckpointRecord
  nextCheckpointId : ℕ
  gateController : GateController
  trail : EventTrail

namespace CheckpointRuntime

def start (rootId : WorkspaceId) (owner : UserId) (checkpointStorage : CheckpointStorage)
    (trail : EventTrail) : CheckpointRuntime :=
  { system := .init rootId owner, checkpointStorage := checkpointStorage, checkpointIndex := ∅
    nextCheckpointId := 0, gateController := .new 30000 .autoApprove, trail := trail.start }

section Sha

variable (sha256 : List UInt8 → ChainHash) (rt : CheckpointRuntime) (workspaceId : String)
  (request : CreateCheckpointRequest)

def recordOf : CheckpointRecord :=
  { contentHash := sha256 request.payload, workspaceId := workspaceId
    checkpointType := request.checkpointType, intent := request.intent
    status := request.status, confidence := request.confidence
    resourceUsage := request.resourceUsage }

def messageOf : AgentMessage :=
  .createCheckpoint request.checkpointType request.payload (sha256 request.payload).display
    request.intent (protoToCheckpointStatus request.status) (protoToConfidence request.confidence)
    request.resourceUsage

def opensGate : Bool :=
  decide (request.status = 1) && (rt.system.coordinator.tree.get ⟨workspaceId⟩).isSome

/-- Returns the response, and the event for the subscribers of gates if one was opened. An actor
that has ended does not get the message. -/
def createCheckpoint : CheckpointRuntime × CreateCheckpointResponse × Option GateEvent :=
  let checkpointId := "cp-" ++ toString rt.nextCheckpointId
  let rt₁ := { rt with
    checkpointStorage :=
      (CheckpointStorage.store rt.checkpointStorage (sha256 request.payload) request.payload).1
    nextCheckpointId := rt.nextCheckpointId + 1
    checkpointIndex := rt.checkpointIndex.set checkpointId (recordOf sha256 workspaceId request)
    system :=
      match rt.system.coordinator.workspaceHandles.get ⟨workspaceId⟩ with
      | some handle => rt.system.message handle (messageOf sha256 request)
      | none => rt.system }
  let response : CreateCheckpointResponse :=
    { checkpointId := checkpointId, contentHash := (sha256 request.payload).display
      clientRequestId := request.clientRequestId }
  if rt.opensGate workspaceId request then
    let opened := rt.gateController.openCheckpointGate ⟨workspaceId⟩ ⟨checkpointId⟩
      request.checkpointType none none
    ({ rt₁ with gateController := opened.1 }, response, some opened.2)
  else (rt₁, response, none)

def getCheckpoint (checkpointId : String) : Except RequestError CheckpointView :=
  match rt.checkpointIndex.get checkpointId with
  | none => .error (.notFound ("checkpoint '" ++ checkpointId ++ "' not found"))
  | some record =>
    match CheckpointStorage.read sha256 rt.checkpointStorage record.contentHash with
    | .ok (some payload) => .ok
      { id := checkpointId, workspaceId := record.workspaceId
        checkpointType := record.checkpointType, contentHash := record.contentHash.display
        intent := record.intent, status := record.status, confidence := record.confidence
        resourceUsage := record.resourceUsage, payload := payload }
    | .ok none => .error (.notFound "checkpoint blob missing from store")
    | .error e => .error (.internal ("checkpoint read error: " ++ e.message))

end Sha

def gateDecision (decision : ℤ) : GateDecision :=
  if decision = 2 then .reject else if decision = 3 then .modify else .approve

def decisionCommand (gate : PendingCheckpointGate) : GateDecision → CoordinatorCommand
  | .approve => .checkpointApproved gate.checkpointId.text
  | .modify => .checkpointApproved gate.checkpointId.text
  | .reject => .checkpointRejected gate.checkpointId.text

/-- Checkpoint gates are looked for first; one whose workspace has no actor any more is not
applied. Otherwise the id is taken as that of a task gate. -/
def respondToGate (rt : CheckpointRuntime) (request : GateResponse) :
    CheckpointRuntime × GateResponseAck :=
  let resolved := rt.gateController.resolveCheckpoint request.gateId
  let ack := fun applied => { gateId := request.gateId, applied := applied
                              clientRequestId := request.clientRequestId : GateResponseAck }
  match resolved.2 with
  | none =>
    let answered := rt.gateController.resolve request.gateId (gateDecision request.decision)
    ({ rt with gateController := answered.1 }, ack answered.2.isSome)
  | some gate =>
    let cmd := decisionCommand gate (gateDecision request.decision)
    let rt₁ := { rt with gateController := resolved.1 }
    match rt.system.coordinator.workspaceHandles.get gate.workspaceId with
    | none => (rt₁, ack false)
    | some handle =>
      ({ rt₁ with system := rt.system.send (rt.system.coordinator, [(handle, cmd)]) },
        ack ((rt.system.actors[handle]?).any fun a => !a.stopped))

/-! ## The loop -/

/-- What the runtime does next: something that concerns no checkpoint (or lets an actor work), or
one of the two requests. -/
inductive Label where
  | system (label : System.Label)
  | createCheckpoint (workspaceId : String) (request : CreateCheckpointRequest)
  | respondToGate (request : GateResponse)

/-- The runtime after one step; `none` if the step cannot be taken. Agents reach an actor with
signals only; the messages for checkpoints come from `createCheckpoint`. -/
def apply (sha256 : List UInt8 → ChainHash) (jsonText : JsonValue → List UInt8)
    (rt : CheckpointRuntime) : Label → Option CheckpointRuntime
  | .system .handleEvent =>
    match rt.system.events with
    | [] => none
    | event :: _ => (rt.system.apply .handleEvent).map fun system =>
      { rt with system := system, trail := rt.trail.fanOutEvent jsonText event }
  | .system (.agent _ (.createCheckpoint _ _ _ _ _ _ _)) => none
  | .system label => (rt.system.apply label).map fun system => { rt with system := system }
  | .createCheckpoint workspaceId request =>
    some (rt.createCheckpoint sha256 workspaceId request).1
  | .respondToGate request => some (rt.respondToGate request).1

end CheckpointRuntime

end Wacp
