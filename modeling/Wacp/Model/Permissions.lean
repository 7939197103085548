import Wacp.Model.Taxonomy

/-!
# The permission engine

`wacp-permissions/src/lib.rs`: three lookup tables built from a taxonomy, and port rights. The order
in which `new` visits the resolved roles is an argument.
-/

namespace Wacp

open Library

structure PortRight where
  rightType : PortRightType
  (holder target : WorkspaceId)
  deriving DecidableEq

structure PermissionEngine where
  permissionMatrix : Finset (String × String × String)
  checkpointTable : Table String (Finset String)
  signalEmitSets : Table String (Finset SignalType)
  roleBases : Table String String
  portRights : Table WorkspaceId (List PortRight)
  deriving DecidableEq

inductive Action where
  | sendEnvelope (senderRole envelopeType receiverRole : String)
      (senderWorkspace receiverWorkspace : WorkspaceId) (origin : EnvelopeOrigin)
  | createCheckpoint (role checkpointType : String)
  | emitSignal (role : String) (signalType : SignalType)
  deriving DecidableEq

inductive PermissionDenied where
  | notInPermissionMatrix (rule : String)
  | noPortRight (rule : String)
  | checkpointTypeNotPermitted (rule : String)
  | signalTypeNotPermitted (rule : String)
  deriving DecidableEq

def coordinatorEmitSet : Finset SignalType :=
  {.ready, .started, .failed, .integrate, .acknowledged}

def workerEmitSet : Finset SignalType :=
  {.ready, .started, .blocked, .checkpoint, .complete, .failed, .escalation}

def observerEmitSet : Finset SignalType :=
  {.ready, .started, .complete, .failed, .escalation}

def BaseRole.name : BaseRole → String
  | .coordinator => "coordinator"
  | .worker => "worker"
  | .observer => "observer"

namespace PermissionEngine

/-- A derived role is mapped to its base and gets the emit set of its base. -/
def addRole (tables : Table String (Finset SignalType) × Table String String)
    (entry : String × ResolvedRole) : Table String (Finset SignalType) × Table String String :=
  (tables.1.set entry.1 ((tables.1.get entry.2.base.name).getD ∅),
    tables.2.set entry.1 entry.2.base.name)

def baseEmitSets : Table String (Finset SignalType) :=
  (((∅ : Table String (Finset SignalType)).set "coordinator" coordinatorEmitSet).set "worker"
    workerEmitSet).set "observer" observerEmitSet

def baseRoleBases : Table String String :=
  (((∅ : Table String String).set "coordinator" "coordinator").set "worker" "worker").set
    "observer" "observer"

def new (order : List (String × ResolvedRole)) (taxonomy : Taxonomy) : PermissionEngine :=
  let tables := order.foldl addRole (baseEmitSets, baseRoleBases)
  { permissionMatrix := taxonomy.envelopePermissions.foldl
      (fun matrix row => insert (row.senderRole, row.envelopeType, row.receiverRole) matrix) ∅
    checkpointTable := taxonomy.checkpointTypes
    signalEmitSets := tables.1
    roleBases := tables.2
    portRights := ∅ }

variable (e : PermissionEngine)

def matrixAllows (sender envelopeType receiver : String) : Bool :=
  let allowed := fun s r => decide ((s, envelopeType, r) ∈ e.permissionMatrix)
  let senderBase := e.roleBases.get sender
  let receiverBase := e.roleBases.get receiver
  if allowed sender receiver then true
  else if senderBase.any fun sb => allowed sb receiver || receiverBase.any (allowed sb) then true
  else receiverBase.any (allowed sender)

variable (holder : WorkspaceId)

def hasSendRight (target : WorkspaceId) : Bool :=
  (e.portRights.get holder).any fun rights => rights.any fun r =>
    decide (r.target = target) && decide (r.rightType = .send ∨ r.rightType = .sendOnce)

def checkEnvelopeSend (senderRole envelopeType receiverRole : String)
    (senderWorkspace receiverWorkspace : WorkspaceId) (origin : EnvelopeOrigin) :
    Except PermissionDenied Unit :=
  -- envelopes of a human bypass matrix and rights
  if origin = .human then .ok ()
  else if e.matrixAllows senderRole envelopeType receiverRole = false then
    .error (.notInPermissionMatrix "§5.5")
  else if e.hasSendRight senderWorkspace receiverWorkspace = false then
    .error (.noPortRight "§5.6")
  else .ok ()

def checkCheckpointCreate (role checkpointType : String) : Except PermissionDenied Unit :=
  if (e.checkpointTable.get checkpointType).any fun permitted =>
      decide (role ∈ permitted) || (e.roleBases.get role).any fun base => decide (base ∈ permitted)
  then .ok ()
  else .error (.checkpointTypeNotPermitted "§7.2")

def checkSignalEmit (role : String) (signalType : SignalType) : Except PermissionDenied Unit :=
  if (e.signalEmitSets.get role).any fun emitSet => decide (signalType ∈ emitSet) then .ok ()
  else .error (.signalTypeNotPermitted "§5.2")

def evaluate : Action → Except PermissionDenied Unit
  | .sendEnvelope senderRole envelopeType receiverRole senderWorkspace receiverWorkspace origin =>
    e.checkEnvelopeSend senderRole envelopeType receiverRole senderWorkspace receiverWorkspace
      origin
  | .createCheckpoint role checkpointType => e.checkCheckpointCreate role checkpointType
  | .emitSignal role signalType => e.checkSignalEmit role signalType

def grantPortRight (right : PortRight) : PermissionEngine :=
  { e with portRights := e.portRights.push right.holder right }

def revokePortRight (target : WorkspaceId) (rightType : PortRightType) : PermissionEngine :=
  { e with portRights := e.portRights.modify holder fun rights =>
      rights.filter fun r => !(decide (r.target = target) && decide (r.rightType = rightType)) }

def consumeSendOnce (target : WorkspaceId) : PermissionEngine × Bool :=
  let once := fun r : PortRight => decide (r.target = target) && decide (r.rightType = .sendOnce)
  if (e.portRights.get holder).any fun rights => rights.any once then
    ({ e with portRights := e.portRights.modify holder fun rights => rights.eraseP once }, true)
  else (e, false)

end PermissionEngine

end Wacp
