import Wacp.Model.Topology

/-!
# Requests of agents

The send path of `wacp-coordinator/src/handler.rs`. Of the structures the handler borrows, those
that no modelled request reads are left out; what it borrows mutably is returned.
-/

namespace Wacp

structure SendEnvelopeResult where
  envelopeId : EnvelopeId
  deriving DecidableEq

inductive HandlerError where
  | workspaceNotFound (id : WorkspaceId)
  | taskNotFound (id : TaskId)
  | permissionDenied (reason : String)
  | noSendRight (target : WorkspaceId)
  | gateNotFound
  deriving DecidableEq

structure RequestHandler where
  topology : TopologySet
  nextEnvelopeId : ℕ
  deriving DecidableEq

namespace RequestHandler

def handleSendEnvelope (h : RequestHandler) (fromWorkspace toWorkspace : WorkspaceId)
    (_envelopeType : String) (_payload : List UInt8) (_priority : EnvelopePriority) :
    Except HandlerError (RequestHandler × SendEnvelopeResult) :=
  if (h.topology.tree.get fromWorkspace).isNone then .error (.workspaceNotFound fromWorkspace)
  else if (h.topology.tree.get toWorkspace).isNone then .error (.workspaceNotFound toWorkspace)
  else
    match h.topology.portRights.validateSend fromWorkspace toWorkspace with
    | .error _ => .error (.noSendRight toWorkspace)
    | .ok _ =>
      .ok ({ h with nextEnvelopeId := h.nextEnvelopeId + 1 },
        { envelopeId := ⟨"env-" ++ toString h.nextEnvelopeId⟩ })

end RequestHandler

end Wacp
