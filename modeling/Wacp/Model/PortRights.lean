import Wacp.Library.Table
import Wacp.Model.Types

/-!
# The port rights graph

`wacp-coordinator/src/port_rights.rs`: a table of rights under identifiers handed out from a
counter, and two indices from holders and from targets to lists of those identifiers.
-/

namespace Wacp

open Library

inductive PortRightStatus where
  | active | consumed | revoked | expired
  deriving DecidableEq

structure PortRightEntry where
  id : String
  (holder target : WorkspaceId)
  kind : PortRightType
  status : PortRightStatus
  deriving DecidableEq

inductive PortRightError where
  | notFound
  | notActive
  | notSendOnce
  | receiveNotTransferable
  | noRights
  | noRightToTarget (target : WorkspaceId)
  deriving DecidableEq

structure PortRightsGraph where
  (byHolder byTarget : Table WorkspaceId (List String))
  byId : Table String PortRightEntry
  nextId : ℕ
  deriving DecidableEq

namespace PortRightsGraph

def new : PortRightsGraph := { byHolder := ∅, byTarget := ∅, byId := ∅, nextId := 1 }

def rightId (n : ℕ) : String := "pr-" ++ toString n

variable (g : PortRightsGraph)

def create (holder target : WorkspaceId) (kind : PortRightType) : PortRightsGraph × String :=
  let id := rightId g.nextId
  ({ byHolder := g.byHolder.push holder id
     byTarget := g.byTarget.push target id
     byId := g.byId.set id ⟨id, holder, target, kind, .active⟩
     nextId := g.nextId + 1 }, id)

def transfer (id : String) (newHolder : WorkspaceId) :
    Except PortRightError (PortRightsGraph × WorkspaceId) :=
  match g.byId.get id with
  | none => .error .notFound
  | some entry =>
    if entry.status ≠ .active then .error .notActive
    else if entry.kind = .receive then .error .receiveNotTransferable
    else
      .ok ({ g with
        byHolder := (g.byHolder.modify entry.holder fun ids => ids.filter (· ≠ id)).push
          newHolder id
        byId := g.byId.modify id fun e => { e with holder := newHolder } }, entry.holder)

def consume (id : String) : Except PortRightError PortRightsGraph :=
  match g.byId.get id with
  | none => .error .notFound
  | some entry =>
    if entry.kind ≠ .sendOnce then .error .notSendOnce
    else if entry.status ≠ .active then .error .notActive
    else .ok { g with byId := g.byId.modify id fun e => { e with status := .consumed } }

def revoke (id : String) : Except PortRightError PortRightsGraph :=
  match g.byId.get id with
  | none => .error .notFound
  | some entry =>
    if entry.status ≠ .active then .error .notActive
    else .ok { g with byId := g.byId.modify id fun e => { e with status := .revoked } }

def expire (e : PortRightEntry) : PortRightEntry :=
  if e.status = .active then { e with status := .expired } else e

def expireWorkspace (workspaceId : WorkspaceId) : PortRightsGraph :=
  let held := g.byHolder.getList workspaceId
  let byId₁ := held.foldl (fun m id => m.modify id expire) g.byId
  let targeted := g.byTarget.getList workspaceId
  { g with byId := targeted.foldl (fun m id => m.modify id expire) byId₁ }

/-- Whether the right with this identifier lets its holder send to the target. -/
def permitsSend (target : WorkspaceId) (id : String) : Bool :=
  match g.byId.get id with
  | some entry =>
    decide (entry.target = target ∧ entry.status = .active ∧
      (entry.kind = .send ∨ entry.kind = .sendOnce))
  | none => false

/-- The first right of the sender, in the order of its index, that permits to send. -/
def validateSend (sender target : WorkspaceId) : Except PortRightError String :=
  match g.byHolder.get sender with
  | none => .error .noRights
  | some ids =>
    match ids.find? (g.permitsSend target) with
    | some id => .ok id
    | none => .error (.noRightToTarget target)

def activeCount : ℕ :=
  (g.byId.values.filter fun e => e.status = .active).card

end PortRightsGraph

end Wacp
