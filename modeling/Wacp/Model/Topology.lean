import Mathlib.Data.Finset.Insert
import Wacp.Model.Tree
import Wacp.Model.PortRights

/-!
# The topology set

`wacp-coordinator/src/topology.rs` bundles the workspace tree, the visibility graph, the escalation
router and the port rights graph, and changes them together.
-/

namespace Wacp

open Library

inductive VisibilityError where
  | grantorCannotSee (target : WorkspaceId)
  deriving DecidableEq

structure VisibilityGraph where
  (canSee seenBy : Table WorkspaceId (Finset WorkspaceId))
  deriving DecidableEq

namespace VisibilityGraph

def new : VisibilityGraph := { canSee := ∅, seenBy := ∅ }

def orDefault (m : Table WorkspaceId (Finset WorkspaceId)) (id : WorkspaceId) :
    Table WorkspaceId (Finset WorkspaceId) :=
  m.set id ((m.get id).getD ∅)

variable (g : VisibilityGraph)

def register (id : WorkspaceId) : VisibilityGraph :=
  { canSee := orDefault g.canSee id, seenBy := orDefault g.seenBy id }

variable (viewer : WorkspaceId)

/-- Let `viewer` see `target`, and say whether that is new. A workspace sees itself without an
entry, and the reverse side is written only for a new pair. -/
def grant (target : WorkspaceId) : VisibilityGraph × Bool :=
  if viewer = target then (g, false)
  else
    let seen := (g.canSee.get viewer).getD ∅
    let canSee := g.canSee.set viewer (insert target seen)
    if target ∈ seen then ({ g with canSee := canSee }, false)
    else
      ({ canSee := canSee
         seenBy := g.seenBy.set target (insert viewer ((g.seenBy.get target).getD ∅)) }, true)

/-- The query `can_see`: a workspace sees itself and what its entry lists. -/
def canSeeTarget (target : WorkspaceId) : Bool :=
  if viewer = target then true
  else (g.canSee.get viewer).any fun set => decide (target ∈ set)

def grantChecked (target grantor : WorkspaceId) : Except VisibilityError (VisibilityGraph × Bool) :=
  if g.canSeeTarget grantor target then .ok (g.grant viewer target)
  else .error (.grantorCannotSee target)

def whoCanSee (target : WorkspaceId) : Finset WorkspaceId :=
  insert target ((g.seenBy.get target).getD ∅)

end VisibilityGraph

structure EscalationRouter where
  routing : Table WorkspaceId UserId
  deriving DecidableEq

namespace EscalationRouter

def new : EscalationRouter := { routing := ∅ }

variable (r : EscalationRouter) (id : WorkspaceId)

def register (owner : UserId) : EscalationRouter :=
  { routing := r.routing.set id owner }

def update (newOwner : UserId) : EscalationRouter :=
  { routing := r.routing.set id newOwner }

def route : Option UserId := r.routing.get id

end EscalationRouter

structure CreateWorkspaceParams where
  (id parent : WorkspaceId)
  owner : UserId
  originator : Originator
  status : WorkspaceState
  taskId : Option TaskId
  deriving DecidableEq

structure CascadeEffect where
  (failed reparented : List WorkspaceId)
  rightsExpired : ℕ
  deriving DecidableEq

structure TopologySet where
  tree : WorkspaceTree
  visibility : VisibilityGraph
  escalation : EscalationRouter
  portRights : PortRightsGraph
  deriving DecidableEq

namespace TopologySet

def new (rootId : WorkspaceId) (rootOwner : UserId) : TopologySet :=
  { tree := WorkspaceTree.new rootId rootOwner
    visibility := VisibilityGraph.new.register rootId
    escalation := EscalationRouter.new.register rootId rootOwner
    portRights := PortRightsGraph.new }

def nodeOf (params : CreateWorkspaceParams) : WorkspaceNode :=
  { id := params.id, parent := some params.parent, children := [], owner := params.owner,
    originator := params.originator, status := params.status, taskId := params.taskId }

/-- The rights `create_workspace` adds: the parent may send to the child, the child to the
parent, and the child receives. -/
def createRights (g : PortRightsGraph) (params : CreateWorkspaceParams) : PortRightsGraph :=
  let g₁ := (g.create params.parent params.id .send).1
  let g₂ := (g₁.create params.id params.parent .send).1
  (g₂.create params.id params.id .receive).1

/-- Compound workspace creation; an error of the tree leaves everything as it was. -/
def createWorkspace (s : TopologySet) (params : CreateWorkspaceParams) :
    Except TreeError TopologySet :=
  match s.tree.insert (nodeOf params) with
  | .error e => .error e
  | .ok tree =>
    .ok { tree := tree
          visibility := ((s.visibility.register params.id).grant tree.root params.id).1
          escalation := s.escalation.register params.id params.owner
          portRights := createRights s.portRights params }

/-- One iteration over the descendants of a failed workspace: the rights of a Failed one are
expired and counted. -/
def expireFailed (tree : WorkspaceTree) (acc : PortRightsGraph × CascadeEffect)
    (descId : WorkspaceId) : PortRightsGraph × CascadeEffect :=
  match tree.get descId with
  | some node =>
    if node.status = .failed then
      let rights := acc.1.expireWorkspace descId
      (rights, { acc.2 with
        rightsExpired := acc.2.rightsExpired + (acc.1.activeCount - rights.activeCount)
        failed := acc.2.failed ++ [descId] })
    else acc
  | none => acc

/-- Compound workspace termination. The descendants whose rights are expired are those of the
tree *after* the cascade; `none` if a traversal does not return. -/
def terminateWorkspace (s : TopologySet) (id : WorkspaceId) (status : WorkspaceState) :
    Option (TopologySet × CascadeEffect) :=
  let tree := s.tree.updateStatus id status
  let rights := s.portRights.expireWorkspace id
  let effect : CascadeEffect :=
    { failed := [], reparented := []
      rightsExpired := s.portRights.activeCount - rights.activeCount }
  if status = .failed then
    match tree.cascadeFailure id with
    | none => none
    | some (tree', reparented) =>
      match tree'.descendants id with
      | none => none
      | some descendants =>
        let (rights', effect') := descendants.foldl (expireFailed tree') (rights, effect)
        some ({ s with tree := tree', portRights := rights' },
          { effect' with reparented := reparented })
  else some ({ s with tree := tree, portRights := rights }, effect)

def transferOwnership (s : TopologySet) (id : WorkspaceId) (newOwner : UserId) :
    Except TreeError (TopologySet × UserId) :=
  match s.tree.transferOwner id newOwner with
  | .error e => .error e
  | .ok (tree, oldOwner) =>
    .ok ({ s with tree := tree, escalation := s.escalation.update id newOwner }, oldOwner)

end TopologySet

end Wacp
