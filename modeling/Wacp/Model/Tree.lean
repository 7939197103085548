import Wacp.Library.Table
import Wacp.Library.Forest
import Wacp.Model.Types

/-!
# The workspace tree

`wacp-coordinator/src/tree.rs`: a table of nodes with a parent pointer and a child list, the root,
and two indices from owners and originators. `descendants` and `parent_chain` are loops with fuel,
one iteration more than there are nodes, and `none` when it runs out; `Analysis/TreeInvariant.lean`
shows that they return on every tree the operations build.
-/

namespace Wacp

open Library

inductive TreeError where
  | parentNotFound (id : String)
  | duplicateNode (id : String)
  | nodeNotFound (id : String)
  | sameOwner
  deriving DecidableEq

structure WorkspaceNode where
  id : WorkspaceId
  parent : Option WorkspaceId
  children : List WorkspaceId
  owner : UserId
  originator : Originator
  status : WorkspaceState
  taskId : Option TaskId
  deriving DecidableEq

structure WorkspaceTree where
  nodes : Table WorkspaceId WorkspaceNode
  root : WorkspaceId
  originatorIndex : Table Originator (List WorkspaceId)
  ownerIndex : Table UserId (List WorkspaceId)
  deriving DecidableEq

namespace WorkspaceTree

def new (rootId : WorkspaceId) (owner : UserId) : WorkspaceTree :=
  let node : WorkspaceNode :=
    { id := rootId, parent := none, children := [], owner := owner,
      originator := .system, status := .active, taskId := none }
  { nodes := (∅ : Table WorkspaceId WorkspaceNode).set rootId node
    root := rootId
    originatorIndex := (∅ : Table Originator (List WorkspaceId)).push .system rootId
    ownerIndex := (∅ : Table UserId (List WorkspaceId)).push owner rootId }

def get (t : WorkspaceTree) (id : WorkspaceId) : Option WorkspaceNode := t.nodes.get id

def addChild (child : WorkspaceId) (n : WorkspaceNode) : WorkspaceNode :=
  { n with children := n.children ++ [child] }

def dropChild (child : WorkspaceId) (n : WorkspaceNode) : WorkspaceNode :=
  { n with children := n.children.filter (· ≠ child) }

variable (t : WorkspaceTree)

def insert (node : WorkspaceNode) : Except TreeError WorkspaceTree :=
  if t.nodes.contains node.id then .error (.duplicateNode node.id.text)
  else
    match node.parent with
    | none => .error (.parentNotFound "None")
    | some parent =>
      if t.nodes.contains parent then
        .ok { t with
          nodes := (t.nodes.set node.id node).modify parent (addChild node.id)
          originatorIndex := t.originatorIndex.push node.originator node.id
          ownerIndex := t.ownerIndex.push node.owner node.id }
      else .error (.parentNotFound parent.text)

def children (t : WorkspaceTree) (id : WorkspaceId) : List WorkspaceId :=
  ((t.nodes.get id).map (·.children)).getD []

def parentOf (id : WorkspaceId) : Option WorkspaceId :=
  (t.nodes.get id).bind (·.parent)

def descendantsLoop (t : WorkspaceTree) :
    ℕ → List WorkspaceId → List WorkspaceId → Option (List WorkspaceId)
  | _, [], result => some result
  | 0, _ :: _, _ => none
  | fuel + 1, current :: queue, result =>
    match t.nodes.get current with
    | some node => descendantsLoop t fuel (queue ++ node.children) (result ++ node.children)
    | none => descendantsLoop t fuel queue result

def descendants (id : WorkspaceId) : Option (List WorkspaceId) :=
  t.descendantsLoop (t.nodes.keys.card + 1) [id] []

def parentChainLoop (t : WorkspaceTree) :
    ℕ → WorkspaceId → List WorkspaceId → Option (List WorkspaceId)
  | 0, _, _ => none
  | fuel + 1, current, chain =>
    match t.nodes.get current with
    | some node =>
      match node.parent with
      | some parent => parentChainLoop t fuel parent (chain ++ [parent])
      | none => some chain
    | none => some chain

variable (t : WorkspaceTree) (id : WorkspaceId)

/-- Path from a node to the root, the node itself excluded; `none` if the loop does not
end. -/
def parentChain : Option (List WorkspaceId) :=
  t.parentChainLoop (t.nodes.keys.card + 1) id []

def byOriginator (originator : Originator) : List WorkspaceId :=
  t.originatorIndex.getList originator

def byOwner (owner : UserId) : List WorkspaceId :=
  t.ownerIndex.getList owner

def transferOwner (newOwner : UserId) : Except TreeError (WorkspaceTree × UserId) :=
  match t.nodes.get id with
  | none => .error (.nodeNotFound id.text)
  | some node =>
    if node.owner = newOwner then .error .sameOwner
    else
      .ok ({ t with
        nodes := t.nodes.modify id (fun n => { n with owner := newOwner })
        ownerIndex :=
          (t.ownerIndex.modify node.owner (fun entries => entries.filter (· ≠ id))).push
            newOwner id }, node.owner)

def updateStatus (status : WorkspaceState) : WorkspaceTree :=
  { t with nodes := t.nodes.modify id (fun n => { n with status := status }) }

def reparent (child newParent : WorkspaceId) : WorkspaceTree :=
  -- remove from the old parent's children
  let nodes₁ :=
    match t.parentOf child with
    | some oldParent => t.nodes.modify oldParent (dropChild child)
    | none => t.nodes
  -- update the child's parent
  let nodes₂ := nodes₁.modify child (fun n => { n with parent := some newParent })
  -- add to the new parent's children
  let nodes₃ := nodes₂.modify newParent
    (fun n => if child ∈ n.children then n else addChild child n)
  { t with nodes := nodes₃ }

/-- One iteration of the cascade: fail a child of the same owner, move any other under the
root. -/
def cascadeStep (owner : UserId) (acc : WorkspaceTree × List WorkspaceId)
    (childId : WorkspaceId) : WorkspaceTree × List WorkspaceId :=
  match acc.1.nodes.get childId with
  | some child =>
    if child.owner = owner then (acc.1.updateStatus childId .failed, acc.2)
    else (acc.1.reparent childId acc.1.root, acc.2 ++ [childId])
  | none => acc

/-- Cascade failure: the new tree and the nodes reparented to the root; `none` if
`descendants` does not return. -/
def cascadeFailure : Option (WorkspaceTree × List WorkspaceId) :=
  match t.nodes.get id with
  | none => some (t, [])
  | some node =>
    let t₁ := t.updateStatus id .failed
    match t₁.descendants id with
    | none => none
    | some desc => some (desc.foldl (cascadeStep node.owner) (t₁, []))

def activeWorkspaces : Multiset WorkspaceId :=
  (t.nodes.values.filter (fun n => n.status.isTerminal = false)).map (·.id)

/-! ## The loops are the library's walks -/

theorem descendantsLoop_eq (fuel : ℕ) (queue result : List WorkspaceId) :
    t.descendantsLoop fuel queue result = Forest.bfs t.children fuel queue result := by
  induction fuel generalizing queue result with
  | zero => cases queue <;> rfl
  | succ n ih =>
    cases queue with
    | nil => rfl
    | cons c =>
      simp only [descendantsLoop, Forest.bfs]
      cases hc : t.nodes.get c with
      | none => simp [children, hc, ih]
      | some => simp [children, hc, ih]

theorem parentChainLoop_eq (fuel : ℕ) (w : WorkspaceId) (chain : List WorkspaceId) :
    t.parentChainLoop fuel w chain = Forest.climb t.parentOf fuel w chain := by
  induction fuel generalizing w chain with
  | zero => rfl
  | succ n ih =>
    simp only [parentChainLoop, Forest.climb, parentOf]
    cases hw : t.nodes.get w with
    | none => simp
    | some node =>
      cases hp : node.parent with
      | none => simp [hp]
      | some => simp [hp, ih]

end WorkspaceTree

end Wacp
