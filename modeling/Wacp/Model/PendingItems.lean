import Mathlib.Data.List.Sort
import Wacp.Model.SessionHandlers

/-!
# Pending items of all sessions

The endpoints of `console-api/src/routes/highway_pending.rs` up to the paging, with `list_by_owner`
of `console-db/src/queries/sessions.rs`.
-/

namespace Wacp.Console.PendingItems

/-- The columns that the query reads. -/
structure SessionEntry where
  (id ownerUserId state createdAt : String)

structure Sessions where
  rows : List SessionEntry
  ids : (rows.map (·.id)).Nodup

def Sessions.listByOwner (t : Sessions) (ownerUserId : String) (state : Option String) (limit : ℤ)
    (afterCursor : Option String) : List SessionEntry :=
  let found := (t.rows.filter fun r => r.ownerUserId == ownerUserId &&
    state.all (r.state == ·) && afterCursor.all (decide <| r.createdAt < ·)).insertionSort
      fun a b => b.createdAt ≤ a.createdAt
  if limit < 0 then found else found.take limit.toNat

structure PendingState (Item : Type) where
  (gates escalations refusals : List Item)

/-- The database, or why it cannot be read, and the monitors in the order of the iteration. -/
structure AppState (Item : Type) where
  db : Except DbError Sessions
  activeSessions : List (String × PendingState Item)

def ownedSessions (db : Except DbError Sessions) (auth : Auth) :
    Except ApiError (Option (List String)) :=
  if auth.isAdmin then .ok none
  else match db with
    | .error e => .error (.console (.database e.text))
    | .ok t => .ok (some ((t.listByOwner auth.userId none 1000 none).map (·.id)))

def visible (owned : Option (List String)) (sid : String) : Bool := owned.all (·.contains sid)

def notOwned : ApiError :=
  .console (.forbidden "Cannot view pending items for a session you do not own")

def enforceSessionScope (owned : Option (List String)) (sid : String) : Except ApiError Unit :=
  match owned with
  | none => .ok ()
  | some set => if set.contains sid then .ok () else .error notOwned

variable {Item : Type}

def aggregate (pending : PendingState Item → List Item) (s : AppState Item) (auth : Auth)
    (sessionId : Option String) : Except ApiError (List (String × Item)) := do
  let owned ← ownedSessions s.db auth
  sessionId.forM (enforceSessionScope owned)
  return (s.activeSessions.filter fun a => visible owned a.1 && sessionId.all (· == a.1)).flatMap
    fun a => (pending a.2).map (a.1, ·)

def aggregateEscalations := @aggregate Item (·.escalations)

def aggregateRefusals := @aggregate Item (·.refusals)

end Wacp.Console.PendingItems
