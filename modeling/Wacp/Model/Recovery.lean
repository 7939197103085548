import Wacp.Model.Chain
import Wacp.Model.Clock
import Wacp.Model.Types

/-!
# The recovery engine

`wacp-recovery/src/lib.rs`: the state of the runtime from the trail after a crash, optionally from a
snapshot on. SHA-256 and the two `serde_json` decoders are parameters (`External`). The one panic,
the slice of the entries from the snapshot on, is the outer `none` of `recoverInternal`.
-/

namespace Wacp

open Library

structure SystemSnapshot where
  sequence : ℕ
  (tree taskGraph : JsonValue)

structure External where
  sha256 : List UInt8 → ChainHash
  jsonFromSlice : List UInt8 → Option JsonValue
  snapshotFromSlice : List UInt8 → Option SystemSnapshot

inductive RecoveryError where
  | trailCorruption (index : ℕ) (details : String)
  | storageError (error : StorageError)
  deriving DecidableEq

abbrev WorkspaceStates := Table String WorkspaceState

abbrev TaskStatuses := Table String TaskStatus

structure RecoveredState where
  workspaceStates : WorkspaceStates
  taskStatuses : TaskStatuses
  lastSequence : ℕ
  clockInitial : Timestamp
  inFlightEnvelopes : Finset String
  snapshotSequence : Option ℕ

def parseWorkspaceState (s : String) : Option WorkspaceState :=
  if s = "Idle" then some .idle
  else if s = "Active" then some .active
  else if s = "Blocked" then some .blocked
  else if s = "Suspended" then some .suspended
  else if s = "Migrating" then some .migrating
  else if s = "Integrating" then some .integrating
  else if s = "Conflicted" then some .conflicted
  else if s = "Closed" then some .closed
  else if s = "Failed" then some .failed
  else none

def parseTaskStatus (s : String) : Option TaskStatus :=
  if s = "Draft" then some .draft
  else if s = "Pending" then some .pending
  else if s = "Assigned" then some .assigned
  else if s = "InProgress" then some .inProgress
  else if s = "Completed" then some .completed
  else if s = "Failed" then some .failed
  else if s = "Integrated" then some .integrated
  else if s = "Cancelled" then some .cancelled
  else none

namespace RecoveryEngine

/-! ## Reading the snapshot -/

/-- The loop over the objects of a snapshot: the parsed `status` of each, by name. -/
def statuses {S : Type} (parse : String → Option S) (fields : List (String × JsonValue)) :
    Table String S :=
  fields.foldl
    (fun found field =>
      match (field.2.getStr "status").bind parse with
      | some status => found.set field.1 status
      | none => found)
    ∅

def extractSnapshotState (snap : SystemSnapshot) : WorkspaceStates × TaskStatuses :=
  let wsStates :=
    match (snap.tree.get "nodes").bind JsonValue.asObject with
    | some nodes => statuses parseWorkspaceState nodes
    | none => ∅
  let taskStatuses :=
    match (snap.taskGraph.get "tasks").bind JsonValue.asObject with
    | some tasks => statuses parseTaskStatus tasks
    | none => ∅
  (wsStates, taskStatuses)

/-! ## Reading the trail -/

variable (external : External) (entries : List TrailRecord) (trail : TrailStorage)

/-- One segment of the loop of `collect_entries`; the offsets are dropped. -/
def collectStep (all : List TrailRecord) (segId : ℕ) : Except RecoveryError (List TrailRecord) :=
  match trail.scan segId 0 with
  | .error e => .error (.storageError e)
  | .ok entries => .ok (all ++ entries.map Prod.snd)

def collectEntries : Except RecoveryError (List TrailRecord) :=
  (List.range (trail.metadata.currentSegment + 1)).foldlM (collectStep trail) []

def verifyIntegrity : Except RecoveryError Unit :=
  match verifyChain external.sha256 entries with
  | .ok () => .ok ()
  | .error e =>
    .error (.trailCorruption e.index
      ("expected " ++ e.expected.display ++ ", computed " ++ e.computed.display))

/-- One entry of the replay; an entry that does not parse, has no known event type or lacks a
field changes nothing. -/
def replayEntry (acc : WorkspaceStates × TaskStatuses) (record : TrailRecord) :
    WorkspaceStates × TaskStatuses :=
  match external.jsonFromSlice record.1 with
  | none => acc
  | some event =>
    match event.getStr "event_type" with
    | none => acc
    | some eventType =>
      if eventType = "workspace_created" ∨ eventType = "workspace_state_changed" then
        match event.getStr "workspace_id", event.getStr "new_state" with
        | some wsId, some stateStr =>
          match parseWorkspaceState stateStr with
          | some state => (acc.1.set wsId state, acc.2)
          | none => acc
        | _, _ => acc
      else if eventType = "task_status_changed" then
        match event.getStr "task_id", event.getStr "new_status" with
        | some taskId, some statusStr =>
          match parseTaskStatus statusStr with
          | some status => (acc.1, acc.2.set taskId status)
          | none => acc
        | _, _ => acc
      else acc

def reconstructState : WorkspaceStates × TaskStatuses :=
  entries.foldl (replayEntry external) (∅, ∅)

/-- One entry of the in-flight detection; the sets are the created and the delivered envelopes. -/
def detectEntry (acc : Finset String × Finset String) (record : TrailRecord) :
    Finset String × Finset String :=
  match external.jsonFromSlice record.1 with
  | none => acc
  | some event =>
    match event.getStr "event_type", event.getStr "envelope_id" with
    | some eventType, some envId =>
      if eventType = "envelope_created" then (insert envId acc.1, acc.2)
      else if eventType = "envelope_delivered" then (acc.1, insert envId acc.2)
      else acc
    | _, _ => acc

def detectInFlight : Finset String :=
  let sets := entries.foldl (detectEntry external) (∅, ∅)
  sets.1 \ sets.2

def extractLastTimestamp : Timestamp :=
  match entries.getLast? with
  | none => .ZERO
  | some record =>
    match external.jsonFromSlice record.1 with
    | none => .ZERO
    | some event =>
      match (event.get "timestamp").bind JsonValue.asU64 with
      | none => .ZERO
      | some ts => { physicalUs := ts, logical := 0 }

/-! ## Recovery -/

variable (snapshot : Option (ℕ × SystemSnapshot))

/-- The state that is recovered from a snapshot alone, or from nothing, when the trail is empty. -/
def recoverEmpty : RecoveredState :=
  match snapshot with
  | some (seq, snap) =>
    { workspaceStates := (extractSnapshotState snap).1
      taskStatuses := (extractSnapshotState snap).2
      lastSequence := seq
      clockInitial := .ZERO
      inFlightEnvelopes := ∅
      snapshotSequence := some seq }
  | none =>
    { workspaceStates := ∅, taskStatuses := ∅, lastSequence := 0, clockInitial := .ZERO
      inFlightEnvelopes := ∅, snapshotSequence := none }

/-- Where the replay starts: the states, the snapshot's sequence number and the first entry. -/
def replayStart : (WorkspaceStates × TaskStatuses) × Option ℕ × ℕ :=
  match snapshot with
  | some (seq, snap) => (extractSnapshotState snap, some seq, seq)
  | none => ((∅, ∅), none, 0)

def recoverInternal : Option (Except RecoveryError RecoveredState) :=
  if trail.metadata.totalEntries = 0 then some (.ok (recoverEmpty snapshot))
  else
    match collectEntries trail with
    | .error e => some (.error e)
    | .ok allEntries =>
      match verifyIntegrity external allEntries with
      | .error e => some (.error e)
      | .ok () =>
        let (start, snapshotSeq, from_) := replayStart snapshot
        if from_ > allEntries.length then none
        else
          let replayed := reconstructState external (allEntries.drop from_)
          some (.ok
            { workspaceStates := start.1.extend replayed.1
              taskStatuses := start.2.extend replayed.2
              lastSequence := trail.metadata.totalEntries
              clockInitial := (extractLastTimestamp external allEntries).succ
              inFlightEnvelopes := detectInFlight external allEntries
              snapshotSequence := snapshotSeq })

def recover : Option (Except RecoveryError RecoveredState) :=
  recoverInternal external trail none

/-- The latest snapshot; a storage error and a snapshot that does not parse count as none. -/
def loadSnapshot (snapshots : SnapshotStorage) : Option (ℕ × SystemSnapshot) :=
  match snapshots.readLatestSystem with
  | .ok (some (seq, data)) =>
    match external.snapshotFromSlice data with
    | some snap => some (seq, snap)
    | none => none
  | .ok none => none
  | .error _ => none

def recoverWithSnapshot (snapshots : SnapshotStorage) :
    Option (Except RecoveryError RecoveredState) :=
  recoverInternal external trail (loadSnapshot external snapshots)

end RecoveryEngine

end Wacp
