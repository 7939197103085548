import Wacp.Model.FsTrail
import Wacp.Model.Workspace

/-!
# The runtime's trail entries and their index

The parts of `wacp-runtime/src/init.rs` that turn workspace events into trail entries, with the
index of `wacp-trail/src/index.rs`: an SQLite table keyed by the sequence number, which survives a
restart of the runtime; the counter does not. `serde_json`'s text of a value is the parameter
`jsonText`; keys are sorted.
-/

namespace Wacp

open Library

/-! ## The index (wacp-trail/src/index.rs) -/

structure IndexEntry where
  sequenceNumber : ℕ
  timestampBytes : List UInt8
  workspaceId : Option String
  (actor eventType : String)
  (segmentId offset length : ℕ)
  deriving DecidableEq

structure TrailQuery where
  (workspaceId eventType actor : Option String)
  (fromTimestamp toTimestamp : Option (List UInt8))
  limit : ℕ
  deriving DecidableEq

structure QueryResult where
  entries : List IndexEntry
  hasMore : Bool
  deriving DecidableEq

abbrev TrailIndex := Table ℕ IndexEntry

namespace TrailIndex

variable (index : TrailIndex)

def insert (entry : IndexEntry) : Except StorageError TrailIndex :=
  if index.contains entry.sequenceNumber then
    .error (.io "UNIQUE constraint failed: trail_index.sequence_number")
  else .ok (index.set entry.sequenceNumber entry)

def rows : List IndexEntry := index.keys.sort.filterMap index.get

/-- The `WHERE` clause; a missing filter admits every row, and `NULL` equals nothing. -/
def admits (q : TrailQuery) (row : IndexEntry) : Bool :=
  (match q.workspaceId with
    | some ws => decide (row.workspaceId = some ws)
    | none => true) &&
  (match q.eventType with
    | some et => decide (row.eventType = et)
    | none => true) &&
  (match q.actor with
    | some actor => decide (row.actor = actor)
    | none => true) &&
  (match q.fromTimestamp with
    | some ts => decide (ts ≤ row.timestampBytes)
    | none => true) &&
  (match q.toTimestamp with
    | some ts => decide (row.timestampBytes ≤ ts)
    | none => true)

/-- One row more than the limit is fetched, to see whether there are more; the addition on `u32`
wraps, as in a release build. -/
def query (q : TrailQuery) : QueryResult :=
  let limit := if q.limit = 0 then 100 else q.limit
  let fetchLimit := (limit + 1) % 2 ^ 32
  let entries := (index.rows.filter (admits q)).take fetchLimit
  let hasMore := decide (entries.length > limit)
  { entries := if hasMore then entries.take limit else entries, hasMore := hasMore }

end TrailIndex

/-! ## The runtime (wacp-runtime/src/init.rs) -/

/-- The protocol buffer of a trail entry; its timestamp and its chain hash are always empty. -/
structure TrailEntry where
  (id workspaceId actor eventType : String)
  body : List UInt8
  sequenceNumber : ℕ
  deriving DecidableEq

structure QueryTrailResponse where
  entries : List TrailEntry
  hasMore : Bool
  clientRequestId : String
  deriving DecidableEq

/-- The fields of the runtime that trail entries go through. `emitted` is what the subscribers of
the trail would have seen over all starts; the runtime does not keep it. -/
structure EventTrail where
  trailIndex : TrailIndex
  escalationIndex : Table String String
  streamSeq : ℕ
  emitted : List TrailEntry

/-- The body of the trail entry for an event; `none` for an empty one. -/
def eventBody : WorkspaceEvent → Option JsonValue
  | .signal signal => some (.object
      [("reason", match signal.reason with
        | some reason => .string reason
        | none => .null),
       ("signal_type", .string signal.signalType.debug)])
  | .stateChanged _ before after => some (.object
      [("from", .string before.debug), ("to", .string after.debug)])
  | .checkpointCreated cp => some (.object
      [("checkpoint_id", .string cp.id.text), ("checkpoint_type", .string cp.checkpointType),
       ("content_hash", .string cp.contentHash), ("intent", .string cp.intent),
       ("status", .string cp.status.debug)])
  | .terminated archived => some (.object
      [("checkpoints", .posInt (UInt64.ofNat archived.checkpoints.length)),
       ("terminal_state", .string archived.terminalState.debug)])
  | .error _ message => some (.object [("message", .string message)])
  | .migrationSnapshot _ _ => none

/-- The workspace and the type of the trail entry for an event. -/
def eventHeader : WorkspaceEvent → WorkspaceId × String
  | .signal signal => (signal.workspaceId, "signal")
  | .stateChanged workspaceId _ _ => (workspaceId, "state_changed")
  | .checkpointCreated cp => (cp.workspaceId, "checkpoint_created")
  | .terminated archived => (archived.id, "terminated")
  | .error workspaceId _ => (workspaceId, "error")
  | .migrationSnapshot workspaceId _ => (workspaceId, "migration_snapshot")

namespace EventTrail

def rowOf (entry : TrailEntry) : IndexEntry :=
  { sequenceNumber := entry.sequenceNumber
    timestampBytes := List.replicate 10 0
    workspaceId := if entry.workspaceId = "" then none else some entry.workspaceId
    actor := entry.actor
    eventType := entry.eventType
    segmentId := 0
    offset := 0
    length := entry.body.length % 2 ^ 32 }

def entryOf (row : IndexEntry) : TrailEntry :=
  { id := "te-" ++ toString row.sequenceNumber
    workspaceId := row.workspaceId.getD ""
    actor := row.actor
    eventType := row.eventType
    body := []
    sequenceNumber := row.sequenceNumber }

variable (r : EventTrail)

def emitTrailEntry (workspaceId eventType : String) (body : List UInt8) : EventTrail :=
  let seq := r.streamSeq + 1
  let entry : TrailEntry :=
    { id := "te-" ++ toString seq, workspaceId := workspaceId, actor := "protocol"
      eventType := eventType, body := body, sequenceNumber := seq }
  { r with
    streamSeq := seq
    trailIndex :=
      match r.trailIndex.insert (rowOf entry) with
      | .ok index => index
      | .error _ => r.trailIndex
    emitted := r.emitted ++ [entry] }

def indexEscalation (event : WorkspaceEvent) : EventTrail :=
  match event with
  | .signal signal =>
    if signal.signalType = .escalation then
      { r with
        streamSeq := r.streamSeq + 1
        escalationIndex := r.escalationIndex.set ("esc-" ++ toString (r.streamSeq + 1))
          signal.workspaceId.text }
    else r
  | _ => r

def fanOutEvent (jsonText : JsonValue → List UInt8) (r : EventTrail) (event : WorkspaceEvent) :
    EventTrail :=
  (r.indexEscalation event).emitTrailEntry (eventHeader event).1.text (eventHeader event).2
    (((eventBody event).map jsonText).getD [])

def queryTrailIndex (workspaceId eventType actor : Option String) (limit : ℕ)
    (clientRequestId : String) : QueryTrailResponse :=
  let result := r.trailIndex.query
    { workspaceId := workspaceId, eventType := eventType, actor := actor, fromTimestamp := none
      toTimestamp := none, limit := if limit = 0 then 100 else limit }
  { entries := result.entries.map entryOf, hasMore := result.hasMore
    clientRequestId := clientRequestId }

/-- A start of the runtime: the index is opened where it is, everything in memory begins anew. -/
def start : EventTrail := { r with streamSeq := 0, escalationIndex := ∅ }

end EventTrail

end Wacp
