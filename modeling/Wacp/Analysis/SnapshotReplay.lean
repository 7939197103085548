import Mathlib.Data.List.Induction
import Wacp.Model.Recovery

/-!
# Recovery from a snapshot agrees with the full replay

An entry only inserts, so a replay may be split anywhere. A snapshot beyond the end of the trail
makes the slice of the entries after it panic, unless the trail is empty or cannot be read.
-/

namespace Wacp.RecoveryEngine

open Library List

section Replay

variable (external : External)

theorem replayEntry_cases (record : TrailRecord) :
    (∀ acc, replayEntry external acc record = acc) ∨
    (∃ wsId state, ∀ acc, replayEntry external acc record = (acc.1.set wsId state, acc.2)) ∨
    (∃ taskId status, ∀ acc, replayEntry external acc record = (acc.1, acc.2.set taskId status)) := by
  unfold replayEntry
  cases external.jsonFromSlice record.1 with
  | none => exact .inl fun _ => rfl
  | some event =>
    cases hty : event.getStr "event_type" with
    | none => exact .inl fun acc => by simp [hty]
    | some eventType =>
      by_cases hws : eventType = "workspace_created" ∨ eventType = "workspace_state_changed"
      · cases hid : event.getStr "workspace_id" with
        | none => exact .inl fun acc => by simp [hty, hws, hid]
        | some wsId =>
          cases hnew : event.getStr "new_state" with
          | none => exact .inl fun acc => by simp [hty, hws, hid, hnew]
          | some stateStr =>
            cases hst : parseWorkspaceState stateStr with
            | none => exact .inl fun acc => by simp [hty, hws, hid, hnew, hst]
            | some state =>
              refine .inr (.inl ⟨wsId, state, fun acc => ?_⟩)
              simp [hty, hws, hid, hnew, hst]
      · by_cases htask : eventType = "task_status_changed"
        · cases hid : event.getStr "task_id" with
          | none => exact .inl fun acc => by simp [hty, htask, hid]
          | some taskId =>
            cases hnew : event.getStr "new_status" with
            | none => exact .inl fun acc => by simp [hty, htask, hid, hnew]
            | some statusStr =>
              cases hst : parseTaskStatus statusStr with
              | none => exact .inl fun acc => by simp [hty, htask, hid, hnew, hst]
              | some status =>
                refine .inr (.inr ⟨taskId, status, fun acc => ?_⟩)
                simp [hty, htask, hid, hnew, hst]
        · exact .inl fun acc => by simp [hty, hws, htask]

theorem foldl_replayEntry (entries : List TrailRecord) (acc : WorkspaceStates × TaskStatuses) :
    entries.foldl (replayEntry external) acc =
      (acc.1.extend (reconstructState external entries).1,
        acc.2.extend (reconstructState external entries).2) := by
  unfold reconstructState
  -- from the last entry back: the same insertion is made on both sides
  induction entries using List.reverseRecOn with
  | nil => simp
  | append_singleton entries record ih =>
    simp only [foldl_append, foldl_cons, foldl_nil]
    rw [ih]
    rcases replayEntry_cases external record with h | ⟨wsId, state, h⟩ | ⟨taskId, status, h⟩
    · simp [h]
    · simp [h, Table.extend_set]
    · simp [h, Table.extend_set]

theorem reconstructState_split (entries : List TrailRecord) (k : ℕ) :
    reconstructState external entries =
      ((reconstructState external (entries.take k)).1.extend
          (reconstructState external (entries.drop k)).1,
        (reconstructState external (entries.take k)).2.extend
          (reconstructState external (entries.drop k)).2) := by
  have hfold := foldl_replayEntry external (entries.drop k)
    (reconstructState external (entries.take k))
  rw [← hfold]
  unfold reconstructState
  rw [← foldl_append, take_append_drop]

/-- Recovery reads the trail as `entries`: count, scans and hash chain agree. -/
structure ReadsAs (trail : TrailStorage) (entries : List TrailRecord) : Prop where
  total : trail.metadata.totalEntries = entries.length
  collected : collectEntries trail = .ok entries
  chained : verifyChain external.sha256 entries = .ok ()

variable {external} {trail : TrailStorage} {snapshot : Option (ℕ × SystemSnapshot)}

theorem recoverInternal_of_total_eq_zero (h : trail.metadata.totalEntries = 0) :
    recoverInternal external trail snapshot = some (.ok (recoverEmpty snapshot)) := if_pos h

variable {entries : List TrailRecord}

theorem ReadsAs.recoverInternal (h : ReadsAs external trail entries) (hpos : entries ≠ [])
    (snapshot : Option (ℕ × SystemSnapshot)) (hstart : (replayStart snapshot).2.2 ≤ entries.length)
    : recoverInternal external trail snapshot = some (.ok
      { workspaceStates := (replayStart snapshot).1.1.extend
          (reconstructState external (entries.drop (replayStart snapshot).2.2)).1
        taskStatuses := (replayStart snapshot).1.2.extend
          (reconstructState external (entries.drop (replayStart snapshot).2.2)).2
        lastSequence := entries.length
        clockInitial := (extractLastTimestamp external entries).succ
        inFlightEnvelopes := detectInFlight external entries
        snapshotSequence := (replayStart snapshot).2.1 }) := by
  have hne : entries.length ≠ 0 := fun h0 => hpos (length_eq_zero_iff.mp h0)
  have hint : verifyIntegrity external entries = .ok () := by
    simp [verifyIntegrity, h.chained]
  unfold RecoveryEngine.recoverInternal
  simp [h.total, hne, h.collected, hint, Nat.not_lt.mpr hstart]

theorem ReadsAs.recover (h : ReadsAs external trail entries) :
    ∃ state, recover external trail = some (.ok state) ∧ state.lastSequence = entries.length := by
  by_cases hpos : entries = []
  · have htotal : trail.metadata.totalEntries = 0 := by rw [h.total, hpos, length_nil]
    exact ⟨_, recoverInternal_of_total_eq_zero htotal, by rw [hpos]; rfl⟩
  · exact ⟨_, h.recoverInternal hpos none (Nat.zero_le _), rfl⟩

/-- **Recovery from a snapshot agrees with the full replay**, on every valid trail, if the snapshot
has what replaying the entries before it gives. -/
theorem recoverWithSnapshot_eq_recover (trail : TrailStorage) (entries : List TrailRecord)
    (h : ReadsAs external trail entries) (k : ℕ) (hk : k ≤ entries.length)
    (snapshots : SnapshotStorage) (data : List UInt8) (snap : SystemSnapshot)
    (hread : snapshots.readLatestSystem = .ok (some (k, data)))
    (hparse : external.snapshotFromSlice data = some snap)
    (hsnap : extractSnapshotState snap = reconstructState external (entries.take k)) :
    ∃ full fast, recover external trail = some (.ok full) ∧
      recoverWithSnapshot external trail snapshots = some (.ok fast) ∧
      fast.workspaceStates = full.workspaceStates ∧ fast.taskStatuses = full.taskStatuses ∧
      fast.lastSequence = full.lastSequence ∧ fast.clockInitial = full.clockInitial ∧
      fast.inFlightEnvelopes = full.inFlightEnvelopes ∧ fast.snapshotSequence = some k := by
  have hload : loadSnapshot external snapshots = some (k, snap) := by
    simp [loadSnapshot, hread, hparse]
  unfold recover recoverWithSnapshot
  rw [hload]
  by_cases hpos : entries = []
  · -- the empty trail: the snapshot is at zero entries and carries nothing
    subst hpos
    obtain rfl : k = 0 := Nat.le_zero.mp hk
    have htotal : trail.metadata.totalEntries = 0 := h.total
    have hnone : extractSnapshotState snap = (∅, ∅) := hsnap
    refine ⟨_, _, recoverInternal_of_total_eq_zero htotal,
      recoverInternal_of_total_eq_zero htotal, ?_⟩
    simp [recoverEmpty, hnone]
  · refine ⟨_, _, h.recoverInternal hpos none (Nat.zero_le _),
      h.recoverInternal hpos (some (k, snap)) hk, ?_⟩
    have hsplit := reconstructState_split external entries k
    simp [replayStart, hsnap, hsplit]

/-! ## Snapshots beyond the end of the trail -/

theorem verifyIntegrity_eq_ok_iff :
    verifyIntegrity external entries = .ok () ↔ verifyChain external.sha256 entries = .ok () := by
  unfold verifyIntegrity
  cases verifyChain external.sha256 entries with
  | error | ok => simp

/-- **When recovery panics.** -/
theorem recoverInternal_eq_none_iff :
    recoverInternal external trail snapshot = none ↔ trail.metadata.totalEntries ≠ 0 ∧
      ∃ entries, collectEntries trail = .ok entries ∧ verifyIntegrity external entries = .ok () ∧
        entries.length < (replayStart snapshot).2.2 := by
  unfold RecoveryEngine.recoverInternal
  by_cases htotal : trail.metadata.totalEntries = 0
  · simp [htotal]
  · cases hcollect : collectEntries trail with
    | error => simp [htotal]
    | ok entries =>
      cases hverify : verifyIntegrity external entries with
      | error | ok => simp [htotal, hverify]

theorem recoverInternal_of_corrupt (htotal : trail.metadata.totalEntries ≠ 0)
    (hcollect : collectEntries trail = .ok entries)
    (hcorrupt : verifyIntegrity external entries ≠ .ok ()) (snapshot : Option (ℕ × SystemSnapshot))
    : recoverInternal external trail snapshot = recoverInternal external trail none := by
  unfold RecoveryEngine.recoverInternal
  rw [if_neg htotal, if_neg htotal, hcollect]
  cases hverify : verifyIntegrity external entries with
  | error => simp [hverify]
  | ok => exact absurd hverify hcorrupt

/-- Recovery with a stored snapshot returns, and one beyond the end of a non-empty trail makes no
difference. -/
structure Tolerates (external : External) (trail : TrailStorage) (snapshots : SnapshotStorage) :
    Prop where
  returns : recoverWithSnapshot external trail snapshots ≠ none
  discards : ∀ entries seq snap, trail.metadata.totalEntries ≠ 0 →
    collectEntries trail = .ok entries → loadSnapshot external snapshots = some (seq, snap) →
    entries.length < seq → recoverWithSnapshot external trail snapshots = recover external trail

def SnapshotAhead (external : External) (trail : TrailStorage) (snapshots : SnapshotStorage) :
    Prop :=
  trail.metadata.totalEntries ≠ 0 ∧ ∃ entries seq snap, collectEntries trail = .ok entries ∧
    verifyIntegrity external entries = .ok () ∧
    loadSnapshot external snapshots = some (seq, snap) ∧ entries.length < seq

theorem recoverWithSnapshot_eq_none_iff {snapshots : SnapshotStorage} :
    recoverWithSnapshot external trail snapshots = none ↔
      SnapshotAhead external trail snapshots := by
  unfold recoverWithSnapshot SnapshotAhead
  rw [recoverInternal_eq_none_iff]
  cases hload : loadSnapshot external snapshots with
  | none => simp [replayStart]
  | some loaded =>
    obtain ⟨seq, snap⟩ := loaded
    simp [replayStart]

/-- **Snapshots beyond the end** are tolerated exactly if there is none next to a valid, non-empty
trail: recovery panics. -/
theorem tolerates_iff (external : External) (trail : TrailStorage) (snapshots : SnapshotStorage) :
    Tolerates external trail snapshots ↔ ¬ SnapshotAhead external trail snapshots := by
  constructor
  · intro h hahead
    exact h.returns (recoverWithSnapshot_eq_none_iff.mpr hahead)
  · intro hahead
    refine ⟨fun hnone => hahead (recoverWithSnapshot_eq_none_iff.mp hnone), ?_⟩
    intro entries seq snap htotal hcollect hload hlt
    apply recoverInternal_of_corrupt htotal hcollect
    intro hverify
    exact hahead ⟨htotal, entries, seq, snap, hcollect, hverify, hload, hlt⟩

end Replay

/-! ## A trail of two entries -/

/-- The bytes of `{"event_type":"workspace_created","workspace_id":"a","new_state":"Idle"}`. -/
def createdEntry : List UInt8 :=
  [123, 34, 101, 118, 101, 110, 116, 95, 116, 121, 112, 101, 34, 58, 34, 119, 111, 114, 107, 115,
   112, 97, 99, 101, 95, 99, 114, 101, 97, 116, 101, 100, 34, 44, 34, 119, 111, 114, 107, 115,
   112, 97, 99, 101, 95, 105, 100, 34, 58, 34, 97, 34, 44, 34, 110, 101, 119, 95, 115, 116, 97,
   116, 101, 34, 58, 34, 73, 100, 108, 101, 34, 125]

/-- The bytes of
`{"event_type":"workspace_state_changed","workspace_id":"a","new_state":"Active"}`. -/
def changedEntry : List UInt8 :=
  [123, 34, 101, 118, 101, 110, 116, 95, 116, 121, 112, 101, 34, 58, 34, 119, 111, 114, 107, 115,
   112, 97, 99, 101, 95, 115, 116, 97, 116, 101, 95, 99, 104, 97, 110, 103, 101, 100, 34, 44, 34,
   119, 111, 114, 107, 115, 112, 97, 99, 101, 95, 105, 100, 34, 58, 34, 97, 34, 44, 34, 110, 101,
   119, 95, 115, 116, 97, 116, 101, 34, 58, 34, 65, 99, 116, 105, 118, 101, 34, 125]

/-- The bytes of
`{"sequence":1,"tree":{"nodes":{"a":{"status":"Idle"}}},"task_graph":{}}`. -/
def snapshotData : List UInt8 :=
  [123, 34, 115, 101, 113, 117, 101, 110, 99, 101, 34, 58, 49, 44, 34, 116, 114, 101, 101, 34, 58,
   123, 34, 110, 111, 100, 101, 115, 34, 58, 123, 34, 97, 34, 58, 123, 34, 115, 116, 97, 116, 117,
   115, 34, 58, 34, 73, 100, 108, 101, 34, 125, 125, 125, 44, 34, 116, 97, 115, 107, 95, 103, 114,
   97, 112, 104, 34, 58, 123, 125, 125]

def createdHash : ChainHash :=
  ⟨
    [5, 92, 101, 89, 255, 222, 226, 126, 92, 54, 253, 90, 188, 86, 209, 14, 55, 243, 130, 154, 12,
     130, 100, 68, 90, 74, 212, 60, 128, 28, 145, 94],
    rfl⟩

def changedHash : ChainHash :=
  ⟨
    [187, 212, 77, 36, 53, 22, 101, 228, 233, 63, 81, 206, 13, 41, 92, 20, 251, 252, 55, 94, 101,
     168, 82, 20, 38, 85, 189, 103, 190, 171, 136, 209],
    rfl⟩

def sampleSnapshot : SystemSnapshot :=
  { sequence := 1
    tree := .object [("nodes", .object [("a", .object [("status", .string "Idle")])])]
    taskGraph := .object [] }

def sampleExternal : External where
  sha256 := fun message =>
    if message = ChainHash.genesis.bytes ++ createdEntry then createdHash else changedHash
  jsonFromSlice := fun bytes =>
    if bytes = createdEntry then
      some (.object [("event_type", .string "workspace_created"), ("workspace_id", .string "a"),
        ("new_state", .string "Idle")])
    else if bytes = changedEntry then
      some (.object [("event_type", .string "workspace_state_changed"),
        ("workspace_id", .string "a"), ("new_state", .string "Active")])
    else none
  snapshotFromSlice := fun bytes => if bytes = snapshotData then some sampleSnapshot else none

def sampleEntries : List TrailRecord := [(createdEntry, createdHash), (changedEntry, changedHash)]

def sampleTrail : TrailStorage where
  metadata := { currentSegment := 0, totalEntries := 2, chainHead := changedHash, totalBytes := 224 }
  scan := fun segment _ =>
    if segment = 0 then .ok [(0, createdEntry, createdHash), (108, changedEntry, changedHash)]
    else .error (.segmentNotFound segment)

theorem recoverWithSnapshot_eq_recover_two_entries :
    ReadsAs sampleExternal sampleTrail sampleEntries ∧
    extractSnapshotState sampleSnapshot =
      reconstructState sampleExternal (sampleEntries.take 1) ∧
    ∃ full fast, recover sampleExternal sampleTrail = some (.ok full) ∧
      recoverWithSnapshot sampleExternal sampleTrail ⟨.ok (some (1, snapshotData))⟩ =
        some (.ok fast) ∧
      fast.workspaceStates = full.workspaceStates ∧ fast.taskStatuses = full.taskStatuses ∧
      fast.lastSequence = full.lastSequence ∧ fast.clockInitial = full.clockInitial ∧
      fast.inFlightEnvelopes = full.inFlightEnvelopes ∧ fast.snapshotSequence = some 1 := by
  have hreads : ReadsAs sampleExternal sampleTrail sampleEntries :=
    ⟨rfl, rfl, by decide⟩
  have hsnap : extractSnapshotState sampleSnapshot =
      reconstructState sampleExternal (sampleEntries.take 1) := by decide
  have hparse : sampleExternal.snapshotFromSlice snapshotData = some sampleSnapshot := by
    simp [sampleExternal]
  exact ⟨hreads, hsnap,
    recoverWithSnapshot_eq_recover sampleTrail sampleEntries hreads 1 (by decide) _ snapshotData
      sampleSnapshot rfl hparse hsnap⟩

theorem tolerates_two_entries :
    Tolerates sampleExternal sampleTrail ⟨.ok (some (1, snapshotData))⟩ := by
  refine (tolerates_iff _ _ _).mpr ?_
  rintro ⟨-, entries, seq, snap, hcollect, -, hload, hlt⟩
  have hentries : entries = sampleEntries := (Except.ok.inj hcollect).symm
  have hseq : seq = 1 := (congrArg Prod.fst (Option.some.inj hload)).symm
  rw [hentries, hseq] at hlt
  exact absurd hlt (by decide)

/-- **A snapshot ahead of the trail**, taken after the third of two entries: recovery panics. -/
theorem recoverWithSnapshot_panics : ¬ Tolerates sampleExternal sampleTrail
    ⟨.ok (some (3, snapshotData))⟩ := by
  intro h
  apply h.returns
  rw [recoverWithSnapshot_eq_none_iff]
  refine ⟨by decide, sampleEntries, 3, sampleSnapshot, rfl, ?_, rfl, by decide⟩
  rw [verifyIntegrity_eq_ok_iff]
  decide

end Wacp.RecoveryEngine
