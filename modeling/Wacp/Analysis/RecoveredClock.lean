import Wacp.Analysis.ClockOrder
import Wacp.Analysis.SnapshotReplay

/-!
# The clock after recovery

Recovery starts the clock right after the timestamp of the last entry, or after zero. So it is above
the trail exactly if that entry has the latest timestamp.
-/

namespace Wacp

open List Timestamp

/-! ## What a clock issues -/

inductive ClockCall where
  | now (physical : UInt64)
  | send (physical : UInt64)
  | recv (physical : UInt64) (remote : Timestamp)

def Clock.perform (c : Clock) : ClockCall → Clock
  | .now physical => c.now physical
  | .send physical => c.send physical
  | .recv physical remote => c.recv physical remote

def Clock.issued (c : Clock) : List ClockCall → List Timestamp
  | [] => []
  | call :: calls => (c.perform call).last :: (c.perform call).issued calls

theorem Clock.le_perform (c : Clock) (call : ClockCall) : c.last ≤ (c.perform call).last := by
  cases call with
  | now physical | send physical => exact (c.now_precedes physical).le
  | recv physical remote => exact (c.recv_precedes physical remote).1.le

theorem Clock.le_issued (c : Clock) (calls : List ClockCall) :
    ∀ t ∈ c.issued calls, c.last ≤ t := by
  induction calls generalizing c with
  | nil => exact fun t ht => absurd ht not_mem_nil
  | cons call calls ih =>
    have hstep := c.le_perform call
    unfold Clock.issued
    rw [forall_mem_cons]
    refine ⟨hstep, fun t ht => ?_⟩
    have hrest := ih _ t ht
    rw [le_iff] at hstep hrest ⊢
    exact hstep.trans hrest

/-! ## The initial timestamp -/

namespace RecoveryEngine

variable (external : External)

def timestampOf (record : TrailRecord) : Option UInt64 :=
  ((external.jsonFromSlice record.1).bind fun event => event.get "timestamp").bind JsonValue.asU64

def lastTimestamp (entries : List TrailRecord) : UInt64 :=
  (entries.getLast?.bind (timestampOf external)).getD 0

/-- Above those of the trail, and so is all that a clock started there issues. -/
structure ClockAhead (entries : List TrailRecord) (initial : Timestamp) : Prop where
  above : ∀ record ∈ entries, ∀ ts, timestampOf external record = some ts →
    (⟨ts, 0⟩ : Timestamp) < initial
  issues : ∀ calls, ∀ t ∈ (Clock.withInitial initial).issued calls, ∀ record ∈ entries, ∀ ts,
    timestampOf external record = some ts → ¬ t ≤ ⟨ts, 0⟩

def LastIsLatest (entries : List TrailRecord) : Prop :=
  ∀ record ∈ entries, ∀ ts, timestampOf external record = some ts →
    ts ≤ lastTimestamp external entries

variable {external}

theorem extractLastTimestamp_eq (entries : List TrailRecord) :
    extractLastTimestamp external entries = ⟨lastTimestamp external entries, 0⟩ := by
  unfold extractLastTimestamp lastTimestamp timestampOf
  cases entries.getLast? with
  | none => rfl
  | some record =>
    rw [Option.bind_some]
    dsimp only
    cases external.jsonFromSlice record.1 with
    | none => rfl
    | some event =>
      rw [Option.bind_some]
      dsimp only
      cases (event.get "timestamp").bind JsonValue.asU64 with
      | none | some => rfl

theorem clockInitial_eq {trail : TrailStorage} {entries : List TrailRecord}
    (h : ReadsAs external trail entries) (hpos : entries ≠ [])
    {snapshot : Option (ℕ × SystemSnapshot)} {state : RecoveredState}
    (hstate : recoverInternal external trail snapshot = some (.ok state)) :
    state.clockInitial = ⟨lastTimestamp external entries, 1⟩ := by
  have hstart : (replayStart snapshot).2.2 ≤ entries.length := by
    by_contra hlt
    have htotal : trail.metadata.totalEntries ≠ 0 := by
      rw [h.total]
      exact fun h0 => hpos (length_eq_zero_iff.mp h0)
    have hnone := recoverInternal_eq_none_iff.mpr ⟨htotal, entries, h.collected,
      verifyIntegrity_eq_ok_iff.mpr h.chained, Nat.lt_of_not_le hlt⟩
    rw [hstate] at hnone
    cases hnone
  rw [h.recoverInternal hpos snapshot hstart] at hstate
  cases hstate
  rw [extractLastTimestamp_eq]
  rfl

theorem timestamp_lt_next_iff {ts last : UInt64} :
    (⟨ts, 0⟩ : Timestamp) < ⟨last, 1⟩ ↔ ts ≤ last := by
  rw [lt_iff, UInt64.le_iff_toNat_le]
  show ts.toNat * 2 ^ 16 + 0 < last.toNat * 2 ^ 16 + 1 ↔ _
  omega

/-- **The clock after recovery**, for every valid, non-empty trail and every snapshot. -/
theorem clockAhead_iff {trail : TrailStorage} {entries : List TrailRecord}
    (h : ReadsAs external trail entries) (hpos : entries ≠ [])
    {snapshot : Option (ℕ × SystemSnapshot)} {state : RecoveredState}
    (hstate : recoverInternal external trail snapshot = some (.ok state)) :
    ClockAhead external entries state.clockInitial ↔ LastIsLatest external entries := by
  rw [clockInitial_eq h hpos hstate]
  constructor
  · intro hahead record hrecord ts hts
    exact timestamp_lt_next_iff.mp (hahead.above record hrecord ts hts)
  · intro hlatest
    have habove : ∀ record ∈ entries, ∀ ts, timestampOf external record = some ts →
        (⟨ts, 0⟩ : Timestamp) < ⟨lastTimestamp external entries, 1⟩ :=
      fun record hrecord ts hts =>
        timestamp_lt_next_iff.mpr (hlatest record hrecord ts hts)
    refine ⟨habove, ?_⟩
    intro calls t ht record hrecord ts hts hle
    have hissued := (Clock.withInitial _).le_issued calls t ht
    have hlt := habove record hrecord ts hts
    rw [le_iff] at hle hissued
    rw [lt_iff] at hlt
    exact absurd (hissued.trans hle) (Nat.not_le.mpr hlt)

/-! ## Two stamped entries -/

def stampedExternal : External where
  sha256 := fun _ => .genesis
  jsonFromSlice := fun bytes =>
    bytes.head?.map fun b => .object [("timestamp", .posInt (UInt64.ofNat b.toNat))]
  snapshotFromSlice := fun _ => none

def stampedEntries (first second : UInt8) : List TrailRecord :=
  [([first], .genesis), ([second], .genesis)]

def stampedTrail (first second : UInt8) : TrailStorage where
  metadata := { currentSegment := 0, totalEntries := 2, chainHead := .genesis, totalBytes := 74 }
  scan := fun _ _ => .ok [(0, [first], .genesis), (37, [second], .genesis)]

theorem readsAs_stampedTrail {first second : UInt8} :
    ReadsAs stampedExternal (stampedTrail first second) (stampedEntries first second) where
  total := rfl
  collected := rfl
  chained := rfl

theorem recover_stampedTrail {first second : UInt8} :
    ∃ state, recover stampedExternal (stampedTrail first second) = some (.ok state) ∧
      state.clockInitial = ⟨UInt64.ofNat second.toNat, 1⟩ := by
  obtain ⟨state, hstate, -⟩ := readsAs_stampedTrail.recover
  exact ⟨state, hstate, clockInitial_eq readsAs_stampedTrail (by simp [stampedEntries]) hstate⟩

theorem clockAhead_rising : ∃ state,
    recover stampedExternal (stampedTrail 5 7) = some (.ok state) ∧
      ClockAhead stampedExternal (stampedEntries 5 7) state.clockInitial := by
  obtain ⟨state, hstate, -⟩ := recover_stampedTrail
  refine ⟨state, hstate, (clockAhead_iff readsAs_stampedTrail (by simp [stampedEntries])
    hstate).mpr ?_⟩
  intro record hrecord ts hts
  simp only [stampedEntries, mem_cons, not_mem_nil, or_false] at hrecord
  obtain rfl | rfl := hrecord
  · cases hts
    decide
  · cases hts
    decide

/-- **A last entry that is not the latest**: the clock starts below the first one. -/
theorem not_clockAhead_falling : ∃ state,
    recover stampedExternal (stampedTrail 7 5) = some (.ok state) ∧
      ¬ ClockAhead stampedExternal (stampedEntries 7 5) state.clockInitial := by
  obtain ⟨state, hstate, hclock⟩ := recover_stampedTrail
  refine ⟨state, hstate, ?_⟩
  intro hahead
  have hlt := hahead.above ([7], .genesis) mem_cons_self 7 rfl
  rw [hclock] at hlt
  exact absurd hlt (by decide)

end RecoveryEngine

end Wacp
