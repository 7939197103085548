import Wacp.Analysis.ClockOrder
import Wacp.Model.EventTrail

/-!
# Timestamps as bytes

The ten bytes are the 80-bit number, most significant first: they give the timestamp back, and their
order is that of timestamps.
-/

namespace Wacp

open Library List Timestamp TrailIndex

namespace Timestamp

theorem beValue_toBytes (t : Timestamp) : beValue t.toBytes.bytes = t.value := by
  have hphys : t.physicalUs.toNat % 256 ^ 8 = t.physicalUs.toNat :=
    Nat.mod_eq_of_lt t.physicalUs.toNat_lt
  have hlog : t.logical.toNat % 256 ^ 2 = t.logical.toNat :=
    Nat.mod_eq_of_lt t.logical.toNat_lt
  have hpow : (256 : ℕ) ^ 2 = 2 ^ 16 := rfl
  unfold toBytes value
  rw [beValue_append, beValue_beBytes, beValue_beBytes, length_beBytes, hphys, hlog, hpow]

theorem toBytes_lt_iff {a b : Timestamp} : a.toBytes.bytes < b.toBytes.bytes ↔ a < b := by
  have hlen : a.toBytes.bytes.length = b.toBytes.bytes.length := by
    rw [a.toBytes.length_eq, b.toBytes.length_eq]
  rw [lt_iff_beValue_lt hlen, beValue_toBytes, beValue_toBytes, lt_iff]

theorem toBytes_le_iff (a b : Timestamp) : a.toBytes.bytes ≤ b.toBytes.bytes ↔ a ≤ b := by
  rw [← List.not_lt, toBytes_lt_iff, lt_iff, le_iff, Nat.not_lt]

theorem fromBytes_toBytes (t : Timestamp) : fromBytes t.toBytes = t := by
  have htake : t.toBytes.bytes.take 8 = beBytes 8 t.physicalUs.toNat :=
    take_left' (length_beBytes _ _)
  have hdrop : t.toBytes.bytes.drop 8 = beBytes 2 t.logical.toNat :=
    drop_left' (length_beBytes _ _)
  have hphys : t.physicalUs.toNat % 256 ^ 8 = t.physicalUs.toNat :=
    Nat.mod_eq_of_lt t.physicalUs.toNat_lt
  have hlog : t.logical.toNat % 256 ^ 2 = t.logical.toNat :=
    Nat.mod_eq_of_lt t.logical.toNat_lt
  unfold fromBytes
  rw [htake, hdrop, beValue_beBytes, beValue_beBytes, hphys, hlog, UInt64.ofNat_toNat,
    UInt16.ofNat_toNat]

theorem toBytes_fromBytes (b : TimestampBytes) : (fromBytes b).toBytes = b := by
  have htake : (b.bytes.take 8).length = 8 := by
    rw [length_take, b.length_eq]
    rfl
  have hdrop : (b.bytes.drop 8).length = 2 := by
    rw [length_drop, b.length_eq]
  have hphys : (UInt64.ofNat (beValue (b.bytes.take 8))).toNat = beValue (b.bytes.take 8) := by
    apply UInt64.toNat_ofNat_of_lt'
    have hlt := beValue_lt (b.bytes.take 8)
    rwa [htake] at hlt
  have hlog : (UInt16.ofNat (beValue (b.bytes.drop 8))).toNat = beValue (b.bytes.drop 8) := by
    apply UInt16.toNat_ofNat_of_lt'
    have hlt := beValue_lt (b.bytes.drop 8)
    rwa [hdrop] at hlt
  have hbytes : (fromBytes b).toBytes.bytes = b.bytes := by
    have h₁ := beBytes_beValue (b.bytes.take 8)
    have h₂ := beBytes_beValue (b.bytes.drop 8)
    rw [htake] at h₁
    rw [hdrop] at h₂
    show beBytes 8 (UInt64.ofNat (beValue (b.bytes.take 8))).toNat ++
      beBytes 2 (UInt16.ofNat (beValue (b.bytes.drop 8))).toNat = b.bytes
    rw [hphys, hlog, h₁, h₂, take_append_drop]
  obtain ⟨bytes, hlen⟩ := b
  exact TimestampBytes.mk.injEq .. |>.mpr hbytes

end Timestamp

/-! ## Filters of the index -/

def TrailQuery.within (q : TrailQuery) (since until_ : Option Timestamp) : TrailQuery :=
  { q with
    fromTimestamp := since.map fun t => t.toBytes.bytes
    toTimestamp := until_.map fun t => t.toBytes.bytes }

def TrailIndex.Stamped (index : TrailIndex) (stamp : IndexEntry → Timestamp) : Prop :=
  ∀ row ∈ index.rows, row.timestampBytes = (stamp row).toBytes.bytes

theorem TrailIndex.admits_within {q : TrailQuery} {since until_ : Option Timestamp}
    {row : IndexEntry} {t : Timestamp} (h : row.timestampBytes = t.toBytes.bytes) :
    admits (q.within since until_) row =
      (admits (q.within none none) row && since.all (fun s => decide (s ≤ t)) &&
        until_.all fun u => decide (t ≤ u)) := by
  unfold admits TrailQuery.within
  cases since <;> cases until_ <;> simp [h, toBytes_le_iff]

/-- **Timestamps and their bytes.** The conversions are inverse, the orders agree, and a query with
bounds selects exactly the rows between them. -/
theorem timestamp_bytes_order :
    (∀ t, fromBytes t.toBytes = t) ∧ (∀ b, (fromBytes b).toBytes = b) ∧
    (∀ a b : Timestamp, (a.toBytes.bytes < b.toBytes.bytes ↔ a.cmp b = .lt) ∧
      (a.toBytes.bytes = b.toBytes.bytes ↔ a.cmp b = .eq) ∧
      (b.toBytes.bytes < a.toBytes.bytes ↔ a.cmp b = .gt)) ∧
    ∀ (index : TrailIndex) (stamp : IndexEntry → Timestamp), index.Stamped stamp →
      ∀ (q : TrailQuery) (since until_ : Option Timestamp),
        index.rows.filter (admits (q.within since until_)) =
          (index.rows.filter (admits (q.within none none))).filter fun row =>
            since.all (fun s => decide (s ≤ stamp row)) &&
              until_.all fun u => decide (stamp row ≤ u) := by
  refine ⟨fromBytes_toBytes, toBytes_fromBytes, ?_, ?_⟩
  · intro a b
    refine ⟨toBytes_lt_iff, ?_, ?_⟩
    · rw [cmp_eq, Nat.compare_eq_eq, ← beValue_toBytes, ← beValue_toBytes]
      refine ⟨congrArg beValue, eq_of_beValue_eq ?_⟩
      rw [a.toBytes.length_eq, b.toBytes.length_eq]
    · rw [toBytes_lt_iff, lt_iff, cmp_eq, Nat.compare_eq_gt]
  · intro index stamp hstamped q since until_
    rw [filter_filter]
    apply filter_congr
    intro row hrow
    rw [admits_within (hstamped row hrow), Bool.and_assoc, Bool.and_comm]

def sampleIndex : TrailIndex :=
  (∅ : TrailIndex).set 0 ⟨0, (⟨5, 1⟩ : Timestamp).toBytes.bytes, none, "a", "e", 0, 0, 0⟩

def everyRow : TrailQuery := ⟨none, none, none, none, none, 0⟩

theorem timestamp_bytes_order_sample :
    sampleIndex.Stamped (fun _ => ⟨5, 1⟩) ∧ (sampleIndex.rows.filter
      (admits (everyRow.within (some ⟨5, 0⟩) (some ⟨5, 2⟩)))).length = 1 ∧
    (sampleIndex.rows.filter
      (admits (everyRow.within (some ⟨5, 2⟩) none))).length = 0 := by
  have hrows : sampleIndex.rows =
      [⟨0, (⟨5, 1⟩ : Timestamp).toBytes.bytes, none, "a", "e", 0, 0, 0⟩] := by
    have hkeys : sampleIndex.keys = {0} := rfl
    unfold rows
    rw [hkeys, Finset.sort_singleton]
    rfl
  have hstamped : sampleIndex.Stamped fun _ => ⟨5, 1⟩ := by
    intro row hrow
    rw [hrows, mem_singleton] at hrow
    rw [hrow]
  refine ⟨hstamped, ?_, ?_⟩
  · rw [timestamp_bytes_order.2.2.2 sampleIndex _ hstamped, hrows]
    rfl
  · rw [timestamp_bytes_order.2.2.2 sampleIndex _ hstamped, hrows]
    rfl

end Wacp
