import Wacp.Model.FsTrail

/-!
# Tiers of the trail and compaction

`wacp-trail/src/tiered.rs` and `compaction.rs`: segment files move from the trail directory (hot) to
its `warm` directory, compressed, and on to a cold one. A listed file can be read, moved and
removed. zstd is a parameter, the time of a cycle an argument.
-/

namespace Wacp

open Library

/-- A compressed segment file with the creation time that its metadata gives. -/
structure TierFile where
  data : List UInt8
  created : ℕ
  deriving DecidableEq

structure Tiers where
  hot : TrailDirectory
  (warm cold : Table ℕ TierFile)

structure TierManager where
  coldDestination : Option String
  (hotLimit warmRetentionDays : ℕ)
  snapshotAnchor : Option ℕ
  deriving DecidableEq

def retentionOf (days : ℕ) : ℕ := days * 86400 * 10 ^ 9

namespace TierManager

def new (hotLimit warmRetentionDays : ℕ) (coldDestination : Option String) : TierManager :=
  { coldDestination := coldDestination
    hotLimit := hotLimit
    warmRetentionDays := warmRetentionDays
    snapshotAnchor := none }

variable (m : TierManager)

def setSnapshotAnchor (sequence : ℕ) : TierManager :=
  { m with snapshotAnchor := some sequence }

variable (zstdEncode : List UInt8 → List UInt8) (now : ℕ) (tiers : Tiers)

/-- The numbers of the listed files; the active segment is among them. -/
def listHotSegments : List ℕ := listSegments tiers.hot

def listWarmSegments : List ℕ := tiers.warm.keys.sort

def compressFile (id : ℕ) : Table ℕ TierFile :=
  match tiers.hot.get id with
  | none => tiers.warm
  | some input =>
    let created := match tiers.warm.get id with
      | some file => file.created
      | none => now
    tiers.warm.set id { data := zstdEncode input, created := created }

/-- The recovery window check: the segment number against the anchor. -/
def anchored (id : ℕ) : Bool :=
  match m.snapshotAnchor with
  | some anchor => decide (id ≥ anchor)
  | none => false

def moveToWarm (acc : Tiers × ℕ) (id : ℕ) : Tiers × ℕ :=
  if m.anchored id then acc
  else
    ({ hot := acc.1.hot.remove id
       warm := compressFile zstdEncode now acc.1 id
       cold := acc.1.cold }, acc.2 + 1)

def transitionHotToWarm : Tiers × ℕ :=
  let hot := listHotSegments tiers
  if hot.length ≤ m.hotLimit then (tiers, 0)
  else
    let excess := hot.length - m.hotLimit
    (hot.take excess).foldl (m.moveToWarm zstdEncode now) (tiers, 0)

/-- One turn of the loop of `transition_warm_to_cold`; a rename keeps the creation time, and an
age below zero counts as zero. -/
def moveToCold (acc : Tiers × ℕ) (id : ℕ) : Tiers × ℕ :=
  match acc.1.warm.get id with
  | none => acc
  | some file =>
    if now - file.created > retentionOf m.warmRetentionDays then
      ({ acc.1 with warm := acc.1.warm.remove id, cold := acc.1.cold.set id file }, acc.2 + 1)
    else acc

def transitionWarmToCold : Tiers × ℕ :=
  match m.coldDestination with
  | none => (tiers, 0)
  | some _ => (listWarmSegments tiers).foldl (m.moveToCold now) (tiers, 0)

end TierManager

/-! ## Compaction (wacp-trail/src/compaction.rs) -/

structure CompactionConfig where
  (hotLimit warmRetentionDays : ℕ)
  coldRetentionDays : Option ℕ
  deriving DecidableEq

structure CompactionTask where
  tierManager : TierManager
  config : CompactionConfig
  coldDir : Option String
  deriving DecidableEq

structure CompactionSummary where
  (hotToWarm warmToCold coldDeleted : ℕ)
  deriving DecidableEq

namespace CompactionTask

def new (coldDestination : Option String) (config : CompactionConfig) : CompactionTask :=
  { tierManager := .new config.hotLimit config.warmRetentionDays coldDestination
    config := config
    coldDir := coldDestination }

def setSnapshotAnchor (task : CompactionTask) (sequence : ℕ) : CompactionTask :=
  { task with tierManager := task.tierManager.setSnapshotAnchor sequence }

def deleteCold (retention now : ℕ) (acc : Tiers × ℕ) (id : ℕ) : Tiers × ℕ :=
  match acc.1.cold.get id with
  | none => acc
  | some file =>
    if now - file.created > retention then
      ({ acc.1 with cold := acc.1.cold.remove id }, acc.2 + 1)
    else acc

def cleanupColdSegments (task : CompactionTask) (now : ℕ) (tiers : Tiers) : Tiers × ℕ :=
  match task.config.coldRetentionDays with
  | none => (tiers, 0)
  | some days =>
    match task.coldDir with
    | none => (tiers, 0)
    | some _ => tiers.cold.keys.sort.foldl (deleteCold (retentionOf days) now) (tiers, 0)

def runOnce (task : CompactionTask) (zstdEncode : List UInt8 → List UInt8) (now : ℕ)
    (tiers : Tiers) : Tiers × CompactionSummary :=
  let (tiers₁, hotToWarm) := task.tierManager.transitionHotToWarm zstdEncode now tiers
  let (tiers₂, warmToCold) := task.tierManager.transitionWarmToCold now tiers₁
  let (tiers₃, coldDeleted) := task.cleanupColdSegments now tiers₂
  (tiers₃, { hotToWarm := hotToWarm, warmToCold := warmToCold, coldDeleted := coldDeleted })

variable (zstdEncode : List UInt8 → List UInt8)

/-- One pair of segments: both are decompressed, and what they hold together is written to the
file of the first; the file of the second is removed. -/
def mergePair (zstdDecode : List UInt8 → Except String (List UInt8)) (warm : Table ℕ TierFile)
    (a b : ℕ) : Except StorageError (Table ℕ TierFile) :=
  match warm.get a, warm.get b with
  | some fileA, some fileB =>
    match zstdDecode fileA.data, zstdDecode fileB.data with
    | .ok decA, .ok decB =>
      .ok ((warm.set a { fileA with data := zstdEncode (decA ++ decB) }).remove b)
    | .error e, _ => .error (.io e)
    | .ok _, .error e => .error (.io e)
  | _, _ => .error (.io "No such file or directory (os error 2)")

/-- The loop over the small segments; what was merged before an error stays merged. -/
def mergePairs (zstdEncode : List UInt8 → List UInt8)
    (zstdDecode : List UInt8 → Except String (List UInt8)) :
    List ℕ → Table ℕ TierFile → ℕ → Table ℕ TierFile × Except StorageError ℕ
  | a :: b :: rest, warm, merged =>
    match mergePair zstdEncode zstdDecode warm a b with
    | .ok warm => mergePairs zstdEncode zstdDecode rest warm (merged + 1)
    | .error e => (warm, .error e)
  | _, warm, merged => (warm, .ok merged)

/-- The listed segments whose file is smaller than the threshold. -/
def smallSegments (thresholdBytes : ℕ) (tiers : Tiers) : List ℕ :=
  (TierManager.listWarmSegments tiers).filter fun id =>
    match tiers.warm.get id with
    | some file => decide (file.data.length < thresholdBytes)
    | none => false

def mergeWarmSegments (zstdDecode : List UInt8 → Except String (List UInt8)) (thresholdBytes : ℕ)
    (tiers : Tiers) : Tiers × Except StorageError ℕ :=
  let small := smallSegments thresholdBytes tiers
  if small.length < 2 then (tiers, .ok 0)
  else
    let (warm, result) := mergePairs zstdEncode zstdDecode small tiers.warm 0
    ({ tiers with warm := warm }, result)

end CompactionTask

end Wacp
