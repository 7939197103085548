import Mathlib.Data.Finset.Sort
import Wacp.Library.Framing
import Wacp.Library.Table

/-!
# The trail on disk

`wacp-trail/src/fs_trail.rs`: an append-only log in numbered segment files. An entry is its length
in four big-endian bytes, its bytes and a hash of 32 bytes. The directory is a table from segment
numbers to bytes; writing to an open file succeeds.
-/

namespace Wacp

open Library List

structure ChainHash where
  bytes : List UInt8
  size : bytes.length = 32
  deriving DecidableEq

def ChainHash.genesis : ChainHash := ⟨List.replicate 32 0, length_replicate⟩

inductive StorageError where
  | io (message : String)
  | corruption (message : String)
  | capacityExceeded
  | segmentNotFound (id : ℕ)
  | notFound
  deriving DecidableEq

abbrev TrailDirectory := Table ℕ (List UInt8)

structure WriteReceipt where
  (segment offset sequence : ℕ)
  deriving DecidableEq

structure StorageMetadata where
  (currentSegment totalEntries : ℕ)
  chainHead : ChainHash
  totalBytes : ℕ
  deriving DecidableEq

abbrev TrailRecord := List UInt8 × ChainHash

abbrev ScannedEntry := ℕ × TrailRecord

structure FileTrailConfig where
  dir : TrailDirectory
  maxSegmentSize : ℕ

structure FileTrailStorage where
  dir : TrailDirectory
  (activeSegment activeSize sequenceCounter : ℕ)
  chainHead : ChainHash
  maxSegmentSize : ℕ
  deriving DecidableEq

def entryOverhead : ℕ := 4 + 32

/-! ## Reading files -/

variable (dir : TrailDirectory) (data : List UInt8)

def readExact (pos n : ℕ) : Option (List UInt8) :=
  if pos + n ≤ data.length then some ((data.drop pos).take n) else none

def readHash (pos : ℕ) : Option ChainHash :=
  if h : pos + 32 ≤ data.length then
    some ⟨(data.drop pos).take 32, by rw [length_take, length_drop]; omega⟩
  else none

/-- One turn of the loop of `scan_segment_file_from`: the entry and the next position, or none
for a `break`. -/
def nextEntry (pos : ℕ) : Option (TrailRecord × ℕ) :=
  if pos + 4 ≤ data.length then
    match readExact data pos 4 with
    | none => none
    | some lenBuf =>
      let len := beValue lenBuf
      -- a partial entry ends the scan
      if pos + 4 + len + 32 > data.length then none
      else
        match readExact data (pos + 4) len with
        | none => none
        | some entry =>
          match readHash data (pos + 4 + len) with
          | none => none
          | some hash => some ((entry, hash), pos + 4 + len + 32)
  else none

def scanLoop (data : List UInt8) : ℕ → ℕ → List ScannedEntry → List ScannedEntry
  | 0, _, results => results
  | fuel + 1, pos, results =>
    match nextEntry data pos with
    | none => results
    | some (record, pos') => scanLoop data fuel pos' (results ++ [(pos, record)])

/-- Every turn passes some bytes, so the loop ends within the length of the file. -/
def scanSegmentFileFrom (id fromOffset : ℕ) : Except StorageError (List ScannedEntry) :=
  match dir.get id with
  | none => .error (.segmentNotFound id)
  | some data => .ok (scanLoop data (data.length + 1) fromOffset [])

def scanSegmentFile (id : ℕ) : Except StorageError (List ScannedEntry) :=
  scanSegmentFileFrom dir id 0

def listSegments : List ℕ := dir.keys.sort

def createSegmentFile (id : ℕ) : TrailDirectory :=
  if dir.contains id then dir else dir.set id []

/-- One turn of the loop of `truncate_partial_tail`: the end of the entry at a position, or none
for a `break`. -/
def entryEnd (data : List UInt8) (pos : ℕ) : Option ℕ :=
  if pos + 4 ≤ data.length then
    match readExact data pos 4 with
    | none => none
    | some lenBuf =>
      let entryEnd := pos + 4 + beValue lenBuf + 32
      if entryEnd > data.length then none else some entryEnd
  else none

def validEndLoop (data : List UInt8) : ℕ → ℕ → ℕ → ℕ
  | 0, _, lastValidEnd => lastValidEnd
  | fuel + 1, pos, lastValidEnd =>
    match entryEnd data pos with
    | none => lastValidEnd
    | some pos' => validEndLoop data fuel pos' pos'

def truncatePartialTail : List UInt8 :=
  let lastValidEnd := validEndLoop data (data.length + 1) 0 0
  if lastValidEnd < data.length then data.take lastValidEnd else data

/-! ## The storage -/

namespace FileTrailStorage

/-- Count the entries of one segment and keep the last hash. -/
def resumeStep (dir : TrailDirectory) (acc : ℕ × ChainHash) (segId : ℕ) :
    Except StorageError (ℕ × ChainHash) :=
  match scanSegmentFile dir segId with
  | .error e => .error e
  | .ok entries => .ok (entries.foldl (fun acc entry => (acc.1 + 1, entry.2.2)) acc)

def openTrail (config : FileTrailConfig) : Except StorageError FileTrailStorage :=
  match (listSegments config.dir).getLast? with
  | none =>
    .ok { dir := createSegmentFile config.dir 0, activeSegment := 0, activeSize := 0
          sequenceCounter := 0, chainHead := .genesis, maxSegmentSize := config.maxSegmentSize }
  | some activeSeg =>
    match (listSegments config.dir).foldlM (resumeStep config.dir) (0, ChainHash.genesis) with
    | .error e => .error e
    | .ok (sequenceCounter, chainHead) =>
      match config.dir.get activeSeg with
      | none => .error (.io "No such file or directory (os error 2)")
      | some data =>
        .ok { dir := config.dir, activeSegment := activeSeg, activeSize := data.length
              sequenceCounter := sequenceCounter, chainHead := chainHead
              maxSegmentSize := config.maxSegmentSize }

/-- Open with crash recovery: the last segment loses a partial entry at its end. -/
def recover (config : FileTrailConfig) : Except StorageError FileTrailStorage :=
  match (listSegments config.dir).getLast? with
  | none => openTrail config
  | some activeSegId =>
    openTrail { config with dir := config.dir.modify activeSegId truncatePartialTail }

variable (s : FileTrailStorage)

def rotate : FileTrailStorage × ℕ :=
  let newId := s.activeSegment + 1
  ({ s with dir := createSegmentFile s.dir newId, activeSegment := newId, activeSize := 0 }, newId)

/-- What `append` writes: the length (as a `u32`), the entry and the hash. -/
def frame (record : TrailRecord) : List UInt8 :=
  beBytes 4 (record.1.length % 2 ^ 32) ++ record.1 ++ record.2.bytes

def append (entry : List UInt8) (chainHash : ChainHash) : FileTrailStorage × WriteReceipt :=
  let s₁ := { s with
    dir := s.dir.modify s.activeSegment (· ++ frame (entry, chainHash))
    activeSize := s.activeSize + (entryOverhead + entry.length)
    sequenceCounter := s.sequenceCounter + 1
    chainHead := chainHash }
  let receipt : WriteReceipt :=
    { segment := s.activeSegment, offset := s.activeSize, sequence := s₁.sequenceCounter }
  (if s₁.activeSize ≥ s₁.maxSegmentSize then s₁.rotate.1 else s₁, receipt)

def read (segment offset _length : ℕ) : Except StorageError (List UInt8) :=
  match s.dir.get segment with
  | none => .error (.segmentNotFound segment)
  | some data =>
    match readExact data offset 4 with
    | none => .error (.io "failed to fill whole buffer")
    | some lenBuf =>
      match readExact data (offset + 4) (beValue lenBuf) with
      | none => .error (.io "failed to fill whole buffer")
      | some entry => .ok entry

def scan (segment fromOffset : ℕ) : Except StorageError (List ScannedEntry) :=
  scanSegmentFileFrom s.dir segment fromOffset

def metadata : StorageMetadata :=
  { currentSegment := s.activeSegment
    totalEntries := s.sequenceCounter
    chainHead := s.chainHead
    totalBytes := s.activeSize }

end FileTrailStorage

/-! ## The storage traits, as far as recovery reads them -/

structure TrailStorage where
  metadata : StorageMetadata
  scan : ℕ → ℕ → Except StorageError (List ScannedEntry)

/-- A `&dyn SnapshotStorage`: its latest system snapshot, with the sequence number. -/
structure SnapshotStorage where
  readLatestSystem : Except StorageError (Option (ℕ × List UInt8))

end Wacp
