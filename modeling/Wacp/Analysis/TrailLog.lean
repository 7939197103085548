import Wacp.Model.FsTrail

/-!
# The trail is the log of what was appended

Behind the segment files stands a list of records per segment. `scan` and `read` give back what was
appended where the receipt says, and `open` computes the counters in memory.
-/

namespace Wacp

open Library List Option Table FileTrailStorage Format List

/-! ## The format of an entry -/

def trailFormat : Format TrailRecord := { encode := frame, next := nextEntry }

variable (record : TrailRecord)

def Short : Prop := record.1.length < 2 ^ 32

theorem length_frame : (frame record).length = entryOverhead + record.1.length := by
  simp only [frame, length_append, length_beBytes, record.2.size, entryOverhead]
  omega

variable (before : List UInt8)

theorem readExact_append (mid after : List UInt8) :
    readExact (before ++ mid ++ after) before.length mid.length = some mid := by
  unfold readExact
  rw [if_pos (by simp), append_assoc, drop_left, take_left]

theorem readHash_append (after : List UInt8) (hash : ChainHash) :
    readHash (before ++ hash.bytes ++ after) before.length = some hash := by
  unfold readHash
  rw [dif_pos (by simp [hash.size])]
  congr 1
  cases hash with
  | mk bytes size =>
    simp only [ChainHash.mk.injEq]
    rw [append_assoc, drop_left, ← size, take_left]

theorem readExact_length {record : TrailRecord} (h : Short record) (before after : List UInt8) :
    ∃ lenBuf, readExact (before ++ frame record ++ after) before.length 4 =
      some lenBuf ∧ beValue lenBuf = record.1.length := by
  refine ⟨beBytes 4 (record.1.length % 2 ^ 32), ?_, ?_⟩
  · have hread := readExact_append before (beBytes 4 (record.1.length % 2 ^ 32))
      (record.1 ++ record.2.bytes ++ after)
    rw [length_beBytes] at hread
    simpa only [frame, append_assoc] using hread
  · have hlt : record.1.length < 2 ^ 32 := h
    rw [beValue_beBytes]
    omega

theorem readExact_entry (after : List UInt8) :
    readExact (before ++ frame record ++ after) (before.length + 4)
      record.1.length = some record.1 := by
  have hread := readExact_append (before ++ beBytes 4 (record.1.length % 2 ^ 32)) record.1
    (record.2.bytes ++ after)
  rw [length_append, length_beBytes] at hread
  simpa only [frame, append_assoc] using hread

theorem readable_of_short {record : TrailRecord} (h : Short record) :
    trailFormat.Readable record := by
  intro before after
  show nextEntry (before ++ frame record ++ after) before.length =
    some (record, before.length + (frame record).length)
  obtain ⟨lenBuf, hbuf, hlen⟩ := readExact_length h before after
  have hentry := readExact_entry record before after
  have hhash : readHash (before ++ frame record ++ after)
      (before.length + 4 + record.1.length) = some record.2 := by
    have hread := readHash_append (before ++ beBytes 4 (record.1.length % 2 ^ 32) ++ record.1)
      after record.2
    rw [length_append, length_append, length_beBytes] at hread
    simpa only [frame, append_assoc] using hread
  have hsize : (before ++ frame record ++ after).length =
      before.length + (4 + 32 + record.1.length) + after.length := by
    rw [length_append, length_append, length_frame]
    rfl
  unfold nextEntry
  rw [if_pos (by omega), hbuf]
  simp only [hlen]
  rw [if_neg (by omega), hentry]
  simp only [hhash, length_frame, entryOverhead, Option.some.injEq, Prod.mk.injEq, true_and]
  omega

theorem nextEntry_end (data : List UInt8) : trailFormat.next data data.length = none := by
  show nextEntry data data.length = none
  unfold nextEntry
  rw [if_neg (by omega)]

theorem scanLoop_eq (data : List UInt8) (fuel pos : ℕ) (results : List ScannedEntry) :
    scanLoop data fuel pos results = trailFormat.scan data fuel pos results := by
  induction fuel generalizing pos results with
  | zero => rfl
  | succ fuel ih =>
    have hnext : trailFormat.next data pos = nextEntry data pos := rfl
    rw [scanLoop, Format.scan, hnext]
    cases nextEntry data pos with
    | none => rfl
    | some next => exact ih next.2 _

theorem length_le_write (records : List TrailRecord) :
    records.length ≤ (trailFormat.write records).length := by
  induction records with
  | nil => exact Nat.le_refl 0
  | cons record =>
    have hpos : 0 < (trailFormat.encode record).length := by
      show 0 < (frame record).length
      rw [length_frame, entryOverhead]
      omega
    rw [write_cons, length_append, length_cons]
    omega

theorem scanSegmentFile_of_records {dir : TrailDirectory} {id : ℕ} {records : List TrailRecord}
    (hshort : ∀ record ∈ records, Short record)
    (hdir : dir.get id = some (trailFormat.write records)) :
    scanSegmentFile dir id = .ok (trailFormat.located 0 records) := by
  have hend : trailFormat.next ([] ++ trailFormat.write records ++ [])
      ([] ++ trailFormat.write records).length = none := by
    rw [append_nil]
    exact nextEntry_end _
  have hscan := scan_write (fun a ha => readable_of_short (hshort a ha)) [] [] hend
    (Nat.lt_succ_of_le (length_le_write records)) []
  rw [append_nil, nil_append] at hscan
  simp only [scanSegmentFile, scanSegmentFileFrom, hdir, scanLoop_eq]
  exact congrArg Except.ok hscan

/-! ## The records behind the files -/

namespace FileTrailStorage

variable {s : FileTrailStorage} {closed : List (List TrailRecord)} {active : List TrailRecord}

def headOf (records : List TrailRecord) : ChainHash :=
  (records.getLast?.map Prod.snd).getD ChainHash.genesis

/-- The records of the segments before the active one, and of the active one. -/
structure Holds (s : FileTrailStorage) (closed : List (List TrailRecord))
    (active : List TrailRecord) : Prop where
  segment : s.activeSegment = closed.length
  file : ∀ i, s.dir.get i = ((closed ++ [active])[i]?).map trailFormat.write
  size : s.activeSize = (trailFormat.write active).length
  counter : s.sequenceCounter = (closed ++ [active]).flatten.length
  head : s.chainHead = headOf (closed ++ [active]).flatten
  short : ∀ seg ∈ closed ++ [active], ∀ record ∈ seg, Short record

variable (maxSegmentSize : ℕ)

def fresh : FileTrailStorage :=
  { dir := createSegmentFile ∅ 0, activeSegment := 0, activeSize := 0, sequenceCounter := 0
    chainHead := .genesis, maxSegmentSize := maxSegmentSize }

variable {maxSegmentSize}

theorem openTrail_fresh :
    openTrail { dir := ∅, maxSegmentSize := maxSegmentSize } = .ok (fresh maxSegmentSize) := by
  have hlist : listSegments ∅ = [] := by
    rw [listSegments, show (∅ : TrailDirectory).keys = ∅ from rfl, Finset.sort_empty]
  simp only [openTrail, hlist, getLast?_nil, fresh]

theorem holds_fresh : (fresh maxSegmentSize).Holds [] [] := by
  refine ⟨rfl, ?_, rfl, rfl, rfl, by simp⟩
  intro i
  have hfile : createSegmentFile ∅ 0 = (∅ : TrailDirectory).set 0 [] := rfl
  show (createSegmentFile ∅ 0).get i = _
  rw [hfile, get_set]
  cases i with
  | zero | succ => rfl

theorem Holds.rotate (h : s.Holds closed active) : s.rotate.1.Holds (closed ++ [active]) [] := by
  have hlen : (closed ++ [active]).length = s.activeSegment + 1 := by
    rw [length_append, h.segment]
    rfl
  have hfree : s.dir.contains (s.activeSegment + 1) = false := by
    rw [contains_eq_false_iff, h.file, getElem?_eq_none (by omega)]
    rfl
  have hdir : s.rotate.1.dir = s.dir.set (s.activeSegment + 1) [] := by
    show createSegmentFile s.dir (s.activeSegment + 1) = _
    rw [createSegmentFile, hfree]
    rfl
  have hflat : (closed ++ [active] ++ [[]]).flatten = (closed ++ [active]).flatten := by simp
  refine ⟨hlen.symm, ?_, rfl, ?_, ?_, ?_⟩
  · intro i
    rw [hdir, get_set]
    by_cases hi : i = s.activeSegment + 1
    · rw [if_pos hi, hi, ← hlen, getElem?_concat_length]
      rfl
    · rw [if_neg hi, h.file]
      by_cases hlt : i < (closed ++ [active]).length
      · rw [getElem?_append_left hlt]
      · have hge : (closed ++ [active] ++ [[]]).length ≤ i := by
          rw [length_append, length_singleton]
          omega
        rw [getElem?_eq_none (by omega), getElem?_eq_none hge]
  · rw [hflat]
    exact h.counter
  · rw [hflat]
    exact h.head
  · intro seg hseg record hrecord
    rcases mem_append.mp hseg with hseg | hseg
    · exact h.short seg hseg record hrecord
    · rw [mem_singleton.mp hseg] at hrecord
      cases hrecord

def written (s : FileTrailStorage) (record : TrailRecord) : FileTrailStorage :=
  { s with
    dir := s.dir.modify s.activeSegment (· ++ frame record)
    activeSize := s.activeSize + (entryOverhead + record.1.length)
    sequenceCounter := s.sequenceCounter + 1
    chainHead := record.2 }

theorem Holds.get_modify (h : s.Holds closed active) {f : List UInt8 → List UInt8}
    {records : List TrailRecord}
    (hf : f (trailFormat.write active) = trailFormat.write records) (i : ℕ) :
    (s.dir.modify s.activeSegment f).get i =
      ((closed ++ [records])[i]?).map trailFormat.write := by
  rw [Table.get_modify, h.file, h.segment]
  rcases Nat.lt_trichotomy i closed.length with hi | hi | hi
  · rw [if_neg (by omega), getElem?_append_left hi, getElem?_append_left hi]
  · rw [if_pos hi, hi, getElem?_concat_length, getElem?_concat_length, map_some,
      map_some, map_some, hf]
  · have hge : ∀ seg : List TrailRecord, (closed ++ [seg]).length ≤ i := by
      intro seg
      rw [length_append, length_singleton]
      omega
    rw [if_neg (by omega), getElem?_eq_none (hge _), getElem?_eq_none (hge _)]

theorem Holds.written (h : s.Holds closed active) {record : TrailRecord} (hshort : Short record) :
    (s.written record).Holds closed (active ++ [record]) := by
  have hflat : (closed ++ [active ++ [record]]).flatten =
      (closed ++ [active]).flatten ++ [record] := by simp
  refine ⟨h.segment, ?_, ?_, ?_, ?_, ?_⟩
  · refine h.get_modify (f := (· ++ frame record)) ?_
    rw [write_append, write_cons, write_nil, append_nil]
    rfl
  · have hframe : (trailFormat.write [record]).length = entryOverhead + record.1.length := by
      rw [write_cons, write_nil, append_nil]
      exact length_frame record
    show s.activeSize + _ = _
    rw [h.size, write_append, length_append, hframe]
  · show s.sequenceCounter + 1 = _
    rw [hflat, length_append, h.counter]
    rfl
  · rw [hflat, headOf, getLast?_concat]
    rfl
  · intro seg hseg r hr
    rcases mem_append.mp hseg with hseg | hseg
    · exact h.short seg (mem_append_left _ hseg) r hr
    · rw [mem_singleton.mp hseg] at hr
      rcases mem_append.mp hr with hr | hr
      · exact h.short active (by simp) r hr
      · rw [mem_singleton.mp hr]
        exact hshort

/-! ## Reading the records back -/

variable {dir : TrailDirectory} {i : ℕ}

theorem foldlM_segments {σ ε : Type} {segs : List (List TrailRecord)}
    (hshort : ∀ seg ∈ segs, ∀ record ∈ seg, Short record)
    (hfile : ∀ j seg, segs[j]? = some seg → dir.get (i + j) = some (trailFormat.write seg))
    {step : σ → ℕ → Except ε σ} (g : σ → ℕ → List ScannedEntry → σ)
    (hstep : ∀ acc id entries, scanSegmentFile dir id = .ok entries →
      step acc id = .ok (g acc id entries))
    (acc : σ) :
    (range' i segs.length).foldlM step acc =
      .ok ((segs.zipIdx i).foldl (fun acc seg => g acc seg.2 (trailFormat.located 0 seg.1)) acc) := by
  induction segs generalizing i acc with
  | nil => rfl
  | cons seg segs ih =>
    have hscan : scanSegmentFile dir i = .ok (trailFormat.located 0 seg) :=
      scanSegmentFile_of_records (hshort seg mem_cons_self) (hfile 0 seg rfl)
    have hfile' : ∀ j seg', segs[j]? = some seg' →
        dir.get (i + 1 + j) = some (trailFormat.write seg') := by
      intro j seg' h'
      rw [Nat.add_right_comm]
      exact hfile (j + 1) seg' h'
    have hrest := ih (fun seg' h' => hshort seg' (mem_cons_of_mem _ h')) hfile'
      (g acc i (trailFormat.located 0 seg))
    rw [length_cons, range'_succ, foldlM_cons, hstep acc i _ hscan]
    exact hrest

def scanAll (s : FileTrailStorage) : Except StorageError (List (ℕ × ScannedEntry)) :=
  (range (s.activeSegment + 1)).foldlM
    (fun found i => (s.scan i 0).map fun entries => found ++ entries.map fun entry => (i, entry)) []

theorem Holds.file_some (h : s.Holds closed active) {seg : List TrailRecord}
    (hseg : (closed ++ [active])[i]? = some seg) : s.dir.get i = some (trailFormat.write seg) := by
  rw [h.file, hseg]
  rfl

theorem Holds.foldlM {σ ε : Type} (h : s.Holds closed active)
    {step : σ → ℕ → Except ε σ} (g : σ → ℕ → List ScannedEntry → σ)
    (hstep : ∀ acc id entries, scanSegmentFile s.dir id = .ok entries →
      step acc id = .ok (g acc id entries)) (acc : σ) :
    (range (s.activeSegment + 1)).foldlM step acc =
      .ok (((closed ++ [active]).zipIdx 0).foldl
        (fun acc seg => g acc seg.2 (trailFormat.located 0 seg.1)) acc) := by
  have hrange : range (s.activeSegment + 1) = range' 0 (closed ++ [active]).length := by
    rw [h.segment, range_eq_range', length_append]
    rfl
  rw [hrange]
  refine foldlM_segments h.short ?_ g hstep acc
  intro j seg hseg
  rw [Nat.zero_add]
  exact h.file_some hseg

theorem foldl_locate (segs : List (List TrailRecord)) (i : ℕ) (found : List (ℕ × ScannedEntry)) :
    (segs.zipIdx i).foldl (fun found seg =>
      found ++ (trailFormat.located 0 seg.1).map fun entry => (seg.2, entry)) found =
      found ++ trailFormat.locate i segs := by
  induction segs generalizing i found with
  | nil => exact (append_nil found).symm
  | cons seg segs ih =>
    rw [zipIdx_cons, foldl_cons, ih, locate, append_assoc]

theorem Holds.scanAll (h : s.Holds closed active) :
    s.scanAll = .ok (trailFormat.locate 0 (closed ++ [active])) := by
  refine (h.foldlM (fun found i entries => found ++ entries.map fun entry => (i, entry))
    (fun found i entries hscan => ?_) []).trans ?_
  · exact congrArg (Except.map _) hscan
  rw [foldl_locate, nil_append]

theorem Holds.read (h : s.Holds closed active) {pos : ℕ} {record : TrailRecord}
    (hmem : (i, pos, record) ∈ trailFormat.locate 0 (closed ++ [active])) (length : ℕ) :
    s.read i pos length = .ok record.1 := by
  obtain ⟨k, seg, hi, hseg, hpos⟩ := mem_located_of_mem_locate _ hmem
  have hshort := h.short seg (mem_of_getElem? hseg)
  have hfile := h.file_some hseg
  rw [Nat.zero_add] at hi
  obtain ⟨before, after, hdata, hlen⟩ := split_of_mem_located [] hpos
  rw [hi] at *
  rw [nil_append] at hdata
  have hs : Short record := by
    apply hshort
    rw [← map_snd_located trailFormat 0 seg]
    exact mem_map_of_mem hpos
  obtain ⟨lenBuf, hbuf, hvalue⟩ := readExact_length hs before after
  have hentry := readExact_entry record before after
  have hdata' : trailFormat.write seg = before ++ frame record ++ after := hdata
  simp only [FileTrailStorage.read, hfile, hdata', ← hlen, hbuf, hvalue, hentry]

theorem resumeStep_eq {dir : TrailDirectory} (acc : ℕ × ChainHash) (id : ℕ)
    (entries : List ScannedEntry) (hscan : scanSegmentFile dir id = .ok entries) :
    resumeStep dir acc id =
      .ok (entries.foldl (fun acc entry => (acc.1 + 1, entry.2.2)) acc) := by
  simp [resumeStep, hscan]

theorem foldl_resume (segs : List (List TrailRecord)) (i n : ℕ) (hash : ChainHash) :
    (segs.zipIdx i).foldl (fun acc seg =>
      (trailFormat.located 0 seg.1).foldl (fun acc entry => (acc.1 + 1, entry.2.2)) acc) (n, hash) =
      (n + segs.flatten.length, (segs.flatten.getLast?.map Prod.snd).getD hash) := by
  have hseg : ∀ (records : List TrailRecord) (pos n : ℕ) (hash : ChainHash),
      (trailFormat.located pos records).foldl (fun acc entry => (acc.1 + 1, entry.2.2)) (n, hash) =
        (n + records.length, (records.getLast?.map Prod.snd).getD hash) := by
    intro records
    induction records with
    | nil => exact fun _ _ _ => rfl
    | cons record records ih =>
      intro pos n hash
      rw [located, foldl_cons, ih]
      rw [length_cons, getLast?_cons]
      cases records.getLast? with
      | none | some => simp; omega
  induction segs generalizing i n hash with
  | nil => rfl
  | cons seg segs ih =>
    rw [zipIdx_cons, foldl_cons, hseg, ih, flatten_cons, length_append, getLast?_append]
    cases segs.flatten.getLast? with
    | none | some => simp; omega

theorem listSegments_eq_range' {k n : ℕ} (h : ∀ i, (dir.get i).isSome ↔ k ≤ i ∧ i < k + n) :
    listSegments dir = List.range' k n := by
  have hkeys : dir.keys = (List.range' k n).toFinset := by
    ext i
    rw [Table.mem_keys, List.mem_toFinset, List.mem_range'_1, ← h, Option.isSome_iff_exists]
  rw [listSegments, hkeys, toFinset_sort _ nodup_range']
  exact (pairwise_lt_range' 1).imp Nat.le_of_lt

theorem listSegments_eq {n : ℕ} (h : ∀ i, (dir.get i).isSome ↔ i < n) :
    listSegments dir = range n := by
  rw [range_eq_range']
  apply listSegments_eq_range'
  simpa using h

theorem Holds.isSome_get (h : s.Holds closed active) (i : ℕ) :
    (s.dir.get i).isSome ↔ i < s.activeSegment + 1 := by
  have hlen : (closed ++ [active]).length = closed.length + 1 := by simp
  rw [h.file, isSome_map, h.segment, ← hlen]
  simp

theorem Holds.openTrail (h : s.Holds closed active) :
    FileTrailStorage.openTrail { dir := s.dir, maxSegmentSize := s.maxSegmentSize } = .ok s := by
  have hlist : listSegments s.dir = range (s.activeSegment + 1) :=
    listSegments_eq h.isSome_get
  have hlast : (range (s.activeSegment + 1)).getLast? = some s.activeSegment := by
    rw [range_succ, getLast?_concat]
  have hresume : (range (s.activeSegment + 1)).foldlM (resumeStep s.dir)
      (0, ChainHash.genesis) = .ok (s.sequenceCounter, s.chainHead) := by
    have hloop := h.foldlM
      (fun acc _ entries => entries.foldl (fun acc entry => (acc.1 + 1, entry.2.2)) acc)
      resumeStep_eq (0, ChainHash.genesis)
    rw [hloop, foldl_resume, h.counter, h.head, Nat.zero_add]
    rfl
  have hactive : s.dir.get s.activeSegment = some (trailFormat.write active) := by
    apply h.file_some
    rw [h.segment, getElem?_concat_length]
  simp [FileTrailStorage.openTrail, hlist, hlast, hresume, hactive, ← h.size]

/-! ## Every run -/

inductive Op where
  | append (entry : List UInt8) (hash : ChainHash)
  | rotate

def apply (acc : FileTrailStorage × List (WriteReceipt × TrailRecord)) :
    Op → FileTrailStorage × List (WriteReceipt × TrailRecord)
  | .append entry hash =>
    let (s, receipt) := acc.1.append entry hash
    (s, acc.2 ++ [(receipt, entry, hash)])
  | .rotate => (acc.1.rotate.1, acc.2)

def appended (ops : List Op) : List TrailRecord :=
  ops.filterMap fun
    | .append entry hash => some (entry, hash)
    | .rotate => none

/-- The records of the log are where their receipts say, numbered from one. -/
def Logged (acc : FileTrailStorage × List (WriteReceipt × TrailRecord)) : Prop :=
  ∃ closed active, acc.1.Holds closed active ∧
    trailFormat.locate 0 (closed ++ [active]) =
      acc.2.map (fun entry => (entry.1.segment, entry.1.offset, entry.2)) ∧
    acc.2.map (·.1.sequence) = (range acc.2.length).map (· + 1)

variable {acc : FileTrailStorage × List (WriteReceipt × TrailRecord)}

theorem Logged.rotate (h : Logged acc) : Logged (acc.1.rotate.1, acc.2) := by
  obtain ⟨closed, active, hs, hloc, hseq⟩ := h
  refine ⟨closed ++ [active], [], hs.rotate, ?_, hseq⟩
  rw [locate_append, hloc]
  exact append_nil _

theorem Logged.append (h : Logged acc) {entry : List UInt8} (hash : ChainHash)
    (hshort : entry.length < 2 ^ 32) : Logged (apply acc (.append entry hash)) := by
  obtain ⟨closed, active, hs, hloc, hseq⟩ := h
  have hlen : (closed ++ [active]).flatten.length = acc.2.length := by
    rw [← map_locate trailFormat, hloc, length_map, length_map]
  have hwritten := hs.written (show Short (entry, hash) from hshort)
  have hlog : Logged (acc.1.written (entry, hash), acc.2 ++
      [(⟨acc.1.activeSegment, acc.1.activeSize, acc.1.sequenceCounter + 1⟩, entry, hash)]) := by
    refine ⟨closed, active ++ [(entry, hash)], hwritten, ?_, ?_⟩
    · rw [map_append, ← hloc, locate_append, locate_append, locate,
        locate, located_append, map_append]
      simp [located, locate, hs.segment, hs.size]
    · rw [map_append, hseq, length_append, length_singleton, range_succ,
        map_append, hs.counter, hlen]
      rfl
  have happ : apply acc (.append entry hash) =
      (if (acc.1.written (entry, hash)).activeSize ≥ acc.1.maxSegmentSize then
        (acc.1.written (entry, hash)).rotate.1 else acc.1.written (entry, hash),
      acc.2 ++ [(⟨acc.1.activeSegment, acc.1.activeSize, acc.1.sequenceCounter + 1⟩,
        entry, hash)]) := rfl
  rw [happ]
  split
  · exact hlog.rotate
  · exact hlog

theorem maxSegmentSize_apply (acc : FileTrailStorage × List (WriteReceipt × TrailRecord))
    (op : Op) : (apply acc op).1.maxSegmentSize = acc.1.maxSegmentSize := by
  cases op with
  | rotate => rfl
  | append =>
    show (if _ then _ else _ : FileTrailStorage).maxSegmentSize = _
    split <;> rfl

theorem logged_run {ops : List Op}
    (hshort : ∀ entry hash, .append entry hash ∈ ops → entry.length < 2 ^ 32) (h : Logged acc) :
    Logged (ops.foldl apply acc) ∧
    (ops.foldl apply acc).2.map Prod.snd = acc.2.map Prod.snd ++ appended ops ∧
    (ops.foldl apply acc).1.maxSegmentSize = acc.1.maxSegmentSize := by
  induction ops generalizing acc with
  | nil => exact ⟨h, (append_nil _).symm, rfl⟩
  | cons op ops ih =>
    have hrest : ∀ entry hash, .append entry hash ∈ ops → entry.length < 2 ^ 32 :=
      fun entry hash hmem => hshort entry hash (mem_cons_of_mem _ hmem)
    have hmax := maxSegmentSize_apply acc op
    cases op with
    | rotate =>
      obtain ⟨hlog, hmap, hsize⟩ := ih hrest h.rotate
      exact ⟨hlog, hmap, hsize.trans hmax⟩
    | append entry hash =>
      have hstep := h.append hash (hshort entry hash mem_cons_self)
      obtain ⟨hlog, hmap, hsize⟩ := ih hrest hstep
      refine ⟨hlog, hmap.trans ?_, hsize.trans hmax⟩
      show (acc.2 ++ [_]).map Prod.snd ++ appended ops = _
      rw [map_append, append_assoc]
      rfl

/-- **The trail is the log of its appends**, after any appends of entries shorter than 2^32 bytes
and any rotations: scanning yields them in order, each where its receipt says; reading there returns
it; receipts are numbered from 1; and opening again gives the same storage. -/
theorem trail_log_of_run (maxSegmentSize : ℕ) (ops : List Op)
    (hshort : ∀ entry hash, .append entry hash ∈ ops → entry.length < 2 ^ 32) :
    ∃ s₀ s log, openTrail { dir := ∅, maxSegmentSize := maxSegmentSize } = .ok s₀ ∧
      ops.foldl apply (s₀, []) = (s, log) ∧
      log.map Prod.snd = appended ops ∧
      s.scanAll = .ok (log.map fun entry => (entry.1.segment, entry.1.offset, entry.2)) ∧
      (∀ entry ∈ log, ∀ length, s.read entry.1.segment entry.1.offset length = .ok entry.2.1) ∧
      log.map (·.1.sequence) = (range log.length).map (· + 1) ∧
      openTrail { dir := s.dir, maxSegmentSize := maxSegmentSize } = .ok s := by
  have hlog₀ : Logged (fresh maxSegmentSize, []) := ⟨[], [], holds_fresh, rfl, rfl⟩
  obtain ⟨hlog, hmap, hmax⟩ := logged_run hshort hlog₀
  obtain ⟨closed, active, hs, hloc, hseq⟩ := hlog
  refine ⟨_, (ops.foldl apply (fresh maxSegmentSize, [])).1,
    (ops.foldl apply (fresh maxSegmentSize, [])).2, openTrail_fresh, rfl, hmap,
    ?_, ?_, hseq, ?_⟩
  · rw [hs.scanAll, hloc]
  · intro entry hentry length
    have hmem : (entry.1.segment, entry.1.offset, entry.2) ∈
        trailFormat.locate 0 (closed ++ [active]) := by
      rw [hloc]
      exact mem_map.mpr ⟨entry, hentry, rfl⟩
    exact hs.read hmem length
  · have hreopen := hs.openTrail
    rwa [show (ops.foldl apply (fresh maxSegmentSize, [])).1.maxSegmentSize = maxSegmentSize from
      hmax] at hreopen

theorem trail_log_of_three_appends :
    ∃ s₀ s log, openTrail { dir := ∅, maxSegmentSize := 40 } = .ok s₀ ∧
      [Op.append [1, 2, 3, 4] .genesis, .rotate, .append [] .genesis,
        .append [5] .genesis].foldl apply (s₀, []) = (s, log) ∧
      log.map Prod.snd = [([1, 2, 3, 4], .genesis), ([], .genesis), ([5], .genesis)] ∧
      openTrail { dir := s.dir, maxSegmentSize := 40 } = .ok s := by
  obtain ⟨s₀, s, log, hopen, hrun, hmap, -, -, -, hreopen⟩ := trail_log_of_run 40
    [.append [1, 2, 3, 4] .genesis, .rotate, .append [] .genesis, .append [5] .genesis] (by
      intro entry hash hmem
      simp only [mem_cons, Op.append.injEq, reduceCtorEq, not_mem_nil, or_false, false_or] at hmem
      rcases hmem with ⟨rfl, -⟩ | ⟨rfl, -⟩ | ⟨rfl, -⟩ <;> decide)
  exact ⟨s₀, s, log, hopen, hrun, hmap, hreopen⟩

end FileTrailStorage

end Wacp
