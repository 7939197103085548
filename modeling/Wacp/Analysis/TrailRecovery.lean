import Mathlib.Algebra.Order.BigOperators.Group.List
import Mathlib.Algebra.Order.Group.Nat
import Wacp.Analysis.TrailLog

/-!
# Recovery after a crash

A crash leaves some bytes of the last segment. `recover` cuts off what is no complete entry, by a
loop that reads the same entries as `scan`, if their lengths fit into four bytes.
-/

namespace Wacp

open Library List Format FileTrailStorage List

/-! ## Two loops over the same entries -/

/-- **The truncating loop sees the entries that a scan sees.** -/
theorem entryEnd_eq (data : List UInt8) (pos : ℕ) :
    entryEnd data pos = (nextEntry data pos).map Prod.snd := by
  unfold entryEnd nextEntry
  by_cases hpos : pos + 4 ≤ data.length
  · rw [if_pos hpos, if_pos hpos]
    cases readExact data pos 4 with
    | none => rfl
    | some lenBuf =>
      simp only
      by_cases hfit : pos + 4 + beValue lenBuf + 32 > data.length
      · rw [if_pos hfit, if_pos hfit]
        rfl
      · have hentry : readExact data (pos + 4) (beValue lenBuf) =
            some ((data.drop (pos + 4)).take (beValue lenBuf)) := by
          rw [readExact, if_pos (by omega)]
        have hhash : ∃ hash, readHash data (pos + 4 + beValue lenBuf) = some hash := by
          rw [readHash, dif_pos (by omega)]
          exact ⟨_, rfl⟩
        obtain ⟨hash, hhash⟩ := hhash
        rw [if_neg hfit, if_neg hfit, hentry]
        simp [hhash]
  · rw [if_neg hpos, if_neg hpos]
    rfl

theorem validEndLoop_eq (data : List UInt8) (fuel pos : ℕ) :
    validEndLoop data fuel pos pos = trailFormat.stop data fuel pos := by
  induction fuel generalizing pos with
  | zero => rfl
  | succ fuel ih =>
    have hnext : trailFormat.next data pos = nextEntry data pos := rfl
    rw [validEndLoop, stop, hnext, entryEnd_eq]
    cases nextEntry data pos with
    | none => rfl
    | some next => exact ih next.2

/-! ## Entries that are cut off -/

theorem whole_of_short {record : TrailRecord} (h : Short record) : trailFormat.Whole record := by
  intro before n hn
  show nextEntry (before ++ (frame record).take n) before.length = none
  have hn' : n < entryOverhead + record.1.length := by
    rw [← length_frame]
    exact hn
  have hsize : (before ++ (frame record).take n).length = before.length + n := by
    rw [length_append, length_take, length_frame]
    omega
  unfold nextEntry
  by_cases hfour : 4 ≤ n
  · -- the length is there, and says that more bytes follow than there are
    have hbuf : readExact (before ++ (frame record).take n) before.length 4 =
        some (beBytes 4 (record.1.length % 2 ^ 32)) := by
      have hframe : (frame record).take n =
          beBytes 4 (record.1.length % 2 ^ 32) ++ (record.1 ++ record.2.bytes).take (n - 4) := by
        rw [frame, append_assoc, take_append, length_beBytes,
          take_of_length_le (by simpa using hfour)]
      have hread := readExact_append before (beBytes 4 (record.1.length % 2 ^ 32))
        ((record.1 ++ record.2.bytes).take (n - 4))
      rw [length_beBytes] at hread
      rw [hframe, ← append_assoc]
      exact hread
    have hvalue : beValue (beBytes 4 (record.1.length % 2 ^ 32)) = record.1.length := by
      have hlt : record.1.length < 2 ^ 32 := h
      rw [beValue_beBytes]
      omega
    rw [entryOverhead] at hn'
    rw [if_pos (by omega), hbuf]
    simp only [hvalue]
    rw [if_pos (by omega)]
  · rw [if_neg (by omega)]

/-- **Truncating leaves the complete records** and removes a cut-off entry. -/
theorem truncatePartialTail_take {records : List TrailRecord}
    (hshort : ∀ record ∈ records, Short record) (n : ℕ) :
    truncatePartialTail ((trailFormat.write records).take n) =
      trailFormat.write (trailFormat.fitting n records) := by
  obtain ⟨rest, htake, hrest⟩ := trailFormat.take_write n records
  have hread : ∀ record ∈ trailFormat.fitting n records, trailFormat.Readable record :=
    fun record hmem => readable_of_short (hshort record (mem_of_mem_fitting hmem))
  have hend : trailFormat.next (trailFormat.write (trailFormat.fitting n records) ++ rest)
      (trailFormat.write (trailFormat.fitting n records)).length = none := by
    rcases hrest with rfl | ⟨record, hmem, m, hm, rfl⟩
    · rw [append_nil]
      exact nextEntry_end _
    · exact whole_of_short (hshort record hmem) _ m hm
  have hfuel : (trailFormat.fitting n records).length <
      (trailFormat.write (trailFormat.fitting n records) ++ rest).length + 1 := by
    have hle := length_le_write (trailFormat.fitting n records)
    rw [length_append]
    omega
  have hstop := stop_write hread [] rest hend hfuel
  rw [nil_append, length_nil] at hstop
  unfold truncatePartialTail
  simp only [htake, validEndLoop_eq, hstop]
  split
  · exact take_left
  · next hlast =>
      have hnil : rest = [] := by
        rw [length_append] at hlast
        exact length_eq_zero_iff.mp (by omega)
      rw [hnil, append_nil]

theorem truncatePartialTail_write {records : List TrailRecord}
    (hshort : ∀ record ∈ records, Short record) :
    truncatePartialTail (trailFormat.write records) = trailFormat.write records := by
  have htrunc := truncatePartialTail_take hshort (trailFormat.write records).length
  rwa [take_length, fitting_of_length_le _ (Nat.le_refl _)] at htrunc

/-! ## The storage after recovery -/

namespace FileTrailStorage

variable {s : FileTrailStorage} {closed : List (List TrailRecord)} {active : List TrailRecord}

/-- A crash leaves the first `n` bytes of the last segment. -/
def crash (s : FileTrailStorage) (n : ℕ) : TrailDirectory :=
  s.dir.modify s.activeSegment (·.take n)

def withActive (s : FileTrailStorage) (closed : List (List TrailRecord))
    (records : List TrailRecord) : FileTrailStorage :=
  { s with
    dir := s.dir.modify s.activeSegment fun _ => trailFormat.write records
    activeSize := (trailFormat.write records).length
    sequenceCounter := (closed ++ [records]).flatten.length
    chainHead := headOf (closed ++ [records]).flatten }

section

variable (h : s.Holds closed active) {records : List TrailRecord}
  (hshort : ∀ record ∈ records, Short record)
include h hshort

theorem Holds.withActive : (s.withActive closed records).Holds closed records := by
  refine ⟨h.segment, h.get_modify rfl, rfl, rfl, rfl, ?_⟩
  intro seg hseg record hrecord
  rcases mem_append.mp hseg with hseg | hseg
  · exact h.short seg (mem_append_left _ hseg) record hrecord
  · rw [mem_singleton.mp hseg] at hrecord
    exact hshort record hrecord

theorem Holds.recover_modify {f : List UInt8 → List UInt8}
    (hf : truncatePartialTail (f (trailFormat.write active)) = trailFormat.write records) :
    recover { dir := s.dir.modify s.activeSegment f, maxSegmentSize := s.maxSegmentSize } =
      .ok (s.withActive closed records) := by
  have hlist : listSegments (s.dir.modify s.activeSegment f) =
      range (s.activeSegment + 1) := by
    apply listSegments_eq
    intro i
    rw [Table.get_modify, ← h.isSome_get]
    split
    · rw [Option.isSome_map]
    · rfl
  have hlast : (range (s.activeSegment + 1)).getLast? = some s.activeSegment := by
    rw [range_succ, getLast?_concat]
  have hdir : (s.dir.modify s.activeSegment f).modify s.activeSegment truncatePartialTail =
      (s.withActive closed records).dir := by
    apply Table.ext
    intro i
    have hfile : (s.dir.modify s.activeSegment fun _ => trailFormat.write records).get i =
        ((closed ++ [records])[i]?).map trailFormat.write := h.get_modify rfl i
    rw [← h.get_modify (f := truncatePartialTail ∘ f) hf i] at hfile
    show _ = (s.dir.modify s.activeSegment fun _ => trailFormat.write records).get i
    rw [hfile, Table.get_modify, Table.get_modify, Table.get_modify]
    split
    · rw [Option.map_map]
    · rfl
  simp only [recover, hlist, hlast, hdir]
  exact (h.withActive hshort).openTrail

end

theorem Holds.recover_crash (h : s.Holds closed active) (n : ℕ) :
    recover { dir := s.crash n, maxSegmentSize := s.maxSegmentSize } =
        .ok (s.withActive closed (trailFormat.fitting n active)) ∧
      (s.withActive closed (trailFormat.fitting n active)).Holds closed
        (trailFormat.fitting n active) := by
  have hactive : ∀ record ∈ active, Short record := h.short active (by simp)
  have hfitting : ∀ record ∈ trailFormat.fitting n active, Short record :=
    fun record hmem => hactive record (mem_of_mem_fitting hmem)
  exact ⟨h.recover_modify hfitting (truncatePartialTail_take hactive n), h.withActive hfitting⟩

theorem Holds.recover (h : s.Holds closed active) :
    recover { dir := s.dir, maxSegmentSize := s.maxSegmentSize } = .ok s := by
  have hactive : ∀ record ∈ active, Short record := h.short active (by simp)
  have hrec := h.recover_modify hactive (f := id) (truncatePartialTail_write hactive)
  have hid : s.dir.modify s.activeSegment id = s.dir := by
    apply Table.ext
    intro i
    rw [Table.get_modify, Option.map_id, id, ite_self]
  have hsame : s.withActive closed active = s := by
    have hopen := (h.withActive hactive).openTrail
    have hdir : (s.withActive closed active).dir = s.dir := by
      apply Table.ext
      intro i
      rw [h.file]
      exact h.get_modify rfl i
    rw [hdir] at hopen
    exact Except.ok.inj (hopen.symm.trans h.openTrail)
  rwa [hid, hsame] at hrec

/-! ## The entries that survive -/

def place (entry : WriteReceipt × TrailRecord) : ℕ × ScannedEntry :=
  (entry.1.segment, entry.1.offset, entry.2)

def survives (s : FileTrailStorage) (n : ℕ) (entry : WriteReceipt × TrailRecord) : Bool :=
  decide (entry.1.segment < s.activeSegment ∨ entry.1.offset + (frame entry.2).length ≤ n)

variable {log : List (WriteReceipt × TrailRecord)}

theorem Holds.filter_survives (h : s.Holds closed active)
    (hloc : trailFormat.locate 0 (closed ++ [active]) = log.map place) (n : ℕ) :
    ∃ log₁ log₂, log = log₁ ++ log₂ ∧ log₁.map place = trailFormat.locate 0 closed ∧
      log₂.map place = (trailFormat.located 0 active).map (fun entry => (closed.length, entry)) ∧
      log.filter (s.survives n) = log₁ ++ log₂.take (trailFormat.fitting n active).length := by
  rw [locate_append, locate, locate, append_nil, Nat.zero_add] at hloc
  obtain ⟨log₁, log₂, hlog, h₁, h₂⟩ := map_eq_append_iff.mp hloc.symm
  refine ⟨log₁, log₂, hlog, h₁, h₂, ?_⟩
  have hkept₁ : log₁.filter (s.survives n) = log₁ := by
    rw [filter_eq_self]
    intro entry hentry
    have hmem : (entry.1.segment, entry.1.offset, entry.2) ∈ trailFormat.locate 0 closed := by
      rw [← h₁]
      exact mem_map_of_mem hentry
    obtain ⟨k, seg, hk, hseg, -⟩ := mem_located_of_mem_locate _ hmem
    have hlt := (List.getElem?_eq_some_iff.mp hseg).1
    have hactive := h.segment
    exact decide_eq_true (.inl (by omega))
  have hpos : log₂.map (fun entry => (entry.1.offset, entry.2)) = trailFormat.located 0 active := by
    have hsnd := congrArg (List.map Prod.snd) h₂
    rw [List.map_map, List.map_map] at hsnd
    exact hsnd.trans (List.map_id _)
  have hkept₂ : log₂.filter (s.survives n) =
      log₂.take (trailFormat.fitting n active).length := by
    rw [← filter_eq_take_fitting _ hpos n]
    apply filter_congr
    intro entry hentry
    have hmem : place entry ∈
        (trailFormat.located 0 active).map (fun entry => (closed.length, entry)) := by
      rw [← h₂]
      exact mem_map_of_mem hentry
    obtain ⟨x, -, hx⟩ := mem_map.mp hmem
    have hseg : entry.1.segment = closed.length := (congrArg Prod.fst hx).symm
    have hactive := h.segment
    have hnot : ¬ entry.1.segment < s.activeSegment := by omega
    rw [survives, Nat.zero_add]
    simp only [hnot, false_or]
    rfl
  rw [hlog, filter_append, hkept₁, hkept₂]

theorem numbered_of_prefix {kept : List (WriteReceipt × TrailRecord)} (hkept : kept <+: log)
    (hseq : log.map (·.1.sequence) = (range log.length).map (· + 1)) :
    kept.map (·.1.sequence) = (range kept.length).map (· + 1) := by
  obtain ⟨rest, rfl⟩ := hkept
  rw [map_append, length_append, range_add, map_append] at hseq
  exact (append_inj hseq (by simp)).1

/-- **The log of the survivors**: they are where their receipts say. -/
theorem Holds.logged_survivors (h : s.Holds closed active)
    (hloc : trailFormat.locate 0 (closed ++ [active]) = log.map place)
    (hseq : log.map (·.1.sequence) = (range log.length).map (· + 1)) (n : ℕ) :
    trailFormat.locate 0 (closed ++ [trailFormat.fitting n active]) =
        (log.filter (s.survives n)).map place ∧
      (log.filter (s.survives n)).map (·.1.sequence) =
        (range (log.filter (s.survives n)).length).map (· + 1) := by
  obtain ⟨log₁, log₂, hlog, h₁, h₂, hkept⟩ := h.filter_survives hloc n
  constructor
  · rw [hkept, map_append, map_take, h₁, h₂, locate_append, locate,
      locate, append_nil, Nat.zero_add, ← map_take, ← located_take,
      take_fitting]
  · apply numbered_of_prefix _ hseq
    rw [hkept, hlog]
    exact prefix_append_right_inj _ |>.mpr ( take_prefix _ _)

variable {data : List UInt8}

theorem Holds.file_of_log (h : s.Holds closed active)
    (hloc : trailFormat.locate 0 (closed ++ [active]) = log.map place) {i : ℕ}
    (hdata : s.dir.get i = some data) :
    data = (log.filter fun entry => decide (entry.1.segment = i)).flatMap
      fun entry => frame entry.2 := by
  rw [h.file] at hdata
  obtain ⟨seg, hseg, rfl⟩ := Option.map_eq_some_iff.mp hdata
  have hrecords := filter_locate trailFormat 0 i (closed ++ [active])
  rw [hloc, hseg, filter_map, map_map, Nat.zero_add] at hrecords
  show seg.flatMap frame = _
  rw [← show _ = seg from hrecords, flatMap_map]
  rfl

/-! ## Entries that are too long -/

theorem short_of_nextEntry {pos pos' : ℕ} {record : TrailRecord}
    (h : nextEntry data pos = some (record, pos')) : Short record := by
  have hread : ∀ {n : ℕ} {bytes : List UInt8} {p : ℕ}, readExact data p n = some bytes →
      bytes.length = n := by
    intro n bytes p hbytes
    unfold readExact at hbytes
    split_ifs at hbytes with hfit
    cases hbytes
    rw [length_take, length_drop]
    omega
  unfold nextEntry at h
  split_ifs at h with hpos
  cases hbuf : readExact data pos 4 with
  | none =>
    rw [hbuf] at h
    cases h
  | some lenBuf =>
    simp only [hbuf] at h
    split_ifs at h with hfit
    cases hentry : readExact data (pos + 4) (beValue lenBuf) with
    | none =>
      rw [hentry] at h
      cases h
    | some entry =>
      simp only [hentry] at h
      cases hhash : readHash data (pos + 4 + beValue lenBuf) with
      | none =>
        rw [hhash] at h
        cases h
      | some =>
        rw [hhash] at h
        cases h
        have hlt := beValue_lt lenBuf
        rw [hread hbuf] at hlt
        show entry.length < 2 ^ 32
        rw [hread hentry]
        exact hlt

theorem short_of_scanLoop {fuel pos : ℕ} {results : List ScannedEntry}
    (hresults : ∀ entry ∈ results, Short entry.2) :
    ∀ entry ∈ scanLoop data fuel pos results, Short entry.2 := by
  induction fuel generalizing pos results with
  | zero => exact hresults
  | succ fuel ih =>
    rw [scanLoop]
    cases hnext : nextEntry data pos with
    | none => exact hresults
    | some =>
      refine ih ?_
      intro entry hentry
      rcases mem_append.mp hentry with hentry | hentry
      · exact hresults entry hentry
      · rw [mem_singleton.mp hentry]
        exact short_of_nextEntry hnext

theorem short_of_scanAll {found : List (ℕ × ScannedEntry)} (h : s.scanAll = .ok found) :
    ∀ entry ∈ found, Short entry.2.2 := by
  have hloop : ∀ (ids : List ℕ) (found found' : List (ℕ × ScannedEntry)),
      (∀ entry ∈ found, Short entry.2.2) →
      ids.foldlM (fun found i => (s.scan i 0).map fun entries =>
        found ++ entries.map fun entry => (i, entry)) found = .ok found' →
      ∀ entry ∈ found', Short entry.2.2 := by
    intro ids
    induction ids with
    | nil =>
      intro found found' hfound h
      cases h
      exact hfound
    | cons i ids ih =>
      intro found found' hfound h
      rw [foldlM_cons] at h
      unfold scan scanSegmentFileFrom at h
      cases hdata : s.dir.get i with
      | none =>
        rw [hdata] at h
        cases h
      | some =>
        rw [hdata] at h
        refine ih _ found' ?_ h
        intro entry hentry
        rcases mem_append.mp hentry with hentry | hentry
        · exact hfound entry hentry
        · obtain ⟨x, hx, rfl⟩ := mem_map.mp hentry
          exact short_of_scanLoop (by simp) x hx
  exact hloop _ [] found (by simp) h

/-! ## Every crash -/

/-- The survivors where their receipts say, with their number and last hash; no other bytes; a trail
that logs later appends; and nothing left to recover. -/
structure RecoversTo (maxSegmentSize : ℕ) (s : FileTrailStorage)
    (log : List (WriteReceipt × TrailRecord)) (n : ℕ) (later : List Op) (r : FileTrailStorage) :
    Prop where
  opened : recover { dir := s.crash n, maxSegmentSize := maxSegmentSize } = .ok r
  scanned : r.scanAll = .ok ((log.filter (s.survives n)).map place)
  counter : r.sequenceCounter = (log.filter (s.survives n)).length
  head : r.chainHead = headOf ((log.filter (s.survives n)).map Prod.snd)
  bytes : ∀ i data, r.dir.get i = some data →
    data = ((log.filter (s.survives n)).filter fun entry =>
      decide (entry.1.segment = i)).flatMap fun entry => frame entry.2
  later : ∀ s' log', later.foldl apply (r, log.filter (s.survives n)) = (s', log') →
    s'.scanAll = .ok (log'.map place) ∧
      log'.map Prod.snd = (log.filter (s.survives n)).map Prod.snd ++ appended later
  again : recover { dir := r.dir, maxSegmentSize := maxSegmentSize } = .ok r

/-- So after a run on a fresh trail and a crash that leaves `n` bytes of the last segment. -/
def Recovers (maxSegmentSize : ℕ) (ops later : List Op) (n : ℕ) : Prop :=
  ∃ s₀ s log r, openTrail { dir := ∅, maxSegmentSize := maxSegmentSize } = .ok s₀ ∧
    ops.foldl apply (s₀, []) = (s, log) ∧ log.map Prod.snd = appended ops ∧
    RecoversTo maxSegmentSize s log n later r

variable {later : List Op}

theorem recoversTo_of_logged
    (hlater : ∀ entry hash, .append entry hash ∈ later → entry.length < 2 ^ 32)
    (hlog : Logged (s, log)) (n : ℕ) : ∃ r, RecoversTo s.maxSegmentSize s log n later r := by
  obtain ⟨closed, active, hs, hloc, hseq⟩ := hlog
  obtain ⟨hopen, hr⟩ := hs.recover_crash n
  obtain ⟨hloc', hseq'⟩ := hs.logged_survivors hloc hseq n
  have hflat : (closed ++ [trailFormat.fitting n active]).flatten =
      (log.filter (s.survives n)).map Prod.snd := by
    rw [← map_locate trailFormat, hloc', map_map]
    rfl
  refine ⟨_, hopen, ?_, ?_, ?_, fun i data => hr.file_of_log hloc', ?_, hr.recover⟩
  · rw [hr.scanAll, hloc']
  · rw [hr.counter, hflat, length_map]
  · rw [hr.head, hflat]
  · intro s' log' hrun
    have hkept : Logged (s.withActive closed (trailFormat.fitting n active),
        log.filter (s.survives n)) := ⟨_, _, hr, hloc', hseq'⟩
    obtain ⟨⟨closed', active', hs', hloc'', -⟩, hmap, -⟩ := logged_run hlater hkept
    rw [hrun] at hs' hloc'' hmap
    exact ⟨by rw [hs'.scanAll, hloc'']; rfl, hmap⟩

variable {maxSegmentSize : ℕ}

theorem RecoversTo.short {n : ℕ} {r : FileTrailStorage}
    (h : RecoversTo maxSegmentSize s log n later r) :
    (∀ entry ∈ log.filter (s.survives n), Short entry.2) ∧
      ∀ record ∈ appended later, Short record := by
  constructor
  · intro entry hentry
    exact short_of_scanAll h.scanned _ (mem_map_of_mem hentry)
  · intro record hrecord
    obtain ⟨hscan, hmap⟩ := h.later _ _ rfl
    have hmem : record ∈ (later.foldl apply (r, log.filter (s.survives n))).2.map Prod.snd := by
      rw [hmap]
      exact mem_append_right _ hrecord
    obtain ⟨entry, hentry, rfl⟩ := mem_map.mp hmem
    exact short_of_scanAll hscan _ (mem_map_of_mem hentry)

variable {entry : List UInt8} {hash : ChainHash}

theorem mem_appended {ops : List Op} : (entry, hash) ∈ appended ops ↔ .append entry hash ∈ ops := by
  unfold appended
  rw [mem_filterMap]
  constructor
  · rintro ⟨op, hop, heq⟩
    cases op with
    | append =>
      cases heq
      exact hop
    | rotate => cases heq
  · intro hop
    exact ⟨_, hop, rfl⟩

theorem short_of_recovers {ops : List Op} (h : ∀ n, Recovers maxSegmentSize ops later n)
    (hmem : .append entry hash ∈ ops ++ later) : entry.length < 2 ^ 32 := by
  obtain ⟨s₀, s, log, r, hopen, hrun, -, -⟩ := h 0
  -- so many bytes that every logged record survives
  obtain ⟨s₀', s', log', r', hopen', hrun', hmap, hrec⟩ :=
    h (log.map fun entry => entry.1.offset + (frame entry.2).length).sum
  have hsame : s₀' = s₀ := Except.ok.inj (hopen'.symm.trans hopen)
  rw [hsame, hrun] at hrun'
  cases hrun'
  have hall : log.filter (s.survives
      (log.map fun entry => entry.1.offset + (frame entry.2).length).sum) = log := by
    rw [filter_eq_self]
    intro entry hentry
    exact decide_eq_true (.inr (le_sum_of_mem (mem_map_of_mem hentry)))
  obtain ⟨hlog, hlater⟩ := hrec.short
  rw [hall] at hlog
  rcases mem_append.mp hmem with hmem | hmem
  · have hrecord : (entry, hash) ∈ log.map Prod.snd := by
      rw [hmap]
      exact mem_appended.mpr hmem
    obtain ⟨x, hx, heq⟩ := mem_map.mp hrecord
    have hshort := hlog x hx
    rw [heq] at hshort
    exact hshort
  · exact hlater _ (mem_appended.mpr hmem)

/-- **Recovery is exact for short entries**: for every run, crash and continuation exactly when all
entries are shorter than 2^32 bytes. -/
theorem recovery_exact_iff (maxSegmentSize : ℕ) (ops later : List Op) :
    (∀ n, Recovers maxSegmentSize ops later n) ↔
      ∀ entry hash, .append entry hash ∈ ops ++ later → entry.length < 2 ^ 32 := by
  constructor
  · exact fun h entry hash hmem => short_of_recovers h hmem
  · intro hshort n
    have hops : ∀ entry hash, .append entry hash ∈ ops → entry.length < 2 ^ 32 :=
      fun entry hash hmem => hshort entry hash (mem_append_left _ hmem)
    have hlater : ∀ entry hash, .append entry hash ∈ later → entry.length < 2 ^ 32 :=
      fun entry hash hmem => hshort entry hash (mem_append_right _ hmem)
    have hlog₀ : Logged (fresh maxSegmentSize, []) :=
      ⟨[], [], holds_fresh, rfl, rfl⟩
    obtain ⟨hlog, hmap, hmax⟩ := logged_run hops hlog₀
    obtain ⟨r, hr⟩ := recoversTo_of_logged hlater hlog n
    rw [hmax] at hr
    exact ⟨_, _, _, r, openTrail_fresh, rfl, hmap, hr⟩

theorem not_recovers_of_long (hlong : 2 ^ 32 ≤ entry.length) :
    ¬ ∀ n, Recovers maxSegmentSize [.append entry hash] [] n := by
  intro h
  have hshort := short_of_recovers h (mem_append_left _ mem_cons_self)
  omega

/-- An entry of 2^32 bytes has the length zero, and is not recovered even from all its bytes. -/
theorem long_entry_not_recovered :
    ¬ ∀ n, Recovers (64 * 1024 * 1024) [.append (replicate (2 ^ 32) 0) .genesis] [] n :=
  not_recovers_of_long (Nat.le_of_eq length_replicate.symm)

end FileTrailStorage

end Wacp
