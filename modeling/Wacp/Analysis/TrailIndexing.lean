import Mathlib.Data.List.Induction
import Mathlib.Data.List.Perm.Basic
import Wacp.Model.EventTrail

/-!
# Queries over several starts of the runtime

The index keeps its rows over restarts while the counter begins at zero again, and drops an
insertion under a taken number. So all is returned exactly if no number was given twice; bodies
never are.
-/

namespace Wacp

open Library List Table Table

/-! ## Pages of the index -/

namespace TrailIndex

def Keyed (index : TrailIndex) : Prop := ∀ k row, index.get k = some row → row.sequenceNumber = k

inductive Built : TrailIndex → Prop
  | empty : Built ∅
  | insert {index index' : TrailIndex} (entry : IndexEntry) (h : Built index)
      (hok : index.insert entry = .ok index') : Built index'

def matching (index : TrailIndex) (q : TrailQuery) : List IndexEntry :=
  index.rows.filter (admits q)

variable {index : TrailIndex} {q : TrailQuery}

theorem mem_rows (index : TrailIndex) (row : IndexEntry) :
    row ∈ index.rows ↔ ∃ k, index.get k = some row := by
  unfold rows
  rw [mem_filterMap]
  constructor
  · rintro ⟨k, -, hk⟩
    exact ⟨k, hk⟩
  · rintro ⟨k, hk⟩
    refine ⟨k, ?_, hk⟩
    rw [Finset.mem_sort, Table.mem_keys]
    exact ⟨row, hk⟩

theorem Keyed.map_rows (h : index.Keyed) : index.rows.map (·.sequenceNumber) = index.keys.sort := by
  have hkey : ∀ k ∈ index.keys.sort, (index.get k).map (·.sequenceNumber) = some k := by
    intro k hk
    rw [Finset.mem_sort, Table.mem_keys] at hk
    obtain ⟨row, hrow⟩ := hk
    rw [hrow, Option.map_some, h k row hrow]
  unfold rows
  rw [map_filterMap]
  generalize index.keys.sort = keys at hkey ⊢
  induction keys with
  | nil => rfl
  | cons k keys ih =>
    simp only [filterMap_cons, hkey k mem_cons_self]
    rw [ih fun k' hk' => hkey k' (mem_cons_of_mem _ hk')]

theorem Built.keyed (h : Built index) : index.Keyed := by
  induction h with
  | empty => simp [Keyed]
  | insert entry h hok ih =>
    intro k row hrow
    unfold TrailIndex.insert at hok
    split_ifs at hok
    cases hok
    rw [get_set] at hrow
    split_ifs at hrow with hk
    · rw [← Option.some.inj hrow, hk]
    · exact ih k row hrow

/-- No row where the number to fetch wraps around to 0. -/
theorem query_eq (hlimit : q.limit < 2 ^ 32) : index.query q =
      if q.limit = 0 then ⟨(index.matching q).take 100, decide (100 < (index.matching q).length)⟩
      else if q.limit + 1 = 2 ^ 32 then ⟨[], false⟩
      else ⟨(index.matching q).take q.limit, decide (q.limit < (index.matching q).length)⟩ := by
  -- cutting at the limit is what `has_more` is for
  have hcut : ∀ (n : ℕ) (l : List IndexEntry),
      (⟨if decide ((l.take (n + 1)).length > n) then (l.take (n + 1)).take n else l.take (n + 1),
        decide ((l.take (n + 1)).length > n)⟩ : QueryResult) =
      ⟨l.take n, decide (n < l.length)⟩ := by
    intro n l
    have hmore : (l.take (n + 1)).length > n ↔ n < l.length := by
      rw [length_take]
      omega
    simp only [hmore, decide_eq_true_eq, take_take, Nat.min_eq_left (Nat.le_succ n)]
    split_ifs with h
    · rfl
    · rw [take_of_length_le (by omega), take_of_length_le (by omega)]
  unfold query
  by_cases hzero : q.limit = 0
  · simp only [hzero, if_true]
    exact hcut 100 _
  · simp only [hzero, if_false]
    by_cases hmax : q.limit + 1 = 2 ^ 32
    · simp [hmax]
    · rw [Nat.mod_eq_of_lt (by omega), if_neg hmax]
      exact hcut q.limit _

def sampleRow : IndexEntry := ⟨1, [], none, "protocol", "Error", 0, 0, 0⟩

end TrailIndex

namespace EventTrail

inductive Op where
  | start
  | event (event : WorkspaceEvent)

section Runs

variable (jsonText : JsonValue → List UInt8)

def apply (r : EventTrail) : Op → EventTrail
  | .start => r.start
  | .event event => r.fanOutEvent jsonText event

def run (ops : List Op) : EventTrail :=
  ops.foldl (apply jsonText)
    { trailIndex := ∅, escalationIndex := ∅, streamSeq := 0, emitted := [] }

def withoutBody (entry : TrailEntry) : TrailEntry := { entry with body := [] }

/-- A row for every emitted number, each that of an entry emitted under its key. -/
structure Indexed (r : EventTrail) : Prop where
  row : ∀ k row, r.trailIndex.get k = some row →
    ∃ entry ∈ r.emitted, entry.sequenceNumber = k ∧ row = rowOf entry
  present : ∀ entry ∈ r.emitted, r.trailIndex.contains entry.sequenceNumber
  named : ∀ entry ∈ r.emitted, entry.id = "te-" ++ toString entry.sequenceNumber

def newEntry (r : EventTrail) (workspaceId eventType : String) (body : List UInt8) : TrailEntry :=
  { id := "te-" ++ toString (r.streamSeq + 1), workspaceId := workspaceId, actor := "protocol"
    eventType := eventType, body := body, sequenceNumber := r.streamSeq + 1 }

theorem emitTrailEntry_eq (r : EventTrail) (workspaceId eventType : String) (body : List UInt8) :
    r.emitTrailEntry workspaceId eventType body =
      { r with
        streamSeq := r.streamSeq + 1
        trailIndex :=
          if r.trailIndex.contains (r.streamSeq + 1) then r.trailIndex
          else r.trailIndex.set (r.streamSeq + 1)
            (rowOf (newEntry r workspaceId eventType body))
        emitted := r.emitted ++ [newEntry r workspaceId eventType body] } := by
  by_cases htaken : r.trailIndex.contains (r.streamSeq + 1)
  · simp [emitTrailEntry, TrailIndex.insert, rowOf, newEntry, htaken]
  · simp only [emitTrailEntry, TrailIndex.insert, rowOf, newEntry, htaken, Bool.false_eq_true,
      if_false]
    rfl

theorem Indexed.emitTrailEntry {r : EventTrail} (h : Indexed r) (workspaceId eventType : String)
    (body : List UInt8) : Indexed (r.emitTrailEntry workspaceId eventType body) := by
  rw [emitTrailEntry_eq]
  -- whether or not the number is taken, the old rows stay and the number has a row afterwards
  have hrow : ∀ k row, (if r.trailIndex.contains (r.streamSeq + 1) then r.trailIndex
      else r.trailIndex.set (r.streamSeq + 1)
        (rowOf (newEntry r workspaceId eventType body))).get k = some row →
      r.trailIndex.get k = some row ∨
        (k = r.streamSeq + 1 ∧ row = rowOf (newEntry r workspaceId eventType body)) := by
    intro k row hget
    split_ifs at hget
    · exact .inl hget
    · rw [get_set] at hget
      split_ifs at hget with hk
      · exact .inr ⟨hk, (Option.some.inj hget).symm⟩
      · exact .inl hget
  have hkeep : ∀ k, r.trailIndex.contains k ∨ k = r.streamSeq + 1 →
      (if r.trailIndex.contains (r.streamSeq + 1) then r.trailIndex
      else r.trailIndex.set (r.streamSeq + 1)
        (rowOf (newEntry r workspaceId eventType body))).contains k := by
    intro k hk
    split_ifs with htaken
    · rcases hk with hk | rfl
      · exact hk
      · exact htaken
    · rw [Table.contains, get_set]
      split_ifs with hnew
      · rfl
      · exact hk.resolve_right hnew
  refine ⟨?_, ?_, ?_⟩
  · intro k row hget
    rcases hrow k row hget with hget | ⟨rfl, rfl⟩
    · obtain ⟨entry, hentry, hkey, hrow⟩ := h.row k row hget
      exact ⟨entry, mem_append_left _ hentry, hkey, hrow⟩
    · exact ⟨_, mem_append_right _ mem_cons_self, rfl, rfl⟩
  · intro entry hentry
    rcases mem_append.mp hentry with hentry | hentry
    · exact hkeep _ (.inl (h.present entry hentry))
    · rw [mem_singleton.mp hentry]
      exact hkeep _ (.inr rfl)
  · intro entry hentry
    rcases mem_append.mp hentry with hentry | hentry
    · exact h.named entry hentry
    · rw [mem_singleton.mp hentry]
      rfl

theorem Indexed.indexEscalation {r : EventTrail} (h : Indexed r) (event : WorkspaceEvent) :
    Indexed (r.indexEscalation event) := by
  unfold EventTrail.indexEscalation
  split
  · split
    · exact ⟨h.row, h.present, h.named⟩
    · exact h
  · exact h

theorem indexed_run {ops : List Op} : Indexed (run jsonText ops) := by
  induction ops using List.reverseRecOn with
  | nil => exact ⟨by simp [run], by simp [run], by simp [run]⟩
  | append_singleton ops op ih =>
    rw [run, foldl_append]
    cases op with
    | start => exact ⟨ih.row, ih.present, ih.named⟩
    | event event => exact (ih.indexEscalation event).emitTrailEntry _ _ _

/-! ## The rows of a query -/

variable {r : EventTrail}

theorem Indexed.nodup_rows (h : Indexed r) : (r.trailIndex.rows.map (·.sequenceNumber)).Nodup := by
  have hkeyed : r.trailIndex.Keyed := by
    intro k row hrow
    obtain ⟨entry, -, hseq, rfl⟩ := h.row k row hrow
    exact hseq
  rw [hkeyed.map_rows]
  exact Finset.sort_nodup _ _

theorem entryOf_rowOf {entry : TrailEntry} (hid : entry.id = "te-" ++ toString entry.sequenceNumber) :
    entryOf (rowOf entry) = withoutBody entry := by
  have hws : (if entry.workspaceId = "" then none else some entry.workspaceId).getD "" =
      entry.workspaceId := by
    split_ifs with hempty
    · exact hempty.symm
    · rfl
  simp [entryOf, rowOf, withoutBody, hws, hid]

theorem Indexed.rows_perm (h : Indexed r) (hnodup : (r.emitted.map (·.sequenceNumber)).Nodup) :
    (r.trailIndex.rows.map entryOf).Perm (r.emitted.map withoutBody) := by
  have hseq : ∀ rows : List IndexEntry,
      (rows.map entryOf).map (·.sequenceNumber) = rows.map (·.sequenceNumber) := by
    intro rows
    rw [map_map]
    rfl
  have hseq' : (r.emitted.map withoutBody).map (·.sequenceNumber) =
      r.emitted.map (·.sequenceNumber) := by
    rw [map_map]
    rfl
  have hrows : (r.trailIndex.rows.map entryOf).Nodup := by
    refine List.Nodup.of_map (·.sequenceNumber) ?_
    rw [hseq]
    exact h.nodup_rows
  have hemitted : (r.emitted.map withoutBody).Nodup := by
    refine List.Nodup.of_map (·.sequenceNumber) ?_
    rw [hseq']
    exact hnodup
  rw [perm_ext_iff_of_nodup hrows hemitted]
  intro x
  simp only [mem_map, TrailIndex.mem_rows]
  constructor
  · rintro ⟨row, ⟨k, hk⟩, rfl⟩
    obtain ⟨entry, hentry, -, rfl⟩ := h.row k row hk
    exact ⟨entry, hentry, (entryOf_rowOf (h.named entry hentry)).symm⟩
  · rintro ⟨entry, hentry, rfl⟩
    obtain ⟨row, hrow⟩ := contains_iff.mp (h.present entry hentry)
    obtain ⟨entry', hentry', hkey, rfl⟩ := h.row _ row hrow
    -- the row is that of an entry with the same number, which is the same entry
    obtain rfl : entry' = entry := inj_on_of_nodup_map hnodup hentry' hentry hkey
    exact ⟨_, ⟨_, hrow⟩, entryOf_rowOf (h.named entry' hentry)⟩

theorem entries_queryTrailIndex {r : EventTrail} {limit : ℕ} (hlimit : limit < 2 ^ 32)
    (clientRequestId : String) : (r.queryTrailIndex none none none limit clientRequestId).entries =
      (r.trailIndex.rows.take (if limit = 0 then 100 else
        if limit + 1 = 2 ^ 32 then 0 else limit)).map entryOf := by
  have hall : ∀ q : TrailQuery, q.workspaceId = none → q.eventType = none → q.actor = none →
      q.fromTimestamp = none → q.toTimestamp = none →
      r.trailIndex.matching q = r.trailIndex.rows := by
    intro q h1 h2 h3 h4 h5
    refine filter_eq_self.mpr fun row _ => ?_
    simp [TrailIndex.admits, h1, h2, h3, h4, h5]
  unfold queryTrailIndex
  by_cases hzero : limit = 0
  · rw [TrailIndex.query_eq (by simp [hzero]), hall _ rfl rfl rfl rfl rfl]
    simp [hzero]
  · rw [TrailIndex.query_eq (by simpa [hzero] using hlimit), hall _ rfl rfl rfl rfl rfl]
    split_ifs <;> rfl

def Answers (r : EventTrail) (entries : List TrailEntry) : Prop :=
  ∃ limit < 2 ^ 32, ∀ clientRequestId,
    ((r.queryTrailIndex none none none limit clientRequestId).entries).Perm entries

variable {entries : List TrailEntry}

theorem Indexed.of_answers (h : Indexed r) (hans : Answers r entries) :
    (entries.map (·.sequenceNumber)).Nodup ∧ entries.length < 2 ^ 32 - 1 := by
  obtain ⟨limit, hlimit, hperm⟩ := hans
  have hperm := hperm ""
  rw [entries_queryTrailIndex hlimit] at hperm
  constructor
  · refine (hperm.map (·.sequenceNumber)).nodup_iff.mp ?_
    rw [map_map]
    rw [map_take]
    exact h.nodup_rows.sublist (take_sublist _ _)
  · rw [← hperm.length_eq, length_map, length_take]
    split_ifs <;> omega

theorem Indexed.entries_perm (h : Indexed r) (hnodup : (r.emitted.map (·.sequenceNumber)).Nodup)
    {limit : ℕ} {clientRequestId : String} (hle : r.emitted.length ≤ limit) (hpos : 0 < limit)
    (hlimit : limit + 1 < 2 ^ 32) :
    ((r.queryTrailIndex none none none limit clientRequestId).entries).Perm
      (r.emitted.map withoutBody) := by
  have hperm := h.rows_perm hnodup
  have hlen : r.trailIndex.rows.length ≤ limit := by
    have hlen := hperm.length_eq
    rw [length_map, length_map] at hlen
    omega
  rw [entries_queryTrailIndex (by omega), if_neg (by omega), if_neg (by omega),
    take_of_length_le hlen]
  exact hperm

theorem Indexed.answers_withoutBody_iff (h : Indexed r) : Answers r (r.emitted.map withoutBody) ↔
      (r.emitted.map (·.sequenceNumber)).Nodup ∧ r.emitted.length < 2 ^ 32 - 1 := by
  have hseq : (r.emitted.map withoutBody).map (·.sequenceNumber) =
      r.emitted.map (·.sequenceNumber) := by
    rw [map_map]
    rfl
  constructor
  · intro hans
    have hof := h.of_answers hans
    rwa [hseq, length_map] at hof
  · rintro ⟨hnodup, hfit⟩
    exact ⟨max 1 r.emitted.length, by omega, fun clientRequestId =>
      h.entries_perm hnodup (by omega) (by omega) (by omega)⟩

theorem body_of_answers (hans : Answers r entries)
    {entry : TrailEntry} (hentry : entry ∈ entries) : entry.body = [] := by
  obtain ⟨limit, hlimit, hperm⟩ := hans
  have hmem := (hperm "").mem_iff.mpr hentry
  rw [entries_queryTrailIndex hlimit, mem_map] at hmem
  obtain ⟨row, -, rfl⟩ := hmem
  rfl

theorem map_withoutBody (h : ∀ entry ∈ entries, entry.body = []) :
    entries.map withoutBody = entries := by
  conv_rhs => rw [← map_id entries]
  refine map_congr_left fun entry hentry => ?_
  rw [withoutBody, ← h entry hentry]
  rfl

/-- **When queries return what was emitted**: each entry once with the indexed content, exactly if
no number was given twice and the entries fit in one query; then every query with a large enough
limit does. With their bodies, exactly if those were empty too. -/
theorem answers_iff (jsonText : JsonValue → List UInt8) (ops : List Op) :
    (Answers (run jsonText ops) ((run jsonText ops).emitted.map withoutBody) ↔
      ((run jsonText ops).emitted.map (·.sequenceNumber)).Nodup ∧
        (run jsonText ops).emitted.length < 2 ^ 32 - 1) ∧
    (((run jsonText ops).emitted.map (·.sequenceNumber)).Nodup →
      ∀ limit clientRequestId, (run jsonText ops).emitted.length ≤ limit → 0 < limit →
        limit + 1 < 2 ^ 32 →
        (((run jsonText ops).queryTrailIndex none none none limit clientRequestId).entries).Perm
          ((run jsonText ops).emitted.map withoutBody)) ∧
    (Answers (run jsonText ops) (run jsonText ops).emitted ↔
      ((run jsonText ops).emitted.map (·.sequenceNumber)).Nodup ∧
        (run jsonText ops).emitted.length < 2 ^ 32 - 1 ∧
        ∀ entry ∈ (run jsonText ops).emitted, entry.body = []) := by
  have h : Indexed (run jsonText ops) := indexed_run jsonText
  generalize run jsonText ops = r at h ⊢
  refine ⟨h.answers_withoutBody_iff, fun hnodup limit clientRequestId =>
    h.entries_perm hnodup, ?_⟩
  constructor
  · intro hans
    obtain ⟨hnodup, hfit⟩ := h.of_answers hans
    exact ⟨hnodup, hfit, fun entry hentry => body_of_answers hans hentry⟩
  · rintro ⟨hnodup, hfit, hbody⟩
    have hans := h.answers_withoutBody_iff.mpr ⟨hnodup, hfit⟩
    rwa [map_withoutBody hbody] at hans

end Runs

def errorEvent (message : String) : WorkspaceEvent := .error ⟨"ws-0"⟩ message

/-- Two starts with one event each: both get the number one, and the second is never returned. -/
theorem not_answers_two_starts : ¬ ∃ jsonText : JsonValue → List UInt8,
    Answers (run jsonText [.start, .event (errorEvent "disk full"), .start,
        .event (errorEvent "out of memory")])
      ((run jsonText [.start, .event (errorEvent "disk full"), .start,
        .event (errorEvent "out of memory")]).emitted.map withoutBody) := by
  rintro ⟨jsonText, hans⟩
  have hnodup := ((indexed_run jsonText).of_answers hans).1
  have htwice : ((run jsonText [.start, .event (errorEvent "disk full"), .start,
      .event (errorEvent "out of memory")]).emitted.map withoutBody).map (·.sequenceNumber) =
      [1, 1] := rfl
  rw [htwice] at hnodup
  exact absurd hnodup (by decide)

end EventTrail

end Wacp
