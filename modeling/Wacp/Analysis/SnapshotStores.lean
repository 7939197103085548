import Wacp.Library.Names
import Wacp.Model.SnapshotStore

/-!
# The snapshot stores compared

Memory returns the system snapshot appended last, the files the one with the largest number.
`Refines` relates the two through any writes.
-/

namespace Wacp

open Library List Table List FileSnapshotStorage

/-! ## Names -/

theorem dropPlus_of_digits {digits : List Char} (hdigit : ∀ c ∈ digits, c.isDigit) :
    dropPlus digits = digits := by
  unfold dropPlus
  split
  · have : Char.isDigit '+' := hdigit _ mem_cons_self
    cases this
  · rfl

theorem parseU64_of_digits {digits : List Char} (hne : digits ≠ [])
    (hdigit : ∀ c ∈ digits, c.isDigit) (hsize : Nat.ofDigitChars 10 digits 0 < UInt64.size) :
    parseU64 digits = some (Nat.ofDigitChars 10 digits 0) := by
  unfold parseU64
  rw [dropPlus_of_digits hdigit, if_pos ⟨hne, all_eq_true.mpr hdigit, hsize⟩]

theorem stripAffixes_append (head tail text : List Char) :
    stripAffixes head tail (head ++ (text ++ tail)) = some text := by
  simp [stripAffixes]

theorem ofDigitChars_leftpad (k : ℕ) (digits : List Char) :
    Nat.ofDigitChars 10 (leftpad k '0' digits) 0 = Nat.ofDigitChars 10 digits 0 := by
  have hzeros : ∀ n, Nat.ofDigitChars 10 (replicate n '0') 0 = 0 := by
    intro n
    induction n with
    | zero => rfl
    | succ n ih => exact ih
  rw [leftpad, Nat.ofDigitChars_append, hzeros]

namespace FileSnapshotStorage

theorem sequenceOf_systemPath {n : ℕ} (hn : n < UInt64.size) :
    sequenceOf (systemPath n) = some n := by
  have hvalue : Nat.ofDigitChars 10 (leftpad 12 '0' (Nat.toDigits 10 n)) 0 = n := by
    rw [ofDigitChars_leftpad, Nat.ofDigitChars_toDigits (by decide) (by decide)]
  have hdigit : ∀ c ∈ leftpad 12 '0' (Nat.toDigits 10 n), c.isDigit := by
    intro c hc
    rcases mem_append.mp hc with hc | hc
    · rw [eq_of_mem_replicate hc]
      rfl
    · exact Nat.isDigit_of_mem_toDigits (by decide) (by decide) hc
  have hne : leftpad 12 '0' (Nat.toDigits 10 n) ≠ [] := by
    intro hnil
    have := congrArg length hnil
    rw [length_leftpad] at this
    simp at this
  have hword : leftpad 12 '0' (Nat.toDigits 10 n) ≠ "latest".toList := by
    intro heq
    have := hdigit 'l' (by rw [heq]; decide)
    cases this
  have hparse := parseU64_of_digits hne hdigit (by rw [hvalue]; exact hn)
  unfold sequenceOf systemPath
  simp only [String.toList_append, String.toList_ofList, stripAffixes_append]
  rw [if_neg hword, hparse, hvalue]

theorem systemPath_inj {m n : ℕ} (hm : m < UInt64.size) (hn : n < UInt64.size)
    (h : systemPath m = systemPath n) : m = n := by
  have := sequenceOf_systemPath hm
  rw [h, sequenceOf_systemPath hn] at this
  exact (Option.some.inj this).symm

theorem workspacePath_eq_iff (v w : WorkspaceId) :
    workspacePath v = workspacePath w ↔ v.text = w.text := by
  unfold workspacePath
  rw [String.append_right_inj, String.append_left_inj]

theorem workspacePath_ne_systemPath {w : WorkspaceId} {n : ℕ} : workspacePath w ≠ systemPath n :=
  append_ne_append (by decide) (by decide)

theorem sequenceOf_workspacePath (w : WorkspaceId) : sequenceOf (workspacePath w) = none := by
  unfold sequenceOf stripAffixes workspacePath
  rw [if_neg]
  rintro ⟨rest, hrest⟩
  have := congrArg head? hrest
  simp at this

theorem sequenceOf_latestLink : sequenceOf latestLink = none := by decide

end FileSnapshotStorage

/-! ## Writes -/

inductive SnapshotWrite where
  | workspace (workspaceId : WorkspaceId) (data : List UInt8)
  | deleteWorkspace (workspaceId : WorkspaceId)
  | system (sequence : UInt64) (data : List UInt8)

variable (writes : List SnapshotWrite)

def systemWrites : List (ℕ × List UInt8) :=
  writes.filterMap fun
    | .system sequence data => some (sequence.toNat, data)
    | _ => none

def LastIsLargest : Prop :=
  ∀ p, (systemWrites writes).getLast? = some p → ∀ q ∈ systemWrites writes, q.1 ≤ p.1

def InMemorySnapshotStorage.apply (s : InMemorySnapshotStorage) :
    SnapshotWrite → InMemorySnapshotStorage
  | .workspace workspaceId data => s.writeWorkspace workspaceId data
  | .deleteWorkspace workspaceId => s.deleteWorkspace workspaceId
  | .system sequence data => s.writeSystem sequence.toNat data

theorem systems_foldl {s : InMemorySnapshotStorage} :
    (writes.foldl InMemorySnapshotStorage.apply s).systems = s.systems ++ systemWrites writes := by
  induction writes generalizing s with
  | nil => exact (append_nil _).symm
  | cons write writes ih =>
    rw [foldl_cons, ih]
    cases write with
    | workspace | deleteWorkspace => rfl
    | system => exact append_assoc _ _ _

section Sha

variable (sha256 : List UInt8 → ChainHash)

def FileSnapshotStorage.apply (s : FileSnapshotStorage) : SnapshotWrite → FileSnapshotStorage
  | .workspace workspaceId data => s.writeWorkspace sha256 workspaceId data
  | .deleteWorkspace workspaceId => s.deleteWorkspace workspaceId
  | .system sequence data => s.writeSystem sha256 sequence.toNat data

def framed (data : List UInt8) : List UInt8 := (sha256 data).bytes ++ data

/-- What `read_dir` may return: the files, and the link once there is one. -/
def FileSnapshotStorage.Lists (s : FileSnapshotStorage) (entries : List String) : Prop :=
  ∀ name, name ∈ entries ↔
    (∃ bytes, s.files.get name = some bytes) ∨ s.latest ≠ none ∧ name = latestLink

/-- The files hold the snapshot of each workspace, and the last system snapshot with each number. -/
structure Refines (file : FileSnapshotStorage) (memory : InMemorySnapshotStorage) : Prop where
  workspace : ∀ w, file.files.get (workspacePath w) =
    (memory.workspaces.get w.text).map (framed sha256)
  system : ∀ n < UInt64.size, file.files.get (systemPath n) =
    (memory.systems.reverse.find? fun p => p.1 = n).map fun p => framed sha256 p.2
  names : ∀ name bytes, file.files.get name = some bytes →
    (∃ w, name = workspacePath w) ∨ ∃ p ∈ memory.systems, name = systemPath p.1
  bounded : ∀ p ∈ memory.systems, p.1 < UInt64.size

end Sha

open FileSnapshotStorage

variable {sha256 : List UInt8 → ChainHash} {file : FileSnapshotStorage}
  {memory : InMemorySnapshotStorage}

theorem refines_new {sha256 : List UInt8 → ChainHash} {dir : String} :
    Refines sha256 (.new dir) .new := by
  refine ⟨fun w => ?_, fun n _ => ?_, fun name bytes h => ?_, fun p hp => ?_⟩
  · simp [new, InMemorySnapshotStorage.new]
  · simp [new, InMemorySnapshotStorage.new]
  · simp [new] at h
  · cases hp

/-- **One write.** Workspace files and system files have different names. -/
theorem Refines.step (h : Refines sha256 file memory) (write : SnapshotWrite) :
    Refines sha256 (file.apply sha256 write) (memory.apply write) := by
  cases write with
  | workspace w =>
    refine ⟨fun v => ?_, fun n hn => ?_, fun name bytes hname => ?_, h.bounded⟩
    · show (file.files.set _ _).get _ = ((memory.workspaces.set _ _).get _).map _
      simp only [get_set, h.workspace, workspacePath_eq_iff]
      split_ifs <;> rfl
    · show (file.files.set _ _).get _ = _
      rw [get_set, if_neg workspacePath_ne_systemPath.symm]
      exact h.system n hn
    · change (file.files.set _ _).get name = some bytes at hname
      rw [get_set] at hname
      split_ifs at hname with hw
      · exact .inl ⟨w, hw⟩
      · exact h.names name bytes hname
  | deleteWorkspace w =>
    refine ⟨fun v => ?_, fun n hn => ?_, fun name bytes hname => ?_, h.bounded⟩
    · show (file.files.remove _).get _ = ((memory.workspaces.remove _).get _).map _
      simp only [get_remove, h.workspace, workspacePath_eq_iff]
      split_ifs <;> rfl
    · show (file.files.remove _).get _ = _
      rw [get_remove, if_neg workspacePath_ne_systemPath.symm]
      exact h.system n hn
    · change (file.files.remove _).get name = some bytes at hname
      rw [get_remove] at hname
      split_ifs at hname with hw
      exact h.names name bytes hname
  | system sequence =>
    have hsequence : sequence.toNat < UInt64.size := UInt64.toNat_lt_size sequence
    refine ⟨fun v => ?_, fun n hn => ?_, fun name bytes hname => ?_, fun p hp => ?_⟩
    · show (file.files.set _ _).get _ = _
      rw [get_set, if_neg workspacePath_ne_systemPath]
      exact h.workspace v
    · show (file.files.set _ _).get _ = ((memory.systems ++ [_]).reverse.find? _).map _
      rw [get_set, reverse_append, reverse_singleton, singleton_append, find?_cons]
      by_cases hsame : sequence.toNat = n
      · simp [hsame, framed]
      · have hpath : systemPath n ≠ systemPath sequence.toNat := fun heq =>
          hsame (systemPath_inj hn hsequence heq).symm
        simp only [hpath, if_false, hsame, decide_false]
        exact h.system n hn
    · change (file.files.set _ _).get name = some bytes at hname
      rw [get_set] at hname
      split_ifs at hname with hs
      · exact .inr ⟨_, mem_append_right _ (mem_singleton.mpr rfl), hs⟩
      · refine (h.names name bytes hname).imp id ?_
        rintro ⟨p, hp, hname⟩
        exact ⟨p, mem_append_left _ hp, hname⟩
    · rcases mem_append.mp hp with hp | hp
      · exact h.bounded p hp
      · rw [mem_singleton.mp hp]
        exact hsequence

theorem Refines.run (h : Refines sha256 file memory) {writes : List SnapshotWrite} :
    Refines sha256 (writes.foldl (apply sha256) file)
      (writes.foldl InMemorySnapshotStorage.apply memory) := by
  induction writes generalizing file memory with
  | nil => exact h
  | cons write writes ih => exact ih (h.step write)

/-! ## Reads -/

theorem readWithChecksum_framed {name : String} {data : List UInt8}
    (h : file.files.get name = some (framed sha256 data)) :
    file.readWithChecksum sha256 name = .ok (some data) := by
  have hsize := (sha256 data).size
  have hdrop : (framed sha256 data).drop 32 = data := by
    unfold framed
    rw [← hsize, drop_left]
  have htake : (framed sha256 data).take 32 = (sha256 data).bytes := by
    unfold framed
    rw [← hsize, take_left]
  have hlength : ¬ (framed sha256 data).length < 32 := by
    unfold framed
    rw [length_append]
    omega
  unfold readWithChecksum
  rw [h]
  dsimp only
  rw [if_neg hlength, hdrop, htake, if_neg (not_not.mpr rfl)]

section

variable (h : Refines sha256 file memory)
include h

theorem Refines.readWorkspace (w : WorkspaceId) :
    file.readWorkspace sha256 w = memory.readWorkspace w := by
  unfold FileSnapshotStorage.readWorkspace InMemorySnapshotStorage.readWorkspace
  have hfile := h.workspace w
  cases hw : memory.workspaces.get w.text with
  | none =>
    rw [hw] at hfile
    unfold readWithChecksum
    rw [hfile]
    rfl
  | some =>
    rw [hw] at hfile
    exact readWithChecksum_framed hfile

theorem Refines.file_of_mem {q : ℕ × List UInt8} (hq : q ∈ memory.systems) :
    ∃ p ∈ memory.systems, p.1 = q.1 ∧
      memory.systems.reverse.find? (fun r => r.1 = p.1) = some p ∧
      file.files.get (systemPath q.1) = some (framed sha256 p.2) := by
  have hfound : (memory.systems.reverse.find? fun r => r.1 = q.1).isSome :=
    find?_isSome.mpr ⟨q, mem_reverse.mpr hq, by simp⟩
  obtain ⟨p, hp⟩ := Option.isSome_iff_exists.mp hfound
  have hpq : p.1 = q.1 := by simpa using find?_some hp
  have hfile := h.system q.1 (h.bounded q hq)
  rw [hp] at hfile
  refine ⟨p, mem_reverse.mp (mem_of_find?_eq_some hp), hpq, ?_, hfile⟩
  rw [hpq]
  exact hp

theorem Refines.readLatestSystem {entries : List String} (hentries : file.Lists entries) :
    memory.systems = [] ∧ file.readLatestSystem sha256 entries = .ok none ∨
      ∃ p ∈ memory.systems, (∀ q ∈ memory.systems, q.1 ≤ p.1) ∧
        memory.systems.reverse.find? (fun q => q.1 = p.1) = some p ∧
        file.readLatestSystem sha256 entries = .ok (some p) := by
  have hscan := largest_foldl FileSnapshotStorage.sequenceOf entries
  -- every system snapshot has its file in the listing
  have hlisted : ∀ q ∈ memory.systems, ∃ k name,
      entries.foldl (keepLargest FileSnapshotStorage.sequenceOf) none = some (k, name) ∧
        q.1 ≤ k := by
    intro q hq
    obtain ⟨p, -, -, -, hfile⟩ := h.file_of_mem hq
    exact hscan.upper (systemPath q.1) ((hentries _).mpr (.inl ⟨_, hfile⟩)) q.1
      (sequenceOf_systemPath (h.bounded q hq))
  unfold FileSnapshotStorage.readLatestSystem
  cases hbest : entries.foldl (keepLargest FileSnapshotStorage.sequenceOf) none with
  | none =>
    refine .inl ⟨?_, rfl⟩
    apply eq_nil_iff_forall_not_mem.mpr
    intro q hq
    obtain ⟨k, name, hsome, -⟩ := hlisted q hq
    rw [hbest] at hsome
    cases hsome
  | some best =>
    obtain ⟨n, name⟩ := best
    obtain ⟨hname, hsequence⟩ := hscan.found n name hbest
    -- a name with a number is that of a system snapshot
    have hsystem : ∃ q ∈ memory.systems, name = systemPath q.1 ∧ q.1 = n := by
      rcases (hentries name).mp hname with ⟨bytes, hbytes⟩ | ⟨-, hlink⟩
      · rcases h.names name bytes hbytes with ⟨w, hw⟩ | ⟨q, hq, hpath⟩
        · rw [hw, sequenceOf_workspacePath] at hsequence
          cases hsequence
        · refine ⟨q, hq, hpath, ?_⟩
          rw [hpath, sequenceOf_systemPath (h.bounded q hq)] at hsequence
          exact Option.some.inj hsequence
      · rw [hlink, sequenceOf_latestLink] at hsequence
        cases hsequence
    obtain ⟨q, hq, hpath, rfl⟩ := hsystem
    obtain ⟨p, hp, hpq, hfind, hfile⟩ := h.file_of_mem hq
    refine .inr ⟨p, hp, ?_, hfind, ?_⟩
    · intro r hr
      obtain ⟨k, name', hsome, hle⟩ := hlisted r hr
      rw [hbest] at hsome
      cases hsome
      rw [hpq]
      exact hle
    · dsimp only
      rw [hpath, readWithChecksum_framed hfile]
      show Except.ok (some (q.1, p.2)) = _
      rw [← hpq]

theorem Refines.readLatestSystem_eq_iff {entries : List String} (hentries : file.Lists entries) :
    file.readLatestSystem sha256 entries = memory.readLatestSystem ↔
      ∀ p, memory.systems.getLast? = some p → ∀ q ∈ memory.systems, q.1 ≤ p.1 := by
  unfold InMemorySnapshotStorage.readLatestSystem
  rcases h.readLatestSystem hentries with ⟨hnil, hread⟩ | ⟨p, hp, hmax, hfind, hread⟩
  · rw [hread, hnil]
    simp
  · rw [hread]
    obtain ⟨front, last, hsplit⟩ :=
      (eq_nil_or_concat' memory.systems).resolve_left (ne_nil_of_mem hp)
    have hgetLast : memory.systems.getLast? = some last := by
      rw [hsplit, getLast?_concat]
    rw [hgetLast]
    constructor
    · intro heq
      cases heq
      intro l hl q hq
      cases hl
      exact hmax q hq
    · intro hlast
      have hnumber : last.1 = p.1 := by
        refine le_antisymm (hmax last ?_) (hlast last rfl p hp)
        rw [hsplit]
        simp
      rw [hsplit, reverse_append, reverse_singleton, singleton_append,
        find?_cons_of_pos (by simpa using hnumber)] at hfind
      cases hfind
      rfl

end

/-! ## Whole runs -/

def memoryAfter : InMemorySnapshotStorage :=
  writes.foldl InMemorySnapshotStorage.apply .new

def fileAfter (sha256 : List UInt8 → ChainHash) (dir : String) (writes : List SnapshotWrite) :
    FileSnapshotStorage :=
  writes.foldl (apply sha256) (.new dir)

theorem refines_after (sha256 : List UInt8 → ChainHash) (dir : String)
    (writes : List SnapshotWrite) :
    Refines sha256 (fileAfter sha256 dir writes) (memoryAfter writes) :=
  refines_new.run

theorem systems_memoryAfter : (memoryAfter writes).systems = systemWrites writes :=
  systems_foldl writes

/-- **The stores agree on workspaces, and on the latest system snapshot exactly if it has the
largest number**, in whatever order the directory is listed. -/
theorem stores_agree_iff (sha256 : List UInt8 → ChainHash) (dir : String)
    (writes : List SnapshotWrite) (entries : List String)
    (hentries : (fileAfter sha256 dir writes).Lists entries) :
    (∀ w, (fileAfter sha256 dir writes).readWorkspace sha256 w =
        (memoryAfter writes).readWorkspace w) ∧
      ((fileAfter sha256 dir writes).readLatestSystem sha256 entries =
          (memoryAfter writes).readLatestSystem ↔ LastIsLargest writes) := by
  have h := refines_after sha256 dir writes
  refine ⟨h.readWorkspace, ?_⟩
  rw [h.readLatestSystem_eq_iff hentries, systems_memoryAfter]
  rfl

def increasingWrites : List SnapshotWrite :=
  [.workspace ⟨"w"⟩ [9], .system 5000 [1], .system 10000 [2]]

def zeroHash (_ : List UInt8) : ChainHash := .genesis

theorem stores_agree_increasing :
    (fileAfter zeroHash "/snapshots" increasingWrites).readLatestSystem zeroHash
        [systemPath 10000, latestLink, workspacePath ⟨"w"⟩, systemPath 5000] =
      (memoryAfter increasingWrites).readLatestSystem := by
  refine (stores_agree_iff zeroHash "/snapshots" increasingWrites _ ?_).2.mpr ?_
  · intro name
    simp only [increasingWrites, fileAfter, foldl_cons, foldl_nil,
      apply, writeSystem,
      writeWorkspace, writeWithChecksum, new,
      get_set, get_empty, mem_cons, not_mem_nil, or_false]
    have hfive : (5000 : UInt64).toNat = 5000 := rfl
    have hten : (10000 : UInt64).toNat = 10000 := rfl
    rw [hfive, hten]
    split_ifs with hlatest hfirst hworkspace
    · simp [hlatest]
    · simp [hfirst]
    · simp [hworkspace]
    · simp [hlatest, hfirst, hworkspace]
  · intro p hp
    cases hp
    decide

def unorderedWrites : List SnapshotWrite :=
  [.system 5000 [1], .system 10000 [2], .system 7000 [3]]

/-- **The stores differ.** Memory returns number 7000, the other store never. -/
theorem stores_differ_unordered :
    (memoryAfter unorderedWrites).readLatestSystem = .ok (some (7000, [3])) ∧
      ¬ ∃ sha256 dir entries, (fileAfter sha256 dir unorderedWrites).Lists entries ∧
        (fileAfter sha256 dir unorderedWrites).readLatestSystem sha256 entries =
          (memoryAfter unorderedWrites).readLatestSystem := by
  refine ⟨rfl, ?_⟩
  rintro ⟨sha256, dir, entries, hentries, hagree⟩
  have hlast := (refines_after sha256 dir unorderedWrites).readLatestSystem_eq_iff hentries |>.mp
    hagree
  have := hlast (7000, [3]) rfl (10000, [2]) (by decide)
  exact absurd this (by decide)

end Wacp
