import Wacp.Analysis.ChainIntegrity
import Wacp.Analysis.SnapshotReplay
import Wacp.Analysis.TrailLog
import Wacp.Model.Tiering

/-!
# Compaction and the trail

A cycle takes the oldest segment files out of the directory and compares their numbers with the
anchor, which is a sequence number. A trail is followed next to the same one without compaction
(`PrunedBy`).
-/

namespace Wacp

open Library List Table RecoveryEngine List TierManager ChainHash

/-! ## What a transition moves -/

namespace TierManager

variable (m : TierManager) (zstdEncode : List UInt8 → List UInt8) (now : ℕ)

def moved (hot : TrailDirectory) : List ℕ :=
  ((listSegments hot).take ((listSegments hot).length - m.hotLimit)).filter fun id => !m.anchored id

theorem foldl_moveToWarm (ids : List ℕ) (acc : Tiers × ℕ) :
    (∀ i, (ids.foldl (m.moveToWarm zstdEncode now) acc).1.hot.get i =
      if i ∈ ids.filter (fun id => !m.anchored id) then none else acc.1.hot.get i) ∧
    (ids.foldl (m.moveToWarm zstdEncode now) acc).2 =
      acc.2 + (ids.filter fun id => !m.anchored id).length := by
  induction ids generalizing acc with
  | nil => simp
  | cons id ids ih =>
    obtain ⟨hget, hcount⟩ := ih (m.moveToWarm zstdEncode now acc id)
    rw [foldl_cons, hcount]
    cases hid : m.anchored id with
    | true =>
      have hstep : m.moveToWarm zstdEncode now acc id = acc := by simp [moveToWarm, hid]
      rw [hstep] at hget ⊢
      simp only [filter_cons, hid, Bool.not_true, Bool.false_eq_true, if_false]
      exact ⟨hget, trivial⟩
    | false =>
      have hhot : (m.moveToWarm zstdEncode now acc id).1.hot = acc.1.hot.remove id := by
        simp [moveToWarm, hid]
      have hone : (m.moveToWarm zstdEncode now acc id).2 = acc.2 + 1 := by
        simp [moveToWarm, hid]
      simp only [filter_cons, hid, Bool.not_false, if_true, length_cons, hone]
      refine ⟨?_, by omega⟩
      intro i
      rw [hget, hhot, get_remove]
      by_cases hi : i = id <;> simp [hi]

theorem transitionHotToWarm_spec {tiers : Tiers} :
    (∀ i, (m.transitionHotToWarm zstdEncode now tiers).1.hot.get i =
      if i ∈ m.moved tiers.hot then none else tiers.hot.get i) ∧
    (m.transitionHotToWarm zstdEncode now tiers).2 = (m.moved tiers.hot).length := by
  unfold transitionHotToWarm moved listHotSegments
  simp only
  split
  · next hle =>
      have hzero : (listSegments tiers.hot).length - m.hotLimit = 0 := by omega
      simp [hzero]
  · have hloop := m.foldl_moveToWarm zstdEncode now
      ((listSegments tiers.hot).take ((listSegments tiers.hot).length - m.hotLimit)) (tiers, 0)
    rw [Nat.zero_add] at hloop
    exact hloop

theorem moved_of_range' {hot : TrailDirectory} {k n : ℕ} (h : listSegments hot = range' k n) :
    m.moved hot = range' k (m.moved hot).length ∧ (m.moved hot).length ≤ n := by
  have htake : ∀ n e k, (range' k n).take e = range' k (min e n) := by
    intro n
    induction n with
    | zero => simp
    | succ n ih =>
      intro e k
      cases e with
      | zero => simp
      | succ => rw [range'_succ, take_succ_cons, ih, Nat.succ_min_succ, range'_succ]
  have hfilter : ∀ n k, ∃ c ≤ n,
      (range' k n).filter (fun id => !m.anchored id) = range' k c := by
    intro n
    induction n with
    | zero => exact fun k => ⟨0, Nat.le_refl 0, rfl⟩
    | succ n ih =>
      intro k
      rw [range'_succ, filter_cons]
      cases hk : m.anchored k with
      | false =>
        obtain ⟨c, hc, hfilter⟩ := ih (k + 1)
        exact ⟨c + 1, by omega, by simp [hfilter, range'_succ]⟩
      | true =>
        -- the segments after an anchored one are anchored too
        refine ⟨0, Nat.zero_le _, ?_⟩
        simp only [Bool.not_true, Bool.false_eq_true, if_false, range'_zero,
          filter_eq_nil_iff, mem_range'_1]
        intro id hid
        unfold anchored at hk ⊢
        cases hanchor : m.snapshotAnchor with
        | none => simp [hanchor] at hk
        | some =>
          simp only [hanchor, ge_iff_le, decide_eq_true_eq] at hk
          simp only [ge_iff_le, Bool.not_eq_true', decide_eq_false_iff_not, not_not]
          omega
  unfold moved
  rw [h, htake]
  obtain ⟨c, hc, hmoved⟩ := hfilter (min ((range' k n).length - m.hotLimit) n) k
  rw [hmoved, length_range']
  exact ⟨rfl, by omega⟩

end TierManager

namespace CompactionTask

variable (task : CompactionTask) (zstdEncode : List UInt8 → List UInt8) (now : ℕ) (tiers : Tiers)

theorem runOnce_hot : (task.runOnce zstdEncode now tiers).1.hot =
      (task.tierManager.transitionHotToWarm zstdEncode now tiers).1.hot := by
  have hfold : ∀ (step : Tiers × ℕ → ℕ → Tiers × ℕ),
      (∀ acc id, (step acc id).1.hot = acc.1.hot) →
      ∀ (ids : List ℕ) (acc : Tiers × ℕ), (ids.foldl step acc).1.hot = acc.1.hot := by
    intro step hstep ids
    induction ids with
    | nil => exact fun _ => rfl
    | cons id ids ih => exact fun acc => (ih _).trans (hstep acc id)
  have hcold : ∀ tiers, (task.tierManager.transitionWarmToCold now tiers).1.hot = tiers.hot := by
    intro tiers
    unfold transitionWarmToCold
    split
    · rfl
    · refine hfold _ (fun acc id => ?_) _ _
      unfold moveToCold
      split
      · rfl
      · split <;> rfl
  have hclean : ∀ tiers, (task.cleanupColdSegments now tiers).1.hot = tiers.hot := by
    intro tiers
    unfold cleanupColdSegments
    split
    · rfl
    · split
      · rfl
      · refine hfold _ (fun acc id => ?_) _ _
        unfold deleteCold
        split
        · rfl
        · split <;> rfl
  exact (hclean _).trans (hcold _)

theorem runOnce_hotToWarm : (task.runOnce zstdEncode now tiers).2.hotToWarm =
      (task.tierManager.transitionHotToWarm zstdEncode now tiers).2 := rfl

end CompactionTask

/-! ## The snapshot anchor -/

/-- A directory with some of the segments of a trail, as written. -/
structure HotTier (segs : List (List TrailRecord)) where
  dir : TrailDirectory
  stored : ∀ i data, dir.get i = some data → ∃ seg, segs[i]? = some seg ∧ data = trailFormat.write seg

/-- Entries are numbered from one through all segments. -/
def sequenceOf (segs : List (List TrailRecord)) (segment index : ℕ) : ℕ :=
  (segs.take segment).flatten.length + index + 1

namespace TierManager

variable {segs : List (List TrailRecord)}

/-- The transition keeps every hot segment with an entry at or after the anchor. -/
def KeepsWindow (m : TierManager) (zstdEncode : List UInt8 → List UInt8) (now n : ℕ)
    (tier : HotTier segs) (warm cold : Table ℕ TierFile) : Prop :=
  ∀ i seg index, segs[i]? = some seg → index < seg.length → n ≤ sequenceOf segs i index →
    tier.dir.contains i →
    ((m.setSnapshotAnchor n).transitionHotToWarm zstdEncode now
      ⟨tier.dir, warm, cold⟩).1.hot.contains i

theorem mem_listSegments {dir : TrailDirectory} {i : ℕ} :
    i ∈ listSegments dir ↔ dir.contains i := by
  rw [listSegments, Finset.mem_sort, Table.mem_keys, Table.contains_iff]

theorem mem_moved (m : TierManager) (n : ℕ) (dir : TrailDirectory) (i : ℕ) :
    i ∈ (m.setSnapshotAnchor n).moved dir ↔
      i ∈ (listSegments dir).take ((listSegments dir).length - m.hotLimit) ∧ i < n := by
  unfold moved
  rw [mem_filter]
  simp [setSnapshotAnchor, anchored]

theorem forall_sequenceOf_lt {i n : ℕ} {seg : List TrailRecord} (hseg : segs[i]? = some seg) :
    (∀ index < seg.length, sequenceOf segs i index < n) ↔
      seg = [] ∨ (segs.take (i + 1)).flatten.length < n := by
  have hlen : (segs.take (i + 1)).flatten.length =
      (segs.take i).flatten.length + seg.length := by
    rw [take_add_one, hseg, flatten_append, length_append]
    simp
  unfold sequenceOf
  rw [hlen]
  constructor
  · intro h
    rcases eq_nil_or_concat seg with hnil | ⟨init, last, hlast⟩
    · exact .inl hnil
    · have hpos : 0 < seg.length := by simp [hlast]
      have hlt := h (seg.length - 1) (by omega)
      omega
  · intro h index hindex
    rcases h with rfl | h
    · cases hindex
    · omega

/-- **When the anchor is respected**: exactly if each of the oldest files whose number, not sequence
number, is below `n` is empty or ends before the `n`-th entry. -/
theorem keepsWindow_iff (m : TierManager) (zstdEncode : List UInt8 → List UInt8) (now n : ℕ)
    (segs : List (List TrailRecord)) (tier : HotTier segs) (warm cold : Table ℕ TierFile) :
    m.KeepsWindow zstdEncode now n tier warm cold ↔
      ∀ i ∈ (listSegments tier.dir).take ((listSegments tier.dir).length - m.hotLimit), i < n →
        ∀ seg, segs[i]? = some seg → seg = [] ∨ (segs.take (i + 1)).flatten.length < n := by
  have hkept : ∀ i, ((m.setSnapshotAnchor n).transitionHotToWarm zstdEncode now
      ⟨tier.dir, warm, cold⟩).1.hot.contains i ↔
        i ∉ (m.setSnapshotAnchor n).moved tier.dir ∧ tier.dir.contains i := by
    intro i
    unfold Table.contains
    rw [((m.setSnapshotAnchor n).transitionHotToWarm_spec zstdEncode now).1]
    split <;> simp [*]
  constructor
  · intro h i hi hin seg hseg
    rw [← forall_sequenceOf_lt hseg]
    intro index hindex
    by_contra hge
    have hhot : tier.dir.contains i :=
      mem_listSegments.mp (mem_of_mem_take hi)
    have hstay := h i seg index hseg hindex (by omega) hhot
    exact ((hkept i).mp hstay).1 ((mem_moved m n _ _).mpr ⟨hi, hin⟩)
  · intro h i seg index hseg hindex hn hhot
    refine (hkept i).mpr ⟨fun hmoved => ?_, hhot⟩
    obtain ⟨htake, hin⟩ := (mem_moved m n _ _).mp hmoved
    have hbefore := (forall_sequenceOf_lt hseg).mpr (h i htake hin seg hseg) index hindex
    omega

def unevenSegments : List (List TrailRecord) :=
  [[([], .genesis), ([], .genesis), ([], .genesis)], [([], .genesis)]]

def unevenTier : HotTier unevenSegments where
  dir := ((∅ : TrailDirectory).set 0 (trailFormat.write [([], .genesis), ([], .genesis),
    ([], .genesis)])).set 1 (trailFormat.write [([], .genesis)])
  stored := by
    intro i data h
    rw [get_set, get_set] at h
    split_ifs at h with h1 h0
    · exact ⟨_, by rw [h1]; rfl, (Option.some.inj h).symm⟩
    · exact ⟨_, by rw [h0]; rfl, (Option.some.inj h).symm⟩
    · cases h

theorem listSegments_unevenTier : listSegments unevenTier.dir = [0, 1] := by
  refine FileTrailStorage.listSegments_eq_range' (k := 0) (n := 2) fun i => ?_
  simp only [unevenTier, get_set]
  split_ifs with h1 h0
  · simp [h1]
  · simp [h0]
  · simp
    omega

/-- With the anchor at the second entry, the transition moves the segment that holds it. -/
theorem not_keepsWindow_uneven : ¬ ∃ (zstdEncode : List UInt8 → List UInt8) (now : ℕ),
    (new 1 90 none).KeepsWindow zstdEncode now 2 unevenTier ∅ ∅ := by
  rintro ⟨zstdEncode, now, h⟩
  have hhot : unevenTier.dir.contains 0 := by
    rw [← mem_listSegments, listSegments_unevenTier]
    simp
  have hstay := h 0 [([], .genesis), ([], .genesis), ([], .genesis)] 1 rfl (by decide) (by decide) hhot
  have hmoved : 0 ∈ ((new 1 90 none).setSnapshotAnchor 2).moved unevenTier.dir := by
    rw [mem_moved, listSegments_unevenTier]
    decide
  unfold Table.contains at hstay
  rw [(transitionHotToWarm_spec _ zstdEncode now).1, if_pos hmoved] at hstay
  cases hstay

end TierManager

/-! ## A trail with fewer files -/

namespace FileTrailStorage

/-- The storage lost its files below segment `k` and nothing else. -/
structure PrunedBy (k : ℕ) (s p : FileTrailStorage) : Prop where
  same : s = { p with dir := s.dir }
  file : ∀ i, s.dir.get i = if i < k then none else p.dir.get i
  bound : k ≤ p.activeSegment + 1

variable {k : ℕ} {s p : FileTrailStorage} {closed : List (List TrailRecord)}
  {active : List TrailRecord}

theorem PrunedBy.refl (p : FileTrailStorage) : PrunedBy 0 p p :=
  ⟨rfl, fun _ => rfl, Nat.zero_le _⟩

theorem PrunedBy.rotate (h : PrunedBy k s p) (hp : p.Holds closed active) :
    PrunedBy k s.rotate.1 p.rotate.1 := by
  have hseg : s.activeSegment = p.activeSegment := by rw [h.same]
  have hfree : p.dir.get (p.activeSegment + 1) = none := by
    have hnone := hp.isSome_get (p.activeSegment + 1)
    cases hget : p.dir.get (p.activeSegment + 1) with
    | none => rfl
    | some =>
      rw [hget] at hnone
      simp at hnone
  have hs : createSegmentFile s.dir (p.activeSegment + 1) = s.dir.set (p.activeSegment + 1) [] := by
    have hnone : s.dir.get (p.activeSegment + 1) = none := by
      rw [h.file, hfree, ite_self]
    rw [createSegmentFile, contains_eq_false_iff.mpr hnone]
    rfl
  have hp' : createSegmentFile p.dir (p.activeSegment + 1) = p.dir.set (p.activeSegment + 1) [] := by
    rw [createSegmentFile, contains_eq_false_iff.mpr hfree]
    rfl
  refine ⟨?_, ?_, Nat.le_trans h.bound (Nat.le_succ _)⟩
  · conv_lhs => rw [h.same]
    simp [FileTrailStorage.rotate, hseg]
  · intro i
    simp only [FileTrailStorage.rotate, hseg, hs, hp']
    rw [get_set, get_set, h.file]
    have hbound := h.bound
    split_ifs <;> first | rfl | omega

theorem PrunedBy.written (h : PrunedBy k s p) (record : TrailRecord) :
    PrunedBy k (s.written record) (p.written record) := by
  have hseg : s.activeSegment = p.activeSegment := by rw [h.same]
  refine ⟨?_, ?_, h.bound⟩
  · conv_lhs => rw [h.same]
    simp [FileTrailStorage.written, hseg]
  · intro i
    simp only [FileTrailStorage.written, hseg]
    rw [get_modify, get_modify, h.file]
    split_ifs <;> rfl

theorem append_eq (s : FileTrailStorage) (entry : List UInt8) (hash : ChainHash) :
    (s.append entry hash).1 =
      if (s.written (entry, hash)).activeSize ≥ s.maxSegmentSize then
        (s.written (entry, hash)).rotate.1
      else s.written (entry, hash) := rfl

theorem PrunedBy.append (h : PrunedBy k s p) (hp : p.Holds closed active) {entry : List UInt8}
    (hash : ChainHash) (hshort : entry.length < 2 ^ 32) :
    PrunedBy k (s.append entry hash).1 (p.append entry hash).1 := by
  have hwritten := h.written (entry, hash)
  have hholds := hp.written (show Short (entry, hash) from hshort)
  have hmax : s.maxSegmentSize = p.maxSegmentSize := by rw [h.same]
  have hsize : (s.written (entry, hash)).activeSize = (p.written (entry, hash)).activeSize := by
    rw [hwritten.same]
  rw [append_eq, append_eq, hmax, hsize]
  split
  · exact hwritten.rotate hholds
  · exact hwritten

theorem Holds.append (h : p.Holds closed active) {entry : List UInt8} (hash : ChainHash)
    (hshort : entry.length < 2 ^ 32) :
    ∃ closed' active', (p.append entry hash).1.Holds closed' active' ∧
      (closed' ++ [active']).flatten = (closed ++ [active]).flatten ++ [(entry, hash)] := by
  have hholds := h.written (show Short (entry, hash) from hshort)
  rw [append_eq]
  split
  · exact ⟨_, _, hholds.rotate, by simp⟩
  · exact ⟨_, _, hholds, by simp⟩

section

variable (h : PrunedBy k s p) (hp : p.Holds closed active)
include h hp

theorem PrunedBy.listSegments : listSegments s.dir = range' k (p.activeSegment + 1 - k) := by
  apply listSegments_eq_range'
  intro i
  have hsome := hp.isSome_get i
  rw [h.file]
  split
  · simp
    omega
  · rw [hsome]
    omega

/-- **What opening finds when some files are left**: the active segment, and the entries and last
hash of the rest. -/
theorem PrunedBy.openTrail (hk : k ≤ p.activeSegment) :
    openTrail { dir := s.dir, maxSegmentSize := p.maxSegmentSize } =
      .ok { s with sequenceCounter := ((closed ++ [active]).drop k).flatten.length
                   chainHead := headOf ((closed ++ [active]).drop k).flatten } := by
  have hlist := h.listSegments hp
  have hlen : ((closed ++ [active]).drop k).length = p.activeSegment + 1 - k := by
    rw [length_drop, length_append, hp.segment]
    rfl
  have hlast : (range' k (p.activeSegment + 1 - k)).getLast? = some p.activeSegment := by
    rw [getLast?_range', if_neg (by omega)]
    congr 1
    omega
  have hresume : (range' k (p.activeSegment + 1 - k)).foldlM (resumeStep s.dir)
      (0, genesis) = .ok (((closed ++ [active]).drop k).flatten.length,
        headOf ((closed ++ [active]).drop k).flatten) := by
    have hshort : ∀ seg ∈ (closed ++ [active]).drop k, ∀ record ∈ seg, Short record :=
      fun seg hseg => hp.short seg (mem_of_mem_drop hseg)
    have hfile : ∀ j seg, ((closed ++ [active]).drop k)[j]? = some seg →
        s.dir.get (k + j) = some (trailFormat.write seg) := by
      intro j seg hseg
      rw [getElem?_drop] at hseg
      rw [h.file, if_neg (by omega), hp.file_some hseg]
    have hloop := foldlM_segments hshort hfile
      (fun acc _ entries => entries.foldl (fun acc entry => (acc.1 + 1, entry.2.2)) acc)
      resumeStep_eq (0, genesis)
    rw [← hlen, hloop, foldl_resume, Nat.zero_add]
    rfl
  have hactive : s.dir.get p.activeSegment = some (trailFormat.write active) := by
    rw [h.file, if_neg (by omega)]
    apply hp.file_some
    rw [hp.segment, getElem?_concat_length]
  simp only [FileTrailStorage.openTrail, hlist, hlast, hresume, hactive, ← hp.size]
  conv_rhs => rw [h.same]

end

end FileTrailStorage

/-! ## Runs with compaction -/

/-- A trail with its tiers, and for the statements the entries ever written and the summaries. -/
structure TieredTrail where
  storage : FileTrailStorage
  (warm cold : Table ℕ TierFile)
  written : List TrailRecord
  summaries : List CompactionSummary

namespace TieredTrail

inductive Op where
  | append (entry : List UInt8)
  | rotate
  | runOnce (task : CompactionTask) (now : ℕ)

def Op.onTrail : Op → Bool
  | .runOnce _ _ => false
  | _ => true

def tiers (t : TieredTrail) : Tiers := { hot := t.storage.dir, warm := t.warm, cold := t.cold }

section Runs

variable (external : External) (zstdEncode : List UInt8 → List UInt8)

/-- An append links its entry to the chain, a cycle works on the files. -/
def apply (t : TieredTrail) : Op → TieredTrail
  | .append entry =>
    let hash := computeChainHash external.sha256 t.storage.chainHead entry
    { t with storage := (t.storage.append entry hash).1, written := t.written ++ [(entry, hash)] }
  | .rotate => { t with storage := t.storage.rotate.1 }
  | .runOnce task now =>
    let (tiers, summary) := task.runOnce zstdEncode now t.tiers
    { t with storage := { t.storage with dir := tiers.hot }
             warm := tiers.warm
             cold := tiers.cold
             summaries := t.summaries ++ [summary] }

def run (s₀ : FileTrailStorage) (ops : List Op) : TieredTrail :=
  ops.foldl (apply external zstdEncode)
    { storage := s₀, warm := ∅, cold := ∅, written := [], summaries := [] }

/-- A trail beside the same one without compaction: the segments below `k` were moved. -/
structure Behind (k : ℕ) (t p : TieredTrail) (closed : List (List TrailRecord))
    (active : List TrailRecord) : Prop where
  holds : p.storage.Holds closed active
  pruned : FileTrailStorage.PrunedBy k t.storage p.storage
  written : t.written = (closed ++ [active]).flatten
  linked : HashChain.Linked (computeChainHash external.sha256) genesis
    (closed ++ [active]).flatten
  count : k = (t.summaries.map (·.hotToWarm)).sum

variable {external} {k : ℕ} {t p : TieredTrail} {closed : List (List TrailRecord)}
  {active : List TrailRecord}

section

variable (h : Behind external k t p closed active)
include h

theorem Behind.append {entry : List UInt8} (hshort : entry.length < 2 ^ 32) :
    ∃ closed' active', Behind external k (t.apply external zstdEncode (.append entry))
      (p.apply external zstdEncode (.append entry)) closed' active' := by
  have hhead : t.storage.chainHead = p.storage.chainHead := by rw [h.pruned.same]
  obtain ⟨closed', active', hholds, hflat⟩ := h.holds.append
    (computeChainHash external.sha256 p.storage.chainHead entry) hshort
  refine ⟨closed', active', ⟨hholds, ?_, ?_, ?_, h.count⟩⟩
  · simp only [apply, hhead]
    exact h.pruned.append h.holds _ hshort
  · simp [apply, hhead, h.written, hflat]
  · rw [hflat, HashChain.linked_concat]
    refine ⟨h.linked, ?_⟩
    rw [h.holds.head]
    rfl

theorem Behind.rotate :
    Behind external k (t.apply external zstdEncode .rotate) (p.apply external zstdEncode .rotate)
      (closed ++ [active]) [] := by
  have hflat : (closed ++ [active] ++ [[]]).flatten = (closed ++ [active]).flatten := by simp
  refine ⟨h.holds.rotate, h.pruned.rotate h.holds, ?_, ?_, h.count⟩
  · rw [hflat]
    exact h.written
  · rw [hflat]
    exact h.linked

theorem Behind.runOnce (task : CompactionTask) (now : ℕ) :
    ∃ k', Behind external k' (t.apply external zstdEncode (.runOnce task now)) p closed active := by
  obtain ⟨hget, hcount⟩ := task.tierManager.transitionHotToWarm_spec zstdEncode now
  obtain ⟨hrange, hle⟩ := task.tierManager.moved_of_range' (h.pruned.listSegments h.holds)
  have hbound := h.pruned.bound
  refine ⟨k + (task.tierManager.moved t.storage.dir).length, h.holds, ⟨?_, ?_, by omega⟩,
    h.written, h.linked, ?_⟩
  · simp only [apply]
    conv_lhs => rw [h.pruned.same]
  · intro i
    have hmem : i ∈ task.tierManager.moved t.tiers.hot ↔
        k ≤ i ∧ i < k + (task.tierManager.moved t.storage.dir).length := by
      show i ∈ task.tierManager.moved t.storage.dir ↔ _
      conv_lhs => rw [hrange]
      exact mem_range'_1
    have hfile : t.tiers.hot.get i = if i < k then none else p.storage.dir.get i := h.pruned.file i
    simp only [apply]
    rw [task.runOnce_hot, hget, hfile]
    simp only [hmem]
    split_ifs <;> first | rfl | omega
  · simp only [apply, map_append, sum_append, map_cons, map_nil,
      sum_cons, sum_nil, ← h.count, task.runOnce_hotToWarm, hcount]
    rfl

end

theorem Behind.foldl {ops : List Op} (hshort : ∀ entry, .append entry ∈ ops → entry.length < 2 ^ 32)
    (h : Behind external k t p closed active) :
    ∃ k' closed' active', Behind external k' (ops.foldl (apply external zstdEncode) t)
      ((ops.filter Op.onTrail).foldl (apply external zstdEncode) p) closed' active' := by
  induction ops generalizing k t p closed active with
  | nil => exact ⟨k, closed, active, h⟩
  | cons op ops ih =>
    have hrest : ∀ entry, .append entry ∈ ops → entry.length < 2 ^ 32 :=
      fun entry hmem => hshort entry (mem_cons_of_mem _ hmem)
    cases op with
    | append entry =>
      obtain ⟨closed', active', hstep⟩ := h.append zstdEncode (hshort entry mem_cons_self)
      exact ih hrest hstep
    | rotate => exact ih hrest (h.rotate zstdEncode)
    | runOnce task now =>
      obtain ⟨k', hstep⟩ := h.runOnce zstdEncode task now
      exact ih hrest hstep

section Fresh

variable {maxSegmentSize : ℕ} {ops : List Op}

variable (h : Behind external k t p closed active)
  (ht : run external zstdEncode (.fresh maxSegmentSize) ops = t)
  (hp : run external zstdEncode (.fresh maxSegmentSize) (ops.filter Op.onTrail) = p)
include h ht hp

end Fresh

end Runs

def Op.short : Op → Bool
  | .append entry => entry.length < 2 ^ 32
  | _ => true

end TieredTrail

end Wacp
