import Wacp.Library.Merging
import Wacp.Model.Tiering

/-!
# Merging warm segments

`merge_warm_segments` merges small segments that follow each other among the small ones; the second
is moved before a larger one between them. The trail is the same exactly if that does not matter.
-/

namespace Wacp.CompactionTask

open Library List Table

variable (zstdEncode : List UInt8 → List UInt8)
  (zstdDecode : List UInt8 → Except String (List UInt8))

/-- Nothing if there is no such file, or it cannot be decompressed. -/
def contentsAt (warm : Table ℕ TierFile) (id : ℕ) : List UInt8 :=
  match warm.get id with
  | some file => (zstdDecode file.data).toOption.getD []
  | none => []

def warmTrail (warm : Table ℕ TierFile) : List UInt8 :=
  warm.keys.sort.flatMap (contentsAt zstdDecode warm)

def readable (warm : Table ℕ TierFile) (id : ℕ) : Bool :=
  match warm.get id with
  | some file => (zstdDecode file.data).toOption.isSome
  | none => false

def mergedPairs (warm : Table ℕ TierFile) : List ℕ → List (ℕ × ℕ)
  | a :: b :: rest =>
    if readable zstdDecode warm a && readable zstdDecode warm b then
      (a, b) :: mergedPairs warm rest
    else []
  | _ => []

/-- What the segments with a number in between hold. -/
def contentsBetween (warm : Table ℕ TierFile) (a b : ℕ) : List UInt8 :=
  (placesBetween warm.keys.sort a b).flatMap (contentsAt zstdDecode warm)

variable {zstdEncode zstdDecode}

/-! ## One pair -/

variable {warm : Table ℕ TierFile}

theorem readable_iff {id : ℕ} : readable zstdDecode warm id ↔
      ∃ file content, warm.get id = some file ∧ zstdDecode file.data = .ok content := by
  unfold readable
  cases hget : warm.get id with
  | none => simp
  | some file =>
    cases hdec : zstdDecode file.data with
    | error | ok => simp [hdec, Except.toOption]

theorem contentsAt_of_get {id : ℕ} {file : TierFile} {content : List UInt8}
    (hget : warm.get id = some file) (hdec : zstdDecode file.data = .ok content) :
    contentsAt zstdDecode warm id = content := by
  unfold contentsAt
  rw [hget]
  dsimp only
  rw [hdec]
  rfl

variable {a b : ℕ}

/-- **One pair.** If both can be read, the second moves to the end of the first. -/
theorem mergePair_of_readable (hcodec : ∀ x, zstdDecode (zstdEncode x) = .ok x) (hab : a ≠ b)
    (ha : readable zstdDecode warm a) (hb : readable zstdDecode warm b) :
    ∃ warm', mergePair zstdEncode zstdDecode warm a b = .ok warm' ∧
      contentsAt zstdDecode warm' = absorb (contentsAt zstdDecode warm) a b ∧
      (∀ id, id ≠ a → id ≠ b → warm'.get id = warm.get id) ∧ warm'.keys ⊆ warm.keys := by
  obtain ⟨fileA, decA, hgetA, hdecA⟩ := readable_iff.mp ha
  obtain ⟨fileB, decB, hgetB, hdecB⟩ := readable_iff.mp hb
  have hget (id : ℕ) : ((warm.set a { fileA with data := zstdEncode (decA ++ decB) }).remove b).get
      id = if id = b then none
        else if id = a then some { fileA with data := zstdEncode (decA ++ decB) }
        else warm.get id := by
    rw [get_remove, get_set]
  refine ⟨(warm.set a { fileA with data := zstdEncode (decA ++ decB) }).remove b, ?_, ?_, ?_, ?_⟩
  · unfold mergePair
    rw [hgetA, hgetB]
    dsimp only
    rw [hdecA, hdecB]
  · funext id
    by_cases hidb : id = b
    · subst hidb
      rw [absorb_right]
      unfold contentsAt
      rw [hget, if_pos rfl]
    · by_cases hida : id = a
      · subst hida
        rw [absorb_left hab, contentsAt_of_get hgetA hdecA, contentsAt_of_get hgetB hdecB]
        exact contentsAt_of_get (by rw [hget, if_neg hab, if_pos rfl]) (hcodec _)
      · rw [absorb_of_ne hida hidb]
        unfold contentsAt
        rw [hget, if_neg hidb, if_neg hida]
  · intro id hida hidb
    rw [hget, if_neg hidb, if_neg hida]
  · intro id hid
    rw [Table.mem_keys] at hid ⊢
    obtain ⟨file, hfile⟩ := hid
    rw [hget] at hfile
    split_ifs at hfile with hidb hida
    · exact ⟨fileA, by rw [hida]; exact hgetA⟩
    · exact ⟨file, hfile⟩

theorem mergePair_of_not_readable
    (h : ¬ (readable zstdDecode warm a && readable zstdDecode warm b) = true) :
    ∃ e, mergePair zstdEncode zstdDecode warm a b = .error e := by
  rw [Bool.and_eq_true, readable_iff, readable_iff] at h
  unfold mergePair
  cases hgetA : warm.get a with
  | none => exact ⟨_, rfl⟩
  | some fileA =>
    cases hgetB : warm.get b with
    | none => exact ⟨_, rfl⟩
    | some fileB =>
      dsimp only
      cases hdecA : zstdDecode fileA.data with
      | error => exact ⟨_, rfl⟩
      | ok decA =>
        cases hdecB : zstdDecode fileB.data with
        | error => exact ⟨_, rfl⟩
        | ok decB => exact absurd ⟨⟨fileA, decA, hgetA, hdecA⟩, fileB, decB, hgetB, hdecB⟩ h

/-! ## The loop -/

variable {warm' : Table ℕ TierFile}

theorem readable_congr {id : ℕ} (h : warm'.get id = warm.get id) :
    readable zstdDecode warm' id = readable zstdDecode warm id := by
  unfold readable
  rw [h]

theorem mergedPairs_cons_cons {rest : List ℕ} : mergedPairs zstdDecode warm (a :: b :: rest) =
      if readable zstdDecode warm a && readable zstdDecode warm b then
        (a, b) :: mergedPairs zstdDecode warm rest
      else [] := rfl

variable {ids : List ℕ}

theorem mergedPairs_of_short (h : ∀ a b rest, ids ≠ a :: b :: rest) :
    mergedPairs zstdDecode warm ids = [] := by
  obtain _ | ⟨a, _ | ⟨b, rest⟩⟩ := ids
  · rfl
  · rfl
  · exact absurd rfl (h a b rest)

theorem mergedPairs_congr (h : ∀ id ∈ ids, warm'.get id = warm.get id) :
    mergedPairs zstdDecode warm' ids = mergedPairs zstdDecode warm ids := by
  fun_induction mergedPairs zstdDecode warm ids with
  | case1 a b rest hread ih =>
    simp only [forall_mem_cons] at h
    rw [mergedPairs_cons_cons, readable_congr h.1, readable_congr h.2.1, if_pos hread, ih h.2.2]
  | case2 a b rest hread =>
    simp only [forall_mem_cons] at h
    rw [mergedPairs_cons_cons, readable_congr h.1, readable_congr h.2.1, if_neg hread]
  | case3 ids hids => exact mergedPairs_of_short hids

/-- **The loop** merges the pairs up to the first one that cannot be read. -/
theorem mergePairs_spec (hcodec : ∀ x, zstdDecode (zstdEncode x) = .ok x) {ids : List ℕ}
    (hnodup : ids.Nodup) {warm : Table ℕ TierFile} {merged : ℕ} :
    contentsAt zstdDecode (mergePairs zstdEncode zstdDecode ids warm merged).1 =
      absorbAll (contentsAt zstdDecode warm) (mergedPairs zstdDecode warm ids) ∧
    (mergePairs zstdEncode zstdDecode ids warm merged).1.keys ⊆ warm.keys := by
  fun_induction mergePairs zstdEncode zstdDecode ids warm merged with
  | case1 a b rest warm merged warm' hmerge ih =>
    simp only [nodup_cons, mem_cons, not_or] at hnodup
    obtain ⟨⟨hab, ha⟩, hb, hrest⟩ := hnodup
    obtain ⟨hcontents, hkeys⟩ := ih hrest
    by_cases hread : (readable zstdDecode warm a && readable zstdDecode warm b) = true
    · rw [mergedPairs_cons_cons, if_pos hread]
      rw [Bool.and_eq_true] at hread
      obtain ⟨warm₁, hmerge₁, hcontents₁, hsame, hkeys₁⟩ :=
        mergePair_of_readable hcodec hab hread.1 hread.2
      cases hmerge.symm.trans hmerge₁
      have hpairs : mergedPairs zstdDecode warm' rest = mergedPairs zstdDecode warm rest :=
        mergedPairs_congr fun id hid =>
          hsame id (fun h => ha (h ▸ hid)) (fun h => hb (h ▸ hid))
      rw [hcontents, hcontents₁, hpairs]
      exact ⟨rfl, hkeys.trans hkeys₁⟩
    · obtain ⟨e, herror⟩ : ∃ e, mergePair zstdEncode zstdDecode warm a b = .error e :=
        mergePair_of_not_readable hread
      rw [hmerge] at herror
      cases herror
  | case2 a b rest warm merged e hmerge =>
    have hread : ¬ (readable zstdDecode warm a && readable zstdDecode warm b) = true := by
      intro hread
      rw [Bool.and_eq_true] at hread
      simp only [nodup_cons, mem_cons, not_or] at hnodup
      obtain ⟨warm', hmerge', -⟩ :=
        mergePair_of_readable hcodec hnodup.1.1 hread.1 hread.2
      rw [hmerge] at hmerge'
      cases hmerge'
    rw [mergedPairs_cons_cons, if_neg hread]
    exact ⟨rfl, subset_rfl⟩
  | case3 ids warm merged hids =>
    rw [mergedPairs_of_short hids]
    exact ⟨rfl, subset_rfl⟩

/-! ## The trail -/

theorem warmTrail_eq_flatMap {places : List ℕ} (hsorted : places.Pairwise (· < ·))
    (hkeys : ∀ id ∈ warm.keys, id ∈ places) :
    warmTrail zstdDecode warm = places.flatMap (contentsAt zstdDecode warm) := by
  have hsort : warm.keys.sort = places.filter fun id => decide (id ∈ warm.keys) := by
    have hperm : warm.keys.sort.Perm (places.filter fun id => decide (id ∈ warm.keys)) := by
      rw [perm_ext_iff_of_nodup (Finset.sort_nodup _ _) (hsorted.nodup.filter _)]
      intro id
      rw [Finset.mem_sort, mem_filter, decide_eq_true_iff]
      exact ⟨fun h => ⟨hkeys id h, h⟩, And.right⟩
    exact hperm.eq_of_pairwise' (Finset.pairwise_sort _ _) ((hsorted.filter _).imp le_of_lt)
  have hempty (id : ℕ) (hid : id ∉ warm.keys) : contentsAt zstdDecode warm id = [] := by
    rw [Table.mem_keys, not_exists] at hid
    unfold contentsAt
    rw [Option.eq_none_iff_forall_ne_some.mpr hid]
  unfold warmTrail
  rw [hsort]
  clear hsort hkeys hsorted
  induction places with
  | nil => rfl
  | cons id places ih =>
    by_cases hid : id ∈ warm.keys
    · rw [filter_cons_of_pos (by simpa using hid), flatMap_cons, flatMap_cons, ih]
    · rw [filter_cons_of_neg (by simpa using hid), flatMap_cons, hempty id hid, ih, nil_append]

theorem placed_mergedPairs {p : ℕ → Bool} {places : List ℕ} (h : places.filter p = ids) :
    Placed places (mergedPairs zstdDecode warm ids) := by
  fun_induction mergedPairs zstdDecode warm ids generalizing places with
  | case1 a b rest hread ih =>
    obtain ⟨before, tail, rfl, -, -, htail⟩ := filter_eq_cons_iff.mp h
    obtain ⟨between, after, rfl, -, -, hafter⟩ := filter_eq_cons_iff.mp htail
    exact ⟨before, between, after, by simp, ih hafter⟩
  | case2 | case3 => trivial

def PreservesTrail (zstdEncode : List UInt8 → List UInt8)
    (zstdDecode : List UInt8 → Except String (List UInt8)) (thresholdBytes : ℕ) (tiers : Tiers) :
    Prop :=
  warmTrail zstdDecode (mergeWarmSegments zstdEncode zstdDecode thresholdBytes tiers).1.warm =
    warmTrail zstdDecode tiers.warm

/-- The second segment of every merged pair may be moved before what lies between. -/
def PairsCommute (zstdDecode : List UInt8 → Except String (List UInt8)) (thresholdBytes : ℕ)
    (tiers : Tiers) : Prop :=
  ∀ pair ∈ mergedPairs zstdDecode tiers.warm (smallSegments thresholdBytes tiers),
    contentsAt zstdDecode tiers.warm pair.2 ++ contentsBetween zstdDecode tiers.warm pair.1 pair.2 =
      contentsBetween zstdDecode tiers.warm pair.1 pair.2 ++ contentsAt zstdDecode tiers.warm pair.2

theorem mergeWarmSegments_warm (thresholdBytes : ℕ) (tiers : Tiers) :
    (mergeWarmSegments zstdEncode zstdDecode thresholdBytes tiers).1.warm =
      (mergePairs zstdEncode zstdDecode (smallSegments thresholdBytes tiers) tiers.warm 0).1 := by
  unfold mergeWarmSegments
  obtain _ | ⟨a, _ | ⟨b, rest⟩⟩ := smallSegments thresholdBytes tiers
  · rfl
  · rfl
  · rw [if_neg (by simp)]

theorem sorted_warm {warm : Table ℕ TierFile} : warm.keys.sort.Pairwise (· < ·) :=
  (Finset.sortedLT_sort _).pairwise

theorem warmTrail_mergeWarmSegments (hcodec : ∀ x, zstdDecode (zstdEncode x) = .ok x)
    (thresholdBytes : ℕ) (tiers : Tiers) :
    warmTrail zstdDecode (mergeWarmSegments zstdEncode zstdDecode thresholdBytes tiers).1.warm =
      tiers.warm.keys.sort.flatMap (absorbAll (contentsAt zstdDecode tiers.warm)
        (mergedPairs zstdDecode tiers.warm (smallSegments thresholdBytes tiers))) := by
  have hnodup : (smallSegments thresholdBytes tiers).Nodup :=
    sorted_warm.nodup.filter _
  obtain ⟨hcontents, hkeys⟩ := mergePairs_spec hcodec hnodup
  rw [mergeWarmSegments_warm, ← hcontents]
  exact warmTrail_eq_flatMap sorted_warm fun id hid => (Finset.mem_sort _).mpr (hkeys hid)

/-- **Merging and the trail.** The content is preserved exactly if the second segment of every
merged pair may be moved before what lies between. -/
theorem preservesTrail_iff_pairsCommute (hcodec : ∀ x, zstdDecode (zstdEncode x) = .ok x)
    (thresholdBytes : ℕ) (tiers : Tiers) :
    PreservesTrail zstdEncode zstdDecode thresholdBytes tiers ↔
      PairsCommute zstdDecode thresholdBytes tiers := by
  have hplaced : Placed tiers.warm.keys.sort
      (mergedPairs zstdDecode tiers.warm (smallSegments thresholdBytes tiers)) :=
    placed_mergedPairs rfl
  unfold PreservesTrail
  rw [warmTrail_mergeWarmSegments hcodec]
  exact flatMap_absorbAll_eq_iff sorted_warm hplaced _

def threeSegments (first second third : List UInt8) : Tiers where
  hot := ∅
  warm := (((∅ : Table ℕ TierFile).set 1 ⟨first, 0⟩).set 2 ⟨second, 0⟩).set 3 ⟨third, 0⟩
  cold := ∅

theorem sort_threeSegments (first second third : List UInt8) :
    (threeSegments first second third).warm.keys.sort = [1, 2, 3] := by
  have hkeys : (threeSegments first second third).warm.keys = [1, 2, 3].toFinset := by
    ext id
    rw [Table.mem_keys]
    unfold threeSegments
    simp only [get_set, get_empty, mem_toFinset, mem_cons, not_mem_nil, or_false]
    split_ifs <;> simp_all
  rw [hkeys]
  exact toFinset_sort (· ≤ ·) (by decide) |>.mpr (by decide)

theorem preservesTrail_adjacent : mergedPairs .ok (threeSegments [1] [2] [3]).warm
      (smallSegments 10 (threeSegments [1] [2] [3])) = [(1, 2)] ∧
    PreservesTrail id .ok 10 (threeSegments [1] [2] [3]) := by
  have hpairs : mergedPairs .ok (threeSegments [1] [2] [3]).warm
      (smallSegments 10 (threeSegments [1] [2] [3])) = [(1, 2)] := by
    unfold smallSegments TierManager.listWarmSegments
    rw [sort_threeSegments]
    rfl
  refine ⟨hpairs, (preservesTrail_iff_pairsCommute (fun _ => rfl) _ _).mpr ?_⟩
  unfold PairsCommute contentsBetween
  rw [hpairs, sort_threeSegments]
  simp [placesBetween]

/-- **A larger segment in between**: what the third segment holds comes before the second. -/
theorem not_preservesTrail_across : ¬ PreservesTrail id .ok 2 (threeSegments [1] [2, 2] [3]) := by
  have hcodec (x : List UInt8) : (.ok (id x) : Except String (List UInt8)) = .ok x := rfl
  unfold PreservesTrail
  rw [warmTrail_mergeWarmSegments hcodec]
  unfold warmTrail smallSegments TierManager.listWarmSegments
  rw [sort_threeSegments]
  decide

end Wacp.CompactionTask
