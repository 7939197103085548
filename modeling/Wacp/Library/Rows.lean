import Mathlib.Data.List.Nodup

/-!
# Rows of a table under SQL statements

The rows of a table are a list. `updateWhere` is `UPDATE … SET … WHERE …`, `deleteWhere` is `DELETE
FROM … WHERE …`. A key is a function of the row; it is unique if the keys of the rows have no
duplicates.
-/

namespace Wacp.Library

open List

variable {R K : Type}

def updateWhere (p : R → Bool) (f : R → R) (rows : List R) : List R :=
  rows.map fun r => if p r then f r else r

def deleteWhere (p : R → Bool) (rows : List R) : List R :=
  rows.filter fun r => !p r

variable {p : R → Bool} {rows : List R} {r : R}

/-- The rows after an update: those that were replaced, and those that did not meet the
condition. -/
theorem mem_updateWhere {f : R → R} :
    r ∈ updateWhere p f rows ↔ (∃ s ∈ rows, p s = true ∧ f s = r) ∨ (r ∈ rows ∧ p r = false) := by
  constructor
  · intro h
    obtain ⟨s, hs, hr⟩ := mem_map.mp h
    cases hp : p s with
    | true => exact .inl ⟨s, hs, hp, by simpa [hp] using hr⟩
    | false =>
      have hsr : s = r := by simpa [hp] using hr
      subst hsr
      exact .inr ⟨hs, hp⟩
  · rintro (⟨s, hs, hp, rfl⟩ | ⟨hr, hp⟩)
    · exact mem_map.mpr ⟨s, hs, if_pos hp⟩
    · exact mem_map.mpr ⟨r, hr, by simp [hp]⟩

theorem map_updateWhere (key : R → K) {f : R → R} (hkey : ∀ r, key (f r) = key r) (rows : List R) :
    (updateWhere p f rows).map key = rows.map key := by
  rw [updateWhere, map_map]
  refine map_congr_left fun r _ => ?_
  simp only [Function.comp_apply]
  split_ifs
  · exact hkey r
  · rfl

theorem mem_deleteWhere : r ∈ deleteWhere p rows ↔ r ∈ rows ∧ p r = false := by
  simp [deleteWhere]

theorem eq_of_key_eq {key : R → K} (h : (rows.map key).Nodup) {s : R} (hr : r ∈ rows)
    (hs : s ∈ rows) (hkey : key r = key s) : r = s :=
  inj_on_of_nodup_map h hr hs hkey

theorem find?_eq_some_of_unique (hr : r ∈ rows) (hp : p r = true)
    (hunique : ∀ s ∈ rows, p s = true → s = r) : rows.find? p = some r := by
  obtain ⟨s, hs⟩ := Option.isSome_iff_exists.mp (find?_isSome.mpr ⟨r, hr, hp⟩)
  rw [hs, hunique s (mem_of_find?_eq_some hs) (find?_some hs)]

theorem find?_key_eq_some_iff [DecidableEq K] {key : R → K} (h : (rows.map key).Nodup) {k : K} :
    (rows.find? fun s => decide (key s = k)) = some r ↔ r ∈ rows ∧ key r = k := by
  constructor
  · intro hfind
    exact ⟨mem_of_find?_eq_some hfind, by simpa using find?_some hfind⟩
  · rintro ⟨hr, hk⟩
    refine find?_eq_some_of_unique hr (decide_eq_true hk) fun s hs hsk => ?_
    exact eq_of_key_eq h hs hr ((of_decide_eq_true hsk).trans hk.symm)

end Wacp.Library
