import Mathlib.Data.Finmap

/-!
# Finite tables

A `Table K V` is what the sources use a `HashMap<K, V>` for. It is Mathlib's `Finmap` at a constant
family, so tables with the same lookups are equal and the values come as a multiset. Each operation
has one lemma that says what a lookup sees afterwards; nothing outside this file unfolds a table.
-/

namespace Wacp.Library

open List Option Finmap Function

def Table (K V : Type) : Type := Finmap fun _ : K => V

namespace Table

variable {K V : Type}

instance : EmptyCollection (Table K V) := ⟨(∅ : Finmap fun _ : K => V)⟩

def keys (m : Table K V) : Finset K := Finmap.keys m

def values (m : Table K V) : Multiset V := (entries m).map Sigma.snd

theorem nodupKeys_filter (m : Table K V) (p : (Σ _ : K, V) → Bool) :
    (Multiset.filter (fun e => p e = true) (entries m)).NodupKeys := by
  rw [← Multiset.nodup_keys]
  have h := Multiset.nodup_keys.mpr m.nodupKeys
  exact Multiset.nodup_of_le (Multiset.map_le_map (Multiset.filter_le _ _)) h

def retain (m : Table K V) (p : K → V → Bool) : Table K V :=
  ⟨(entries m).filter fun e => p e.1 e.2 = true, nodupKeys_filter m fun e => p e.1 e.2⟩

variable [DecidableEq K]

instance [DecidableEq V] : DecidableEq (Table K V) :=
  inferInstanceAs (DecidableEq (Finmap fun _ : K => V))

def get (m : Table K V) (k : K) : Option V := lookup k m

def contains (m : Table K V) (k : K) : Bool := (m.get k).isSome

def set (m : Table K V) (k : K) (v : V) : Table K V := insert k v m

def remove (m : Table K V) (k : K) : Table K V := erase k m

def modify (m : Table K V) (k : K) (f : V → V) : Table K V :=
  match m.get k with
  | some v => m.set k (f v)
  | none => m

def extend (m n : Table K V) : Table K V := (n ∪ m : Finmap fun _ : K => V)

def getList (m : Table K (List V)) (k : K) : List V := (m.get k).getD []

def push (m : Table K (List V)) (k : K) (v : V) : Table K (List V) :=
  m.set k (m.getList k ++ [v])

theorem ext {m m' : Table K V} (h : ∀ k, m.get k = m'.get k) : m = m' := ext_lookup h

@[simp] theorem get_empty {k : K} : (∅ : Table K V).get k = none := lookup_empty k

section

variable (m : Table K V) {k k' : K}

theorem get_set {v : V} : (m.set k v).get k' = if k' = k then some v else m.get k' := by
  by_cases h : k' = k
  · subst h
    simp only [get, set, if_true]
    exact lookup_insert m
  · simp only [get, set, h, if_false]
    exact lookup_insert_of_ne m h

@[simp] theorem get_set_self {v : V} : (m.set k v).get k = some v := by
  simp [get_set]

theorem get_remove : (m.remove k).get k' = if k' = k then none else m.get k' := by
  by_cases h : k' = k
  · subst h
    rw [if_pos rfl]
    exact lookup_erase k' m
  · rw [if_neg h]
    exact lookup_erase_ne h

theorem get_retain (p : K → V → Bool) : (m.retain p).get k = (m.get k).filter (p k) := by
  have hmem : ∀ (t : Table K V) (v : V), t.get k = some v ↔ ⟨k, v⟩ ∈ entries t :=
    fun _ _ => lookup_eq_some_iff
  ext v
  rw [filter_eq_some_iff, hmem, hmem]
  exact Multiset.mem_filter

theorem get_extend (n : Table K V) (k : K) : (m.extend n).get k = (n.get k).or (m.get k) := by
  cases hn : n.get k with
  | some => exact (lookup_union_left (mem_of_lookup_eq_some hn)).trans hn
  | none => exact lookup_union_right (lookup_eq_none.mp hn)

@[simp] theorem extend_empty : m.extend ∅ = m := by
  apply ext
  intro k
  rw [get_extend, get_empty, none_or]

@[simp] theorem empty_extend : (∅ : Table K V).extend m = m := by
  apply ext
  intro k
  rw [get_extend, get_empty, or_none]

theorem extend_set (n : Table K V) (k : K) (v : V) :
    m.extend (n.set k v) = (m.extend n).set k v := by
  apply ext
  intro k'
  rw [get_extend, get_set, get_set, get_extend]
  split <;> rfl

theorem get_modify (k k' : K) (f : V → V) :
    (m.modify k f).get k' = if k' = k then (m.get k').map f else m.get k' := by
  unfold modify
  by_cases h : k' = k
  · subst h
    cases hk : m.get k' with
    | none => simp [hk]
    | some => simp
  · cases hk : m.get k with
    | none => simp [h]
    | some => simp [get_set, h]

end

theorem getList_push (m : Table K (List V)) (k k' : K) (v : V) :
    (m.push k v).getList k' = m.getList k' ++ if k' = k then [v] else [] := by
  unfold push getList
  by_cases h : k' = k <;> simp [get_set, h]

theorem getList_modify {m : Table K (List V)} {k k' : K} {f : List V → List V} (hf : f [] = []) :
    (m.modify k f).getList k' = if k' = k then f (m.getList k') else m.getList k' := by
  unfold getList
  rw [get_modify]
  by_cases h : k' = k
  · simp only [h, if_true]
    cases m.get k <;> simp [hf]
  · simp [h]

/-- What a lookup sees after assignments through `get_mut` at every key of a list, when
repeating an assignment changes nothing. -/
theorem get_foldl_modify {f : V → V} (hf : ∀ v, f (f v) = f v) (l : List K) (m : Table K V)
    (k : K) : (l.foldl (fun m k => m.modify k f) m).get k =
      if k ∈ l then (m.get k).map f else m.get k := by
  induction l generalizing m with
  | nil => simp
  | cons a l ih =>
    rw [foldl_cons, ih, get_modify]
    by_cases hka : k = a
    · subst hka
      cases m.get k <;> simp [hf]
    · simp [hka]

@[simp] theorem getList_empty (k : K) : (∅ : Table K (List V)).getList k = [] := by
  simp [getList]

section

variable {m : Table K V} {k : K}

theorem contains_iff : m.contains k = true ↔ ∃ v, m.get k = some v :=
  isSome_iff_exists

theorem contains_eq_false_iff : m.contains k = false ↔ m.get k = none := by
  unfold contains
  cases m.get k <;> simp

theorem mem_keys : k ∈ m.keys ↔ ∃ v, m.get k = some v :=
  Finmap.mem_keys.trans Finmap.mem_iff

theorem mem_values {v : V} : v ∈ m.values ↔ ∃ k, m.get k = some v := by
  unfold values get
  rw [Multiset.mem_map]
  constructor
  · rintro ⟨⟨k, v'⟩, hmem, rfl⟩
    exact ⟨k, lookup_eq_some_iff.mpr hmem⟩
  · rintro ⟨k, hk⟩
    exact ⟨⟨k, v⟩, lookup_eq_some_iff.mp hk, rfl⟩

theorem map_values_eq_keys {f : V → K} (hf : ∀ k v, m.get k = some v → f v = k) :
    m.values.map f = m.keys.val := by
  unfold values keys Finmap.keys
  rw [Multiset.map_map]
  apply Multiset.map_congr rfl
  rintro ⟨k, v⟩ hmem
  exact hf k v (Finmap.lookup_eq_some_iff.mpr hmem)

end

/-! ## Reverse indices -/

section Index

variable {W : Type} [DecidableEq W] {m : Table K (List W)} {key : W → Option K}

/-- `m` is an exact index of `key`: it lists `w` once, under `key w`, and nowhere else. -/
def Indexes (m : Table K (List W)) (key : W → Option K) : Prop :=
  ∀ k w, (m.getList k).count w = if key w = some k then 1 else 0

theorem indexes_empty : (∅ : Table K (List W)).Indexes fun _ => none := by
  intro k w
  simp

variable (h : m.Indexes key) {k : K} {w : W}
include h

theorem Indexes.notMem (hw : key w ≠ some k) : w ∉ m.getList k := by
  have hcount := h k w
  rw [if_neg hw] at hcount
  exact count_eq_zero.mp hcount

theorem Indexes.mem_iff : w ∈ m.getList k ↔ key w = some k := by
  have hcount := h k w
  constructor
  · intro hmem
    by_contra hw
    exact h.notMem hw hmem
  · intro hw
    rw [if_pos hw] at hcount
    exact count_pos_iff.mp (by omega)

theorem Indexes.push (hw : key w = none) : (m.push k w).Indexes (update key w (some k)) := by
  intro k' w'
  have hcount := h k' w'
  rw [getList_push, count_append, hcount]
  by_cases hw' : w' = w
  · subst hw'
    by_cases hk : k' = k
    · simp [hw, hk]
    · simp [hw, hk, Ne.symm hk]
  · have hzero : (if k' = k then [w] else []).count w' = 0 := by
      split <;> simp [Ne.symm hw']
    simp [hzero, update_of_ne hw']

/-- Dropping an element from the list of its key and pushing it under another key
indexes it there. -/
theorem Indexes.move {k₀ : K} (hw : key w = some k₀) :
    ((m.modify k₀ fun l => l.filter (· ≠ w)).push k w).Indexes
      (update key w (some k)) := by
  have hdrop : (m.modify k₀ fun l => l.filter (· ≠ w)).Indexes
      (update key w none) := by
    intro k' w'
    have hcount := h k' w'
    rw [getList_modify rfl]
    by_cases hw' : w' = w
    · subst hw'
      by_cases hk : k' = k₀
      · simp [hk, count_eq_zero]
      · have hk' : ¬ key w' = some k' := by
          rw [hw]
          exact fun e => hk (Option.some.inj e).symm
        simpa [hk, hk'] using hcount
    · have hkeep : ((m.getList k').filter fun x => decide (x ≠ w)).count w' =
          (m.getList k').count w' := count_filter (by simpa using hw')
      rw [update_of_ne hw', ← hcount]
      split
      · exact hkeep
      · rfl
  have hpush : ((m.modify k₀ fun l => l.filter (· ≠ w)).push k w).Indexes
      (update (update key w none) w (some k)) := hdrop.push (by simp)
  rwa [update_idem] at hpush

end Index

end Table

end Wacp.Library
