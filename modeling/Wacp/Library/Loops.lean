import Mathlib.Data.Finset.Lattice.Fold
import Wacp.Library.Table

/-!
# Loops over lists, sets and tables

A loop that stops at the first error passes exactly if every element passes. A loop over a table
visits the entries in an unknown order (`Enumerates`); what the loops treated here lead to depends
on the entries and not on their order.
-/

namespace Wacp.Library

open List

/-! ## Checks -/

section Checks

variable {ε α β : Type}

theorem bind_eq_ok_iff {x : Except ε α} {f : α → Except ε β} {b : β} :
    (x >>= f) = .ok b ↔ ∃ a, x = .ok a ∧ f a = .ok b := by
  cases x with
  | error =>
    constructor
    · intro h
      cases h
    · rintro ⟨a, ha, -⟩
      cases ha
  | ok a =>
    constructor
    · intro h
      exact ⟨a, rfl, h⟩
    · rintro ⟨a', ha, h⟩
      cases ha
      exact h

theorem forM_eq_ok_iff {f : α → Except ε Unit} {l : List α} :
    l.forM f = .ok () ↔ ∀ a ∈ l, f a = .ok () := by
  induction l with
  | nil =>
    constructor
    · intro _ a ha
      cases ha
    · intro _
      rfl
  | cons a l ih =>
    show (f a >>= fun _ => l.forM f) = .ok () ↔ _
    rw [bind_eq_ok_iff, forall_mem_cons, ← ih]
    constructor
    · rintro ⟨⟨⟩, ha, hl⟩
      exact ⟨ha, hl⟩
    · rintro ⟨ha, hl⟩
      exact ⟨(), ha, hl⟩

/-- A loop that remembers the keys it has seen and stops at the first repeated one. -/
def checkUnique {K : Type} [DecidableEq K] (error : K → ε) : List K → List K → Except ε Unit
  | _, [] => .ok ()
  | seen, k :: rest =>
    if k ∈ seen then .error (error k) else checkUnique error (k :: seen) rest

theorem checkUnique_eq_ok_iff {K : Type} [DecidableEq K] {error : K → ε} {seen l : List K} :
    checkUnique error seen l = .ok () ↔ l.Nodup ∧ ∀ k ∈ l, k ∉ seen := by
  induction l generalizing seen with
  | nil => simp [checkUnique]
  | cons k l ih =>
    rw [checkUnique]
    by_cases hk : k ∈ seen
    · rw [if_pos hk]
      constructor
      · intro h
        cases h
      · rintro ⟨-, hfresh⟩
        exact absurd hk (hfresh k mem_cons_self)
    · rw [if_neg hk, ih, nodup_cons, forall_mem_cons]
      constructor
      · rintro ⟨hnodup, hfresh⟩
        refine ⟨⟨fun hmem => hfresh k hmem mem_cons_self, hnodup⟩, hk, ?_⟩
        intro k' hk' hseen
        exact hfresh k' hk' (mem_cons_of_mem _ hseen)
      · rintro ⟨⟨hnotin, hnodup⟩, -, hfresh⟩
        refine ⟨hnodup, ?_⟩
        intro k' hk' hseen
        rcases mem_cons.mp hseen with rfl | hseen
        · exact hnotin hk'
        · exact hfresh k' hk' hseen

end Checks

/-! ## Insertions into a set -/

theorem mem_foldl_insert {α β : Type} [DecidableEq α] {f : β → α} {l : List β} {s : Finset α}
    {x : α} : x ∈ l.foldl (fun s b => insert (f b) s) s ↔ x ∈ s ∨ ∃ b ∈ l, f b = x := by
  induction l generalizing s with
  | nil => simp
  | cons b l ih =>
    rw [foldl_cons, ih, Finset.mem_insert, exists_mem_cons_iff]
    constructor
    · rintro ((rfl | hs) | hl)
      · exact .inr (.inl rfl)
      · exact .inl hs
      · exact .inr (.inr hl)
    · rintro (hs | rfl | hl)
      · exact .inl (.inr hs)
      · exact .inl (.inl rfl)
      · exact .inr hl

theorem mem_foldl_insert_empty {α : Type} [DecidableEq α] {l : List α} {x : α} :
    x ∈ l.foldl (fun s a => insert a s) (∅ : Finset α) ↔ x ∈ l := by
  have h := mem_foldl_insert (f := fun a : α => a) (l := l) (s := ∅) (x := x)
  rw [h]
  simp

/-! ## The largest key -/

section Largest

variable {K α : Type} [LinearOrder K] {key : α → Option K}

def keepLargest (key : α → Option K) (best : Option (K × α)) (a : α) : Option (K × α) :=
  match key a with
  | none => best
  | some k =>
    match best with
    | some (k', _) => if k' < k then some (k, a) else best
    | none => some (k, a)

/-- What the loop has found: an element with its key, and no element has a larger one. -/
structure Largest (key : α → Option K) (l : List α) (best : Option (K × α)) : Prop where
  found : ∀ k a, best = some (k, a) → a ∈ l ∧ key a = some k
  upper : ∀ a ∈ l, ∀ k, key a = some k → ∃ k' a', best = some (k', a') ∧ k ≤ k'

theorem Largest.step {l : List α} {best : Option (K × α)} (h : Largest key l best) (a : α) :
    Largest key (l ++ [a]) (keepLargest key best a) := by
  -- the new element is kept when its key is above all others
  have hnew : ∀ k, key a = some k → (∀ k' a', best = some (k', a') → k' < k) →
      Largest key (l ++ [a]) (some (k, a)) := by
    intro k hk hbelow
    constructor
    · rintro _ _ ⟨⟩
      exact ⟨by simp, hk⟩
    · intro b hb kb hkb
      rcases mem_append.mp hb with hb | hb
      · obtain ⟨k', a', hbest, hle⟩ := h.upper b hb kb hkb
        exact ⟨k, a, rfl, hle.trans (hbelow k' a' hbest).le⟩
      · rw [mem_singleton.mp hb, hk] at hkb
        cases hkb
        exact ⟨k, a, rfl, le_refl _⟩
  have hold : (∀ k, key a = some k → ∃ k' a', best = some (k', a') ∧ k ≤ k') →
      Largest key (l ++ [a]) best := by
    intro hbelow
    constructor
    · intro k b hbest
      obtain ⟨hb, hkb⟩ := h.found k b hbest
      exact ⟨mem_append_left _ hb, hkb⟩
    · intro b hb kb hkb
      rcases mem_append.mp hb with hb | hb
      · exact h.upper b hb kb hkb
      · rw [mem_singleton.mp hb] at hkb
        exact hbelow kb hkb
  unfold keepLargest
  split
  · next hnone => exact hold fun k hk => by rw [hnone] at hk; cases hk
  · next k hk =>
      split
      · next k' a' =>
          split_ifs with hlt
          · refine hnew k hk ?_
            rintro _ _ ⟨⟩
            exact hlt
          · refine hold fun k₁ hk₁ => ⟨k', a', rfl, ?_⟩
            rw [hk] at hk₁
            cases hk₁
            exact not_lt.mp hlt
      · exact hnew k hk (by rintro _ _ ⟨⟩)

theorem largest_foldl (key : α → Option K) (l : List α) :
    Largest key l (l.foldl (keepLargest key) none) := by
  induction l using List.reverseRecOn with
  | nil => exact ⟨by simp, by simp⟩
  | append_singleton l a ih =>
    rw [foldl_append]
    exact ih.step a

end Largest

namespace Table

variable {K V W : Type} [DecidableEq K]

/-! ## Insertions under the keys -/

structure Enumerates (l : List (K × V)) (m : Table K V) : Prop where
  nodup : (l.map Prod.fst).Nodup
  mem : ∀ k v, (k, v) ∈ l ↔ m.get k = some v

section Set

variable {l : List (K × V)} {f : V → W} {n : Table K W} {k : K}

theorem get_foldl_set_of_notMem (hk : k ∉ l.map Prod.fst) :
    (l.foldl (fun n p => n.set p.1 (f p.2)) n).get k = n.get k := by
  induction l generalizing n with
  | nil => rfl
  | cons p l ih =>
    rw [map_cons, mem_cons, not_or] at hk
    rw [foldl_cons, ih hk.2, get_set, if_neg hk.1]

theorem get_foldl_set_of_mem (hnodup : (l.map Prod.fst).Nodup) {v : V} (hv : (k, v) ∈ l) :
    (l.foldl (fun n p => n.set p.1 (f p.2)) n).get k = some (f v) := by
  induction l generalizing n with
  | nil => cases hv
  | cons p l ih =>
    rw [map_cons, nodup_cons] at hnodup
    rw [foldl_cons]
    rcases mem_cons.mp hv with rfl | hv
    · rw [get_foldl_set_of_notMem hnodup.1, get_set_self]
    · exact ih hnodup.2 hv

/-- A loop that inserts under every key of a table leads to the entries of the table
over what was there. -/
theorem Enumerates.get_foldl_set {m : Table K V} (h : Enumerates l m) :
    (l.foldl (fun n p => n.set p.1 (f p.2)) n).get k = ((m.get k).map f).or (n.get k) := by
  cases hk : m.get k with
  | some v => exact get_foldl_set_of_mem h.nodup ((h.mem k v).mpr hk)
  | none =>
    apply get_foldl_set_of_notMem
    intro hmem
    obtain ⟨⟨k', v⟩, hv, rfl⟩ := mem_map.mp hmem
    rw [(h.mem k' v).mp hv] at hk
    cases hk

end Set

/-! ## Insertions into the set at a key -/

section Sets

variable [DecidableEq V]

def insertInto (m : Table K (Finset V)) (k : K) (v : V) : Table K (Finset V) :=
  m.set k (insert v ((m.get k).getD ∅))

theorem get_foldl_insertInto (l : List (K × V)) (m : Table K (Finset V)) (k : K) :
    (l.foldl (fun m p => m.insertInto p.1 p.2) m).get k =
      if k ∈ l.map Prod.fst then
        some ((m.get k).getD ∅ ∪ ((l.filter fun p => decide (p.1 = k)).map Prod.snd).toFinset)
      else m.get k := by
  induction l generalizing m with
  | nil => simp
  | cons p l ih =>
    rw [foldl_cons, ih, insertInto, get_set]
    by_cases hp : k = p.1
    · subst hp
      by_cases hk : p.1 ∈ l.map Prod.fst
      · simp [hk, Finset.insert_union, Finset.union_insert]
      · have hnone : l.filter (fun q => decide (q.1 = p.1)) = [] := by
          rw [filter_eq_nil_iff]
          intro q hq heq
          exact hk (mem_map.mpr ⟨q, hq, of_decide_eq_true heq⟩)
        simp [hk, hnone]
    · have hkeys : k ∈ (p :: l).map Prod.fst ↔ k ∈ l.map Prod.fst := by simp [hp]
      rw [if_neg hp, filter_cons_of_neg (by simpa using Ne.symm hp)]
      simp only [hkeys]

theorem mem_foldl_insertInto {l : List (K × V)} {m : Table K (Finset V)} {k : K} {v : V} :
    (∃ s, (l.foldl (fun m p => m.insertInto p.1 p.2) m).get k = some s ∧ v ∈ s) ↔
      (∃ s, m.get k = some s ∧ v ∈ s) ∨ (k, v) ∈ l := by
  rw [get_foldl_insertInto]
  by_cases hk : k ∈ l.map Prod.fst
  · rw [if_pos hk]
    cases hm : m.get k with
    | none | some => simp
  · rw [if_neg hk]
    constructor
    · exact .inl
    · rintro (h | h)
      · exact h
      · exact absurd (mem_map.mpr ⟨_, h, rfl⟩) hk

theorem foldl_insertInto_congr {l l' : List (K × V)} (h : ∀ p, p ∈ l ↔ p ∈ l')
    (m : Table K (Finset V)) : l.foldl (fun m p => m.insertInto p.1 p.2) m =
      l'.foldl (fun m p => m.insertInto p.1 p.2) m := by
  apply Table.ext
  intro k
  rw [get_foldl_insertInto, get_foldl_insertInto]
  have hkeys : k ∈ l.map Prod.fst ↔ k ∈ l'.map Prod.fst := by
    simp [h]
  have hset : ((l.filter fun p => decide (p.1 = k)).map Prod.snd).toFinset =
      ((l'.filter fun p => decide (p.1 = k)).map Prod.snd).toFinset := by
    ext v
    simp [h]
  rw [hset]
  simp only [hkeys]

end Sets

end Table

end Wacp.Library
