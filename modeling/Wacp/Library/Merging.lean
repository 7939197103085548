import Mathlib.Data.List.Sort
import Mathlib.Order.Basic
import Mathlib.Logic.Function.Basic

/-!
# Merging pieces of a sequence

The pieces of a sequence lie at places of an order. Merging moves the piece of one place to the end
of the piece of an earlier one. The sequence stays the same exactly if the piece that moved commutes
with what lay between the two (`flatMap_absorbAll_eq_iff`).
-/

namespace Wacp.Library

open List Function

variable {ι α : Type}

section Absorb

variable [DecidableEq ι]

def absorb (piece : ι → List α) (a b : ι) : ι → List α :=
  update (update piece a (piece a ++ piece b)) b []

def absorbAll (piece : ι → List α) : List (ι × ι) → ι → List α
  | [] => piece
  | (a, b) :: pairs => absorbAll (absorb piece a b) pairs

variable {piece : ι → List α} {a b : ι}

theorem absorb_of_ne {i : ι} (ha : i ≠ a) (hb : i ≠ b) : absorb piece a b i = piece i := by
  unfold absorb
  rw [update_of_ne hb, update_of_ne ha]

theorem absorb_left (h : a ≠ b) : absorb piece a b a = piece a ++ piece b := by
  unfold absorb
  rw [update_of_ne h, update_self]

theorem absorb_right : absorb piece a b b = [] :=
  update_self _ _ _

variable {pairs : List (ι × ι)}

theorem absorbAll_congr {piece' : ι → List α} {P : ι → Prop}
    (hpairs : ∀ pair ∈ pairs, P pair.1 ∧ P pair.2) (h : ∀ i, P i → piece i = piece' i) :
    ∀ i, P i → absorbAll piece pairs i = absorbAll piece' pairs i := by
  induction pairs generalizing piece piece' with
  | nil => exact h
  | cons pair pairs ih =>
    obtain ⟨a, b⟩ := pair
    rw [forall_mem_cons] at hpairs
    apply ih hpairs.2
    intro i hi
    unfold absorb
    rw [h a hpairs.1.1, h b hpairs.1.2]
    by_cases hb : i = b
    · rw [hb, update_self, update_self]
    · rw [update_of_ne hb, update_of_ne hb]
      by_cases ha : i = a
      · rw [ha, update_self, update_self]
      · rw [update_of_ne ha, update_of_ne ha, h i hi]

theorem absorbAll_of_notMem {i : ι}
    (h : ∀ pair ∈ pairs, i ≠ pair.1 ∧ i ≠ pair.2) : absorbAll piece pairs i = piece i := by
  induction pairs generalizing piece with
  | nil => rfl
  | cons pair pairs ih =>
    rw [forall_mem_cons] at h
    have hrest : absorbAll (absorb piece pair.1 pair.2) pairs i = absorb piece pair.1 pair.2 i :=
      ih h.2
    exact hrest.trans (absorb_of_ne h.1.1 h.1.2)

theorem flatMap_absorb {before between : List ι} (hnodup : (before ++ a :: between ++ [b]).Nodup)
    (piece : ι → List α) : (before ++ a :: between ++ [b]).flatMap (absorb piece a b) =
      before.flatMap piece ++ piece a ++ (piece b ++ between.flatMap piece) := by
  have hab : a ≠ b := by
    rintro rfl
    simp [nodup_append] at hnodup
  have hsame (l : List ι) (ha : a ∉ l) (hb : b ∉ l) :
      l.flatMap (absorb piece a b) = l.flatMap piece := by
    apply flatMap_congr
    intro i hi
    exact absorb_of_ne (fun h => ha (h ▸ hi)) (fun h => hb (h ▸ hi))
  have hnotMem : a ∉ before ∧ b ∉ before ∧ a ∉ between ∧ b ∉ between := by
    grind
  obtain ⟨ha₁, hb₁, ha₂, hb₂⟩ := hnotMem
  simp [absorb_left hab, absorb_right, hsame before ha₁ hb₁, hsame between ha₂ hb₂]

end Absorb

def Placed : List ι → List (ι × ι) → Prop
  | _, [] => True
  | places, (a, b) :: pairs => ∃ before between after,
    places = before ++ a :: between ++ b :: after ∧ Placed after pairs

theorem Placed.mem {places : List ι} {pairs : List (ι × ι)} (h : Placed places pairs) :
    ∀ pair ∈ pairs, pair.1 ∈ places ∧ pair.2 ∈ places := by
  induction pairs generalizing places with
  | nil => simp
  | cons pair pairs ih =>
    obtain ⟨before, between, after, rfl, hafter⟩ := h
    rw [forall_mem_cons]
    refine ⟨by simp, ?_⟩
    intro p hp
    obtain ⟨h₁, h₂⟩ := ih hafter p hp
    simp [h₁, h₂]

section Between

variable [LinearOrder ι]

def placesBetween (places : List ι) (a b : ι) : List ι :=
  places.filter fun i => decide (a < i ∧ i < b)

theorem placesBetween_of_split {before between after : List ι} {a b : ι}
    (h : (before ++ a :: between ++ b :: after).Pairwise (· < ·)) :
    placesBetween (before ++ a :: between ++ b :: after) a b = between := by
  simp only [pairwise_append, pairwise_cons, mem_append, mem_cons] at h
  obtain ⟨⟨-, ⟨ha, -⟩, hbefore⟩, ⟨hafter, -⟩, hb⟩ := h
  unfold placesBetween
  have hbefore' : before.filter (fun i => decide (a < i ∧ i < b)) = [] := by
    rw [filter_eq_nil_iff]
    intro i hi
    have := hbefore i hi a (.inl rfl)
    simp [this.le]
  have hbetween : between.filter (fun i => decide (a < i ∧ i < b)) = between := by
    rw [filter_eq_self]
    intro i hi
    have := ha i hi
    have := hb i (.inr (.inr hi)) b (.inl rfl)
    simp [*]
  have hafter' : after.filter (fun i => decide (a < i ∧ i < b)) = [] := by
    rw [filter_eq_nil_iff]
    intro i hi
    have := hafter i hi
    simp [this.le]
  rw [filter_append, filter_append, hbefore', filter_cons_of_neg (by simp),
    hbetween, filter_cons_of_neg (by simp), hafter', nil_append, append_nil]

theorem placesBetween_append {before after : List ι} {a b : ι}
    (h : (before ++ after).Pairwise (· < ·)) (ha : a ∈ after) :
    placesBetween (before ++ after) a b = placesBetween after a b := by
  obtain ⟨-, -, hlt⟩ := pairwise_append.mp h
  unfold placesBetween
  rw [filter_append, filter_eq_nil_iff.mpr, nil_append]
  intro i hi
  simp [(hlt i hi a ha).le]

/-- **The sequence after the moves** is the same exactly if each piece that moved
commutes with what lay between. -/
theorem flatMap_absorbAll_eq_iff {places : List ι} (hsorted : places.Pairwise (· < ·))
    {pairs : List (ι × ι)} (hplaced : Placed places pairs) (piece : ι → List α) :
    places.flatMap (absorbAll piece pairs) = places.flatMap piece ↔
      ∀ pair ∈ pairs, piece pair.2 ++ (placesBetween places pair.1 pair.2).flatMap piece =
        (placesBetween places pair.1 pair.2).flatMap piece ++ piece pair.2 := by
  induction pairs generalizing places with
  | nil => simp [absorbAll]
  | cons pair pairs ih =>
    obtain ⟨a, b⟩ := pair
    obtain ⟨before, between, after, rfl, hafter⟩ := hplaced
    have hbetween := placesBetween_of_split hsorted
    have hsplit : before ++ a :: between ++ b :: after =
        (before ++ a :: between ++ [b]) ++ after := by simp
    rw [hsplit] at hsorted hbetween ⊢
    have hmem := hafter.mem
    have hfirst : (before ++ a :: between ++ [b]).flatMap (absorbAll piece ((a, b) :: pairs)) =
        before.flatMap piece ++ piece a ++ (piece b ++ between.flatMap piece) := by
      rw [← flatMap_absorb (pairwise_append.mp hsorted).1.nodup]
      apply flatMap_congr
      intro i hi
      have hlt := (pairwise_append.mp hsorted).2.2 i hi
      exact absorbAll_of_notMem fun pair hpair =>
        ⟨(hlt _ (hmem pair hpair).1).ne, (hlt _ (hmem pair hpair).2).ne⟩
    have hrest : after.flatMap (absorbAll piece ((a, b) :: pairs)) =
        after.flatMap (absorbAll piece pairs) := by
      apply flatMap_congr
      apply absorbAll_congr hmem
      intro i hi
      have hlt := fun j hj => (pairwise_append.mp hsorted).2.2 j hj i hi
      exact absorb_of_ne (hlt a (by simp)).ne' (hlt b (by simp)).ne'
    have hold : (before ++ a :: between ++ [b]).flatMap piece =
        before.flatMap piece ++ piece a ++ (between.flatMap piece ++ piece b) := by simp
    generalize before ++ a :: between ++ [b] = front at *
    have hlater (pair : ι × ι) (hpair : pair ∈ pairs) :
        placesBetween (front ++ after) pair.1 pair.2 = placesBetween after pair.1 pair.2 :=
      placesBetween_append hsorted (hmem pair hpair).1
    have hrestIff := ih (pairwise_append.mp hsorted).2.1 hafter
    rw [flatMap_append, flatMap_append, hfirst, hrest, hold, forall_mem_cons, hbetween]
    constructor
    · intro h
      -- the parts up to `b` have the same length
      obtain ⟨hfront, hback⟩ := append_inj h (by simp; omega)
      refine ⟨append_cancel_left hfront, ?_⟩
      intro pair hpair
      rw [hlater pair hpair]
      exact hrestIff.mp hback pair hpair
    · rintro ⟨hfront, hback⟩
      have hback' := hrestIff.mpr fun pair hpair => by
        have h := hback pair hpair
        rwa [hlater pair hpair] at h
      rw [hfront, hback']

end Between

end Wacp.Library
