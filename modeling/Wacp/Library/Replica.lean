import Mathlib.Data.List.Forall2

/-!
# A value copied through a queue

One party owns a value; another keeps a copy, which takes over the values that the owner reports
through a first-in first-out queue. `InSync` says that the copy will be equal to the source once the
queue is drained, `Settles` that a final value on the way is followed by nothing else.
-/

namespace Wacp.Library

open List List

variable {α : Type}

/-! ## In sync -/

def InSync (copy : α) (queue : List α) (source : α) : Prop :=
  (copy :: queue).getLast? = some source

namespace InSync

variable {copy mid source x : α} {queue news : List α}

theorem refl (a : α) : InSync a [] a := rfl

theorem report (a x : α) : InSync a [x] x := rfl

theorem trans (h : InSync copy queue mid) (h' : InSync mid news source) :
    InSync copy (queue ++ news) source := by
  unfold InSync at *
  cases news with
  | nil =>
    have hmid : mid = source := by simpa using h'
    rw [append_nil, h, hmid]
  | cons =>
    rw [getLast?_cons_cons] at h'
    rw [← cons_append, getLast?_append, h']
    rfl

theorem receive (h : InSync copy (x :: queue) source) : InSync x queue source := by
  unfold InSync at *
  rwa [getLast?_cons_cons] at h

theorem overwrite (h : InSync copy queue source) (hx : source = x ∨ queue ≠ []) :
    InSync x queue source := by
  unfold InSync at *
  cases queue with
  | nil =>
    have hsource : source = x := hx.resolve_right fun hne => hne rfl
    rw [hsource]
    rfl
  | cons => rwa [getLast?_cons_cons] at h ⊢

theorem copy_eq (h : InSync copy [] source) : copy = source := by
  simpa [InSync] using h

end InSync

/-! ## Settling -/

/-- A final value on the way from the copy to the source is followed by itself only. -/
def Settles (final : α → Prop) (copy : α) (queue : List α) (source : α) : Prop :=
  (copy :: (queue ++ [source])).Pairwise fun x y => final x → y = x

namespace Settles

variable {final : α → Prop} {copy mid source x : α} {queue news : List α}

theorem refl (a : α) : Settles final a [] a := by
  simp [Settles]

theorem report {a x : α} (h : final a → x = a) : Settles final a [x] x := by
  simpa [Settles] using h

theorem trans (h : Settles final copy queue mid) (h' : Settles final mid news source) :
    Settles final copy (queue ++ news) source := by
  unfold Settles at *
  rw [← cons_append, pairwise_append] at h
  obtain ⟨hleft, -, hmid⟩ := h
  obtain ⟨hout, hright⟩ := pairwise_cons.mp h'
  rw [append_assoc, ← cons_append, pairwise_append]
  refine ⟨hleft, hright, ?_⟩
  intro a ha b hb hfinal
  have hma : mid = a := hmid a ha mid (by simp) hfinal
  have hbm : b = mid := hout b hb (hma ▸ hfinal)
  rw [hbm, hma]

theorem receive (h : Settles final copy (x :: queue) source) : Settles final x queue source :=
  (pairwise_cons.mp h).2

theorem overwrite (h : Settles final copy queue source) (hsource : source = x)
    (hqueue : ∀ y ∈ queue, y = x) : Settles final x queue source := by
  refine pairwise_cons.mpr ⟨?_, (pairwise_cons.mp h).2⟩
  intro y hy _
  rcases mem_append.mp hy with hy | hy
  · exact hqueue y hy
  · rw [mem_singleton.mp hy, hsource]

theorem head_eq (h : Settles final copy (x :: queue) source) (hfinal : final copy) : x = copy :=
  (pairwise_cons.mp h).1 x (by simp) hfinal

theorem source_eq (h : Settles final copy queue source) (hfinal : final copy) : source = copy :=
  (pairwise_cons.mp h).1 source (by simp) hfinal

end Settles

/-! ## A list of owners -/

section Owners

variable {R : α → α → Prop}

theorem forall₂_modify {f : α → α} (hrefl : ∀ a, R a a) (hf : ∀ a, R a (f a)) (l : List α)
    (i : ℕ) : Forall₂ R l (l.modify i f) := by
  induction l generalizing i with
  | nil =>
    rw [modify_nil]
    exact Forall₂.nil
  | cons a l ih =>
    cases i with
    | zero => exact Forall₂.cons (hf a) (forall₂_same.mpr fun x _ => hrefl x)
    | succ i => exact Forall₂.cons (hrefl a) (ih i)

variable {l : List α}

theorem getElem?_modify_eq {f : α → α} {i j : ℕ} :
    (l.modify i f)[j]? = if i = j then (l[j]?).map f else l[j]? := by
  rw [getElem?_modify]
  split_ifs
  · rfl
  · exact Option.map_id'

theorem forall₂_set (hrefl : ∀ a, R a a) {i : ℕ} {a b : α} (ha : l[i]? = some a)
    (hab : R a b) : Forall₂ R l (l.set i b) := by
  induction l generalizing i with
  | nil => cases ha
  | cons x l ih =>
    cases i with
    | zero =>
      cases ha
      exact Forall₂.cons hab (forall₂_same.mpr fun y _ => hrefl y)
    | succ => exact Forall₂.cons (hrefl x) (ih ha)

variable {m : List α}

theorem forall₂_trans (htrans : ∀ a b c, R a b → R b c → R a c) {n : List α}
    (h : Forall₂ R l m) (h' : Forall₂ R m n) : Forall₂ R l n := by
  induction h generalizing n with
  | nil => exact h'
  | cons hab _ ih =>
    cases h' with
    | cons hbc hrest => exact Forall₂.cons (htrans _ _ _ hab hbc) (ih hrest)

theorem getElem?_of_forall₂ (h : Forall₂ R l m) {i : ℕ} {b : α}
    (hb : m[i]? = some b) : ∃ a, l[i]? = some a ∧ R a b := by
  induction h generalizing i with
  | nil => cases hb
  | cons hab _ ih =>
    cases i with
    | zero =>
      cases hb
      exact ⟨_, rfl, hab⟩
    | succ => exact ih hb

theorem exists_of_forall₂ (h : Forall₂ R l m) {b : α} (hb : b ∈ m) : ∃ a ∈ l, R a b := by
  obtain ⟨i, hi⟩ := mem_iff_getElem?.mp hb
  obtain ⟨a, ha, hab⟩ := getElem?_of_forall₂ h hi
  exact ⟨a, mem_of_getElem? ha, hab⟩

theorem map_eq_of_forall₂ {β : Type} {f : α → β} (hf : ∀ a b, R a b → f b = f a)
    (h : Forall₂ R l m) : m.map f = l.map f := by
  induction h with
  | nil => rfl
  | cons hab _ ih => rw [map_cons, map_cons, hf _ _ hab, ih]

end Owners

end Wacp.Library
