import Mathlib.Data.List.Basic

/-!
# Stable priority queues

A queue kept in order by inserting before the first element of lower rank serves what is pending by
rank, and equal ranks in the order of their arrival.
-/

namespace Wacp.Library

open List

variable {α : Type} {rank : α → ℕ} {pending queue : List α}

def insertRanked (rank : α → ℕ) (queue : List α) (a : α) : List α :=
  queue.insertIdx (queue.findIdx fun b => decide (rank b < rank a)) a

/-- The queue has what is pending, higher ranks first and each rank in the order of arrival. -/
structure Queued (rank : α → ℕ) (pending queue : List α) : Prop where
  ordered : queue.Pairwise fun a b => rank b ≤ rank a
  same : ∀ k, queue.filter (rank · = k) = pending.filter (rank · = k)

theorem insertRanked_cons (b a : α) : insertRanked rank (b :: queue) a =
    if rank b < rank a then a :: b :: queue else b :: insertRanked rank queue a := by
  unfold insertRanked
  rw [findIdx_cons]
  by_cases hb : rank b < rank a <;> simp [hb]

theorem mem_insertRanked {a c : α} : c ∈ insertRanked rank queue a ↔ c = a ∨ c ∈ queue :=
  mem_insertIdx findIdx_le_length

theorem pairwise_insertRanked (h : queue.Pairwise fun a b => rank b ≤ rank a) (a : α) :
    (insertRanked rank queue a).Pairwise fun a b => rank b ≤ rank a := by
  induction h with
  | nil => exact pairwise_singleton _ a
  | @cons b queue hb hqueue ih =>
    rw [insertRanked_cons]
    split_ifs with hlt
    · refine pairwise_cons.mpr ⟨fun c hc => ?_, pairwise_cons.mpr ⟨hb, hqueue⟩⟩
      rcases mem_cons.mp hc with rfl | hc
      · omega
      · have hle := hb c hc
        omega
    · refine pairwise_cons.mpr ⟨fun c hc => ?_, ih⟩
      rcases mem_insertRanked.mp hc with rfl | hc
      · omega
      · exact hb c hc

theorem filter_insertRanked (h : queue.Pairwise fun a b => rank b ≤ rank a) (a : α) (k : ℕ) :
    (insertRanked rank queue a).filter (rank · = k) = (queue ++ [a]).filter (rank · = k) := by
  induction h with
  | nil => rfl
  | @cons b queue hb hqueue ih =>
    rw [insertRanked_cons]
    split_ifs with hlt
    · -- what lies behind has lower rank, so nothing of rank `k` is passed
      have hnone : rank a = k → (b :: queue).filter (rank · = k) = [] := by
        intro hk
        refine filter_eq_nil_iff.mpr fun c hc => ?_
        have hle : rank c ≤ rank b := by
          rcases mem_cons.mp hc with rfl | hc
          · exact Nat.le_refl _
          · exact hb c hc
        simp only [decide_eq_true_eq]
        omega
      rw [filter_append]
      by_cases hk : rank a = k
      · simp [hnone hk, hk]
      · simp [hk]
    · rw [filter_cons, ih, cons_append, filter_cons]

theorem Queued.push (h : Queued rank pending queue) (a : α) :
    Queued rank (pending ++ [a]) (insertRanked rank queue a) where
  ordered := pairwise_insertRanked h.ordered a
  same := fun k => by
    rw [filter_insertRanked h.ordered, filter_append, filter_append, h.same]

theorem Queued.mem_iff (h : Queued rank pending queue) {a : α} : a ∈ queue ↔ a ∈ pending := by
  have hmem : a ∈ queue.filter (rank · = rank a) ↔ a ∈ pending.filter (rank · = rank a) := by
    rw [h.same]
  simpa using hmem

theorem Queued.eq_nil (h : Queued rank pending []) : pending = [] :=
  eq_nil_iff_forall_not_mem.mpr fun a ha => not_mem_nil ((h.mem_iff).mpr ha)

/-- **The front of the queue** is the first that is pending with the highest rank. -/
theorem Queued.pop {a : α} (h : Queued rank pending (a :: queue)) :
    ∃ before after, pending = before ++ a :: after ∧ (∀ b ∈ before, rank b < rank a) ∧
      (∀ b ∈ after, rank b ≤ rank a) ∧ Queued rank (before ++ after) queue := by
  obtain ⟨hle, hordered⟩ := pairwise_cons.mp h.ordered
  have hfront := h.same (rank a)
  rw [filter_cons_of_pos (by simp)] at hfront
  obtain ⟨before, after, rfl, hbefore, -, -⟩ := filter_eq_cons_iff.mp hfront.symm
  have hmax (b : α) (hb : b ∈ before ++ a :: after) : rank b ≤ rank a := by
    rcases mem_cons.mp ((h.mem_iff).mpr hb) with rfl | hb
    · exact Nat.le_refl _
    · exact hle b hb
  refine ⟨before, after, rfl, fun b hb => ?_, fun b hb => hmax b (by simp [hb]), hordered, ?_⟩
  · have hne := hbefore b hb
    have hb := hmax b (by simp [hb])
    simp only [decide_eq_true_eq] at hne
    omega
  · intro k
    have hk := h.same k
    rw [filter_append, filter_cons, filter_cons] at hk
    rw [filter_append]
    by_cases hrank : rank a = k
    · have hnone : before.filter (rank · = k) = [] := by
        refine filter_eq_nil_iff.mpr fun b hb => ?_
        simpa [hrank] using hbefore b hb
      simpa [hrank, hnone] using hk
    · simpa [hrank] using hk

end Wacp.Library
