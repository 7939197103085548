import Mathlib.Data.List.Induction

/-!
# Chains of hashes

A list of entries with hashes is linked if every hash is the one that `link` computes from the hash
before and the entry. If no computations of two linked lists collide and none gives the root, lists
with the same last hash are the same.
-/

namespace Wacp.Library

open List

namespace HashChain

variable {E H : Type} (link : H → E → H)

def last (root : H) (l : List (E × H)) : H := (l.getLast?.map Prod.snd).getD root

def Linked : H → List (E × H) → Prop
  | _, [] => True
  | before, x :: l => x.2 = link before x.1 ∧ Linked x.2 l

def steps : H → List (E × H) → List (H × E)
  | _, [] => []
  | before, x :: l => (before, x.1) :: steps x.2 l

theorem last_cons (root : H) (x : E × H) (l : List (E × H)) : last root (x :: l) = last x.2 l := by
  unfold last
  rw [getLast?_cons]
  cases l.getLast? <;> rfl

section

variable (root : H) (l : List (E × H))

theorem last_concat (x : E × H) : last root (l ++ [x]) = x.2 := by
  unfold last
  rw [getLast?_concat]
  rfl

theorem steps_concat (x : E × H) :
    steps root (l ++ [x]) = steps root l ++ [(last root l, x.1)] := by
  induction l generalizing root with
  | nil => rfl
  | cons y l ih => rw [cons_append, steps, steps, ih, last_cons, cons_append]

theorem linked_concat (x : E × H) :
    Linked link root (l ++ [x]) ↔ Linked link root l ∧ x.2 = link (last root l) x.1 := by
  induction l generalizing root with
  | nil =>
    show x.2 = link root x.1 ∧ True ↔ True ∧ x.2 = link root x.1
    rw [and_comm]
  | cons y l ih => rw [cons_append, Linked, Linked, ih, last_cons, and_assoc]

/-- Linked lists by positions: the hash before a position is the last one of the list
up to there. -/
theorem linked_iff : Linked link root l ↔
      ∀ i x, l[i]? = some x → x.2 = link (last root (l.take i)) x.1 := by
  induction l generalizing root with
  | nil => simp [Linked]
  | cons y l ih =>
    rw [Linked, ih]
    constructor
    · rintro ⟨hy, hl⟩ i x hx
      cases i with
      | zero =>
        cases hx
        exact hy
      | succ i =>
        rw [take_succ_cons, last_cons]
        exact hl i x hx
    · intro h
      refine ⟨h 0 y rfl, fun i x hx => ?_⟩
      have hx' := h (i + 1) x hx
      rwa [take_succ_cons, last_cons] at hx'

end

variable {link}

/-- **The last hash commits to the list.** -/
theorem eq_of_last_eq {root : H} {l l' : List (E × H)}
    (hinj : ∀ a ∈ steps root l, ∀ b ∈ steps root l', link a.1 a.2 = link b.1 b.2 → a = b)
    (hroot : ∀ a ∈ steps root l ++ steps root l', link a.1 a.2 ≠ root)
    (h : Linked link root l) (h' : Linked link root l') (hlast : last root l = last root l') :
    l = l' := by
  -- from the tail: the last hashes give the last entries and the hashes before them
  induction l using List.reverseRecOn generalizing l' with
  | nil =>
    cases l' using List.reverseRecOn with
    | nil => rfl
    | append_singleton l' x' =>
      rw [linked_concat] at h'
      rw [last_concat, h'.2] at hlast
      refine absurd hlast.symm (hroot (last root l', x'.1) ?_)
      simp [steps_concat]
  | append_singleton l x ih =>
    cases l' using List.reverseRecOn with
    | nil =>
      rw [linked_concat] at h
      rw [last_concat, h.2] at hlast
      refine absurd hlast (hroot (last root l, x.1) ?_)
      simp [steps_concat]
    | append_singleton l' x' =>
      rw [linked_concat] at h h'
      rw [last_concat, last_concat] at hlast
      rw [steps_concat, steps_concat] at hinj hroot
      have hstep : (last root l, x.1) = (last root l', x'.1) :=
        hinj _ (by simp) _ (by simp) (by rw [← h.2, ← h'.2, hlast])
      obtain ⟨hbefore, hentry⟩ := Prod.mk.inj hstep
      have hl : l = l' := by
        refine ih (fun a ha b hb => hinj a (mem_append_left _ ha) b
          (mem_append_left _ hb)) ?_ h.1 h'.1 hbefore
        intro a ha
        apply hroot a
        rcases mem_append.mp ha with ha | ha
        · exact mem_append_left _ (mem_append_left _ ha)
        · exact mem_append_right _ (mem_append_left _ ha)
      rw [hl, Prod.ext hentry hlast]

end HashChain

end Wacp.Library
