import Mathlib.Data.List.Infix
import Mathlib.Data.Nat.Notation
import Mathlib.Logic.Function.Basic

/-!
# Names made from a counter

Identifiers of the form `pr-7` or `ws-12` are distinct when their numbers or their heads are, and
none ends in a word. Where one party hands out numbers and another uses them later, in the order of
a queue, `Numbered` says that each element of the queue was promised the number it will get.
-/

namespace Wacp.Library

open List

theorem numbered_injective (head : String) :
    Function.Injective fun n : ℕ => head ++ toString n := by
  intro m n h
  have hrepr : m.repr = n.repr := (String.append_right_inj head).mp h
  have hdigits : Nat.toDigits 10 m = Nat.toDigits 10 n := by
    rw [← Nat.toList_repr, ← Nat.toList_repr, hrepr]
  -- a number can be read back from its digits
  have hread : ∀ k : ℕ, Nat.ofDigitChars 10 (Nat.toDigits 10 k) 0 = k := fun k =>
    Nat.ofDigitChars_toDigits (by decide) (by decide)
  rw [← hread m, hdigits, hread n]

theorem numbered_ne {head tail : String} (h : ∃ c ∈ tail.toList, c.isDigit = false)
    (n : ℕ) : head ++ toString n ≠ head ++ tail := by
  intro heq
  have hrepr : n.repr = tail := (String.append_right_inj head).mp heq
  obtain ⟨c, hc, hdigit⟩ := h
  rw [← hrepr, Nat.toList_repr] at hc
  rw [Nat.isDigit_of_mem_toDigits (by decide) (by decide) hc] at hdigit
  cases hdigit

theorem append_ne_append {head head' : String} (h : ¬ head.toList <+: head'.toList)
    (h' : ¬ head'.toList <+: head.toList) {x y : String} : head ++ x ≠ head' ++ y := by
  intro heq
  have hlist : head.toList ++ x.toList = head'.toList ++ y.toList := by
    rw [← String.toList_append, heq, String.toList_append]
  have hleft : head.toList <+: head'.toList ++ y.toList := hlist ▸ prefix_append _ _
  rcases prefix_or_prefix_of_prefix hleft (prefix_append _ _) with hle | hle
  · exact h hle
  · exact h' hle

/-! ## Numbers promised to a queue -/

section Queue

variable {α β : Type} {R S : ℕ → α → β → Prop}

/-- The elements of two queues belong together, under consecutive numbers from `n` on. -/
inductive Numbered (R : ℕ → α → β → Prop) : ℕ → List α → List β → Prop where
  | nil (n : ℕ) : Numbered R n [] []
  | cons {n : ℕ} {a : α} {b : β} {as : List α} {bs : List β} (hab : R n a b)
      (h : Numbered R (n + 1) as bs) : Numbered R n (a :: as) (b :: bs)

namespace Numbered

variable {n : ℕ} {as : List α} {bs : List β}

theorem imp (hRS : ∀ k a b, R k a b → S k a b) (h : Numbered R n as bs) : Numbered S n as bs := by
  induction h with
  | nil n => exact Numbered.nil n
  | cons hab _ ih => exact Numbered.cons (hRS _ _ _ hab) ih

theorem concat (h : Numbered R n as bs) {a : α} {b : β} (hab : R (n + bs.length) a b) :
    Numbered R n (as ++ [a]) (bs ++ [b]) := by
  induction h with
  | nil n => exact Numbered.cons hab (Numbered.nil (n + 1))
  | @cons n a' b' as bs hab' _ ih =>
    refine Numbered.cons hab' (ih ?_)
    have hnumber : n + 1 + bs.length = n + (b' :: bs).length := by
      rw [length_cons]
      omega
    rw [hnumber]
    exact hab

theorem exists_cons {b : β} (h : Numbered R n as (b :: bs)) :
    ∃ a rest, as = a :: rest ∧ R n a b ∧ Numbered R (n + 1) rest bs := by
  cases h with
  | cons hab h => exact ⟨_, _, rfl, hab, h⟩

theorem eq_nil (h : Numbered R n as []) : as = [] := by
  cases h
  rfl

end Numbered

end Queue

end Wacp.Library
