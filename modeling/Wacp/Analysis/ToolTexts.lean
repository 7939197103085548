import Mathlib.Algebra.Order.Ring.Nat
import Wacp.Model.ToolTexts

/-!
# What the checks of tool texts accept, and where messages are cut

A part of a version may have a plus sign. A message is cut at a byte, and the cut panics inside a
character.
-/

namespace Wacp.Tools

open List Console ProfileInput

/-- Neither signs nor blanks, and no empty component. -/
def Clean (s : String) : Prop :=
  (∀ c ∈ s.toList, c ≠ '+' ∧ c ≠ '-' ∧ ¬ c.isWhitespace) ∧ [] ∉ s.toList.splitOn '.'

variable {s : String}

end Wacp.Tools
