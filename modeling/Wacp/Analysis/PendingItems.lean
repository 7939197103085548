import Wacp.Model.PendingItems

/-!
# Whose pending items are shown

The sessions of a user are read with a limit.
-/

namespace Wacp.Console.PendingItems

open List

variable {Item : Type} {t : Sessions} {auth : Auth} (pending : PendingState Item → List Item)
  (active : List (String × PendingState Item)) (sessionId : Option String)

variable {db : Except DbError Sessions}

def name (n : ℕ) : String := .ofList (replicate n 'n')

@[simp] theorem name_inj {a b : ℕ} : name a = name b ↔ a = b := by
  refine ⟨fun h => ?_, congrArg name⟩
  simpa [name] using congrArg String.length h

/-- `m` sessions, and an older one. -/
def crowded (m : ℕ) : Sessions where
  rows := (range (m + 1)).map fun n => ⟨name n, "u", "active", if n < m then "2026" else "2025"⟩
  ids := by
    rw [map_map]
    exact nodup_range.map fun _ _ => name_inj.mp

def monitored : AppState String := ⟨.ok (crowded 1000), [(name 1000, ⟨["gate"], [], []⟩)]⟩

end Wacp.Console.PendingItems
