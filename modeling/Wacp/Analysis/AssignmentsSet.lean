import Wacp.Analysis.DispatchedTools

/-!
# All assignments or none

`set_assignments` deletes the assignments of a session and inserts the new ones, a statement each
and no transaction around them. It has its whole effect or none if no INSERT is refused.
-/

namespace Wacp.Console.Editing

open Library Prog List

def refusedInsert : Exchange Call Reply → Bool
  | ⟨.insertAssignment _, .error _⟩ => true
  | _ => false

/-- Unless an INSERT is refused, the run of the program from `w` ends as `Q` says. -/
def Unrefused {α : Type} (p : Program α) (w : World) (Q : α → World → Prop) : Prop :=
  ∀ env, (∀ x ∈ (p.run exec env w).log, refusedInsert x = false) →
    Q (p.run exec env w).result (p.run exec env w).state

variable {w : World}

theorem Unrefused.bind {α β : Type} {p : Program α} {f : α → Program β} {M : α → World → Prop}
    {Q : β → World → Prop} (hp : Unrefused p w M) (hf : ∀ a t, M a t → Unrefused (f a) t Q) :
    Unrefused (p >>= f) w Q := by
  intro env h
  rw [run_bind] at h ⊢
  simp only [mem_append] at h
  exact hf _ _ (hp env fun x hx => h x (.inl hx)) _ fun x hx => h x (.inr hx)

end Wacp.Console.Editing
