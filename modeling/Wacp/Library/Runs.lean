import Mathlib.Data.List.Induction
import Mathlib.Logic.Relation

/-!
# Runs of a labelled transition system

`Run step ok s t` is a finite run from `s` to `t` in which every step meets the condition `ok` on
its label and the state before it. Where the step is a function, `Throughout` says what holds in all
states and at all steps of the run of a list of labels.
-/

namespace Wacp.Library

variable {S O : Type}

inductive Run (step : S → O → S → Prop) (ok : S → O → Prop) : S → S → Prop where
  | refl (s : S) : Run step ok s s
  | tail {s t u : S} (o : O) (h : Run step ok s t) (hok : ok t o) (hstep : step t o u) :
      Run step ok s u

def anyStep : S → O → Prop := fun _ _ => True

namespace Run

variable {step : S → O → S → Prop} {ok : S → O → Prop} {s t : S}

/-- **The invariant rule.** What holds at the start and is kept by every step
that meets `ok` holds at the end. -/
theorem invariant (I : S → Prop) (hstep : ∀ {s o t}, I s → ok s o → step s o t → I t)
    (h : Run step ok s t) (hs : I s) : I t := by
  induction h with
  | refl => exact hs
  | tail o _ hok hst ih => exact hstep ih hok hst

/-- **The two-state rule.** A relation to the first state that every step keeps,
given an invariant, relates the first state to the last. -/
theorem always (I R : S → Prop) (hstep : ∀ {s o t}, I s → ok s o → step s o t → I t)
    (hrel : ∀ {s o t}, I s → R s → ok s o → step s o t → R t)
    (h : Run step ok s t) (hs : I s) (hR : R s) : R t := by
  have hboth : I t ∧ R t :=
    invariant (fun x => I x ∧ R x)
      (fun hx hok hst => ⟨hstep hx.1 hok hst, hrel hx.1 hx.2 hok hst⟩) h ⟨hs, hR⟩
  exact hboth.2

theorem trans {u : S} (h : Run step ok s t) (h' : Run step ok t u) : Run step ok s u := by
  induction h' with
  | refl => exact h
  | tail o _ hok hst ih => exact ih.tail o hok hst

theorem mono {step' : S → O → S → Prop} {ok' : S → O → Prop} (h : Run step ok s t)
    (hstep : ∀ s o t, step s o t → step' s o t) (hok : ∀ s o, ok s o → ok' s o) :
    Run step' ok' s t := by
  induction h with
  | refl => exact Run.refl s
  | tail o _ hoko hst ih => exact ih.tail o (hok _ o hoko) (hstep _ o _ hst)

/-- **The crossing rule.** A property that fails at the start of a run and holds at its
end comes to hold at some step. -/
theorem crossing (P : S → Prop) (h : Run step ok s t) (hs : ¬ P s) (ht : P t) :
    ∃ u o v, Run step ok s u ∧ ok u o ∧ step u o v ∧ Run step ok v t ∧ ¬ P u ∧ P v := by
  induction h with
  | refl => exact absurd ht hs
  | tail o hrun hok hst ih =>
    rename_i u v
    by_cases hu : P u
    · obtain ⟨u', o', v', hrun', hok', hst', hrest, hnot, hyes⟩ := ih hu
      exact ⟨u', o', v', hrun', hok', hst', hrest.tail o hok hst, hnot, hyes⟩
    · exact ⟨u, o, v, hrun, hok, hst, Run.refl v, hu, ht⟩

variable {ops : List O} {apply : S → O → Option S}

/-- The run of a list of labels, for a system whose step is a partial function and a
condition that follows from one that can be evaluated. -/
theorem of_checked (check : S → O → Bool) (hcheck : ∀ o ∈ ops, ∀ s, check s o = true → ok s o)
    (h : ops.foldlM (fun s o => if check s o then apply s o else none) s = some t) :
    Run (fun s o t => apply s o = some t) ok s t := by
  -- from the last label back, since a run grows at its end
  induction ops using List.reverseRecOn generalizing t with
  | nil =>
    cases h
    exact Run.refl s
  | append_singleton ops o ih =>
    rw [List.foldlM_append] at h
    obtain ⟨u, hu, hlast⟩ := Option.bind_eq_some_iff.mp h
    have hrun := ih (fun o' ho' => hcheck o' (by simp [ho'])) hu
    have hlast : (if check u o then apply u o else none) = some t := by simpa using hlast
    split_ifs at hlast with hu'
    exact Run.tail o hrun (hcheck o (by simp) u hu') hlast

theorem of_foldlM (hok : ∀ o ∈ ops, ∀ s, ok s o) (h : ops.foldlM apply s = some t) :
    Run (fun s o t => apply s o = some t) ok s t :=
  of_checked (fun _ _ => true) (fun o ho s _ => hok o ho s) (by simpa using h)

theorem of_ops (h : ops.foldlM apply s = some t) :
    Run (fun s o t => apply s o = some t) anyStep s t :=
  of_foldlM (fun _ _ _ => trivial) h

theorem of_foldl {apply : S → O → S}
    (hstep : ∀ s o, step s o (apply s o)) (hok : ∀ o ∈ ops, ∀ s, ok s o) :
    Run step ok s (ops.foldl apply s) := by
  induction ops using List.reverseRecOn with
  | nil => exact Run.refl s
  | append_singleton ops o ih =>
    have hrun := ih fun o' ho' => hok o' (by simp [ho'])
    rw [List.foldl_append]
    exact Run.tail o hrun (hok o (by simp) _) (hstep _ o)

end Run

/-! ## Runs of a list of labels -/

section Throughout

variable (apply : S → O → S)

/-- Along the run of a list of labels every state meets `I` and every step meets `P`. -/
def Throughout (I : S → Prop) (P : S → O → Prop) : S → List O → Prop
  | s, [] => I s
  | s, o :: os => I s ∧ P s o ∧ Throughout I P (apply s o) os

/-- **The exactness rule.** Suppose an invariant `J` gives `I`, makes `P` and `Q` the
same at every step, and is kept by the steps that meet `Q`. Then the runs that meet `I` and `P`
throughout are the ones whose steps all meet `Q`. -/
theorem throughout_iff {I J : S → Prop} {P Q : S → O → Prop} (hJ : ∀ s, J s → I s)
    (hiff : ∀ s o, J s → (P s o ↔ Q s o)) (hkeep : ∀ s o, J s → Q s o → J (apply s o))
    (os : List O) {s : S} (hs : J s) :
    Throughout apply I P s os ↔ Throughout apply (fun _ => True) Q s os := by
  induction os generalizing s with
  | nil =>
    constructor
    · intro _
      trivial
    · intro _
      exact hJ s hs
  | cons o os ih =>
    constructor
    · rintro ⟨-, hP, hrest⟩
      have hQ := (hiff s o hs).mp hP
      exact ⟨trivial, hQ, (ih (hkeep s o hs hQ)).mp hrest⟩
    · rintro ⟨-, hQ, hrest⟩
      exact ⟨hJ s hs, (hiff s o hs).mpr hQ, (ih (hkeep s o hs hQ)).mpr hrest⟩

end Throughout

end Wacp.Library
