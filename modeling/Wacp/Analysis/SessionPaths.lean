import Wacp.Analysis.LaunchProtocol

/-!
# The state column of a session

In every interleaving the state column follows the relation that `validate_transition` accepts.
`Moves` is what one call may do to the row.
-/

namespace Wacp.Console

open Library Prog SessionRow

/-! ## The relation -/

theorem validateTransition_cancelled {f : SessionState} (hf : f.isTerminal = false) :
    validateTransition f .cancelled = .ok () := by
  cases f <;> first | rfl | cases hf

theorem isTerminal_eq_false_of_validateTransition {f t : SessionState}
    (h : validateTransition f t = .ok ()) : f.isTerminal = false := by
  cases f
  case completed => cases t <;> cases h
  case failed => cases t <;> cases h
  case cancelled => cases t <;> cases h
  all_goals rfl

/-- Nothing to the two columns, or an accepted transition, which sets `closed_at` if it is terminal.
-/
def SessionRow.Moves (row row' : SessionRow) : Prop :=
  (row'.state = row.state ∧ row'.closedAt = row.closedAt) ∨
    (validateTransition row.state row'.state = .ok () ∧
      ∃ now, row'.closedAt = if row'.state.isTerminal then some now else row.closedAt)

theorem SessionRow.Moves.refl {row : SessionRow} : row.Moves row := .inl ⟨rfl, rfl⟩

theorem SessionRow.moves_moveTo {row : SessionRow} {toState : SessionState}
    (h : validateTransition row.state toState = .ok ()) {now : String} :
    row.Moves (row.moveTo toState now) := by
  refine .inr ⟨?_, now, ?_⟩
  · rw [row.state_moveTo]
    exact h
  · rw [row.closedAt_moveTo, row.state_moveTo]

theorem exec_moves {φ φ' : Phase} {c : Call} {o : Outside} {s : SessionData}
    (h : Phase.next φ (exchange c o s) = some φ') : s.row.Moves (exec c o s).2.row := by
  obtain hrow | hchange := exec_row_cases
  · rw [hrow]
    exact Moves.refl
  · generalize exchange c o s = x at h hchange
    generalize (exec c o s).2.row = row' at hchange ⊢
    cases hchange with
    | transition f t hf hrow =>
      subst hrow
      have hvalid : validateTransition f t = .ok () := by
        cases Phase.updates_of_afterUpdate h <;> rfl
      exact moves_moveTo (hf ▸ hvalid)
    | cancel hlive hrow =>
      subst hrow
      exact moves_moveTo (validateTransition_cancelled hlive)
    | finalize rootWs launched hf hrow =>
      subst hrow
      refine .inr ⟨?_, o.now, rfl⟩
      rw [hf]
      rfl

/-! ## Sessions -/

namespace Session

theorem moves_of_step {s t : Session} {label : Label} (hs : s.Orderly) (h : Step s label t) :
    s.row.Moves t.row := by
  obtain ⟨-, hquiet | ⟨i, o, c, φ, φ', hadvances⟩⟩ := step_cases hs h
  · rw [hquiet.row]
    exact Moves.refl
  · have hmoves : s.row.Moves (exec c o s.shared).2.row := exec_moves hadvances.allowed
    rw [hadvances.row]
    exact hmoves

def ClosedWhenTerminal (row : SessionRow) : Prop :=
  row.closedAt.isSome = row.state.isTerminal

theorem closedWhenTerminal_of_moves {row row' : SessionRow} (h : ClosedWhenTerminal row)
    (hmoves : row.Moves row') : ClosedWhenTerminal row' := by
  obtain ⟨hstate, hclosed⟩ | ⟨hvalid, now, hclosed⟩ := hmoves
  · rw [ClosedWhenTerminal, hstate, hclosed]
    exact h
  · have hlive := isTerminal_eq_false_of_validateTransition hvalid
    rw [ClosedWhenTerminal, hclosed]
    cases hterminal : row'.state.isTerminal with
    | true => rfl
    | false =>
      rw [ClosedWhenTerminal, hlive] at h
      simpa using h

theorem state_eq_of_terminal {s t : Session} (hs : s.Orderly)
    (hterminal : s.row.state.isTerminal) (hrun : Run Step anyStep s t) :
    t.row.state = s.row.state := by
  refine hrun.always Orderly (fun u => u.row.state = s.row.state)
    (fun hu _ hstep => (step_cases hu hstep).1) ?_ hs rfl
  intro u label v hu hstate _ hstep
  obtain ⟨hsame, -⟩ | ⟨hvalid, -⟩ := moves_of_step hu hstep
  · exact hsame.trans hstate
  · have hlive := isTerminal_eq_false_of_validateTransition hvalid
    rw [hstate, hterminal] at hlive
    cases hlive

/-- **The state column of a session**, in every interleaving from a new session on. -/
theorem session_state_path (row : SessionRow) (assignments : List SessionAssignmentRow)
    (hstate : row.state = .configuring) (hclosed : row.closedAt = none) (s : Session)
    (hrun : Run Step anyStep (new row assignments) s) :
    (s.row.closedAt.isSome ↔ s.row.state.isTerminal) ∧
      (∀ label t, Step s label t →
        t.row.state = s.row.state ∨ validateTransition s.row.state t.row.state = .ok ()) ∧
      (s.row.state.isTerminal → ∀ t, Run Step anyStep s t → t.row.state = s.row.state) := by
  have hs := orderly_of_run hrun
  have hclosedAt : ClosedWhenTerminal s.row := by
    refine hrun.always Orderly (fun u => ClosedWhenTerminal u.row)
      (fun hu _ hstep => (step_cases hu hstep).1)
      (fun hu hclosed _ hstep => closedWhenTerminal_of_moves hclosed (moves_of_step hu hstep))
      orderly_new ?_
    show row.closedAt.isSome = row.state.isTerminal
    rw [hstate, hclosed]
    rfl
  refine ⟨by rw [hclosedAt], ?_, ?_⟩
  · intro label t hstep
    obtain ⟨hsame, -⟩ | ⟨hvalid, -⟩ := moves_of_step hs hstep
    · exact .inl hsame
    · exact .inr hvalid
  · intro hterminal t ht
    exact state_eq_of_terminal hs hterminal ht

/-- A launch of fourteen calls, then a cancel request that aborts, cancels and removes the monitor.
-/
def launchedThenCancelled : List Label :=
  .launchRequest sampleAuth :: calls 0 14 ++ .cancelRequest sampleAuth none :: calls 2 6

theorem session_state_path_cancelled :
    ∃ s, launchedThenCancelled.foldlM apply sampleSession = some s ∧
      s.row.state = .cancelled ∧ s.row.closedAt.isSome ∧
      ∀ t, Run Step anyStep s t → t.row.state = .cancelled := by
  have hrun := Run.of_ops (rfl : launchedThenCancelled.foldlM apply sampleSession = some _)
  obtain ⟨hclosed, -, hkept⟩ := session_state_path sampleRow [sampleAssignment] rfl rfl _ hrun
  exact ⟨_, rfl, rfl, hclosed.mpr rfl, hkept rfl⟩

end Session

end Wacp.Console
