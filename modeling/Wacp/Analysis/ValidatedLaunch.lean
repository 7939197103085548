import Wacp.Analysis.DispatchedTools

/-!
# What is validated and what is launched

A launch reads the row before its checks and again, with the assignments, for what it sends. Both
are the same if the run is `undisturbed` in between.
-/

namespace Wacp.Console.Editing

open Library Prog Wacp.Console.Editing.Phase List Option World

/-! ## Content -/

structure Content where
  context : Option String
  (budgetMaxCostMicros budgetMaxTokens budgetMaxWallTimeMs : Option ℤ)
  deriving DecidableEq

def contentOf (row : SessionRow) : Content :=
  ⟨row.context, row.budgetMaxCostMicros, row.budgetMaxTokens, row.budgetMaxWallTimeMs⟩

def AssignmentRow.unplaced (a : AssignmentRow) : AssignmentRow := { a with workspaceId := none }

def slotsOf (assignments : List AssignmentRow) : List AssignmentRow :=
  assignments.map AssignmentRow.unplaced

namespace World

def content (w : World) : Content := contentOf w.row

def slots (w : World) : List AssignmentRow := slotsOf w.assignments.listBySession

end World

/-- **What is sent is what was validated.** -/
def AsValidated (set : Setting) (log : Log) : Prop :=
  ∃ c session assignments built, Validated set log c ∧
    Sends set session assignments built log ∧
    contentOf session = contentOf c.row ∧ slotsOf assignments = slotsOf c.assignments

/-! ## What leaves the content as it is -/

theorem contentOf_moveTo (row : SessionRow) (toState : SessionState) (now : String) :
    contentOf (row.moveTo toState now) = contentOf row := by
  cases toState <;> rfl

theorem slots_eq (t : Assignments) : slotsOf t.listBySession =
    (slotsOf t.rows).insertionSort fun a b => a.slotPosition ≤ b.slotPosition := by
  refine map_insertionSort _ _ _ _ ?_
  intro a _ b _
  rfl

theorem slotsOf_setWorkspaceId {t : Assignments} {la : LaunchedAssignment} :
    slotsOf (t.setWorkspaceId la).rows = slotsOf t.rows :=
  map_updateWhere AssignmentRow.unplaced (f := AssignmentRow.inWorkspace la.workspaceId)
    (fun _ => rfl) t.rows

theorem slotsOf_foldl (launched : List LaunchedAssignment) (t : Assignments) :
    slotsOf (launched.foldl Assignments.setWorkspaceId t).rows = slotsOf t.rows := by
  induction launched generalizing t with
  | nil => rfl
  | cons la launched ih =>
    rw [foldl_cons, ih]
    exact slotsOf_setWorkspaceId

theorem content_exec {c : Call} (hc : edits c = false) (o : Outside) (w : World) :
    (exec c o w).2.content = w.content := by
  cases c with
  | session c =>
    rw [exec, finalized_keeps content fun _ => rfl]
    exact Console.exec_keeps contentOf_moveTo (fun _ _ _ => rfl)
  | profile => rfl
  | listBySession => exact statement_keeps content o rfl
  | _ => cases hc

theorem slots_exec {c : Call} (hc : edits c = false) (o : Outside) (w : World) :
    (exec c o w).2.slots = w.slots := by
  cases c with
  | session c =>
    rw [exec]
    refine finalized_keeps slots fun launched => ?_
    show slotsOf (launched.foldl Assignments.setWorkspaceId w.assignments).listBySession = _
    rw [slots_eq, slotsOf_foldl, ← slots_eq]
    rfl
  | profile => rfl
  | listBySession => exact statement_keeps slots o rfl
  | _ => cases hc

/-! ## What a launch waits for -/

def Phase.awaitsRow : Phase → Option Content
  | .validating row => some (contentOf row)
  | .indexed row _ => some (contentOf row)
  | .checking c _ => some (contentOf c.row)
  | .comparing c _ _ _ => some (contentOf c.row)
  | .passed c => some (contentOf c.row)
  | _ => none

def Phase.awaitsList : Phase → Option (List AssignmentRow)
  | .checking c _ => some (slotsOf c.assignments)
  | .comparing c _ _ _ => some (slotsOf c.assignments)
  | .passed c => some (slotsOf c.assignments)
  | .opened c _ => some (slotsOf c.assignments)
  | _ => none

def Phase.Agrees : Phase → Prop
  | .opened c session => contentOf session = contentOf c.row
  | .loaded l => contentOf l.session = contentOf l.check.row ∧
      slotsOf l.assignments = slotsOf l.check.assignments
  | φ => ∀ l built, φ.launched = some (l, built) → contentOf l.session = contentOf l.check.row ∧
      slotsOf l.assignments = slotsOf l.check.assignments

section Allows

variable {set : Setting} {φ φ' : Phase} {x : Exchange Call Reply}

theorem awaitsRow_of_allows (h : Allows set φ x φ') {content : Content}
    (hφ' : φ'.awaitsRow = some content) :
    φ.awaitsRow = some content ∨ ∃ row, φ = .rowRead row ∧ content = contentOf row ∧
      x.call = .session (.transitionState .configuring .validating) := by
  cases h with
  | claim row =>
    cases hφ'
    exact .inr ⟨row, rfl, rfl, rfl⟩
  | index | list | current | version | pass => exact .inl hφ'
  | _ => cases hφ'

theorem awaitsList_of_allows (h : Allows set φ x φ') {slots : List AssignmentRow}
    (hφ' : φ'.awaitsList = some slots) :
    φ.awaitsList = some slots ∨ ∃ row vertical r, φ = .indexed row vertical ∧
      x = ⟨.listBySession, r⟩ ∧ slots = slotsOf (r.toOption.getD []) := by
  cases h with
  | list row vertical r =>
    cases hφ'
    exact .inr ⟨row, vertical, r, rfl, rfl, rfl⟩
  | current | version | pass | reopen => exact .inl hφ'
  | _ => cases hφ'

theorem agrees_of_allows (h : Allows set φ x φ') (hφ : φ.Agrees) : φ'.Agrees ∨
      (∃ c session, φ = .passed c ∧ x = ⟨.session .getById, .ok (some session)⟩ ∧
        φ' = .opened c session) ∨
      ∃ c session assignments, φ = .opened c session ∧ x = ⟨.listBySession, .ok assignments⟩ ∧
        φ' = .loaded ⟨c, session, assignments⟩ := by
  cases h with
  | reopen c session => exact .inr (.inl ⟨c, session, rfl, rfl, rfl⟩)
  | load c session assignments => exact .inr (.inr ⟨c, session, assignments, rfl, rfl, rfl⟩)
  | channel => exact .inl hφ
  | submit | submitFailed =>
    left
    intro l built hl
    cases hl
    exact hφ
  | prepareFailed l built hφ' =>
    left
    obtain ⟨rest, rfl⟩ | ⟨a, profile, rest, rfl⟩ := hφ'
    · exact hφ
    · exact hφ
  | read | decompose | decomposeFailed | dispatch | dispatchFailed | finalize | ending =>
    exact .inl hφ
  | write l built =>
    left
    intro l' built' hl
    cases hl
    exact hφ l built rfl
  | _ =>
    left
    intro l built hl
    cases hl

end Allows

/-! ## Every run -/

/-- From the read of the row on, the content a launch that goes on to the checks waits for. -/
noncomputable def awaitsRow (set : Setting) (s : Requests) (j : ℕ) : Option Content :=
  (s.phase (next set) .fresh j).bind fun φ =>
    match φ, s.pending j with
    | .rowRead row, some (.session (.transitionState .configuring .validating)) =>
      some (contentOf row)
    | φ, _ => φ.awaitsRow

noncomputable def awaitsList (set : Setting) (s : Requests) (j : ℕ) : Option (List AssignmentRow) :=
  (s.phase (next set) .fresh j).bind Phase.awaitsList

noncomputable def listRefused (set : Setting) (s : Requests) (i : ℕ) (o : Outside) : Bool :=
  match s.pending i with
  | some .listBySession =>
    match s.phase (next set) .fresh i with
    | some (.indexed _ _) => o.session.dbError.isSome
    | _ => false
  | _ => false

/-- Content and assignments change while no launch waits for them to stay, and the list of
assignments is not refused to the checks. -/
noncomputable def undisturbed (set : Setting) (s : Requests) : Label → Bool
  | .request _ => true
  | .call i o =>
    (apply set s (.call i o)).all fun s' =>
      (s'.shared.content == s.shared.content ||
        (List.range s.processes.length).all fun j => (awaitsRow set s j).isNone) &&
      (s'.shared.slots == s.shared.slots ||
        (List.range s.processes.length).all fun j => (awaitsList set s j).isNone) &&
      !listRefused set s i o

section Runs

variable {set : Setting} {s s' : Requests} {i : ℕ} {o : Outside} {j : ℕ} {φ : Phase}

theorem lt_of_phase (h : Conforms set s) (hφ : s.phase (next set) .fresh j = some φ)
    (hne : φ ≠ .fresh) : j < s.processes.length := by
  by_contra hle
  rw [h.phase_of_length_le (by omega)] at hφ
  exact hne (Option.some.inj hφ).symm

variable {content : Content}

theorem awaitsRow_cases (h : awaitsRow set s j = some content) :
    (∃ row, s.phase (next set) .fresh j = some (.rowRead row) ∧ content = contentOf row ∧
        s.pending j = some (.session (.transitionState .configuring .validating))) ∨
      ∃ φ, s.phase (next set) .fresh j = some φ ∧ φ.awaitsRow = some content := by
  obtain ⟨φ, hφ, hcontent⟩ := bind_eq_some_iff.mp h
  split at hcontent
  · next hpending => exact .inl ⟨_, hφ, (Option.some.inj hcontent).symm, hpending⟩
  · exact .inr ⟨_, hφ, hcontent⟩

theorem awaitsRow_of_phase (hφ : s.phase (next set) .fresh j = some φ)
    (hcontent : φ.awaitsRow = some content) : awaitsRow set s j = some content := by
  cases φ with
  | validating | indexed | checking | comparing | passed =>
    simp only [awaitsRow, hφ, bind_some]
    exact hcontent
  | _ => cases hcontent

variable {row : SessionRow}

theorem awaitsRow_of_rowRead (hφ : s.phase (next set) .fresh j = some (.rowRead row))
    (hpending : s.pending j = some (.session (.transitionState .configuring .validating))) :
    awaitsRow set s j = some (contentOf row) := by
  simp [awaitsRow, hφ, hpending]

theorem lt_of_awaitsRow (h : Conforms set s) (hj : awaitsRow set s j = some content) :
    j < s.processes.length := by
  obtain ⟨row, hφ, -⟩ | ⟨φ, hφ, hcontent⟩ := awaitsRow_cases hj
  · exact lt_of_phase h hφ (by simp)
  · refine lt_of_phase h hφ ?_
    rintro rfl
    cases hcontent

theorem lt_of_awaitsList (h : Conforms set s) {slots : List AssignmentRow}
    (hj : awaitsList set s j = some slots) : j < s.processes.length := by
  obtain ⟨φ, hφ, hslots⟩ := bind_eq_some_iff.mp hj
  refine lt_of_phase h hφ ?_
  rintro rfl
  cases hslots

theorem undisturbed_step (hok : undisturbed set s (.call i o))
    (hstep : apply set s (.call i o) = some s') : (s'.shared.content = s.shared.content ∨
        ∀ j < s.processes.length, awaitsRow set s j = none) ∧
      (s'.shared.slots = s.shared.slots ∨ ∀ j < s.processes.length, awaitsList set s j = none) ∧
      listRefused set s i o = false := by
  simpa [undisturbed, hstep, and_assoc] using hok

structure Steady (set : Setting) (s : Requests) : Prop where
  conforms : Conforms set s
  content : ∀ j content, awaitsRow set s j = some content → content = s.shared.content
  slots : ∀ j slots, awaitsList set s j = some slots → slots = s.shared.slots
  agrees : ∀ j φ, s.phase (next set) .fresh j = some φ → φ.Agrees

theorem steady_new (w : World) : Steady set (new w) where
  conforms := conforms_new
  content j content hj := by cases hj
  slots j slots hj := by cases hj
  agrees j φ hφ := by
    cases hφ
    intro l built hl
    cases hl

theorem Steady.start (h : Steady set s) (r : Request) :
    Steady set (s.start (r.program set s.shared.row.id)) := by
  have hphase : (s.start (r.program set s.shared.row.id)).phase (next set) .fresh =
      s.phase (next set) .fresh := Pool.phase_eq_of_history_eq rfl
  refine ⟨conforms_start h.conforms, ?_, ?_, ?_⟩
  · intro j content hj
    obtain ⟨row, hφ, rfl, hpending⟩ | ⟨φ, hφ, hcontent⟩ := awaitsRow_cases hj
    · rw [hphase] at hφ
      rw [Pool.pending_of_start s _ (lt_of_phase h.conforms hφ (by simp))] at hpending
      exact h.content j _ (awaitsRow_of_rowRead hφ hpending)
    · rw [hphase] at hφ
      exact h.content j _ (awaitsRow_of_phase hφ hcontent)
  · intro j slots hj
    rw [awaitsList, hphase] at hj
    exact h.slots j slots hj
  · intro j φ hφ
    rw [hphase] at hφ
    exact h.agrees j φ hφ

section

variable (h : Steady set s) (hok : undisturbed set s (.call i o))
  (hstep : apply set s (.call i o) = some s')
include h hok hstep

theorem Steady.content_of_step (hj : awaitsRow set s j = some content) :
    content = s'.shared.content := by
  obtain hsame | hnone := (undisturbed_step hok hstep).1
  · rw [hsame]
    exact h.content j content hj
  · rw [hnone j (lt_of_awaitsRow h.conforms hj)] at hj
    cases hj

theorem Steady.slots_of_step {slots : List AssignmentRow} (hj : awaitsList set s j = some slots) :
    slots = s'.shared.slots := by
  obtain hsame | hnone := (undisturbed_step hok hstep).2.1
  · rw [hsame]
    exact h.slots j slots hj
  · rw [hnone j (lt_of_awaitsList h.conforms hj)] at hj
    cases hj

end

theorem row_of_reply {w : World} (h : (exec (.session .getById) o w).1 = .ok (some row)) :
    row = w.row :=
  Option.some.inj (eq_of_tried (w.session.statement_cases w.session o.session _) h).symm

theorem list_of_reply {w : World} {assignments : List AssignmentRow}
    (h : (exec .listBySession o w).1 = .ok assignments) :
    assignments = w.assignments.listBySession := by
  have hreply : (w.statement o w.assignments.listBySession w).1 = .ok assignments := h
  unfold statement at hreply
  split at hreply
  · cases hreply
  · exact (Except.ok.inj hreply).symm

theorem awaitsRow_of_others (h : Conforms set s) (hstep : Step set s (.call i o) s') (hji : j ≠ i)
    (hphase : s'.phase (next set) .fresh j = s.phase (next set) .fresh j)
    (hj : awaitsRow set s' j = some content) : awaitsRow set s j = some content := by
  obtain ⟨row, hφ, rfl, hpending⟩ | ⟨φ, hφ, hcontent⟩ := awaitsRow_cases hj
  · rw [hphase] at hφ
    have hlt := lt_of_phase h hφ (by simp)
    rw [Pool.pending_of_advance (show s.advance exec (fun _ _ => []) i o = some s' from hstep) hji
      hlt] at hpending
    exact awaitsRow_of_rowRead hφ hpending
  · rw [hphase] at hφ
    exact awaitsRow_of_phase hφ hcontent

theorem rowRead_of_allows {x : Exchange Call Reply} (h : Allows set φ x (.rowRead row)) :
    x = ⟨.session .getById, .ok (some row)⟩ := by
  cases h
  rfl

theorem Steady.call (h : Steady set s) (hok : undisturbed set s (.call i o))
    (hstep : Step set s (.call i o) s') : Steady set s' := by
  obtain ⟨hconforms, c, φ, φ', hadv, hpending⟩ := conforms_call h.conforms hstep
  have hallows := allows_of_next hadv.allowed
  generalize hr : (exec c o s.shared).1 = r at hallows
  refine ⟨hconforms, ?_, ?_, ?_⟩
  · intro j content hj
    by_cases hji : j = i
    · subst hji
      obtain ⟨row, hφ, rfl, -⟩ | ⟨ψ, hψ, hcontent⟩ := awaitsRow_cases hj
      · -- the row was read just now
        cases hadv.after.symm.trans hφ
        cases rowRead_of_allows hallows
        rw [hadv.shared, content_exec rfl, row_of_reply hr]
        rfl
      · cases hadv.after.symm.trans hψ
        obtain hφ | ⟨row, rfl, rfl, hcall⟩ := awaitsRow_of_allows hallows hcontent
        · exact h.content_of_step hok hstep (awaitsRow_of_phase hadv.before hφ)
        · rw [show c = _ from hcall] at hpending
          exact h.content_of_step hok hstep (awaitsRow_of_rowRead hadv.before hpending)
    · exact h.content_of_step hok hstep
        (awaitsRow_of_others h.conforms hstep hji (hadv.others j hji) hj)
  · intro j slots hj
    by_cases hji : j = i
    · subst hji
      rw [awaitsList, hadv.after, bind_some] at hj
      obtain hφ | ⟨row, vertical, r', rfl, hx, rfl⟩ := awaitsList_of_allows hallows hj
      · refine h.slots_of_step hok hstep (j := j) ?_
        rw [awaitsList, hadv.before]
        exact hφ
      · cases hx
        have hdb : o.session.dbError = none := by
          simpa [listRefused, hpending, hadv.before] using (undisturbed_step hok hstep).2.2
        rw [hadv.shared, slots_exec rfl, ← hr]
        simp [exec, statement, hdb]
        rfl
    · refine h.slots_of_step hok hstep (j := j) ?_
      rw [awaitsList, hadv.others j hji] at hj
      exact hj
  · intro j ψ hψ
    by_cases hji : j = i
    · subst hji
      cases hadv.after.symm.trans hψ
      have hbefore := h.agrees j φ hadv.before
      obtain hagrees | ⟨c', session, rfl, hx, rfl⟩ | ⟨c', session, assignments, rfl, hx, rfl⟩ :=
        agrees_of_allows hallows hbefore
      · exact hagrees
      · cases hx
        have hcontent := h.content j _ (awaitsRow_of_phase hadv.before rfl)
        show contentOf session = contentOf c'.row
        rw [row_of_reply hr, hcontent]
        rfl
      · cases hx
        have hslots := h.slots j (slotsOf c'.assignments) (by rw [awaitsList, hadv.before]; rfl)
        refine ⟨hbefore, ?_⟩
        rw [list_of_reply hr, hslots]
        rfl
    · rw [hadv.others j hji] at hψ
      exact h.agrees j ψ hψ

/-- **What is validated is what is launched**, if nobody changes content or assignments between the
two reads of a launch and the list is not refused to the checks. -/
theorem validated_is_launched {w : World}
    (h : Run (Step set) (fun s l => undisturbed set s l) (new w) s) {i : ℕ}
    {request : SubmitGoalRequest} {r : Except Status String}
    (hmem : (i, ⟨.session (.submitGoal request), r⟩) ∈ s.history) : AsValidated set (s.log i) := by
  have hsteady : Steady set s := by
    refine h.invariant (Steady set) ?_ (steady_new w)
    intro s label s' hs hok hstep
    cases label with
    | request r =>
      cases hstep
      exact hs.start r
    | call => exact hs.call hok hstep
  obtain ⟨φ, l, built, hφ, hlaunched, hvalidated, hsends⟩ :=
    exists_launched hsteady.conforms hmem rfl
  refine ⟨l.check, l.session, l.assignments, built, hvalidated, hsends, ?_⟩
  have hφ' := hsteady.agrees i φ hφ
  cases φ with
  | opened | loaded => cases hlaunched
  | _ => exact hφ' l built hlaunched

end Runs

/-! ## A context that is changed during the launch -/

namespace Sample

def updateRequest : Label := .request (.update ⟨"u1", false⟩ ⟨none, some .null, none, none, none⟩)

def goal : SubmitGoalRequest := goalOf { row with context := some "text" }

end Sample

theorem validated_is_launched_in_turn :
    ∃ s, Run (Step Sample.setting) (fun s l => undisturbed Sample.setting s l)
        (new (Sample.world 1 (Sample.table none))) s ∧
      (1, ⟨.session (.submitGoal Sample.goal), .ok "root"⟩) ∈ s.history ∧
      AsValidated Sample.setting (s.log 1) := by
  have hrun := Run.of_checked (undisturbed Sample.setting) (fun _ _ _ hok => hok)
    (rfl : ([Sample.updateRequest, Sample.launchRequest] ++
      Sample.calls ([0, 0] ++ List.replicate 11 1)).foldlM
        (fun s l => if undisturbed Sample.setting s l then apply Sample.setting s l else none)
        (new (Sample.world 1 (Sample.table none))) = some _)
  exact ⟨_, hrun, mem_of_getLast? rfl, validated_is_launched hrun (mem_of_getLast? rfl)⟩

/-- The context is set after the launch read the row: the checks pass without it, and SubmitGoal
sends it. -/
theorem unvalidated_context_launched :
    ∃ s, Run (Step Sample.setting) anyStep (new (Sample.world 1 (Sample.table none))) s ∧
      (0, ⟨.session (.submitGoal Sample.goal), .ok "root"⟩) ∈ s.history ∧
      ¬ AsValidated Sample.setting (s.log 0) := by
  obtain ⟨s, hs⟩ : ∃ s, ([Sample.launchRequest, Sample.updateRequest] ++
      Sample.calls ([0, 1, 1] ++ List.replicate 10 0)).foldlM (apply Sample.setting)
        (new (Sample.world 1 (Sample.table none))) = some s := ⟨_, rfl⟩
  have hmem : (0, ⟨.session (.submitGoal Sample.goal), .ok "root"⟩) ∈ s.history := by
    cases hs
    exact mem_of_getLast? rfl
  have hhead : (s.log 0).head? = some ⟨.session .getById, .ok (some Sample.row)⟩ := by
    cases hs
    rfl
  refine ⟨s, Run.of_ops hs, hmem, ?_⟩
  rintro ⟨c, session, assignments, built, hvalidated, hsends, hcontent, -⟩
  obtain ⟨reads, rest, ⟨r, hlog⟩, -⟩ := hvalidated.returned
  have hrow : c.row = Sample.row := by simpa [hlog] using hhead
  have hnone : session.context = none := by
    rw [hrow] at hcontent
    exact congrArg Content.context hcontent
  have hgoal := hsends.goals _ _ (Pool.mem_log.mpr hmem)
  have hbytes := congrArg SubmitGoalRequest.context hgoal
  simp only [goalOf, hnone] at hbytes
  revert hbytes
  decide

end Wacp.Console.Editing
