import Wacp.Model.SessionHandlers
import Wacp.Library.Runs

/-!
# The order of calls in the components of a session

Every component keeps to one protocol: `Phase.next` says what each phase allows and where it leads.
Later modules use the protocol only, so that a change to a modelled function concerns its lemma
here.
-/

namespace Wacp.Console

open Library Prog List Follows

/-! ## The protocol -/

inductive Phase where
  | fresh (seen : List String)
  | validating
  | loading
  | loaded
  | building (rootWs : String) (own : List String)
  | aborting (left : List String)
  | committed
  | leaked
  | stuck
  | settled
  deriving DecidableEq

namespace Phase

def afterRead : Phase → Except DbError (Option SessionRow) → Option Phase
  | .fresh seen, .ok (some row) => some (.fresh (row.coordinatorWorkspaceId.toList ++ seen))
  | .fresh seen, _ => some (.fresh seen)
  | .loading, .ok (some row) => some (if row.state = .launching then .loaded else .settled)
  | .loading, .ok none => some .settled
  | .loading, .error _ => some .stuck
  | _, _ => none

def afterUpdate : Phase → SessionState → SessionState → Except DbError Bool → Option Phase
  | .fresh _, .configuring, .validating, .ok _ => some .validating
  | .fresh _, .configuring, .validating, .error _ => some .settled
  | .fresh seen, .active, .completed, _ => some (.fresh seen)
  | .fresh seen, .active, .failed, _ => some (.fresh seen)
  | .validating, .validating, .configuring, _ => some .settled
  | .validating, .validating, .launching, .ok _ => some .loading
  | .validating, .validating, .launching, .error _ => some .settled
  | .aborting [], .launching, .failed, _ => some .settled
  | .leaked, .launching, .failed, _ => some .leaked
  | _, _, _, _ => none

def afterAssignments : Phase → Except DbError (List SessionAssignmentRow) → Option Phase
  | .fresh seen, _ => some (.fresh seen)
  | .loaded, .ok [] => some (.aborting [])
  | .loaded, .ok (_ :: _) => some .loaded
  | .loaded, .error _ => some .stuck
  | _, _ => none

def afterPart {ε α : Type} : Phase → Except ε α → Option Phase
  | .building rootWs own, .ok _ => some (.building rootWs own)
  | .building _ _, .error _ => some .leaked
  | _, _ => none

def afterFinalize : Phase → String → List LaunchedAssignment → Except DbError Unit → Option Phase
  | .building rootWs own, rootWorkspaceId, launched, r =>
    if rootWorkspaceId = rootWs ∧ launched.map (·.workspaceId) = own ∧ own ≠ [] then
      some (if r.isOk then .committed else .building rootWs own)
    else none
  | _, _, _, _ => none

/-- After workspaces were created the question for a channel opens the rollback. -/
def afterChannel : Phase → Bool → Option Phase
  | .fresh seen, _ => some (.fresh seen)
  | .loaded, true => some .loaded
  | .loaded, false => some .stuck
  | .building rootWs own, true => some (.aborting (rootWs :: own))
  | .building _ _, false => some .leaked
  | _, _ => none

def afterGoal : Phase → Except Status String → Option Phase
  | .loaded, .ok w => some (.building w [])
  | .loaded, .error _ => some (.aborting [])
  | _, _ => none

def afterDispatch : Phase → Except Status String → Option Phase
  | .building rootWs own, .ok w => some (.building rootWs (own ++ [w]))
  | .building rootWs own, .error _ => some (.building rootWs own)
  | _, _ => none

/-- A component aborts what it read as the coordinator workspace; a launch what it created, in
order. -/
def afterAbort : Phase → String → Option Phase
  | .fresh seen, w => if w ∈ seen then some (.fresh seen) else none
  | .aborting (w' :: left), w => if w = w' then some (.aborting left) else none
  | _, _ => none

def ifFresh : Phase → Option Phase
  | .fresh seen => some (.fresh seen)
  | _ => none

def ifBuilding : Phase → Option Phase
  | .building rootWs own => some (.building rootWs own)
  | _ => none

def next (φ : Phase) : Exchange Call Reply → Option Phase
  | ⟨.getById, r⟩ => φ.afterRead r
  | ⟨.transitionState f t, r⟩ => φ.afterUpdate f t r
  | ⟨.setCancelled, _⟩ => φ.ifFresh
  | ⟨.listActive, _⟩ => φ.ifFresh
  | ⟨.listBySession, r⟩ => φ.afterAssignments r
  | ⟨.getCurrent _, r⟩ => φ.afterPart r
  | ⟨.finalize rootWorkspaceId launched, r⟩ => φ.afterFinalize rootWorkspaceId launched r
  | ⟨.validateSession _, _⟩ => if φ = .validating then some .validating else none
  | ⟨.toolsFromStr _, _⟩ => φ.ifBuilding
  | ⟨.directiveToVec _, r⟩ => φ.afterPart r
  | ⟨.coordinator, r⟩ => φ.afterChannel r
  | ⟨.submitGoal _, r⟩ => φ.afterGoal r
  | ⟨.decompose _, _⟩ => φ.ifBuilding
  | ⟨.dispatch _, r⟩ => φ.afterDispatch r
  | ⟨.abortWorkspace request, _⟩ => φ.afterAbort request.workspaceId
  | ⟨.highway, _⟩ => φ.ifFresh
  | ⟨.getWorkspace _, _⟩ => φ.ifFresh
  | ⟨.spawnMonitor _, _⟩ => if φ = .committed then some .committed else φ.ifFresh
  | ⟨.removeMonitor, _⟩ => φ.ifFresh

/-- What a component in this phase has created and neither aborted nor handed over. -/
def owned : Phase → List String
  | .building rootWs own => rootWs :: own
  | .aborting left => left
  | _ => []

inductive Updates : Phase → SessionState → SessionState → Except DbError Bool → Phase → Prop where
  | take (seen : List String) (b : Bool) :
      Updates (.fresh seen) .configuring .validating (.ok b) .validating
  | takeRefused (seen : List String) (e : DbError) :
      Updates (.fresh seen) .configuring .validating (.error e) .settled
  | complete (seen : List String) (r : Except DbError Bool) :
      Updates (.fresh seen) .active .completed r (.fresh seen)
  | fail (seen : List String) (r : Except DbError Bool) :
      Updates (.fresh seen) .active .failed r (.fresh seen)
  | giveBack (r : Except DbError Bool) : Updates .validating .validating .configuring r .settled
  | proceed (b : Bool) : Updates .validating .validating .launching (.ok b) .loading
  | proceedRefused (e : DbError) :
      Updates .validating .validating .launching (.error e) .settled
  | markFailed (r : Except DbError Bool) : Updates (.aborting []) .launching .failed r .settled
  | markLeaked (r : Except DbError Bool) : Updates .leaked .launching .failed r .leaked

theorem updates_of_afterUpdate {φ φ' : Phase} {f t : SessionState} {r : Except DbError Bool}
    (h : φ.afterUpdate f t r = some φ') : Updates φ f t r φ' := by
  unfold afterUpdate at h
  split at h
  all_goals cases h
  all_goals constructor

end Phase

open Phase

/-! ## The launcher -/

theorem abortEach_follows (workspaces : List String) :
    (abortEach workspaces).Follows next (fun φ _ => φ = .aborting []) (.aborting workspaces) := by
  induction workspaces with
  | nil => rfl
  | cons ws workspaces ih => exact perform fun r => ⟨_, if_pos rfl, ih⟩

/-- A launch that compensates has done so, or had no channel for it. -/
def Compensated (φ : Phase) : Prop := φ = .aborting [] ∨ φ = .leaked

variable {id : String} (log : List (Exchange Call Reply)) {session : SessionRow} {rootWs : String}

theorem rollback_follows {own : List String} :
    (rollback (rootWs :: own)).Follows next (fun φ _ => Compensated φ) (.building rootWs own) := by
  refine perform fun r => ?_
  cases r with
  | true => exact ⟨_, rfl, (abortEach_follows _).mono fun φ _ h => .inl h⟩
  | false => exact ⟨_, rfl, .inr rfl⟩

def Over (φ : Phase) : Prop := φ = .settled ∨ φ = .leaked ∨ φ = .stuck

def LaunchEnds (φ : Phase) : Except LaunchError LaunchOutcome → Prop
  | .ok (.active _ _) => φ = .committed
  | .ok (.alreadyActive _) => φ = .settled
  | .error _ => Over φ

variable {φ : Phase}

theorem fail_follows (h : Compensated φ) {err : LaunchError} :
    (do markFailed; return .error err : Program (Except LaunchError LaunchOutcome)).Follows next
      LaunchEnds φ := by
  refine perform fun r => ?_
  obtain rfl | rfl := h
  · exact ⟨_, rfl, .inl rfl⟩
  · exact ⟨_, rfl, .inr (.inl rfl)⟩

theorem stepError_follows {step : LaunchStep} {status : Status} {rootWs : String}
    {own : List String} :
    (stepError step status (rootWs :: own)).Follows next (fun φ _ => Compensated φ)
      (.building rootWs own) :=
  rollback_follows.bind fun _ _ h => h

variable {launched : List LaunchedAssignment} {own : List String}

theorem finalizeStep_follows (hown : launched.map (·.workspaceId) = own) (hne : own ≠ []) :
    (finalizeStep rootWs launched (rootWs :: own)).Follows next LaunchEnds
      (.building rootWs own) := by
  refine perform fun r => ⟨_, if_pos ⟨rfl, hown, hne⟩, ?_⟩
  cases r with
  | ok => exact rfl
  | error => exact rollback_follows.bind fun φ _ hφ => fail_follows hφ

theorem dispatchStep_follows (tasks : List ((SessionAssignmentRow × PreparedDirective) × String))
    (hown : launched.map (·.workspaceId) = own) (hne : tasks = [] → own ≠ []) :
    (dispatchStep rootWs tasks launched (rootWs :: own)).Follows next LaunchEnds
      (.building rootWs own) := by
  induction tasks generalizing launched own with
  | nil => exact finalizeStep_follows hown (hne rfl)
  | cons task tasks ih =>
    obtain ⟨⟨asgn, directive⟩, taskId⟩ := task
    refine perform fun r => ?_
    cases r with
    | error status =>
      refine ⟨_, rfl, ?_⟩
      exact stepError_follows.bind fun φ err hφ =>
        fail_follows hφ
    | ok => exact ⟨_, rfl, ih (by simp [hown]) (by simp)⟩

theorem toolList_follows {column : Option String} {rootWs : String} :
    (toolList column).Stays next (.building rootWs own) := by
  cases column with
  | none => rfl
  | some => exact perform fun r => ⟨_, rfl, rfl⟩

theorem effectiveTools_follows {profile : Option ProfileRow} {rootWs : String} :
    (effectiveTools profile).Stays next (.building rootWs own) := by
  cases profile with
  | none => rfl
  | some p => exact toolList_follows.bind fun allow => toolList_follows.bind fun _ => rfl

def PrepareEnds {α : Type} (rootWs : String) (own : List String) (P : α → Prop) (φ : Phase) :
    Except LaunchError α → Prop
  | .ok a => φ = .building rootWs own ∧ P a
  | .error _ => φ = .leaked

theorem buildDirective_follows {asgn : SessionAssignmentRow} {own : List String} :
    (buildDirective session asgn).Follows next (PrepareEnds rootWs own fun _ => True)
      (.building rootWs own) := by
  refine perform fun r => ?_
  cases r with
  | error => exact ⟨_, rfl, rfl⟩
  | ok profile =>
    refine ⟨_, rfl, effectiveTools_follows.bind fun tools => ?_⟩
    refine perform fun r => ?_
    cases r with
    | error => exact ⟨_, rfl, rfl⟩
    | ok => exact ⟨_, rfl, rfl, trivial⟩

theorem prepare_follows (own : List String) {assignments : List SessionAssignmentRow}
    (prepared : List (SessionAssignmentRow × PreparedDirective)) :
    (prepare session assignments prepared).Follows next
      (PrepareEnds rootWs own fun l => l.length = prepared.length + assignments.length)
      (.building rootWs own) := by
  induction assignments generalizing prepared with
  | nil => exact ⟨rfl, rfl⟩
  | cons asgn assignments ih =>
    refine buildDirective_follows.bind ?_
    rintro φ (e | directive) hφ
    · exact hφ
    · obtain ⟨rfl, -⟩ := hφ
      refine (ih (prepared ++ [(asgn, directive)])).mono ?_
      rintro φ (e | l) h
      · exact h
      · refine ⟨h.1, ?_⟩
        have hlen := h.2
        simp only [length_append, length_singleton] at hlen
        simp only [length_cons]
        omega

theorem decomposeStep_follows
    {prepared : List (SessionAssignmentRow × PreparedDirective)} (hne : prepared ≠ []) :
    (decomposeStep rootWs session prepared).Follows next LaunchEnds (.building rootWs []) := by
  refine perform fun r => ⟨_, rfl, ?_⟩
  cases r with
  | error status =>
    exact stepError_follows.bind fun φ err hφ =>
      fail_follows hφ
  | ok =>
    dsimp only
    split_ifs with hlen
    · exact rollback_follows.bind fun φ _ hφ => fail_follows hφ
    · refine dispatchStep_follows _ rfl fun hzip => ?_
      have hlen' := congrArg List.length hzip
      rw [length_zip, not_ne_iff.mp hlen, min_self] at hlen'
      exact absurd (eq_nil_of_length_eq_zero hlen') hne

theorem submitStep_follows {assignments : List SessionAssignmentRow} (hne : assignments ≠ []) :
    (submitStep session assignments).Follows next LaunchEnds .loaded := by
  refine perform fun r => ?_
  cases r with
  | error => exact ⟨_, rfl, fail_follows (.inl rfl)⟩
  | ok rootWs =>
    refine ⟨_, rfl, (prepare_follows [] []).bind ?_⟩
    rintro φ (e | prepared) hφ
    · exact .inr (.inl hφ)
    · obtain ⟨rfl, hlen⟩ := hφ
      refine decomposeStep_follows fun hnil => hne ?_
      rw [hnil] at hlen
      simpa using hlen.symm

/-- **The launcher keeps to the protocol.** -/
theorem launch_follows {sessionId : String} :
    (launch sessionId).Follows next LaunchEnds .loading := by
  refine perform fun r => ?_
  obtain e | _ | session := r
  · exact ⟨_, rfl, .inr (.inr rfl)⟩
  · exact ⟨_, rfl, .inl rfl⟩
  · refine ⟨_, rfl, ?_⟩
    dsimp only
    by_cases hst : session.state = .launching
    · rw [if_neg (not_not_intro hst), if_pos hst]
      refine perform fun r => ?_
      obtain e | _ | ⟨asgn, assignments⟩ := r
      · exact ⟨_, rfl, .inr (.inr rfl)⟩
      · exact ⟨_, rfl, fail_follows (.inl rfl)⟩
      · refine ⟨_, rfl, perform fun r => ?_⟩
        cases r with
        | true => exact ⟨_, rfl, submitStep_follows (by simp)⟩
        | false => exact ⟨_, rfl, .inr (.inr rfl)⟩
    · rw [if_pos hst, if_neg hst]
      split
      all_goals first | exact rfl | exact .inl rfl

/-! ## The handlers -/

theorem runLauncher_follows : (runLauncher id).Follows next (fun φ _ => φ.owned = []) .loading := by
  refine launch_follows.bind ?_
  rintro φ (err | (⟨ws, launched⟩ | state)) hφ
  · obtain rfl | rfl | rfl := hφ <;> rfl
  · cases hφ
    exact perform fun r => ⟨_, rfl, rfl⟩
  · cases hφ
    rfl

theorem launchSession_follows {auth : Auth} {seen : List String} :
    (launchSession auth id).Follows next (fun φ _ => φ.owned = []) (.fresh seen) := by
  refine perform fun r => ?_
  obtain e | _ | session := r
  · exact ⟨_, rfl, rfl⟩
  · exact ⟨_, rfl, rfl⟩
  · refine ⟨_, rfl, ?_⟩
    dsimp only
    cases checkSessionWriteAccess auth session with
    | error => exact rfl
    | ok =>
      split_ifs with hst
      · exact rfl
      · refine perform fun r => ?_
        cases r with
        | error => exact ⟨_, rfl, rfl⟩
        | ok =>
          refine ⟨_, rfl, perform fun violations => ⟨.validating, rfl, ?_⟩⟩
          split_ifs with hvalid
          · exact perform fun r => ⟨_, rfl, rfl⟩
          · refine perform fun r => ?_
            cases r with
            | error => exact ⟨_, rfl, rfl⟩
            | ok => exact ⟨_, rfl, runLauncher_follows⟩

/-- A component that has changed nothing, and has seen these ids as the coordinator workspace. -/
def Looks (seen : List String) (φ : Phase) : Prop := ∃ seen', φ = .fresh seen' ∧ seen ⊆ seen'

variable {seen : List String}

theorem Looks.owned (h : Looks seen φ) : φ.owned = [] := by
  obtain ⟨seen', rfl, -⟩ := h
  rfl

theorem cancel_follows {seen : List String} :
    cancel.Follows next (fun φ _ => Looks seen φ) (.fresh seen) := by
  have hself : Looks seen (.fresh seen) := ⟨seen, rfl, fun _ h => h⟩
  refine perform fun r => ?_
  obtain e | _ | session := r
  · exact ⟨_, rfl, hself⟩
  · exact ⟨_, rfl, hself⟩
  · have hmore : Looks seen (.fresh (session.coordinatorWorkspaceId.toList ++ seen)) :=
      ⟨_, rfl, subset_append_right _ _⟩
    refine ⟨_, rfl, ?_⟩
    dsimp only
    split_ifs
    · exact hmore
    · refine perform fun r => ⟨_, rfl, ?_⟩
      obtain e | _ | _ := r
      · exact hmore
      · exact hmore
      · exact hmore

variable {reason : String}

theorem bestEffortAbort_follows (hseen : session.coordinatorWorkspaceId.toList ⊆ seen) :
    (bestEffortAbort session reason).Stays next (.fresh seen) := by
  unfold bestEffortAbort
  cases hws : session.coordinatorWorkspaceId with
  | none => exact rfl
  | some workspaceId =>
    have hmem : workspaceId ∈ seen := hseen (by simp [hws])
    refine perform fun r => ⟨_, rfl, ?_⟩
    cases r with
    | true => exact perform fun r => ⟨_, if_pos hmem, rfl⟩
    | false => exact rfl

theorem finishCancel_follows {action : CancelAction}
    (hseen : session.coordinatorWorkspaceId.toList ⊆ seen) :
    (finishCancel id session action reason).Follows next (fun φ _ => φ.owned = [])
      (.fresh seen) := by
  refine cancel_follows.bind ?_
  rintro φ (e | _ | _) hφ
  · exact hφ.owned
  · exact hφ.owned
  · obtain ⟨seen', rfl, hsub⟩ := hφ
    split_ifs
    · refine (bestEffortAbort_follows (List.Subset.trans hseen hsub)).bind fun _ => ?_
      exact perform fun r => ⟨_, rfl, rfl⟩
    · exact perform fun r => ⟨_, rfl, rfl⟩

theorem cancelSession_follows {auth : Auth} {id : String} {reason : Option String}
    {seen : List String} :
    (cancelSession auth id reason).Follows next (fun φ _ => φ.owned = []) (.fresh seen) := by
  refine perform fun r => ?_
  obtain e | _ | session := r
  · exact ⟨_, rfl, rfl⟩
  · exact ⟨_, rfl, rfl⟩
  · have hseen := subset_append_left session.coordinatorWorkspaceId.toList seen
    refine ⟨_, rfl, ?_⟩
    dsimp only
    cases checkSessionWriteAccess auth session with
    | error => exact rfl
    | ok =>
      cases cancelActionForState session.state with
      | none => exact rfl
      | some action =>
        cases action with
        | noOp | bestEffortAbort => exact finishCancel_follows hseen
        | abortWorkspace =>
          cases hws : session.coordinatorWorkspaceId with
          | none => exact rfl
          | some workspaceId =>
            rw [hws] at hseen
            have hmem : workspaceId ∈ (some workspaceId).toList ++ seen := by simp
            refine perform fun r => ⟨_, rfl, ?_⟩
            cases r with
            | false => exact rfl
            | true =>
              refine perform fun r => ⟨_, if_pos hmem, ?_⟩
              cases r with
              | error => exact rfl
              | ok =>
                exact finishCancel_follows (by rw [hws]; exact hseen)

/-! ## Monitors and recovery -/

variable {t : SessionState} {workspaces : WorkspaceSet}

theorem handleEvent_cases {input : MonitorInput}
    (h : handleEvent workspaces input = some t) : t = .completed ∨ t = .failed := by
  cases input with
  | workspaceChange =>
    simp only [handleEvent] at h
    split_ifs at h
    split at h
    all_goals cases h
    · exact .inr rfl
    · exact .inl rfl
  | fatal =>
    cases h
    exact .inr rfl
  | frame | shutdown => cases h

theorem update_active_follows {α : Type} (ht : t = .completed ∨ t = .failed)
    {f : Except DbError Bool → Program α} {post : Phase → α → Prop}
    (hf : ∀ r, (f r).Follows next post (.fresh seen)) :
    (transitionState .active t >>= f).Follows next post (.fresh seen) := by
  refine perform fun r => ?_
  obtain rfl | rfl := ht
  · exact ⟨_, rfl, hf r⟩
  · exact ⟨_, rfl, hf r⟩

theorem monitorRun_follows {inputs : List MonitorInput} {seen : List String} :
    (monitorRun workspaces inputs).Stays next (.fresh seen) := by
  have hremove : removeMonitor.Stays next (.fresh seen) :=
    fun _ => ⟨_, rfl, rfl⟩
  fun_induction monitorRun workspaces inputs with
  | case1 | case2 => exact hremove
  | case3 input inputs hinput t ht =>
    exact update_active_follows (handleEvent_cases ht) fun _ => hremove
  | case4 input inputs hinput ht ih => exact ih

variable {coordWs : String}

theorem resume_follows {seen : List String} :
    (resume coordWs).Stays next (.fresh seen) := by
  refine perform fun r => ⟨_, rfl, ?_⟩
  cases r with
  | error => exact rfl
  | ok => exact perform fun r => ⟨_, rfl, rfl⟩

theorem reconcile_follows {view : Except Status (Option WorkspaceState)} {seen : List String} :
    (reconcile coordWs view).Stays next (.fresh seen) := by
  have hfailed : ∀ outcome : RecoveryOutcome,
      (do markRecoveryFailed; return outcome : Program RecoveryOutcome).Stays next
        (.fresh seen) :=
    fun outcome => update_active_follows (.inr rfl) fun _ => rfl
  unfold reconcile
  split
  · split
    · exact hfailed _
    · exact rfl
    · exact rfl
    · exact hfailed _
  · exact update_active_follows (.inr rfl) fun _ => rfl
  · exact update_active_follows (.inl rfl) fun _ => rfl
  · exact resume_follows

theorem recoverOne_follows {row : SessionRow} {seen : List String} :
    (recoverOne row).Stays next (.fresh seen) := by
  unfold recoverOne
  cases row.coordinatorWorkspaceId with
  | none => exact update_active_follows (.inr rfl) fun _ => rfl
  | some coordWs =>
    refine perform fun r => ⟨_, rfl, ?_⟩
    cases r with
    | false => exact rfl
    | true => exact perform fun view => ⟨_, rfl, reconcile_follows⟩

theorem recoverEach_follows {rows : List SessionRow} {seen : List String} :
    (recoverEach rows).Stays next (.fresh seen) := by
  induction rows with
  | nil => exact rfl
  | cons row rows ih =>
    refine recoverOne_follows.bind fun outcome => ?_
    exact ih.bind fun _ => rfl

theorem recoveryRun_follows {seen : List String} :
    recoveryRun.Stays next (.fresh seen) := by
  refine perform fun r => ⟨_, rfl, ?_⟩
  cases r with
  | error => exact rfl
  | ok rows => exact recoverEach_follows

/-! ## What calls do to the row -/

def exchange (c : Call) (o : Outside) (s : SessionData) : Exchange Call Reply :=
  ⟨c, (exec c o s).1⟩

inductive RowChange (s : SessionData) (now : String) (row' : SessionRow) :
    Exchange Call Reply → Prop where
  | transition (f t : SessionState) (hf : s.row.state = f) (hrow : row' = s.row.moveTo t now) :
      RowChange s now row' ⟨.transitionState f t, .ok true⟩
  | cancel (hlive : s.row.state.isTerminal = false)
      (hrow : row' = s.row.moveTo .cancelled now) :
      RowChange s now row' ⟨.setCancelled, .ok true⟩
  | finalize (rootWs : String) (launched : List LaunchedAssignment)
      (hf : s.row.state = .launching)
      (hrow : row' = { s.row with
        state := .active, coordinatorWorkspaceId := some rootWs, launchedAt := some now }) :
      RowChange s now row' ⟨.finalize rootWs launched, .ok ()⟩

/-- **All else leaves the row alone**, and so do statements that fail or whose guard fails. -/
theorem exec_row_cases {c : Call} {o : Outside} {s : SessionData} : (exec c o s).2.row = s.row ∨
      RowChange s o.now (exec c o s).2.row (exchange c o s) := by
  have hread : ∀ {α : Type} (a : α), (s.statement o a s).2.row = s.row :=
    fun a => keeps_of_tried (s.statement_cases s o a) (·.row = s.row) rfl rfl
  cases c with
  | getById | listActive | listBySession | getCurrent => exact .inl (hread _)
  | transitionState f t =>
    simp only [exchange, exec, SessionData.transitionState]
    split_ifs with hf
    · obtain ⟨e, he⟩ | hok := s.statement_cases (s.withRow (s.row.moveTo t o.now)) o true
      · exact .inl (by rw [he])
      · rw [hok]
        exact .inr (.transition f t hf rfl)
    · exact .inl (hread _)
  | setCancelled =>
    simp only [exchange, exec, SessionData.setCancelled]
    split_ifs with hterminal
    · exact .inl (hread _)
    · obtain ⟨e, he⟩ | hok :=
        s.statement_cases (s.withRow (s.row.moveTo .cancelled o.now)) o true
      · exact .inl (by rw [he])
      · rw [hok]
        exact .inr (.cancel (Bool.not_eq_true _ ▸ hterminal) rfl)
  | finalize rootWs launched =>
    simp only [exchange, exec, SessionData.finalize]
    split_ifs with hf
    · obtain ⟨e, he⟩ | hok := s.statement_cases _ o ()
      · exact .inl (by rw [he])
      · rw [hok]
        exact .inr (.finalize rootWs launched hf rfl)
    · exact .inl rfl
  | _ => exact .inl rfl

inductive UpdateResult (s : SessionData) (f t : SessionState) (now : String)
    (row' : SessionRow) : Except DbError Bool → Prop where
  | done (hf : s.row.state = f) (hrow : row' = s.row.moveTo t now) :
      UpdateResult s f t now row' (.ok true)
  | late (hf : s.row.state ≠ f) (hrow : row' = s.row) : UpdateResult s f t now row' (.ok false)
  | refused (e : DbError) (hrow : row' = s.row) : UpdateResult s f t now row' (.error e)

variable {c : Call} {o : Outside} {s : SessionData}

/-- **The answer to an UPDATE says what it did.** -/
theorem updateResult {f : SessionState} {r : Except DbError Bool}
    (h : exchange c o s = ⟨.transitionState f t, r⟩) :
    UpdateResult s f t o.now (exec c o s).2.row r := by
  cases c with
  | transitionState f' t' =>
    have hcall : (⟨f', t'⟩ : SessionState × SessionState) = ⟨f, t⟩ := by
      cases h
      rfl
    cases hcall
    have hreply : (s.transitionState o f t).1 = r := by simpa [exchange, exec] using h
    rw [← hreply]
    simp only [exec, SessionData.transitionState]
    split_ifs with hf
    · obtain ⟨e, he⟩ | hok := s.statement_cases (s.withRow (s.row.moveTo t o.now)) o true
      · rw [he]
        exact .refused e rfl
      · rw [hok]
        exact .done hf rfl
    · obtain ⟨e, he⟩ | hok := s.statement_cases s o false
      · rw [he]
        exact .refused e rfl
      · rw [hok]
        exact .late hf rfl
  | _ => cases h

theorem eq_row_of_read {row : Option SessionRow} (h : exchange c o s = ⟨.getById, .ok row⟩) :
    row = some s.row := by
  cases c with
  | getById =>
    have hreply : (s.statement o (some s.row) s).1 = .ok row := by simpa [exchange, exec] using h
    exact (eq_of_tried (s.statement_cases s o _) hreply).symm
  | _ => cases h

/-! ## What calls do to workspaces -/

def createdBy : Exchange Call Reply → Option String
  | ⟨.submitGoal _, r⟩ => r.toOption
  | ⟨.dispatch _, r⟩ => r.toOption
  | _ => none

def abortedBy : Exchange Call Reply → Option String
  | ⟨.abortWorkspace request, _⟩ => some request.workspaceId
  | _ => none

def committedBy : Exchange Call Reply → Option String
  | ⟨.finalize rootWorkspaceId _, .ok ()⟩ => some rootWorkspaceId
  | _ => none

def readBy : Exchange Call Reply → Option String
  | ⟨.getById, .ok (some row)⟩ => row.coordinatorWorkspaceId
  | _ => none

def created : List String := log.filterMap createdBy

def aborted : List String := log.filterMap abortedBy

def committed : List String := log.filterMap committedBy

def reads : List String := log.filterMap readBy

/-! ## What the protocol allows -/

def isGoal : Exchange Call Reply → Bool
  | ⟨.submitGoal _, _⟩ => true
  | _ => false

def writes : Exchange Call Reply → Bool
  | ⟨.transitionState _ _, _⟩ => true
  | ⟨.setCancelled, _⟩ => true
  | ⟨.finalize _ _, r⟩ => r.isOk
  | _ => false

def partRefused : Exchange Call Reply → Bool
  | ⟨.getCurrent _, r⟩ => !r.isOk
  | ⟨.directiveToVec _, r⟩ => !r.isOk
  | _ => false

def noChannel : Exchange Call Reply → Bool
  | ⟨.coordinator, r⟩ => !r
  | _ => false

def unanswered : Exchange Call Reply → Bool
  | ⟨.getById, r⟩ => !r.isOk
  | ⟨.listBySession, r⟩ => !r.isOk
  | x => partRefused x || noChannel x

structure Plain (x : Exchange Call Reply) : Prop where
  created : createdBy x = none
  aborted : abortedBy x = none
  goal : isGoal x = false
  writes : writes x = false

variable {x : Exchange Call Reply}

theorem Plain.committed (h : Plain x) : committedBy x = none := by
  obtain ⟨c, r⟩ := x
  cases c with
  | finalize =>
    obtain e | u := r
    · rfl
    · cases h.writes
  | _ => rfl

theorem row_exec (h : writes (exchange c o s) = false) : (exec c o s).2.row = s.row := by
  obtain hrow | hchange := exec_row_cases
  · exact hrow
  · generalize exchange c o s = x at h hchange
    cases hchange <;> cases h

inductive Phase.Allows : Phase → Exchange Call Reply → Phase → Prop where
  | update {φ φ' : Phase} {f t : SessionState} {r : Except DbError Bool}
      (h : Updates φ f t r φ') : Allows φ ⟨.transitionState f t, r⟩ φ'
  | cancel (seen : List String) (r : Except DbError Bool) :
      Allows (.fresh seen) ⟨.setCancelled, r⟩ (.fresh seen)
  | read (seen : List String) (row : SessionRow) :
      Allows (.fresh seen) ⟨.getById, .ok (some row)⟩
        (.fresh (row.coordinatorWorkspaceId.toList ++ seen))
  | look (seen : List String) (x : Exchange Call Reply) (hx : Plain x)
      (hp : partRefused x = false) : Allows (.fresh seen) x (.fresh seen)
  | abortSeen (seen : List String) (request : AbortWorkspaceRequest) (r : Except Status Unit)
      (h : request.workspaceId ∈ seen) :
      Allows (.fresh seen) ⟨.abortWorkspace request, r⟩ (.fresh seen)
  | check (x : Exchange Call Reply) (hx : Plain x) (hp : partRefused x = false) :
      Allows .validating x .validating
  | load (row : SessionRow) (h : row.state = .launching) :
      Allows .loading ⟨.getById, .ok (some row)⟩ .loaded
  | loadOther (row : Option SessionRow) (h : ∀ r ∈ row, r.state ≠ .launching) :
      Allows .loading ⟨.getById, .ok row⟩ .settled
  | loadRefused (e : DbError) : Allows .loading ⟨.getById, .error e⟩ .stuck
  | ask (x : Exchange Call Reply) (hx : Plain x) (hp : partRefused x = false)
      (ha : unanswered x = false) : Allows .loaded x .loaded
  | unassigned (x : Exchange Call Reply) (hx : Plain x) (hp : partRefused x = false)
      (ha : unanswered x = false) : Allows .loaded x (.aborting [])
  | stop (x : Exchange Call Reply) (hx : Plain x) (hp : partRefused x = false)
      (ha : unanswered x) : Allows .loaded x .stuck
  | goal (request : SubmitGoalRequest) (w : String) :
      Allows .loaded ⟨.submitGoal request, .ok w⟩ (.building w [])
  | goalRefused (request : SubmitGoalRequest) (status : Status) :
      Allows .loaded ⟨.submitGoal request, .error status⟩ (.aborting [])
  | build (rootWs : String) (own : List String) (x : Exchange Call Reply) (hx : Plain x)
      (hp : partRefused x = false) (ha : unanswered x = false) :
      Allows (.building rootWs own) x (.building rootWs own)
  | dispatched (rootWs : String) (own : List String) (request : DispatchRequest) (w : String) :
      Allows (.building rootWs own) ⟨.dispatch request, .ok w⟩ (.building rootWs (own ++ [w]))
  | leave (rootWs : String) (own : List String) (x : Exchange Call Reply) (hx : Plain x)
      (hp : partRefused x ∨ noChannel x) (ha : unanswered x) :
      Allows (.building rootWs own) x .leaked
  | rollback (rootWs : String) (own : List String) :
      Allows (.building rootWs own) ⟨.coordinator, true⟩ (.aborting (rootWs :: own))
  | commit (rootWs : String) (launched : List LaunchedAssignment) (h : launched ≠ []) :
      Allows (.building rootWs (launched.map (·.workspaceId)))
        ⟨.finalize rootWs launched, .ok ()⟩ .committed
  | abort (request : AbortWorkspaceRequest) (left : List String) (r : Except Status Unit) :
      Allows (.aborting (request.workspaceId :: left)) ⟨.abortWorkspace request, r⟩
        (.aborting left)
  | monitor (workspaces : WorkspaceSet) (r : Unit) :
      Allows .committed ⟨.spawnMonitor workspaces, r⟩ .committed

/-- **The protocol, inverted.** -/
theorem Phase.allows_of_next {φ' : Phase} (h : φ.next x = some φ') : Allows φ x φ' := by
  obtain ⟨c, r⟩ := x
  have hfresh : Plain ⟨c, r⟩ → partRefused ⟨c, r⟩ = false → φ.ifFresh = some φ' →
      Allows φ ⟨c, r⟩ φ' := by
    intro hx hp hφ
    unfold ifFresh at hφ
    split at hφ
    · cases hφ
      exact .look _ _ hx hp
    · cases hφ
  have hbuilding : Plain ⟨c, r⟩ → partRefused ⟨c, r⟩ = false → unanswered ⟨c, r⟩ = false →
      φ.ifBuilding = some φ' → Allows φ ⟨c, r⟩ φ' := by
    intro hx hp ha hφ
    unfold ifBuilding at hφ
    split at hφ
    · cases hφ
      exact .build _ _ _ hx hp ha
    · cases hφ
  have hpart : ∀ {ε α : Type} (part : Except ε α), Plain ⟨c, r⟩ →
      partRefused ⟨c, r⟩ = !part.isOk → unanswered ⟨c, r⟩ = !part.isOk →
      φ.afterPart part = some φ' → Allows φ ⟨c, r⟩ φ' := by
    intro ε α part hx hp ha hφ
    unfold afterPart at hφ
    split at hφ
    all_goals cases hφ
    · exact .build _ _ _ hx hp ha
    · exact .leave _ _ _ hx (.inl hp) ha
  cases c with
  | transitionState => exact .update (updates_of_afterUpdate h)
  | listActive | highway | getWorkspace | removeMonitor => exact hfresh ⟨rfl, rfl, rfl, rfl⟩ rfl h
  | toolsFromStr | decompose => exact hbuilding ⟨rfl, rfl, rfl, rfl⟩ rfl rfl h
  | getCurrent | directiveToVec => exact hpart r ⟨rfl, rfl, rfl, rfl⟩ rfl (Bool.or_false _) h
  | setCancelled =>
    simp only [next] at h
    unfold ifFresh at h
    split at h
    · cases h
      exact .cancel _ _
    · cases h
  | getById =>
    simp only [next] at h
    unfold afterRead at h
    split at h
    · cases h
      exact .read _ _
    · cases h
      exact .look _ _ ⟨rfl, rfl, rfl, rfl⟩ rfl
    · split_ifs at h with hstate
      · cases h
        exact .load _ hstate
      · cases h
        refine .loadOther _ fun row hrow => ?_
        cases hrow
        exact hstate
    · cases h
      exact .loadOther _ fun row hrow => by cases hrow
    · cases h
      exact .loadRefused _
    · cases h
  | listBySession =>
    simp only [next] at h
    unfold afterAssignments at h
    split at h
    all_goals cases h
    · exact .look _ _ ⟨rfl, rfl, rfl, rfl⟩ rfl
    · exact .unassigned _ ⟨rfl, rfl, rfl, rfl⟩ rfl rfl
    · exact .ask _ ⟨rfl, rfl, rfl, rfl⟩ rfl rfl
    · exact .stop _ ⟨rfl, rfl, rfl, rfl⟩ rfl rfl
  | finalize =>
    simp only [next] at h
    unfold afterFinalize at h
    split at h
    · split_ifs at h with hnames hok
      · obtain ⟨rfl, rfl, hne⟩ := hnames
        cases h
        obtain e | u := r
        · cases hok
        · exact .commit _ _ (by simpa using hne)
      · cases h
        exact .build _ _ _ ⟨rfl, rfl, rfl, by simpa [writes] using hok⟩ rfl rfl
    · cases h
  | validateSession =>
    simp only [next] at h
    split_ifs at h with hφ
    cases h
    rw [hφ]
    exact .check _ ⟨rfl, rfl, rfl, rfl⟩ rfl
  | coordinator =>
    simp only [next] at h
    unfold afterChannel at h
    split at h
    all_goals cases h
    · exact .look _ _ ⟨rfl, rfl, rfl, rfl⟩ rfl
    · exact .ask _ ⟨rfl, rfl, rfl, rfl⟩ rfl rfl
    · exact .stop _ ⟨rfl, rfl, rfl, rfl⟩ rfl rfl
    · exact .rollback _ _
    · exact .leave _ _ _ ⟨rfl, rfl, rfl, rfl⟩ (.inr rfl) rfl
  | submitGoal =>
    simp only [next] at h
    unfold afterGoal at h
    split at h
    all_goals cases h
    · exact .goal _ _
    · exact .goalRefused _ _
  | dispatch =>
    simp only [next] at h
    unfold afterDispatch at h
    split at h
    all_goals cases h
    · exact .dispatched _ _ _ _
    · exact .build _ _ _ ⟨rfl, rfl, rfl, rfl⟩ rfl rfl
  | abortWorkspace =>
    simp only [next] at h
    unfold afterAbort at h
    split at h
    · split_ifs at h with hseen
      cases h
      exact .abortSeen _ _ _ hseen
    · split_ifs at h with hw
      cases h
      rw [← hw]
      exact .abort _ _ _
    · cases h
  | spawnMonitor =>
    simp only [next] at h
    split_ifs at h with hφ
    · cases h
      rw [hφ]
      exact .monitor _ _
    · exact hfresh ⟨rfl, rfl, rfl, rfl⟩ rfl h

/-! ## Sessions -/

namespace Session

/-- A component that returns owes no abort; one that was stopped may. -/
def Returns (φ : Phase) : Finished → Prop
  | .killed => True
  | _ => φ.owned = []

def Orderly (s : Session) : Prop := s.Conforms next (.fresh []) Returns

def phase (s : Session) (i : ℕ) : Option Phase := Pool.phase next (.fresh []) s i

def Advances (s t : Session) (i : ℕ) (o : Outside) (c : Call) (φ φ' : Phase) : Prop :=
  Pool.Advances exec next (.fresh []) s t i o c φ φ'

variable {s t : Session}

section

variable {i : ℕ} {o : Outside} {c : Call} {φ φ' : Phase} (h : Advances s t i o c φ φ')
include h

theorem Advances.row : t.row = (exec c o s.shared).2.row := by
  rw [Session.row, h.shared]

theorem Advances.history_eq : t.history = s.history ++ [(i, exchange c o s.shared)] :=
  h.history

end

structure Quiet (s t : Session) : Prop where
  row : t.row = s.row
  history : t.history = s.history

theorem Quiet.phase (h : Quiet s t) : t.phase = s.phase :=
  Pool.phase_eq_of_history_eq h.history

theorem spawns_follow {c : Call} {o : Outside} :
    ∀ q ∈ spawns c o, q.Follows next Returns (.fresh []) := by
  intro q hq
  cases c with
  | spawnMonitor workspaces =>
    cases mem_singleton.mp hq
    exact monitorRun_follows.bind fun _ => rfl
  | _ => exact absurd hq not_mem_nil

/-- **What a step does**: at most one component makes a call, which the protocol allows in its
phase. -/
theorem step_cases {label : Label} (hs : s.Orderly) (h : Step s label t) :
    t.Orderly ∧ (Quiet s t ∨ ∃ i o c φ φ', Advances s t i o c φ φ') := by
  cases label with
  | launchRequest auth =>
    cases h
    refine ⟨hs.start ?_, .inl ⟨rfl, rfl⟩⟩
    exact launchSession_follows.bind fun φ _ h => h
  | cancelRequest auth reason =>
    cases h
    refine ⟨hs.start ?_, .inl ⟨rfl, rfl⟩⟩
    exact cancelSession_follows.bind fun φ _ h => h
  | recovery =>
    cases h
    refine ⟨hs.start ?_, .inl ⟨rfl, rfl⟩⟩
    exact recoveryRun_follows.bind fun _ => rfl
  | call component o =>
    obtain ⟨ht, c, φ, φ', hadvances⟩ := Pool.Conforms.advance hs (fun c => spawns_follow) h
    exact ⟨ht, .inr ⟨component, o, c, φ, φ', hadvances⟩⟩
  | crash =>
    cases h
    have hstop : Orderly (s.stop .killed) := Pool.Conforms.stop hs fun _ => trivial
    exact ⟨⟨hstop.known, hstop.follows⟩, .inl ⟨rfl, rfl⟩⟩

variable {row : SessionRow}

theorem orderly_new {assignments : List SessionAssignmentRow} : (new row assignments).Orderly :=
  Pool.conforms_of_empty

variable {assignments : List SessionAssignmentRow}

theorem orderly_of_run (hrun : Run Step anyStep (new row assignments) s) : s.Orderly :=
  hrun.invariant Orderly (fun hs _ hstep => (step_cases hs hstep).1) orderly_new

/-- **The invariant rule for sessions**: what holds of a new session and is kept by every allowed
call holds in every run. -/
theorem invariant_of_run
    (I : Session → Prop) (hnew : I (new row assignments)) (hquiet : ∀ s t, I s → Quiet s t → I t)
    (hcall : ∀ s t i o c φ φ', s.Orderly → I s → Advances s t i o c φ φ' → I t)
    (hrun : Run Step anyStep (new row assignments) s) : I s := by
  have hboth : s.Orderly ∧ I s := by
    refine hrun.invariant (fun s => s.Orderly ∧ I s) ?_ ⟨orderly_new, hnew⟩
    rintro s label t ⟨hs, hI⟩ - hstep
    obtain ⟨ht, hq | ⟨i, o, c, φ, φ', hadvances⟩⟩ := step_cases hs hstep
    · exact ⟨ht, hquiet s t hI hq⟩
    · exact ⟨ht, hcall s t i o c φ φ' hs hI hadvances⟩
  exact hboth.2

/-! ## A session to try things on -/

def sampleRow : SessionRow :=
  { id := "session", name := none, ownerUserId := "owner", workflow := "review", context := none
    coordinatorWorkspaceId := none, state := .configuring, launchedAt := none, closedAt := none
    budgetMaxCostMicros := none, budgetMaxTokens := none, budgetMaxWallTimeMs := none }

def sampleAssignment : SessionAssignmentRow :=
  { id := "assignment", roleRef := "writer", slotPosition := 0, profileId := "profile"
    workspaceId := none, budgetMaxCostMicros := none, budgetMaxTokens := none
    budgetMaxWallTimeMs := none }

def sampleAuth : Auth := ⟨"owner", false⟩

/-- A valid session, and all requests and statements succeed. -/
def accepting : Outside :=
  { now := "now", dbError := none, profile := none, violations := [], tools := none
    bytes := .ok [], channel := true, rootWorkspaceId := .ok "ws-0", taskIds := .ok ["task"]
    workspaceId := .ok "ws-1", abortWorkspace := .ok (), view := .ok (some .active)
    inputs := [] }

def calls (component n : ℕ) : List Label := List.replicate n (.call component accepting)

def sampleSession : Session := new sampleRow [sampleAssignment]

end Session

end Wacp.Console
