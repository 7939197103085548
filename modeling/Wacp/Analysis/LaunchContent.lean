import Wacp.Library.Runs
import Wacp.Model.SessionEditing

/-!
# What a launch reads and what it sends

A launch reads row, assignments and profiles for its checks, and once more for what it sends.
`Phase` has what it has read so far, and `Phase.next` what may follow.
-/

namespace Wacp.Console.Editing

open Library Prog List Follows

/-! ## What is built -/

def launcherTools (fmt : Formats) : Option Profiles.ProfileRow → List String
  | none => []
  | some p =>
    (ProfileInput.toolNames fmt p.toolAllowlist).filter fun t =>
      !(ProfileInput.toolNames fmt p.toolDenylist).contains t

/-- An assignment, the profile read for it and the bytes of its directive. -/
structure Built where
  assignment : AssignmentRow
  profile : Option Profiles.ProfileRow
  payload : List UInt8

def directiveOf (set : Setting) (session : SessionRow) (a : AssignmentRow)
    (profile : Option Profiles.ProfileRow) : DirectivePayload × ResourceBudget :=
  directiveFor session a.toSessionAssignmentRow (profile.map (·.toProfileRow))
    (launcherTools set.fmt profile)

namespace Built

def prepared (set : Setting) (session : SessionRow) (b : Built) : PreparedDirective :=
  ⟨b.payload, launcherTools set.fmt b.profile,
    some (directiveOf set session b.assignment b.profile).2⟩

def task (set : Setting) (session : SessionRow) (b : Built) : TaskDefinition :=
  taskFor session b.assignment.toSessionAssignmentRow (b.prepared set session)

def request (set : Setting) (session : SessionRow) (b : Built) (taskId : String) :
    DispatchRequest :=
  { taskId := taskId
    role := b.assignment.roleRef
    directivePayload := b.payload
    tools := launcherTools set.fmt b.profile
    budget := some (directiveOf set session b.assignment b.profile).2 }

end Built

def goalOf (session : SessionRow) : SubmitGoalRequest :=
  { description := session.name.getD session.workflow
    context := (session.context.map fun s => s.toUTF8.data.toList).getD [] }

/-! ## The protocol -/

structure Check where
  row : SessionRow
  vertical : VerticalEntry
  assignments : List AssignmentRow
  checked : List CheckedAssignment

def Check.violations (set : Setting) (c : Check) : List SessionViolation :=
  violationsIn set c.vertical c.row c.assignments c.checked

structure Loaded where
  check : Check
  session : SessionRow
  assignments : List AssignmentRow

inductive Phase where
  | fresh
  | other
  | rowRead (row : SessionRow)
  | validating (row : SessionRow)
  | indexed (row : SessionRow) (vertical : VerticalEntry)
  | checking (c : Check) (rest : List AssignmentRow)
  | comparing (c : Check) (a : AssignmentRow) (profile : Option Profiles.ProfileRow)
      (rest : List AssignmentRow)
  | passed (c : Check)
  | opened (c : Check) (session : SessionRow)
  | loaded (l : Loaded)
  | preparing (l : Loaded) (built : List Built) (rest : List AssignmentRow)
  | writing (l : Loaded) (built : List Built) (a : AssignmentRow)
      (profile : Option Profiles.ProfileRow) (rest : List AssignmentRow)
  | dispatching (l : Loaded) (built : List Built) (done rest : List (Built × String))
  | closing (l : Loaded) (built : List Built)

namespace Phase

def ifIdle : Phase → Option Phase
  | .fresh => some .other
  | .rowRead _ => some .other
  | .other => some .other
  | _ => none

def ifEnding : Phase → Option Phase
  | .other => some .other
  | .closing l built => some (.closing l built)
  | _ => none

def afterRow : Phase → Except DbError (Option SessionRow) → Option Phase
  | .fresh, .ok (some row) => some (.rowRead row)
  | .fresh, _ => some .other
  | .passed c, .ok (some session) =>
    some (if session.state = .launching then .opened c session else .other)
  | .passed _, _ => some .other
  | _, _ => none

def afterUpdate (set : Setting) :
    Phase → SessionState → SessionState → Except DbError Bool → Option Phase
  | .rowRead row, .configuring, .validating, r =>
    some (if r.isOk then .validating row else .other)
  | .checking _ [], .validating, .configuring, _ => some .other
  | .checking c [], .validating, .launching, r =>
    if c.violations set = [] then some (if r.isOk then .passed c else .other) else none
  | φ, .validating, .configuring, _ => φ.ifEnding
  | φ, .launching, .failed, _ => φ.ifEnding
  | _, _, _, _ => none

def afterTaxonomy (set : Setting) : Phase → TaxonomyIndex → Option Phase
  | .validating row, index =>
    match index.getVertical set.vertical with
    | some vertical => some (if vertical.loadError = none then .indexed row vertical else .other)
    | none => some .other
  | φ, _ => φ.ifIdle

def afterList : Phase → Except DbError (List AssignmentRow) → Option Phase
  | .indexed row vertical, r =>
    some (.checking ⟨row, vertical, r.toOption.getD [], []⟩ (r.toOption.getD []))
  | .opened c session, .ok (a :: assignments) => some (.loaded ⟨c, session, a :: assignments⟩)
  | .opened _ _, _ => some .other
  | _, _ => none

def afterCurrent : Phase → String → Except DbError (Option Profiles.ProfileRow) → Option Phase
  | .checking c (a :: rest), id, r =>
    if id = a.profileId then some (.comparing c a r.toOption.join rest) else none
  | .preparing l built (a :: rest), id, .ok profile =>
    if id = a.profileId then some (.writing l built a profile rest) else none
  | .preparing l built (a :: _), id, .error _ =>
    if id = a.profileId then some (.closing l built) else none
  | φ, _, _ => φ.ifIdle

def afterVersion : Phase → String → ℤ → Except DbError (Option Profiles.ProfileRow) → Option Phase
  | .comparing c a profile rest, id, version, r =>
    if id = a.profileId ∧ version = a.profileVersion then
      some (.checking { c with checked := c.checked ++ [⟨a, profile, r.toOption.join⟩] } rest)
    else none
  | φ, _, _, _ => φ.ifIdle

def afterChannel : Phase → Bool → Option Phase
  | .loaded l, r => some (if r then .loaded l else .other)
  | φ, _ => φ.ifEnding

def afterGoal : Phase → SubmitGoalRequest → Except Status String → Option Phase
  | .loaded l, request, r =>
    if request = goalOf l.session then
      some (if r.isOk then .preparing l [] l.assignments else .closing l [])
    else none
  | _, _, _ => none

open Classical in

noncomputable def afterWriting (set : Setting) :
    Phase → DirectivePayload → Except String (List UInt8) → Option Phase
  | .writing l built a profile rest, directive, r =>
    if directive = (directiveOf set l.session a profile).1 then
      some (match r with
        | .ok payload => .preparing l (built ++ [⟨a, profile, payload⟩]) rest
        | .error _ => .closing l built)
    else none
  | _, _, _ => none

def afterDecompose (set : Setting) :
    Phase → List TaskDefinition → Except Status (List String) → Option Phase
  | .preparing l built [], tasks, r =>
    if tasks = built.map (·.task set l.session) then
      some (match r with
        | .ok taskIds =>
          if taskIds.length = built.length then .dispatching l built [] (built.zip taskIds)
          else .closing l built
        | .error _ => .closing l built)
    else none
  | _, _, _ => none

open Classical in

noncomputable def afterDispatch (set : Setting) :
    Phase → DispatchRequest → Except Status String → Option Phase
  | .dispatching l built done ((b, taskId) :: rest), request, r =>
    if request = b.request set l.session taskId then
      some (if r.isOk then .dispatching l built (done ++ [(b, taskId)]) rest
        else .closing l built)
    else none
  | _, _, _ => none

def afterFinalize : Phase → Option Phase
  | .dispatching l built _ [] => some (.closing l built)
  | _ => none

noncomputable def next (set : Setting) (φ : Phase) : Exchange Call Reply → Option Phase
  | ⟨.session .getById, r⟩ => φ.afterRow r
  | ⟨.session (.transitionState f t), r⟩ => φ.afterUpdate set f t r
  | ⟨.session .coordinator, r⟩ => φ.afterChannel r
  | ⟨.session (.submitGoal request), r⟩ => φ.afterGoal request r
  | ⟨.session (.directiveToVec directive), r⟩ => φ.afterWriting set directive r
  | ⟨.session (.decompose tasks), r⟩ => φ.afterDecompose set tasks r
  | ⟨.session (.dispatch request), r⟩ => φ.afterDispatch set request r
  | ⟨.session (.finalize _ _), _⟩ => φ.afterFinalize
  | ⟨.session (.abortWorkspace _), _⟩ => φ.ifEnding
  | ⟨.session (.spawnMonitor _), _⟩ => φ.ifEnding
  | ⟨.session _, _⟩ => none
  | ⟨.profile .taxonomy, index⟩ => φ.afterTaxonomy set index
  | ⟨.profile (.getCurrent id), r⟩ => φ.afterCurrent id r
  | ⟨.profile (.getVersion id version), r⟩ => φ.afterVersion id version r
  | ⟨.profile _, _⟩ => φ.ifIdle
  | ⟨.listBySession, r⟩ => φ.afterList r
  | ⟨.updateContext _, _⟩ => φ.ifIdle
  | ⟨.updateName _, _⟩ => φ.ifIdle
  | ⟨.updateBudgets _ _ _, _⟩ => φ.ifIdle
  | ⟨.deleteAssignments, _⟩ => φ.ifIdle
  | ⟨.insertAssignment _, _⟩ => φ.ifIdle

end Phase

open Wacp.Console.Editing.Phase

/-! ## Requests that do not launch -/

section Follows

variable (set : Setting)

def Idle (φ : Phase) : Prop := φ = .fresh ∨ φ = .other ∨ ∃ row, φ = .rowRead row

theorem Idle.next {φ : Phase} (h : Idle φ) : φ.ifIdle = some .other := by
  obtain rfl | rfl | ⟨row, rfl⟩ := h <;> rfl

theorem idle_other : Idle .other := .inr (.inl rfl)

def ForIdle (c : Call) : Prop := ∀ φ, Idle φ → ∀ r, next set φ ⟨c, r⟩ = some .other

/-- An idle program: it takes no step of a launch. -/
def Resting {α : Type} (p : Program α) : Prop :=
  ∀ φ, Idle φ → p.Follows (next set) (fun φ _ => Idle φ) φ

variable {set}

theorem forIdle_profile {c : Profiles.Call} : ForIdle set (.profile c) := by
  intro φ hφ r
  rw [← hφ.next]
  obtain rfl | rfl | ⟨row, rfl⟩ := hφ
  all_goals
    cases c with
    | getCurrent => cases r <;> rfl
    | _ => rfl

namespace Resting

variable {α β ε : Type}

theorem ret {a : α} : Resting set (.ret a) := fun _ hφ => hφ

theorem perform {c : Call} (hc : ForIdle set c) : Resting set (Prog.perform c) :=
  fun φ hφ r => ⟨.other, hc φ hφ r, idle_other⟩

theorem bind {p : Program α} {f : α → Program β} (hp : Resting set p)
    (hf : ∀ a, Resting set (f a)) : Resting set (p >>= f) :=
  fun φ hφ => (hp φ hφ).bind fun φ a hφ => hf a φ hφ

/-- An error ends the program. -/
theorem ok {p : Program (Except ε α)} {f : Except ε α → Program β} (hp : Resting set p)
    (hf : ∀ a, Resting set (f (.ok a)))
    (he : ∀ e, ∃ b, f (.error e) = .ret b := by exact fun _ => ⟨_, rfl⟩) :
    Resting set (p >>= f) := by
  refine hp.bind fun r => ?_
  cases r with
  | error e =>
    obtain ⟨b, hb⟩ := he e
    exact hb ▸ ret
  | ok a => exact hf a

theorem orDatabaseError {p : Program (Except DbError α)} (hp : Resting set p) :
    Resting set (orDatabaseError p) :=
  hp.ok fun _ => ret

end Resting

def edits : Call → Bool
  | .updateContext _ | .updateName _ | .updateBudgets _ _ _ => true
  | .deleteAssignments | .insertAssignment _ => true
  | _ => false

theorem edits_resting {c : Call} (hc : edits c) : Resting set (perform c) := by
  refine .perform fun φ hφ r => ?_
  rw [← hφ.next]
  cases c with
  | session | profile | listBySession => cases hc
  | _ => rfl

theorem edit_resting {α : Type} (p : Profiles.Program α) :
    Resting set (p.interpret fun c => perform (Call.profile c)) := by
  induction p with
  | ret => exact .ret
  | call c k ih => exact (Resting.perform forIdle_profile).bind ih

variable {c : Check} {l : Loaded} {rest : List AssignmentRow} {built : List Built} {auth : Auth}
  {id : String}

theorem getConfiguring_follows {conflict : String} :
    (getConfiguring auth id conflict).Follows (next set) (fun φ _ => Idle φ) .fresh := by
  refine perform fun r => ?_
  obtain e | _ | session := r
  · exact ⟨_, rfl, idle_other⟩
  · exact ⟨_, rfl, idle_other⟩
  · refine ⟨_, rfl, ?_⟩
    have hread : Idle (.rowRead session) := .inr (.inr ⟨session, rfl⟩)
    dsimp only
    cases checkSessionWriteAccess auth session with
    | error => exact hread
    | ok =>
      split_ifs
      · exact hread
      · exact hread

theorem updateSession_follows {body : UpdateSessionRequest} :
    (updateSession set auth id body).Follows (next set) (fun φ _ => Idle φ) .fresh := by
  refine getConfiguring_follows.bind fun φ r hφ => ?_
  cases r with
  | error => exact hφ
  | ok =>
    have hcontext : Resting set (updateContext set body.context) := by
      cases body.context with
      | none => exact .ret
      | some => exact (edits_resting rfl).orDatabaseError
    have hname : Resting set (updateName body.name) := by
      cases body.name with
      | none => exact .ret
      | some => exact (edits_resting rfl).orDatabaseError
    have hbudgets : Resting set (updateBudgets body) := by
      unfold updateBudgets
      split_ifs
      · exact (edits_resting rfl).orDatabaseError
      · exact .ret
    refine (?_ : Resting set _) φ hφ
    exact hcontext.ok fun _ => hname.ok fun _ => hbudgets

theorem pinVersion_resting {input : AssignmentInput} : Resting set (pinVersion input) := by
  unfold pinVersion
  cases input.profileVersion with
  | some => exact .ret
  | none =>
    refine (Resting.perform forIdle_profile).bind fun r => ?_
    obtain e | _ | profile := r
    · exact .ret
    · exact .ret
    · exact .ret

theorem pinRows_resting {inputs : List AssignmentInput} {i : ℤ} :
    Resting set (pinRows inputs i) := by
  induction inputs generalizing i with
  | nil => exact .ret
  | cons input inputs ih =>
    refine pinVersion_resting.ok fun version => ?_
    exact (Resting.perform forIdle_profile).bind fun id => ih.ok fun _ => .ret

theorem insertEach_resting {rows : List AssignmentRow} : Resting set (insertEach rows) := by
  induction rows with
  | nil => exact .ret
  | cons row rows ih => exact (edits_resting rfl).orDatabaseError.ok fun _ => ih

theorem setAssignments_follows {body : List AssignmentInput} :
    (setAssignments auth id body).Follows (next set) (fun φ _ => Idle φ) .fresh := by
  refine getConfiguring_follows.bind fun φ r hφ => ?_
  cases r with
  | error => exact hφ
  | ok =>
    refine (?_ : Resting set _) φ hφ
    refine pinRows_resting.ok fun rows => ?_
    exact (edits_resting rfl).orDatabaseError.ok fun _ => insertEach_resting

/-! ## The checks -/

theorem readProfiles_follows : (readProfiles rest).Follows (next set)
      (fun φ checked => φ = .checking { c with checked := c.checked ++ checked } [])
      (.checking c rest) := by
  induction rest generalizing c with
  | nil =>
    show Phase.checking c [] = _
    rw [append_nil]
  | cons a rest ih =>
    refine perform fun profile => ⟨_, if_pos rfl, ?_⟩
    refine perform fun versionedProfile => ⟨_, if_pos ⟨rfl, rfl⟩, ?_⟩
    refine ih.bind fun φ checked hφ => ?_
    show φ = _
    rw [hφ]
    simp

/-- The checks end with violations, from where the session is given back, or with what was read. -/
def CheckEnds (set : Setting) (row : SessionRow) (φ : Phase) (violations : List SessionViolation) :
    Prop :=
  (φ = .other ∧ violations ≠ []) ∨
    ∃ c : Check, c.row = row ∧ φ = .checking c [] ∧ violations = c.violations set

theorem validateSession_follows {row : SessionRow} :
    (validateSession set row).Follows (next set) (CheckEnds set row) (.validating row) := by
  refine perform fun index => ?_
  cases hvertical : index.getVertical set.vertical with
  | none =>
    refine ⟨.other, ?_, ?_⟩
    · simp [Phase.next, afterTaxonomy, hvertical]
    · exact .inl ⟨rfl, by simp⟩
  | some vertical =>
    cases hload : vertical.loadError with
    | some =>
      refine ⟨.other, ?_, ?_⟩
      · simp [Phase.next, afterTaxonomy, hvertical, hload]
      · simp only [hload]
        exact .inl ⟨rfl, by simp⟩
    | none =>
      refine ⟨.indexed row vertical, ?_, ?_⟩
      · simp [Phase.next, afterTaxonomy, hvertical, hload]
      · simp only [hload]
        refine perform fun r => ⟨_, rfl, ?_⟩
        refine readProfiles_follows.bind ?_
        rintro φ checked rfl
        exact .inr ⟨_, rfl, rfl, rfl⟩

/-! ## The launcher -/

section Rules

variable {α : Type} {post : Phase → α → Prop} {φ : Phase}

theorem follows_session {c : Console.Call} {f : Console.Reply c → Console.Program α}
    (hc : answer set c = perform (Call.session c))
    (h : ∀ r, ∃ φ', next set φ ⟨.session c, r⟩ = some φ' ∧
      ((f r).interpret (answer set)).Follows (next set) post φ') :
    ((perform c >>= f).interpret (answer set)).Follows (next set) post φ := by
  show (answer set c >>= fun r => (f r).interpret (answer set)).Follows _ _ _
  rw [hc]
  exact perform h

theorem follows_current {profileId : String}
    {f : Except DbError (Option Console.ProfileRow) → Console.Program α}
    (h : ∀ r : Except DbError (Option Profiles.ProfileRow), ∃ φ',
      φ.afterCurrent profileId r = some φ' ∧
      ((f (r.map (·.map (·.toProfileRow)))).interpret (answer set)).Follows (next set) post φ') :
    ((Console.getCurrent profileId >>= f).interpret (answer set)).Follows (next set) post φ :=
  perform (c := Call.profile (.getCurrent profileId)) h

theorem follows_validate {session : SessionRow} {mid : Phase → List SessionViolation → Prop}
    {f : List SessionViolation → Console.Program α}
    (h : (validateSession set session).Follows (next set) mid φ)
    (hf : ∀ φ violations, mid φ violations →
      ((f violations).interpret (answer set)).Follows (next set) post φ) :
    ((Console.validateSession session >>= f).interpret (answer set)).Follows (next set) post φ :=
  bind h hf

end Rules

def Ending (φ : Phase) : Prop := φ = .other ∨ ∃ l built, φ = .closing l built

theorem ending_closing : Ending (.closing l built) :=
  Or.inr ⟨l, built, rfl⟩

theorem Ending.next {φ : Phase} (h : Ending φ) : φ.ifEnding = some φ := by
  obtain rfl | ⟨l, built, rfl⟩ := h <;> rfl

theorem Ending.channel {φ : Phase} (h : Ending φ) (r : Bool) : φ.afterChannel r = some φ := by
  obtain rfl | ⟨l, built, rfl⟩ := h <;> rfl

theorem Ending.failed {φ : Phase} (h : Ending φ) (r : Except DbError Bool) :
    φ.afterUpdate set .launching .failed r = some φ := by
  obtain rfl | ⟨l, built, rfl⟩ := h <;> rfl

theorem abortEach_follows {workspaces : List String} {φ : Phase} (hφ : Ending φ) :
    ((abortEach workspaces).interpret (answer set)).Stays (next set) φ := by
  induction workspaces with
  | nil => rfl
  | cons ws workspaces ih => exact follows_session rfl fun r => ⟨φ, hφ.next, ih⟩

theorem rollback_follows {workspaces : List String} {φ : Phase} (hφ : Ending φ) :
    ((Console.rollback workspaces).interpret (answer set)).Stays (next set) φ := by
  refine follows_session rfl fun r => ⟨φ, hφ.channel r, ?_⟩
  cases r with
  | true => exact abortEach_follows hφ
  | false => rfl

theorem stepError_follows {step : LaunchStep} {status : Status} {workspaces : List String}
    {φ : Phase} (hφ : Ending φ) :
    ((stepError step status workspaces).interpret (answer set)).Stays (next set) φ := by
  unfold stepError
  split_ifs
  · rfl
  · rw [interpret_bind]
    exact (rollback_follows hφ).bind fun _ => rfl

def LaunchEnds (φ : Phase) (_ : Except LaunchError LaunchOutcome) : Prop := Ending φ

theorem fail_follows {err : LaunchError} {φ : Phase} (hφ : Ending φ) :
    ((do markFailed; return .error err :
        Console.Program (Except LaunchError LaunchOutcome)).interpret (answer set)).Follows
          (next set) LaunchEnds φ :=
  follows_session rfl fun r => ⟨φ, hφ.failed r, hφ⟩

variable {workspaces : List String}

theorem stepError_fails {step : LaunchStep} {status : Status} {φ : Phase} (hφ : Ending φ) :
    ((do let err ← stepError step status workspaces; markFailed; return .error err :
      Console.Program (Except LaunchError LaunchOutcome)).interpret (answer set)).Follows
      (next set) LaunchEnds φ := by
  rw [interpret_bind]
  exact (stepError_follows hφ).bind fun err => fail_follows hφ

theorem rollback_fails {err : LaunchError} {φ : Phase} (hφ : Ending φ) :
    ((do Console.rollback workspaces; markFailed; return .error err :
      Console.Program (Except LaunchError LaunchOutcome)).interpret (answer set)).Follows
      (next set) LaunchEnds φ := by
  rw [interpret_bind]
  exact (rollback_follows hφ).bind fun _ => fail_follows hφ

theorem interpret_effectiveTools (profile : Option Profiles.ProfileRow) :
    (Console.effectiveTools (profile.map (·.toProfileRow))).interpret (answer set) =
      .ret (launcherTools set.fmt profile) := by
  have htools : ∀ column, (toolList column).interpret (answer set) =
      .ret (ProfileInput.toolNames set.fmt column) := by
    intro column
    cases column with
    | none | some => rfl
  cases profile with
  | none => rfl
  | some p =>
    show (toolList p.toolAllowlist >>= fun allow => toolList p.toolDenylist >>= fun deny =>
      Prog.ret (allow.filter fun t => !deny.contains t)).interpret (answer set) = _
    rw [interpret_bind, htools]
    show (toolList p.toolDenylist >>= fun deny => Prog.ret _).interpret (answer set) = _
    rw [interpret_bind, htools]
    rfl

def PrepareEnds (set : Setting) (l : Loaded) (φ : Phase) :
    Except LaunchError (List (SessionAssignmentRow × PreparedDirective)) → Prop
  | .ok prepared => ∃ built : List Built, φ = .preparing l built [] ∧
      prepared = built.map fun b => (b.assignment.toSessionAssignmentRow, b.prepared set l.session)
  | .error _ => Ending φ

def BuildEnds (set : Setting) (l : Loaded) (built : List Built) (a : AssignmentRow)
    (rest : List AssignmentRow) (φ : Phase) : Except LaunchError PreparedDirective → Prop
  | .ok directive => ∃ b : Built, b.assignment = a ∧ directive = b.prepared set l.session ∧
      φ = .preparing l (built ++ [b]) rest
  | .error _ => Ending φ

theorem buildDirective_follows {a : AssignmentRow} :
    ((buildDirective l.session a.toSessionAssignmentRow).interpret (answer set)).Follows (next set)
      (BuildEnds set l built a rest) (.preparing l built (a :: rest)) := by
  refine follows_current fun r => ?_
  cases r with
  | error => exact ⟨_, if_pos rfl, ending_closing⟩
  | ok profile =>
    refine ⟨_, if_pos rfl, ?_⟩
    simp only [Except.map, interpret_bind, interpret_effectiveTools]
    refine perform (c := Call.session (.directiveToVec _)) fun r => ?_
    cases r with
    | error => exact ⟨_, if_pos rfl, ending_closing⟩
    | ok payload => exact ⟨_, if_pos rfl, ⟨a, profile, payload⟩, rfl, rfl, rfl⟩

theorem prepare_follows (built : List Built) : ((prepare l.session (rest.map (·.toSessionAssignmentRow))
      (built.map fun b =>
        (b.assignment.toSessionAssignmentRow, b.prepared set l.session))).interpret
        (answer set)).Follows (next set) (PrepareEnds set l) (.preparing l built rest) := by
  induction rest generalizing built with
  | nil => exact ⟨built, rfl, rfl⟩
  | cons a rest ih =>
    rw [map_cons, prepare, interpret_bind]
    refine buildDirective_follows.bind ?_
    rintro φ (e | directive) hφ
    · exact hφ
    · obtain ⟨b, rfl, rfl, rfl⟩ := hφ
      have hrest := ih (built ++ [b])
      rw [map_append] at hrest
      exact hrest

theorem dispatchStep_follows {rootWs : String}
    (done rest : List (Built × String)) (launched : List LaunchedAssignment)
    (createdWorkspaces : List String) :
    ((dispatchStep rootWs (rest.map fun t => ((t.1.assignment.toSessionAssignmentRow,
      t.1.prepared set l.session), t.2)) launched createdWorkspaces).interpret
        (answer set)).Follows (next set) LaunchEnds (.dispatching l built done rest) := by
  induction rest generalizing done launched createdWorkspaces with
  | nil =>
    refine follows_session rfl fun r => ⟨.closing l built, rfl, ?_⟩
    cases r with
    | ok => exact ending_closing
    | error => exact rollback_fails ending_closing
  | cons t rest ih =>
    obtain ⟨b, taskId⟩ := t
    refine follows_session rfl fun r => ?_
    cases r with
    | error status =>
      exact ⟨_, if_pos rfl, stepError_fails ending_closing⟩
    | ok => exact ⟨_, if_pos rfl, ih (done ++ [(b, taskId)]) _ _⟩

theorem decomposeStep_follows {rootWs : String} :
    ((decomposeStep rootWs l.session (built.map fun b =>
      (b.assignment.toSessionAssignmentRow, b.prepared set l.session))).interpret
        (answer set)).Follows (next set) LaunchEnds (.preparing l built []) := by
  refine follows_session rfl fun r => ⟨_, if_pos ?_, ?_⟩
  · rw [map_map]
    rfl
  · cases r with
    | error status => exact stepError_fails ending_closing
    | ok taskIds =>
      dsimp only
      rw [length_map]
      by_cases hlength : taskIds.length = built.length
      · rw [if_neg (not_not_intro hlength), if_pos hlength, zip_map_left]
        exact dispatchStep_follows [] _ [] [rootWs]
      · rw [if_pos hlength, if_neg hlength]
        exact rollback_fails ending_closing

theorem submitStep_follows :
    ((submitStep l.session (l.assignments.map (·.toSessionAssignmentRow))).interpret
      (answer set)).Follows (next set) LaunchEnds (.loaded l) := by
  refine follows_session rfl fun r => ⟨_, if_pos rfl, ?_⟩
  cases r with
  | error status => exact stepError_fails ending_closing
  | ok rootWs =>
    rw [interpret_bind]
    refine (prepare_follows []).bind ?_
    rintro φ (e | prepared) hφ
    · exact hφ
    · obtain ⟨built, rfl, rfl⟩ := hφ
      exact decomposeStep_follows

/-- **The launcher sends what it has loaded.** -/
theorem launch_follows {sessionId : String} :
    ((Console.launch sessionId).interpret (answer set)).Follows (next set) LaunchEnds
      (.passed c) := by
  have hother : Ending .other := .inl rfl
  refine follows_session rfl fun r => ?_
  obtain e | _ | session := r
  · exact ⟨_, rfl, hother⟩
  · exact ⟨_, rfl, hother⟩
  · refine ⟨_, rfl, ?_⟩
    dsimp only
    by_cases hstate : session.state = .launching
    · rw [if_neg (not_not_intro hstate), if_pos hstate]
      refine perform (c := Call.listBySession) fun r => ?_
      obtain e | _ | ⟨a, assignments⟩ := r
      · exact ⟨_, rfl, hother⟩
      · exact ⟨_, rfl, fail_follows hother⟩
      · refine ⟨_, rfl, follows_session rfl fun r => ⟨_, rfl, ?_⟩⟩
        cases r with
        | true => exact submitStep_follows (l := ⟨c, session, a :: assignments⟩)
        | false => exact hother
    · rw [if_pos hstate, if_neg hstate]
      split
      all_goals exact hother

theorem runLauncher_follows :
    ((runLauncher id).interpret (answer set)).Follows (next set) (fun _ _ => True) (.passed c) := by
  unfold runLauncher
  rw [interpret_bind]
  refine launch_follows.bind fun φ r hφ => ?_
  obtain err | ⟨coordinatorWorkspaceId, assignments⟩ | state := r
  · exact trivial
  · exact follows_session rfl fun _ => ⟨φ, Ending.next hφ, trivial⟩
  · exact trivial

theorem launchSession_follows :
    (launchSession set auth id).Follows (next set) (fun _ _ => True) .fresh := by
  refine follows_session rfl fun r => ?_
  obtain e | _ | session := r
  · exact ⟨_, rfl, trivial⟩
  · exact ⟨_, rfl, trivial⟩
  refine ⟨.rowRead session, rfl, ?_⟩
  dsimp only
  cases checkSessionWriteAccess auth session with
  | error => exact trivial
  | ok =>
    split_ifs
    · exact trivial
    refine follows_session rfl fun r => ?_
    cases r with
    | error => exact ⟨_, rfl, trivial⟩
    | ok =>
      refine ⟨.validating session, rfl, ?_⟩
      refine follows_validate validateSession_follows ?_
      rintro φ violations (⟨rfl, hne⟩ | ⟨c, rfl, rfl, rfl⟩)
      · rw [if_pos hne]
        exact follows_session rfl fun _ => ⟨.other, rfl, trivial⟩
      · by_cases hnone : c.violations set = []
        · rw [if_neg (not_not_intro hnone)]
          refine follows_session rfl fun r => ?_
          cases r with
          | error => exact ⟨_, if_pos hnone, trivial⟩
          | ok => exact ⟨_, if_pos hnone, runLauncher_follows⟩
        · rw [if_pos hnone]
          exact follows_session rfl fun _ => ⟨.other, rfl, trivial⟩

/-- **Every request keeps to the protocol.** -/
theorem program_follows (r : Request) :
    (r.program set id).Follows (next set) (fun _ _ => True) .fresh := by
  have hfresh : Idle .fresh := .inl rfl
  cases r with
  | update auth body => exact updateSession_follows.bind fun _ _ _ => trivial
  | assign auth body => exact setAssignments_follows.bind fun _ _ _ => trivial
  | launch auth => exact launchSession_follows.bind fun _ _ _ => trivial
  | edit => exact (edit_resting _ _ hfresh).mono fun _ _ _ => trivial

end Follows

end Wacp.Console.Editing
