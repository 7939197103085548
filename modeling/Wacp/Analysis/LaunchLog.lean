import Wacp.Analysis.LaunchContent

/-!
# The log of a launch

`Gathered` says what was read for the checks, up to `Validated`, a run of `validate_session` without
violation; `Sent` what has gone to the runtime. Both hold of every log that the protocol of
`LaunchContent` allows.
-/

namespace Wacp.Console.Editing

open Library Prog Wacp.Console.Editing.Phase List Returns

abbrev Log := List (Exchange Call Reply)

/-! ## The exchanges of the protocol -/

def sends : Exchange Call Reply → Bool
  | ⟨.session (.submitGoal _), _⟩ => true
  | ⟨.session (.decompose _), _⟩ => true
  | ⟨.session (.dispatch _), _⟩ => true
  | _ => false

def Phase.unsent : Phase → Bool
  | .preparing _ _ _ => false
  | .writing _ _ _ _ _ => false
  | .dispatching _ _ _ _ => false
  | .closing _ _ => false
  | _ => true

inductive Allows (set : Setting) : Phase → Exchange Call Reply → Phase → Prop where
  | quit {φ : Phase} {x : Exchange Call Reply} (hφ : φ.unsent) (hx : sends x = false) :
      Allows set φ x .other
  | ending (l : Loaded) (built : List Built) {x : Exchange Call Reply} (hx : sends x = false) :
      Allows set (.closing l built) x (.closing l built)
  | row (row : SessionRow) :
      Allows set .fresh ⟨.session .getById, .ok (some row)⟩ (.rowRead row)
  | claim (row : SessionRow) (r : Except DbError Bool) :
      Allows set (.rowRead row) ⟨.session (.transitionState .configuring .validating), r⟩
        (.validating row)
  | index (row : SessionRow) {index : TaxonomyIndex} {vertical : VerticalEntry}
      (hvertical : index.getVertical set.vertical = some vertical)
      (hload : vertical.loadError = none) :
      Allows set (.validating row) ⟨.profile .taxonomy, index⟩ (.indexed row vertical)
  | list (row : SessionRow) (vertical : VerticalEntry) (r : Except DbError (List AssignmentRow)) :
      Allows set (.indexed row vertical) ⟨.listBySession, r⟩
        (.checking ⟨row, vertical, r.toOption.getD [], []⟩ (r.toOption.getD []))
  | current (c : Check) (a : AssignmentRow) (rest : List AssignmentRow)
      (r : Except DbError (Option Profiles.ProfileRow)) :
      Allows set (.checking c (a :: rest)) ⟨.profile (.getCurrent a.profileId), r⟩
        (.comparing c a r.toOption.join rest)
  | version (c : Check) (a : AssignmentRow) (profile : Option Profiles.ProfileRow)
      (rest : List AssignmentRow) (r : Except DbError (Option Profiles.ProfileRow)) :
      Allows set (.comparing c a profile rest)
        ⟨.profile (.getVersion a.profileId a.profileVersion), r⟩
        (.checking { c with checked := c.checked ++ [⟨a, profile, r.toOption.join⟩] } rest)
  | pass (c : Check) (r : Except DbError Bool) (hnone : c.violations set = []) :
      Allows set (.checking c []) ⟨.session (.transitionState .validating .launching), r⟩
        (.passed c)
  | reopen (c : Check) (session : SessionRow) :
      Allows set (.passed c) ⟨.session .getById, .ok (some session)⟩ (.opened c session)
  | load (c : Check) (session : SessionRow) (assignments : List AssignmentRow) :
      Allows set (.opened c session) ⟨.listBySession, .ok assignments⟩
        (.loaded ⟨c, session, assignments⟩)
  | channel (l : Loaded) (r : Bool) :
      Allows set (.loaded l) ⟨.session .coordinator, r⟩ (.loaded l)
  | submit (l : Loaded) (r : Except Status String) :
      Allows set (.loaded l) ⟨.session (.submitGoal (goalOf l.session)), r⟩
        (.preparing l [] l.assignments)
  | submitFailed (l : Loaded) (r : Except Status String) :
      Allows set (.loaded l) ⟨.session (.submitGoal (goalOf l.session)), r⟩ (.closing l [])
  | read (l : Loaded) (built : List Built) (a : AssignmentRow)
      (profile : Option Profiles.ProfileRow) (rest : List AssignmentRow) :
      Allows set (.preparing l built (a :: rest)) ⟨.profile (.getCurrent a.profileId), .ok profile⟩
        (.writing l built a profile rest)
  | write (l : Loaded) (built : List Built) (a : AssignmentRow)
      (profile : Option Profiles.ProfileRow) (payload : List UInt8) (rest : List AssignmentRow) :
      Allows set (.writing l built a profile rest)
        ⟨.session (.directiveToVec (directiveOf set l.session a profile).1), .ok payload⟩
        (.preparing l (built ++ [⟨a, profile, payload⟩]) rest)
  | prepareFailed (l : Loaded) (built : List Built) {φ : Phase} {x : Exchange Call Reply}
      (hφ : (∃ rest, φ = .preparing l built rest) ∨ ∃ a profile rest,
        φ = .writing l built a profile rest) (hx : sends x = false) :
      Allows set φ x (.closing l built)
  | decompose (l : Loaded) (built : List Built) (taskIds : List String) :
      Allows set (.preparing l built [])
        ⟨.session (.decompose (built.map (·.task set l.session))), .ok taskIds⟩
        (.dispatching l built [] (built.zip taskIds))
  | decomposeFailed (l : Loaded) (built : List Built) (r : Except Status (List String)) :
      Allows set (.preparing l built [])
        ⟨.session (.decompose (built.map (·.task set l.session))), r⟩ (.closing l built)
  | dispatch (l : Loaded) (built : List Built) (done : List (Built × String)) (b : Built)
      (taskId : String) (rest : List (Built × String)) (r : Except Status String) :
      Allows set (.dispatching l built done ((b, taskId) :: rest))
        ⟨.session (.dispatch (b.request set l.session taskId)), r⟩
        (.dispatching l built (done ++ [(b, taskId)]) rest)
  | dispatchFailed (l : Loaded) (built : List Built) (done : List (Built × String)) (b : Built)
      (taskId : String) (rest : List (Built × String)) (r : Except Status String) :
      Allows set (.dispatching l built done ((b, taskId) :: rest))
        ⟨.session (.dispatch (b.request set l.session taskId)), r⟩ (.closing l built)
  | finalize (l : Loaded) (built : List Built) (done : List (Built × String))
      {x : Exchange Call Reply} (hx : sends x = false) :
      Allows set (.dispatching l built done []) x (.closing l built)

section Allows

variable {set : Setting} {φ φ' : Phase} {x : Exchange Call Reply}

theorem allows_of_ifIdle (hx : sends x = false) (h : φ.ifIdle = some φ') : Allows set φ x φ' := by
  cases φ with
  | fresh | other | rowRead row =>
    cases h
    exact .quit rfl hx
  | _ => cases h

theorem allows_of_ifEnding (hx : sends x = false) (h : φ.ifEnding = some φ') :
    Allows set φ x φ' := by
  cases φ with
  | other =>
    cases h
    exact .quit rfl hx
  | closing l built =>
    cases h
    exact .ending l built hx
  | _ => cases h

theorem allows_of_afterRow {r : Except DbError (Option SessionRow)} (h : φ.afterRow r = some φ') :
    Allows set φ ⟨.session .getById, r⟩ φ' := by
  cases φ with
  | fresh =>
    obtain e | _ | row := r
    · cases h
      exact .quit rfl rfl
    · cases h
      exact .quit rfl rfl
    · cases h
      exact .row row
  | passed c =>
    obtain e | _ | row := r
    · cases h
      exact .quit rfl rfl
    · cases h
      exact .quit rfl rfl
    · cases h
      split_ifs
      · exact .reopen c row
      · exact .quit rfl rfl
  | _ => cases h

theorem allows_of_afterUpdate {fromState toState : SessionState} {r : Except DbError Bool}
    (h : φ.afterUpdate set fromState toState r = some φ') :
    Allows set φ ⟨.session (.transitionState fromState toState), r⟩ φ' := by
  unfold afterUpdate at h
  split at h
  · cases h
    split_ifs
    · exact .claim _ _
    · exact .quit rfl rfl
  · cases h
    exact .quit rfl rfl
  · split_ifs at h with hnone hok
    · cases h
      exact .pass _ _ hnone
    · cases h
      exact .quit rfl rfl
  · exact allows_of_ifEnding rfl h
  · exact allows_of_ifEnding rfl h
  · cases h

theorem allows_of_afterTaxonomy {index : TaxonomyIndex} (h : φ.afterTaxonomy set index = some φ') :
    Allows set φ ⟨.profile .taxonomy, index⟩ φ' := by
  unfold afterTaxonomy at h
  split at h
  · split at h
    · next hvertical =>
      cases h
      split_ifs with hload
      · exact .index _ hvertical hload
      · exact .quit rfl rfl
    · cases h
      exact .quit rfl rfl
  · exact allows_of_ifIdle rfl h

theorem allows_of_afterList {r : Except DbError (List AssignmentRow)}
    (h : φ.afterList r = some φ') : Allows set φ ⟨.listBySession, r⟩ φ' := by
  unfold afterList at h
  split at h
  all_goals cases h
  · exact .list _ _ _
  · exact .load _ _ _
  · exact .quit rfl rfl

variable {r : Except DbError (Option Profiles.ProfileRow)}

theorem allows_of_afterCurrent {id : String}
    (h : φ.afterCurrent id r = some φ') : Allows set φ ⟨.profile (.getCurrent id), r⟩ φ' := by
  unfold afterCurrent at h
  split at h
  · split_ifs at h with hid
    cases h
    cases hid
    exact .current _ _ _ _
  · split_ifs at h with hid
    cases h
    cases hid
    exact .read _ _ _ _ _
  · split_ifs at h
    cases h
    exact .prepareFailed _ _ (.inl ⟨_, rfl⟩) rfl
  · exact allows_of_ifIdle rfl h

theorem allows_of_afterVersion {id : String} {version : ℤ}
    (h : φ.afterVersion id version r = some φ') :
    Allows set φ ⟨.profile (.getVersion id version), r⟩ φ' := by
  unfold afterVersion at h
  split at h
  · split_ifs at h with hkey
    cases h
    obtain ⟨rfl, rfl⟩ := hkey
    exact .version _ _ _ _ _
  · exact allows_of_ifIdle rfl h

theorem allows_of_afterChannel {r : Bool} (h : φ.afterChannel r = some φ') :
    Allows set φ ⟨.session .coordinator, r⟩ φ' := by
  unfold afterChannel at h
  split at h
  · cases h
    split_ifs
    · exact .channel _ _
    · exact .quit rfl rfl
  · exact allows_of_ifEnding rfl h

theorem allows_of_afterGoal {request : SubmitGoalRequest} {r : Except Status String}
    (h : φ.afterGoal request r = some φ') :
    Allows set φ ⟨.session (.submitGoal request), r⟩ φ' := by
  unfold afterGoal at h
  split at h
  · split_ifs at h with hgoal hok
    · cases h
      cases hgoal
      exact .submit _ _
    · cases h
      cases hgoal
      exact .submitFailed _ _
  · cases h

theorem allows_of_afterWriting {directive : DirectivePayload} {r : Except String (List UInt8)}
    (h : φ.afterWriting set directive r = some φ') :
    Allows set φ ⟨.session (.directiveToVec directive), r⟩ φ' := by
  unfold afterWriting at h
  split at h
  · split_ifs at h with hdirective
    cases hdirective
    cases r with
    | ok payload =>
      cases h
      exact .write _ _ _ _ payload _
    | error =>
      cases h
      exact .prepareFailed _ _ (.inr ⟨_, _, _, rfl⟩) rfl
  · cases h

theorem allows_of_afterDecompose {tasks : List TaskDefinition} {r : Except Status (List String)}
    (h : φ.afterDecompose set tasks r = some φ') :
    Allows set φ ⟨.session (.decompose tasks), r⟩ φ' := by
  unfold afterDecompose at h
  split at h
  · split_ifs at h with htasks
    cases htasks
    cases r with
    | ok taskIds =>
      dsimp only at h
      split_ifs at h
      · cases h
        exact .decompose _ _ taskIds
      · cases h
        exact .decomposeFailed _ _ _
    | error =>
      cases h
      exact .decomposeFailed _ _ _
  · cases h

theorem allows_of_afterDispatch {request : DispatchRequest} {r : Except Status String}
    (h : φ.afterDispatch set request r = some φ') :
    Allows set φ ⟨.session (.dispatch request), r⟩ φ' := by
  unfold afterDispatch at h
  split at h
  · split_ifs at h with hrequest hok
    · cases h
      cases hrequest
      exact .dispatch _ _ _ _ _ _ _
    · cases h
      cases hrequest
      exact .dispatchFailed _ _ _ _ _ _ _
  · cases h

/-- **An exchange that the protocol allows is one of these.** -/
theorem allows_of_next (h : next set φ x = some φ') : Allows set φ x φ' := by
  obtain ⟨c, r⟩ := x
  cases c with
  | session c =>
    cases c with
    | getById => exact allows_of_afterRow h
    | transitionState => exact allows_of_afterUpdate h
    | coordinator => exact allows_of_afterChannel h
    | submitGoal => exact allows_of_afterGoal h
    | directiveToVec => exact allows_of_afterWriting h
    | decompose => exact allows_of_afterDecompose h
    | dispatch => exact allows_of_afterDispatch h
    | finalize =>
      simp only [Phase.next, afterFinalize] at h
      split at h
      · cases h
        exact .finalize _ _ _ rfl
      · cases h
    | abortWorkspace | spawnMonitor => exact allows_of_ifEnding rfl h
    | _ => cases h
  | profile c =>
    cases c with
    | taxonomy => exact allows_of_afterTaxonomy h
    | getCurrent => exact allows_of_afterCurrent h
    | getVersion => exact allows_of_afterVersion h
    | _ => exact allows_of_ifIdle rfl h
  | listBySession => exact allows_of_afterList h
  | _ => exact allows_of_ifIdle rfl h

end Allows

/-! ## What the checks have read -/

def Opens (row : SessionRow) (rest log : Log) : Prop :=
  ∃ r, log = ⟨.session .getById, .ok (some row)⟩ ::
    ⟨.session (.transitionState .configuring .validating), r⟩ :: rest

theorem Opens.snoc {row : SessionRow} {rest log : Log} (h : Opens row rest log)
    (x : Exchange Call Reply) : Opens row (rest ++ [x]) (log ++ [x]) := by
  obtain ⟨r, rfl⟩ := h
  exact ⟨r, rfl⟩

/-- What is checked is what was read. -/
structure Reads (c : Check) (reads : Log) : Prop where
  listed : ∃ r, ⟨.listBySession, r⟩ ∈ reads ∧ r.toOption.getD [] = c.assignments
  versions : ∀ k ∈ c.checked, ∀ v, k.versionedProfile = some v →
    ⟨.profile (.getVersion k.assignment.profileId k.assignment.profileVersion), .ok (some v)⟩ ∈
      reads

/-- **`validate_session` found no violation** in `c`: the log begins with such a run. -/
structure Validated (set : Setting) (log : Log) (c : Check) : Prop where
  returned : ∃ reads rest, Opens c.row (reads ++ rest) log ∧
    (validateSession set c.row).Returns reads [] ∧ Reads c reads
  clean : c.violations set = []
  all : c.checked.map (·.assignment) = c.assignments

theorem Validated.snoc {set : Setting} {log : Log} {c : Check} (h : Validated set log c)
    (x : Exchange Call Reply) : Validated set (log ++ [x]) c := by
  obtain ⟨reads, rest, hopens, hreturns, hreads⟩ := h.returned
  have hopens' := hopens.snoc x
  rw [append_assoc] at hopens'
  exact ⟨⟨reads, rest ++ [x], hopens', hreturns, hreads⟩, h.clean, h.all⟩

def Check.add (c : Check) (checked : List CheckedAssignment) : Check :=
  { c with checked := c.checked ++ checked }

/-- The checks have read `reads`, and return once the profiles of `rest` are read. -/
structure Reading (set : Setting) (c : Check) (rest : List AssignmentRow) (log : Log) : Prop where
  reads : ∃ reads, Opens c.row reads log ∧ Reads c reads ∧
    ∀ tail checked, (readProfiles rest).Returns tail checked →
      (validateSession set c.row).Returns (reads ++ tail) ((c.add checked).violations set)
  all : c.assignments = c.checked.map (·.assignment) ++ rest

/-- In the middle of an assignment: the version it names is read next. -/
structure Comparing (set : Setting) (c : Check) (a : AssignmentRow)
    (profile : Option Profiles.ProfileRow) (rest : List AssignmentRow) (log : Log) : Prop where
  reads : ∃ reads, Opens c.row reads log ∧ Reads c reads ∧
    ∀ r tail checked, (readProfiles rest).Returns tail checked →
      (validateSession set c.row).Returns
        (reads ++ ⟨.profile (.getVersion a.profileId a.profileVersion), r⟩ :: tail)
        ((c.add (⟨a, profile, r.toOption.join⟩ :: checked)).violations set)
  all : c.assignments = c.checked.map (·.assignment) ++ a :: rest

def Gathered (set : Setting) : Phase → Log → Prop
  | .fresh, log => log = []
  | .other, _ => True
  | .rowRead row, log => log = [⟨.session .getById, .ok (some row)⟩]
  | .validating row, log => Opens row [] log
  | .indexed row vertical, log => ∃ index : TaxonomyIndex,
      index.getVertical set.vertical = some vertical ∧ vertical.loadError = none ∧
        Opens row [⟨.profile .taxonomy, index⟩] log
  | .checking c rest, log => Reading set c rest log
  | .comparing c a profile rest, log => Comparing set c a profile rest log
  | .passed c, log => Validated set log c
  | .opened c _, log => Validated set log c
  | .loaded l, log => Validated set log l.check
  | .preparing l _ _, log => Validated set log l.check
  | .writing l _ _ _ _, log => Validated set log l.check
  | .dispatching l _ _ _, log => Validated set log l.check
  | .closing l _, log => Validated set log l.check

section Gathered

variable {set : Setting} {log : Log} {c : Check}

theorem Reads.mono {reads reads' : Log} (h : Reads c reads) (hsub : ∀ x ∈ reads, x ∈ reads') :
    Reads c reads' where
  listed := by
    obtain ⟨r, hr, hlist⟩ := h.listed
    exact ⟨r, hsub _ hr, hlist⟩
  versions k hk v hv := hsub _ (h.versions k hk v hv)

variable {a : AssignmentRow} {rest : List AssignmentRow}

theorem readProfiles_returns {tail : Log} {checked : List CheckedAssignment}
    (h : (readProfiles rest).Returns tail checked)
    (r r' : Except DbError (Option Profiles.ProfileRow)) : (readProfiles (a :: rest)).Returns
      (⟨.profile (.getCurrent a.profileId), r⟩ ::
        ⟨.profile (.getVersion a.profileId a.profileVersion), r'⟩ :: tail)
      (⟨a, r.toOption.join, r'.toOption.join⟩ :: checked) := by
  have hrest := h.bind (f := fun rest => pure
    (⟨a, r.toOption.join, r'.toOption.join⟩ :: rest)) (ret _)
  rw [append_nil] at hrest
  exact perform (perform hrest)

theorem reading_of_list {row : SessionRow} {index : TaxonomyIndex} {vertical : VerticalEntry}
    (hvertical : index.getVertical set.vertical = some vertical)
    (hload : vertical.loadError = none) (hopens : Opens row [⟨.profile .taxonomy, index⟩] log)
    (r : Except DbError (List AssignmentRow)) :
    Reading set ⟨row, vertical, r.toOption.getD [], []⟩ (r.toOption.getD [])
      (log ++ [⟨.listBySession, r⟩]) := by
  refine ⟨⟨_, hopens.snoc _, ⟨⟨r, by simp, rfl⟩, by simp⟩, ?_⟩, rfl⟩
  intro tail checked hreturns
  have hrest := hreturns.bind (f := fun checked => pure
    (violationsIn set vertical row (r.toOption.getD []) checked)) (ret _)
  rw [append_nil] at hrest
  refine perform ?_
  simp only [hvertical, hload]
  exact perform hrest

theorem Reading.current (h : Reading set c (a :: rest) log)
    (r : Except DbError (Option Profiles.ProfileRow)) : Comparing set c a r.toOption.join rest
      (log ++ [⟨.profile (.getCurrent a.profileId), r⟩]) := by
  obtain ⟨reads, hopens, hreads, hreturns⟩ := h.reads
  refine ⟨⟨_, hopens.snoc _, hreads.mono fun x hx => mem_append_left _ hx, ?_⟩, h.all⟩
  intro r' tail checked htail
  have hall := hreturns _ _ (readProfiles_returns htail r r')
  simpa using hall

theorem Comparing.version {profile : Option Profiles.ProfileRow}
    (h : Comparing set c a profile rest log) (r : Except DbError (Option Profiles.ProfileRow)) :
    Reading set { c with checked := c.checked ++ [⟨a, profile, r.toOption.join⟩] } rest
      (log ++ [⟨.profile (.getVersion a.profileId a.profileVersion), r⟩]) := by
  obtain ⟨reads, hopens, hreads, hreturns⟩ := h.reads
  refine ⟨⟨_, hopens.snoc _, ⟨?_, ?_⟩, ?_⟩, ?_⟩
  · exact (hreads.mono fun x hx => mem_append_left _ hx).listed
  · intro k hk v hv
    obtain hk | hk := mem_append.mp hk
    · exact mem_append_left _ (hreads.versions k hk v hv)
    · cases mem_singleton.mp hk
      obtain e | _ | v' := r
      · cases hv
      · cases hv
      · cases hv
        simp
  · intro tail checked htail
    have hall := hreturns r tail checked htail
    simpa [Check.add, Check.violations] using hall
  · simpa using h.all

theorem Reading.validated (h : Reading set c [] log) (hnone : c.violations set = []) :
    Validated set log c := by
  obtain ⟨reads, hopens, hreads, hreturns⟩ := h.reads
  have hall := hreturns [] [] (ret _)
  refine ⟨⟨reads, [], ?_, ?_, hreads⟩, hnone, ?_⟩
  · rw [append_nil]
    exact hopens
  · rw [← hnone]
    simpa [Check.add] using hall
  · simpa using h.all.symm

theorem Gathered.next {φ φ' : Phase} {x : Exchange Call Reply} (h : Gathered set φ log)
    (hallows : Allows set φ x φ') : Gathered set φ' (log ++ [x]) := by
  cases hallows with
  | quit => exact trivial
  | ending | finalize => exact Validated.snoc h x
  | row =>
    cases h
    exact rfl
  | claim row r =>
    cases h
    exact ⟨r, rfl⟩
  | index row hvertical hload => exact ⟨_, hvertical, hload, Opens.snoc h _⟩
  | list row vertical r =>
    obtain ⟨index, hvertical, hload, hopens⟩ := h
    exact reading_of_list hvertical hload hopens r
  | current c a rest r => exact Reading.current h r
  | version c a profile rest r => exact Comparing.version h r
  | pass c r hnone => exact (Reading.validated h hnone).snoc _
  | reopen | load | channel | submit | submitFailed | read | write | decompose | decomposeFailed
  | dispatch | dispatchFailed => exact Validated.snoc h _
  | prepareFailed l built hφ =>
    obtain ⟨rest, rfl⟩ | ⟨a, profile, rest, rfl⟩ := hφ
    · exact Validated.snoc h x
    · exact Validated.snoc h x

theorem gathered_of_phase {φ : Phase} (h : log.foldlM (next set) .fresh = some φ) :
    Gathered set φ log := by
  have hfresh : Gathered set .fresh [] := rfl
  exact log_keeps (Gathered set) hfresh
    (fun _ _ _ _ hgathered hnext => hgathered.next (allows_of_next hnext)) h

end Gathered

/-! ## What has been sent -/

structure Written (set : Setting) (session : SessionRow) (log : Log) (b : Built) : Prop where
  read : ⟨.profile (.getCurrent b.assignment.profileId), .ok b.profile⟩ ∈ log
  directive : ⟨.session (.directiveToVec (directiveOf set session b.assignment b.profile).1),
    .ok b.payload⟩ ∈ log

def dispatched (log : Log) : List DispatchRequest :=
  log.filterMap fun
    | ⟨.session (.dispatch request), _⟩ => some request
    | _ => none

structure Loads (session : SessionRow) (assignments : List AssignmentRow) (log : Log) : Prop where
  row : ⟨.session .getById, .ok (some session)⟩ ∈ log
  list : ⟨.listBySession, .ok assignments⟩ ∈ log

/-- **What a launch has sent**: the goal, a task for each assignment, and their Dispatch requests in
turn. -/
structure Sends (set : Setting) (session : SessionRow) (assignments : List AssignmentRow)
    (built : List Built) (log : Log) : Prop where
  loads : Loads session assignments log
  goals : ∀ request r, ⟨.session (.submitGoal request), r⟩ ∈ log → request = goalOf session
  written : ∀ b ∈ built, Written set session log b
  begun : built.map (·.assignment) <+: assignments
  tasks : ∀ tasks r, ⟨.session (.decompose tasks), r⟩ ∈ log →
    built.map (·.assignment) = assignments ∧ tasks = built.map (·.task set session)
  dispatches : ∃ taskIds, dispatched log <+:
    (built.zip taskIds).map fun t => t.1.request set session t.2

def Undecomposed (log : Log) : Prop :=
  (∀ tasks r, ⟨.session (.decompose tasks), r⟩ ∉ log) ∧ dispatched log = []

def Sent (set : Setting) : Phase → Log → Prop
  | .preparing l built rest, log =>
    Sends set l.session l.assignments built log ∧ Undecomposed log ∧
      l.assignments = built.map (·.assignment) ++ rest
  | .writing l built a profile rest, log =>
    Sends set l.session l.assignments built log ∧ Undecomposed log ∧
      l.assignments = built.map (·.assignment) ++ a :: rest ∧
      ⟨.profile (.getCurrent a.profileId), .ok profile⟩ ∈ log
  | .dispatching l built done rest, log =>
    Sends set l.session l.assignments built log ∧
      dispatched log = done.map (fun t => t.1.request set l.session t.2) ∧
      ∃ taskIds, built.zip taskIds = done ++ rest
  | .closing l built, log => Sends set l.session l.assignments built log
  | .opened _ session, log =>
    (∀ x ∈ log, sends x = false) ∧ ⟨.session .getById, .ok (some session)⟩ ∈ log
  | .loaded l, log => (∀ x ∈ log, sends x = false) ∧ Loads l.session l.assignments log
  | _, log => ∀ x ∈ log, sends x = false

section Sent

variable {set : Setting} {log : Log} {session : SessionRow} {assignments : List AssignmentRow}
  {built : List Built}

theorem Loads.snoc (h : Loads session assignments log) (x : Exchange Call Reply) :
    Loads session assignments (log ++ [x]) :=
  ⟨mem_append_left _ h.row, mem_append_left _ h.list⟩

theorem Written.snoc {b : Built} (h : Written set session log b) (x : Exchange Call Reply) :
    Written set session (log ++ [x]) b :=
  ⟨mem_append_left _ h.read, mem_append_left _ h.directive⟩

theorem dispatched_append (log log' : Log) :
    dispatched (log ++ log') = dispatched log ++ dispatched log' :=
  filterMap_append

variable {x : Exchange Call Reply}

theorem dispatched_of_not_sends (hx : sends x = false) : dispatched [x] = [] := by
  obtain ⟨c, r⟩ := x
  cases c with
  | session c =>
    cases c with
    | dispatch => cases hx
    | _ => rfl
  | _ => rfl

theorem dispatched_of_unsent (h : ∀ x ∈ log, sends x = false) : dispatched log = [] := by
  rw [dispatched, filterMap_eq_nil_iff]
  intro x hx
  have hnone := dispatched_of_not_sends (h x hx)
  rw [dispatched, filterMap_eq_nil_iff] at hnone
  exact hnone x (mem_singleton_self x)

variable {y : Exchange Call Reply}

theorem mem_of_mem_snoc (h : y ∈ log ++ [x]) (hne : y ≠ x) : y ∈ log :=
  (mem_append.mp h).resolve_right fun hlast => hne (mem_singleton.mp hlast)

theorem ne_of_sends (hx : sends x = false) (hy : sends y) : y ≠ x := by
  rintro rfl
  rw [hx] at hy
  cases hy

theorem Sends.quiet (h : Sends set session assignments built log) (hx : sends x = false) :
    Sends set session assignments built (log ++ [x]) where
  loads := h.loads.snoc x
  goals request r hmem := h.goals request r (mem_of_mem_snoc hmem (ne_of_sends hx rfl))
  written b hb := (h.written b hb).snoc x
  begun := h.begun
  tasks tasks r hmem := h.tasks tasks r (mem_of_mem_snoc hmem (ne_of_sends hx rfl))
  dispatches := by
    rw [dispatched_append, dispatched_of_not_sends hx, append_nil]
    exact h.dispatches

theorem Undecomposed.quiet (h : Undecomposed log) (hx : sends x = false) :
    Undecomposed (log ++ [x]) := by
  refine ⟨?_, ?_⟩
  · intro tasks r hmem
    exact h.1 tasks r (mem_of_mem_snoc hmem (ne_of_sends hx rfl))
  · rw [dispatched_append, dispatched_of_not_sends hx, h.2]
    rfl

variable {r : Except Status String}

theorem sends_goal (h : ∀ x ∈ log, sends x = false) (hloads : Loads session assignments log)
    (hx : x = ⟨.session (.submitGoal (goalOf session)), r⟩) :
    Sends set session assignments [] (log ++ [x]) ∧ Undecomposed (log ++ [x]) := by
  have hdispatched : dispatched (log ++ [x]) = [] := by
    rw [dispatched_append, dispatched_of_unsent h, hx]
    rfl
  have htasks : ∀ tasks r', ⟨.session (.decompose tasks), r'⟩ ∉ log ++ [x] := by
    intro tasks r' hmem
    subst hx
    cases h _ (mem_of_mem_snoc hmem nofun)
  subst hx
  refine ⟨⟨hloads.snoc _, ?_, ?_, ?_, ?_, ?_⟩, htasks, hdispatched⟩
  · intro request r' hmem
    obtain hmem | hmem := mem_append.mp hmem
    · cases h _ hmem
    · cases mem_singleton.mp hmem
      rfl
  · simp
  · exact nil_prefix
  · intro tasks r' hmem
    exact absurd hmem (htasks tasks r')
  · rw [hdispatched]
    exact ⟨[], nil_prefix⟩

section

variable (h : Sends set session assignments built log)
include h

theorem Sends.write (hnone : Undecomposed log) {a : AssignmentRow}
    {profile : Option Profiles.ProfileRow} {rest : List AssignmentRow}
    (hall : assignments = built.map (·.assignment) ++ a :: rest)
    (hread : ⟨.profile (.getCurrent a.profileId), .ok profile⟩ ∈ log) {payload : List UInt8}
    (hx : x = ⟨.session (.directiveToVec (directiveOf set session a profile).1), .ok payload⟩) :
    Sends set session assignments (built ++ [⟨a, profile, payload⟩]) (log ++ [x]) := by
  have hsends : sends x = false := hx ▸ rfl
  have hquiet := h.quiet hsends
  have hnone' := hnone.quiet hsends
  subst hx
  refine ⟨hquiet.loads, hquiet.goals, ?_, ?_, ?_, ?_⟩
  · intro b hb
    obtain hb | hb := mem_append.mp hb
    · exact hquiet.written b hb
    · cases mem_singleton.mp hb
      exact ⟨mem_append_left _ hread, mem_append_right _ (mem_singleton_self _)⟩
  · refine ⟨rest, ?_⟩
    rw [hall, map_append, append_assoc]
    rfl
  · intro tasks r hmem
    exact absurd hmem (hnone'.1 tasks r)
  · rw [hnone'.2]
    exact ⟨[], nil_prefix⟩

theorem Sends.decompose (hnone : Undecomposed log) (hall : assignments = built.map (·.assignment))
    {r : Except Status (List String)}
    (hx : x = ⟨.session (.decompose (built.map (·.task set session))), r⟩) :
    Sends set session assignments built (log ++ [x]) ∧ dispatched (log ++ [x]) = [] := by
  have hdispatched : dispatched (log ++ [x]) = [] := by
    rw [dispatched_append, hnone.2, hx]
    rfl
  subst hx
  refine ⟨⟨h.loads.snoc _, ?_, fun b hb => (h.written b hb).snoc _, h.begun, ?_, ?_⟩, hdispatched⟩
  · intro request r' hmem
    exact h.goals request r' (mem_of_mem_snoc hmem nofun)
  · intro tasks r' hmem
    obtain hmem | hmem := mem_append.mp hmem
    · exact absurd hmem (hnone.1 tasks r')
    · cases mem_singleton.mp hmem
      exact ⟨hall.symm, rfl⟩
  · rw [hdispatched]
    exact ⟨[], nil_prefix⟩

theorem Sends.dispatch {done rest : List (Built × String)} {b : Built} {taskId : String}
    (hdone : dispatched log = done.map fun t => t.1.request set session t.2) {taskIds : List String}
    (hzip : built.zip taskIds = done ++ (b, taskId) :: rest) {r : Except Status String}
    (hx : x = ⟨.session (.dispatch (b.request set session taskId)), r⟩) :
    Sends set session assignments built (log ++ [x]) ∧ dispatched (log ++ [x]) =
      (done ++ [(b, taskId)]).map fun t => t.1.request set session t.2 := by
  have hdispatched : dispatched (log ++ [x]) =
      (done ++ [(b, taskId)]).map fun t => t.1.request set session t.2 := by
    rw [dispatched_append, hdone, map_append, hx]
    rfl
  subst hx
  refine ⟨⟨h.loads.snoc _, ?_, fun b hb => (h.written b hb).snoc _, h.begun, ?_, ?_⟩, hdispatched⟩
  · intro request r' hmem
    exact h.goals request r' (mem_of_mem_snoc hmem nofun)
  · intro tasks r' hmem
    exact h.tasks tasks r' (mem_of_mem_snoc hmem nofun)
  · refine ⟨taskIds, ?_⟩
    rw [hdispatched, hzip]
    refine List.IsPrefix.map _ ⟨rest, ?_⟩
    rw [append_assoc]
    rfl

end

theorem Sent.next {φ φ' : Phase} (h : Sent set φ log) (hallows : Allows set φ x φ') :
    Sent set φ' (log ++ [x]) := by
  have hquiet : (∀ y ∈ log, sends y = false) → sends x = false →
      ∀ y ∈ log ++ [x], sends y = false := fun hlog hx =>
    forall_mem_append.mpr ⟨hlog, forall_mem_singleton.mpr hx⟩
  cases hallows with
  | quit hφ hx =>
    cases φ with
    | preparing | writing | dispatching | closing => cases hφ
    | opened | loaded => exact hquiet h.1 hx
    | _ => exact hquiet h hx
  | ending l built hx => exact Sends.quiet h hx
  | row | claim | index | list | current | version | pass => exact hquiet h rfl
  | reopen => exact ⟨hquiet h rfl, by simp⟩
  | load =>
    exact ⟨hquiet h.1 rfl, mem_append_left _ h.2, by simp⟩
  | channel => exact ⟨hquiet h.1 rfl, h.2.snoc _⟩
  | submit =>
    obtain ⟨hsends, hnone⟩ := sends_goal h.1 h.2 rfl
    exact ⟨hsends, hnone, rfl⟩
  | submitFailed => exact (sends_goal h.1 h.2 rfl).1
  | read =>
    obtain ⟨hsends, hnone, hall⟩ := h
    exact ⟨hsends.quiet rfl, hnone.quiet rfl, hall, by simp⟩
  | write =>
    obtain ⟨hsends, hnone, hall, hread⟩ := h
    refine ⟨hsends.write hnone hall hread rfl, hnone.quiet rfl, ?_⟩
    rw [hall, map_append, append_assoc]
    rfl
  | prepareFailed l built hφ hx =>
    obtain ⟨rest, rfl⟩ | ⟨a, profile, rest, rfl⟩ := hφ
    · exact h.1.quiet hx
    · exact h.1.quiet hx
  | decompose l built taskIds =>
    obtain ⟨hsends, hnone, hall⟩ := h
    rw [append_nil] at hall
    obtain ⟨hsends', hdispatched⟩ := hsends.decompose hnone hall rfl
    exact ⟨hsends', hdispatched, taskIds, rfl⟩
  | decomposeFailed =>
    obtain ⟨hsends, hnone, hall⟩ := h
    rw [append_nil] at hall
    exact (hsends.decompose hnone hall rfl).1
  | dispatch =>
    obtain ⟨hsends, hdone, taskIds, hzip⟩ := h
    obtain ⟨hsends', hdispatched⟩ := hsends.dispatch hdone hzip rfl
    refine ⟨hsends', hdispatched, taskIds, ?_⟩
    rw [hzip, append_assoc]
    rfl
  | dispatchFailed =>
    obtain ⟨hsends, hdone, taskIds, hzip⟩ := h
    exact (hsends.dispatch hdone hzip rfl).1
  | finalize l built done hx => exact h.1.quiet hx

theorem sent_of_phase {φ : Phase} (h : log.foldlM (next set) .fresh = some φ) : Sent set φ log := by
  have hfresh : Sent set .fresh [] := by
    intro x hx
    cases hx
  exact log_keeps (Sent set) hfresh (fun _ _ _ _ hsent hnext => hsent.next (allows_of_next hnext)) h

theorem Sends.dispatch_mem (h : Sends set session assignments built log) {request : DispatchRequest}
    (hmem : ⟨.session (.dispatch request), r⟩ ∈ log) :
    ∃ b ∈ built, ∃ taskId, request = b.request set session taskId := by
  obtain ⟨taskIds, hdispatches⟩ := h.dispatches
  have hrequest : request ∈ dispatched log := mem_filterMap.mpr ⟨_, hmem, rfl⟩
  obtain ⟨⟨b, taskId⟩, hzip, hb⟩ := mem_map.mp (hdispatches.subset hrequest)
  exact ⟨b, (of_mem_zip hzip).1, taskId, hb.symm⟩

end Sent

/-! ## In every interleaving -/

def Phase.launched : Phase → Option (Loaded × List Built)
  | .preparing l built _ => some (l, built)
  | .writing l built _ _ _ => some (l, built)
  | .dispatching l built _ _ => some (l, built)
  | .closing l built => some (l, built)
  | _ => none

theorem launched_of_sends {set : Setting} {log : Log} {φ : Phase}
    (h : log.foldlM (next set) .fresh = some φ) {x : Exchange Call Reply} (hx : x ∈ log)
    (hsends : sends x) : ∃ l built, φ.launched = some (l, built) ∧ Validated set log l.check ∧
      Sends set l.session l.assignments built log := by
  have hgathered := gathered_of_phase h
  have hsent := sent_of_phase h
  cases φ with
  | preparing l built | writing l built | dispatching l built =>
      exact ⟨l, built, rfl, hgathered, hsent.1⟩
  | closing l built => exact ⟨l, built, rfl, hgathered, hsent⟩
  | opened | loaded => cases hsends.symm.trans (hsent.1 x hx)
  | _ => cases hsends.symm.trans (hsent x hx)

section Runs

variable {set : Setting}

abbrev Conforms (set : Setting) (s : Requests) : Prop :=
  s.Conforms (next set) .fresh fun _ _ => True

theorem conforms_new {w : World} : Conforms set (new w) := Pool.conforms_of_empty

variable {s : Requests}

theorem conforms_start (h : Conforms set s) {r : Request} :
    Conforms set (s.start (r.program set s.shared.row.id)) :=
  h.start (program_follows r)

theorem conforms_call {s' : Requests} (h : Conforms set s) {request : ℕ} {o : Outside}
    (hstep : Step set s (.call request o) s') :
    Conforms set s' ∧ ∃ c φ φ', Pool.Advances exec (next set) .fresh s s' request o c φ φ' ∧
      s.pending request = some c := by
  have hadvance : s.advance exec (fun _ _ => []) request o = some s' := hstep
  obtain ⟨hconforms, c, φ, φ', hadv⟩ := h.advance (by simp) hadvance
  exact ⟨hconforms, c, φ, φ', hadv, hadv.pending hadvance⟩

theorem conforms_of_run {ok : Requests → Label → Prop} {w : World} (h : Run (Step set) ok (new w) s) :
    Conforms set s := by
  refine h.invariant (Conforms set) ?_ conforms_new
  intro s label s' hs _ hstep
  cases label with
  | request r =>
    cases hstep
    exact conforms_start hs
  | call => exact (conforms_call hs hstep).1

/-- **A request that has sent something is a validated launch**, and sent what its launcher loaded.
-/
theorem exists_launched (h : Conforms set s) {i : ℕ} {x : Exchange Call Reply}
    (hx : (i, x) ∈ s.history) (hsends : sends x) :
    ∃ φ l built, s.phase (next set) .fresh i = some φ ∧ φ.launched = some (l, built) ∧
      Validated set (s.log i) l.check ∧
      Sends set l.session l.assignments built (s.log i) := by
  obtain ⟨φ, hφ⟩ := h.exists_phase i
  obtain ⟨l, built, hlaunched, hvalidated, hsent⟩ :=
    launched_of_sends hφ (Pool.mem_log.mpr hx) hsends
  exact ⟨φ, l, built, hφ, hlaunched, hvalidated, hsent⟩

end Runs

end Wacp.Console.Editing
