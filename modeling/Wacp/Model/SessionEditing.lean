import Wacp.Model.ProfileHandlers

/-!
# Editing and launching a session

`update_session`, `set_assignments` and `launch_session` of `console-api/src/routes/sessions.rs` on
one session, with the checks of `console-core/src/session_validation.rs`, beside the edits of
profiles: programs of SQL statements on the same rows. The launch is that of `SessionHandlers` with
finer calls, by `answer`.
-/

namespace Wacp.Console.Editing

open Library Prog List

/-! ## Rows -/

structure AssignmentRow extends SessionAssignmentRow where
  profileVersion : ℤ
  deriving DecidableEq

def AssignmentRow.inWorkspace (workspaceId : String) (a : AssignmentRow) : AssignmentRow :=
  { a with workspaceId := some workspaceId }

structure Assignments where
  rows : List AssignmentRow
  ids : (rows.map (·.id)).Nodup
  slots : (rows.map (·.slotPosition)).Nodup

namespace Assignments

def empty : Assignments := ⟨[], nodup_nil, nodup_nil⟩

def listBySession (t : Assignments) : List AssignmentRow :=
  t.rows.insertionSort fun a b => a.slotPosition ≤ b.slotPosition

def insertAssignment (t : Assignments) (profiles : Profiles.ProfileTable) (row : AssignmentRow) :
    Except DbError Assignments :=
  if hid : row.id ∈ t.rows.map (·.id) then
    .error (.failed "UNIQUE constraint failed: session_assignments.id")
  else if hslot : row.slotPosition ∈ t.rows.map (·.slotPosition) then
    .error (.failed ("UNIQUE constraint failed: session_assignments.session_id, " ++
      "session_assignments.slot_position"))
  else if (profiles.getVersion row.profileId row.profileVersion).isNone then
    .error (.failed "FOREIGN KEY constraint failed")
  else .ok
    { rows := t.rows ++ [row]
      ids := by
        rw [map_append, nodup_append]
        refine ⟨t.ids, by simp, ?_⟩
        rintro a ha b hb rfl
        exact hid (by simpa [mem_singleton.mp hb] using ha)
      slots := by
        rw [map_append, nodup_append]
        refine ⟨t.slots, by simp, ?_⟩
        rintro a ha b hb rfl
        exact hslot (by simpa [mem_singleton.mp hb] using ha) }

def setWorkspaceId (t : Assignments) (la : LaunchedAssignment) : Assignments where
  rows := updateWhere (fun a => a.id == la.assignmentId) (AssignmentRow.inWorkspace la.workspaceId)
    t.rows
  ids := by
    rw [map_updateWhere (fun a : AssignmentRow => a.id)
      (f := AssignmentRow.inWorkspace la.workspaceId) fun _ => rfl]
    exact t.ids
  slots := by
    rw [map_updateWhere (fun a : AssignmentRow => a.slotPosition)
      (f := AssignmentRow.inWorkspace la.workspaceId) fun _ => rfl]
    exact t.slots

end Assignments

structure World where
  row : SessionRow
  assignments : Assignments
  monitored : Bool
  profiles : Profiles.ProfileTable

/-! ## Calls -/

inductive Call where
  | session (c : Console.Call)
  | profile (c : Profiles.Call)
  | listBySession
  | updateContext (context : String)
  | updateName (name : String)
  | updateBudgets (maxCostMicros maxTokens maxWallTimeMs : Option ℤ)
  | deleteAssignments
  | insertAssignment (row : AssignmentRow)

abbrev Reply : Call → Type
  | .session c => Console.Reply c
  | .profile c => Profiles.Reply c
  | .listBySession => Except DbError (List AssignmentRow)
  | .updateContext _ => Except DbError Bool
  | .updateName _ => Except DbError Bool
  | .updateBudgets _ _ _ => Except DbError Bool
  | .deleteAssignments => Except DbError Unit
  | .insertAssignment _ => Except DbError Unit

abbrev Program (α : Type) := Prog Call Reply α

structure Outside where
  session : Console.Outside
  profile : Profiles.Outside

namespace World

def session (w : World) : SessionData :=
  { row := w.row
    assignments := w.assignments.listBySession.map (·.toSessionAssignmentRow)
    monitored := w.monitored }

/-- The transaction of the launcher also writes the assignments. -/
def finalized (w : World) : (c : Console.Call) → Console.Reply c → World
  | .finalize _ launched, .ok () =>
    { w with assignments := launched.foldl Assignments.setWorkspaceId w.assignments }
  | _, _ => w

def statement {α : Type} (w : World) (o : Outside) (result : α) (w' : World) :
    Except DbError α × World :=
  match o.session.dbError with
  | some e => (.error e, w)
  | none => (.ok result, w')

/-- `UPDATE sessions SET … WHERE id = ? AND state = 'configuring'`, which says whether it found the
row. -/
def updateConfiguring (w : World) (o : Outside) (edit : SessionRow → SessionRow) :
    Except DbError Bool × World :=
  if w.row.state = .configuring then w.statement o true { w with row := edit w.row }
  else w.statement o false w

def insertAssignment (w : World) (o : Outside) (row : AssignmentRow) :
    Except DbError Unit × World :=
  match o.session.dbError, w.assignments.insertAssignment w.profiles row with
  | some e, _ => (.error e, w)
  | none, .error e => (.error e, w)
  | none, .ok assignments => (.ok (), { w with assignments := assignments })

section Keeps

/-! What the edits of a statement do not touch, no statement changes. -/

variable {α β : Type} (f : World → β) {w w' : World} (o : Outside)

theorem statement_keeps {a : α} (h : f w' = f w) : f (w.statement o a w').2 = f w := by
  unfold World.statement
  cases o.session.dbError with
  | some => rfl
  | none => exact h

theorem updateConfiguring_keeps {edit : SessionRow → SessionRow}
    (h : f { w with row := edit w.row } = f w) : f (w.updateConfiguring o edit).2 = f w := by
  unfold updateConfiguring
  split_ifs
  · exact statement_keeps f o h
  · exact statement_keeps f o rfl

theorem insertAssignment_keeps (row : AssignmentRow)
    (h : ∀ assignments, f { w with assignments := assignments } = f w) :
    f (w.insertAssignment o row).2 = f w := by
  unfold World.insertAssignment
  cases o.session.dbError with
  | some => rfl
  | none =>
    cases w.assignments.insertAssignment w.profiles row with
    | error => rfl
    | ok assignments => exact h assignments

theorem finalized_keeps {c : Console.Call} {r : Console.Reply c}
    (h : ∀ launched : List LaunchedAssignment, f { w with
      assignments := launched.foldl Assignments.setWorkspaceId w.assignments } = f w) :
    f (w.finalized c r) = f w := by
  unfold finalized
  split
  · exact h _
  · rfl

end Keeps

end World

def setContext (context : String) (row : SessionRow) : SessionRow :=
  { row with context := some context }

def setName (name : String) (row : SessionRow) : SessionRow := { row with name := some name }

def setBudgets (maxCostMicros maxTokens maxWallTimeMs : Option ℤ) (row : SessionRow) : SessionRow :=
  { row with
    budgetMaxCostMicros := maxCostMicros.or row.budgetMaxCostMicros
    budgetMaxTokens := maxTokens.or row.budgetMaxTokens
    budgetMaxWallTimeMs := maxWallTimeMs.or row.budgetMaxWallTimeMs }

def exec : (c : Call) → Outside → World → Reply c × World
  | .session c, o, w =>
    let r := Console.exec c o.session w.session
    (r.1, ({ w with row := r.2.row, monitored := r.2.monitored } : World).finalized c r.1)
  | .profile c, o, w =>
    let r := Profiles.exec c o.profile w.profiles
    (r.1, { w with profiles := r.2 })
  | .listBySession, o, w => w.statement o w.assignments.listBySession w
  | .updateContext context, o, w => w.updateConfiguring o (setContext context)
  | .updateName name, o, w => w.updateConfiguring o (setName name)
  | .updateBudgets maxCostMicros maxTokens maxWallTimeMs, o, w =>
    w.updateConfiguring o (setBudgets maxCostMicros maxTokens maxWallTimeMs)
  | .deleteAssignments, o, w => w.statement o () { w with assignments := .empty }
  | .insertAssignment row, o, w => w.insertAssignment o row

/-! ## The checks before a launch (session_validation.rs) -/

structure Setting where
  fmt : Formats
  toJson : JsonValue → String
  vertical : String

def debugFieldType : FieldType → String
  | .string => "String"
  | .number => "Number"
  | .boolean => "Boolean"
  | .enum => "Enum"

def meetsType (field : ContextField) (value : JsonValue) : Bool :=
  match field.fieldType, value with
  | .string, .string _ => true
  | .number, .posInt _ => true
  | .number, .negInt _ => true
  | .number, .float _ => true
  | .boolean, .bool _ => true
  | .enum, .string s => field.enumValues.all (·.contains s)
  | _, _ => false

variable (set : Setting)

def checkField (context : List (String × JsonValue)) : String × ContextField → List SessionViolation
  | (fieldName, field) =>
    match (JsonValue.object context).get fieldName with
    | none =>
      if field.required then
        [⟨"MISSING_CONTEXT", "Required context field '" ++ fieldName ++ "' is missing", none⟩]
      else []
    | some value =>
      if meetsType field value then []
      else
        [⟨"INVALID_CONTEXT", "Context field '" ++ fieldName ++ "' expected type " ++
          debugFieldType field.fieldType ++ ", got " ++ set.toJson value, none⟩]

variable (vertical : VerticalEntry)

def checkContext (context : Option String) : List SessionViolation :=
  let fields := ((context.bind set.fmt.json).bind JsonValue.asObject).getD []
  vertical.contextSchema.flatMap (checkField set fields)

def checkBudgets (session : SessionRow) : List SessionViolation :=
  [("budget_max_cost_micros", session.budgetMaxCostMicros),
    ("budget_max_tokens", session.budgetMaxTokens),
    ("budget_max_wall_time_ms", session.budgetMaxWallTimeMs)].flatMap fun (name, val) =>
      if val.any (· < 0) then
        [⟨"INVALID_BUDGET", "Session " ++ name ++ " must be non-negative", none⟩]
      else []

def checkWorkflow (workflow : String) : List SessionViolation :=
  if vertical.workflows.contains workflow then []
  else
    [⟨"UNKNOWN_WORKFLOW", "Workflow '" ++ workflow ++ "' not found in vertical '" ++
      set.vertical ++ "'", none⟩]

def checkRoles (assignments : List AssignmentRow) : List SessionViolation :=
  vertical.roles.flatMap fun role =>
    if assignments.any (·.roleRef == role) then []
    else [⟨"MISSING_ASSIGNMENT", "No assignment for required role '" ++ role ++ "'", none⟩]

/-- One assignment, with the live row of its profile and the row of the version it names. -/
def checkAssignment (assignment : AssignmentRow)
    (profile versionedProfile : Option Profiles.ProfileRow) : List SessionViolation :=
  let slot := some assignment.slotPosition
  match profile with
  | none =>
    [⟨"UNKNOWN_PROFILE", "Profile '" ++ assignment.profileId ++ "' not found", slot⟩]
  | some p =>
    (if p.deletedAt.isSome then
      [⟨"DELETED_PROFILE_IN_ASSIGNMENT", "Profile '" ++ p.name ++ "' (slot " ++
        toString assignment.slotPosition ++ ") has been deleted", slot⟩]
    else []) ++
    match versionedProfile with
    | none =>
      [⟨"UNKNOWN_VERSION", "Profile '" ++ assignment.profileId ++ "' version " ++
        toString assignment.profileVersion ++ " not found", slot⟩]
    | some v =>
      if v.roleRef ≠ assignment.roleRef then
        [⟨"ROLE_MISMATCH", "Profile '" ++ v.name ++ "' has role '" ++ v.roleRef ++
          "' but slot requires '" ++ assignment.roleRef ++ "'", slot⟩]
      else []

structure CheckedAssignment where
  assignment : AssignmentRow
  (profile versionedProfile : Option Profiles.ProfileRow)

def readProfiles : List AssignmentRow → Program (List CheckedAssignment)
  | [] => return []
  | assignment :: assignments => do
      let profile ← perform (Call.profile (.getCurrent assignment.profileId))
      let versionedProfile ←
        perform (Call.profile (.getVersion assignment.profileId assignment.profileVersion))
      let rest ← readProfiles assignments
      return ⟨assignment, profile.toOption.join, versionedProfile.toOption.join⟩ :: rest

/-- The violations of a session in a vertical that was loaded. -/
def violationsIn (session : SessionRow) (assignments : List AssignmentRow)
    (checked : List CheckedAssignment) : List SessionViolation :=
  checkWorkflow set vertical session.workflow ++ checkRoles vertical assignments ++
    checked.flatMap (fun c => checkAssignment c.assignment c.profile c.versionedProfile) ++
    checkContext set vertical session.context ++ checkBudgets session

def validateSession (session : SessionRow) : Program (List SessionViolation) := do
  let index ← perform (Call.profile .taxonomy)
  match index.getVertical set.vertical with
  | none =>
    return [⟨"UNKNOWN_VERTICAL", "Vertical '" ++ set.vertical ++ "' not found in taxonomy", none⟩]
  | some vertical =>
    match vertical.loadError with
    | some loadError =>
      return [⟨"UNKNOWN_VERTICAL", "Vertical '" ++ set.vertical ++ "' failed to load: " ++
        loadError, none⟩]
    | none =>
      let assignments := (← perform Call.listBySession).toOption.getD []
      let checked ← readProfiles assignments
      return violationsIn set vertical session assignments checked

/-! ## The launch with these calls -/

def answer : (c : Console.Call) → Program (Console.Reply c)
  | .listBySession => do
      return (← perform Call.listBySession).map (·.map (·.toSessionAssignmentRow))
  | .getCurrent profileId => do
      return (← perform (Call.profile (.getCurrent profileId))).map (·.map (·.toProfileRow))
  | .validateSession session => validateSession set session
  | .toolsFromStr text => return set.fmt.strings text
  | c => perform (Call.session c)

def launchSession (set : Setting) (auth : Auth) (id : String) :
    Program (Except ApiError LaunchResponse) :=
  (Console.launchSession auth id).interpret (answer set)

/-! ## Update -/

/-- A statement whose failure is the error of the request, and whose count of rows is not looked
at. -/
def orDatabaseError {α : Type} (statement : Program (Except DbError α)) :
    Program (Except ApiError Unit) := do
  match ← statement with
  | .error e => return .error (.console (.database e.text))
  | .ok _ => return .ok ()

def getConfiguring (auth : Auth) (id conflict : String) : Program (Except ApiError SessionRow) := do
  match ← perform (Call.session .getById) with
  | .error e => return .error (.console (.database e.text))
  | .ok none => return .error (.notFound "session" id)
  | .ok (some session) =>
    match checkSessionWriteAccess auth session with
    | .error e => return .error e
    | .ok () =>
      if session.state ≠ .configuring then return .error (.console (.conflict conflict))
      else return .ok session

structure UpdateSessionRequest where
  name : Option String
  context : Option JsonValue
  (budgetMaxCostMicros budgetMaxTokens budgetMaxWallTimeMs : Option ℤ)

def updateContext (set : Setting) : Option JsonValue → Program (Except ApiError Unit)
  | none => return .ok ()
  | some context => orDatabaseError (perform (Call.updateContext (set.toJson context)))

def updateName : Option String → Program (Except ApiError Unit)
  | none => return .ok ()
  | some name => orDatabaseError (perform (Call.updateName name))

def updateBudgets (body : UpdateSessionRequest) : Program (Except ApiError Unit) :=
  if body.budgetMaxCostMicros.isSome || body.budgetMaxTokens.isSome ||
      body.budgetMaxWallTimeMs.isSome then
    orDatabaseError (perform (Call.updateBudgets body.budgetMaxCostMicros body.budgetMaxTokens
      body.budgetMaxWallTimeMs))
  else return .ok ()

def updateSession (auth : Auth) (id : String) (body : UpdateSessionRequest) :
    Program (Except ApiError Unit) := do
  match ← getConfiguring auth id "Session can only be modified in configuring state" with
  | .error e => return .error e
  | .ok _ =>
    match ← updateContext set body.context with
    | .error e => return .error e
    | .ok () =>
      match ← updateName body.name with
      | .error e => return .error e
      | .ok () => updateBudgets body

/-! ## Assignments -/

structure AssignmentInput where
  (roleRef profileId : String)
  (profileVersion budgetMaxCostMicros budgetMaxTokens budgetMaxWallTimeMs : Option ℤ)
  deriving DecidableEq

def pinVersion (input : AssignmentInput) : Program (Except ApiError ℤ) := do
  match input.profileVersion with
  | some v => return .ok v
  | none =>
    match ← perform (Call.profile (.getCurrent input.profileId)) with
    | .error e => return .error (.console (.database e.text))
    | .ok none => return .error (.notFound "profile" input.profileId)
    | .ok (some profile) => return .ok profile.version

def AssignmentInput.row (input : AssignmentInput) (id : String) (slotPosition version : ℤ) :
    AssignmentRow where
  id := id
  roleRef := input.roleRef
  slotPosition := slotPosition
  profileId := input.profileId
  profileVersion := version
  workspaceId := none
  budgetMaxCostMicros := input.budgetMaxCostMicros
  budgetMaxTokens := input.budgetMaxTokens
  budgetMaxWallTimeMs := input.budgetMaxWallTimeMs

def pinRows : List AssignmentInput → ℤ → Program (Except ApiError (List AssignmentRow))
  | [], _ => return .ok []
  | input :: inputs, i => do
      match ← pinVersion input with
      | .error e => return .error e
      | .ok version =>
        let id ← perform (Call.profile .newId)
        match ← pinRows inputs (i + 1) with
        | .error e => return .error e
        | .ok rows => return .ok (input.row id i version :: rows)

def insertEach : List AssignmentRow → Program (Except ApiError Unit)
  | [] => return .ok ()
  | row :: rows => do
      match ← orDatabaseError (perform (Call.insertAssignment row)) with
      | .error e => return .error e
      | .ok () => insertEach rows

/-- One statement for the DELETE and one for each row. None of them looks at the state. -/
def replaceAssignments (rows : List AssignmentRow) : Program (Except ApiError Unit) := do
  match ← orDatabaseError (perform Call.deleteAssignments) with
  | .error e => return .error e
  | .ok () => insertEach rows

def setAssignments (auth : Auth) (id : String) (body : List AssignmentInput) :
    Program (Except ApiError Unit) := do
  match ← getConfiguring auth id "Assignments can only be set in configuring state" with
  | .error e => return .error e
  | .ok _ =>
    match ← pinRows body 0 with
    | .error e => return .error e
    | .ok rows => replaceAssignments rows

/-! ## Concurrent requests -/

inductive Request where
  | update (auth : Auth) (body : UpdateSessionRequest)
  | assign (auth : Auth) (body : List AssignmentInput)
  | launch (auth : Auth)
  | edit (auth : AuthenticatedUser) (r : Profiles.EditRequest)

def Request.program (set : Setting) (id : String) : Request → Program Unit
  | .update auth body => do let _ ← updateSession set auth id body
  | .assign auth body => do let _ ← setAssignments auth id body
  | .launch auth => do let _ ← launchSession set auth id
  | .edit auth r => (r.program set.fmt auth).interpret fun c => perform (Call.profile c)

abbrev Requests := Pool Call Reply World Unit

inductive Label where
  | request (r : Request)
  | call (request : ℕ) (o : Outside)

def new (w : World) : Requests := { shared := w, processes := [], history := [] }

def apply (s : Requests) : Label → Option Requests
  | .request r => some (s.start (r.program set s.shared.row.id))
  | .call request o => s.advance exec (fun _ _ => []) request o

def Step (s : Requests) (label : Label) (s' : Requests) : Prop :=
  apply set s label = some s'

end Wacp.Console.Editing
