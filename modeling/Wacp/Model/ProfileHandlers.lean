import Wacp.Model.Authorizer
import Wacp.Model.ProfileStore

/-!
# Handlers of profiles

`console-api/src/routes/profiles.rs` as programs of calls, with the YAML record of
`console-core/src/profile_yaml.rs`. `Edits` is a pool of requests that write, interleaved call by
call.
-/

namespace Wacp.Console.Profiles

open Library Prog

/-! ## Errors and access -/

/-- How a request for profiles fails. A panic ends the request with no answer of its own. -/
inductive ProfileError where
  | console (e : ConsoleError)
  | internal (message : String)
  | panicked
  deriving DecidableEq

def ProfileError.database (e : DbError) : ProfileError := .console (.database e.text)

def ProfileError.notFound (entity id : String) : ProfileError := .console (.notFound entity id)

variable (fmt : Formats) (auth : AuthenticatedUser) (id : String) (profile : ProfileRow)

def checkProfileReadAccess : Except ProfileError Unit :=
  if auth.consoleRole = .admin then .ok ()
  else if profile.ownerUserId = auth.userId then .ok ()
  else if profile.visibility = "shared" then .ok ()
  else .error (.console (.forbidden "You do not have access to this profile"))

def checkProfileWriteAccess : Except ProfileError Unit :=
  if auth.consoleRole = .admin then (authorize auth .editAnyProfile).mapError .console
  else if profile.ownerUserId = auth.userId then
    (authorize auth .editOwnProfile).mapError .console
  else .error (.console (.forbidden "Only the owner or an admin can edit this profile"))

def toValidationError (result : ValidationResult) : ConsoleError :=
  .validation "Profile validation failed"
    (result.violations.map fun v => ⟨v.field, v.code, v.message⟩)
    (result.warnings.map fun w => ⟨none, w.code, w.message⟩)

def getChecked (check : ProfileRow → Except ProfileError Unit) (id : String) :
    Program (Except ProfileError ProfileRow) := do
  match ← perform (Call.getCurrent id) with
  | .error e => return .error (.database e)
  | .ok none => return .error (.notFound "profile" id)
  | .ok (some profile) => return (check profile).map fun _ => profile

def deriveDisplayName (viewerUserId : String) : Program String := do
  if profile.visibility = "shared" ∧ profile.ownerUserId ≠ viewerUserId then
    let owner ← perform (Call.displayName profile.ownerUserId)
    return (owner.toOption.join).getD profile.ownerUserId ++ "'s " ++ profile.name
  else return profile.name

/-! ## Reading -/

structure ListParams where
  (roleRef search : Option String)
  limit : ℤ
  cursor : Option String
  deriving DecidableEq

structure ListedProfile where
  (id name displayName : String)
  description : Option String
  (roleRef roleName : String)
  vertical : Option String
  (autonomy visibility ownerUserId : String)
  version : ℤ
  createdAt : String
  deriving DecidableEq

def listed (index : TaxonomyIndex) (p : ProfileRow) (displayName : String) : ListedProfile where
  id := p.id
  name := p.name
  displayName := displayName
  description := p.description
  roleRef := p.roleRef
  roleName := ((index.getRole p.roleRef).map (·.name)).getD p.roleRef
  vertical := (index.getRole p.roleRef).bind (·.vertical)
  autonomy := p.autonomy
  visibility := p.visibility
  ownerUserId := p.ownerUserId
  version := p.version
  createdAt := p.createdAt

def listRows (index : TaxonomyIndex) (viewerUserId : String) :
    List ProfileRow → Program (List ListedProfile)
  | [] => return []
  | p :: rows => do
      let displayName ← deriveDisplayName p viewerUserId
      let rest ← listRows index viewerUserId rows
      return listed index p displayName :: rest

def listProfiles (params : ListParams) : Program (Except ProfileError (List ListedProfile)) := do
  match authorize auth .listOwnProfiles with
  | .error e => return .error (.console e)
  | .ok () =>
    match ← perform (Call.listVisible ⟨auth.userId, auth.consoleRole == .admin, params.roleRef,
        params.search, params.limit, params.cursor⟩) with
    | .error e => return .error (.database e)
    | .ok rows =>
      let index ← perform Call.taxonomy
      return .ok (← listRows index auth.userId rows)

structure ProfileResponse where
  id : String
  version : ℤ
  (name displayName : String)
  description : Option String
  tags : Option JsonValue
  (roleRef roleName : String)
  vertical : Option String
  (llmProvider llmModel : String)
  llmTemperature : Option Float
  llmMaxTokens : Option ℤ
  autonomy : String
  (toolAllowlist toolDenylist : Option JsonValue)
  (availableTools policyGatedTools : List String)
  (budgetMaxCostMicros budgetMaxTokens budgetMaxWallTimeMs : Option ℤ)
  budgetWarningThreshold : Option Float
  (ownerUserId visibility createdAt : String)

def profileResponse (index : TaxonomyIndex) (profile : ProfileRow) (displayName : String) :
    ProfileResponse :=
  let role := index.getRole profile.roleRef
  let availableTools := (role.map (·.tools)).getD []
  { id := profile.id
    version := profile.version
    name := profile.name
    displayName := displayName
    description := profile.description
    tags := profile.tags.bind fmt.json
    roleRef := profile.roleRef
    roleName := (role.map (·.name)).getD profile.roleRef
    vertical := role.bind (·.vertical)
    llmProvider := profile.llmProvider
    llmModel := profile.llmModel
    llmTemperature := profile.llmTemperature
    llmMaxTokens := profile.llmMaxTokens
    autonomy := profile.autonomy
    toolAllowlist := profile.toolAllowlist.bind fmt.json
    toolDenylist := profile.toolDenylist.bind fmt.json
    availableTools := availableTools
    policyGatedTools := availableTools.filter fun t => (index.getTool t).any (·.hasPolicy)
    budgetMaxCostMicros := profile.budgetMaxCostMicros
    budgetMaxTokens := profile.budgetMaxTokens
    budgetMaxWallTimeMs := profile.budgetMaxWallTimeMs
    budgetWarningThreshold := profile.budgetWarningThreshold
    ownerUserId := profile.ownerUserId
    visibility := profile.visibility
    createdAt := profile.createdAt }

def getProfile : Program (Except ProfileError ProfileResponse) := do
  match ← getChecked (checkProfileReadAccess auth) id with
  | .error e => return .error e
  | .ok profile =>
    let index ← perform Call.taxonomy
    let displayName ← deriveDisplayName profile auth.userId
    return .ok (profileResponse fmt index profile displayName)

structure ListedVersion where
  version : ℤ
  (name roleRef autonomy : String)
  isCurrent : Bool
  createdAt : String
  deriving DecidableEq

def ProfileRow.listedVersion (v : ProfileRow) : ListedVersion :=
  ⟨v.version, v.name, v.roleRef, v.autonomy, v.isCurrent, v.createdAt⟩

/-- Access is checked on the live row; where there is none, nothing is checked. -/
def listVersions (auth : AuthenticatedUser) (id : String) :
    Program (Except ProfileError (List ListedVersion)) := do
  match ← perform (Call.getCurrent id) with
  | .error e => return .error (.database e)
  | .ok current =>
    match (current.map (checkProfileReadAccess auth)).getD (.ok ()) with
    | .error e => return .error e
    | .ok () =>
      match ← perform (Call.listVersions id) with
      | .error e => return .error (.database e)
      | .ok versions => return .ok (versions.map ProfileRow.listedVersion)

/-! ## Export -/

structure LlmConfig where
  (provider model : String)
  temperature : Option Float
  maxTokens : Option ℤ

structure ToolConfig where
  (allow deny : Option (List String))
  deriving DecidableEq

structure BudgetConfig where
  (maxCostMicros maxTokens maxWallTimeMs : Option ℤ)
  warningThreshold : Option Float

structure ProfileData where
  name : String
  description : Option String
  tags : Option (List String)
  role : String
  llm : LlmConfig
  autonomy : String
  tools : Option ToolConfig
  budget : Option BudgetConfig

structure ProfileYaml where
  formatVersion : ℕ
  profile : ProfileData

def profileYaml (row : ProfileRow) : ProfileYaml :=
  let allow := row.toolAllowlist.bind fmt.strings
  let deny := row.toolDenylist.bind fmt.strings
  { formatVersion := 1
    profile :=
      { name := row.name
        description := row.description
        tags := (row.tags.bind fmt.strings).filter fun tags => !tags.isEmpty
        role := row.roleRef
        llm := ⟨row.llmProvider, row.llmModel, row.llmTemperature, row.llmMaxTokens⟩
        autonomy := row.autonomy
        tools := if allow.isSome || deny.isSome then some ⟨allow, deny⟩ else none
        budget :=
          if row.budgetMaxCostMicros.isSome || row.budgetMaxTokens.isSome ||
              row.budgetMaxWallTimeMs.isSome || row.budgetWarningThreshold.isSome then
            some ⟨row.budgetMaxCostMicros, row.budgetMaxTokens, row.budgetMaxWallTimeMs,
              row.budgetWarningThreshold⟩
          else none } }

def exportProfile (fmt : Formats) (yaml : ProfileYaml → Except String String)
    (auth : AuthenticatedUser) (id : String) : Program (Except ProfileError String) := do
  match authorize auth .exportProfile with
  | .error e => return .error (.console e)
  | .ok () =>
    match ← getChecked (checkProfileReadAccess auth) id with
    | .error e => return .error e
    | .ok profile =>
      return (yaml (profileYaml fmt profile)).mapError fun e =>
        .internal ("YAML serialization failed: " ++ e)

/-! ## Writing -/

structure CreateProfileRequest where
  name : String
  description : Option String
  tags : Option (List String)
  (roleRef llmProvider llmModel : String)
  llmTemperature : Option Float
  llmMaxTokens : Option ℤ
  autonomy : String
  (toolAllowlist toolDenylist : Option (List String))
  (budgetMaxCostMicros budgetMaxTokens budgetMaxWallTimeMs : Option ℤ)
  budgetWarningThreshold : Option Float
  visibility : String

variable (body : CreateProfileRequest)

def CreateProfileRequest.row (id : String) (version : ℤ) (ownerUserId now : String) :
    ProfileRow where
  id := id
  version := version
  name := body.name
  description := body.description
  tags := body.tags.map fmt.ofStrings
  roleRef := body.roleRef
  llmProvider := body.llmProvider
  llmModel := body.llmModel
  llmTemperature := body.llmTemperature
  llmMaxTokens := body.llmMaxTokens
  autonomy := body.autonomy
  toolAllowlist := body.toolAllowlist.map fmt.ofStrings
  toolDenylist := body.toolDenylist.map fmt.ofStrings
  budgetMaxCostMicros := body.budgetMaxCostMicros
  budgetMaxTokens := body.budgetMaxTokens
  budgetMaxWallTimeMs := body.budgetMaxWallTimeMs
  budgetWarningThreshold := body.budgetWarningThreshold
  ownerUserId := ownerUserId
  visibility := body.visibility
  isCurrent := true
  createdAt := now
  deletedAt := none

def CreateProfileRequest.input (ownerUserId : String) (excludeId : Option String) :
    ProfileInput where
  name := body.name
  tags := body.tags.map fmt.ofStrings
  roleRef := body.roleRef
  llmProvider := body.llmProvider
  llmModel := body.llmModel
  llmTemperature := body.llmTemperature
  llmMaxTokens := body.llmMaxTokens
  autonomy := body.autonomy
  toolAllowlist := body.toolAllowlist.map fmt.ofStrings
  toolDenylist := body.toolDenylist.map fmt.ofStrings
  budgetMaxCostMicros := body.budgetMaxCostMicros
  budgetMaxTokens := body.budgetMaxTokens
  budgetMaxWallTimeMs := body.budgetMaxWallTimeMs
  budgetWarningThreshold := body.budgetWarningThreshold
  visibility := body.visibility
  ownerUserId := ownerUserId
  excludeId := excludeId

def ProfileRow.cloneInput (source : ProfileRow) (newName userId : String) : ProfileInput where
  name := newName
  tags := source.tags
  roleRef := source.roleRef
  llmProvider := source.llmProvider
  llmModel := source.llmModel
  llmTemperature := source.llmTemperature
  llmMaxTokens := source.llmMaxTokens
  autonomy := source.autonomy
  toolAllowlist := source.toolAllowlist
  toolDenylist := source.toolDenylist
  budgetMaxCostMicros := source.budgetMaxCostMicros
  budgetMaxTokens := source.budgetMaxTokens
  budgetMaxWallTimeMs := source.budgetMaxWallTimeMs
  budgetWarningThreshold := source.budgetWarningThreshold
  visibility := "private"
  ownerUserId := userId
  excludeId := none

/-- The index is read, then the names in the database; a profile that passes gives its warnings. -/
def validated (input : ProfileInput) : Program (Except ProfileError (List ValidationWarning)) := do
  let index ← perform Call.taxonomy
  let nameExists ←
    perform (Call.nameExistsForUser input.name input.ownerUserId input.excludeId)
  match validateProfile fmt input index nameExists with
  | none => return .error .panicked
  | some validation =>
    if validation.isValid then return .ok validation.warnings
    else return .error (.console (toValidationError validation))

structure CreatedProfile where
  id : String
  version : ℤ
  warnings : List ValidationWarning
  deriving DecidableEq

def createProfile (fmt : Formats) (auth : AuthenticatedUser) (body : CreateProfileRequest) :
    Program (Except ProfileError CreatedProfile) := do
  match authorize auth .createProfile with
  | .error e => return .error (.console e)
  | .ok () =>
    match ← validated fmt (body.input fmt auth.userId none) with
    | .error e => return .error e
    | .ok warnings =>
      let id ← perform Call.newId
      let now ← perform Call.now
      match ← perform (Call.insertProfile (body.row fmt id 1 auth.userId now)) with
      | .error e => return .error (.database e)
      | .ok () => return .ok ⟨id, 1, warnings⟩

/-- Two statements, although the comment in the source asks for a transaction. -/
def createNewVersion (newRow : ProfileRow) : Program (Except DbError Unit) := do
  match ← perform (Call.unsetCurrent id) with
  | .error e => return .error e
  | .ok () => perform (Call.insertProfile newRow)

def updateProfile : Program (Except ProfileError (ℤ × List ValidationWarning)) := do
  match ← getChecked (checkProfileWriteAccess auth) id with
  | .error e => return .error e
  | .ok current =>
    match ← validated fmt (body.input fmt current.ownerUserId (some id)) with
    | .error e => return .error e
    | .ok warnings =>
      let now ← perform Call.now
      let newRow := body.row fmt id (current.version + 1) current.ownerUserId now
      match ← createNewVersion id newRow with
      | .error e => return .error (.database e)
      | .ok () => return .ok (current.version + 1, warnings)

def deleteProfile : Program (Except ProfileError (List String)) := do
  match ← getChecked (checkProfileWriteAccess auth) id with
  | .error e => return .error e
  | .ok _ =>
    let now ← perform Call.now
    match ← perform (Call.softDelete id now) with
    | .error e => return .error (.database e)
    | .ok _ =>
      let affected ← perform (Call.findActiveSessionsForProfile id)
      return .ok (affected.toOption.getD [])

/-- The content of `target`; owner and visibility are those of `current`. -/
def ProfileRow.rolledBack (current target : ProfileRow) (id now : String) : ProfileRow :=
  { target with
    id := id
    version := current.version + 1
    ownerUserId := current.ownerUserId
    visibility := current.visibility
    isCurrent := true
    createdAt := now
    deletedAt := none }

def rollback (version : ℤ) : Program (Except ProfileError ℤ) := do
  match ← getChecked (checkProfileWriteAccess auth) id with
  | .error e => return .error e
  | .ok current =>
    match ← perform (Call.getVersion id version) with
    | .error e => return .error (.database e)
    | .ok none => return .error (.notFound "profile_version" (id ++ "@v" ++ toString version))
    | .ok (some target) =>
      let now ← perform Call.now
      match ← createNewVersion id (current.rolledBack target id now) with
      | .error e => return .error (.database e)
      | .ok () => return .ok (current.version + 1)

def ProfileRow.cloned (source : ProfileRow) (newId newName userId now : String) : ProfileRow :=
  { source with
    id := newId
    version := 1
    name := newName
    ownerUserId := userId
    visibility := "private"
    isCurrent := true
    createdAt := now
    deletedAt := none }

def cloneProfile : Program (Except ProfileError CreatedProfile) := do
  match authorize auth .createProfile with
  | .error e => return .error (.console e)
  | .ok () =>
    match ← getChecked (checkProfileReadAccess auth) id with
    | .error e => return .error e
    | .ok source =>
      let newId ← perform Call.newId
      let newName := source.name ++ " (copy)"
      let now ← perform Call.now
      match ← validated fmt (source.cloneInput newName auth.userId) with
      | .error e => return .error e
      | .ok warnings =>
        match ← perform
            (Call.insertProfile (source.cloned newId newName auth.userId now)) with
        | .error e => return .error (.database e)
        | .ok () => return .ok ⟨newId, 1, warnings⟩

/-! ## Requests that read -/

inductive ReadRequest where
  | list (params : ListParams)
  | get (id : String)
  | versions (id : String)
  | exportYaml (id : String)
  | clone (id : String)

inductive ReadResponse where
  | list (profiles : List ListedProfile)
  | profile (p : ProfileResponse)
  | versions (versions : List ListedVersion)
  | yaml (text : String)
  | created (p : CreatedProfile)

def ReadRequest.program (yaml : ProfileYaml → Except String String) (auth : AuthenticatedUser) :
    ReadRequest → Program (Except ProfileError ReadResponse)
  | .list params => do return (← listProfiles auth params).map .list
  | .get id => do return (← getProfile fmt auth id).map .profile
  | .versions id => do return (← Profiles.listVersions auth id).map .versions
  | .exportYaml id => do return (← exportProfile fmt yaml auth id).map .yaml
  | .clone id => do return (← cloneProfile fmt auth id).map .created

/-! ## Concurrent edits -/

inductive EditRequest where
  | create (body : CreateProfileRequest)
  | update (id : String) (body : CreateProfileRequest)
  | rollback (id : String) (version : ℤ)
  | clone (id : String)
  | delete (id : String)

def EditRequest.program : EditRequest → Program Unit
  | .create body => do let _ ← createProfile fmt auth body
  | .update id body => do let _ ← updateProfile fmt auth id body
  | .rollback id version => do let _ ← Profiles.rollback auth id version
  | .clone id => do let _ ← cloneProfile fmt auth id
  | .delete id => do let _ ← deleteProfile auth id

abbrev Edits := Pool Call Reply ProfileTable Unit

namespace Edits

inductive Label where
  | request (auth : AuthenticatedUser) (r : EditRequest)
  | call (request : ℕ) (o : Outside)

def new (t : ProfileTable) : Edits := { shared := t, processes := [], history := [] }

def apply (fmt : Formats) (s : Edits) : Label → Option Edits
  | .request auth r => some (s.start (r.program fmt auth))
  | .call request o => s.advance exec (fun _ _ => []) request o

def Step (fmt : Formats) (s : Edits) (label : Label) (s' : Edits) : Prop :=
  s.apply fmt label = some s'

end Edits

end Wacp.Console.Profiles
