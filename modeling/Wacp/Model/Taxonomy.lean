import Mathlib.Data.List.Infix
import Wacp.Library.Loops
import Wacp.Model.Types

/-!
# Loading a taxonomy

`wacp-taxonomy/src/loader.rs`: a parsed definition is validated in twelve steps up to the first
error, and the tables of the permission engine are built from it. The order in which loops visit a
map is an argument. `none` is the panic of `unreachable!`.
-/

namespace Wacp

open Library

/-! ## Definitions -/

structure RoleDefinition where
  (name extendsRole : String)
  (add remove : List String)
  checkpointTypes : Option (List String)
  deriving DecidableEq

structure EnvelopePermission where
  (senderRole receiverRole : String)
  deriving DecidableEq

structure EnvelopeTypeDefinition where
  name : String
  permissions : List EnvelopePermission
  deriving DecidableEq

structure CheckpointTypeDefinition where
  name : String
  permittedRoles : List String
  deriving DecidableEq

structure TaxonomyDefinition where
  (id version protocolVersion : String)
  roles : List RoleDefinition
  envelopeTypes : List EnvelopeTypeDefinition
  checkpointTypes : List CheckpointTypeDefinition
  deriving DecidableEq

inductive TaxonomyError where
  | parseError (message : String)
  | protocolVersionMismatch (expected found : String)
  | duplicateRoleName (name : String)
  | duplicateEnvelopeType (name : String)
  | duplicateCheckpointType (name : String)
  | baseNameCollision (name : String)
  | invalidInheritance (role extendsRole : String)
  | privilegeEscalation (role capability : String)
  | crossRegistryMissing (role reference : String)
  | envelopeRoleNotFound (envelopeType role : String)
  | checkpointRoleNotFound (checkpointType role : String)
  | emptyPermissions (name : String)
  | emptyRoleList (name : String)
  deriving DecidableEq

structure ResolvedRole where
  name : String
  base : BaseRole
  (capabilities checkpointTypes : Finset String)
  deriving DecidableEq

structure EnvelopePermissionRow where
  (senderRole envelopeType receiverRole : String)
  deriving DecidableEq

structure Taxonomy where
  (id version protocolVersion : String)
  resolvedRoles : Table String ResolvedRole
  envelopeTypes : Finset String
  envelopePermissions : List EnvelopePermissionRow
  checkpointTypes : Table String (Finset String)
  deriving DecidableEq

/-! ## Base names and defaults -/

def baseRoles : List String := ["coordinator", "worker", "observer"]

def baseEnvelopeTypes : List String := ["directive", "feedback", "query"]

def baseCheckpointTypes : List String := ["artifact", "observation"]

def coordinatorCapabilities : List String :=
  ["create_workspace", "perform_integration", "manage_budgets", "abort_workspace",
    "assign_roles"]

def baseCapabilities : BaseRole → Finset String
  | .worker => {"send: query → coordinator", "create: artifact"}
  | .observer => {"create: observation"}
  | .coordinator => ∅

def defaultCheckpointTypes : BaseRole → Finset String
  | .worker => {"artifact"}
  | .observer => {"observation"}
  | .coordinator => ∅

def basePermissionRows : List EnvelopePermissionRow :=
  [{ senderRole := "coordinator", envelopeType := "directive", receiverRole := "worker" },
    { senderRole := "coordinator", envelopeType := "feedback", receiverRole := "worker" },
    { senderRole := "worker", envelopeType := "query", receiverRole := "coordinator" }]

namespace TaxonomyDefinition

/-! ## Validation -/

def containsText (text part : String) : Bool := decide (part.toList <:+: text.toList)

variable (d : TaxonomyDefinition)

def checkVersion (protocolVersion : String) : Except TaxonomyError Unit :=
  if d.protocolVersion ≠ protocolVersion then
    .error (.protocolVersionMismatch protocolVersion d.protocolVersion)
  else .ok ()

def checkNotBase (base : List String) (name : String) : Except TaxonomyError Unit :=
  if name ∈ base then .error (.baseNameCollision name) else .ok ()

def isKnownRole (name : String) : Bool :=
  decide (name ∈ baseRoles) || decide (name ∈ d.roles.map (·.name))

variable (role : RoleDefinition)

def checkInheritance : Except TaxonomyError Unit :=
  if role.extendsRole = "worker" ∨ role.extendsRole = "observer" then .ok ()
  else .error (.invalidInheritance role.name role.extendsRole)

def checkPrivileges : Except TaxonomyError Unit :=
  role.add.forM fun cap => coordinatorCapabilities.forM fun coordCap =>
    if containsText cap coordCap then .error (.privilegeEscalation role.name cap) else .ok ()

def checkOverrides : Except TaxonomyError Unit :=
  match role.checkpointTypes with
  | none => .ok ()
  | some overrides => overrides.forM fun name =>
    if name ∉ baseCheckpointTypes ∧ name ∉ d.checkpointTypes.map (·.name) then
      .error (.crossRegistryMissing role.name name)
    else .ok ()

def checkEnvelopeRoles (et : EnvelopeTypeDefinition) : Except TaxonomyError Unit :=
  if et.permissions = [] then .error (.emptyPermissions et.name)
  else et.permissions.forM fun perm =>
    if d.isKnownRole perm.senderRole = false then
      .error (.envelopeRoleNotFound et.name perm.senderRole)
    else if d.isKnownRole perm.receiverRole = false then
      .error (.envelopeRoleNotFound et.name perm.receiverRole)
    else .ok ()

def checkCheckpointRoles (ct : CheckpointTypeDefinition) : Except TaxonomyError Unit :=
  if ct.permittedRoles = [] then .error (.emptyRoleList ct.name)
  else ct.permittedRoles.forM fun name =>
    if d.isKnownRole name = false then .error (.checkpointRoleNotFound ct.name name) else .ok ()

def validate (protocolVersion : String) : Except TaxonomyError Unit := do
  d.checkVersion protocolVersion
  checkUnique .duplicateRoleName [] (d.roles.map (·.name))
  (d.roles.map (·.name)).forM (checkNotBase baseRoles)
  checkUnique .duplicateEnvelopeType [] (d.envelopeTypes.map (·.name))
  (d.envelopeTypes.map (·.name)).forM (checkNotBase baseEnvelopeTypes)
  checkUnique .duplicateCheckpointType [] (d.checkpointTypes.map (·.name))
  (d.checkpointTypes.map (·.name)).forM (checkNotBase baseCheckpointTypes)
  d.roles.forM checkInheritance
  d.roles.forM checkPrivileges
  d.roles.forM d.checkOverrides
  d.envelopeTypes.forM d.checkEnvelopeRoles
  d.checkpointTypes.forM d.checkCheckpointRoles

/-! ## Building -/

def extendedBase : Option BaseRole :=
  if role.extendsRole = "worker" then some .worker
  else if role.extendsRole = "observer" then some .observer
  else none

def resolveRole : Option ResolvedRole :=
  (extendedBase role).map fun base =>
    let kept := role.remove.foldl (fun caps cap => caps.erase cap) (baseCapabilities base)
    { name := role.name
      base := base
      capabilities := role.add.foldl (fun caps cap => insert cap caps) kept
      checkpointTypes :=
        match role.checkpointTypes with
        | some overrides => overrides.foldl (fun types name => insert name types) ∅
        | none => defaultCheckpointTypes base }

def resolveRoles (roles : List RoleDefinition) : Option (Table String ResolvedRole) :=
  roles.foldlM (fun resolved role => (resolveRole role).map fun r => resolved.set role.name r) ∅

/-- The base rows, and a row for each permission of each envelope type. -/
def permissionRows : List EnvelopePermissionRow :=
  d.envelopeTypes.foldl (fun rows et => et.permissions.foldl (fun rows perm => rows ++
      [{ senderRole := perm.senderRole, envelopeType := et.name,
         receiverRole := perm.receiverRole }]) rows)
    basePermissionRows

def typeTable : Table String (Finset String) :=
  d.checkpointTypes.foldl
    (fun table ct => table.set ct.name
      (ct.permittedRoles.foldl (fun roles name => insert name roles) ∅))
    (((∅ : Table String (Finset String)).set "artifact" {"worker"}).set "observation" {"observer"})

end TaxonomyDefinition

/-- The orders in which a loop over resolved roles visits the roles and the checkpoint types of
each. -/
structure RoleOrder where
  roles : List (String × ResolvedRole)
  types : String → List String

structure RoleOrder.Visits (order : RoleOrder) (resolved : Table String ResolvedRole) : Prop where
  roles : Table.Enumerates order.roles resolved
  nodup : ∀ name role, resolved.get name = some role → (order.types name).Nodup
  types : ∀ name role, resolved.get name = some role →
    ∀ checkpointType, checkpointType ∈ order.types name ↔ checkpointType ∈ role.checkpointTypes

namespace Taxonomy

def addOverrides (order : RoleOrder) (table : Table String (Finset String)) :
    Table String (Finset String) :=
  order.roles.foldl (fun table entry => (order.types entry.1).foldl
    (fun table checkpointType => table.insertInto checkpointType entry.2.name) table) table

def load (order : RoleOrder) (d : TaxonomyDefinition) (protocolVersion : String) :
    Option (Except TaxonomyError Taxonomy) :=
  match d.validate protocolVersion with
  | .error e => some (.error e)
  | .ok _ => (TaxonomyDefinition.resolveRoles d.roles).map fun resolved => .ok
    { id := d.id, version := d.version, protocolVersion := d.protocolVersion
      resolvedRoles := resolved
      envelopeTypes := d.envelopeTypes.foldl (fun types et => insert et.name types)
        baseEnvelopeTypes.toFinset
      envelopePermissions := d.permissionRows
      checkpointTypes := addOverrides order d.typeTable }

end Taxonomy

end Wacp
