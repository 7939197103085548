import Wacp.Model.SessionHandlers

/-!
# Users of the console and what their role allows

`console-core/src/auth.rs` and `authorizer.rs`: the three roles, the identity of a request and the
matrix of actions. `Auth` is what the session handlers read of an `AuthenticatedUser`.
-/

namespace Wacp.Console

inductive ConsoleRole where
  | admin | operator | viewer
  deriving DecidableEq

def ConsoleRole.text : ConsoleRole → String
  | .admin => "admin"
  | .operator => "operator"
  | .viewer => "viewer"

def ConsoleRole.fromStr (s : String) : Except String ConsoleRole :=
  if s = "admin" then .ok .admin
  else if s = "operator" then .ok .operator
  else if s = "viewer" then .ok .viewer
  else .error ("unknown console role: " ++ s)

structure AuthenticatedUser where
  (userId username : String)
  consoleRole : ConsoleRole
  deriving DecidableEq

def AuthenticatedUser.auth (user : AuthenticatedUser) : Auth :=
  { userId := user.userId, isAdmin := user.consoleRole == .admin }

inductive Action where
  | browseTaxonomy | reloadTaxonomy
  | listOwnProfiles | listAllProfiles | viewOwnProfile | viewAnyProfile | createProfile
  | editOwnProfile | editAnyProfile | deleteOwnProfile | deleteAnyProfile | exportProfile
  | importProfile
  | listOwnSessions | listAllSessions | viewOwnOversight | viewAnyOversight | createSession
  | cancelOwnSession | cancelAnySession | approveOwnGates | approveAnyGates
  | handleOwnEscalations | handleAnyEscalations | injectOwnDirectives | injectAnyDirectives
  | listUsers | createUser | disableUser | changeUserRole | resetUserPassword
  | listOwnTokens | createOwnToken | revokeOwnToken | manageAnyTokens
  | viewAuditLog | viewSettings | modifySettings
  deriving DecidableEq

def Action.debug : Action → String
  | .browseTaxonomy => "BrowseTaxonomy"
  | .reloadTaxonomy => "ReloadTaxonomy"
  | .listOwnProfiles => "ListOwnProfiles"
  | .listAllProfiles => "ListAllProfiles"
  | .viewOwnProfile => "ViewOwnProfile"
  | .viewAnyProfile => "ViewAnyProfile"
  | .createProfile => "CreateProfile"
  | .editOwnProfile => "EditOwnProfile"
  | .editAnyProfile => "EditAnyProfile"
  | .deleteOwnProfile => "DeleteOwnProfile"
  | .deleteAnyProfile => "DeleteAnyProfile"
  | .exportProfile => "ExportProfile"
  | .importProfile => "ImportProfile"
  | .listOwnSessions => "ListOwnSessions"
  | .listAllSessions => "ListAllSessions"
  | .viewOwnOversight => "ViewOwnOversight"
  | .viewAnyOversight => "ViewAnyOversight"
  | .createSession => "CreateSession"
  | .cancelOwnSession => "CancelOwnSession"
  | .cancelAnySession => "CancelAnySession"
  | .approveOwnGates => "ApproveOwnGates"
  | .approveAnyGates => "ApproveAnyGates"
  | .handleOwnEscalations => "HandleOwnEscalations"
  | .handleAnyEscalations => "HandleAnyEscalations"
  | .injectOwnDirectives => "InjectOwnDirectives"
  | .injectAnyDirectives => "InjectAnyDirectives"
  | .listUsers => "ListUsers"
  | .createUser => "CreateUser"
  | .disableUser => "DisableUser"
  | .changeUserRole => "ChangeUserRole"
  | .resetUserPassword => "ResetUserPassword"
  | .listOwnTokens => "ListOwnTokens"
  | .createOwnToken => "CreateOwnToken"
  | .revokeOwnToken => "RevokeOwnToken"
  | .manageAnyTokens => "ManageAnyTokens"
  | .viewAuditLog => "ViewAuditLog"
  | .viewSettings => "ViewSettings"
  | .modifySettings => "ModifySettings"

def isAllowed (role : ConsoleRole) : Action → Bool
  -- everyone
  | .browseTaxonomy | .listOwnProfiles | .viewOwnProfile | .exportProfile | .listOwnSessions
  | .viewOwnOversight | .listOwnTokens => true
  -- operators and admins
  | .createProfile | .editOwnProfile | .deleteOwnProfile | .importProfile | .createSession
  | .cancelOwnSession | .approveOwnGates | .handleOwnEscalations | .injectOwnDirectives
  | .createOwnToken | .revokeOwnToken | .viewSettings | .reloadTaxonomy =>
    role == .operator || role == .admin
  -- admins only
  | .listAllProfiles | .viewAnyProfile | .editAnyProfile | .deleteAnyProfile | .listAllSessions
  | .viewAnyOversight | .cancelAnySession | .approveAnyGates | .handleAnyEscalations
  | .injectAnyDirectives | .listUsers | .createUser | .disableUser | .changeUserRole
  | .resetUserPassword | .manageAnyTokens | .viewAuditLog | .modifySettings => role == .admin

def authorize (user : AuthenticatedUser) (action : Action) : Except ConsoleError Unit :=
  if isAllowed user.consoleRole action then .ok ()
  else .error (.forbidden (user.consoleRole.text ++ " cannot perform " ++ action.debug))

def authorizeOwned (user : AuthenticatedUser) (ownAction anyAction : Action)
    (resourceOwnerId : String) : Except ConsoleError Unit :=
  if user.userId = resourceOwnerId then authorize user ownAction else authorize user anyAction

end Wacp.Console
