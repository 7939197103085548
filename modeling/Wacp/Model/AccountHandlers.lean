import Wacp.Model.UserStore

/-!
# Accounts of the console: authentication and handlers

The authenticator and the rate limit of logins (`console-core/src/authenticator.rs`,
`rate_limit.rs`) and the handlers of `routes/auth.rs`, `tokens.rs` and `users.rs` that read or write
credentials, as programs of the calls of `UserStore`. SHA-256 of a token, as text, is the parameter
`hashToken`.
-/

namespace Wacp.Console.Accounts

open Library Prog

/-- An UPDATE whose failure is the error of the request, and whose count of rows is not looked
at. -/
def orDatabaseError (update : Program (Except DbError Bool)) :
    Program (Except AccountError Unit) := do
  match ← update with
  | .error e => return .error (.database e)
  | .ok _ => return .ok ()

/-! ## Authentication (authenticator.rs, middleware.rs) -/

section Authentication

variable (hashToken : String → String)

def activeUser (userId : String) : Program (Except AccountError AuthenticatedUser) := do
  match ← perform (Call.getById userId) with
  | .error e => return .error (.database e)
  | .ok none => return .error .unauthenticated
  | .ok (some user) =>
    if user.disabledAt.isSome then return .error .unauthenticated
    else return .ok ⟨user.id, user.username, user.consoleRole⟩

def authenticateCookieAllowPendingChange (cookieValue : String) :
    Program (Except AccountError AuthenticatedUser) := do
  let now ← perform Call.now
  match ← perform (Call.getByTokenHash (hashToken cookieValue) now) with
  | .error e => return .error (.database e)
  | .ok none => return .error .unauthenticated
  | .ok (some session) => activeUser session.userId

def authenticateCookie (cookieValue : String) :
    Program (Except AccountError AuthenticatedUser) := do
  match ← authenticateCookieAllowPendingChange hashToken cookieValue with
  | .error e => return .error e
  | .ok user =>
    match ← perform (Call.getById user.userId) with
    | .error e => return .error (.database e)
    | .ok none => return .error .unauthenticated
    | .ok (some userRow) =>
      if userRow.mustChangePassword then return .error .passwordChangeRequired
      else return .ok user

def authenticateBearer (token : String) : Program (Except AccountError AuthenticatedUser) := do
  if !"wcon_t_".toList.isPrefixOf token.toList then return .error .unauthenticated
  else
    let now ← perform Call.now
    match ← perform (Call.getTokenByHash (hashToken token) now) with
    | .error e => return .error (.database e)
    | .ok none => return .error .unauthenticated
    | .ok (some apiToken) => activeUser apiToken.userId

structure Credentials where
  (bearer cookie : Option String)
  deriving DecidableEq

def authenticate (credentials : Credentials) : Program (Except AccountError AuthenticatedUser) :=
  match credentials.bearer, credentials.cookie with
  | some token, _ => authenticateBearer hashToken token
  | none, some cookieValue => authenticateCookie hashToken cookieValue
  | none, none => return .error .unauthenticated

/-- The extractor `AuthAllowPendingChange` of the change-password handler. -/
def authenticateAllowPendingChange (credentials : Credentials) :
    Program (Except AccountError AuthenticatedUser) :=
  match credentials.cookie with
  | none => return .error .unauthenticated
  | some cookieValue => authenticateCookieAllowPendingChange hashToken cookieValue

/-! ## Login (rate_limit.rs, routes/auth.rs) -/

def minute : ℤ := 60 * 1000000000

def maxFailedPerIp : ℕ := 20

def maxFailedPerAccount : ℕ := 5

def window : ℤ := 15 * minute

variable (auth : AuthenticatedUser) (ip : String)

def checkLoginRateLimit (username : String) : Program (Except AccountError Unit) := do
  let now ← perform Call.now
  let windowStart := now - window
  match ← perform (Call.countFailedByIp ip windowStart) with
  | .error e => return .error (.database e)
  | .ok ipCount =>
    if maxFailedPerIp ≤ ipCount then return .error .rateLimited
    else
      match ← perform (Call.countFailedByUsername username windowStart) with
      | .error e => return .error (.database e)
      | .ok accountCount =>
        if maxFailedPerAccount ≤ accountCount then return .error .accountLocked
        else return .ok ()

def recordLoginAttempt (username : String) (success : Bool) : Program Unit := do
  let now ← perform Call.now
  let _ ← perform (Call.recordAttempt ⟨ip, username, now, success⟩)
  return ()

structure LoginRequest where
  (username password : String)
  deriving DecidableEq

structure LoginResponse where
  (cookie userId username : String)
  consoleRole : ConsoleRole
  mustChangePassword : Bool
  deriving DecidableEq

/-- The password was right: the old sessions go, a new one is entered. -/
def openSession (body : LoginRequest) (user : UserRow) :
    Program (Except AccountError LoginResponse) := do
  recordLoginAttempt ip body.username true
  let _ ← perform (Call.deleteUserSessions user.id)
  let sessionToken ← perform Call.randomText
  let now ← perform Call.now
  match ← perform (Call.insertSession
      ⟨user.id, hashToken sessionToken, now + 24 * 60 * minute⟩) with
  | .error e => return .error (.database e)
  | .ok () =>
    return .ok ⟨sessionToken, user.id, user.username, user.consoleRole, user.mustChangePassword⟩

def login (body : LoginRequest) : Program (Except AccountError LoginResponse) := do
  match ← checkLoginRateLimit ip body.username with
  | .error e => return .error e
  | .ok () =>
    match ← perform (Call.getByUsername body.username) with
    | .error e => return .error (.database e)
    | .ok none =>
      recordLoginAttempt ip body.username false
      return .error .unauthenticated
    | .ok (some user) =>
      if user.disabledAt.isSome then
        recordLoginAttempt ip body.username false
        return .error .unauthenticated
      else
        match ← perform (Call.verifyPassword user.id body.password user.passwordHash) with
        | .error e => return .error e
        | .ok false =>
          recordLoginAttempt ip body.username false
          return .error .unauthenticated
        | .ok true => openSession hashToken ip body user

/-! ## The own account (routes/auth.rs, routes/tokens.rs) -/

def logout : Program (Except AccountError Unit) := do
  let _ ← perform (Call.deleteUserSessions auth.userId)
  return .ok ()

def validatePasswordStrength (password : String) : Except AccountError Unit :=
  if password.utf8ByteSize < 12 then
    .error (.passwordTooWeak "Password must be at least 12 characters")
  else .ok ()

structure ChangePasswordRequest where
  (currentPassword newPassword : String)
  deriving DecidableEq

def changePassword (body : ChangePasswordRequest) : Program (Except AccountError Unit) := do
  match ← perform (Call.getById auth.userId) with
  | .error e => return .error (.database e)
  | .ok none => return .error .unauthenticated
  | .ok (some user) =>
    match ← perform (Call.verifyPassword user.id body.currentPassword user.passwordHash) with
    | .error e => return .error e
    | .ok false => return .error .unauthenticated
    | .ok true =>
      match validatePasswordStrength body.newPassword with
      | .error e => return .error e
      | .ok () =>
        match ← perform (Call.hashPassword body.newPassword) with
        | .error e => return .error e
        | .ok newHash =>
          orDatabaseError (perform (Call.updatePassword auth.userId newHash))

structure CreateTokenResponse where
  (id name token : String)
  expiresAt : Option ℤ
  deriving DecidableEq

def createToken (name : String) (expiresInDays : Option ℤ) :
    Program (Except AccountError CreateTokenResponse) := do
  match authorize auth .createOwnToken with
  | .error e => return .error (.console e)
  | .ok () =>
    let rawToken := "wcon_t_" ++ (← perform Call.randomText)
    let id ← perform Call.newId
    let now ← perform Call.now
    let expiresAt := expiresInDays.map fun d => now + d * (24 * 60 * minute)
    match ← perform (Call.insertToken
        ⟨id, auth.userId, name, hashToken rawToken, expiresAt, none⟩) with
    | .error e => return .error (.database e)
    | .ok () => return .ok ⟨id, name, rawToken, expiresAt⟩

end Authentication

variable (auth : AuthenticatedUser) (id : String)

def markRevoked : Program (Except AccountError Unit) := do
  let now ← perform Call.now
  orDatabaseError (perform (Call.revokeToken id now))

def revokeToken : Program (Except AccountError Unit) := do
  match ← perform (Call.getToken id) with
  | .error e => return .error (.database e)
  | .ok none => return .error (.notFound "token" id)
  | .ok (some token) =>
    match authorize auth
        (if token.userId = auth.userId then .revokeOwnToken else .manageAnyTokens) with
    | .error e => return .error (.console e)
    | .ok () => markRevoked id

def revokeUserToken : Program (Except AccountError Unit) := do
  match authorize auth .manageAnyTokens with
  | .error e => return .error (.console e)
  | .ok () => markRevoked id

/-! ## Other accounts (routes/users.rs) -/

structure UpdateUserRequest where
  consoleRole : Option String
  disabled : Option Bool
  deriving DecidableEq

/-- Whether the statement is reached is decided on the user as they are now, and for one whose
update takes an admin away, on the number of active admins. -/
def guardLastAdmin (takesAdmin : UserRow → Bool) (update : Program (Except DbError Bool)) :
    Program (Except AccountError Unit) := do
  match ← perform (Call.getById id) with
  | .error e => return .error (.database e)
  | .ok none => return .error (.notFound "user" id)
  | .ok (some user) =>
    if takesAdmin user then
      match ← perform Call.countActiveAdmins with
      | .error e => return .error (.database e)
      | .ok adminCount =>
        if adminCount ≤ 1 then return .error .lastAdmin else orDatabaseError update
    else orDatabaseError update

def changeRole (role : String) : Program (Except AccountError Unit) := do
  match authorize auth .changeUserRole with
  | .error e => return .error (.console e)
  | .ok () =>
    guardLastAdmin id (fun user => user.consoleRole == .admin && role != "admin")
      (perform (Call.updateRole id role))

def setDisabled (now : ℤ) : Option Bool → Program (Except AccountError Unit)
  | none => return .ok ()
  | some disabled => do
      match authorize auth .disableUser with
      | .error e => return .error (.console e)
      | .ok () =>
        if disabled then
          guardLastAdmin id (fun user => user.consoleRole == .admin)
            (perform (Call.disableUser id now))
        else orDatabaseError (perform (Call.enableUser id))

def updateUser (body : UpdateUserRequest) : Program (Except AccountError Unit) := do
  let now ← perform Call.now
  match body.consoleRole with
  | none => setDisabled auth id now body.disabled
  | some role =>
    match ← changeRole auth id role with
    | .error e => return .error e
    | .ok () => setDisabled auth id now body.disabled

def resetPassword : Program (Except AccountError Unit) := do
  match authorize auth .resetUserPassword with
  | .error e => return .error (.console e)
  | .ok () => orDatabaseError (perform (Call.setMustChangePassword id))

def unlockUser : Program (Except AccountError Unit) := do
  match authorize auth .disableUser with
  | .error e => return .error (.console e)
  | .ok () =>
    match ← perform (Call.getById id) with
    | .error e => return .error (.database e)
    | .ok none => return .error (.notFound "user" id)
    | .ok (some user) =>
      let _ ← perform (Call.clearForUsername user.username)
      return .ok ()

/-! ## Concurrent updates of users -/

abbrev UserUpdates := Pool Call Reply Data (Except AccountError Unit)

namespace UserUpdates

inductive Label where
  | request (auth : AuthenticatedUser) (id : String) (body : UpdateUserRequest)
  | call (request : ℕ) (o : Outside)

def new (d : Data) : UserUpdates := { shared := d, processes := [], history := [] }

def apply (s : UserUpdates) : Label → Option UserUpdates
  | .request auth id body => some (s.start (updateUser auth id body))
  | .call request o => s.advance exec (fun _ _ => []) request o

def Step (s : UserUpdates) (label : Label) (s' : UserUpdates) : Prop := s.apply label = some s'

end UserUpdates

end Wacp.Console.Accounts
