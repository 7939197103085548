import Wacp.Library.Rows
import Wacp.Model.Authorizer

/-!
# Accounts of the console: rows and calls

The tables `users`, `user_sessions`, `api_tokens` and `login_attempts` (`migrations/002` to `004`
and `009`) and their statements (`console-db/src/queries`). A unique column is a field of the table.
A statement fails and changes nothing, or is carried out on the rows of that moment. `Outside` (the
time, a random token, Argon2) may be different at every call. Times are nanoseconds; the source
stores RFC 3339 texts in UTC, ordered as the times are.
-/

namespace Wacp.Console.Accounts

open Library List

/-! ## Errors -/

/-- The errors of accounts, besides those of the session handlers. -/
inductive AccountError where
  | console (e : ConsoleError)
  | unauthenticated
  | accountLocked
  | passwordChangeRequired
  | passwordTooWeak (message : String)
  | lastAdmin
  | rateLimited
  | internal (message : String)
  deriving DecidableEq

def AccountError.database (e : DbError) : AccountError := .console (.database e.text)

def AccountError.notFound (entity id : String) : AccountError := .console (.notFound entity id)

/-! ## Users -/

def sqlLower (s : String) : String := String.ofList (s.toList.map Char.toLower)

structure UserRow where
  (id username usernameLower displayName passwordHash : String)
  consoleRole : ConsoleRole
  mustChangePassword : Bool
  disabledAt : Option ℤ
  deriving DecidableEq

def UserRow.isActiveAdmin (u : UserRow) : Bool :=
  u.consoleRole == .admin && u.disabledAt.isNone

structure UserEdit where
  apply : UserRow → UserRow
  id : ∀ u, (apply u).id = u.id
  username : ∀ u, (apply u).username = u.username
  usernameLower : ∀ u, (apply u).usernameLower = u.usernameLower

namespace UserEdit

def role (consoleRole : ConsoleRole) : UserEdit :=
  ⟨fun u => { u with consoleRole := consoleRole }, fun _ => rfl, fun _ => rfl, fun _ => rfl⟩

def disabledAt (at_ : Option ℤ) : UserEdit :=
  ⟨fun u => { u with disabledAt := at_ }, fun _ => rfl, fun _ => rfl, fun _ => rfl⟩

def mustChangePassword : UserEdit :=
  ⟨fun u => { u with mustChangePassword := true }, fun _ => rfl, fun _ => rfl, fun _ => rfl⟩

def password (passwordHash : String) : UserEdit :=
  ⟨fun u => { u with passwordHash := passwordHash, mustChangePassword := false },
    fun _ => rfl, fun _ => rfl, fun _ => rfl⟩

end UserEdit

structure Users where
  rows : List UserRow
  ids : (rows.map (·.id)).Nodup
  names : (rows.map (·.usernameLower)).Nodup
  lower : ∀ u ∈ rows, u.usernameLower = sqlLower u.username

namespace Users

def getById (s : Users) (id : String) : Option UserRow := s.rows.find? fun u => u.id = id

def getByUsername (s : Users) (username : String) : Option UserRow :=
  s.rows.find? fun u => u.usernameLower = sqlLower username

def countActiveAdmins (s : Users) : ℕ := s.rows.countP UserRow.isActiveAdmin

def update (s : Users) (p : UserRow → Bool) (edit : UserEdit) : Users where
  rows := updateWhere p edit.apply s.rows
  ids := by
    rw [map_updateWhere _ edit.id]
    exact s.ids
  names := by
    rw [map_updateWhere _ edit.usernameLower]
    exact s.names
  lower := by
    intro u hu
    obtain ⟨v, hv, -, rfl⟩ | ⟨hv, -⟩ := mem_updateWhere.mp hu
    · rw [edit.usernameLower, edit.username]
      exact s.lower v hv
    · exact s.lower u hv

theorem getById_eq_some {s : Users} {id : String} {u : UserRow} :
    s.getById id = some u ↔ u ∈ s.rows ∧ u.id = id :=
  find?_key_eq_some_iff s.ids

theorem getByUsername_eq_some {s : Users} {username : String} {u : UserRow} :
    s.getByUsername username = some u ↔ u ∈ s.rows ∧ u.usernameLower = sqlLower username :=
  find?_key_eq_some_iff s.names

end Users

/-! ## Credentials and attempts -/

structure UserSessionRow where
  (userId tokenHash : String)
  expiresAt : ℤ
  deriving DecidableEq

structure ApiTokenRow where
  (id userId name tokenHash : String)
  (expiresAt revokedAt : Option ℤ)
  deriving DecidableEq

/-- migrations/009_login_attempts.sql -/
structure LoginAttemptRow where
  (ip username : String)
  attemptedAt : ℤ
  success : Bool
  deriving DecidableEq

structure Data where
  users : Users
  sessions : List UserSessionRow
  tokens : List ApiTokenRow
  attempts : List LoginAttemptRow
  sessionHashes : (sessions.map (·.tokenHash)).Nodup
  tokenHashes : (tokens.map (·.tokenHash)).Nodup

namespace Data

variable (d : Data)

def withUsers (users : Users) : Data := { d with users := users }

def getByTokenHash (tokenHash : String) (now : ℤ) : Option UserSessionRow :=
  d.sessions.find? fun r => r.tokenHash = tokenHash ∧ now < r.expiresAt

def insertSession (row : UserSessionRow) : Except DbError Data :=
  if h : row.tokenHash ∈ d.sessions.map (·.tokenHash) then
    .error (.failed "UNIQUE constraint failed: user_sessions.token_hash")
  else .ok
    { d with
      sessions := d.sessions ++ [row]
      sessionHashes := by
        rw [map_append, nodup_append]
        refine ⟨d.sessionHashes, by simp, ?_⟩
        rintro a ha b hb rfl
        exact h (by simpa [mem_singleton.mp hb] using ha) }

def deleteUserSessions (userId : String) : Data :=
  { d with
    sessions := deleteWhere (fun r => r.userId == userId) d.sessions
    sessionHashes := d.sessionHashes.sublist (filter_sublist.map _) }

def getTokenByHash (tokenHash : String) (now : ℤ) : Option ApiTokenRow :=
  d.tokens.find? fun r =>
    r.tokenHash = tokenHash ∧ r.revokedAt = none ∧ ∀ e ∈ r.expiresAt, now < e

def getToken (id : String) : Option ApiTokenRow := d.tokens.find? fun r => r.id = id

def insertToken (row : ApiTokenRow) : Except DbError Data :=
  if row.id ∈ d.tokens.map (·.id) then
    .error (.failed "UNIQUE constraint failed: api_tokens.id")
  else if h : row.tokenHash ∈ d.tokens.map (·.tokenHash) then
    .error (.failed "UNIQUE constraint failed: api_tokens.token_hash")
  else .ok
    { d with
      tokens := d.tokens ++ [row]
      tokenHashes := by
        rw [map_append, nodup_append]
        refine ⟨d.tokenHashes, by simp, ?_⟩
        rintro a ha b hb rfl
        exact h (by simpa [mem_singleton.mp hb] using ha) }

def revokeToken (id : String) (now : ℤ) : Data :=
  { d with
    tokens := updateWhere (fun r => r.id == id && r.revokedAt.isNone)
      (fun r => { r with revokedAt := some now }) d.tokens
    tokenHashes := by
      rw [map_updateWhere (fun r : ApiTokenRow => r.tokenHash)
        (f := fun r => { r with revokedAt := some now }) fun _ => rfl]
      exact d.tokenHashes }

def recordAttempt (row : LoginAttemptRow) : Data :=
  { d with attempts := d.attempts ++ [row] }

def countFailedByIp (ip : String) (since : ℤ) : ℕ :=
  d.attempts.countP fun r => r.ip == ip && decide (since < r.attemptedAt) && !r.success

/-- The spelling counts: the names are compared as they stand. -/
def countFailedByUsername (username : String) (since : ℤ) : ℕ :=
  d.attempts.countP fun r => r.username == username && decide (since < r.attemptedAt) && !r.success

def clearForUsername (username : String) : Data :=
  { d with attempts := deleteWhere (fun r => r.username == username && !r.success) d.attempts }

end Data

/-! ## Calls -/

inductive Call where
  | getById (id : String)
  | getByUsername (username : String)
  | countActiveAdmins
  | updateRole (id role : String)
  | disableUser (id : String) (now : ℤ)
  | enableUser (id : String)
  | setMustChangePassword (id : String)
  | updatePassword (id passwordHash : String)
  | getByTokenHash (tokenHash : String) (now : ℤ)
  | insertSession (row : UserSessionRow)
  | deleteUserSessions (userId : String)
  | getTokenByHash (tokenHash : String) (now : ℤ)
  | getToken (id : String)
  | insertToken (row : ApiTokenRow)
  | revokeToken (id : String) (now : ℤ)
  | recordAttempt (row : LoginAttemptRow)
  | countFailedByIp (ip : String) (since : ℤ)
  | countFailedByUsername (username : String) (since : ℤ)
  | clearForUsername (username : String)
  | now
  | randomText
  | newId
  | verifyPassword (userId password passwordHash : String)
  | hashPassword (password : String)

abbrev Reply : Call → Type
  | .getById _ => Except DbError (Option UserRow)
  | .getByUsername _ => Except DbError (Option UserRow)
  | .countActiveAdmins => Except DbError ℕ
  | .updateRole _ _ => Except DbError Bool
  | .disableUser _ _ => Except DbError Bool
  | .enableUser _ => Except DbError Bool
  | .setMustChangePassword _ => Except DbError Bool
  | .updatePassword _ _ => Except DbError Bool
  | .getByTokenHash _ _ => Except DbError (Option UserSessionRow)
  | .insertSession _ => Except DbError Unit
  | .deleteUserSessions _ => Except DbError Unit
  | .getTokenByHash _ _ => Except DbError (Option ApiTokenRow)
  | .getToken _ => Except DbError (Option ApiTokenRow)
  | .insertToken _ => Except DbError Unit
  | .revokeToken _ _ => Except DbError Bool
  | .recordAttempt _ => Except DbError Unit
  | .countFailedByIp _ _ => Except DbError ℕ
  | .countFailedByUsername _ _ => Except DbError ℕ
  | .clearForUsername _ => Except DbError Unit
  | .now => ℤ
  | .randomText => String
  | .newId => String
  | .verifyPassword _ _ _ => Except AccountError Bool
  | .hashPassword _ => Except AccountError String

abbrev Program (α : Type) := Prog Call Reply α

structure Outside where
  now : ℤ
  dbError : Option DbError
  text : String
  valid : Except AccountError Bool
  passwordHash : Except AccountError String

def Data.statement {α : Type} (d : Data) (o : Outside) (result : α) (d' : Data) :
    Except DbError α × Data :=
  match o.dbError with
  | some e => (.error e, d)
  | none => (.ok result, d')

def Data.insert (d : Data) (o : Outside) (inserted : Except DbError Data) :
    Except DbError Unit × Data :=
  match o.dbError, inserted with
  | some e, _ => (.error e, d)
  | none, .error e => (.error e, d)
  | none, .ok d' => (.ok (), d')

def Data.updateUsers (d : Data) (o : Outside) (p : UserRow → Bool) (edit : UserEdit) :
    Except DbError Bool × Data :=
  d.statement o (d.users.rows.any p) (d.withUsers (d.users.update p edit))

/-- The CHECK on `console_role` refuses all but the three roles. -/
def Data.updateRole (d : Data) (o : Outside) (id role : String) : Except DbError Bool × Data :=
  match ConsoleRole.fromStr role with
  | .error _ =>
    (.error (o.dbError.getD (.failed "CHECK constraint failed: console_role")), d)
  | .ok consoleRole => d.updateUsers o (fun u => u.id == id) (.role consoleRole)

def exec : (c : Call) → Outside → Data → Reply c × Data
  | .getById id, o, d => d.statement o (d.users.getById id) d
  | .getByUsername username, o, d => d.statement o (d.users.getByUsername username) d
  | .countActiveAdmins, o, d => d.statement o d.users.countActiveAdmins d
  | .updateRole id role, o, d => d.updateRole o id role
  | .disableUser id now, o, d =>
    d.updateUsers o (fun u => u.id == id && u.disabledAt.isNone) (.disabledAt (some now))
  | .enableUser id, o, d =>
    d.updateUsers o (fun u => u.id == id && u.disabledAt.isSome) (.disabledAt none)
  | .setMustChangePassword id, o, d =>
    d.updateUsers o (fun u => u.id == id) .mustChangePassword
  | .updatePassword id passwordHash, o, d =>
    d.updateUsers o (fun u => u.id == id) (.password passwordHash)
  | .getByTokenHash tokenHash now, o, d => d.statement o (d.getByTokenHash tokenHash now) d
  | .insertSession row, o, d => d.insert o (d.insertSession row)
  | .deleteUserSessions userId, o, d => d.statement o () (d.deleteUserSessions userId)
  | .getTokenByHash tokenHash now, o, d => d.statement o (d.getTokenByHash tokenHash now) d
  | .getToken id, o, d => d.statement o (d.getToken id) d
  | .insertToken row, o, d => d.insert o (d.insertToken row)
  | .revokeToken id now, o, d =>
    d.statement o (d.tokens.any fun r => r.id == id && r.revokedAt.isNone) (d.revokeToken id now)
  | .recordAttempt row, o, d => d.statement o () (d.recordAttempt row)
  | .countFailedByIp ip since, o, d => d.statement o (d.countFailedByIp ip since) d
  | .countFailedByUsername username since, o, d =>
    d.statement o (d.countFailedByUsername username since) d
  | .clearForUsername username, o, d => d.statement o () (d.clearForUsername username)
  | .now, o, d => (o.now, d)
  | .randomText, o, d => (o.text, d)
  | .newId, o, d => (o.text, d)
  | .verifyPassword _ _ _, o, d => (o.valid, d)
  | .hashPassword _, o, d => (o.passwordHash, d)

theorem Data.statement_cases {α : Type} (d d' : Data) (o : Outside) (a : α) :
    (∃ e, d.statement o a d' = (.error e, d)) ∨ d.statement o a d' = (.ok a, d') := by
  unfold Data.statement
  cases o.dbError with
  | some e => exact .inl ⟨e, rfl⟩
  | none => exact .inr rfl

end Wacp.Console.Accounts
