import Wacp.Model.AccountHandlers

/-!
# Histories of account requests

`Recorded` has the tables, the time and what has happened, the latest first: `execRecorded` carries
out a call as `exec` does and notes it. The time at a call is what the outside says, but never
earlier than before.
-/

namespace Wacp.Console.Accounts

open Library Prog

/-! ## What is noted -/

inductive Event where
  | wrongPassword (userId : String) (time : ℤ)
  | attemptLost (username : String)
  | clearLost (username : String)
  | unlocked (userId : String)
  | cookieIssued (userId tokenHash : String) (expiresAt : ℤ)
  | sessionsDeleted (userId : String)
  | tokenIssued (userId tokenHash : String) (expiresAt : Option ℤ)
  | invalidated (userId : String)
  deriving DecidableEq

def Event.ofExchange (time : ℤ) : Exchange Call Reply → Option Event
  | ⟨.verifyPassword userId _ _, .ok false⟩ => some (.wrongPassword userId time)
  | ⟨.recordAttempt row, .error _⟩ => some (.attemptLost row.username)
  | ⟨.clearForUsername username, .error _⟩ => some (.clearLost username)
  | ⟨.insertSession row, .ok _⟩ => some (.cookieIssued row.userId row.tokenHash row.expiresAt)
  | ⟨.deleteUserSessions userId, .ok _⟩ => some (.sessionsDeleted userId)
  | ⟨.insertToken row, .ok _⟩ => some (.tokenIssued row.userId row.tokenHash row.expiresAt)
  | _ => none

structure Recorded where
  data : Data
  clock : ℤ
  events : List Event

namespace Recorded

def new (d : Data) (clock : ℤ) : Recorded := { data := d, clock := clock, events := [] }

def time (s : Recorded) (o : Outside) : ℤ := max s.clock o.now

def note (s : Recorded) (event : Event) : Recorded := { s with events := event :: s.events }

end Recorded

def execRecorded (c : Call) (o : Outside) (s : Recorded) : Reply c × Recorded :=
  let outside := { o with now := s.time o }
  let r := exec c outside s.data
  (r.1,
    { data := r.2
      clock := s.time o
      events := (Event.ofExchange (s.time o) ⟨c, r.1⟩).toList ++ s.events })

/-! ## Calls that only read -/

theorem le_time (s : Recorded) (o : Outside) : s.clock ≤ s.time o := le_max_left _ _

theorem statement_same {α : Type} (d : Data) (o : Outside) (a : α) :
    (d.statement o a d).2 = d ∧ ∀ b, (d.statement o a d).1 = .ok b → b = a := by
  have h := d.statement_cases d o a
  exact ⟨keeps_of_tried h (· = d) rfl rfl, fun b hb => (eq_of_tried h hb).symm⟩

def Waits (s t : Recorded) : Prop := ∃ time, s.clock ≤ time ∧ t = { s with clock := time }

theorem Waits.trans {s t u : Recorded} (h : Waits s t) (h' : Waits t u) : Waits s u := by
  obtain ⟨time, hle, rfl⟩ := h
  obtain ⟨time', hle', rfl⟩ := h'
  exact ⟨time', hle.trans hle', rfl⟩

section Calls

variable (s : Recorded)

theorem now_ends : (perform Call.now : Program ℤ).Ends execRecorded s fun now t =>
      s.clock ≤ now ∧ t = { s with clock := now } :=
  Ends.perform fun o => ⟨le_time s o, rfl⟩

theorem getById_ends (id : String) : (perform (Call.getById id) : Program _).Ends execRecorded s
      fun r t => Waits s t ∧ ∀ u, r = .ok u → u = s.data.users.getById id := by
  refine Ends.perform fun o => ⟨⟨s.time o, le_time s o, ?_⟩, (statement_same _ _ _).2⟩
  simp [execRecorded, exec, statement_same, Event.ofExchange]

end Calls

/-! ## Logins and unlocks -/

section Histories

variable (hashToken : String → String)

/-- A login from an address, or an unlock by somebody who is authenticated. -/
inductive LoginStep where
  | login (ip : String) (body : LoginRequest)
  | unlock (auth : AuthenticatedUser) (id : String)

def LoginStep.apply (s : Recorded) (env : ℕ → Outside) : LoginStep → Recorded
  | .login ip body => ((Accounts.login hashToken ip body).run execRecorded env s).state
  | .unlock auth id =>
    let ended := (Accounts.unlockUser auth id).run execRecorded env s
    match ended.result with
    | .ok () => ended.state.note (.unlocked id)
    | .error _ => ended.state

abbrev LoginLabel := LoginStep × (ℕ → Outside)

def LoginStep.Step (s : Recorded) (label : LoginLabel) (s' : Recorded) : Prop :=
  s' = label.1.apply hashToken s label.2

/-! ## All requests -/

inductive AccountRequest where
  | login (ip : String) (body : LoginRequest)
  | logout (credentials : Credentials)
  | changePassword (credentials : Credentials) (body : ChangePasswordRequest)
  | createToken (credentials : Credentials) (name : String) (expiresInDays : Option ℤ)
  | revokeToken (credentials : Credentials) (id : String)
  | revokeUserToken (credentials : Credentials) (id : String)
  | resetPassword (credentials : Credentials) (id : String)
  | updateUser (credentials : Credentials) (id : String) (body : UpdateUserRequest)
  | unlockUser (credentials : Credentials) (id : String)

def behind {α : Type} (extractor : Program (Except AccountError AuthenticatedUser))
    (handler : AuthenticatedUser → Program (Except AccountError α)) :
    Program (Except AccountError (AuthenticatedUser × α)) := do
  match ← extractor with
  | .error e => return .error e
  | .ok user => return (← handler user).map fun a => (user, a)

/-- The user whose earlier cookies a request that was answered with success is to invalidate. -/
def AccountRequest.program : AccountRequest → Program (Option String)
  | .login ip body => do
      let _ ← Accounts.login hashToken ip body
      return none
  | .logout credentials => do
      let r ← behind (authenticate hashToken credentials) Accounts.logout
      return r.toOption.map fun answer => answer.1.userId
  | .changePassword credentials body => do
      let r ← behind (authenticateAllowPendingChange hashToken credentials)
        fun user => Accounts.changePassword user body
      return r.toOption.map fun answer => answer.1.userId
  | .createToken credentials name expiresInDays => do
      let _ ← behind (authenticate hashToken credentials)
        fun user => Accounts.createToken hashToken user name expiresInDays
      return none
  | .revokeToken credentials id => do
      let _ ← behind (authenticate hashToken credentials) fun user => Accounts.revokeToken user id
      return none
  | .revokeUserToken credentials id => do
      let _ ← behind (authenticate hashToken credentials)
        fun user => Accounts.revokeUserToken user id
      return none
  | .resetPassword credentials id => do
      let _ ← behind (authenticate hashToken credentials) fun user => Accounts.resetPassword user id
      return none
  | .updateUser credentials id body => do
      let _ ← behind (authenticate hashToken credentials)
        fun user => Accounts.updateUser user id body
      return none
  | .unlockUser credentials id => do
      let _ ← behind (authenticate hashToken credentials) fun user => Accounts.unlockUser user id
      return none

def AccountRequest.apply (s : Recorded) (env : ℕ → Outside) (request : AccountRequest) : Recorded :=
  let ended := (request.program hashToken).run execRecorded env s
  match ended.result with
  | some userId => ended.state.note (.invalidated userId)
  | none => ended.state

abbrev AccountLabel := AccountRequest × (ℕ → Outside)

def AccountRequest.Step (s : Recorded) (label : AccountLabel) (s' : Recorded) : Prop :=
  s' = label.1.apply hashToken s label.2

end Histories

end Wacp.Console.Accounts
