import Wacp.Analysis.AdminGuard
import Wacp.Model.AccountHistory

/-!
# Credentials over a history

Old cookies should authenticate nothing after a logout or a change of the password. But
`change_password` deletes no session, `logout` succeeds where its DELETE fails, and bearer tokens
are checked without the flag.
-/

namespace Wacp.Console.Accounts

open Library Prog List Ends AccountRequest Recorded

/-! ## Sessions and events -/

def Event.onSessions : Event → List UserSessionRow → List UserSessionRow
  | .cookieIssued userId tokenHash expiresAt, rows => rows ++ [⟨userId, tokenHash, expiresAt⟩]
  | .sessionsDeleted userId, rows => deleteWhere (fun r => r.userId == userId) rows
  | _, rows => rows

/-- The sessions left after the events, the latest first. -/
def standing (start : List UserSessionRow) (events : List Event) : List UserSessionRow :=
  events.foldr Event.onSessions start

variable {start : List UserSessionRow}

theorem sessions_exec (c : Call) (o : Outside) (time : ℤ) (d : Data) : (exec c o d).2.sessions =
      (Event.ofExchange time ⟨c, (exec c o d).1⟩).toList.foldr Event.onSessions d.sessions := by
  obtain ⟨now, db, text, valid, hash⟩ := o
  cases c with
  | insertSession row =>
    cases db with
    | some => rfl
    | none =>
      cases hrow : d.insertSession row with
      | error => simp [exec, Data.insert, hrow, Event.ofExchange]
      | ok d' =>
        have hsessions : d'.sessions = d.sessions ++ [row] := by
          unfold Data.insertSession at hrow
          split_ifs at hrow
          cases hrow
          rfl
        simp [exec, Data.insert, hrow, Event.ofExchange, Event.onSessions, hsessions]
  | insertToken row =>
    cases db with
    | some => rfl
    | none =>
      cases hrow : d.insertToken row with
      | error => simp [exec, Data.insert, hrow, Event.ofExchange]
      | ok d' =>
        have hsessions : d'.sessions = d.sessions := by
          unfold Data.insertToken at hrow
          split_ifs at hrow
          cases hrow
          rfl
        simp [exec, Data.insert, hrow, Event.ofExchange, Event.onSessions, hsessions]
  | updateRole id role =>
    simp only [exec, Data.updateRole]
    cases ConsoleRole.fromStr role with
    | error => rfl
    | ok => cases db <;> rfl
  | verifyPassword =>
    obtain e | b := valid
    · rfl
    · cases b <;> rfl
  | now | randomText | newId | hashPassword => rfl
  | _ => cases db <;> rfl

def Agrees (start : List UserSessionRow) (s : Recorded) : Prop :=
  s.data.sessions = standing start s.events

variable {s : Recorded}

theorem Agrees.execRecorded (h : Agrees start s) (c : Call) (o : Outside) :
    Agrees start (execRecorded c o s).2 := by
  have hcall := sessions_exec c { o with now := s.time o } (s.time o) s.data
  unfold Agrees at h ⊢
  rw [h] at hcall
  rw [standing, Accounts.execRecorded, foldr_append]
  exact hcall

theorem Agrees.step {hashToken : String → String} {t : Recorded} {label : AccountLabel}
    (h : Agrees start s) (hstep : Step hashToken s label t) : Agrees start t := by
  obtain ⟨request, env⟩ := label
  have hend : Agrees start ((request.program hashToken).run Accounts.execRecorded env s).state :=
    of_invariant (I := Agrees start) (fun c o _ ht => Agrees.execRecorded ht c o) _ h env
  subst hstep
  simp only [apply]
  cases ((request.program hashToken).run Accounts.execRecorded env s).result with
  | none | some => exact hend

/-! ## Who is authenticated -/

section Authenticated

variable (hashToken : String → String)

def Data.IsActive (d : Data) (user : UserRow) (id : String) : Prop :=
  user ∈ d.users.rows ∧ user.id = id ∧ user.disabledAt = none

def UserRow.authenticated (user : UserRow) : AuthenticatedUser :=
  ⟨user.id, user.username, user.consoleRole⟩

theorem activeUser_ends {userId : String} {s : Recorded} :
    (activeUser userId).Ends execRecorded s fun r t => Waits s t ∧
      ∀ a, r = .ok a → ∃ user, s.data.IsActive user userId ∧ a = user.authenticated := by
  refine bind (getById_ends s userId) fun r t ⟨hwaits, hfound⟩ => ?_
  cases r with
  | error => exact ret ⟨hwaits, nofun⟩
  | ok found =>
    cases found with
    | none => exact ret ⟨hwaits, nofun⟩
    | some user =>
      dsimp only
      split_ifs with hdisabled
      · exact ret ⟨hwaits, nofun⟩
      · refine ret ⟨hwaits, fun a ha => ?_⟩
        cases ha
        obtain ⟨huser, hid⟩ := Users.getById_eq_some.mp (hfound _ rfl).symm
        exact ⟨user, ⟨huser, hid, by simpa using hdisabled⟩, rfl⟩

variable {tokenHash : String}

theorem getByTokenHash_ends {s : Recorded} {now : ℤ} :
    (perform (Call.getByTokenHash tokenHash now) : Program _).Ends execRecorded s fun r t =>
      Waits s t ∧ ∀ found, r = .ok found → found = s.data.getByTokenHash tokenHash now := by
  refine perform fun o => ⟨⟨s.time o, le_time s o, ?_⟩, (statement_same _ _ _).2⟩
  simp [execRecorded, exec, statement_same, Event.ofExchange]

theorem getTokenByHash_ends {s : Recorded} {now : ℤ} :
    (perform (Call.getTokenByHash tokenHash now) : Program _).Ends execRecorded s fun r t =>
      Waits s t ∧ ∀ found, r = .ok found → found = s.data.getTokenByHash tokenHash now := by
  refine perform fun o => ⟨⟨s.time o, le_time s o, ?_⟩, (statement_same _ _ _).2⟩
  simp [execRecorded, exec, statement_same, Event.ofExchange]

def LiveCookie (s : Recorded) (cookieValue : String) (user : UserRow) : Prop :=
  ∃ row ∈ s.data.sessions, row.tokenHash = hashToken cookieValue ∧ s.clock < row.expiresAt ∧
    s.data.IsActive user row.userId

def LiveToken (s : Recorded) (token : String) (user : UserRow) : Prop :=
  "wcon_t_".toList.isPrefixOf token.toList ∧
    ∃ row ∈ s.data.tokens, row.tokenHash = hashToken token ∧ row.revokedAt = none ∧
      (∀ e ∈ row.expiresAt, s.clock < e) ∧ s.data.IsActive user row.userId

variable {hashToken} {cookieValue : String}

theorem authenticateCookieAllowPendingChange_ends {s : Recorded} :
    (authenticateCookieAllowPendingChange hashToken cookieValue).Ends execRecorded s fun r t =>
      Waits s t ∧ ∀ a, r = .ok a →
        ∃ user, LiveCookie hashToken s cookieValue user ∧ a = user.authenticated := by
  refine bind (now_ends s) fun now t ⟨hle, ht⟩ => ?_
  subst ht
  refine bind getByTokenHash_ends fun r t ⟨⟨time, htime, ht⟩, hfound⟩ => ?_
  subst ht
  have hwaits : Waits s { s with clock := time } := ⟨time, hle.trans htime, rfl⟩
  cases r with
  | error => exact ret ⟨hwaits, nofun⟩
  | ok found =>
    cases found with
    | none => exact ret ⟨hwaits, nofun⟩
    | some session =>
      intro env
      obtain ⟨hwaits', hactive⟩ := activeUser_ends env
      refine ⟨hwaits.trans hwaits', fun a ha => ?_⟩
      obtain ⟨user, huser, hauth⟩ := hactive a ha
      have hsession := (hfound _ rfl).symm
      have hlive := find?_some hsession
      simp only [decide_eq_true_eq] at hlive
      exact ⟨user, ⟨session, mem_of_find?_eq_some hsession, hlive.1,
        hle.trans_lt hlive.2, huser⟩, hauth⟩

/-- **The cookie**: who is authenticated has a session, is active and need not change the password.
-/
theorem authenticateCookie_ends {s : Recorded} :
    (authenticateCookie hashToken cookieValue).Ends execRecorded s fun r _ =>
      ∀ a, r = .ok a → ∃ user, LiveCookie hashToken s cookieValue user ∧
        a = user.authenticated ∧ user.mustChangePassword = false := by
  refine bind authenticateCookieAllowPendingChange_ends fun r t ⟨hwaits, hlive⟩ => ?_
  cases r with
  | error => exact ret nofun
  | ok a =>
    obtain ⟨user, huser, rfl⟩ := hlive a rfl
    obtain ⟨time, htime, rfl⟩ := hwaits
    refine bind (getById_ends _ user.authenticated.userId) fun r _ ⟨_, hfound⟩ => ?_
    cases r with
    | error => exact ret nofun
    | ok found =>
      cases found with
      | none => exact ret nofun
      | some userRow =>
        dsimp only
        split_ifs with hflag
        · exact ret nofun
        · refine ret fun a ha => ?_
          cases ha
          -- the second query finds the row of the first
          obtain ⟨hrow, hid⟩ := Users.getById_eq_some.mp (hfound _ rfl).symm
          obtain ⟨row, hrow', hhash, hexpires, hmem, hid', hactive⟩ := huser
          have hsame : userRow = user := eq_of_key_eq s.data.users.ids hrow hmem hid
          rw [hsame] at hflag
          exact ⟨user, ⟨row, hrow', hhash, hexpires, hmem, hid', hactive⟩, rfl,
            by simpa using hflag⟩

variable {token : String}

theorem authenticateBearer_ends {s : Recorded} :
    (authenticateBearer hashToken token).Ends execRecorded s fun r _ =>
      ∀ a, r = .ok a → ∃ user, LiveToken hashToken s token user ∧ a = user.authenticated := by
  unfold authenticateBearer
  split_ifs with hbegins
  · exact ret nofun
  · refine bind (now_ends s) fun now t ⟨hle, ht⟩ => ?_
    subst ht
    refine bind getTokenByHash_ends fun r t ⟨⟨time, htime, ht⟩, hfound⟩ => ?_
    subst ht
    cases r with
    | error => exact ret nofun
    | ok found =>
      cases found with
      | none => exact ret nofun
      | some apiToken =>
        intro env a ha
        obtain ⟨-, hactive⟩ := activeUser_ends env
        obtain ⟨user, huser, hauth⟩ := hactive a ha
        have htoken := (hfound _ rfl).symm
        have hlive := find?_some htoken
        simp only [decide_eq_true_eq] at hlive
        refine ⟨user, ⟨by simpa using hbegins, apiToken, mem_of_find?_eq_some htoken,
          hlive.1, hlive.2.1, ?_, huser⟩, hauth⟩
        intro e he
        exact hle.trans_lt (hlive.2.2 e he)

/-! ## Who can be authenticated -/

variable {s : Recorded} {user : UserRow} {id : String}

def Authenticates (s : Recorded) (extractor : Program (Except AccountError AuthenticatedUser))
    (user : AuthenticatedUser) : Prop :=
  ∃ env, (extractor.run execRecorded env s).result = .ok user

variable {credentials : Credentials} {a : AuthenticatedUser}

theorem Authenticates.cases (h : Authenticates s (authenticate hashToken credentials) a) :
    (∃ token user, LiveToken hashToken s token user ∧ a = user.authenticated) ∨
      ∃ cookieValue user, credentials = ⟨none, some cookieValue⟩ ∧
        LiveCookie hashToken s cookieValue user ∧ a = user.authenticated ∧
        user.mustChangePassword = false := by
  obtain ⟨env, hrun⟩ := h
  obtain ⟨bearer, cookie⟩ := credentials
  cases bearer with
  | some token =>
    obtain ⟨user, hlive, ha⟩ := authenticateBearer_ends env a hrun
    exact .inl ⟨token, user, hlive, ha⟩
  | none =>
    cases cookie with
    | some cookieValue =>
      obtain ⟨user, hlive, ha, hflag⟩ :=
        authenticateCookie_ends env a hrun
      exact .inr ⟨cookieValue, user, rfl, hlive, ha, hflag⟩
    | none => cases hrun

theorem LiveCookie.active (h : LiveCookie hashToken s cookieValue user) :
    user ∈ s.data.users.rows ∧ user.disabledAt = none := by
  obtain ⟨row, -, -, -, hmem, -, hactive⟩ := h
  exact ⟨hmem, hactive⟩

theorem LiveToken.active (h : LiveToken hashToken s token user) :
    user ∈ s.data.users.rows ∧ user.disabledAt = none := by
  obtain ⟨-, row, -, -, -, -, hmem, -, hactive⟩ := h
  exact ⟨hmem, hactive⟩

end Authenticated

/-! ## Two histories -/

open UserUpdates (sampleUser twoAdmins willing)

/-- Every statement is carried out, and the random text is `text`. -/
def drawing (text : String) : ℕ → Outside := fun _ => { willing with text := text }

/-- What a history makes of two administrators. -/
def after (history : List AccountLabel) : Recorded :=
  history.foldl (fun s label => label.1.apply (fun token => token) s label.2) (new twoAdmins 0)

theorem run_after {history : List AccountLabel} :
    Run (Step fun token => token) anyStep (new twoAdmins 0) (after history) :=
  Run.of_foldl (fun _ _ => rfl) (fun _ _ _ => trivial)

end Wacp.Console.Accounts
