import Wacp.Analysis.AdminGuard
import Wacp.Model.AccountHistory

/-!
# The lock of an account

A login counts failed attempts under the name as typed and finds the user by the name in lower case:
every spelling has five attempts of its own. For the stored spelling the lock holds.
-/

namespace Wacp.Console.Accounts

open Library Prog List Ends LoginStep Data Recorded

/-! ## Counting -/

def Event.wrongSince (userId : String) (start : ℤ) : Event → Bool
  | .wrongPassword u time => u == userId && decide (start ≤ time)
  | _ => false

/-- A wrong password for `userId` was checked in the 15 minutes from `start` on. -/
def Event.wrongWithin (userId : String) (start : ℤ) : Event → Bool
  | .wrongPassword u time => u == userId && decide (start ≤ time) && decide (time < start + window)
  | _ => false

def Data.failedFrom (d : Data) (username : String) (start : ℤ) : ℕ :=
  d.attempts.countP fun r => r.username == username && decide (start ≤ r.attemptedAt) && !r.success

/-- At most five wrong passwords in any 15 minutes without an unlock. -/
def AtMostFive (userId : String) (events : List Event) : Prop :=
  ∀ part, part <:+: events → Event.unlocked userId ∉ part →
    ∀ start, part.countP (Event.wrongWithin userId start) ≤ 5

def Data.NoLock (d : Data) (user : UserRow) : Prop :=
  ∀ spelling, sqlLower spelling = user.usernameLower →
    ∀ since, d.countFailedByUsername spelling since = 0

variable {userId : String} {e : Event} {start : ℤ}

theorem wrongSince_of_wrongWithin (h : e.wrongWithin userId start) : e.wrongSince userId start := by
  cases e with
  | wrongPassword =>
    simp only [Event.wrongWithin, Event.wrongSince, Bool.and_eq_true] at h ⊢
    exact h.1
  | _ => cases h

/-! ## What a login does -/

structure Records (name : String) (s t : Recorded) (rows : List LoginAttemptRow) : Prop where
  users : t.data.users = s.data.users
  attempts : t.data.attempts = s.data.attempts ++ rows
  named : ∀ r ∈ rows, r.username = name
  clock : s.clock ≤ t.clock

variable {name : String} {t : Recorded} {rows : List LoginAttemptRow}

theorem Records.trans {s u : Recorded} {rows' : List LoginAttemptRow} (h : Records name s t rows)
    (h' : Records name t u rows') : Records name s u (rows ++ rows') := by
  refine ⟨h'.users.trans h.users, ?_, ?_, h.clock.trans h'.clock⟩
  · rw [h'.attempts, h.attempts, append_assoc]
  · intro r hr
    obtain hr | hr := mem_append.mp hr
    · exact h.named r hr
    · exact h'.named r hr

def Event.silent : Event → Bool
  | .wrongPassword _ _ => false
  | .unlocked _ => false
  | _ => true

structure Quiet (name : String) (s t : Recorded) : Prop where
  records : ∃ rows, Records name s t rows
  events : ∃ new, t.events = new ++ s.events ∧ ∀ e ∈ new, e.silent

theorem Quiet.trans {s u : Recorded} (h : Quiet name s t) (h' : Quiet name t u) :
    Quiet name s u := by
  obtain ⟨⟨rows, hrows⟩, new, hnew, hsilent⟩ := h
  obtain ⟨⟨rows', hrows'⟩, new', hnew', hsilent'⟩ := h'
  refine ⟨⟨_, hrows.trans hrows'⟩, new' ++ new, ?_, ?_⟩
  · rw [hnew', hnew, append_assoc]
  · intro e he
    obtain he | he := mem_append.mp he
    · exact hsilent' e he
    · exact hsilent e he

theorem Waits.quiet {s : Recorded} (h : Waits s t) (name : String) : Quiet name s t := by
  obtain ⟨time, hle, rfl⟩ := h
  exact ⟨⟨[], rfl, (append_nil _).symm, by simp, hle⟩, [], rfl, by simp⟩

section Calls

variable (s : Recorded)

theorem countFailedByIp_ends {ip : String} {since : ℤ} :
    (perform (Call.countFailedByIp ip since) : Program _).Ends execRecorded s fun _ t =>
      Waits s t := by
  refine perform fun o => ⟨s.time o, le_time s o, ?_⟩
  simp [execRecorded, exec, statement_same, Event.ofExchange]

theorem countFailedByUsername_ends {username : String} {since : ℤ} :
    (perform (Call.countFailedByUsername username since) : Program _).Ends execRecorded s
      fun r t => Waits s t ∧ ∀ n, r = .ok n → n = s.data.countFailedByUsername username since := by
  refine perform fun o => ⟨⟨s.time o, le_time s o, ?_⟩, (statement_same _ _ _).2⟩
  simp [execRecorded, exec, statement_same, Event.ofExchange]

theorem getByUsername_ends {username : String} :
    (perform (Call.getByUsername username) : Program _).Ends execRecorded s
      fun r t => Waits s t ∧ ∀ u, r = .ok u → u = s.data.users.getByUsername username := by
  refine perform fun o => ⟨⟨s.time o, le_time s o, ?_⟩, (statement_same _ _ _).2⟩
  simp [execRecorded, exec, statement_same, Event.ofExchange]

theorem verifyPassword_ends {userId password passwordHash : String} :
    (perform (Call.verifyPassword userId password passwordHash) : Program _).Ends execRecorded s
      fun r t => ∃ time, s.clock ≤ time ∧ t =
        { s with
          clock := time
          events :=
            if r = .ok false then .wrongPassword userId time :: s.events else s.events } := by
  refine perform fun o => ⟨s.time o, le_time s o, ?_⟩
  obtain ⟨now, db, text, valid, hash⟩ := o
  obtain e | b := valid
  · rfl
  · cases b <;> rfl

end Calls

def aboutSessions : Call → Bool
  | .deleteUserSessions _ | .insertSession _ | .randomText | .now => true
  | _ => false

variable {d d' : Data}

theorem Data.users_insertSession {row : UserSessionRow} (h : d.insertSession row = .ok d') :
    d'.users = d.users ∧ d'.attempts = d.attempts := by
  unfold insertSession at h
  split_ifs at h
  cases h
  exact ⟨rfl, rfl⟩

theorem aboutSessions_ends (name : String) {c : Call} (hc : aboutSessions c)
    {s : Recorded} : (perform c : Program _).Ends execRecorded s fun _ t => Quiet name s t := by
  refine perform fun o => ?_
  have hquiet : (exec c { o with now := s.time o } s.data).2.users = s.data.users ∧
      (exec c { o with now := s.time o } s.data).2.attempts = s.data.attempts ∧
      ∀ e ∈ Event.ofExchange (s.time o) ⟨c, (exec c { o with now := s.time o } s.data).1⟩,
        e.silent := by
    obtain ⟨now, db, text, valid, hash⟩ := o
    cases c with
    | deleteUserSessions =>
      cases db with
      | some => simp [exec, Data.statement, Event.ofExchange]
      | none =>
        simp [exec, Data.statement, Event.ofExchange, Event.silent, Data.deleteUserSessions]
    | insertSession row =>
      cases db with
      | some => simp [exec, Data.insert, Event.ofExchange]
      | none =>
        cases hrow : s.data.insertSession row with
        | error => simp [exec, Data.insert, hrow, Event.ofExchange]
        | ok =>
          obtain ⟨husers, hattempts⟩ := Data.users_insertSession hrow
          simp [exec, Data.insert, hrow, Event.ofExchange, Event.silent, husers, hattempts]
    | randomText | now => simp [exec, Event.ofExchange]
    | _ => cases hc
  obtain ⟨husers, hattempts, hevents⟩ := hquiet
  refine ⟨⟨[], husers, ?_, by simp, le_time s o⟩, _, rfl, ?_⟩
  · rw [append_nil]
    exact hattempts
  · intro e he
    exact hevents e (by simpa using he)

inductive Attempted (ip name : String) (success : Bool) (s t : Recorded) : Prop where
  | recorded (time : ℤ) (htime : s.clock ≤ time)
      (h : Records name s t [⟨ip, name, time, success⟩]) (hevents : t.events = s.events)
  | lost (hevents : .attemptLost name ∈ t.events) (h : Quiet name s t)

variable {ip : String}

theorem Attempted.quiet {success : Bool} {s : Recorded} (h : Attempted ip name success s t) :
    Quiet name s t := by
  cases h with
  | recorded time htime h hevents => exact ⟨⟨_, h⟩, [], hevents, by simp⟩
  | lost hevents h => exact h

theorem recordLoginAttempt_ends {ip name : String} {success : Bool} {s : Recorded} :
    (recordLoginAttempt ip name success).Ends execRecorded s fun _ t =>
      Attempted ip name success s t := by
  refine bind (now_ends s) fun now t ⟨hle, ht⟩ => ?_
  refine bind (perform fun o => ?_) fun _ _ h => ret h
  subst ht
  have htime := le_time { s with clock := now } o
  obtain ⟨oNow, db, text, valid, hash⟩ := o
  cases db with
  | some =>
    exact .lost (mem_cons_self ..)
      ⟨⟨[], rfl, (append_nil _).symm, by simp, hle.trans htime⟩, [.attemptLost name], rfl,
        by simp [Event.silent]⟩
  | none => exact .recorded now hle ⟨rfl, rfl, by simp, hle.trans htime⟩ rfl

theorem openSession_ends {hashToken : String → String} (ip : String) (body : LoginRequest)
    (user : UserRow) (s : Recorded) :
    (openSession hashToken ip body user).Ends execRecorded s fun _ t =>
      Quiet body.username s t := by
  refine bind recordLoginAttempt_ends fun _ _ h => ?_
  refine bind (aboutSessions_ends body.username rfl) fun _ _ h₁ => ?_
  refine bind (aboutSessions_ends body.username rfl) fun _ _ h₂ => ?_
  refine bind (aboutSessions_ends body.username rfl) fun _ _ h₃ => ?_
  refine bind (aboutSessions_ends body.username rfl) fun r _ h₄ => ?_
  have hall := (((h.quiet.trans h₁).trans h₂).trans h₃).trans h₄
  cases r with
  | error | ok => exact ret hall

variable {username : String}

theorem checkLoginRateLimit_ends {ip : String} {s : Recorded} :
    (checkLoginRateLimit ip username).Ends execRecorded s fun r t => Waits s t ∧
      (r = .ok () → ∃ n, n ≤ t.clock ∧
        s.data.countFailedByUsername username (n - window) < maxFailedPerAccount) := by
  refine bind (now_ends s) fun now t ⟨hle, ht⟩ => ?_
  refine bind (countFailedByIp_ends t) fun r t₁ h₁ => ?_
  have hwaits : Waits s t₁ := Waits.trans ⟨now, hle, ht⟩ h₁
  cases r with
  | error => exact ret ⟨hwaits, nofun⟩
  | ok =>
    dsimp only
    split_ifs with hip
    · exact ret ⟨hwaits, nofun⟩
    · refine bind (countFailedByUsername_ends t₁) fun r t₂ ⟨h₂, hcount⟩ => ?_
      cases r with
      | error => exact ret ⟨hwaits.trans h₂, nofun⟩
      | ok accountCount =>
        dsimp only
        split_ifs with haccount
        · exact ret ⟨hwaits.trans h₂, nofun⟩
        · refine ret ⟨hwaits.trans h₂, fun _ => ⟨now, ?_, ?_⟩⟩
          · obtain ⟨time, hle₁, rfl⟩ := h₁
            obtain ⟨time', hle₂, rfl⟩ := h₂
            subst ht
            exact hle₁.trans hle₂
          · obtain ⟨time', -, rfl⟩ := hwaits
            rw [← hcount accountCount rfl]
            omega

inductive LoginEffect (ip : String) (body : LoginRequest) (s t : Recorded) : Prop where
  | quiet (h : Quiet body.username s t)
  | wrong (user : UserRow) (n c : ℤ)
      (hfound : s.data.users.getByUsername body.username = some user)
      (hcount : s.data.countFailedByUsername body.username (n - window) < maxFailedPerAccount)
      (hnc : n ≤ c) (hc : s.clock ≤ c)
      (hattempt : Attempted ip body.username false
        { s with clock := c, events := .wrongPassword user.id c :: s.events } t)

/-- **What a login does**: a wrong password is checked where the limit allows it, and recorded under
the name as typed. -/
theorem login_ends {hashToken : String → String} {ip : String} {body : LoginRequest}
    {s : Recorded} :
    (login hashToken ip body).Ends execRecorded s fun _ t => LoginEffect ip body s t := by
  refine bind checkLoginRateLimit_ends fun r t ⟨hwaits, hlimit⟩ => ?_
  cases r with
  | error => exact ret (.quiet (hwaits.quiet _))
  | ok =>
    obtain ⟨n, hn, hcount⟩ := hlimit rfl
    refine bind (getByUsername_ends t) fun r t₁ ⟨h₁, hfound⟩ => ?_
    have hwaits₁ := hwaits.trans h₁
    -- an attempt for nobody, or for a user that is disabled, is recorded without a check
    have hunchecked : (recordLoginAttempt ip body.username false).Ends execRecorded t₁
        fun _ t => LoginEffect ip body s t := fun env =>
      .quiet ((hwaits₁.quiet _).trans
        (recordLoginAttempt_ends env).quiet)
    cases r with
    | error => exact ret (.quiet (hwaits₁.quiet _))
    | ok found =>
      cases found with
      | none => exact bind hunchecked fun _ _ h => ret h
      | some user =>
        dsimp only
        split_ifs with hdisabled
        · exact bind hunchecked fun _ _ h => ret h
        · refine bind (verifyPassword_ends t₁) fun r t₂ ⟨c, hc, ht₂⟩ => ?_
          obtain ⟨time, hle, rfl⟩ := hwaits
          obtain ⟨time₁, hle₁, rfl⟩ := h₁
          obtain e | b := r
          · exact ret (.quiet (Waits.quiet ⟨c, (hle.trans hle₁).trans hc, ht₂⟩ _))
          · cases b with
            | false =>
              refine bind recordLoginAttempt_ends fun _ t₃ h₃ => ret ?_
              subst ht₂
              exact .wrong user n c (hfound _ rfl).symm hcount ((hn.trans hle₁).trans hc)
                ((hle.trans hle₁).trans hc) h₃
            | true =>
              intro env
              exact .quiet ((Waits.quiet ⟨c, (hle.trans hle₁).trans hc, ht₂⟩ _).trans
                (openSession_ends ip body user t₂ env))

inductive UnlockEffect (id : String) (s : Recorded) :
    Except AccountError Unit → Recorded → Prop where
  | refused (e : AccountError) {t : Recorded} (h : Waits s t) : UnlockEffect id s (.error e) t
  | cleared (user : UserRow) (time : ℤ) (hfound : s.data.users.getById id = some user) :
      UnlockEffect id s (.ok ())
        { s with data := s.data.clearForUsername user.username, clock := time }
  | lost {t : Recorded} (name : String) (hlost : .clearLost name ∈ t.events) :
      UnlockEffect id s (.ok ()) t

theorem unlockUser_ends (auth : AuthenticatedUser) (id : String) (s : Recorded) :
    (unlockUser auth id).Ends execRecorded s fun r t => UnlockEffect id s r t := by
  unfold unlockUser
  cases authorize auth .disableUser with
  | error => exact ret (.refused _ ⟨s.clock, le_rfl, rfl⟩)
  | ok =>
    refine bind (getById_ends s id) fun r t ⟨hwaits, hfound⟩ => ?_
    cases r with
    | error => exact ret (.refused _ hwaits)
    | ok found =>
      cases found with
      | none => exact ret (.refused _ hwaits)
      | some user =>
        refine bind (perform fun o => ?_) fun _ _ h => ret h
        obtain ⟨time, -, rfl⟩ := hwaits
        obtain ⟨now, db, text, valid, hash⟩ := o
        cases db with
        | some => exact .lost user.username (mem_cons_self ..)
        | none => exact .cleared user _ (hfound _ rfl).symm

/-! ## The lock over a history -/

/-- Every wrong password since the last unlock has a failed attempt that is not older. -/
def Counted (user : UserRow) (d : Data) (events : List Event) : Prop :=
  ∀ part, part <+: events → Event.unlocked user.id ∉ part →
    ∀ start, part.countP (Event.wrongSince user.id start) ≤ d.failedFrom user.username start

/-- Attempts under a spelling of a user's name are under the stored one. -/
def Data.Spelled (d : Data) : Prop :=
  ∀ r ∈ d.attempts, ∀ user ∈ d.users.rows, user.usernameLower = sqlLower r.username →
    r.username = user.username

theorem Data.failedFrom_mono (h : d'.attempts = d.attempts ++ rows)
    : d.failedFrom username start ≤ d'.failedFrom username start := by
  rw [failedFrom, failedFrom, h, countP_append]
  exact Nat.le_add_right _ _

variable {events : List Event}

theorem countP_le_of_prefix_cons {p : Event → Bool} (he : p e = false) {part : List Event}
    (h : part <+: e :: events) :
    ∃ rest, rest <+: events ∧ rest ⊆ part ∧ part.countP p = rest.countP p := by
  obtain rfl | ⟨rest, rfl, hrest⟩ := prefix_cons_iff.mp h
  · exact ⟨[], nil_prefix, List.Subset.refl _, rfl⟩
  · exact ⟨rest, hrest, subset_cons_self e rest, countP_cons_of_neg (by simp [he])⟩

variable {user : UserRow}

theorem Counted.mono (h : Counted user d events)
    (hd : ∀ start, d.failedFrom user.username start ≤ d'.failedFrom user.username start) :
    Counted user d' events := by
  intro part hpart hlocked start
  exact (h part hpart hlocked start).trans (hd start)

theorem Counted.cons (h : Counted user d events) (he : ∀ start, e.wrongSince user.id start = false)
    : Counted user d (e :: events) := by
  intro part hpart hlocked start
  obtain ⟨rest, hrest, hsub, hcount⟩ := countP_le_of_prefix_cons (he start) hpart
  rw [hcount]
  exact h rest hrest (fun hmem => hlocked (hsub hmem)) start

theorem AtMostFive.cons (h : AtMostFive userId events)
    (he : ∀ start, e.wrongWithin userId start = false) : AtMostFive userId (e :: events) := by
  intro part hpart hlocked start
  obtain hpart | hpart := infix_cons_iff.mp hpart
  · obtain ⟨rest, hrest, hsub, hcount⟩ := countP_le_of_prefix_cons (he start) hpart
    rw [hcount]
    exact h rest hrest.isInfix (fun hmem => hlocked (hsub hmem)) start
  · exact h part hpart hlocked start

/-- What holds while names are spelled as stored. -/
structure Locks (s : Recorded) : Prop where
  spelled : s.data.Spelled
  counted : ∀ user ∈ s.data.users.rows, Counted user s.data s.events
  limited : ∀ user ∈ s.data.users.rows, AtMostFive user.id s.events

theorem wrongSince_of_silent (h : e.silent) {userId : String} :
    e.wrongSince userId start = false ∧ e.wrongWithin userId start = false := by
  cases e with
  | wrongPassword => cases h
  | _ => exact ⟨rfl, rfl⟩

theorem append_silent {new : List Event} (hcounted : Counted user d events)
    (hlimited : AtMostFive user.id events) (hsilent : ∀ e ∈ new, e.silent) :
    Counted user d (new ++ events) ∧ AtMostFive user.id (new ++ events) := by
  induction new with
  | nil => exact ⟨hcounted, hlimited⟩
  | cons e new ih =>
    obtain ⟨hcounted', hlimited'⟩ := ih fun e' he' => hsilent e' (mem_cons_of_mem e he')
    have he := hsilent e mem_cons_self
    exact ⟨hcounted'.cons fun start => (wrongSince_of_silent he).1,
      hlimited'.cons fun start => (wrongSince_of_silent he).2⟩

def Data.storedSpelling (d : Data) (name : String) : Bool :=
  match d.users.getByUsername name with
  | some user => name == user.username
  | none => true

theorem Data.eq_of_storedSpelling (h : d.storedSpelling name) (huser : user ∈ d.users.rows)
    (hlower : user.usernameLower = sqlLower name) : name = user.username := by
  have hfound := Users.getByUsername_eq_some.mpr ⟨huser, hlower⟩
  simpa [storedSpelling, hfound] using h

theorem Data.Spelled.records {s : Recorded} (h : s.data.Spelled) (hrecords : Records name s t rows)
    (hname : s.data.storedSpelling name) : t.data.Spelled := by
  intro r hr user huser hlower
  rw [hrecords.users] at huser
  rw [hrecords.attempts] at hr
  obtain hr | hr := mem_append.mp hr
  · exact h r hr user huser hlower
  · rw [hrecords.named r hr] at hlower ⊢
    exact eq_of_storedSpelling hname huser hlower

theorem Locks.quiet {s : Recorded} (h : Locks s) (hquiet : Quiet name s t)
    (hname : s.data.storedSpelling name) : Locks t := by
  obtain ⟨⟨rows, hrecords⟩, new, hevents, hsilent⟩ := hquiet
  have hboth : ∀ user ∈ t.data.users.rows,
      Counted user t.data t.events ∧ AtMostFive user.id t.events := by
    intro user huser
    rw [hrecords.users] at huser
    rw [hevents]
    exact append_silent
      ((h.counted user huser).mono fun start => failedFrom_mono hrecords.attempts)
      (h.limited user huser) hsilent
  exact ⟨h.spelled.records hrecords hname, fun user huser => (hboth user huser).1,
    fun user huser => (hboth user huser).2⟩

variable {c : ℤ} {n : ℤ}

theorem Data.failedFrom_le_count (d : Data) (username : String) (hnc : n ≤ c)
    (hstart : c < start + window) :
    d.failedFrom username start ≤ d.countFailedByUsername username (n - window) := by
  refine countP_mono_left fun r _ hr => ?_
  simp only [Bool.and_eq_true, decide_eq_true_eq] at hr ⊢
  refine ⟨⟨hr.1.1, ?_⟩, hr.2⟩
  omega

/-- **A wrong password that is checked** is at most the fifth in any window. -/
theorem AtMostFive.wrong (h : AtMostFive user.id events) (hcounted : Counted user d events)
    (hcount : d.countFailedByUsername user.username (n - window) < maxFailedPerAccount)
    (hnc : n ≤ c) : AtMostFive user.id (.wrongPassword user.id c :: events) := by
  intro part hpart hlocked start
  obtain hpart | hpart := infix_cons_iff.mp hpart
  · obtain rfl | ⟨rest, rfl, hrest⟩ := prefix_cons_iff.mp hpart
    · exact Nat.zero_le _
    · have hlocked' : Event.unlocked user.id ∉ rest := fun hmem =>
        hlocked (mem_cons_of_mem _ hmem)
      cases hnew : (Event.wrongPassword user.id c).wrongWithin user.id start with
      | false =>
        rw [countP_cons_of_neg (by simp [hnew])]
        exact h rest hrest.isInfix hlocked' start
      | true =>
        rw [countP_cons_of_pos hnew]
        have hsince : rest.countP (Event.wrongWithin user.id start) ≤
            rest.countP (Event.wrongSince user.id start) :=
          countP_mono_left fun e _ he => wrongSince_of_wrongWithin he
        have hwindow : c < start + window := by
          simp only [Event.wrongWithin, Bool.and_eq_true, decide_eq_true_eq] at hnew
          exact hnew.2
        have hrows := d.failedFrom_le_count user.username hnc hwindow
        have hbegins := hcounted rest hrest hlocked' start
        unfold maxFailedPerAccount at hcount
        omega
  · exact h part hpart hlocked start

theorem Counted.wrong {s : Recorded} {time : ℤ} (h : Counted user s.data s.events) (hc : c ≤ time)
    (hattempts : t.data.attempts = s.data.attempts ++ [⟨ip, user.username, time, false⟩]) :
    Counted user t.data (.wrongPassword user.id c :: s.events) := by
  intro part hpart hlocked start
  obtain rfl | ⟨rest, rfl, hrest⟩ := prefix_cons_iff.mp hpart
  · exact Nat.zero_le _
  · have hrows := h rest hrest (fun hmem => hlocked (mem_cons_of_mem _ hmem)) start
    rw [failedFrom, hattempts, countP_append, ← failedFrom, countP_cons]
    have hnew : (if (Event.wrongPassword user.id c).wrongSince user.id start = true then 1 else 0) ≤
        [(⟨ip, user.username, time, false⟩ : LoginAttemptRow)].countP fun r =>
          r.username == user.username && decide (start ≤ r.attemptedAt) && !r.success := by
      split_ifs with hsince
      · have hstart : start ≤ time := by
          simp only [Event.wrongSince, Bool.and_eq_true, decide_eq_true_eq] at hsince
          exact hsince.2.trans hc
        simp [hstart]
      · exact Nat.zero_le _
    omega

theorem Locks.login {body : LoginRequest} {s : Recorded} (h : Locks s)
    (heffect : LoginEffect ip body s t) (hname : s.data.storedSpelling body.username)
    (hkept : ∀ name, .attemptLost name ∉ t.events) : Locks t := by
  cases heffect with
  | quiet hquiet => exact h.quiet hquiet hname
  | wrong user n c hfound hcount hnc hc hattempt =>
    cases hattempt with
    | lost hlost => exact absurd hlost (hkept _)
    | recorded time htime hrecords hevents =>
      obtain ⟨huser, hlower⟩ := Users.getByUsername_eq_some.mp hfound
      have husername := eq_of_storedSpelling hname huser hlower
      have hspelled : ({ s with clock := c, events := .wrongPassword user.id c :: s.events } :
        Recorded).data.Spelled := h.spelled
      refine ⟨hspelled.records hrecords hname, ?_, ?_⟩
      · intro other hother
        rw [hrecords.users] at hother
        rw [hevents]
        by_cases hid : user.id = other.id
        · cases eq_of_key_eq s.data.users.ids huser hother hid
          rw [husername] at hrecords
          exact (h.counted user huser).wrong htime hrecords.attempts
        · exact ((h.counted other hother).mono fun start =>
            failedFrom_mono hrecords.attempts).cons
            fun start => by simp [Event.wrongSince, hid]
      · intro other hother
        rw [hrecords.users] at hother
        rw [hevents]
        by_cases hid : user.id = other.id
        · cases eq_of_key_eq s.data.users.ids huser hother hid
          rw [husername] at hcount
          exact (h.limited user huser).wrong (h.counted user huser) hcount hnc
        · exact (h.limited other hother).cons fun start => by
            simp [Event.wrongWithin, hid]

theorem username_ne {users : Users} {u v : UserRow} (hu : u ∈ users.rows) (hv : v ∈ users.rows)
    (hne : u.id ≠ v.id) : u.username ≠ v.username := by
  intro hname
  have hlower : u.usernameLower = v.usernameLower := by
    rw [users.lower u hu, users.lower v hv, hname]
  exact hne (congrArg UserRow.id (eq_of_key_eq users.names hu hv hlower))

theorem Data.failedFrom_clearForUsername (d : Data) (hne : username ≠ name) :
    (d.clearForUsername name).failedFrom username start = d.failedFrom username start := by
  simp only [failedFrom, clearForUsername, deleteWhere, countP_filter]
  refine countP_congr fun r _ => ?_
  by_cases hr : r.username = username
  · simp [hr, hne]
  · simp [hr]

theorem Locks.cleared {s : Recorded} (h : Locks s) (huser : user ∈ s.data.users.rows) (time : ℤ) :
    Locks ⟨s.data.clearForUsername user.username, time, .unlocked user.id :: s.events⟩ := by
  refine ⟨?_, ?_, fun other hother => (h.limited other hother).cons fun _ => rfl⟩
  · intro r hr other hother hlower
    exact h.spelled r (mem_deleteWhere.mp hr).1 other hother hlower
  · intro other hother
    by_cases hid : other.id = user.id
    · -- no part since the unlock has an event before it
      intro part hpart hlocked start
      obtain rfl | ⟨rest, rfl, -⟩ := prefix_cons_iff.mp hpart
      · exact Nat.zero_le _
      · rw [hid] at hlocked
        exact absurd mem_cons_self hlocked
    · refine ((h.counted other hother).mono fun start => ?_).cons fun _ => rfl
      exact (s.data.failedFrom_clearForUsername (username_ne hother huser hid)).ge

theorem Data.Spelled.noLock_clear (h : d.Spelled) (huser : user ∈ d.users.rows) :
    (d.clearForUsername user.username).NoLock user := by
  intro spelling hspelling since
  rw [countFailedByUsername, countP_eq_zero]
  intro r hr
  obtain ⟨hmem, hkept⟩ := mem_deleteWhere.mp hr
  by_cases hname : r.username = spelling
  · have hstored : r.username = user.username := by
      refine h r hmem user huser ?_
      rw [hname, hspelling]
    simp [hstored] at hkept
    simp [hkept]
  · simp [hname]

def Event.isLost : Event → Bool
  | .attemptLost _ => true
  | .clearLost _ => true
  | _ => false

section Lockout

variable (hashToken : String → String)

/-- The name is spelled as stored, and the attempts are written. -/
def countsAttempts (s : Recorded) (label : LoginLabel) : Bool :=
  (match label.1 with
    | .login _ body => s.data.storedSpelling body.username
    | .unlock _ _ => true) &&
  !(label.1.apply hashToken s label.2).events.any Event.isLost

variable {hashToken}

theorem countsAttempts.notLost {s : Recorded} {label : LoginLabel}
    (h : countsAttempts hashToken s label) {e : Event} (he : e.isLost) :
    e ∉ (label.1.apply hashToken s label.2).events := by
  intro hmem
  have hany : (label.1.apply hashToken s label.2).events.any Event.isLost :=
    any_eq_true.mpr ⟨e, hmem, he⟩
  simp [countsAttempts, hany] at h

theorem apply_unlock {s : Recorded} {auth : AuthenticatedUser} {id : String} {env : ℕ → Outside}
    (hok : countsAttempts hashToken s (.unlock auth id, env)) :
    ((∃ e, ((unlockUser auth id).run execRecorded env s).result = .error e) ∧
      Waits s ((unlock auth id).apply hashToken s env)) ∨
    ∃ user time, user ∈ s.data.users.rows ∧ user.id = id ∧
      (unlock auth id).apply hashToken s env =
        ⟨s.data.clearForUsername user.username, time, .unlocked user.id :: s.events⟩ := by
  have heffect := unlockUser_ends auth id s env
  have hnotLost := fun name => countsAttempts.notLost hok (e := .clearLost name) rfl
  generalize hended : (unlockUser auth id).run execRecorded env s = ended at heffect
  obtain ⟨result, state, log⟩ := ended
  simp only [apply, hended] at hnotLost ⊢
  cases heffect with
  | refused e hwaits => exact .inl ⟨⟨e, rfl⟩, hwaits⟩
  | cleared user time hfound =>
    obtain ⟨huser, hid⟩ := Users.getById_eq_some.mp hfound
    subst hid
    exact .inr ⟨user, time, huser, rfl, rfl⟩
  | lost name hlost => exact absurd (mem_cons_of_mem _ hlost) (hnotLost name)

theorem Locks.step {s t : Recorded} {label : LoginLabel} (h : Locks s)
    (hok : countsAttempts hashToken s label) (hstep : Step hashToken s label t) : Locks t := by
  obtain ⟨step, env⟩ := label
  subst hstep
  cases step with
  | login ip body =>
    have hname : s.data.storedSpelling body.username := by
      simp only [countsAttempts, Bool.and_eq_true] at hok
      exact hok.1
    exact h.login (login_ends env) hname fun name => countsAttempts.notLost hok rfl
  | unlock auth id =>
    obtain ⟨-, time, hle, hwaits⟩ | ⟨user, time, huser, -, ht⟩ := apply_unlock hok
    · rw [hwaits]
      exact ⟨h.spelled, h.counted, h.limited⟩
    · rw [ht]
      exact h.cleared huser time

/-- **The lock of an account**, in every history that spells names as stored and records and deletes
attempts as asked. -/
theorem lockout_holds {d : Data} (hd : d.Spelled) {clock : ℤ} {s : Recorded}
    (h : Run (Step hashToken) (fun s label => countsAttempts hashToken s label) (new d clock) s) :
    (∀ user ∈ s.data.users.rows, AtMostFive user.id s.events) ∧
      ∀ auth id env, countsAttempts hashToken s (.unlock auth id, env) →
        ((unlockUser auth id).run execRecorded env s).result = .ok () →
        ∀ user ∈ s.data.users.rows, user.id = id →
          ((unlock auth id).apply hashToken s env).data.NoLock user := by
  have hstart : Locks (new d clock) := by
    refine ⟨hd, ?_, ?_⟩
    · intro user _ part hpart _ start
      rw [prefix_nil.mp hpart]
      exact Nat.zero_le _
    · intro user _ part hpart _ start
      rw [infix_nil.mp hpart]
      exact Nat.zero_le _
  have hend := h.invariant Locks Locks.step hstart
  refine ⟨hend.limited, ?_⟩
  intro auth id env hok hresult user huser hid
  obtain ⟨⟨e, he⟩, -⟩ | ⟨found, time, hfound, hid', ht⟩ := apply_unlock hok
  · rw [hresult] at he
    cases he
  · rw [ht, eq_of_key_eq s.data.users.ids huser hfound (hid.trans hid'.symm)]
    exact hend.spelled.noLock_clear hfound

end Lockout

/-! ## Two spellings -/

open UserUpdates (sampleUser twoAdmins willing)

def wrongLogins (name : String) (n : ℕ) : List LoginLabel :=
  List.replicate n (.login "10.0.0.1" ⟨name, "guess"⟩, fun _ => { willing with valid := .ok false })

def unlocker : AuthenticatedUser := ⟨"u2", "bob", .admin⟩

theorem run_of_history {check : Recorded → LoginLabel → Bool} {history : List LoginLabel}
    {s : Recorded} (h : history.foldlM (fun s label =>
      if check s label then some (label.1.apply (fun token => token) s label.2) else none) s =
        some t) :
    Run (Step fun token => token) (fun s label => check s label) s t :=
  (Run.of_checked check (fun _ _ _ hok => hok) h).mono
    (fun _ _ _ hstep => (Option.some.inj hstep).symm) fun _ _ hok => hok

theorem lockout_holds_of_six : ∃ s, Run (Step fun token => token)
        (fun s label => countsAttempts (fun token => token) s label)
        (new twoAdmins 0) s ∧
      s.events = List.replicate 5 (.wrongPassword "u1" 0) ∧ AtMostFive "u1" s.events ∧
      ((unlock unlocker "u1").apply (fun token => token) s fun _ => willing).data.NoLock
        (sampleUser "u1" "ada" .admin) := by
  have hrun := run_of_history (rfl : (wrongLogins "ada" 6).foldlM (fun s label =>
    if countsAttempts (fun token => token) s label then
      some (label.1.apply (fun token => token) s label.2) else none) (new twoAdmins 0) = some _)
  have hspelled : twoAdmins.Spelled := by
    intro r hr
    cases hr
  obtain ⟨hlimited, hunlocked⟩ := lockout_holds hspelled hrun
  exact ⟨_, hrun, rfl, hlimited (sampleUser "u1" "ada" .admin) mem_cons_self,
    hunlocked unlocker "u1" (fun _ => willing) rfl rfl _ mem_cons_self rfl⟩

/-- Under two spellings six wrong passwords are checked, and an unlock leaves the second one locked.
-/
theorem six_wrong_by_spelling : ∃ s, Run (Step fun token => token) anyStep (new twoAdmins 0) s ∧
      s.events = List.replicate 6 (.wrongPassword "u1" 0) ∧ ¬ AtMostFive "u1" s.events ∧
      ((unlockUser unlocker "u1").run execRecorded (fun _ => willing) s).result = .ok () ∧
      ((login (fun token => token) "10.0.0.1" ⟨"Ada", "guess"⟩).run execRecorded (fun _ => willing)
        ((unlock unlocker "u1").apply (fun token => token) s fun _ => willing)).result =
          .error .accountLocked := by
  have hrun : Run (Step fun token => token) anyStep (new twoAdmins 0)
      ((wrongLogins "ada" 1 ++ wrongLogins "Ada" 5).foldl
        (fun s label => label.1.apply (fun token => token) s label.2) (new twoAdmins 0)) :=
    Run.of_foldl (fun _ _ => rfl) fun _ _ _ => trivial
  refine ⟨_, hrun, rfl, ?_, rfl, rfl⟩
  intro hlimited
  exact absurd (hlimited _ (infix_refl _) (by decide) 0) (by decide)

end Wacp.Console.Accounts
