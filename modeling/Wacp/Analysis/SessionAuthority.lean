import Wacp.Analysis.CredentialHistory
import Wacp.Analysis.DispatchedTools
import Wacp.Analysis.SessionConfinement

/-!
# Roles and requests on a session

The handlers ask whether the user is an admin or owns the session, and not what the matrix says. An
`Effective` request does more than read.
-/

namespace Wacp.Console

open Library Prog List Accounts

/-! ## Requests and their actions -/

inductive SessionRequest where
  | update (body : Editing.UpdateSessionRequest)
  | assignments (body : List Editing.AssignmentInput)
  | launch
  | cancel (reason : Option String)
  | highway (request : Highway.Request)

namespace SessionRequest

/-- The matrix has no action for updates, assignments and launches other than that of creating a
session. -/
def ownAction : SessionRequest → Action
  | .update _ | .assignments _ | .launch => .createSession
  | .cancel _ => .cancelOwnSession
  | .highway (.resolveGate _ _) | .highway (.batchResolveGates _) => .approveOwnGates
  | .highway (.respondEscalation _ _) => .handleOwnEscalations
  | .highway (.injectDirective _) => .injectOwnDirectives

def anyAction : SessionRequest → Action
  | .update _ | .assignments _ | .launch => .createSession
  | .cancel _ => .cancelAnySession
  | .highway (.resolveGate _ _) | .highway (.batchResolveGates _) => .approveAnyGates
  | .highway (.respondEscalation _ _) => .handleAnyEscalations
  | .highway (.injectDirective _) => .injectAnyDirectives

theorem isAllowed_ownAction (role : ConsoleRole) (request : SessionRequest) :
    isAllowed role request.ownAction ↔ role ≠ .viewer := by
  cases request with
  | highway request => cases request <;> cases role <;> simp [ownAction, isAllowed]
  | _ => cases role <;> simp [ownAction, isAllowed]

theorem isAllowed_anyAction (role : ConsoleRole) (request : SessionRequest) :
    isAllowed role request.anyAction ↔
      role = .admin ∨ (role = .operator ∧ request.anyAction = request.ownAction) := by
  cases request with
  | highway request => cases request <;> cases role <;> simp [ownAction, anyAction, isAllowed]
  | _ => cases role <;> simp [ownAction, anyAction, isAllowed]

end SessionRequest

/-! ## Effects -/

/-- Writes, requests to the runtime, and starting or stopping a monitor. -/
def Call.acts : Call → Bool
  | .transitionState _ _ | .setCancelled | .finalize _ _ | .submitGoal _ | .decompose _
  | .dispatch _ | .abortWorkspace _ | .spawnMonitor _ | .removeMonitor => true
  | _ => false

def Editing.Call.acts : Editing.Call → Bool
  | .session c => c.acts
  | .profile _ | .listBySession => false
  | .updateContext _ | .updateName _ | .updateBudgets _ _ _ | .deleteAssignments
  | .insertAssignment _ => true

def Highway.Call.acts : Highway.Call → Bool
  | .getById _ | .highway | .monitor _ => false
  | .respondToGate _ | .respondToEscalation _ | .injectEnvelope _ | .dropGate _ _
  | .dropEscalation _ _ => true

/-- A request on a session of `owner` that does more than read. -/
inductive Effective (auth : Auth) : SessionRequest → (owner : String) → Prop where
  | update (set : Editing.Setting) (w : Editing.World) (env : ℕ → Editing.Outside)
      (body : Editing.UpdateSessionRequest)
      (h : ∃ x ∈ ((Editing.updateSession set auth w.row.id body).run Editing.exec env w).log,
        x.call.acts) :
      Effective auth (.update body) w.row.ownerUserId
  | assignments (w : Editing.World) (env : ℕ → Editing.Outside)
      (body : List Editing.AssignmentInput)
      (h : ∃ x ∈ ((Editing.setAssignments auth w.row.id body).run Editing.exec env w).log,
        x.call.acts) :
      Effective auth (.assignments body) w.row.ownerUserId
  | launch (set : Editing.Setting) (w : Editing.World) (env : ℕ → Editing.Outside)
      (h : ∃ x ∈ ((Editing.launchSession set auth w.row.id).run Editing.exec env w).log,
        x.call.acts) :
      Effective auth .launch w.row.ownerUserId
  | cancel (s : SessionData) (env : ℕ → Outside) (reason : Option String)
      (h : ∃ x ∈ ((cancelSession auth s.row.id reason).run exec env s).log, x.call.acts) :
      Effective auth (.cancel reason) s.row.ownerUserId
  | highway (jsonText : JsonValue → List UInt8) (d : Highway.Data) (env : ℕ → Highway.Outside)
      (request : Highway.Request) (session : SessionRow) (hsession : session ∈ d.sessions)
      (h : ∃ x ∈ ((request.program jsonText auth session.id).run Highway.exec env d).log,
        x.call.acts) :
      Effective auth (.highway request) session.ownerUserId

/-! ## Only an admin or the owner has an effect -/

def Auth.MayAct (auth : Auth) (owner : String) : Prop :=
  auth.isAdmin ∨ owner = auth.userId

def Grants (auth : Auth) : Except DbError (Option SessionRow) → Prop
  | .ok (some session) => auth.MayAct session.ownerUserId
  | _ => False

section Guards

variable {auth : Auth}

theorem writeAccess_error {session : SessionRow} (h : ¬ auth.MayAct session.ownerUserId) :
    ∃ e, checkSessionWriteAccess auth session = .error e := by
  obtain ⟨hadmin, howner⟩ := not_or.mp h
  exact ⟨_, by rw [checkSessionWriteAccess, if_neg hadmin, if_neg howner]⟩

theorem actionAccess_error {session : SessionRow} (h : ¬ auth.MayAct session.ownerUserId) :
    ∃ e, Highway.checkSessionActionAccess auth session = .error e := by
  obtain ⟨hadmin, howner⟩ := not_or.mp h
  exact ⟨_, by rw [Highway.checkSessionActionAccess, if_neg hadmin, if_neg howner]⟩

theorem of_not_grants {P : Except DbError (Option SessionRow) → Prop} (herror : ∀ e, P (.error e))
    (hnone : P (.ok none))
    (hsome : ∀ session : SessionRow, ¬ auth.MayAct session.ownerUserId → P (.ok (some session)))
    (r : Except DbError (Option SessionRow)) (hr : ¬ Grants auth r) : P r := by
  cases r with
  | error e => exact herror e
  | ok found =>
    cases found with
    | none => exact hnone
    | some session => exact hsome session hr

variable {id : String}

theorem cancelSession_guarded {reason : Option String} :
    (cancelSession auth id reason).Guarded .getById (Grants auth) fun _ => True := by
  refine Guarded.perform (c := Call.getById) (of_not_grants (fun e => ⟨_, rfl, trivial⟩)
    ⟨_, rfl, trivial⟩ fun session hsession => ?_)
  obtain ⟨e, he⟩ := writeAccess_error hsession
  simp only [he]
  exact ⟨_, rfl, trivial⟩

theorem launchSession_guarded {set : Editing.Setting} :
    (Editing.launchSession set auth id).Guarded (.session .getById) (Grants auth)
      fun _ => True := by
  have hlaunch : (Console.launchSession auth id).Guarded .getById (Grants auth)
      fun _ => True := by
    refine Guarded.perform (c := Call.getById) (of_not_grants (fun e => ⟨_, rfl, trivial⟩)
      ⟨_, rfl, trivial⟩ fun session hsession => ?_)
    obtain ⟨e, he⟩ := writeAccess_error hsession
    simp only [he]
    exact ⟨_, rfl, trivial⟩
  have hanswer : Editing.answer set .getById = .call (.session .getById) fun r => .ret r := rfl
  exact hlaunch.interpret hanswer

theorem getConfiguring_guarded {conflict : String} :
    (Editing.getConfiguring auth id conflict).Guarded (.session .getById) (Grants auth)
      fun r => ∃ e, r = .error e := by
  refine Guarded.perform (c := Editing.Call.session .getById) (of_not_grants
    (fun e => ⟨_, rfl, _, rfl⟩) ⟨_, rfl, _, rfl⟩ fun session hsession => ?_)
  obtain ⟨e, he⟩ := writeAccess_error hsession
  simp only [he]
  exact ⟨_, rfl, _, rfl⟩

theorem updateSession_guarded {set : Editing.Setting} {body : Editing.UpdateSessionRequest} :
    (Editing.updateSession set auth id body).Guarded (.session .getById) (Grants auth)
      fun _ => True := by
  refine getConfiguring_guarded.bind ?_
  rintro - ⟨e, rfl⟩
  exact ⟨_, rfl, trivial⟩

theorem setAssignments_guarded {body : List Editing.AssignmentInput} :
    (Editing.setAssignments auth id body).Guarded (.session .getById) (Grants auth)
      fun _ => True := by
  refine getConfiguring_guarded.bind ?_
  rintro - ⟨e, rfl⟩
  exact ⟨_, rfl, trivial⟩

variable {sid : String}

theorem getAccessible_guarded :
    (Highway.getAccessible auth sid).Guarded (.getById sid) (Grants auth)
      fun r => ∃ e, r = .error e := by
  refine Guarded.perform (c := Highway.Call.getById sid) (of_not_grants
    (fun e => ⟨_, rfl, _, rfl⟩) ⟨_, rfl, _, rfl⟩ fun session hsession => ?_)
  obtain ⟨e, he⟩ := actionAccess_error hsession
  simp only [he]
  exact ⟨_, rfl, _, rfl⟩

theorem guarded_of_getAccessible {α : Type}
    {f : Except Highway.HighwayError SessionRow → Highway.Program α}
    (hf : ∀ e, ∃ a, f (.error e) = .ret a) :
    (Highway.getAccessible auth sid >>= f >>= fun _ => pure ()).Guarded (.getById sid)
      (Grants auth) fun _ => True := by
  have hhandler : (Highway.getAccessible auth sid >>= f).Guarded (.getById sid) (Grants auth)
      fun _ => True := by
    refine getAccessible_guarded.bind ?_
    rintro - ⟨e, rfl⟩
    obtain ⟨a, ha⟩ := hf e
    exact ⟨a, ha, trivial⟩
  exact hhandler.bind fun _ _ => ⟨(), rfl, trivial⟩

theorem program_guarded {jsonText : JsonValue → List UInt8} {request : Highway.Request} :
    (request.program jsonText auth sid).Guarded (.getById sid) (Grants auth) fun _ => True := by
  cases request with
  | resolveGate | batchResolveGates | respondEscalation | injectDirective =>
      exact guarded_of_getAccessible fun e => ⟨_, rfl⟩

theorem mayAct_of_statement {s : SessionData} {o : Outside} {row : SessionRow}
    (h : Grants auth (s.statement o (some row) s).1) : auth.MayAct row.ownerUserId := by
  unfold SessionData.statement at h
  split at h
  · exact h.elim
  · exact h

theorem Effective.mayAct {request : SessionRequest} {owner : String}
    (h : Effective auth request owner) : auth.MayAct owner := by
  have hne : ∀ {C : Type} {acts : C → Bool} {c c₀ : C}, acts c → acts c₀ = false → c ≠ c₀ :=
    fun hc hc₀ heq => by rw [heq, hc₀] at hc; cases hc
  cases h with
  | update set w env body h =>
    obtain ⟨x, hx, hacts⟩ := h
    exact mayAct_of_statement (updateSession_guarded.of_mem hx (hne hacts rfl))
  | assignments w env body h =>
    obtain ⟨x, hx, hacts⟩ := h
    exact mayAct_of_statement (setAssignments_guarded.of_mem hx (hne hacts rfl))
  | launch set w env h =>
    obtain ⟨x, hx, hacts⟩ := h
    exact mayAct_of_statement (launchSession_guarded.of_mem hx (hne hacts rfl))
  | cancel s env reason h =>
    obtain ⟨x, hx, hacts⟩ := h
    exact mayAct_of_statement (cancelSession_guarded.of_mem hx (hne hacts rfl))
  | highway jsonText d env request session hsession h =>
    obtain ⟨x, hx, hacts⟩ := h
    have hgrants := program_guarded.of_mem hx (hne hacts rfl)
    have hfound : d.getById session.id = some session :=
      (find?_key_eq_some_iff d.ids).mpr ⟨hsession, rfl⟩
    simp only [Highway.exec, hfound] at hgrants
    split at hgrants
    · exact hgrants.elim
    · exact hgrants

end Guards

/-! ## Histories of roles -/

namespace Accounts

def HasRole (s : Recorded) (userId : String) (role : ConsoleRole) : Prop :=
  ∃ row ∈ s.data.users.rows, row.id = userId ∧ row.consoleRole = role

/-- In a history from `start`, a request is authenticated with role `was`, and still at work when
the role is `now`. -/
def Requester (hashToken : String → String) (start : Recorded) (user : AuthenticatedUser)
    (was now : ConsoleRole) : Prop :=
  ∃ s t credentials, Run (AccountRequest.Step hashToken) anyStep start s ∧
    Authenticates s (authenticate hashToken credentials) user ∧ HasRole s user.userId was ∧
    Run (AccountRequest.Step hashToken) anyStep s t ∧ HasRole t user.userId now

theorem Requester.role_eq {hashToken : String → String} {start : Recorded}
    {user : AuthenticatedUser} {was now : ConsoleRole}
    (h : Requester hashToken start user was now) : user.consoleRole = was := by
  obtain ⟨s, t, credentials, -, hauth, ⟨row, hrow, hid, rfl⟩, -⟩ := h
  have hfound : ∃ found ∈ s.data.users.rows, user = found.authenticated := by
    obtain ⟨token, found, hlive, ha⟩ | ⟨cookieValue, found, -, hlive, ha, -⟩ := hauth.cases
    · exact ⟨found, hlive.active.1, ha⟩
    · exact ⟨found, hlive.active.1, ha⟩
  obtain ⟨found, hmem, rfl⟩ := hfound
  have hsame : row = found := eq_of_key_eq s.data.users.ids hrow hmem hid
  rw [hsame]
  rfl

end Accounts

/-! ## What the matrix says -/

theorem authorize_eq_ok_iff (user : AuthenticatedUser) (action : Action) :
    authorize user action = .ok () ↔ isAllowed user.consoleRole action := by
  unfold authorize
  split_ifs with h <;> simp [h]

/-- **The matrix allows a request that has an effect, unless the user is a viewer by now or no
longer the admin they were.** -/
theorem effective_authorized_iff {hashToken : String → String} {start : Recorded}
    {user : AuthenticatedUser} {was now : ConsoleRole}
    (huser : Requester hashToken start user was now) {request : SessionRequest}
    {owner : String} (heffect : Effective user.auth request owner) :
    authorizeOwned { user with consoleRole := now } request.ownAction request.anyAction owner =
        .ok () ↔
      now ≠ .viewer ∧ (now = .admin ∨ was ≠ .admin ∨ owner = user.userId ∨
        request.anyAction = request.ownAction) := by
  have hmay : was = .admin ∨ owner = user.userId := by
    obtain hadmin | howner := heffect.mayAct
    · exact .inl (huser.role_eq.symm.trans (by simpa [AuthenticatedUser.auth] using hadmin))
    · exact .inr howner
  unfold authorizeOwned
  split_ifs with howner
  · rw [authorize_eq_ok_iff, SessionRequest.isAllowed_ownAction]
    exact ⟨fun hrole => ⟨hrole, .inr (.inr (.inl howner.symm))⟩, fun h => h.1⟩
  · have hwas : was = .admin := hmay.resolve_right fun h => howner h.symm
    rw [authorize_eq_ok_iff, SessionRequest.isAllowed_anyAction]
    cases now with
    | admin | viewer => simp
    | operator => simp [hwas, Ne.symm howner]

/-! ## An operator who becomes a viewer -/

namespace Authority

open Accounts.UserUpdates (sampleUser)

/-- An operator and an admin, logged in with `c1` and `c2`. -/
def staff : Data where
  users :=
    { rows := [sampleUser "u1" "ada" .operator, sampleUser "u2" "bob" .admin]
      ids := by decide
      names := by decide
      lower := by decide }
  sessions := [⟨"u1", "c1", 1000⟩, ⟨"u2", "c2", 1000⟩]
  tokens := []
  attempts := []
  sessionHashes := by decide
  tokenHashes := nodup_nil

def ada (role : ConsoleRole) : AuthenticatedUser := ⟨"u1", "ada", role⟩

def demotion : AccountLabel :=
  (.updateUser ⟨none, some "c2"⟩ "u1" ⟨some "viewer", none⟩, drawing "")

def after (history : List AccountLabel) : Recorded :=
  history.foldl (fun s label => label.1.apply (fun token => token) s label.2) (.new staff 0)

theorem run_after {history : List AccountLabel} :
    Run (AccountRequest.Step fun token => token) anyStep (.new staff 0) (after history) :=
  Run.of_foldl (fun _ _ => rfl) (fun _ _ _ => trivial)

def rename : Editing.UpdateSessionRequest := ⟨some "mine", none, none, none, none⟩

def renamed (role : ConsoleRole) :
    Ended Editing.Call Editing.Reply Editing.World (Except ApiError Unit) :=
  (Editing.updateSession Editing.Sample.setting (ada role).auth "s" rename).run Editing.exec
    (fun _ => Editing.Sample.willing) (Editing.Sample.world 1 (Editing.Sample.table none))

theorem effective_rename {role : ConsoleRole} :
    Effective (ada role).auth (.update rename) "u1" := by
  refine .update Editing.Sample.setting (Editing.Sample.world 1 (Editing.Sample.table none))
    (fun _ => Editing.Sample.willing) rename ⟨⟨.updateName "mine", .ok true⟩, ?_, rfl⟩
  cases role <;> exact mem_cons_of_mem _ (mem_cons_self ..)

theorem operator_rename_authorized :
    Requester (fun token => token) (.new staff 0) (ada .operator) .operator .operator ∧
      authorizeOwned (ada .operator) .createSession .createSession "u1" = .ok () := by
  have huser : Requester (fun token => token) (.new staff 0) (ada .operator) .operator .operator :=
    ⟨after [], after [], ⟨none, some "c1"⟩, run_after, ⟨drawing "", rfl⟩,
      ⟨_, mem_cons_self .., rfl, rfl⟩, .refl _, ⟨_, mem_cons_self .., rfl, rfl⟩⟩
  exact ⟨huser, (effective_authorized_iff huser effective_rename).mpr
    ⟨by decide, .inr (.inl (by decide))⟩⟩

/-- **An operator made a viewer renames and cancels the session**, which the matrix does not allow.
-/
theorem viewer_changes_session : Run (AccountRequest.Step fun token => token) anyStep (.new staff 0)
        (after [demotion]) ∧
      Authenticates (after [demotion])
        (authenticate (fun token => token) ⟨none, some "c1"⟩) (ada .viewer) ∧
      ((renamed .viewer).result = .ok () ∧ (renamed .viewer).state.row.name = some "mine" ∧
        (renamed .viewer).state.row.ownerUserId = "u1") ∧
      authorizeOwned (ada .viewer) .createSession .createSession "u1" =
        .error (.forbidden "viewer cannot perform CreateSession") ∧
      ((cancelSession (ada .viewer).auth "s" none).run exec
        (fun _ => Editing.Sample.willing.session)
        (Editing.Sample.world 1 (Editing.Sample.table none)).session).state.row.state = .cancelled ∧
      authorizeOwned (ada .viewer) .cancelOwnSession .cancelAnySession "u1" =
        .error (.forbidden "viewer cannot perform CancelOwnSession") :=
  ⟨run_after, ⟨drawing "", rfl⟩, ⟨rfl, rfl, rfl⟩, rfl, rfl, rfl⟩

end Authority

end Wacp.Console
