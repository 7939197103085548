import Wacp.Library.Rows
import Wacp.Model.HighwayHandlers

/-!
# Whose workspaces a request of the highway reaches

The handlers ask whether the user owns the session in the path; nothing ties the gate, escalation or
workspace in the rest of the request to it.
-/

namespace Wacp.Console.Highway

open Library Prog List Option Table HighwayRuntime

/-! ## What belongs to whom -/

inductive Resource where
  | gate (gid : String)
  | escalation (eid : String)
  | workspace (id : String)
  deriving DecidableEq

def Call.names : Call → Option Resource
  | .respondToGate request => some (.gate request.gateId)
  | .respondToEscalation request => some (.escalation request.escalationId)
  | .injectEnvelope request => some (.workspace request.toWorkspace)
  | _ => none

/-- The gate of a task is in the workspace the task is bound to, if any. -/
def Resource.places (rt : HighwayRuntime) : Resource → List (Option WorkspaceId)
  | .gate gid =>
    ((rt.gateController.pendingCheckpoints.get gid).map fun g => some g.workspaceId).toList ++
      ((rt.gateController.pending.get gid).map fun g =>
        rt.system.coordinator.taskGraph.taskWorkspace.get g.taskId).toList
  | .escalation eid => ((rt.trail.escalationIndex.get eid).map fun w => some ⟨w⟩).toList
  | .workspace id => ((rt.system.coordinator.tree.get ⟨id⟩).map fun _ => some ⟨id⟩).toList

namespace Data

def BelongsTo (d : Data) (userId : String) (w : WorkspaceId) : Prop :=
  ∃ session ∈ d.sessions, session.ownerUserId = userId ∧
    (session.coordinatorWorkspaceId = some w.text ∨
      ∃ a, (session.id, a) ∈ d.assignments ∧ a.workspaceId = some w.text)

/-- What is under the name is in a workspace of a session of the user. -/
def Owned (d : Data) (userId : String) (res : Resource) : Prop :=
  ∀ place ∈ res.places d.runtime, ∃ w, place = some w ∧ d.BelongsTo userId w

end Data

/-- The request names only what the user owns, and nothing else has changed. -/
structure Confined (d : Data) (userId : String) (ended : Ended Call Reply Data Unit) : Prop where
  named : ∀ x ∈ ended.log, ∀ res ∈ x.call.names, d.Owned userId res
  places : ∀ res : Resource,
    res.places ended.state.runtime = res.places d.runtime ∨ d.Owned userId res
  actors : ∀ i, ended.state.runtime.system.actors[i]? = d.runtime.system.actors[i]? ∨
    ∃ w, d.runtime.system.coordinator.workspaceHandles.get w = some i ∧ d.BelongsTo userId w
  monitors : ∀ sid, ended.state.activeSessions.get sid = d.activeSessions.get sid ∨
    ∃ session ∈ d.sessions, session.id = sid ∧ session.ownerUserId = userId

structure Data.NothingForeign (d : Data) (userId : String) : Prop where
  gates : ∀ session ∈ d.sessions, session.ownerUserId = userId →
    ∀ gid, d.Owned userId (.gate gid)
  escalations : ∀ session ∈ d.sessions, session.ownerUserId = userId →
    ∀ eid, d.Owned userId (.escalation eid)
  workspaces : ∀ session ∈ d.sessions, session.ownerUserId = userId → session.state = .active →
    ∀ id, d.Owned userId (.workspace id)

/-! ## What a request to the runtime changes -/

/-- The change concerns what is under the name, and the actors of its workspaces. -/
structure ActsOn (res : Resource) (rt rt' : HighwayRuntime) : Prop where
  coordinator : rt'.system.coordinator = rt.system.coordinator
  places : ∀ other : Resource, other ≠ res → other.places rt' = other.places rt
  fewer : ∀ other : Resource, other.places rt' ⊆ other.places rt
  actors : ∀ i, rt'.system.actors[i]? = rt.system.actors[i]? ∨
    ∃ w, some w ∈ res.places rt ∧ rt.system.coordinator.workspaceHandles.get w = some i

variable {res : Resource} {rt : HighwayRuntime} {w : WorkspaceId}

theorem actsOn_sendCommand (hw : some w ∈ res.places rt) (cmd : CoordinatorCommand) :
    ActsOn res rt (rt.sendCommand w cmd).1 where
  coordinator := rfl
  places other _ := by cases other <;> rfl
  fewer other := by cases other <;> exact Subset.refl _
  actors i := by
    show ((rt.system.coordinator.command w cmd).foldl System.deliver rt.system.actors)[i]? =
        rt.system.actors[i]? ∨ _
    cases hhandle : rt.system.coordinator.workspaceHandles.get w with
    | none =>
      simp [Coordinator.command, hhandle]
    | some handle =>
      simp only [Coordinator.command, hhandle, foldl_cons, foldl_nil]
      by_cases hi : i = handle
      · exact .inr ⟨w, hw, by rw [hhandle, hi]⟩
      · rw [System.deliver, getElem?_modify]
        simp [Ne.symm hi]

theorem ActsOn.refl (res : Resource) (rt : HighwayRuntime) : ActsOn res rt rt :=
  ⟨rfl, fun _ _ => rfl, fun _ => Subset.refl _, fun _ => .inl rfl⟩

theorem ActsOn.trans {rt₁ rt₂ : HighwayRuntime} (h : ActsOn res rt rt₁) (h' : ActsOn res rt₁ rt₂) :
    ActsOn res rt rt₂ where
  coordinator := h'.coordinator.trans h.coordinator
  places other hne := (h'.places other hne).trans (h.places other hne)
  fewer other := Subset.trans (h'.fewer other) (h.fewer other)
  actors i := by
    obtain hsame' | ⟨w, hw, hhandle⟩ := h'.actors i
    · obtain hsame | hsent := h.actors i
      · exact .inl (hsame'.trans hsame)
      · exact .inr hsent
    · rw [h.coordinator] at hhandle
      exact .inr ⟨w, h.fewer res hw, hhandle⟩

section Removed

variable {V : Type} {m m' : Table String V} {k k' : String} (h : m' = m ∨ m' = m.remove k)
include h

theorem get_of_removed (hne : k' ≠ k) : m'.get k' = m.get k' := by
  obtain rfl | rfl := h
  · rfl
  · rw [get_remove, if_neg hne]

theorem subset_of_removed {β : Type} {f : V → β} :
    ((m'.get k').map f).toList ⊆ ((m.get k').map f).toList := by
  obtain rfl | rfl := h
  · exact Subset.refl _
  · rw [get_remove]
    split_ifs <;> simp

end Removed

theorem actsOn_gateController (rt : HighwayRuntime) {c : GateController} {gid : String}
    (hcheckpoint : c.pendingCheckpoints = rt.gateController.pendingCheckpoints ∨
      c.pendingCheckpoints = rt.gateController.pendingCheckpoints.remove gid)
    (htask : c.pending = rt.gateController.pending ∨
      c.pending = rt.gateController.pending.remove gid) :
    ActsOn (.gate gid) rt { rt with gateController := c } where
  coordinator := rfl
  places other hne := by
    cases other with
    | gate gid' =>
      have hgid : gid' ≠ gid := fun heq => hne (by rw [heq])
      simp [Resource.places, get_of_removed hcheckpoint hgid, get_of_removed htask hgid]
    | escalation | workspace => rfl
  fewer other := by
    cases other with
    | gate =>
      intro place hplace
      rw [Resource.places, mem_append] at hplace ⊢
      exact hplace.imp (fun hmem => subset_of_removed hcheckpoint hmem)
        fun hmem => subset_of_removed htask hmem
    | escalation | workspace => exact Subset.refl _
  actors _ := .inl rfl

theorem actsOn_respondToGate (rt : HighwayRuntime) (request : Wacp.GateResponse) :
    ActsOn (.gate request.gateId) rt (rt.respondToGate request).1 := by
  have hresolved : ActsOn (.gate request.gateId) rt
      { rt with gateController := (rt.gateController.resolveCheckpoint request.gateId).1 } :=
    actsOn_gateController rt (.inr rfl) (.inl rfl)
  unfold respondToGate CheckpointRuntime.respondToGate
  dsimp only
  cases hgate : (rt.gateController.resolveCheckpoint request.gateId).2 with
  | none => exact actsOn_gateController rt (.inl rfl) (.inr rfl)
  | some gate =>
    dsimp only
    cases hhandle : rt.system.coordinator.workspaceHandles.get gate.workspaceId with
    | none => exact hresolved
    | some =>
      have hplace : some gate.workspaceId ∈ (Resource.gate request.gateId).places rt := by
        have hget : rt.gateController.pendingCheckpoints.get request.gateId = some gate := hgate
        simp [Resource.places, hget]
      -- the command is sent with the gate still there, and the gate is then taken away
      have hsent := actsOn_sendCommand hplace (CheckpointRuntime.decisionCommand gate
        (CheckpointRuntime.gateDecision request.decision))
      have htaken := hsent.trans (actsOn_gateController _
        (c := (rt.gateController.resolveCheckpoint request.gateId).1)
        (.inr rfl) (.inl rfl))
      simpa [sendCommand, Coordinator.command, hhandle] using htaken

theorem actsOn_removeEscalation {rt : HighwayRuntime} {eid : String} :
    ActsOn (.escalation eid) rt (rt.removeEscalation eid) where
  coordinator := rfl
  places other hne := by
    cases other with
    | gate | workspace => rfl
    | escalation eid' =>
      have heid : eid' ≠ eid := fun heq => hne (by rw [heq])
      simp [Resource.places, removeEscalation, get_remove, if_neg heid]
  fewer other := by
    cases other with
    | gate | workspace => exact Subset.refl _
    | escalation => exact subset_of_removed (.inr rfl)
  actors _ := .inl rfl

theorem actsOn_routed (hw : some w ∈ res.places rt) {type : String} {payload : List UInt8}
    {priority : EnvelopePriority} :
    ActsOn res rt ((rt.nextEnvelope w type payload priority).1.routeEnvelope w
      (rt.nextEnvelope w type payload priority).2).1 := by
  have hnext : ActsOn res rt (rt.nextEnvelope w type payload priority).1 :=
    ⟨rfl, fun other _ => by cases other <;> rfl,
      fun other => by cases other <;> exact Subset.refl _, fun _ => .inl rfl⟩
  refine hnext.trans (actsOn_sendCommand ?_ _)
  cases res <;> exact hw

theorem actsOn_applyAction (hw : some w ∈ res.places rt) (action : Option EscalationAction) :
    ActsOn res rt (rt.applyAction w action).1 := by
  unfold applyAction
  split
  · exact actsOn_routed hw
  · exact actsOn_sendCommand hw _
  · exact ActsOn.refl _ _
  · exact ActsOn.refl _ _

theorem actsOn_respondToEscalation {rt : HighwayRuntime} {request : EscalationResponse} :
    ActsOn (.escalation request.escalationId) rt (rt.respondToEscalation request).1 := by
  unfold respondToEscalation
  cases hindex : rt.trail.escalationIndex.get request.escalationId with
  | none => exact actsOn_removeEscalation
  | some w =>
    have hplace : some ⟨w⟩ ∈ (Resource.escalation request.escalationId).places rt := by
      simp [Resource.places, hindex]
    -- the workspace gets the answer as if the escalation were still there
    have hcomm : ∀ action, ((rt.removeEscalation request.escalationId).applyAction ⟨w⟩ action).1 =
        (rt.applyAction ⟨w⟩ action).1.removeEscalation request.escalationId := by
      intro action
      unfold applyAction
      split <;> rfl
    rw [hcomm]
    exact (actsOn_applyAction hplace _).trans actsOn_removeEscalation

theorem actsOn_injectEnvelope {rt : HighwayRuntime} {request : InjectEnvelopeRequest} :
    ActsOn (.workspace request.toWorkspace) rt (rt.injectEnvelope request).1 := by
  unfold injectEnvelope
  dsimp only
  cases htree : rt.system.coordinator.tree.get ⟨request.toWorkspace⟩ with
  | none => exact ActsOn.refl _ _
  | some =>
    have hplace : some ⟨request.toWorkspace⟩ ∈
        (Resource.workspace request.toWorkspace).places rt := by
      simp [Resource.places, htree]
    dsimp only
    split <;> exact actsOn_routed hplace

/-! ## How the handlers go -/

inductive Phase where
  | start
  | refused
  | granted (session : SessionRow)
  deriving DecidableEq

namespace Phase

variable (auth : Auth) (sid : String)

def afterLook : Except DbError (Option SessionRow) → Phase
  | .ok (some session) =>
    if auth.isAdmin ∨ session.ownerUserId = auth.userId then .granted session else .refused
  | _ => .refused

/-- The handlers read the session, then call the runtime and the monitor as often as they like. -/
def next : Phase → Exchange Call Reply → Option Phase
  | .start, ⟨.getById id, r⟩ => if id = sid then some (afterLook auth r) else none
  | .granted session, ⟨.highway, _⟩ => some (.granted session)
  | .granted session, ⟨.monitor _, _⟩ => some (.granted session)
  | .granted session, ⟨.respondToGate _, _⟩ => some (.granted session)
  | .granted session, ⟨.respondToEscalation _, _⟩ => some (.granted session)
  | .granted session, ⟨.injectEnvelope _, _⟩ =>
    if session.state = .active then some (.granted session) else none
  | .granted session, ⟨.dropGate id _, _⟩ => if id = sid then some (.granted session) else none
  | .granted session, ⟨.dropEscalation id _, _⟩ =>
    if id = sid then some (.granted session) else none
  | _, _ => none

end Phase

section Follows

open Wacp.Console.Highway.Phase

variable (jsonText : JsonValue → List UInt8) (auth : Auth) (sid : String)

abbrev Keeps {α : Type} (p : Program α) (φ : Phase) : Prop :=
  p.Follows (next auth sid) (fun _ _ => True) φ

variable {jsonText auth sid} {session : SessionRow}

theorem getAccessible_follows : (getAccessible auth sid).Follows (next auth sid)
      (fun φ r => ∀ session, r = .ok session → φ = .granted session) .start := by
  refine Follows.perform (c := Call.getById sid) fun r => ⟨afterLook auth r, by simp [Phase.next], ?_⟩
  obtain e | _ | session := r
  · exact fun _ h => by cases h
  · exact fun _ h => by cases h
  · unfold checkSessionActionAccess
    by_cases hadmin : auth.isAdmin
    · simp only [hadmin, if_true]
      intro _ h
      cases h
      simp [afterLook, hadmin]
    · by_cases howner : session.ownerUserId = auth.userId
      · simp only [hadmin, howner, if_true]
        intro _ h
        cases h
        simp [afterLook, howner]
      · simp only [hadmin, howner, if_false]
        exact fun _ h => by cases h

theorem follows_of_granted {α : Type} {f : Except HighwayError SessionRow → Program α}
    (herror : ∀ e φ, Keeps auth sid (f (.error e)) φ)
    (hgranted : ∀ session, Keeps auth sid (f (.ok session)) (.granted session)) :
    Keeps auth sid (getAccessible auth sid >>= f) .start := by
  refine getAccessible_follows.bind fun φ r hφ => ?_
  cases r with
  | error e => exact herror e φ
  | ok session =>
    rw [hφ session rfl]
    exact hgranted session

theorem follows_of_channel {α : Type} {f : Bool → Program α}
    (hclosed : Keeps auth sid (f false) (.granted session))
    (hopen : Keeps auth sid (f true) (.granted session)) :
    Keeps auth sid (perform Call.highway >>= f) (.granted session) := by
  refine Follows.perform fun channel => ⟨_, rfl, ?_⟩
  cases channel with
  | false => exact hclosed
  | true => exact hopen

theorem resolveGate_follows {gid : String} {body : GateResolveRequest} :
    Keeps auth sid (resolveGate jsonText auth sid gid body) .start := by
  refine follows_of_granted (fun _ _ => trivial) fun session => ?_
  cases parseGateDecision body.decision with
  | error => trivial
  | ok =>
    refine follows_of_channel trivial ?_
    refine Follows.perform (c := Call.respondToGate _) fun r => ⟨_, rfl, ?_⟩
    cases r with
    | error => trivial
    | ok =>
      exact Follows.perform (c := Call.dropGate sid gid) fun _ =>
        ⟨.granted session, by simp [Phase.next], trivial⟩

theorem batchResolveOne_follows {monitor : Bool} {item : BatchGateItem} :
    (batchResolveOne sid monitor item).Stays (next auth sid) (.granted session) := by
  unfold batchResolveOne
  cases parseGateDecision item.decision with
  | error => rfl
  | ok =>
    refine Follows.perform (c := Call.respondToGate _) fun r => ⟨_, rfl, ?_⟩
    cases r with
    | error => rfl
    | ok =>
      cases monitor with
      | false => rfl
      | true =>
        exact Follows.perform (c := Call.dropGate sid item.gateId) fun _ =>
          ⟨.granted session, by simp [Phase.next], rfl⟩

variable {gates : List BatchGateItem}

theorem batchResolveEach_follows {monitor : Bool} :
    Keeps auth sid (batchResolveEach sid monitor gates) (.granted session) := by
  induction gates with
  | nil => trivial
  | cons item gates ih =>
    refine batchResolveOne_follows.bind fun _ => ?_
    exact ih.bind fun _ _ _ => trivial

theorem batchResolveGates_follows : Keeps auth sid (batchResolveGates auth sid gates) .start := by
  refine follows_of_granted (fun _ _ => trivial) fun session => ?_
  refine follows_of_channel trivial ?_
  refine Follows.perform (c := Call.monitor sid) fun monitor => ⟨_, rfl, ?_⟩
  exact batchResolveEach_follows.bind fun _ _ _ => trivial

theorem respondEscalation_follows {eid : String} {body : EscalationRequest} :
    Keeps auth sid (respondEscalation jsonText auth sid eid body) .start := by
  refine follows_of_granted (fun _ _ => trivial) fun session => ?_
  cases escalationAction jsonText body with
  | error => trivial
  | ok =>
    refine follows_of_channel trivial ?_
    refine Follows.perform (c := Call.respondToEscalation _) fun r => ⟨_, rfl, ?_⟩
    cases r with
    | error => trivial
    | ok =>
      exact Follows.perform (c := Call.dropEscalation sid eid) fun _ =>
        ⟨.granted session, by simp [Phase.next], trivial⟩

theorem injectDirective_follows {body : InjectDirectiveRequest} :
    Keeps auth sid (injectDirective jsonText auth sid body) .start := by
  refine follows_of_granted (fun _ _ => trivial) fun session => ?_
  dsimp only
  by_cases hactive : session.state = .active
  · rw [if_neg (not_not.mpr hactive)]
    refine follows_of_channel trivial ?_
    refine Follows.perform (c := Call.injectEnvelope _) fun r =>
      ⟨.granted session, by simp [Phase.next, hactive], ?_⟩
    cases r <;> trivial
  · rw [if_pos hactive]
    trivial

theorem program_follows {request : Request} :
    Keeps auth sid (request.program jsonText auth sid) .start := by
  cases request with
  | resolveGate gid body =>
    exact resolveGate_follows.bind fun _ _ _ => trivial
  | batchResolveGates gates =>
    exact batchResolveGates_follows.bind fun _ _ _ => trivial
  | respondEscalation eid body =>
    exact respondEscalation_follows.bind fun _ _ _ => trivial
  | injectDirective body =>
    exact injectDirective_follows.bind fun _ _ _ => trivial

end Follows

/-! ## Along a run -/

/-- A call changes what it names in the runtime, and the monitor it names. -/
structure Effect (c : Call) (d d' : Data) : Prop where
  sessions : d'.sessions = d.sessions
  runtime : d'.runtime = d.runtime ∨ ∃ res ∈ c.names, ActsOn res d.runtime d'.runtime
  monitors : ∀ sid, d'.activeSessions.get sid = d.activeSessions.get sid ∨
    ∃ id, c = .dropGate sid id ∨ c = .dropEscalation sid id

variable {c : Call}

theorem Effect.refl (c : Call) (d : Data) : Effect c d d :=
  ⟨rfl, .inl rfl, fun _ => .inl rfl⟩

theorem effect_forward {α : Type} (hnames : c.names = some res) {d : Data} {o : Outside}
    {r : HighwayRuntime × Except Status α} (hacts : ActsOn res d.runtime r.1) :
    Effect c d (forward d o r).2 := by
  unfold forward
  cases o.transport with
  | some => exact .refl _ _
  | none => exact ⟨rfl, .inr ⟨res, hnames, hacts⟩, fun _ => .inl rfl⟩

theorem effect_monitor {sid id : String} (hc : c = .dropGate sid id ∨ c = .dropEscalation sid id)
    {d : Data} {p : PendingState} :
    Effect c d { d with activeSessions := d.activeSessions.set sid p } := by
  refine ⟨rfl, .inl rfl, fun sid' => ?_⟩
  by_cases h : sid' = sid
  · exact .inr ⟨id, h ▸ hc⟩
  · exact .inl (by rw [get_set, if_neg h])

theorem effect_exec (c : Call) (o : Outside) (d : Data) : Effect c d (exec c o d).2 := by
  cases c with
  | getById =>
    simp only [exec]
    cases o.dbError <;> exact .refl _ _
  | highway | monitor => exact .refl _ _
  | respondToGate => exact effect_forward rfl (actsOn_respondToGate _ _)
  | respondToEscalation => exact effect_forward rfl actsOn_respondToEscalation
  | injectEnvelope => exact effect_forward rfl actsOn_injectEnvelope
  | dropGate sid =>
    simp only [exec, Data.dropGate]
    cases d.activeSessions.get sid with
    | none => exact .refl _ _
    | some => exact effect_monitor (.inl rfl)
  | dropEscalation sid =>
    simp only [exec, Data.dropEscalation]
    cases d.activeSessions.get sid with
    | none => exact .refl _ _
    | some => exact effect_monitor (.inr rfl)

structure Call.Within (sid : String) (session : SessionRow) (c : Call) : Prop where
  workspace : ∀ id, .workspace id ∈ c.names → session.state = .active
  dropGate : ∀ id gid, c = .dropGate id gid → id = sid
  dropEscalation : ∀ id eid, c = .dropEscalation id eid → id = sid

/-- **What the protocol allows**: the session is read first, and all else is for a user who may act
on it. -/
theorem allows_of_next {auth : Auth} {sid : String} {φ φ' : Phase} {x : Exchange Call Reply}
    (h : φ.next auth sid x = some φ') :
    (φ = .start ∧ ∃ r, x = ⟨.getById sid, r⟩ ∧ φ' = .afterLook auth r) ∨
      ∃ session, φ = .granted session ∧ φ' = .granted session ∧ x.call.Within sid session := by
  obtain ⟨c, r⟩ := x
  cases φ with
  | refused => cases h
  | start =>
    cases c with
    | getById =>
      simp only [Phase.next, ite_none_right_eq_some, Option.some.injEq] at h
      obtain ⟨rfl, rfl⟩ := h
      exact .inl ⟨rfl, r, rfl, rfl⟩
    | _ => cases h
  | granted session =>
    refine .inr ⟨session, rfl, ?_⟩
    cases c with
    | getById => cases h
    | injectEnvelope =>
      simp only [Phase.next, ite_none_right_eq_some, Option.some.injEq] at h
      exact ⟨h.2.symm, fun _ _ => h.1, nofun, nofun⟩
    | dropGate =>
      simp only [Phase.next, ite_none_right_eq_some, Option.some.injEq] at h
      exact ⟨h.2.symm, nofun, fun _ _ heq => (by cases heq; exact h.1), nofun⟩
    | dropEscalation =>
      simp only [Phase.next, ite_none_right_eq_some, Option.some.injEq] at h
      exact ⟨h.2.symm, nofun, nofun, fun _ _ heq => (by cases heq; exact h.1)⟩
    | _ =>
      cases h
      exact ⟨rfl, nofun, nofun, nofun⟩

theorem Data.NothingForeign.owned {d : Data} {userId : String} (h : d.NothingForeign userId)
    {session : SessionRow} (hmem : session ∈ d.sessions) (howner : session.ownerUserId = userId)
    {sid : String} (hc : c.Within sid session) : ∀ res ∈ c.names, d.Owned userId res := by
  intro res hres
  cases res with
  | gate gid => exact h.gates session hmem howner gid
  | escalation eid => exact h.escalations session hmem howner eid
  | workspace id => exact h.workspaces session hmem howner (hc.workspace id hres) id

/-- From `d` the runtime came to `rt` by actions on what the user owns. -/
structure Reached (d : Data) (userId : String) (rt : HighwayRuntime) : Prop where
  coordinator : rt.system.coordinator = d.runtime.system.coordinator
  fewer : ∀ res : Resource, res.places rt ⊆ res.places d.runtime
  places : ∀ res : Resource, res.places rt = res.places d.runtime ∨ d.Owned userId res
  actors : ∀ i, rt.system.actors[i]? = d.runtime.system.actors[i]? ∨
    ∃ w, d.runtime.system.coordinator.workspaceHandles.get w = some i ∧ d.BelongsTo userId w

theorem Reached.refl (d : Data) (userId : String) : Reached d userId d.runtime :=
  ⟨rfl, fun _ => Subset.refl _, fun _ => .inl rfl, fun _ => .inl rfl⟩

theorem Reached.acts {d : Data} {userId : String} {rt' : HighwayRuntime} (h : Reached d userId rt)
    (howned : d.Owned userId res) (hacts : ActsOn res rt rt') : Reached d userId rt' where
  coordinator := hacts.coordinator.trans h.coordinator
  fewer other := Subset.trans (hacts.fewer other) (h.fewer other)
  places other := by
    by_cases heq : other = res
    · exact .inr (heq ▸ howned)
    · rw [hacts.places other heq]
      exact h.places other
  actors i := by
    obtain hsame | ⟨w, hw, hhandle⟩ := hacts.actors i
    · rw [hsame]
      exact h.actors i
    · obtain ⟨w', hsome, hbelongs⟩ := howned _ (h.fewer res hw)
      cases hsome
      rw [h.coordinator] at hhandle
      exact .inr ⟨w, hhandle, hbelongs⟩

/-- What a request from `d` to `d'` has kept to so far. -/
structure Kept (d : Data) (auth : Auth) (sid : String) (φ : Phase) (d' : Data)
    (log : List (Exchange Call Reply)) : Prop where
  sessions : d'.sessions = d.sessions
  named : ∀ x ∈ log, ∀ res ∈ x.call.names, d.Owned auth.userId res
  reached : Reached d auth.userId d'.runtime
  monitors : ∀ id, d'.activeSessions.get id = d.activeSessions.get id ∨
    ∃ session ∈ d.sessions, session.id = id ∧ session.ownerUserId = auth.userId
  granted : ∀ session, φ = .granted session →
    session ∈ d.sessions ∧ session.id = sid ∧ session.ownerUserId = auth.userId

section Step

variable {d d' : Data} {auth : Auth} {sid : String} {log : List (Exchange Call Reply)}

theorem Kept.call {session : SessionRow} (hd : d.NothingForeign auth.userId)
    (h : Kept d auth sid (.granted session) d' log) {c : Call} (hc : c.Within sid session)
    (o : Outside) :
    Kept d auth sid (.granted session) (exec c o d').2 (log ++ [⟨c, (exec c o d').1⟩]) := by
  obtain ⟨hmem, hsid, howner⟩ := h.granted session rfl
  have howned := hd.owned hmem howner hc
  have heffect := effect_exec c o d'
  refine ⟨heffect.sessions.trans h.sessions, ?_, ?_, fun id => ?_, h.granted⟩
  · exact forall_mem_append.mpr ⟨h.named, forall_mem_singleton.mpr howned⟩
  · obtain hsame | ⟨res, hres, hacts⟩ := heffect.runtime
    · rw [hsame]
      exact h.reached
    · exact h.reached.acts (howned res hres) hacts
  · obtain hsame | ⟨name, hdrop | hdrop⟩ := heffect.monitors id
    · rw [hsame]
      exact h.monitors id
    · exact .inr ⟨session, hmem, hsid.trans (hc.dropGate id name hdrop).symm, howner⟩
    · exact .inr ⟨session, hmem, hsid.trans (hc.dropEscalation id name hdrop).symm, howner⟩

theorem Kept.look (hauth : auth.isAdmin = false) (h : Kept d auth sid .start d' log) (o : Outside) :
    Kept d auth sid (.afterLook auth (exec (.getById sid) o d').1) (exec (.getById sid) o d').2
      (log ++ [⟨.getById sid, (exec (.getById sid) o d').1⟩]) := by
  have hstate : (exec (.getById sid) o d').2 = d' := by
    simp only [exec]
    cases o.dbError <;> rfl
  rw [hstate]
  refine ⟨h.sessions, ?_, h.reached, h.monitors, ?_⟩
  · exact forall_mem_append.mpr ⟨h.named, forall_mem_singleton.mpr nofun⟩
  · intro session hgranted
    simp only [exec] at hgranted
    cases hdb : o.dbError with
    | some => simp [hdb, Phase.afterLook] at hgranted
    | none =>
      cases hfound : d'.getById sid with
      | none => simp [hdb, hfound, Phase.afterLook] at hgranted
      | some =>
        simp only [hdb, hfound, Phase.afterLook, hauth, Bool.false_eq_true, false_or] at hgranted
        split_ifs at hgranted with howner
        cases hgranted
        obtain ⟨hmem, hid⟩ := (find?_key_eq_some_iff d'.ids).mp hfound
        exact ⟨h.sessions ▸ hmem, hid, howner⟩

end Step

/-! ## Requests that arrive -/

def connected : Outside :=
  { dbError := none, channel := true, transport := none, codeText := fun _ => "" }

section Sent

variable {d : Data} {auth : Auth} {session : SessionRow} (hmem : session ∈ d.sessions)
  (howner : session.ownerUserId = auth.userId) (jsonText : JsonValue → List UInt8)
include hmem howner

theorem getAccessible_run : (getAccessible auth session.id).run exec (fun _ => connected) d =
      ⟨.ok session, d, [⟨.getById session.id, .ok (some session)⟩]⟩ := by
  have hfound : d.getById session.id = some session :=
    (find?_key_eq_some_iff d.ids).mpr ⟨hmem, rfl⟩
  simp [getAccessible, checkSessionActionAccess, howner, hfound, run, exec, connected, perform,
    Bind.bind, Prog.bind, Pure.pure]

theorem owned_of_sent {α : Type} {f : Except HighwayError SessionRow → Program α} {res : Resource}
    {userId : String}
    (h : Confined d userId ((getAccessible auth session.id >>= f >>= fun _ => pure ()).run exec
      (fun _ => connected) d))
    (hsent : ∃ x ∈ ((f (.ok session)).run exec (fun _ => connected) d).log,
      x.call.names = some res) : d.Owned userId res := by
  obtain ⟨x, hx, hname⟩ := hsent
  refine h.named x ?_ res hname
  rw [run_bind]
  refine mem_append_left _ ?_
  rw [run_bind, getAccessible_run hmem howner]
  exact mem_append_right _ hx

end Sent

/-! ## Confinement -/

/-- **Requests of a user who is not an admin stay within their sessions exactly where there is
nothing else to reach.** -/
theorem requests_confined_iff (jsonText : JsonValue → List UInt8) (d : Data)
    {user : AuthenticatedUser} (huser : user.consoleRole ≠ .admin) :
    (∀ (sid : String) (request : Request) (env : ℕ → Outside),
        Confined d user.userId ((request.program jsonText user.auth sid).run exec env d)) ↔
      d.NothingForeign user.userId := by
  have hauth : user.auth.isAdmin = false := by simpa [AuthenticatedUser.auth] using huser
  constructor
  · intro h
    refine ⟨fun session hmem (howner : _ = user.auth.userId) gid => ?_,
      fun session hmem (howner : _ = user.auth.userId) eid => ?_,
      fun session hmem (howner : _ = user.auth.userId) hactive id => ?_⟩
    · exact owned_of_sent hmem howner (h session.id (.resolveGate gid ⟨"approve", none⟩) _)
        ⟨_, mem_cons_of_mem _ (mem_cons_self ..), rfl⟩
    · exact owned_of_sent hmem howner (h session.id (.respondEscalation eid ⟨"abort", none⟩) _)
        ⟨_, mem_cons_of_mem _ (mem_cons_self ..), rfl⟩
    · refine owned_of_sent hmem howner (h session.id (.injectDirective ⟨id, .null, none⟩) _) ?_
      dsimp only
      rw [if_neg (not_not.mpr hactive)]
      exact ⟨_, mem_cons_of_mem _ (mem_cons_self ..), rfl⟩
  · intro hd sid request env
    have hstart : Kept d user.auth sid .start d [] :=
      ⟨rfl, forall_mem_nil _, .refl d _, fun _ => .inl rfl, fun _ h => by cases h⟩
    have hstep : ∀ φ φ' d' log c o, Kept d user.auth sid φ d' log →
        φ.next user.auth sid ⟨c, (exec c o d').1⟩ = some φ' →
        Kept d user.auth sid φ' (exec c o d').2 (log ++ [⟨c, (exec c o d').1⟩]) := by
      intro φ φ' d' log c o hkept hnext
      obtain ⟨rfl, r, hx, rfl⟩ | ⟨session, rfl, rfl, hwithin⟩ := allows_of_next hnext
      · cases hx
        exact hkept.look hauth o
      · exact hkept.call hd hwithin o
    obtain ⟨φ, hkept, -⟩ := run_keeps (Kept d user.auth sid) hstep program_follows env hstart
    exact ⟨hkept.named, hkept.reached.places, hkept.reached.actors, hkept.monitors⟩

/-! ## Two users -/

namespace Sample

def user (id : String) : AuthenticatedUser :=
  { userId := id, username := id, consoleRole := .operator }

def session (id owner workspace : String) (state : SessionState) : SessionRow :=
  { id := id, name := none, ownerUserId := owner, workflow := "build", context := none
    coordinatorWorkspaceId := some workspace, state := state, launchedAt := none, closedAt := none
    budgetMaxCostMicros := none, budgetMaxTokens := none, budgetMaxWallTimeMs := none }

def directive : Envelope :=
  { id := ⟨"env-0"⟩, fromWorkspace := ⟨"root"⟩, toWorkspace := ⟨"ws-2"⟩
    envelopeType := "directive", payload := [], inReplyTo := none, timestamp := 0
    priority := .normal, origin := .human, state := .created }

/-- `ws-2` waits for the answer to a gate and to an escalation. -/
def runtime : HighwayRuntime :=
  { system := (System.init ⟨"root"⟩ ⟨"system"⟩).dispatch
      { taskId := ⟨"task-2"⟩
        config :=
          { id := ⟨"ws-2"⟩, role := "worker", baseRole := .worker, parent := ⟨"root"⟩
            owner := ⟨"u2"⟩, originator := .system, directive := directive, context := []
            visibility := ∅, authority := ∅, delegate := false, budget := none } }
    checkpointStorage := ∅, checkpointIndex := ∅, nextCheckpointId := 1
    gateController := ((GateController.new 30000 .autoApprove).openCheckpointGate ⟨"ws-2"⟩
      ⟨"cp-0"⟩ "plan" none none).1
    trail := { trailIndex := ∅, escalationIndex := (∅ : Table String String).set "esc-1" "ws-2"
               streamSeq := 1, emitted := [] }
    nextEnvelopeId := 1 }

def data (state : SessionState) : Data where
  sessions := [session "s1" "u1" "ws-1" state, session "s2" "u2" "ws-2" state]
  ids := (by decide : ["s1", "s2"].Nodup)
  assignments := []
  activeSessions := ∅
  runtime := runtime

def after (request : Request) : HighwayRuntime :=
  ((request.program (fun _ => []) (user "u1").auth "s1").run exec (fun _ => connected)
    (data .active)).state.runtime

def inbox (rt : HighwayRuntime) : List CoordinatorCommand :=
  (rt.system.actors.map (·.coordinatorRx)).flatten

theorem belongsTo_second {state : SessionState} : (data state).BelongsTo "u2" ⟨"ws-2"⟩ :=
  ⟨_, mem_cons_of_mem _ (mem_cons_self ..), rfl, .inl rfl⟩

theorem eq_of_mem_set {V β : Type} {k k' : String} {v : V} {f : V → β} {b : β}
    (h : b ∈ ((((∅ : Table String V).set k v).get k').map f).toList) : b = f v := by
  rw [get_set] at h
  split_ifs at h
  · exact mem_singleton.mp h
  · simp at h

theorem owned_second {state : SessionState} {res : Resource} (hres : ∀ id, res ≠ .workspace id) :
    (data state).Owned "u2" res := by
  intro place hplace
  have hws : place = some ⟨"ws-2"⟩ := by
    cases res with
    | gate gid =>
      have hgate := (mem_append.mp hplace).resolve_right not_mem_nil
      change place ∈ ((((∅ : Table String PendingCheckpointGate).set "gate-1" _).get gid).map
        _).toList at hgate
      exact (eq_of_mem_set hgate).trans rfl
    | escalation eid =>
      change place ∈ ((((∅ : Table String String).set "esc-1" "ws-2").get eid).map _).toList
        at hplace
      exact (eq_of_mem_set hplace).trans rfl
    | workspace id => exact absurd rfl (hres id)
  exact ⟨⟨"ws-2"⟩, hws, belongsTo_second⟩

theorem nothingForeign_second : (data .cancelled).NothingForeign "u2" := by
  refine ⟨fun _ _ _ gid => owned_second fun _ h => (by cases h),
    fun _ _ _ eid => owned_second fun _ h => (by cases h), fun session hmem _ hactive => ?_⟩
  obtain rfl | rfl : session = _ ∨ session = _ := by simpa [data] using hmem
  · cases hactive
  · cases hactive

end Sample

theorem requests_confined_of_second : (Sample.user "u2").consoleRole ≠ .admin ∧
      Confined (Sample.data .cancelled) "u2"
        (((Request.resolveGate "gate-1" ⟨"reject", none⟩).program (fun _ => [])
          (Sample.user "u2").auth "s2").run exec (fun _ => connected)
            (Sample.data .cancelled)) := by
  have huser : (Sample.user "u2").consoleRole ≠ .admin := by decide
  exact ⟨huser, (requests_confined_iff _ _ huser).mpr Sample.nothingForeign_second _ _ _⟩

/-- **A user approves the gate of another user's workspace**, aborts it and writes to it, through
their own session. -/
theorem foreign_workspace_reached : ((Sample.user "u1").consoleRole ≠ .admin ∧
      (Sample.data .active).BelongsTo "u2" ⟨"ws-2"⟩ ∧
      ¬ (Sample.data .active).BelongsTo "u1" ⟨"ws-2"⟩ ∧
      (Resource.gate "gate-1").places Sample.runtime = [some ⟨"ws-2"⟩] ∧
      (Resource.escalation "esc-1").places Sample.runtime = [some ⟨"ws-2"⟩] ∧
      Sample.inbox Sample.runtime = []) ∧
    ((Resource.gate "gate-1").places (Sample.after (.resolveGate "gate-1" ⟨"approve", none⟩)) = [] ∧
      Sample.inbox (Sample.after (.resolveGate "gate-1" ⟨"approve", none⟩)) =
        [.checkpointApproved "cp-0"]) ∧
    ((Resource.escalation "esc-1").places
        (Sample.after (.respondEscalation "esc-1" ⟨"abort", none⟩)) = [] ∧
      Sample.inbox (Sample.after (.respondEscalation "esc-1" ⟨"abort", none⟩)) = [.abort]) ∧
    Sample.inbox (Sample.after (.injectDirective ⟨"ws-2", .null, none⟩)) =
      [.deliverEnvelope { Sample.directive with
        id := ⟨"env-1"⟩, fromWorkspace := ⟨"highway"⟩ }] := by
  refine ⟨⟨by decide, Sample.belongsTo_second, ?_, rfl, rfl, rfl⟩, ⟨rfl, rfl⟩, ⟨rfl, rfl⟩, rfl⟩
  rintro ⟨session, hmem, howner, hworkspace | ⟨a, ha, -⟩⟩
  · obtain rfl | rfl : session = _ ∨ session = _ := by simpa [Sample.data] using hmem
    · exact absurd hworkspace (by decide)
    · exact absurd howner (by decide)
  · cases ha

end Wacp.Console.Highway
