import Wacp.Analysis.RightsExpiry
import Wacp.Model.RequestHandler

/-!
# Send-once rights on the send path

The handler of `SendEnvelope` does not consume the right: either all requests from one workspace to
another succeed or none does.
-/

namespace Wacp

open Library List PortRightsGraph

structure SendRequest where
  (fromWorkspace toWorkspace : WorkspaceId)
  envelopeType : String
  payload : List UInt8
  priority : EnvelopePriority
  deriving DecidableEq

def SendRequest.between (sender target : WorkspaceId) (r : SendRequest) : Bool :=
  decide (r.fromWorkspace = sender ∧ r.toWorkspace = target)

/-- One of the Active rights towards the target is send-once, and there is no other. -/
def PortRightsGraph.OnlySendOnce (g : PortRightsGraph) (holder target : WorkspaceId) : Prop :=
  ∃ id e, g.byId.get id = some e ∧ e.holder = holder ∧ e.target = target ∧
    e.status = .active ∧ e.kind = .sendOnce ∧
    ∀ id' e', g.byId.get id' = some e' → e'.holder = holder → e'.target = target →
      e'.status = .active → id' = id

theorem PortRightsGraph.OnlySendOnce.maySend {g : PortRightsGraph} {holder target : WorkspaceId}
    (h : g.OnlySendOnce holder target) : g.MaySend holder target := by
  obtain ⟨id, e, he, hholder, htarget, hactive, hkind, -⟩ := h
  exact ⟨id, e, he, hholder, htarget, hactive, .inr hkind⟩

namespace RequestHandler

/-- The requests that succeed, each served in the state the ones before it left. -/
def delivered (h : RequestHandler) : List SendRequest → List SendRequest
  | [] => []
  | r :: rest =>
    match h.handleSendEnvelope r.fromWorkspace r.toWorkspace r.envelopeType r.payload
        r.priority with
    | .ok (h', _) => r :: h'.delivered rest
    | .error _ => h.delivered rest

def accepts (h : RequestHandler) (sender target : WorkspaceId) : Bool :=
  (h.topology.tree.get sender).isSome && (h.topology.tree.get target).isSome &&
    (h.topology.portRights.validateSend sender target).isOk

variable {h : RequestHandler}

/-- **What a request does**: it counts an envelope or fails, and leaves the topology alone. -/
theorem handleSendEnvelope_eq {h : RequestHandler} {r : SendRequest} :
    h.handleSendEnvelope r.fromWorkspace r.toWorkspace r.envelopeType r.payload r.priority =
        .ok ({ h with nextEnvelopeId := h.nextEnvelopeId + 1 },
          { envelopeId := ⟨"env-" ++ toString h.nextEnvelopeId⟩ }) ∧
        h.accepts r.fromWorkspace r.toWorkspace = true ∨
      (∃ e, h.handleSendEnvelope r.fromWorkspace r.toWorkspace r.envelopeType r.payload
        r.priority = .error e) ∧ h.accepts r.fromWorkspace r.toWorkspace = false := by
  unfold handleSendEnvelope accepts
  cases h.topology.tree.get r.fromWorkspace with
  | none => exact .inr ⟨⟨_, rfl⟩, rfl⟩
  | some =>
    cases h.topology.tree.get r.toWorkspace with
    | none => exact .inr ⟨⟨_, rfl⟩, rfl⟩
    | some =>
      cases h.topology.portRights.validateSend r.fromWorkspace r.toWorkspace with
      | error => exact .inr ⟨⟨_, rfl⟩, rfl⟩
      | ok => exact .inl ⟨rfl, rfl⟩

theorem delivered_eq_filter (h : RequestHandler) (requests : List SendRequest) :
    h.delivered requests =
      requests.filter fun r => h.accepts r.fromWorkspace r.toWorkspace := by
  induction requests generalizing h with
  | nil => rfl
  | cons r rest ih =>
    rcases handleSendEnvelope_eq with ⟨hok, haccepts⟩ | ⟨⟨e, herror⟩, haccepts⟩
    · rw [delivered, hok, filter_cons, if_pos haccepts]
      show r :: delivered _ rest = _
      rw [ih]
      rfl
    · rw [delivered, herror, filter_cons, haccepts]
      exact ih h

theorem accepts_iff (hwf : h.topology.portRights.WellFormed) {sender target : WorkspaceId} :
    h.accepts sender target ↔ h.topology.tree.get sender ≠ none ∧
      h.topology.tree.get target ≠ none ∧ h.topology.portRights.MaySend sender target := by
  have hvalid : (h.topology.portRights.validateSend sender target).isOk ↔
      h.topology.portRights.MaySend sender target := by
    rw [← hwf.validateSend_iff]
    cases h.topology.portRights.validateSend sender target with
    | error | ok => simp [Except.isOk, Except.toBool]
  unfold accepts
  rw [Bool.and_eq_true, Bool.and_eq_true, hvalid, Option.isSome_iff_ne_none,
    Option.isSome_iff_ne_none, and_assoc]

/-- **A send-once right authorises as many envelopes as are asked for**: at most one succeeds
exactly if at most one is made, or a workspace does not exist. -/
theorem delivered_once_iff {h : RequestHandler} {sender target : WorkspaceId}
    (hreach : Run Step anyStep .new h.topology.portRights)
    (honly : h.topology.portRights.OnlySendOnce sender target) (requests : List SendRequest) :
    ((h.delivered requests).filter (SendRequest.between sender target)).length ≤ 1 ↔
      h.topology.tree.get sender = none ∨ h.topology.tree.get target = none ∨
        (requests.filter (SendRequest.between sender target)).length ≤ 1 := by
  have hwf := (consistent_of_run hreach).toWellFormed
  have hcommute : (h.delivered requests).filter (SendRequest.between sender target) =
      (requests.filter (SendRequest.between sender target)).filter fun _ =>
        h.accepts sender target := by
    rw [delivered_eq_filter, filter_filter, filter_filter]
    refine filter_congr fun r _ => ?_
    unfold SendRequest.between
    by_cases hr : r.fromWorkspace = sender ∧ r.toWorkspace = target
    · rw [hr.1, hr.2]
      simp
    · simp [hr]
  rw [hcommute]
  by_cases hboth : h.topology.tree.get sender ≠ none ∧ h.topology.tree.get target ≠ none
  · have haccepts : h.accepts sender target :=
      (accepts_iff hwf).mpr ⟨hboth.1, hboth.2, honly.maySend⟩
    rw [haccepts, filter_true]
    constructor
    · intro hle
      exact .inr (.inr hle)
    · rintro (hnone | hnone | hle)
      · exact absurd hnone hboth.1
      · exact absurd hnone hboth.2
      · exact hle
  · have haccepts : h.accepts sender target = false := by
      rw [Bool.eq_false_iff]
      intro htrue
      obtain ⟨hsender, htarget, -⟩ := (accepts_iff hwf).mp htrue
      exact hboth ⟨hsender, htarget⟩
    rw [haccepts, filter_false]
    refine ⟨fun _ => ?_, fun _ => Nat.zero_le 1⟩
    by_cases hsender : h.topology.tree.get sender = none
    · exact .inl hsender
    · exact .inr (.inl (by_contra fun htarget => hboth ⟨hsender, htarget⟩))

/-- Two workspaces under the root, and a right to send once from one to the other. -/
def sampleRights : List Op :=
  [.create ⟨"ws-root"⟩ ⟨"ws-0"⟩ .send, .create ⟨"ws-0"⟩ ⟨"ws-root"⟩ .send,
    .create ⟨"ws-0"⟩ ⟨"ws-0"⟩ .receive, .create ⟨"ws-root"⟩ ⟨"ws-1"⟩ .send,
    .create ⟨"ws-1"⟩ ⟨"ws-root"⟩ .send, .create ⟨"ws-1"⟩ ⟨"ws-1"⟩ .receive,
    .create ⟨"ws-0"⟩ ⟨"ws-1"⟩ .sendOnce]

def sampleHandler : RequestHandler :=
  { topology :=
      { ([.create (TopologySet.sampleParams "ws-0" "ws-root" "alice"),
          .create (TopologySet.sampleParams "ws-1" "ws-root" "alice")].foldlM TopologySet.apply
            (TopologySet.new ⟨"ws-root"⟩ ⟨"alice"⟩)).getD (.new ⟨"ws-root"⟩ ⟨"alice"⟩) with
        portRights := sampleRights.foldl apply .new }
    nextEnvelopeId := 0 }

def sampleRequest : SendRequest :=
  { fromWorkspace := ⟨"ws-0"⟩, toWorkspace := ⟨"ws-1"⟩, envelopeType := "query", payload := []
    priority := .normal }

theorem reachable_sampleRights : Run Step anyStep .new sampleHandler.topology.portRights :=
  Run.of_foldl (fun _ _ => rfl) (fun _ _ _ => trivial)

theorem onlySendOnce_sampleRights :
    sampleHandler.topology.portRights.OnlySendOnce ⟨"ws-0"⟩ ⟨"ws-1"⟩ := by
  refine ⟨"pr-7", ⟨"pr-7", ⟨"ws-0"⟩, ⟨"ws-1"⟩, .sendOnce, .active⟩, by decide, rfl, rfl, rfl, rfl,
    ?_⟩
  have hall : ∀ id ∈ sampleHandler.topology.portRights.byId.keys,
      ∀ e ∈ sampleHandler.topology.portRights.byId.get id, e.holder = ⟨"ws-0"⟩ →
        e.target = ⟨"ws-1"⟩ → id = "pr-7" := by
    decide
  intro id e he hholder htarget _
  exact hall id (Table.mem_keys.mpr ⟨e, he⟩) e he hholder htarget

theorem delivered_once_single_request : ((sampleHandler.delivered [sampleRequest]).filter
      (SendRequest.between ⟨"ws-0"⟩ ⟨"ws-1"⟩)).length ≤ 1 :=
  (delivered_once_iff reachable_sampleRights onlySendOnce_sampleRights [sampleRequest]).mpr
    (.inr (.inr (by decide)))

theorem delivered_twice_send_once :
    sampleHandler.topology.portRights.OnlySendOnce ⟨"ws-0"⟩ ⟨"ws-1"⟩ ∧
      ((sampleHandler.delivered [sampleRequest, sampleRequest]).filter
        (SendRequest.between ⟨"ws-0"⟩ ⟨"ws-1"⟩)).length = 2 := by
  exact ⟨onlySendOnce_sampleRights, by decide⟩

end RequestHandler

end Wacp
