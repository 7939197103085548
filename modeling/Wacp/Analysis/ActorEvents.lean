import Wacp.Library.Replica
import Wacp.Model.Workspace

/-!
# What an actor reports about its status

The events of a turn report exactly the statuses it goes through, in order and under the actor's id;
and a terminal status is never left.
-/

namespace Wacp

open Library List WorkspaceEvent

def Terminal (s : WorkspaceState) : Prop := s.isTerminal

/-! ## Reports -/

namespace WorkspaceEvent

def report : WorkspaceEvent → Option (WorkspaceId × WorkspaceState)
  | .stateChanged workspaceId _ after => some (workspaceId, after)
  | .terminated archived => some (archived.id, archived.terminalState)
  | _ => none

def announced : WorkspaceEvent → Option Checkpoint
  | .checkpointCreated cp => some cp
  | _ => none

def statusFor (w : WorkspaceId) (event : WorkspaceEvent) : Option WorkspaceState :=
  match event.report with
  | some (v, x) => if v = w then some x else none
  | none => none

def About (w : WorkspaceId) (event : WorkspaceEvent) : Prop :=
  ∀ v x, event.report = some (v, x) → v = w

variable {event : WorkspaceEvent} {w : WorkspaceId}

theorem statusFor_of_report {x : WorkspaceState} (h : event.report = some (w, x)) :
    event.statusFor w = some x := by
  simp [statusFor, h]

theorem report_of_statusFor {x : WorkspaceState} (h : event.statusFor w = some x) :
    event.report = some (w, x) := by
  unfold statusFor at h
  split at h
  · next v y hr =>
      split_ifs at h with hv
      rw [hr, hv, Option.some.inj h]
  · cases h

theorem statusFor_of_about {v : WorkspaceId} (h : event.About v) (hne : w ≠ v) :
    event.statusFor w = none := by
  cases hs : event.statusFor w with
  | none => rfl
  | some x => exact absurd (h w x (report_of_statusFor hs)) hne

end WorkspaceEvent

def reported (w : WorkspaceId) (events : List WorkspaceEvent) : List WorkspaceState :=
  events.filterMap (·.statusFor w)

@[simp]
theorem reported_append (w : WorkspaceId) (es fs : List WorkspaceEvent) :
    reported w (es ++ fs) = reported w es ++ reported w fs :=
  filterMap_append

variable {w : WorkspaceId}

theorem reported_cons_of_none {e : WorkspaceEvent} (h : e.statusFor w = none)
    (es : List WorkspaceEvent) : reported w (e :: es) = reported w es :=
  filterMap_cons_none h

theorem reported_cons_of_some {e : WorkspaceEvent} {x : WorkspaceState} (h : e.statusFor w = some x)
    (es : List WorkspaceEvent) : reported w (e :: es) = x :: reported w es :=
  filterMap_cons_some h

theorem reported_eq_nil {es : List WorkspaceEvent}
    (h : ∀ e ∈ es, ∀ v x, e.report = some (v, x) → v ≠ w) : reported w es = [] := by
  apply filterMap_eq_nil_iff.mpr
  intro e he
  cases hs : e.statusFor w with
  | none => rfl
  | some x => exact absurd rfl (h e he w x (report_of_statusFor hs))

/-! ## Turns -/

namespace WorkspaceActor

/-- The events from `a` to `b` report exactly the statuses gone through, under the actor's id. -/
structure Tracks (a b : WorkspaceActor) : Prop where
  id_eq : b.state.id = a.state.id
  running : b.stopped = false → a.stopped = false
  emitted : ∃ es, b.outbox = a.outbox ++ es ∧ (∀ e ∈ es, e.About a.state.id) ∧
    InSync a.state.status (reported a.state.id es) b.state.status ∧
    Settles Terminal a.state.status (reported a.state.id es) b.state.status

structure Same (a b : WorkspaceActor) : Prop where
  id_eq : b.state.id = a.state.id
  running : b.stopped = false → a.stopped = false
  status : b.state.status = a.state.status
  outbox : b.outbox = a.outbox

theorem Same.refl (a : WorkspaceActor) : Same a a := ⟨rfl, fun h => h, rfl, rfl⟩

variable {a b c : WorkspaceActor}

theorem Same.trans (h : Same a b) (h' : Same b c) : Same a c :=
  ⟨h'.id_eq.trans h.id_eq, fun hc => h.running (h'.running hc), h'.status.trans h.status,
    h'.outbox.trans h.outbox⟩

theorem Same.tracks (h : Same a b) : Tracks a b where
  id_eq := h.id_eq
  running := h.running
  emitted := by
    refine ⟨[], by rw [h.outbox, append_nil], by simp, ?_, ?_⟩
    · rw [h.status]
      exact InSync.refl _
    · rw [h.status]
      exact Settles.refl _

theorem Tracks.refl (a : WorkspaceActor) : Tracks a a := (Same.refl a).tracks

theorem Tracks.trans (h : Tracks a b) (h' : Tracks b c) : Tracks a c where
  id_eq := h'.id_eq.trans h.id_eq
  running := fun hc => h.running (h'.running hc)
  emitted := by
    obtain ⟨es, hout, habout, hsync, hsettle⟩ := h.emitted
    obtain ⟨fs, hout', habout', hsync', hsettle'⟩ := h'.emitted
    rw [h.id_eq] at habout' hsync' hsettle'
    refine ⟨es ++ fs, by rw [hout', hout, append_assoc], ?_, ?_, ?_⟩
    · intro e he
      rcases mem_append.mp he with he | he
      · exact habout e he
      · exact habout' e he
    · rw [reported_append]
      exact hsync.trans hsync'
    · rw [reported_append]
      exact hsettle.trans hsettle'

variable {event : WorkspaceEvent}

theorem tracks_emit {a : WorkspaceActor} (h : event.report = none) : Tracks a (a.emit event) where
  id_eq := rfl
  running := fun hrun => hrun
  emitted := by
    have hnone : event.statusFor a.state.id = none := by simp [statusFor, h]
    have hnil : reported a.state.id [event] = [] := by rw [reported_cons_of_none hnone]; rfl
    refine ⟨[event], rfl, ?_, ?_, ?_⟩
    · intro e he v x hv
      rw [mem_singleton.mp he, h] at hv
      cases hv
    · rw [hnil]
      exact InSync.refl _
    · rw [hnil]
      exact Settles.refl _

theorem tracks_report (hid : b.state.id = a.state.id)
    (hrun : b.stopped = false → a.stopped = false) (hout : b.outbox = a.outbox ++ [event])
    (hrep : event.report = some (a.state.id, b.state.status))
    (hterm : Terminal a.state.status → b.state.status = a.state.status) : Tracks a b where
  id_eq := hid
  running := hrun
  emitted := by
    have hone : reported a.state.id [event] = [b.state.status] := by
      rw [reported_cons_of_some (statusFor_of_report hrep)]
      rfl
    refine ⟨[event], hout, ?_, ?_, ?_⟩
    · intro e he v x hv
      rw [mem_singleton.mp he, hrep] at hv
      cases hv
      rfl
    · rw [hone]
      exact InSync.report _ _
    · rw [hone]
      exact Settles.report hterm

theorem tracks_transition {a : WorkspaceActor} {trigger : WorkspaceTrigger} :
    Tracks a (a.transition trigger) := by
  unfold transition
  cases h : WorkspaceFsm.transition a.state.status trigger with
  | error => exact tracks_emit rfl
  | ok =>
    refine tracks_report rfl (fun hrun => hrun) rfl rfl ?_
    intro hterm
    rw [Terminal, WorkspaceFsm.not_terminal_of_ok h] at hterm
    cases hterm

/-! ## The parts of a handler -/

structure Quiet (a b : WorkspaceActor) : Prop where
  same : Same a b
  register : b.state.checkpointRegister = a.state.checkpointRegister
  agentRx : b.agentRx = a.agentRx

/-- Transitions, events with neither a status nor a checkpoint, and quiet changes. -/
inductive Handles : WorkspaceActor → WorkspaceActor → Prop where
  | quiet {a b : WorkspaceActor} (h : Quiet a b) : Handles a b
  | emit {a : WorkspaceActor} {event : WorkspaceEvent} (hreport : event.report = none)
      (hannounced : event.announced = none) : Handles a (a.emit event)
  | transition (a : WorkspaceActor) (trigger : WorkspaceTrigger) :
      Handles a (a.transition trigger)
  | trans {a b c : WorkspaceActor} (h : Handles a b) (h' : Handles b c) : Handles a c

theorem Quiet.refl (a : WorkspaceActor) : Quiet a a := ⟨Same.refl a, rfl, rfl⟩

theorem Quiet.trans (h : Quiet a b) (h' : Quiet b c) : Quiet a c :=
  ⟨h.same.trans h'.same, h'.register.trans h.register, h'.agentRx.trans h.agentRx⟩

theorem Handles.refl (a : WorkspaceActor) : Handles a a :=
  Handles.quiet (Quiet.refl a)

theorem Handles.tracks (h : Handles a b) : Tracks a b := by
  induction h with
  | quiet h => exact h.same.tracks
  | emit hreport => exact tracks_emit hreport
  | transition a trigger => exact tracks_transition
  | trans _ _ ih ih' => exact ih.trans ih'

theorem handles_handleCoordinatorCmd (a : WorkspaceActor) (cmd : CoordinatorCommand) :
    Handles a (a.handleCoordinatorCmd cmd) := by
  have hquiet : ∀ {b c : WorkspaceActor}, c.state.id = b.state.id → c.stopped = b.stopped →
      c.state.status = b.state.status → c.outbox = b.outbox →
      c.state.checkpointRegister = b.state.checkpointRegister → c.agentRx = b.agentRx →
      Handles b c := by
    intro b c hid hstopped hstatus hout hregister hrx
    exact Handles.quiet ⟨⟨hid, fun hc => hstopped ▸ hc, hstatus, hout⟩, hregister, hrx⟩
  cases cmd with
  | migrateBegin =>
    have h := Handles.transition a .coordinatorMigrate
    show Handles a (if _ then _ else _)
    split
    · exact h.trans (Handles.emit rfl rfl)
    · exact h
  | grantVisibility | updateBudget => exact hquiet rfl rfl rfl rfl rfl rfl
  | deliverEnvelope =>
    show Handles a (if _ then _ else _)
    split
    · exact Handles.refl a
    · have hfirst : Handles a (if a.firstEnvelopeReceived = false ∧ a.state.status = .idle then
          { a with firstEnvelopeReceived := true }.transition .receiveFirstEnvelope
          else a) := by
        split
        · have hflag : Handles a { a with firstEnvelopeReceived := true } :=
            hquiet rfl rfl rfl rfl rfl rfl
          exact hflag.trans (Handles.transition _ _)
        · exact Handles.refl a
      exact hfirst.trans (hquiet rfl rfl rfl rfl rfl rfl)
  | gracefulTermination => exact Handles.refl a
  | _ => exact Handles.transition a _

theorem handles_emitSignal {a : WorkspaceActor} {signalType : SignalType}
    {reason : Option String} {context : Option (List UInt8)} :
    Handles a (a.handleAgentMsg (.emitSignal signalType reason context)) := by
  unfold handleAgentMsg
  split
  · exact Handles.refl a
  · refine Handles.trans ?_ (Handles.emit rfl rfl)
    split
    · exact Handles.transition a _
    · exact Handles.refl a

theorem tracks_handleCreateCheckpoint {a : WorkspaceActor} {checkpointType : String}
    {payload : List UInt8} {contentHash intent : String} {status : CheckpointStatus}
    {confidence : Confidence} {usage : Option ResourceUsage} :
    Tracks a (a.handleCreateCheckpoint checkpointType payload contentHash intent status
      confidence usage) := by
  have hemit : ∀ b cp signal, Same a b →
      Tracks a ((b.emit (.checkpointCreated cp)).emit (.signal signal)) := by
    intro b cp signal hb
    exact (hb.tracks.trans (tracks_emit rfl)).trans (tracks_emit rfl)
  unfold handleCreateCheckpoint
  split
  · refine Tracks.trans ?_ tracks_transition
    exact hemit _ _ _ ⟨rfl, fun h => h, rfl, rfl⟩
  · exact hemit _ _ _ ⟨rfl, fun h => h, rfl, rfl⟩

theorem tracks_handleAgentMsg {a : WorkspaceActor} {msg : AgentMessage} :
    Tracks a (a.handleAgentMsg msg) := by
  cases msg with
  | emitSignal signalType reason context =>
    exact handles_emitSignal.tracks
  | createCheckpoint checkpointType payload contentHash intent status confidence usage =>
    unfold handleAgentMsg
    split
    · exact Tracks.refl a
    · exact tracks_handleCreateCheckpoint

/-- **A turn, inverted.** A terminal actor ends; any other takes a command, or else a message. -/
theorem turn_cases (h : a.turn = some b) : (a.state.status.isTerminal ∧
      b = { a.emit (.terminated a.state.archive) with
        coordinatorRx := [], agentRx := [], stopped := true }) ∨
    (a.state.status.isTerminal = false ∧ ∃ cmd rest, a.coordinatorRx = cmd :: rest ∧
      b = { a with coordinatorRx := rest }.handleCoordinatorCmd cmd) ∨
    (a.state.status.isTerminal = false ∧ a.coordinatorRx = [] ∧
      ∃ msg rest, a.agentRx = msg :: rest ∧ b = { a with agentRx := rest }.handleAgentMsg msg) := by
  unfold turn at h
  split at h
  · next hterm =>
      cases h
      exact .inl ⟨hterm, rfl⟩
  · next hterm =>
      rw [Bool.not_eq_true] at hterm
      split at h
      · next cmd rest hrx =>
          cases h
          exact .inr (.inl ⟨hterm, cmd, rest, hrx, rfl⟩)
      · next msg rest hrx hagent =>
          cases h
          exact .inr (.inr ⟨hterm, hrx, msg, rest, hagent, rfl⟩)
      · cases h

theorem tracks_turn (hrun : a.stopped = false) (h : a.turn = some b) : Tracks a b := by
  rcases turn_cases h with ⟨-, rfl⟩ | ⟨-, cmd, rest, -, rfl⟩ | ⟨-, -, msg, rest, -, rfl⟩
  · -- the status is reported a second time, with the archive
    exact tracks_report rfl (fun _ => hrun) rfl rfl (fun _ => rfl)
  · refine Tracks.trans ?_ (handles_handleCoordinatorCmd _ _).tracks
    exact Same.tracks ⟨rfl, fun h => h, rfl, rfl⟩
  · refine Tracks.trans ?_ tracks_handleAgentMsg
    exact Same.tracks ⟨rfl, fun h => h, rfl, rfl⟩

end WorkspaceActor

end Wacp
