import Mathlib.Algebra.Order.Ring.Nat
import Wacp.Analysis.ActorEvents
import Wacp.Analysis.InboxDelivery
import Wacp.Library.Names

/-!
# What a turn adds to the checkpoint register

A turn stores at most one checkpoint, at the end of the register, and announces what it stores; so
the register is a linear history.
-/

namespace Wacp

open List Library

def created (events : List WorkspaceEvent) : List Checkpoint :=
  events.filterMap WorkspaceEvent.announced

@[simp]
theorem created_append (es fs : List WorkspaceEvent) :
    created (es ++ fs) = created es ++ created fs :=
  filterMap_append

namespace WorkspaceActor

def checkpointOf (a : WorkspaceActor) (checkpointType : String) (payload : List UInt8)
    (contentHash intent : String) (status : CheckpointStatus) (confidence : Confidence)
    (resourceUsage : Option ResourceUsage) : Checkpoint :=
  { id := ⟨"cp-" ++ toString a.state.checkpointRegister.length⟩
    workspaceId := a.state.id, checkpointType := checkpointType, payload := payload
    contentHash := contentHash, intent := intent
    parentCheckpoint := a.state.lastCheckpoint.map (·.id), status := status
    confidence := confidence, timestamp := 0, resourceUsage := resourceUsage }

def stored (a : WorkspaceActor) (msg : AgentMessage) : List Checkpoint :=
  if a.state.status = .migrating then []
  else
    match msg with
    | .emitSignal _ _ _ => []
    | .createCheckpoint checkpointType payload contentHash intent status confidence usage =>
      [a.checkpointOf checkpointType payload contentHash intent status confidence usage]

/-- The actor has stored and announced `new`, and taken no message. -/
structure Adds (a b : WorkspaceActor) (new : List Checkpoint) : Prop where
  register : b.state.checkpointRegister = a.state.checkpointRegister ++ new
  announced : created b.outbox = created a.outbox ++ new
  agentRx : b.agentRx = a.agentRx

variable {a b c : WorkspaceActor}

theorem adds_nil (hregister : b.state.checkpointRegister = a.state.checkpointRegister)
    (hout : b.outbox = a.outbox) (hrx : b.agentRx = a.agentRx) : Adds a b [] :=
  ⟨by rw [hregister, append_nil], by rw [hout, append_nil], hrx⟩

theorem Adds.trans {new : List Checkpoint} (h : Adds a b new) (h' : Adds b c []) :
    Adds a c new where
  register := by rw [h'.register, h.register, append_nil]
  announced := by rw [h'.announced, h.announced, append_nil]
  agentRx := h'.agentRx.trans h.agentRx

theorem adds_emit {a : WorkspaceActor} {event : WorkspaceEvent} (h : event.announced = none) :
    Adds a (a.emit event) [] where
  register := by rw [append_nil]; rfl
  announced := by
    show created (a.outbox ++ [event]) = created a.outbox ++ []
    rw [created_append]
    exact congrArg (created a.outbox ++ ·) (filterMap_cons_none h)
  agentRx := rfl

theorem adds_transition {a : WorkspaceActor} {trigger : WorkspaceTrigger} :
    Adds a (a.transition trigger) [] := by
  unfold transition
  split
  · next next _ =>
      have hstatus : Adds a { a with state := { a.state with status := next } } [] :=
        adds_nil rfl rfl rfl
      exact hstatus.trans (adds_emit rfl)
  · exact adds_emit rfl

theorem Handles.adds (h : Handles a b) : Adds a b [] := by
  induction h with
  | quiet h => exact adds_nil h.register h.same.outbox h.agentRx
  | emit _ hannounced => exact adds_emit hannounced
  | transition a trigger => exact adds_transition
  | trans _ _ ih ih' => exact ih.trans ih'

theorem adds_handleCreateCheckpoint {a : WorkspaceActor} {checkpointType : String}
    {payload : List UInt8} {contentHash intent : String} {status : CheckpointStatus}
    {confidence : Confidence} {usage : Option ResourceUsage} :
    Adds a (a.handleCreateCheckpoint checkpointType payload contentHash intent status
      confidence usage)
      [a.checkpointOf checkpointType payload contentHash intent status confidence usage] := by
  have hpush : ∀ (b : WorkspaceActor) (cp : Checkpoint) (signal : Signal),
      b.state.checkpointRegister = a.state.checkpointRegister ++ [cp] → b.outbox = a.outbox →
      b.agentRx = a.agentRx →
      Adds a ((b.emit (.checkpointCreated cp)).emit (.signal signal)) [cp] := by
    intro b cp signal hregister hout hrx
    have hone : Adds a (b.emit (.checkpointCreated cp)) [cp] := by
      refine ⟨hregister, ?_, hrx⟩
      show created (b.outbox ++ [.checkpointCreated cp]) = _
      rw [created_append, hout]
      rfl
    exact hone.trans (adds_emit rfl)
  unfold handleCreateCheckpoint
  split
  · refine Adds.trans ?_ adds_transition
    exact hpush _ _ _ rfl rfl rfl
  · exact hpush _ _ _ rfl rfl rfl

theorem adds_handleAgentMsg (a : WorkspaceActor) (msg : AgentMessage) :
    Adds a (a.handleAgentMsg msg) (a.stored msg) := by
  cases msg with
  | emitSignal signalType reason context =>
    have hnone : a.stored (.emitSignal signalType reason context) = [] := ite_self []
    rw [hnone]
    exact handles_emitSignal.adds
  | createCheckpoint checkpointType payload contentHash intent status confidence usage =>
    unfold handleAgentMsg stored
    split
    · exact adds_nil rfl rfl rfl
    · exact adds_handleCreateCheckpoint

def newCheckpoints (a : WorkspaceActor) : List Checkpoint :=
  if a.state.status.isTerminal then []
  else
    match a.coordinatorRx, a.agentRx with
    | [], msg :: _ => a.stored msg
    | _, _ => []

theorem newCheckpoints_of_command {cmd : CoordinatorCommand} {rest : List CoordinatorCommand}
    (h : a.coordinatorRx = cmd :: rest) : a.newCheckpoints = [] := by
  unfold newCheckpoints
  rw [h]
  exact ite_self []

theorem newCheckpoints_of_message {msg : AgentMessage} {rest : List AgentMessage}
    (hterm : a.state.status.isTerminal = false) (hrx : a.coordinatorRx = [])
    (hagent : a.agentRx = msg :: rest) : a.newCheckpoints = a.stored msg := by
  unfold newCheckpoints
  rw [hterm, hrx, hagent]
  rfl

theorem adds_turn (h : a.turn = some b) :
    b.state.checkpointRegister = a.state.checkpointRegister ++ a.newCheckpoints ∧
      created b.outbox = created a.outbox ++ a.newCheckpoints := by
  rcases turn_cases h with ⟨hterm, rfl⟩ | ⟨-, cmd, rest, hrx, rfl⟩ |
    ⟨hterm, hrx, msg, rest, hagent, rfl⟩
  · rw [newCheckpoints, if_pos hterm, append_nil, append_nil]
    exact ⟨rfl, (adds_emit rfl).announced.trans (append_nil _)⟩
  · rw [newCheckpoints_of_command hrx]
    have hadds := (handles_handleCoordinatorCmd { a with coordinatorRx := rest } cmd).adds
    exact ⟨hadds.register, hadds.announced⟩
  · rw [newCheckpoints_of_message hterm hrx hagent]
    have hadds := adds_handleAgentMsg { a with agentRx := rest } msg
    exact ⟨hadds.register, hadds.announced⟩

/-! ## A linear history -/

def cpId (n : ℕ) : CheckpointId := ⟨"cp-" ++ toString n⟩

def parentId : ℕ → Option CheckpointId
  | 0 => none
  | n + 1 => some (cpId n)

/-- The register and its accounted storage. -/
def history (a : WorkspaceActor) : List Checkpoint × ℕ :=
  (a.state.checkpointRegister, a.state.resourceMeter.usage.storageBytes)

/-- Numbered from zero, each with the one before as its parent, and the storage of their payloads.
-/
structure Linear (h : List Checkpoint × ℕ) : Prop where
  ids : h.1.map (·.id) = (range h.1.length).map cpId
  parents : h.1.map (·.parentCheckpoint) = (range h.1.length).map parentId
  storage : h.2 = (h.1.map (·.payload.length)).sum

theorem history_transition (a : WorkspaceActor) (trigger : WorkspaceTrigger) :
    (a.transition trigger).history = a.history := by
  unfold transition
  split <;> rfl

theorem history_handleCoordinatorCmd (a : WorkspaceActor) (cmd : CoordinatorCommand) :
    (a.handleCoordinatorCmd cmd).history = a.history := by
  cases cmd with
  | migrateBegin =>
    have hsame := history_transition a .coordinatorMigrate
    unfold handleCoordinatorCmd
    dsimp only
    split <;> exact hsame
  | deliverEnvelope =>
    unfold handleCoordinatorCmd
    dsimp only
    split_ifs
    · rfl
    · exact history_transition _ _
    · rfl
  | grantVisibility | updateBudget | gracefulTermination => rfl
  | _ => exact history_transition _ _

theorem history_handleAgentMsg (a : WorkspaceActor) (msg : AgentMessage) :
    (a.handleAgentMsg msg).history = (a.state.checkpointRegister ++ a.stored msg,
      a.state.resourceMeter.usage.storageBytes + ((a.stored msg).map (·.payload.length)).sum) := by
  unfold handleAgentMsg stored
  split_ifs
  · simp [history]
  · cases msg with
    | emitSignal =>
      dsimp only
      rw [append_nil]
      split
      · exact history_transition _ _
      · rfl
    | createCheckpoint =>
      dsimp only [handleCreateCheckpoint]
      split
      · exact history_transition _ _
      · rfl

theorem Linear.snoc {cps : List Checkpoint} {n : ℕ} {cp : Checkpoint} (h : Linear (cps, n))
    (hid : cp.id = cpId cps.length) (hparent : cp.parentCheckpoint = cps.getLast?.map (·.id)) :
    Linear (cps ++ [cp], n + cp.payload.length) := by
  obtain ⟨hids, hparents, hstorage⟩ := h
  dsimp only at hids hparents hstorage
  have hlast : cp.parentCheckpoint = parentId cps.length := by
    rw [hparent, ← getLast?_map, hids, getLast?_map, getLast?_range]
    cases cps.length <;> rfl
  constructor
  · simp [range_succ, hids, hid]
  · simp [range_succ, hparents, hlast]
  · simp [hstorage]

theorem Linear.message (h : Linear a.history) (msg : AgentMessage) :
    Linear (a.handleAgentMsg msg).history := by
  rw [history_handleAgentMsg]
  unfold stored
  split_ifs
  · simpa [history] using h
  · cases msg with
    | emitSignal => simpa [history] using h
    | createCheckpoint => exact h.snoc rfl rfl

/-- Actors that commands, messages, reads and restored snapshots lead to. -/
inductive Reached : WorkspaceActor → Prop where
  | spawn (config : WorkspaceConfig) : Reached (.spawn config)
  | command {a : WorkspaceActor} (h : Reached a) (cmd : CoordinatorCommand) :
      Reached (a.handleCoordinatorCmd cmd)
  | message {a : WorkspaceActor} (h : Reached a) (msg : AgentMessage) :
      Reached (a.handleAgentMsg msg)
  | pop {a : WorkspaceActor} (h : Reached a) : Reached { a with state := a.state.popInbox.1 }
  | restore {a : WorkspaceActor} (h : Reached a) (b : WorkspaceActor) (config : WorkspaceConfig)
      (status : WorkspaceState) :
      Reached { b with state := .restoreFromSnapshot config a.state.captureSnapshot status }

theorem Reached.linear (h : Reached a) : Linear a.history := by
  induction h with
  | spawn => exact ⟨rfl, rfl, rfl⟩
  | @command a _ cmd ih => rwa [history_handleCoordinatorCmd]
  | message _ msg ih => exact ih.message msg
  | @pop a _ ih =>
    unfold WorkspaceData.popInbox
    split <;> exact ih
  | restore _ _ _ _ ih => exact ih

/-- **The checkpoint register is a linear history** in every reachable state, and the storage is
that of its payloads. -/
theorem register_linear (h : Reached a) : (a.state.checkpointRegister.map (·.id)).Nodup ∧
      (∀ cp, a.state.checkpointRegister[0]? = some cp → cp.parentCheckpoint = none) ∧
      (∀ i cp cp', a.state.checkpointRegister[i]? = some cp →
        a.state.checkpointRegister[i + 1]? = some cp' → cp'.parentCheckpoint = some cp.id) ∧
      a.state.resourceMeter.usage.storageBytes =
        (a.state.checkpointRegister.map (·.payload.length)).sum := by
  obtain ⟨hids, hparents, hstorage⟩ := h.linear
  have hat {β : Type} {f : Checkpoint → β} {n : ℕ → β} {i : ℕ} {cp : Checkpoint}
      (hmap : a.history.1.map f = (range a.history.1.length).map n)
      (hcp : a.history.1[i]? = some cp) : f cp = n i := by
    obtain ⟨hi, rfl⟩ := List.getElem?_eq_some_iff.mp hcp
    have hboth := congrArg (·[i]?) hmap
    simpa [hi] using hboth
  refine ⟨?_, fun cp hcp => hat hparents hcp, ?_, hstorage⟩
  · have hnodup : ((range a.history.1.length).map cpId).Nodup := by
      refine nodup_range.map fun m n hmn => numbered_injective "cp-" ?_
      exact congrArg CheckpointId.text hmn
    rwa [← hids] at hnodup
  · intro i cp cp' hcp hcp'
    rw [hat hparents hcp', hat hids hcp]
    rfl

def sampleDraft : AgentMessage := .createCheckpoint "code" [1] "h" "" .final .high none

theorem register_linear_two_drafts :
    ((((spawn Reader.sampleConfig).handleAgentMsg sampleDraft).handleAgentMsg
      sampleDraft).state.checkpointRegister.map (·.id)).Nodup :=
  (register_linear (.message (.message (.spawn _) sampleDraft) sampleDraft)).1

end WorkspaceActor

end Wacp
