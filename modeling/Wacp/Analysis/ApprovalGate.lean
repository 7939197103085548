import Wacp.Library.Runs
import Wacp.Analysis.ActorStatus
import Wacp.Analysis.CheckpointRegister

/-!
# Waiting for the approval of a checkpoint

Nothing knows which checkpoints are undecided: any approval, a Started signal, or the end of a
suspension or migration takes a workspace out of Blocked.
-/

namespace Wacp

open Library List Option WorkspaceActor

/-! ## Undecided checkpoints -/

/-- An actor and its undecided provisional checkpoints, oldest first. -/
structure GatedActor where
  actor : WorkspaceActor
  unresolved : List String
  deriving DecidableEq

namespace GatedActor

inductive Label where
  | command (cmd : CoordinatorCommand)
  | message (msg : AgentMessage)
  | turn
  | send
  | hangUp
  deriving DecidableEq

def spawn (config : WorkspaceConfig) : GatedActor :=
  { actor := .spawn config, unresolved := [] }

def decision : CoordinatorCommand → Option String
  | .checkpointApproved checkpointId => some checkpointId
  | .checkpointRejected checkpointId => some checkpointId
  | _ => none

def decided (a : WorkspaceActor) : Option String :=
  if a.state.status.isTerminal then none else a.coordinatorRx.head?.bind decision

def provisional (checkpoints : List Checkpoint) : List String :=
  (checkpoints.filter fun cp => decide (cp.status = .provisional)).map (·.id.text)

/-- What remains undecided after a turn to `b`. -/
def afterTurn (g : GatedActor) (b : WorkspaceActor) : GatedActor :=
  { actor := b
    unresolved := g.unresolved.filter (fun id => decide (decided g.actor ≠ some id)) ++
      provisional (b.state.checkpointRegister.drop g.actor.state.checkpointRegister.length) }

def apply (g : GatedActor) : Label → Option GatedActor
  | .command cmd =>
    if g.actor.stopped then none
    else some { g with actor := { g.actor with coordinatorRx := g.actor.coordinatorRx ++ [cmd] } }
  | .message msg =>
    if g.actor.stopped then none
    else some { g with actor := { g.actor with agentRx := g.actor.agentRx ++ [msg] } }
  | .turn =>
    if g.actor.stopped = false ∧ g.actor.outbox = [] then g.actor.turn.map g.afterTurn else none
  | .send =>
    match g.actor.outbox with
    | [] => none
    | _ :: rest => some { g with actor := { g.actor with outbox := rest } }
  | .hangUp =>
    -- both channels are closed and empty
    if g.actor.stopped = false ∧ g.actor.outbox = [] ∧ g.actor.turn = none then
      some { g with actor := { g.actor with stopped := true } }
    else none

def applyOpen (g : GatedActor) (label : Label) : Option GatedActor :=
  (g.apply label).filter fun g' => decide (g'.unresolved ≠ [])

def Released (status : WorkspaceState) : Prop :=
  status = .active ∨ status = .integrating ∨ status = .closed

instance (status : WorkspaceState) : Decidable (Released status) :=
  inferInstanceAs (Decidable (_ ∨ _ ∨ _))

/-- The message of the next turn does not let the workspace go. -/
def keeps (g : GatedActor) : Label → Bool
  | .turn =>
    match g.actor.state.status, g.actor.coordinatorRx, g.actor.agentRx with
    | .blocked, .checkpointApproved checkpointId :: _, _ =>
      g.unresolved.all fun id => decide (id = checkpointId)
    | .blocked, [], .emitSignal .started _ _ :: _ => false
    | .suspended, .resume :: _, _ => false
    | .migrating, .migrationComplete false :: _, _ => false
    | _, _, _ => true
  | _ => true

def Keeps (g : GatedActor) (label : Label) : Prop := g.keeps label

/-! ## One step -/

def Held (status : WorkspaceState) : Prop :=
  status = .blocked ∨ status = .suspended ∨ status = .migrating ∨ status = .failed

variable {status : WorkspaceState}

theorem Held.not_released (h : Held status) : ¬ Released status := by
  rcases h with rfl | rfl | rfl | rfl <;> decide

theorem Held.after (h : Held status) (trigger : Option WorkspaceTrigger)
    (hkept : ¬ Released (after status trigger)) : Held (after status trigger) := by
  cases trigger with
  | none => exact h
  | some trigger =>
    rcases h with rfl | rfl | rfl | rfl <;> cases trigger <;>
      first
      | exact absurd (by decide) hkept
      | exact .inl rfl
      | exact .inr (.inl rfl)
      | exact .inr (.inr (.inl rfl))
      | exact .inr (.inr (.inr rfl))

theorem Held.released_after_iff (h : Held status) (trigger : Option WorkspaceTrigger) :
    Released (WorkspaceActor.after status trigger) ↔
      (status = .blocked ∧ trigger = some .agentStarted) ∨
      (status = .suspended ∧ trigger = some .coordinatorResume) ∨
      (status = .migrating ∧ trigger = some .migrationSucceeded) := by
  cases trigger with
  | none => simpa [WorkspaceActor.after] using h.not_released
  | some trigger =>
    rcases h with rfl | rfl | rfl | rfl <;> cases trigger <;> decide

variable {g : GatedActor}

theorem keeps_command {cmd : CoordinatorCommand} {rest : List CoordinatorCommand}
    (hrx : g.actor.coordinatorRx = cmd :: rest) (hheld : Held g.actor.state.status) :
    g.Keeps .turn ↔ (Released (after g.actor.state.status
        (commandTrigger cmd)) →
      ∃ checkpointId, cmd = .checkpointApproved checkpointId ∧
        ∀ id ∈ g.unresolved, id = checkpointId) := by
  rw [hheld.released_after_iff]
  rcases hheld with h | h | h | h <;> rw [h] <;> cases cmd with
  | migrationComplete restoreBlocked =>
    cases restoreBlocked <;> simp [Keeps, keeps, h, hrx, commandTrigger]
  | _ => simp [Keeps, keeps, h, hrx, commandTrigger]

theorem keeps_message {msg : AgentMessage} {rest : List AgentMessage}
    (hrx : g.actor.coordinatorRx = []) (hagent : g.actor.agentRx = msg :: rest)
    (hheld : Held g.actor.state.status) (hmigrating : g.actor.state.status ≠ .migrating) :
    g.Keeps .turn ↔ ¬ Released (after g.actor.state.status
      (messageTrigger msg)) := by
  rw [hheld.released_after_iff]
  rcases hheld with h | h | h | h <;> rw [h] <;> cases msg with
  | emitSignal signalType =>
    cases signalType <;>
      simp_all [Keeps, keeps, messageTrigger, signalTrigger]
  | createCheckpoint =>
    simp [Keeps, keeps, h, hrx, hagent, messageTrigger]

/-- **One turn of a held workspace**: it stays held exactly if the turn meets the condition. -/
theorem turn_keeps {b : WorkspaceActor} (hheld : Held g.actor.state.status)
    (h : g.actor.turn = some b) (hopen : (g.afterTurn b).unresolved ≠ []) :
    (¬ Released b.state.status ↔ g.Keeps .turn) ∧
      (¬ Released b.state.status → Held b.state.status) := by
  have hregister := (adds_turn h).1
  rcases turn_cases h with ⟨hterm, rfl⟩ | ⟨hterm, cmd, rest, hrx, rfl⟩ |
    ⟨hterm, hrx, msg, rest, hagent, rfl⟩
  · have hfailed : g.actor.state.status = .failed := by
      rcases hheld with h | h | h | h <;> rw [h] at hterm <;> first | exact h | cases hterm
    refine ⟨⟨fun _ => ?_, fun _ => hheld.not_released⟩, fun _ => hheld⟩
    simp [Keeps, keeps, hfailed]
  · have hidle : g.actor.state.status ≠ .idle := by
      rcases hheld with h | h | h | h <;> rw [h] <;> decide
    have hstatus := status_handleCoordinatorCmd { g.actor with coordinatorRx := rest } cmd hidle
    rw [hstatus, keeps_command hrx hheld]
    refine ⟨⟨fun hkept hrel => absurd hrel hkept, fun hkeeps hrel => ?_⟩, hheld.after _⟩
    -- the approval of the only undecided checkpoint would leave nothing undecided
    obtain ⟨checkpointId, rfl, honly⟩ := hkeeps hrel
    apply hopen
    have hnone : decided g.actor = some checkpointId := by
      rw [decided, hterm, hrx]
      rfl
    rw [newCheckpoints_of_command hrx, append_nil] at hregister
    rw [afterTurn, hregister, drop_length, hnone]
    simpa [provisional] using fun id hid => (honly id hid).symm
  · by_cases hmigrating : g.actor.state.status = .migrating
    · have hsame : ({ g.actor with agentRx := rest }.handleAgentMsg msg).state.status =
          g.actor.state.status := by
        unfold handleAgentMsg
        rw [if_pos hmigrating]
      rw [hsame]
      refine ⟨⟨fun _ => ?_, fun _ => hheld.not_released⟩, fun _ => hheld⟩
      simp [Keeps, keeps, hmigrating, hrx]
    · have hstatus := status_handleAgentMsg { g.actor with agentRx := rest } msg hmigrating
      rw [hstatus, keeps_message hrx hagent hheld hmigrating]
      exact ⟨Iff.rfl, hheld.after _⟩

variable {g' : GatedActor} {label : Label}

theorem state_apply (hlabel : label ≠ .turn) (h : g.apply label = some g') :
    g'.actor.state = g.actor.state ∧ g'.unresolved = g.unresolved := by
  cases label with
  | turn => exact absurd rfl hlabel
  | command | message | hangUp =>
    simp only [apply] at h
    split_ifs at h
    cases h
    exact ⟨rfl, rfl⟩
  | send =>
    simp only [apply] at h
    split at h
    · cases h
    · cases h
      exact ⟨rfl, rfl⟩

theorem turn_of_apply (h : g.apply .turn = some g') :
    ∃ b, g.actor.turn = some b ∧ g' = g.afterTurn b := by
  simp only [apply] at h
  split_ifs at h
  obtain ⟨b, hb, rfl⟩ := map_eq_some_iff.mp h
  exact ⟨b, hb, rfl⟩

theorem step_keeps (hheld : Held g.actor.state.status) (h : g.applyOpen label = some g') :
    (¬ Released g'.actor.state.status ↔ g.Keeps label) ∧
      (¬ Released g'.actor.state.status → Held g'.actor.state.status) := by
  obtain ⟨happly, hopen⟩ := filter_eq_some_iff.mp h
  rw [decide_eq_true_eq] at hopen
  by_cases hlabel : label = .turn
  · subst hlabel
    obtain ⟨b, hb, rfl⟩ := turn_of_apply happly
    exact turn_keeps hheld hb hopen
  · rw [(state_apply hlabel happly).1]
    refine ⟨⟨fun _ => ?_, fun _ => hheld.not_released⟩, fun _ => hheld⟩
    cases label with
    | turn => exact absurd rfl hlabel
    | _ => rfl

def Named (g : GatedActor) : Prop :=
  ∀ id ∈ g.unresolved, ∃ cp ∈ g.actor.state.checkpointRegister,
    cp.id.text = id ∧ cp.status = .provisional

theorem Named.step (hnamed : g.Named) (h : g.apply label = some g') : g'.Named := by
  by_cases hlabel : label = .turn
  · subst hlabel
    obtain ⟨b, hb, rfl⟩ := turn_of_apply h
    have hregister := (adds_turn hb).1
    intro id hid
    show ∃ cp ∈ b.state.checkpointRegister, _
    rw [hregister]
    rcases mem_append.mp hid with hold | hnew
    · obtain ⟨cp, hcp, hkey⟩ := hnamed id (mem_filter.mp hold).1
      exact ⟨cp, mem_append_left _ hcp, hkey⟩
    · rw [hregister, drop_left] at hnew
      obtain ⟨cp, hcp, rfl⟩ := mem_map.mp hnew
      obtain ⟨hcp, hstatus⟩ := mem_filter.mp hcp
      exact ⟨cp, mem_append_right _ hcp, rfl, of_decide_eq_true hstatus⟩
  · obtain ⟨hstate, hunresolved⟩ := state_apply hlabel h
    rw [Named, hstate, hunresolved]
    exact hnamed

/-! ## Runs -/

/-- **Undecided checkpoints keep a workspace blocked** up to the first turn that breaks the
condition, which lets it go. -/
theorem not_released_of_run {config : WorkspaceConfig} {s t : GatedActor}
    (hreach : Run (fun g label g' => g.apply label = some g') anyStep (spawn config) s)
    (hblocked : s.actor.state.status = .blocked)
    (hrun : Run (fun g label g' => g.applyOpen label = some g') Keeps s t) :
    ¬ Released t.actor.state.status ∧
      (∀ id ∈ t.unresolved, ∃ cp ∈ t.actor.state.checkpointRegister,
        cp.id.text = id ∧ cp.status = .provisional) ∧
      ∀ label u, t.applyOpen label = some u →
        (¬ Released u.actor.state.status ↔ t.Keeps label) := by
  have hnamed : s.Named := by
    refine hreach.invariant Named (fun hg _ hstep => hg.step hstep) ?_
    intro id hid
    cases hid
  have hboth : Held t.actor.state.status ∧ t.Named := by
    refine hrun.invariant (fun g => Held g.actor.state.status ∧ g.Named) ?_ ⟨.inl hblocked, hnamed⟩
    rintro g label g' ⟨hheld, hg⟩ hkeeps hstep
    obtain ⟨hiff, hstays⟩ := step_keeps hheld hstep
    exact ⟨hstays (hiff.mpr hkeeps), hg.step (filter_eq_some_iff.mp hstep).1⟩
  exact ⟨hboth.1.not_released, hboth.2, fun label u hu => (step_keeps hboth.1 hu).1⟩

def firstEnvelope : Envelope :=
  { id := ⟨"env-0"⟩, fromWorkspace := ⟨"ws-root"⟩, toWorkspace := ⟨"ws-0"⟩
    envelopeType := "directive", payload := [], inReplyTo := none, timestamp := 0
    priority := .normal, origin := .human, state := .created }

def workerConfig : WorkspaceConfig :=
  { id := ⟨"ws-0"⟩, role := "worker", baseRole := .worker, parent := ⟨"ws-root"⟩
    owner := ⟨"alice"⟩, originator := .system, directive := firstEnvelope, context := []
    visibility := ∅, authority := ∅, delegate := false, budget := none }

def draft : List Label :=
  [.message (.createCheckpoint "artifact" [1] "4bf5" "draft" .provisional .high none), .turn,
    .send, .send, .send]

def blockedByDraft : List Label :=
  [.command (.deliverEnvelope firstEnvelope), .turn, .send] ++ draft

def signalled (signalType : SignalType) : List Label :=
  [.message (.emitSignal signalType none none), .turn]

theorem not_released_of_complete_signal : ∃ s t : GatedActor,
    s.actor.state.status = .blocked ∧ t.unresolved = ["cp-0"] ∧
      Run (fun g label g' => g.applyOpen label = some g') Keeps s t ∧
      ¬ Released t.actor.state.status := by
  have heval : ((blockedByDraft.foldlM apply (spawn workerConfig)).bind fun s =>
      ((signalled .complete).foldlM
        (fun g label => if keeps g label then applyOpen g label else none) s).map fun t =>
          (s.actor.state.status, t.unresolved)) = some (.blocked, ["cp-0"]) := by
    decide
  obtain ⟨s, hs, hrest⟩ := bind_eq_some_iff.mp heval
  obtain ⟨t, ht, heq⟩ := map_eq_some_iff.mp hrest
  obtain ⟨hblocked, hopen⟩ := Prod.mk.inj heq
  have hreach := Run.of_ops hs
  have hrun := Run.of_checked keeps (fun _ _ _ h => h) ht
  exact ⟨s, t, hblocked, hopen, hrun, (not_released_of_run hreach hblocked hrun).1⟩

/-- A Started signal ends Blocked although a provisional checkpoint is undecided. -/
theorem released_by_started_signal : ∃ s t : GatedActor,
    Run (fun g label g' => g.apply label = some g') anyStep (spawn workerConfig) s ∧
      s.actor.state.status = .blocked ∧ s.unresolved = ["cp-0"] ∧
      Run (fun g label g' => g.applyOpen label = some g') anyStep s t ∧
      t.unresolved = ["cp-0"] ∧ t.actor.state.status = .active := by
  have heval : ((blockedByDraft.foldlM apply (spawn workerConfig)).bind fun s =>
      ((signalled .started).foldlM applyOpen s).map fun t =>
        (s.actor.state.status, s.unresolved, t.unresolved, t.actor.state.status)) =
      some (.blocked, ["cp-0"], ["cp-0"], .active) := by
    decide
  obtain ⟨s, hs, hrest⟩ := bind_eq_some_iff.mp heval
  obtain ⟨t, ht, heq⟩ := map_eq_some_iff.mp hrest
  simp only [Prod.mk.injEq] at heq
  obtain ⟨hblocked, hbefore, hafter, hactive⟩ := heq
  exact ⟨s, t, Run.of_ops hs, hblocked, hbefore, Run.of_ops ht, hafter, hactive⟩

end GatedActor

end Wacp
