import Wacp.Model.Workspace

/-!
# Runs of one workspace

`WorkspaceOp` is all that can happen to a workspace: commands, messages, reads of the inbox and
writes to public fields. The lemmas say which of these a function of the state does not see.
-/

namespace Wacp

inductive WorkspaceOp where
  | command (cmd : CoordinatorCommand)
  | message (msg : AgentMessage)
  | pop
  | write (workingMemory : List UInt8) (resourceMeter : ResourceMeter) (trailSequence : ℕ)
  deriving DecidableEq

namespace WorkspaceActor

def applyOp (a : WorkspaceActor) : WorkspaceOp → WorkspaceActor × Option Envelope
  | .command cmd => (a.handleCoordinatorCmd cmd, none)
  | .message msg => (a.handleAgentMsg msg, none)
  | .pop => ({ a with state := a.state.popInbox.1 }, a.state.popInbox.2)
  | .write workingMemory resourceMeter trailSequence =>
    ({ a with state := { a.state with
        workingMemory := workingMemory, resourceMeter := resourceMeter
        trailSequence := trailSequence } }, none)

def afterOps (a : WorkspaceActor) (ops : List WorkspaceOp) : WorkspaceActor :=
  ops.foldl (fun a op => (a.applyOp op).1) a

/-! ## What an operation leaves alone -/

/-- Reads neither the status, the meter nor the register. -/
structure Blind {α : Type} (f : WorkspaceData → α) : Prop where
  status : ∀ d s, f { d with status := s } = f d
  meter : ∀ d m, f { d with resourceMeter := m } = f d
  register : ∀ d r, f { d with checkpointRegister := r } = f d

section Blind

variable {α : Type} {f : WorkspaceData → α} (h : Blind f) (a : WorkspaceActor)
include h

theorem map_transition (trigger : WorkspaceTrigger) :
    f (a.transition trigger).state = f a.state := by
  unfold transition
  split
  · exact h.status _ _
  · rfl

theorem map_handleAgentMsg {msg : AgentMessage} : f (a.handleAgentMsg msg).state = f a.state := by
  unfold handleAgentMsg
  split
  · rfl
  · cases msg with
    | emitSignal =>
      dsimp only
      split
      · exact map_transition h a _
      · rfl
    | createCheckpoint =>
      have hstored : ∀ (d : WorkspaceData) (m : ResourceMeter) (cp : Checkpoint),
          f (WorkspaceData.pushCheckpoint { d with resourceMeter := m } cp) = f d :=
        fun d m cp => (h.register _ _).trans (h.meter d m)
      dsimp only [handleCreateCheckpoint]
      split
      · exact (map_transition h _ _).trans (hstored _ _ _)
      · exact hstored _ _ _

theorem map_handleCoordinatorCmd {cmd : CoordinatorCommand}
    (hdeliver : ∀ e, cmd ≠ .deliverEnvelope e)
    (hgrant : ∀ resources, cmd = .grantVisibility resources →
      f (a.state.grantVisibility resources) = f a.state) :
    f (a.handleCoordinatorCmd cmd).state = f a.state := by
  cases cmd with
  | migrateBegin =>
    have hsame := map_transition h a .coordinatorMigrate
    unfold handleCoordinatorCmd
    dsimp only
    split
    · exact hsame
    · exact hsame
  | grantVisibility resources => exact hgrant resources rfl
  | updateBudget => exact h.meter _ _
  | deliverEnvelope envelope => exact absurd rfl (hdeliver envelope)
  | gracefulTermination => rfl
  | _ => exact map_transition h a _

end Blind

theorem state_deliverEnvelope (a : WorkspaceActor) (e : Envelope) :
    (a.handleCoordinatorCmd (.deliverEnvelope e)).state = a.state ∧
        a.state.isEnvelopeDelivered e.id.text ∨
      a.state.isEnvelopeDelivered e.id.text = false ∧
        ∃ s, (a.handleCoordinatorCmd (.deliverEnvelope e)).state =
          WorkspaceData.pushInbox { a.state with status := s } e := by
  unfold handleCoordinatorCmd
  dsimp only
  split_ifs with hdelivered hfirst
  · exact .inl ⟨rfl, hdelivered⟩
  · refine .inr ⟨by simpa using hdelivered, ?_⟩
    unfold transition
    split
    · exact ⟨_, rfl⟩
    · exact ⟨a.state.status, rfl⟩
  · exact .inr ⟨by simpa using hdelivered, a.state.status, rfl⟩

theorem map_applyOp {α : Type} {f : WorkspaceData → α} (h : Blind f)
    (hinbox : ∀ d l ids, f { d with inbox := l, deliveredEnvelopeIds := ids } = f d)
    (hwrite : ∀ d memory meter n,
      f { d with workingMemory := memory, resourceMeter := meter, trailSequence := n } = f d)
    {a : WorkspaceActor} {op : WorkspaceOp}
    (hgrant : ∀ resources, op = .command (.grantVisibility resources) →
      f (a.state.grantVisibility resources) = f a.state) :
    f (a.applyOp op).1.state = f a.state := by
  cases op with
  | command cmd =>
    by_cases hdeliver : ∃ e, cmd = .deliverEnvelope e
    · obtain ⟨e, rfl⟩ := hdeliver
      obtain ⟨hstate, -⟩ | ⟨-, s, hstate⟩ := a.state_deliverEnvelope e
      · exact congrArg f hstate
      · exact (congrArg f hstate).trans ((hinbox _ _ _).trans (h.status a.state s))
    · exact map_handleCoordinatorCmd h a (fun e he => hdeliver ⟨e, he⟩) fun resources hcmd =>
        hgrant resources (congrArg _ hcmd)
  | message msg => exact map_handleAgentMsg h a
  | pop =>
    show f a.state.popInbox.1 = f a.state
    unfold WorkspaceData.popInbox
    split
    · rfl
    · exact hinbox _ _ _
  | write => exact hwrite _ _ _ _

end WorkspaceActor

end Wacp
