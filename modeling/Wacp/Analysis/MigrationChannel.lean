import Wacp.Analysis.ActorStatus

/-!
# The migration commands in an actor's channel

The actor takes the coordinator's commands some time later. `Paired` follows the channel from its
reader to its writer.
-/

namespace Wacp

def CoordinatorCommand.migrates : CoordinatorCommand → Bool
  | .migrateBegin => true
  | .migrationComplete _ => true
  | .migrationFailed => true
  | _ => false

/-! ## The channel of an actor -/

def Restorable (x : WorkspaceState) : Prop := x = .active ∨ x = .blocked

/-- The commands lead from the reader's state `x` to the writer's `y`: the status read for the last
migration command, if that is a MigrateBegin; `reads` are those of the MigrateBegins. -/
inductive Paired : Option WorkspaceState → List CoordinatorCommand → List WorkspaceState →
    Option WorkspaceState → Prop where
  | nil (x : Option WorkspaceState) : Paired x [] [] x
  | begin {r : WorkspaceState} {q : List CoordinatorCommand} {rs : List WorkspaceState}
      {y : Option WorkspaceState} (hr : Restorable r) (h : Paired (some r) q rs y) :
      Paired none (.migrateBegin :: q) (r :: rs) y
  | complete {x : Option WorkspaceState} {restoreBlocked : Bool} {q : List CoordinatorCommand}
      {rs : List WorkspaceState} {y : Option WorkspaceState}
      (hx : ∀ r, x = some r → restoreBlocked = decide (r = .blocked)) (h : Paired none q rs y) :
      Paired x (.migrationComplete restoreBlocked :: q) rs y
  | fail {x : Option WorkspaceState} {q : List CoordinatorCommand} {rs : List WorkspaceState}
      {y : Option WorkspaceState} (h : Paired none q rs y) : Paired x (.migrationFailed :: q) rs y
  | other {x : Option WorkspaceState} {cmd : CoordinatorCommand} {q : List CoordinatorCommand}
      {rs : List WorkspaceState} {y : Option WorkspaceState} (hcmd : cmd.migrates = false)
      (h : Paired x q rs y) : Paired x (cmd :: q) rs y

namespace Paired

variable {x y z : Option WorkspaceState} {q q' : List CoordinatorCommand}
  {rs rs' : List WorkspaceState}

theorem append (h : Paired x q rs y) (h' : Paired y q' rs' z) :
    Paired x (q ++ q') (rs ++ rs') z := by
  induction h with
  | nil => exact h'
  | begin hr _ ih => exact begin hr (ih h')
  | complete hx _ ih => exact complete hx (ih h')
  | fail _ ih => exact fail (ih h')
  | other hcmd _ ih => exact other hcmd (ih h')

def take : Option CoordinatorCommand → Option WorkspaceState × List WorkspaceState →
    Option WorkspaceState × List WorkspaceState
  | some .migrateBegin, (_, reads) => (reads.head?, reads.tail)
  | some (.migrationComplete _), (_, reads) => (none, reads)
  | some .migrationFailed, (_, reads) => (none, reads)
  | _, p => p

variable {cmd : CoordinatorCommand}

theorem take_other (hcmd : cmd.migrates = false)
    (p : Option WorkspaceState × List WorkspaceState) : take (some cmd) p = p := by
  cases cmd with
  | migrateBegin | migrationComplete | migrationFailed => cases hcmd
  | _ => rfl

theorem taken (h : Paired x (cmd :: q) rs y) :
    Paired (take (some cmd) (x, rs)).1 q (take (some cmd) (x, rs)).2 y := by
  cases h with
  | begin _ h | complete _ h | fail h => exact h
  | other hcmd h =>
    rw [take_other hcmd]
    exact h

end Paired

/-! ## The status of an actor -/

namespace WorkspaceActor

variable {a : WorkspaceActor} {trigger : WorkspaceTrigger}

theorem migrating_of_afterTrigger {x : WorkspaceState}
    (htrigger : trigger ≠ .coordinatorMigrate) (h : afterTrigger x trigger = .migrating) :
    x = .migrating := by
  cases x <;> cases trigger <;> first | rfl | exact absurd rfl htrigger | cases h

theorem migrating_of_transition (htrigger : trigger ≠ .coordinatorMigrate)
    (h : (a.transition trigger).state.status = .migrating) : a.state.status = .migrating := by
  rw [status_transition] at h
  exact migrating_of_afterTrigger htrigger h

theorem status_migrationComplete (h : a.state.status = .migrating) (restoreBlocked : Bool) :
    (a.handleCoordinatorCmd (.migrationComplete restoreBlocked)).state.status =
      if restoreBlocked then .blocked else .active := by
  rw [status_handleCoordinatorCmd a _ (by rw [h]; decide), h]
  cases restoreBlocked <;> rfl

theorem status_migrationFailed (h : a.state.status = .migrating) :
    (a.handleCoordinatorCmd .migrationFailed).state.status = .failed := by
  rw [status_handleCoordinatorCmd a _ (by rw [h]; decide), h]
  rfl

theorem migrating_of_command {cmd : CoordinatorCommand}
    (h : (a.handleCoordinatorCmd cmd).state.status = .migrating) :
    cmd = .migrateBegin ∨ cmd.migrates = false ∧ a.state.status = .migrating := by
  cases cmd with
  | migrateBegin => exact .inl rfl
  | migrationComplete restoreBlocked =>
    have hbefore : a.state.status = .migrating := by
      cases restoreBlocked <;> exact migrating_of_transition (by simp) h
    rw [status_migrationComplete hbefore] at h
    split_ifs at h
  | migrationFailed =>
    have hbefore : a.state.status = .migrating := migrating_of_transition (by simp) h
    rw [status_migrationFailed hbefore] at h
    cases h
  | grantVisibility | updateBudget | gracefulTermination => exact .inr ⟨rfl, h⟩
  | deliverEnvelope =>
    refine .inr ⟨rfl, ?_⟩
    simp only [handleCoordinatorCmd] at h
    split_ifs at h
    · exact h
    · exact migrating_of_transition (a := { a with firstEnvelopeReceived := true }) (by simp) h
    · exact h
  | _ => exact .inr ⟨rfl, migrating_of_transition (by simp) h⟩

theorem migrating_of_message {msg : AgentMessage}
    (h : (a.handleAgentMsg msg).state.status = .migrating) : a.state.status = .migrating := by
  by_contra hne
  rw [status_handleAgentMsg a msg hne] at h
  have htrigger : messageTrigger msg ≠ some .coordinatorMigrate := by
    intro heq
    cases msg with
    | emitSignal signalType => cases signalType <;> cases heq
    | createCheckpoint checkpointType payload contentHash intent status =>
      cases status <;> cases heq
  cases hmsg : messageTrigger msg with
  | none =>
    rw [hmsg] at h
    exact hne h
  | some =>
    rw [hmsg] at h htrigger
    exact hne (migrating_of_afterTrigger (fun heq => htrigger (congrArg some heq)) h)

theorem coordinatorRx_transition {a : WorkspaceActor} :
    (a.transition trigger).coordinatorRx = a.coordinatorRx := by
  unfold transition
  split <;> rfl

theorem coordinatorRx_handleCoordinatorCmd (a : WorkspaceActor) (cmd : CoordinatorCommand) :
    (a.handleCoordinatorCmd cmd).coordinatorRx = a.coordinatorRx := by
  cases cmd with
  | migrateBegin =>
    simp only [handleCoordinatorCmd]
    split
    · exact coordinatorRx_transition
    · exact coordinatorRx_transition
  | deliverEnvelope =>
    simp only [handleCoordinatorCmd]
    split_ifs
    · rfl
    · exact coordinatorRx_transition
    · rfl
  | grantVisibility | updateBudget | gracefulTermination => rfl
  | _ => exact coordinatorRx_transition

theorem coordinatorRx_handleAgentMsg (a : WorkspaceActor) (msg : AgentMessage) :
    (a.handleAgentMsg msg).coordinatorRx = a.coordinatorRx := by
  unfold handleAgentMsg
  split_ifs
  · rfl
  · cases msg with
    | emitSignal =>
      dsimp only
      split
      · exact coordinatorRx_transition
      · rfl
    | createCheckpoint =>
      dsimp only [handleCreateCheckpoint]
      split
      · exact coordinatorRx_transition
      · rfl

def nextCommand (a : WorkspaceActor) : Option CoordinatorCommand :=
  if a.state.status.isTerminal then none else a.coordinatorRx.head?

end WorkspaceActor

end Wacp
