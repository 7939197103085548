import Wacp.Analysis.InboxDelivery
import Wacp.Library.Loops

/-!
# Capture and restore

`restore_from_snapshot` takes the visibility set from the original configuration: later grants are
lost. Every other field survives.
-/

namespace Wacp

open WorkspaceData Reader

namespace WorkspaceData

variable {d : WorkspaceData} {config : WorkspaceConfig}

/-- The workspace captured, and restored with a configuration and its own status. -/
def migrated (config : WorkspaceConfig) (d : WorkspaceData) : WorkspaceData :=
  restoreFromSnapshot config d.captureSnapshot d.status

/-- The fields a snapshot does not hold, without the visibility set. -/
def frozen (d : WorkspaceData) : WorkspaceData :=
  { d with
    status := .idle, inbox := [], workingMemory := [], checkpointRegister := []
    resourceMeter := { usage := .default, budget := none }, trailSequence := 0
    visibilitySet := ∅, deliveredEnvelopeIds := ∅ }

theorem migrated_of_frozen (h : d.frozen = (new config).frozen) :
    migrated config d = { d with visibilitySet := config.visibility } := by
  unfold frozen new at h
  simp only [mk.injEq, true_and, and_true] at h
  obtain ⟨hid, hrole, hbase, hparent, howner, horig, hdelegate, hdirective, hcontext, hauth⟩ := h
  unfold migrated restoreFromSnapshot captureSnapshot
  rw [hid, hrole, hbase, hparent, howner, horig, hdelegate, hdirective, hcontext, hauth]

end WorkspaceData

namespace WorkspaceActor

variable {a : WorkspaceActor}

/-! ## One operation -/

def granted : WorkspaceOp → List String
  | .command (.grantVisibility resources) => resources
  | _ => []

theorem mem_visibility_applyOp (a : WorkspaceActor) (op : WorkspaceOp) (x : String) :
    x ∈ (a.applyOp op).1.state.visibilitySet ↔ x ∈ a.state.visibilitySet ∨ x ∈ granted op := by
  by_cases hgrant : ∃ resources, op = .command (.grantVisibility resources)
  · obtain ⟨resources, rfl⟩ := hgrant
    refine (Library.mem_foldl_insert (f := fun r : String => r)).trans ?_
    simp [granted]
  · have hset : (a.applyOp op).1.state.visibilitySet = a.state.visibilitySet :=
      map_applyOp ⟨fun _ _ => rfl, fun _ _ => rfl, fun _ _ => rfl⟩ (fun _ _ _ => rfl)
        (fun _ _ _ _ => rfl) fun resources h => absurd ⟨resources, h⟩ hgrant
    have hnone : granted op = [] := by
      unfold granted
      split
      · exact absurd ⟨_, rfl⟩ hgrant
      · rfl
    rw [hset, hnone]
    simp

/-! ## Whole runs -/

theorem frozen_afterOps (a : WorkspaceActor) (ops : List WorkspaceOp) :
    (a.afterOps ops).state.frozen = a.state.frozen := by
  induction ops generalizing a with
  | nil => rfl
  | cons op ops ih =>
    refine (ih (a.applyOp op).1).trans ?_
    exact map_applyOp ⟨fun _ _ => rfl, fun _ _ => rfl, fun _ _ => rfl⟩ (fun _ _ _ => rfl)
      (fun _ _ _ _ => rfl) fun _ _ => rfl

theorem mem_visibility_afterOps {a : WorkspaceActor} (ops : List WorkspaceOp) (x : String) :
    x ∈ (a.afterOps ops).state.visibilitySet ↔
      x ∈ a.state.visibilitySet ∨ ∃ op ∈ ops, x ∈ granted op := by
  induction ops generalizing a with
  | nil => simp [afterOps]
  | cons op ops ih =>
    show x ∈ ((a.applyOp op).1.afterOps ops).state.visibilitySet ↔ _
    rw [ih, mem_visibility_applyOp, or_assoc, List.exists_mem_cons_iff]

/-- **Migration loses what was granted, and nothing else**, after any operations. -/
theorem restore_capture_iff (config : WorkspaceConfig) (ops : List WorkspaceOp) :
    migrated config ((spawn config).afterOps ops).state =
        { ((spawn config).afterOps ops).state with visibilitySet := config.visibility } ∧
      (migrated config ((spawn config).afterOps ops).state = ((spawn config).afterOps ops).state ↔
        ∀ op ∈ ops, ∀ x ∈ granted op, x ∈ config.visibility) := by
  have hrestore := migrated_of_frozen (frozen_afterOps (spawn config) ops)
  refine ⟨hrestore, ?_⟩
  have hmem : ∀ x, x ∈ ((spawn config).afterOps ops).state.visibilitySet ↔
      x ∈ config.visibility ∨ ∃ op ∈ ops, x ∈ granted op :=
    mem_visibility_afterOps ops
  have hset : ((spawn config).afterOps ops).state.visibilitySet = config.visibility ↔
      ∀ op ∈ ops, ∀ x ∈ granted op, x ∈ config.visibility := by
    constructor
    · intro heq op hop x hx
      rw [← heq, hmem]
      exact .inr ⟨op, hop, hx⟩
    · intro hgranted
      ext x
      rw [hmem]
      constructor
      · rintro (hx | ⟨op, hop, hx⟩)
        · exact hx
        · exact hgranted op hop x hx
      · exact .inl
  rw [hrestore, ← hset]
  constructor
  · intro heq
    exact (congrArg visibilitySet heq).symm
  · intro heq
    rw [← heq]

def sampleOps : List WorkspaceOp :=
  [.command (.deliverEnvelope (sampleEnvelope "a" .normal)),
    .command (.deliverEnvelope (sampleEnvelope "b" .urgent)), .pop,
    .message (.createCheckpoint "code" [1] "h" "" .final .high none),
    .command (.grantVisibility ["docs"])]

theorem restore_capture_sample : migrated sampleConfig
        ((spawn sampleConfig).afterOps sampleOps).state =
      ((spawn sampleConfig).afterOps sampleOps).state :=
  (restore_capture_iff sampleConfig sampleOps).2.mpr (by decide)

def grantedState : WorkspaceData :=
  ((spawn sampleConfig).afterOps [.command (.grantVisibility ["secret"])]).state

theorem restore_loses_grant : "secret" ∈ grantedState.visibilitySet ∧
      "secret" ∉ (migrated sampleConfig grantedState).visibilitySet ∧
      migrated sampleConfig grantedState ≠ grantedState := by
  decide

end WorkspaceActor

end Wacp
