import Wacp.Analysis.ReplicaSync

/-!
# Migration contexts and terminated workspaces

A Terminated event leaves the migration context, so a workspace that ends while it migrates keeps an
active migration; and `start_migration` asks for a node and not for a handle, and nobody runs the
root.
-/

namespace Wacp

open Library Option Table Coordinator MigrationCoordinator

structure Supervised where
  coordinator : Coordinator
  terminated : Finset WorkspaceId

namespace Supervised

variable {o o' : Supervised}

/-- The coordinator's own operations and the events it handles. -/
inductive Op where
  | dispatch (request : DispatchRequest) (handle : ℕ)
  | startMigration (request : MigrationRequest) (oldAgent : String) (nowMs : ℕ)
  | completeMigration (workspaceId : WorkspaceId)
  | failMigration (workspaceId : WorkspaceId) (error : String) (step : ℕ)
  | event (event : WorkspaceEvent)

def terminatedBy (terminated : Finset WorkspaceId) : WorkspaceEvent → Finset WorkspaceId
  | .terminated archived => insert archived.id terminated
  | _ => terminated

/-- `none` if the event handler does not return. -/
def apply (o : Supervised) : Op → Option Supervised
  | .dispatch request handle => some { o with coordinator := o.coordinator.dispatch request handle }
  | .startMigration request oldAgent nowMs =>
    match o.coordinator.startMigration request oldAgent nowMs with
    | .ok r => some { o with coordinator := r.1 }
    | .error _ => some o
  | .completeMigration workspaceId =>
    match o.coordinator.completeMigration workspaceId with
    | some r => some { o with coordinator := r.1 }
    | none => some o
  | .failMigration workspaceId error step =>
    match o.coordinator.failMigration workspaceId error step with
    | some r => some { o with coordinator := r.1 }
    | none => some o
  | .event event => (o.coordinator.handleEvent event).map fun r =>
    { coordinator := r.1, terminated := terminatedBy o.terminated event }

/-- The coordinator has the handle and has not handled the end. -/
def Runs (o : Supervised) (w : WorkspaceId) : Prop :=
  o.coordinator.workspaceHandles.contains w ∧ w ∉ o.terminated

def Good (o : Supervised) : Prop :=
  ∀ w, o.coordinator.migration.isMigrating w → o.Runs w

/-- A Terminated event finds no migration of its workspace, and only running workspaces start one.
-/
def Clean (o : Supervised) : Op → Prop
  | .startMigration request oldAgent nowMs =>
    ∀ r, o.coordinator.startMigration request oldAgent nowMs = .ok r → o.Runs request.workspaceId
  | .event (.terminated archived) => o.coordinator.migration.isMigrating archived.id = false
  | _ => True

def GoodRun : Supervised → List Op → Prop
  | o, [] => o.Good
  | o, op :: ops => o.Good ∧ ∀ o', o.apply op = some o' → GoodRun o' ops

def CleanRun : Supervised → List Op → Prop
  | _, [] => True
  | o, op :: ops => o.Clean op ∧ ∀ o', o.apply op = some o' → CleanRun o' ops

/-! ## One operation -/

structure Keeps (c c' : Coordinator) : Prop where
  active : ∀ w, c'.migration.isMigrating w → c.migration.isMigrating w
  handles : ∀ w, c.workspaceHandles.contains w → c'.workspaceHandles.contains w

theorem Keeps.refl (c : Coordinator) : Keeps c c := ⟨fun _ hw => hw, fun _ hw => hw⟩

variable {c : Coordinator}

theorem Keeps.good (hkeeps : Keeps o.coordinator c) (h : o.Good) :
    Good { o with coordinator := c } := by
  intro w hw
  obtain ⟨hhandle, hnot⟩ := h w (hkeeps.active w hw)
  exact ⟨hkeeps.handles w hhandle, hnot⟩

theorem keeps_remove {c : Coordinator} {w : WorkspaceId} :
    Keeps c (c.withActive (c.migration.active.remove w)) := by
  refine ⟨fun v hv => ?_, fun _ hw => hw⟩
  unfold isMigrating Table.contains at hv ⊢
  rw [withActive, get_remove] at hv
  split_ifs at hv
  · cases hv
  · exact hv

theorem isMigrating_of_setSnapshot {m m' : MigrationCoordinator} {w v : WorkspaceId}
    {snapshot : MigrationSnapshot} (h : m.setSnapshot w snapshot = .ok m')
    (hv : m'.isMigrating v) : m.isMigrating v := by
  unfold setSnapshot at h
  split at h
  · cases h
  · next ctx hctx =>
      split_ifs at h
      cases h
      unfold isMigrating at hv ⊢
      rw [contains_iff] at hv ⊢
      obtain ⟨ctx', hctx'⟩ := hv
      rw [get_set] at hctx'
      split_ifs at hctx' with hvw
      · rw [hvw]
        exact ⟨ctx, hctx⟩
      · exact ⟨ctx', hctx'⟩

variable {handle : ℕ}

theorem keeps_dispatch {c : Coordinator} {request : DispatchRequest} :
    Keeps c (c.dispatch request handle) := by
  refine ⟨fun _ hw => hw, fun w hw => ?_⟩
  show (Table.set _ _ _).contains w = true
  unfold Table.contains at hw ⊢
  rw [get_set]
  split_ifs
  · rfl
  · exact hw

variable {r : Coordinator × List (ℕ × CoordinatorCommand)}

theorem keeps_event {event : WorkspaceEvent} (h : c.handleEvent event = some r)
    (hevent : ∀ archived, event ≠ .terminated archived) : Keeps c r.1 := by
  cases event with
  | stateChanged =>
    obtain ⟨tree, -, rfl⟩ := map_eq_some_iff.mp h
    exact ⟨fun _ hw => hw, fun _ hw => hw⟩
  | terminated archived => exact absurd rfl (hevent archived)
  | migrationSnapshot =>
    simp only [handleEvent] at h
    split at h
    · next hset =>
        cases h
        exact ⟨fun _ => isMigrating_of_setSnapshot hset, fun _ hw => hw⟩
    · cases h
      exact Keeps.refl c
  | _ =>
    cases h
    exact ⟨fun _ hw => hw, fun _ hw => hw⟩

variable {request : MigrationRequest} {nowMs : ℕ}

theorem isMigrating_of_start {oldAgent : String}
    (h : c.startMigration request oldAgent nowMs = .ok r) :
    r.1.workspaceHandles = c.workspaceHandles ∧ ∀ w, r.1.migration.isMigrating w ↔
      w = request.workspaceId ∨ c.migration.isMigrating w := by
  obtain ⟨node, ctx, -, -, -, -, rfl⟩ := startMigration_inv h
  refine ⟨rfl, fun w => ?_⟩
  unfold isMigrating Table.contains
  rw [withActive, get_set]
  split_ifs with hw
  · simp [hw]
  · simp [hw]

theorem good_start_iff (h : o.Good) {oldAgent : String}
    (hstep : o.apply (.startMigration request oldAgent nowMs) = some o') :
    o'.Good ↔ o.Clean (.startMigration request oldAgent nowMs) := by
  simp only [apply] at hstep
  split at hstep
  · next r hr =>
      cases hstep
      obtain ⟨hhandles, hactive⟩ := isMigrating_of_start hr
      have hruns : ∀ w, Runs { o with coordinator := r.1 } w ↔ o.Runs w := by
        intro w
        unfold Runs
        rw [hhandles]
      constructor
      · intro hgood _ _
        exact (hruns _).mp (hgood _ ((hactive _).mpr (.inl rfl)))
      · intro hclean w hw
        rw [hruns]
        rcases (hactive w).mp hw with rfl | hw
        · exact hclean r hr
        · exact h w hw
  · next e he =>
      cases hstep
      refine ⟨fun _ r hr => ?_, fun _ => h⟩
      rw [he] at hr
      cases hr

theorem good_terminated_iff (h : o.Good) {archived : ArchivedWorkspace}
    (hstep : o.apply (.event (.terminated archived)) = some o') :
    o'.Good ↔ o.Clean (.event (.terminated archived)) := by
  cases hstep
  constructor
  · intro hgood
    by_contra hactive
    exact (hgood archived.id (Bool.eq_true_of_not_eq_false hactive)).2 (Finset.mem_insert_self _ _)
  · intro hclean w hw
    have hne : w ≠ archived.id := by
      rintro rfl
      rw [hclean] at hw
      cases hw
    obtain ⟨hhandle, hnot⟩ := h w hw
    refine ⟨?_, ?_⟩
    · unfold Table.contains at hhandle ⊢
      rw [get_remove, if_neg hne]
      exact hhandle
    · show w ∉ insert _ _
      rw [Finset.mem_insert]
      exact not_or.mpr ⟨hne, hnot⟩

theorem good_iff_clean (h : o.Good) {op : Op} (hstep : o.apply op = some o') :
    o'.Good ↔ o.Clean op := by
  cases op with
  | dispatch request handle =>
    cases hstep
    exact iff_of_true (keeps_dispatch.good h) trivial
  | startMigration => exact good_start_iff h hstep
  | completeMigration w =>
    refine iff_of_true ?_ trivial
    simp only [apply] at hstep
    split at hstep
    · next r hr =>
        cases hstep
        obtain ⟨ctx, -, rfl⟩ := completeMigration_inv hr
        exact keeps_remove.good h
    · cases hstep
      exact h
  | failMigration w =>
    refine iff_of_true ?_ trivial
    simp only [apply] at hstep
    split at hstep
    · next r hr =>
        cases hstep
        obtain ⟨ctx, -, rfl⟩ := failMigration_inv hr
        exact keeps_remove.good h
    · cases hstep
      exact h
  | event event =>
    by_cases hevent : ∃ archived, event = .terminated archived
    · obtain ⟨archived, rfl⟩ := hevent
      exact good_terminated_iff h hstep
    · have hother : ∀ archived, event ≠ .terminated archived :=
        fun archived heq => hevent ⟨archived, heq⟩
      obtain ⟨r, hr, rfl⟩ := map_eq_some_iff.mp hstep
      have hkeeps := (keeps_event hr hother).good h
      cases event with
      | terminated archived => exact absurd rfl (hother archived)
      | _ => exact iff_of_true hkeeps trivial

/-! ## Whole runs -/

theorem wellFormed_dispatch (hwf : c.tree.WellFormed)
    {request : DispatchRequest} : (c.dispatch request handle).tree.WellFormed := by
  unfold dispatch
  split
  · next tree hins => exact hwf.insert rfl hins
  · exact hwf

theorem exists_apply (hwf : o.coordinator.tree.WellFormed) {op : Op} :
    ∃ o', o.apply op = some o' ∧ o'.coordinator.tree.WellFormed := by
  cases op with
  | dispatch request handle => exact ⟨_, rfl, wellFormed_dispatch hwf⟩
  | startMigration =>
    simp only [apply]
    split
    · next r hr =>
        obtain ⟨node, ctx, -, -, -, -, rfl⟩ := startMigration_inv hr
        exact ⟨_, rfl, hwf⟩
    · exact ⟨o, rfl, hwf⟩
  | completeMigration =>
    simp only [apply]
    split
    · next r hr =>
        obtain ⟨ctx, -, rfl⟩ := completeMigration_inv hr
        exact ⟨_, rfl, hwf⟩
    · exact ⟨o, rfl, hwf⟩
  | failMigration =>
    simp only [apply]
    split
    · next r hr =>
        obtain ⟨ctx, -, rfl⟩ := failMigration_inv hr
        exact ⟨_, rfl, hwf⟩
    · exact ⟨o, rfl, hwf⟩
  | event event =>
    obtain ⟨r, hr⟩ := handleEvent_isSome hwf
    refine ⟨_, map_eq_some_iff.mpr ⟨r, hr, rfl⟩, ?_⟩
    exact (handleEvent_recorded hwf hr).wellFormed

variable {ops : List Op}

theorem GoodRun.good (h : o.GoodRun ops) : o.Good := by
  cases ops with
  | nil => exact h
  | cons => exact h.1

theorem exists_foldlM (hwf : o.coordinator.tree.WellFormed) :
    ∃ o', ops.foldlM apply o = some o' := by
  induction ops generalizing o with
  | nil => exact ⟨o, rfl⟩
  | cons op ops ih =>
    obtain ⟨o₁, hstep, hwf₁⟩ := exists_apply hwf
    obtain ⟨o', hrest⟩ := ih hwf₁
    refine ⟨o', ?_⟩
    rw [List.foldlM_cons, hstep]
    exact hrest

theorem goodRun_iff_cleanRun (hwf : o.coordinator.tree.WellFormed) (h : o.Good) :
    o.GoodRun ops ↔ o.CleanRun ops := by
  induction ops generalizing o with
  | nil => exact iff_of_true h trivial
  | cons op ops ih =>
    obtain ⟨o₁, hstep, hwf₁⟩ := exists_apply hwf
    have hnext : ∀ o', o.apply op = some o' → o' = o₁ := by
      intro o' ho'
      exact Option.some.inj (ho'.symm.trans hstep)
    constructor
    · rintro ⟨-, hrest⟩
      have hgood := hrest o₁ hstep
      refine ⟨(good_iff_clean h hstep).mp hgood.good, fun o' ho' => ?_⟩
      rw [hnext o' ho']
      exact (ih hwf₁ hgood.good).mp hgood
    · rintro ⟨hclean, hrest⟩
      refine ⟨h, fun o' ho' => ?_⟩
      rw [hnext o' ho']
      exact (ih hwf₁ ((good_iff_clean h hstep).mpr hclean)).mpr (hrest o₁ hstep)

def start (rootId : WorkspaceId) (owner : UserId) : Supervised :=
  { coordinator := .new rootId owner, terminated := ∅ }

theorem good_start {rootId : WorkspaceId} {owner : UserId} : (start rootId owner).Good := by
  intro w hw
  have hnone : (start rootId owner).coordinator.migration.active.get w = none :=
    get_empty
  unfold isMigrating at hw
  rw [contains_eq_false_iff.mpr hnone] at hw
  cases hw

/-- **Active migrations belong to running workspaces exactly in the clean runs**, and every run
returns. -/
theorem good_run_iff_clean (rootId : WorkspaceId) (owner : UserId) (ops : List Op) :
    (∃ o, ops.foldlM apply (start rootId owner) = some o) ∧
      ((start rootId owner).GoodRun ops ↔ (start rootId owner).CleanRun ops) := by
  have hwf : (start rootId owner).coordinator.tree.WellFormed :=
    WorkspaceTree.wellFormed_new rootId owner
  exact ⟨exists_foldlM hwf, goodRun_iff_cleanRun hwf good_start⟩

def sampleMigration (id : String) : MigrationRequest :=
  { workspaceId := ⟨id⟩, newAgent := { agentType := "agent", config := none }, reason := "" }

def sampleArchive : ArchivedWorkspace :=
  { (WorkspaceData.new (System.sampleRequest "ws-0" "ws-root").config).archive with
    terminalState := .failed }

def migrates : List Op :=
  [.dispatch (System.sampleRequest "ws-0" "ws-root") 0,
    .event (.stateChanged ⟨"ws-0"⟩ .idle .active), .startMigration (sampleMigration "ws-0") "" 0]

theorem good_run_failed_first : (start ⟨"ws-root"⟩ ⟨"system"⟩).GoodRun
      (migrates ++ [.failMigration ⟨"ws-0"⟩ "timeout" 5, .event (.terminated sampleArchive)]) := by
  refine (good_run_iff_clean ⟨"ws-root"⟩ ⟨"system"⟩ _).2.mpr ?_
  refine ⟨trivial, ?_⟩
  rintro _ ⟨⟩
  refine ⟨trivial, ?_⟩
  rintro _ ⟨⟩
  refine ⟨fun _ _ => ⟨by decide, by decide⟩, ?_⟩
  rintro _ ⟨⟩
  refine ⟨trivial, ?_⟩
  rintro _ ⟨⟩
  refine ⟨rfl, ?_⟩
  rintro _ ⟨⟩
  trivial

/-- A workspace is aborted while it migrates, and all it reports is handled. -/
def abortedMigration : List System.Label :=
  [.dispatch (System.sampleRequest "ws-0" "ws-root"),
    .command ⟨"ws-0"⟩ (.deliverEnvelope System.sampleEnvelope), .turn 0, .flush 0, .handleEvent,
    .startMigration (sampleMigration "ws-0") "" 0, .turn 0, .flush 0, .flush 0, .handleEvent,
    .handleEvent, .command ⟨"ws-0"⟩ .abort, .turn 0, .flush 0, .handleEvent, .turn 0, .flush 0,
    .handleEvent]

/-- **A migration that outlives its workspace**, in a state at rest. -/
theorem orphan_migration_run :
    ¬ (start ⟨"ws-root"⟩ ⟨"system"⟩).GoodRun (migrates ++ [.event (.terminated sampleArchive)]) ∧
      ∃ s, Run System.Step anyStep (System.init ⟨"ws-root"⟩ ⟨"system"⟩) s ∧ s.Quiescent ∧
        s.coordinator.tree.statusOf ⟨"ws-0"⟩ = some .failed ∧
        s.coordinator.workspaceHandles.contains ⟨"ws-0"⟩ = false ∧
        s.coordinator.migration.isMigrating ⟨"ws-0"⟩ := by
  constructor
  · rintro ⟨-, h⟩
    obtain ⟨-, h⟩ := h _ rfl
    obtain ⟨-, h⟩ := h _ rfl
    obtain ⟨-, h⟩ := h _ rfl
    have hgood := (h _ rfl ⟨"ws-0"⟩ (by decide)).1
    revert hgood
    decide
  · exact ⟨_, Run.of_ops (rfl : abortedMigration.foldlM System.apply _ = some _),
      ⟨rfl, by decide⟩, by decide, by decide, by decide⟩

end Supervised

end Wacp
