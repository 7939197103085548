import Wacp.Library.Runs
import Wacp.Model.SessionMonitor

/-!
# Pending gates, stream drivers and the monitors of sessions

A gate stays listed if its resolution is handled first. A driver counts every ending of a stream,
and recovery registers a monitor that may be gone already.
-/

namespace Wacp.Console

open Library List GateStep

/-! ## Pending gates -/

section Gates

variable (parse : List UInt8 → Option String) (workspaces : WorkspaceSet)

def GateStep.Announces (g : String) : GateStep → Prop
  | .gate raw => raw.workspaceId ∈ workspaces.members ∧ raw.gateId = g
  | _ => False

def GateStep.Resolves (g : String) : GateStep → Prop
  | .gate _ => False
  | .trail raw => raw.workspaceId ∈ workspaces.members ∧ raw.eventType = "gate_resolved" ∧
      parse raw.body = some g
  | .resolveGate gid => gid = g

/-- The pending gates once all steps are done. -/
def drained (steps : List GateStep) : List String :=
  (steps.foldl (pendingGates parse workspaces) []).map (·.gateId)

/-- No gate is announced after it was announced or resolved. -/
def AnnouncedFirst (steps : List GateStep) : Prop :=
  steps.Pairwise fun earlier later => ∀ g, later.Announces workspaces g →
    ¬ earlier.Announces workspaces g ∧ ¬ earlier.Resolves parse workspaces g

variable {parse workspaces}

theorem mem_pendingGates (pending : List GateEvent) (step : GateStep) (g : String) :
    g ∈ (pendingGates parse workspaces pending step).map (·.gateId) ↔
      step.Announces workspaces g ∨
        g ∈ pending.map (·.gateId) ∧ ¬ step.Resolves parse workspaces g := by
  have hfilter : ∀ gid : String, g ∈ (pending.filter (·.gateId ≠ gid)).map (·.gateId) ↔
      g ∈ pending.map (·.gateId) ∧ gid ≠ g := by
    intro gid
    grind
  cases step with
  | gate raw =>
    simp only [pendingGates, Announces, Resolves]
    split_ifs with hws
    · simp [hws, eq_comm, or_comm]
    · simp [hws]
  | trail raw =>
    simp only [pendingGates, Announces, Resolves, ← and_assoc]
    split_ifs with hraw
    · cases parse raw.body with
      | none => simp
      | some gateId => simpa [hraw] using hfilter gateId
    · simp [hraw]
  | resolveGate gid => simpa [pendingGates, Announces, Resolves] using hfilter gid

theorem nodup_pendingGates {pending : List GateEvent} {step : GateStep}
    (h : (pending.map (·.gateId)).Nodup)
    (hnew : ∀ g, step.Announces workspaces g → g ∉ pending.map (·.gateId)) :
    ((pendingGates parse workspaces pending step).map (·.gateId)).Nodup := by
  have hfilter : ∀ p : GateEvent → Bool, ((pending.filter p).map (·.gateId)).Nodup :=
    fun p => h.sublist (filter_sublist.map _)
  cases step with
  | gate raw =>
    simp only [pendingGates]
    split_ifs with hws
    · have hraw := hnew raw.gateId ⟨hws, rfl⟩
      rw [map_append, nodup_append_comm]
      simpa [h] using hraw
    · exact h
  | trail raw =>
    simp only [pendingGates]
    split
    · split
      · exact hfilter _
      · exact h
    · exact h
  | resolveGate gid => exact hfilter _

/-- **The pending gates**, in every interleaving that announces no gate after it was announced or
resolved. -/
theorem drained_exact (steps : List GateStep) (h : AnnouncedFirst parse workspaces steps) :
    (drained parse workspaces steps).Nodup ∧ ∀ g, g ∈ drained parse workspaces steps ↔
      (∃ step ∈ steps, step.Announces workspaces g) ∧
        ∀ step ∈ steps, ¬ step.Resolves parse workspaces g := by
  induction steps using reverseRecOn with
  | nil => simp [drained]
  | append_singleton steps step ih =>
    obtain ⟨hbefore, -, hlast⟩ := pairwise_append.mp h
    obtain ⟨hnodup, hmem⟩ := ih hbefore
    have hnew : ∀ g, step.Announces workspaces g → g ∉ drained parse workspaces steps := by
      intro g hg hin
      obtain ⟨⟨earlier, he, ha⟩, -⟩ := (hmem g).mp hin
      exact (hlast earlier he step (by simp) g hg).1 ha
    simp only [drained, foldl_append, foldl_cons, foldl_nil] at hnew hnodup hmem ⊢
    refine ⟨nodup_pendingGates hnodup hnew, fun g => ?_⟩
    have hself : step.Announces workspaces g → ¬ step.Resolves parse workspaces g := by
      cases step <;> simp [Announces, Resolves]
    have hearlier : step.Announces workspaces g → ∀ s ∈ steps, ¬ s.Resolves parse workspaces g :=
      fun hg s hs => (hlast s hs step (by simp) g hg).2
    rw [mem_pendingGates, hmem]
    grind

end Gates

def sampleGates : List GateStep :=
  [.gate ⟨"g", "root"⟩, .gate ⟨"g2", "root"⟩, .trail ⟨"root", "gate_resolved", [103]⟩]

def sampleParse (body : List UInt8) : Option String := if body = [103] then some "g" else none

theorem drained_exact_sample : "g2" ∈ drained sampleParse (.new "root" []) sampleGates := by
  refine ((drained_exact sampleGates ?_).2 "g2").mpr ⟨⟨.gate ⟨"g2", "root"⟩, ?_⟩, ?_⟩
  · simp [AnnouncedFirst, sampleGates, Announces, Resolves, WorkspaceSet.new]
  · simp [sampleGates, Announces, WorkspaceSet.new]
  · simp [sampleGates, Resolves, sampleParse]

/-- The resolution is handled before the announcement, and the gate stays. -/
theorem resolved_gate_pending : ∃ steps, "g" ∈ drained sampleParse (.new "root" []) steps ∧
    ∃ step ∈ steps, step.Resolves sampleParse (.new "root" []) "g" := by
  refine ⟨[.trail ⟨"root", "gate_resolved", [103]⟩, .gate ⟨"g", "root"⟩], by decide, _,
    mem_cons_self, ?_⟩
  simp [Resolves, sampleParse, WorkspaceSet.new]

/-! ## Stream drivers -/

variable {name : String} {cfg : DriverConfig}

namespace Registry

variable {s t : Registry}

def sessionOf (s : Registry) (m : ℕ) : Option String := (s.monitors[m]?).map (·.sessionId)

/-- A session gets one monitor, and no watchdog removes what recovery has yet to insert. -/
def Orderly (s : Registry) : RegistryOp → Prop
  | .launch id | .recover id => ∀ m, s.sessionOf m ≠ some id
  | .task (.watchdogRemove id) => ∀ m, .recoveryInsert id m ∉ s.tasks
  | _ => True

/-- The session and the monitor a task goes on with. -/
def about : MonitorTask → Option (String × ℕ)
  | .launchInsert id m | .launchWatch id m | .recoveryWatch id m | .recoveryInsert id m
  | .watchdogJoin id m => some (id, m)
  | _ => none

structure Kept (s : Registry) : Prop where
  once : ∀ m m' id, s.sessionOf m = some id → s.sessionOf m' = some id → m = m'
  owner : ∀ t ∈ s.tasks, ∀ id m, about t = some (id, m) → s.sessionOf m = some id
  entry : ∀ id m, s.activeSessions.get id = some m → s.sessionOf m = some id
  listed : ∀ m x, s.monitors[m]? = some x → x.running → x.shutdown = false →
    s.activeSessions.get x.sessionId = some m ∨ .launchInsert x.sessionId m ∈ s.tasks ∨
      .recoveryWatch x.sessionId m ∈ s.tasks ∨ .recoveryInsert x.sessionId m ∈ s.tasks ∨
      .cancelShutdown m ∈ s.tasks
  watched : ∀ id m, s.activeSessions.get id = some m ∨ .recoveryInsert id m ∈ s.tasks →
    .launchWatch id m ∈ s.tasks ∨ .watchdogJoin id m ∈ s.tasks ∨ .watchdogRemove id ∈ s.tasks
  ended : ∀ id, .watchdogRemove id ∈ s.tasks →
    ∃ (m : ℕ) (x : MonitorState), s.monitors[m]? = some x ∧ x.sessionId = id ∧ x.running = false

theorem Kept.spawn (h : s.Kept) {id : String} (hid : ∀ m, s.sessionOf m ≠ some id)
    {task : ℕ → MonitorTask} (htask : task = .launchInsert id ∨ task = .recoveryWatch id) :
    (s.spawn id task).Kept := by
  obtain ⟨once, owner, entry, listed, watched, ended⟩ := h
  obtain rfl | rfl := htask
  all_goals
    constructor
    case ended =>
      intro id' hid'
      obtain ⟨m, x, hx, hrest⟩ := ended id' (by simpa [Registry.spawn] using hid')
      exact ⟨m, x, by grind [Registry.spawn], hrest⟩
    all_goals simp only [Registry.spawn, sessionOf, mem_cons, reduceCtorEq, false_or] at *
    all_goals grind [about]

theorem Kept.exit (h : s.Kept) (m : ℕ) :
    Kept { s with monitors := s.monitors.modify m fun x => { x with running := false } } := by
  obtain ⟨once, owner, entry, listed, watched, ended⟩ := h
  constructor
  all_goals simp only [sessionOf, getElem?_modify] at *
  all_goals grind

/-- **A step of a task.** A session's entry goes once its monitor has ended, or by a cancellation,
which then tells the monitor to stop. -/
theorem Kept.perform (h : s.Kept) {t : MonitorTask} {next : List MonitorTask} {s' : Registry}
    (ht : t ∈ s.tasks) (ho : s.Orderly (.task t)) (hstep : s.perform t = some (s', next)) :
    Kept { s' with tasks := next ++ s.tasks.erase t } := by
  obtain ⟨once, owner, entry, listed, watched, ended⟩ := h
  have howner := owner t ht
  cases t with
  | watchdogJoin id m =>
    simp only [Registry.perform] at hstep
    split_ifs at hstep with hruns
    cases hstep
    constructor
    all_goals simp only [sessionOf, runs] at *
    all_goals grind [about]
  | _ =>
    cases hstep
    constructor
    all_goals simp only [sessionOf, Orderly, Table.get_set, Table.get_remove, getElem?_modify] at *
    all_goals grind [about]

theorem Kept.step {o : RegistryOp} (h : s.Kept) (ho : s.Orderly o)
    (hstep : s.step o = some t) : t.Kept := by
  cases o with
  | launch id =>
    cases hstep
    exact h.spawn ho (.inl rfl)
  | recover id =>
    cases hstep
    exact h.spawn ho (.inr rfl)
  | cancel id =>
    cases hstep
    obtain ⟨once, owner, entry, listed, watched, ended⟩ := h
    constructor
    all_goals simp only [sessionOf] at *
    all_goals grind [about]
  | monitorExit m =>
    cases hstep
    exact h.exit m
  | task task =>
    simp only [Registry.step] at hstep
    split_ifs at hstep with htask
    obtain ⟨⟨s', next⟩, hperform, rfl⟩ := Option.map_eq_some_iff.mp hstep
    exact h.perform htask ho hperform

/-- **The map has the sessions whose monitor runs**, whenever all is quiet, if each has one monitor
and recovery inserts before the watchdog removes. -/
theorem active_iff_running (h : Run (fun s o t => s.step o = some t) Orderly .empty s)
    (hq : s.Quiet) (id : String) : s.activeSessions.contains id ↔
      ∃ x ∈ s.monitors, x.sessionId = id ∧ x.running := by
  have hkept : s.Kept := by
    refine h.invariant Kept Kept.step ?_
    constructor
    all_goals simp [empty, sessionOf]
  have hquiet : ∀ t ∈ s.tasks, s.perform t = none := hq.1
  rw [Table.contains_iff]
  constructor
  · rintro ⟨m, hm⟩
    obtain hw | hj | hr := hkept.watched id m (.inl hm)
    · cases hquiet _ hw
    · have hruns : s.runs m := by simpa [perform] using hquiet _ hj
      have hown := hkept.entry id m hm
      simp only [runs, sessionOf] at hruns hown
      grind
    · cases hquiet _ hr
  · rintro ⟨x, hx, rfl, hrun⟩
    obtain ⟨m, hm⟩ := mem_iff_getElem?.mp hx
    obtain hl | hi | hw | hr | hs := hkept.listed m x hm hrun (hq.2 x hx hrun)
    · exact ⟨m, hl⟩
    · cases hquiet _ hi
    · cases hquiet _ hw
    · cases hquiet _ hr
    · cases hquiet _ hs

def sampleRegistry : Registry :=
  ⟨(∅ : Table String ℕ).set "s" 0, [⟨"s", true, false⟩], [.watchdogJoin "s" 0]⟩

theorem active_iff_running_sample : sampleRegistry.activeSessions.contains "s" ↔
    ∃ x ∈ sampleRegistry.monitors, x.sessionId = "s" ∧ x.running := by
  refine active_iff_running (s := sampleRegistry) ?_ ?_ "s"
  · exact (((Run.refl _).tail (.launch "s") (by simp [Orderly, sessionOf, empty]) rfl).tail
      (.task (.launchInsert "s" 0)) trivial rfl).tail (.task (.launchWatch "s" 0)) trivial rfl
  · simp [Quiet, sampleRegistry, perform, runs]

/-- Recovery inserts the monitor after its watchdog has removed it. -/
theorem recovered_monitor_stays : ∃ s, Run (fun s o t => step s o = some t) anyStep .empty s ∧
    s.Quiet ∧ s.activeSessions.contains "s" ∧ ∀ x ∈ s.monitors, x.running = false := by
  refine ⟨⟨((∅ : Table String ℕ).remove "s").set "s" 0, [⟨"s", false, false⟩], []⟩,
    Run.of_ops (rfl : [.recover "s", .task (.recoveryWatch "s" 0),
      .monitorExit 0, .task (.watchdogJoin "s" 0), .task (.watchdogRemove "s"),
      .task (.recoveryInsert "s" 0)].foldlM step empty = some _), ?_, ?_, ?_⟩
  · simp [Quiet]
  · simp [Table.contains]
  · simp

end Registry

end Wacp.Console
