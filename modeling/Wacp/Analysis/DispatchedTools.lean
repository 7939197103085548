import Wacp.Analysis.LaunchLog
import Wacp.Analysis.ProfileVersions

/-!
# The tools that are dispatched

`validate_profile` takes an empty allowlist for all tools of the role; the launcher dispatches the
allowlist without the denied tools.
-/

namespace Wacp.Console.Editing

open Library Prog Wacp.Console.Editing.Phase List Option

structure Accepts (fmt : Formats) (input : ProfileInput) (index : TaxonomyIndex)
    (nameExists : Except DbError Bool) (role : RoleEntry) : Prop where
  result : (validateProfile fmt input index nameExists).any (·.isValid)
  found : index.getRole input.roleRef = some role
  vertical : role.vertical.isSome

def validatedTools (fmt : Formats) (input : ProfileInput) (role : RoleEntry) : List String :=
  ProfileInput.effectiveTools role (ProfileInput.toolNames fmt input.toolAllowlist)
    (ProfileInput.toolNames fmt input.toolDenylist)

structure ToolsAsValidated (fmt : Formats) (input : ProfileInput) (role : RoleEntry)
    (tools : List String) : Prop where
  effective : tools = validatedTools fmt input role
  nonempty : tools ≠ []
  allowed : ∀ t ∈ tools, t ∉ ProfileInput.toolNames fmt input.toolDenylist

section

variable {fmt : Formats} {input : ProfileInput} {index : TaxonomyIndex}
  {nameExists : Except DbError Bool} {role : RoleEntry}

theorem Accepts.effectiveTools_ne_nil (h : Accepts fmt input index nameExists role) :
    validatedTools fmt input role ≠ [] := by
  intro hempty
  have hset : input.checkToolSet fmt index ≠ [] := by
    have hnone : ProfileInput.effectiveTools role (ProfileInput.toolNames fmt input.toolAllowlist)
        (ProfileInput.toolNames fmt input.toolDenylist) = [] := hempty
    simp [ProfileInput.checkToolSet, h.found, h.vertical, hnone, ProfileInput.check, Option.filter]
  have hresult := h.result
  unfold validateProfile at hresult
  cases htags : input.checkTags fmt with
  | none => simp [htags] at hresult
  | some =>
    simp only [htags, map_some, any_some, ValidationResult.isValid,
      List.isEmpty_iff, List.append_eq_nil_iff] at hresult
    exact hset hresult.1.2

theorem toolsAsValidated_iff (h : Accepts fmt input index nameExists role)
    {p : Profiles.ProfileRow} (hallow : p.toolAllowlist = input.toolAllowlist)
    (hdeny : p.toolDenylist = input.toolDenylist) :
    ToolsAsValidated fmt input role (launcherTools fmt (some p)) ↔
      ProfileInput.toolNames fmt input.toolAllowlist ≠ [] := by
  have htools : launcherTools fmt (some p) =
      (ProfileInput.toolNames fmt input.toolAllowlist).filter fun t =>
        !(ProfileInput.toolNames fmt input.toolDenylist).contains t := by
    rw [launcherTools, hallow, hdeny]
  rw [htools]
  constructor
  · intro hvalidated hnone
    apply hvalidated.nonempty
    rw [hnone]
    rfl
  · intro hsome
    have heffective : (ProfileInput.toolNames fmt input.toolAllowlist).filter (fun t =>
        !(ProfileInput.toolNames fmt input.toolDenylist).contains t) =
          validatedTools fmt input role := by
      rw [validatedTools, ProfileInput.effectiveTools, if_neg (by simpa using hsome)]
    refine ⟨heffective, ?_, ?_⟩
    · rw [heffective]
      exact h.effectiveTools_ne_nil
    · intro t ht
      simpa using (mem_filter.mp ht).2

end

/-- **The dispatched tools are the validated ones exactly if there is an allowlist**, for every
Dispatch request of every run. -/
theorem dispatched_tools_iff {set : Setting} {w : World} {s : Requests}
    (h : Run (Step set) anyStep (new w) s) {i : ℕ} {request : DispatchRequest}
    {r : Except Status String} (hmem : (i, ⟨.session (.dispatch request), r⟩) ∈ s.history) :
    ∃ session b taskId, Written set session (s.log i) b ∧
      request = b.request set session taskId ∧
      ∀ p, b.profile = some p → ∀ input index nameExists role,
        Accepts set.fmt input index nameExists role → p.toolAllowlist = input.toolAllowlist →
        p.toolDenylist = input.toolDenylist →
        (ToolsAsValidated set.fmt input role request.tools ↔
          ProfileInput.toolNames set.fmt input.toolAllowlist ≠ []) := by
  obtain ⟨φ, l, built, -, -, -, hsends⟩ := exists_launched (conforms_of_run h) hmem rfl
  obtain ⟨b, hb, taskId, hrequest⟩ := hsends.dispatch_mem (Pool.mem_log.mpr hmem)
  refine ⟨l.session, b, taskId, hsends.written b hb, hrequest, ?_⟩
  intro p hp input index nameExists role haccepts hallow hdeny
  have htools : request.tools = launcherTools set.fmt (some p) := by
    rw [hrequest, ← hp]
    rfl
  rw [htools]
  exact toolsAsValidated_iff haccepts hallow hdeny

/-! ## A launch -/

namespace Sample

def formats : Formats :=
  { strings := fun text => some [text], ofStrings := fun _ => "", json := fun _ => none
    float := fun _ => "" }

def index : TaxonomyIndex where
  roles := (∅ : Table String RoleEntry).set "worker" ⟨"worker", "worker", ["read"], some "v"⟩
  tools := (∅ : Table String ToolEntry).set "read" ⟨some "v", false⟩
  verticals := (∅ : Table String VerticalEntry).set "v" ⟨none, ["worker"], [], ["flow"]⟩

def setting : Setting := { fmt := formats, toJson := fun _ => "text", vertical := "v" }

def row : SessionRow :=
  { id := "s", name := none, ownerUserId := "u1", workflow := "flow", context := none
    coordinatorWorkspaceId := none, state := .configuring, launchedAt := none, closedAt := none
    budgetMaxCostMicros := none, budgetMaxTokens := none, budgetMaxWallTimeMs := none }

def assignment (version : ℤ) : AssignmentRow :=
  { id := "a", roleRef := "worker", slotPosition := 0, profileId := "p", workspaceId := none
    budgetMaxCostMicros := none, budgetMaxTokens := none, budgetMaxWallTimeMs := none
    profileVersion := version }

def world (version : ℤ) (profiles : Profiles.ProfileTable) : World where
  row := row
  assignments := ⟨[assignment version], nodup_singleton _, nodup_singleton _⟩
  monitored := false
  profiles := profiles

variable (toolAllowlist : Option String)

def profile : Profiles.ProfileRow :=
  { Profiles.Edits.sampleRow 1 true with toolAllowlist := toolAllowlist }

def table : Profiles.ProfileTable :=
  ⟨[profile toolAllowlist], nodup_singleton _⟩

/-- Every statement is carried out and every request answered. -/
def willing : Outside where
  session :=
    { now := "t", dbError := none, profile := none, violations := [], tools := none
      bytes := .ok [], channel := true, rootWorkspaceId := .ok "root", taskIds := .ok ["task"]
      workspaceId := .ok "ws", abortWorkspace := .ok (), view := .ok none, inputs := [] }
  profile := { Profiles.Edits.willing with index := index }

def launchRequest : Label := .request (.launch ⟨"u1", false⟩)

def calls (requests : List ℕ) : List Label := requests.map fun i => .call i willing

def request (tools : List String) : DispatchRequest :=
  { taskId := "task", role := "worker", directivePayload := [], tools := tools
    budget := some (directiveOf setting row (assignment 1) (some (profile none))).2 }

def input : ProfileInput :=
  (profile toolAllowlist).cloneInput "reviewer" "u1"

def role : RoleEntry := ⟨"worker", "worker", ["read"], some "v"⟩

def readsColumns : ℕ × Exchange Call Reply → Bool
  | (_, ⟨.profile (.getCurrent _), .ok p⟩) =>
    p.any fun p => p.toolAllowlist == toolAllowlist && p.toolDenylist == none
  | _ => true

theorem accepts_of_none : Accepts formats (input none) index (.ok false) role := ⟨rfl, rfl, rfl⟩

theorem accepts_of_some : Accepts formats (input (some "read")) index (.ok false) role :=
  ⟨rfl, rfl, rfl⟩

end Sample

theorem dispatched_tools_of_allowlist : ∃ s, Run (Step Sample.setting) anyStep
        (new (Sample.world 1 (Sample.table (some "read")))) s ∧
      (0, ⟨.session (.dispatch (Sample.request ["read"])), .ok "ws"⟩) ∈ s.history ∧
      Accepts Sample.formats (Sample.input (some "read")) Sample.index (.ok false) Sample.role ∧
      ToolsAsValidated Sample.formats (Sample.input (some "read")) Sample.role ["read"] := by
  have hrun := Run.of_ops (rfl : (Sample.launchRequest :: Sample.calls (List.replicate 15 0)).foldlM
    (apply Sample.setting) (new (Sample.world 1 (Sample.table (some "read")))) = some _)
  refine ⟨_, hrun, mem_of_getLast? rfl, Sample.accepts_of_some, ?_⟩
  obtain ⟨session, b, taskId, hwritten, -, htools⟩ := dispatched_tools_iff hrun (mem_of_getLast? rfl)
  have hp := all_eq_true.mp (rfl : all _ (Sample.readsColumns (some "read")) = true) _
    (Pool.mem_log.mp hwritten.read)
  cases hprofile : b.profile with
  | none =>
    rw [hprofile] at hp
    cases hp
  | some p =>
    simp only [hprofile, Sample.readsColumns, any_some, Bool.and_eq_true, beq_iff_eq] at hp
    refine (htools p hprofile (Sample.input (some "read")) Sample.index (.ok false) Sample.role
      Sample.accepts_of_some hp.1 hp.2).mpr ?_
    decide

/-- A profile without an allowlist is accepted and dispatched with no tool. -/
theorem no_tools_without_allowlist :
    ∃ s, Run (Step Sample.setting) anyStep (new (Sample.world 1 (Sample.table none))) s ∧
      (0, ⟨.session (.dispatch (Sample.request [])), .ok "ws"⟩) ∈ s.history ∧
      (0, ⟨.profile (.getCurrent "p"), .ok (some (Sample.profile none))⟩) ∈ s.history ∧
      Accepts Sample.formats (Sample.input none) Sample.index (.ok false) Sample.role ∧
      validatedTools Sample.formats (Sample.input none) Sample.role = ["read"] ∧
      ¬ ToolsAsValidated Sample.formats (Sample.input none) Sample.role
        (Sample.request []).tools := by
  refine ⟨_, Run.of_ops (rfl : (Sample.launchRequest :: Sample.calls
    (List.replicate 15 0)).foldlM (apply Sample.setting) _ = some _), mem_of_getLast? rfl,
    mem_of_getElem? (i := 11) rfl, Sample.accepts_of_none, rfl, ?_⟩
  intro h
  exact h.nonempty rfl

end Wacp.Console.Editing
