import Wacp.Analysis.DispatchedTools

/-!
# The version of a profile that an assignment names

The checks compare the role of the version an assignment names; the launcher reads the live row.
`Seen` says that a row that was read is still there, up to the two columns that may be set later.
-/

namespace Wacp.Console

open Library Prog List

/-! ## Versions stay -/

namespace Profiles

def ProfileRow.content (row : ProfileRow) : ProfileRow :=
  { row with isCurrent := false, deletedAt := none }

theorem ProfileRow.key_eq_of_content_eq {row row' : ProfileRow} (h : row.content = row'.content) :
    row.key = row'.key := by
  have hkey : row.content.key = row'.content.key := by rw [h]
  exact hkey

def ProfileTable.Seen (t : ProfileTable) (row : ProfileRow) : Prop :=
  ∃ r ∈ t.rows, r.content = row.content

variable {t : ProfileTable} {row row' : ProfileRow}

theorem ProfileTable.Seen.content_eq (h : t.Seen row) (h' : t.Seen row')
    (hkey : row.key = row'.key) : row.content = row'.content := by
  obtain ⟨r, hr, hrow⟩ := h
  obtain ⟨r', hr', hrow'⟩ := h'
  have hsame : r.key = r'.key := by
    rw [ProfileRow.key_eq_of_content_eq hrow, ProfileRow.key_eq_of_content_eq hrow', hkey]
  have heq : r = r' := eq_of_key_eq t.keys hr hr' hsame
  rw [← hrow, ← hrow', heq]

theorem ProfileTable.Seen.update (h : t.Seen row) {t' : ProfileTable} {p : ProfileRow → Bool}
    {f : ProfileRow → ProfileRow} (hrows : t'.rows = updateWhere p f t.rows)
    (hf : ∀ r, (f r).content = r.content) : t'.Seen row := by
  obtain ⟨r, hr, hrow⟩ := h
  refine ⟨if p r then f r else r, ?_, ?_⟩
  · rw [hrows]
    exact mem_map.mpr ⟨r, hr, rfl⟩
  · split_ifs
    · rw [hf, hrow]
    · exact hrow

theorem ProfileTable.Seen.exec (h : t.Seen row) (c : Call) (o : Outside) :
    (exec c o t).2.Seen row := by
  have hstatement : ∀ {α : Type} (a : α) (t' : ProfileTable), t'.Seen row →
      (t.statement o a t').2.Seen row :=
    fun a t' => keeps_of_tried (t.statement_cases t' o a) (·.Seen row) h
  cases c with
  | insertProfile new =>
    obtain ⟨e, he⟩ | ⟨t', ht', hrows, -⟩ := t.insert_cases o new
    · rw [Profiles.exec, he]
      exact h
    · rw [Profiles.exec, ht']
      obtain ⟨r, hr, hrow⟩ := h
      refine ⟨r, ?_, hrow⟩
      rw [hrows]
      exact mem_append_left _ hr
  | unsetCurrent | softDelete => exact hstatement _ _ (h.update rfl fun _ => rfl)
  | taxonomy | newId | now => exact h
  | _ => exact hstatement _ _ h

theorem getCurrent_of_reply {id : String} {o : Outside} {r : Option ProfileRow}
    (h : (exec (.getCurrent id) o t).1 = .ok r) : t.getCurrent id = r :=
  eq_of_tried (t.statement_cases t o _) h

theorem getVersion_of_reply {id : String} {version : ℤ} {o : Outside} {r : Option ProfileRow}
    (h : (exec (.getVersion id version) o t).1 = .ok r) : t.getVersion id version = r :=
  eq_of_tried (t.statement_cases t o _) h

end Profiles

namespace Editing

open Wacp.Console.Editing.Phase

variable {set : Setting}

def readRow : Exchange Call Reply → Option Profiles.ProfileRow
  | ⟨.profile (.getCurrent _), .ok row⟩ => row
  | ⟨.profile (.getVersion _ _), .ok row⟩ => row
  | _ => none

variable {o : Outside} {row : Profiles.ProfileRow}

theorem seen_of_readRow {c : Call} {w : World}
    (h : readRow ⟨c, (exec c o w).1⟩ = some row) : w.profiles.Seen row := by
  cases c with
  | profile c =>
    cases c with
    | getCurrent id =>
      generalize hr : (exec (.profile (.getCurrent id)) o w).1 = r at h
      cases r with
      | error => cases h
      | ok =>
        have hcurrent := Profiles.getCurrent_of_reply hr
        exact ⟨row, mem_of_find?_eq_some (hcurrent.trans h), rfl⟩
    | getVersion id version =>
      generalize hr : (exec (.profile (.getVersion id version)) o w).1 = r at h
      cases r with
      | error => cases h
      | ok =>
        have hversion := Profiles.getVersion_of_reply hr
        exact ⟨row, mem_of_find?_eq_some (hversion.trans h), rfl⟩
    | _ => cases h
  | _ => cases h

theorem seen_exec {w : World} (h : w.profiles.Seen row) {c : Call}
    : (exec c o w).2.profiles.Seen row := by
  have hsame : ∀ {w' : World}, w'.profiles = w.profiles → w'.profiles.Seen row := by
    intro w' hw'
    rw [hw']
    exact h
  cases c with
  | profile c => exact h.exec c o.profile
  | session c => exact hsame (World.finalized_keeps World.profiles fun _ => rfl)
  | listBySession | deleteAssignments => exact hsame (World.statement_keeps World.profiles o rfl)
  | updateContext | updateName => exact hsame (World.updateConfiguring_keeps World.profiles o rfl)
  | updateBudgets =>
    exact hsame (World.updateConfiguring_keeps World.profiles o rfl)
  | insertAssignment a => exact hsame (World.insertAssignment_keeps World.profiles o a fun _ => rfl)

/-! ## What was read for the directives -/

def Phase.reads : Phase → List (AssignmentRow × Option Profiles.ProfileRow)
  | .preparing _ built _ => built.map fun b => (b.assignment, b.profile)
  | .writing _ built a profile _ => (built.map fun b => (b.assignment, b.profile)) ++ [(a, profile)]
  | .dispatching _ built _ _ => built.map fun b => (b.assignment, b.profile)
  | .closing _ built => built.map fun b => (b.assignment, b.profile)
  | _ => []

theorem reads_of_allows {φ φ' : Phase} {x : Exchange Call Reply} (h : Allows set φ x φ')
    {y : AssignmentRow × Option Profiles.ProfileRow} (hy : y ∈ φ'.reads) :
    y ∈ φ.reads ∨ ∃ l built rest, φ = .preparing l built (y.1 :: rest) ∧
      x = ⟨.profile (.getCurrent y.1.profileId), .ok y.2⟩ := by
  cases h with
  | read l built a profile rest =>
    obtain hy | hy := mem_append.mp hy
    · exact .inl hy
    · cases mem_singleton.mp hy
      exact .inr ⟨l, built, rest, rfl, rfl⟩
  | write =>
    simpa [Phase.reads] using hy
  | prepareFailed l built hφ =>
    left
    obtain ⟨rest, rfl⟩ | ⟨a, profile, rest, rfl⟩ := hφ
    · exact hy
    · exact mem_append_left _ hy
  | submit | submitFailed => cases hy
  | ending | decompose | decomposeFailed | dispatch | dispatchFailed | finalize => exact .inl hy
  | _ => cases hy

/-! ## Every run -/

noncomputable def readsPinned (set : Setting) (s : Requests) : Label → Bool
  | .call i _ =>
    match s.pending i with
    | some (.profile (.getCurrent _)) =>
      match s.phase (next set) .fresh i with
      | some (.preparing _ _ (a :: _)) =>
        (s.shared.profiles.getCurrent a.profileId).any (·.version == a.profileVersion)
      | _ => true
    | _ => true
  | .request _ => true

def Pins (a : AssignmentRow) (profile : Option Profiles.ProfileRow) : Prop :=
  ∃ p, profile = some p ∧ p.key = (a.profileId, a.profileVersion)

structure Pinned (set : Setting) (s : Requests) : Prop where
  conforms : Conforms set s
  seen : ∀ i x row, (i, x) ∈ s.history → readRow x = some row → s.shared.profiles.Seen row
  versions : ∀ i id version row,
    (i, ⟨.profile (.getVersion id version), .ok (some row)⟩) ∈ s.history → row.key = (id, version)
  pins : ∀ i φ, s.phase (next set) .fresh i = some φ → ∀ y ∈ φ.reads, Pins y.1 y.2

theorem pinned_new (w : World) : Pinned set (new w) where
  conforms := conforms_new
  seen i x row hx := by cases hx
  versions i id version row hx := by cases hx
  pins i φ hφ y hy := by
    cases hφ
    cases hy

theorem pins_of_readsPinned {s : Requests} {i : ℕ} {l : Loaded} {built : List Built}
    {a : AssignmentRow} {rest : List AssignmentRow} {profile : Option Profiles.ProfileRow}
    (hok : readsPinned set s (.call i o))
    (hpending : s.pending i = some (.profile (.getCurrent a.profileId)))
    (hphase : s.phase (next set) .fresh i = some (.preparing l built (a :: rest)))
    (hreply : (exec (.profile (.getCurrent a.profileId)) o s.shared).1 = .ok profile) :
    Pins a profile := by
  have hcurrent : s.shared.profiles.getCurrent a.profileId = profile :=
    Profiles.getCurrent_of_reply hreply
  simp only [readsPinned, hpending, hphase, hcurrent] at hok
  cases profile with
  | none => cases hok
  | some p =>
    have hid := find?_some hcurrent
    simp only [Bool.and_eq_true, beq_iff_eq] at hid
    have hversion : p.version = a.profileVersion := by simpa using hok
    exact ⟨p, rfl, Prod.ext hid.1 hversion⟩

theorem Pinned.step {s s' : Requests} {label : Label} (h : Pinned set s)
    (hok : readsPinned set s label) (hstep : Step set s label s') : Pinned set s' := by
  cases label with
  | request r =>
    cases hstep
    exact ⟨conforms_start h.conforms, h.seen, h.versions, h.pins⟩
  | call i o =>
    obtain ⟨hconforms, c, φ, φ', hadv, hpending⟩ := conforms_call h.conforms hstep
    refine ⟨hconforms, ?_, ?_, ?_⟩
    · intro j x row hx hrow
      rw [hadv.history] at hx
      rw [hadv.shared]
      obtain hx | hx := mem_append.mp hx
      · exact seen_exec (h.seen j x row hx hrow)
      · cases mem_singleton.mp hx
        exact seen_exec (seen_of_readRow hrow)
    · intro j id version row hx
      rw [hadv.history] at hx
      obtain hx | hx := mem_append.mp hx
      · exact h.versions j id version row hx
      · generalize hr : (exec c o s.shared).1 = r at hx
        cases mem_singleton.mp hx
        exact ((find?_key_eq_some_iff (Profiles.ProfileTable.keys _)).mp
          (Profiles.getVersion_of_reply hr)).2
    · intro j ψ hψ y hy
      by_cases hj : j = i
      · subst hj
        cases hadv.after.symm.trans hψ
        have hallows := allows_of_next hadv.allowed
        generalize hr : (exec c o s.shared).1 = r at hallows
        obtain hold | ⟨l, built, rest, rfl, hx⟩ := reads_of_allows hallows hy
        · exact h.pins _ φ hadv.before y hold
        · cases hx
          exact pins_of_readsPinned hok hpending hadv.before hr
      · rw [hadv.others j hj] at hψ
        exact h.pins j ψ hψ y hy

theorem Validated.role_eq {log : Log} {c : Check} (h : Validated set log c)
    {k : CheckedAssignment} (hk : k ∈ c.checked) :
    ∃ v, k.versionedProfile = some v ∧ v.roleRef = k.assignment.roleRef := by
  have hclean := h.clean
  simp only [Check.violations, violationsIn, append_eq_nil_iff, flatMap_eq_nil_iff] at hclean
  have hnone := hclean.1.1.2 k hk
  unfold checkAssignment at hnone
  cases hprofile : k.profile with
  | none => simp [hprofile] at hnone
  | some =>
    cases hversion : k.versionedProfile with
    | none => simp [hprofile, hversion] at hnone
    | some v =>
      simp only [hprofile, hversion, append_eq_nil_iff] at hnone
      refine ⟨v, rfl, ?_⟩
      by_contra hne
      simp [hne] at hnone

/-- Built for an assignment and the row `p`: the version it names, whose role was compared. -/
structure BuiltFromPinned (set : Setting) (s : Requests) (i : ℕ) (request : DispatchRequest)
    (session : SessionRow) (b : Built) (p : Profiles.ProfileRow) (c : Check) : Prop where
  listed : ∃ assignments, Loads session assignments (s.log i) ∧ b.assignment ∈ assignments
  written : Written set session (s.log i) b
  request : ∃ taskId, request = b.request set session taskId
  profile : b.profile = some p
  version : p.key = (b.assignment.profileId, b.assignment.profileVersion)
  kept : s.shared.profiles.Seen p
  validated : Validated set (s.log i) c
  checked : ∀ k ∈ c.checked, k.assignment.profileId = b.assignment.profileId →
    k.assignment.profileVersion = b.assignment.profileVersion →
    ∃ v, k.versionedProfile = some v ∧ v.content = p.content ∧ v.roleRef = k.assignment.roleRef

/-- Directive and budget are built from the version that the assignment names. -/
def FromPinned (set : Setting) (s : Requests) (i : ℕ) (request : DispatchRequest) : Prop :=
  ∃ session b p c, BuiltFromPinned set s i request session b p c

theorem mem_reads_of_launched {φ : Phase} {l : Loaded} {built : List Built}
    (h : φ.launched = some (l, built)) {b : Built} (hb : b ∈ built) :
    (b.assignment, b.profile) ∈ φ.reads := by
  have hmem : (b.assignment, b.profile) ∈ built.map fun b => (b.assignment, b.profile) :=
    mem_map_of_mem hb
  cases φ with
  | writing =>
    cases h
    exact mem_append_left _ hmem
  | preparing | dispatching | closing =>
    cases h
    exact hmem
  | _ => cases h

/-- **What is dispatched is the version assigned and checked**, if every launcher reads the version
its assignment names. -/
theorem dispatched_from_pinned {w : World} {s : Requests}
    (h : Run (Step set) (fun s l => readsPinned set s l) (new w) s) {i : ℕ}
    {request : DispatchRequest} {r : Except Status String}
    (hmem : (i, ⟨.session (.dispatch request), r⟩) ∈ s.history) : FromPinned set s i request := by
  have hpinned : Pinned set s :=
    h.invariant (Pinned set) Pinned.step (pinned_new w)
  obtain ⟨φ, l, built, hφ, hlaunched, hvalidated, hsends⟩ :=
    exists_launched hpinned.conforms hmem rfl
  obtain ⟨b, hb, taskId, hrequest⟩ := hsends.dispatch_mem (Pool.mem_log.mpr hmem)
  obtain ⟨p, hp, hkey⟩ := hpinned.pins i φ hφ _ (mem_reads_of_launched hlaunched hb)
  have hwritten := hsends.written b hb
  have hread := hwritten.read
  rw [show b.profile = some p from hp] at hread
  have hseen := hpinned.seen i _ p (Pool.mem_log.mp hread) rfl
  have hlisted : b.assignment ∈ l.assignments := hsends.begun.subset (mem_map_of_mem hb)
  refine ⟨l.session, b, p, l.check, ⟨l.assignments, hsends.loads, hlisted⟩, hwritten,
    ⟨taskId, hrequest⟩, hp, hkey, hseen, hvalidated, ?_⟩
  intro k hk hid hversion
  obtain ⟨v, hv, hrole⟩ := hvalidated.role_eq hk
  obtain ⟨reads, rest, hopens, -, hreads⟩ := hvalidated.returned
  have hvread := hreads.versions k hk v hv
  have hvlog : ⟨.profile (.getVersion k.assignment.profileId k.assignment.profileVersion),
      .ok (some v)⟩ ∈ s.log i := by
    obtain ⟨u, hlog⟩ := hopens
    rw [hlog]
    simp [hvread]
  have hvkey := hpinned.versions i _ _ v (Pool.mem_log.mp hvlog)
  have hvseen := hpinned.seen i _ v (Pool.mem_log.mp hvlog) rfl
  refine ⟨v, hv, hvseen.content_eq hseen ?_, hrole⟩
  rw [hvkey, hkey, hid, hversion]

/-! ## A profile that is rolled back before the launch -/

namespace Sample

def versions : Profiles.ProfileTable where
  rows := [{ Profiles.Edits.sampleRow 1 false with llmModel := "old" },
    Profiles.Edits.sampleRow 2 true]
  keys := by decide

def rollbackRequest : Label := .request (.edit ⟨"u1", "ada", .operator⟩ (.rollback "p" 1))

def readsThird : Exchange Call Reply → Bool
  | ⟨.listBySession, .ok assignments⟩ => assignments.all (·.profileVersion == 2)
  | ⟨.profile (.getCurrent _), .ok p⟩ => p.all (·.version == 3)
  | _ => true

end Sample

theorem dispatched_from_pinned_alone :
    ∃ s, Run (Step Sample.setting) (fun s l => readsPinned Sample.setting s l)
        (new (Sample.world 1 (Sample.table none))) s ∧
      (0, ⟨.session (.dispatch (Sample.request [])), .ok "ws"⟩) ∈ s.history ∧
      FromPinned Sample.setting s 0 (Sample.request []) := by
  have hrun := Run.of_checked (readsPinned Sample.setting) (fun _ _ _ hok => hok)
    (rfl : (Sample.launchRequest :: Sample.calls (List.replicate 15 0)).foldlM
      (fun s l => if readsPinned Sample.setting s l then apply Sample.setting s l else none)
      (new (Sample.world 1 (Sample.table none))) = some _)
  exact ⟨_, hrun, mem_of_getLast? rfl, dispatched_from_pinned hrun (mem_of_getLast? rfl)⟩

/-- The assignment names version 2; the owner rolls back to version 1, and the launch is built from
version 3. -/
theorem rolled_back_profile_dispatched :
    ∃ s, Run (Step Sample.setting) anyStep (new (Sample.world 2 Sample.versions)) s ∧
      (1, ⟨.session (.dispatch (Sample.request [])), .ok "ws"⟩) ∈ s.history ∧
      ¬ FromPinned Sample.setting s 1 (Sample.request []) := by
  obtain ⟨s, hs⟩ : ∃ s, ([Sample.rollbackRequest, Sample.launchRequest] ++
      Sample.calls (List.replicate 5 0 ++ List.replicate 15 1)).foldlM (apply Sample.setting)
        (new (Sample.world 2 Sample.versions)) = some s := ⟨_, rfl⟩
  have hreads : (s.log 1).all Sample.readsThird := by
    cases hs
    rfl
  refine ⟨s, Run.of_ops hs, by cases hs; exact mem_of_getLast? rfl, ?_⟩
  rintro ⟨session, b, p, c, h⟩
  obtain ⟨assignments, hloads, hlisted⟩ := h.listed
  have htwo := all_eq_true.mp hreads _ hloads.list
  have hthree := all_eq_true.mp hreads _ h.written.read
  have hversion : p.version = b.assignment.profileVersion := congrArg Prod.snd h.version
  rw [h.profile] at hthree
  have htwo' : b.assignment.profileVersion = 2 := by
    simpa using all_eq_true.mp htwo _ hlisted
  have hthree' : p.version = 3 := by simpa [Sample.readsThird] using hthree
  omega

end Editing

end Wacp.Console
