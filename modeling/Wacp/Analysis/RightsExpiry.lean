import Wacp.Model.Topology
import Wacp.Analysis.RightsGraph
import Wacp.Analysis.TreeInvariant

/-!
# Rights of terminal workspaces

`terminate_workspace` takes the descendants from the tree the cascade has rearranged: one below
somebody else's workspace keeps its rights. `create_workspace` looks at no status.
-/

namespace Wacp

open Relation Library Library.Forest List Option WorkspaceTree TransGen

namespace PortRightsGraph

variable {g : PortRightsGraph}

def ActiveAt (g : PortRightsGraph) (w : WorkspaceId) : Prop :=
  ∃ id e, g.byId.get id = some e ∧ e.status = .active ∧ (e.holder = w ∨ e.target = w)

theorem ActiveAt.of_expire (hwf : g.WellFormed) {w v : WorkspaceId}
    (h : (g.expireWorkspace w).ActiveAt v) : g.ActiveAt v ∧ v ≠ w := by
  obtain ⟨id, e, he, hactive, hend⟩ := h
  rw [get_expireWorkspace hwf] at he
  obtain ⟨e₀, he₀, heq⟩ := map_eq_some_iff.mp he
  by_cases hw : e₀.holder = w ∨ e₀.target = w
  · rw [if_pos hw] at heq
    rw [← heq] at hactive
    exact absurd hactive (expire_not_active e₀)
  · rw [if_neg hw] at heq
    subst heq
    refine ⟨⟨id, e₀, he₀, hactive, hend⟩, ?_⟩
    rintro rfl
    exact hw hend

theorem ActiveAt.of_create {holder target v : WorkspaceId} {kind : PortRightType}
    (h : (g.create holder target kind).1.ActiveAt v) : g.ActiveAt v ∨ v = holder ∨ v = target := by
  obtain ⟨id, e, he, hactive, hend⟩ := h
  rw [get_create] at he
  split at he
  · cases he
    exact .inr (hend.imp Eq.symm Eq.symm)
  · exact .inl ⟨id, e, he, hactive, hend⟩

end PortRightsGraph

namespace TopologySet

open PortRightsGraph

variable {s s' : TopologySet}

/-! ## The operations on rights -/

variable {params : CreateWorkspaceParams}

theorem activeAt_createRights {g : PortRightsGraph}
    {v : WorkspaceId} (h : (createRights g params).ActiveAt v) :
    g.ActiveAt v ∨ v = params.id ∨ v = params.parent := by
  rcases h.of_create with h | h | h
  · rcases h.of_create with h | h | h
    · rcases h.of_create with h | h | h
      · exact .inl h
      · exact .inr (.inr h)
      · exact .inr (.inl h)
    · exact .inr (.inl h)
    · exact .inr (.inr h)
  · exact .inr (.inl h)
  · exact .inr (.inl h)

/-- **The expiry loop.** An endpoint of an Active right was one before and is not a Failed node of
the list. -/
theorem expireFailed_foldl {tree : WorkspaceTree} {ds : List WorkspaceId}
    (acc : PortRightsGraph × CascadeEffect) (hwf : acc.1.WellFormed) :
    (ds.foldl (expireFailed tree) acc).1.WellFormed ∧
      ∀ v, (ds.foldl (expireFailed tree) acc).1.ActiveAt v →
        acc.1.ActiveAt v ∧ ¬ (v ∈ ds ∧ tree.statusOf v = some .failed) := by
  induction ds generalizing acc with
  | nil => exact ⟨hwf, fun v hv => ⟨hv, by simp⟩⟩
  | cons d ds ih =>
    rw [foldl_cons]
    by_cases hd : tree.statusOf d = some .failed
    · obtain ⟨n, hn, hstatus⟩ := map_eq_some_iff.mp hd
      have hstep : (expireFailed tree acc d).1 = acc.1.expireWorkspace d := by
        simp [expireFailed, WorkspaceTree.get, hn, hstatus]
      have hwf' : (expireFailed tree acc d).1.WellFormed := hstep ▸ hwf.expireWorkspace d
      obtain ⟨hend, hactive⟩ := ih (expireFailed tree acc d) hwf'
      refine ⟨hend, fun v hv => ?_⟩
      obtain ⟨hv', hnot⟩ := hactive v hv
      rw [hstep] at hv'
      obtain ⟨hbefore, hne⟩ := hv'.of_expire hwf
      refine ⟨hbefore, ?_⟩
      rintro ⟨hmem, hfailed⟩
      rcases mem_cons.mp hmem with h | h
      · exact hne h
      · exact hnot ⟨h, hfailed⟩
    · have hstep : expireFailed tree acc d = acc := by
        unfold expireFailed WorkspaceTree.get
        unfold WorkspaceTree.statusOf at hd
        cases hn : tree.nodes.get d with
        | none => rfl
        | some n =>
          have hstatus : n.status ≠ .failed := by simpa [hn] using hd
          simp [hstatus]
      rw [hstep]
      obtain ⟨hend, hactive⟩ := ih acc hwf
      refine ⟨hend, fun v hv => ⟨(hactive v hv).1, ?_⟩⟩
      rintro ⟨hmem, hfailed⟩
      rcases mem_cons.mp hmem with rfl | h
      · exact hd hfailed
      · exact (hactive v hv).2 ⟨h, hfailed⟩

/-! ## The system -/

def NoStaleRights (s : TopologySet) : Prop :=
  ∀ id e, s.portRights.byId.get id = some e → e.status = .active →
    ∀ w, w = e.holder ∨ w = e.target →
      ∀ status, s.tree.statusOf w = some status → status.isTerminal = false

theorem noStaleRights_iff : s.NoStaleRights ↔ ∀ w, s.portRights.ActiveAt w →
    ∀ status, s.tree.statusOf w = some status → status.isTerminal = false := by
  constructor
  · rintro h w ⟨id, e, he, hactive, hend⟩
    exact h id e he hactive w (hend.imp Eq.symm Eq.symm)
  · intro h id e he hactive w hw
    exact h w ⟨id, e, he, hactive, hw.imp Eq.symm Eq.symm⟩

inductive Op where
  | create (params : CreateWorkspaceParams)
  | terminate (id : WorkspaceId) (status : WorkspaceState)
  | transfer (id : WorkspaceId) (newOwner : UserId)

/-- A failed operation changes nothing; `none` is a termination that does not return. -/
def apply (s : TopologySet) : Op → Option TopologySet
  | .create params =>
    match s.createWorkspace params with
    | .ok s' => some s'
    | .error _ => some s
  | .terminate id status => (s.terminateWorkspace id status).map Prod.fst
  | .transfer id newOwner =>
    match s.transferOwnership id newOwner with
    | .ok (s', _) => some s'
    | .error _ => some s

def Step (s : TopologySet) (op : Op) (s' : TopologySet) : Prop := s.apply op = some s'

def TerminalOnly (_ : TopologySet) : Op → Prop
  | .terminate _ status => status.isTerminal
  | _ => True

/-- A workspace is created live under a live parent. When one other than the root fails, every live
descendant of its owner is reached through workspaces of that owner. -/
def Guarded (s : TopologySet) : Op → Prop
  | .create params => s.tree.get params.id = none →
      ∀ status, s.tree.statusOf params.parent = some status →
        status.isTerminal = false ∧ params.status.isTerminal = false
  | .terminate id status => status = .failed → id ≠ s.tree.root →
      ∀ w, Below s.tree.parentOf w id → s.tree.ownerOf w = s.tree.ownerOf id → s.tree.Live w →
        ∀ x, Below s.tree.parentOf w x → Below s.tree.parentOf x id →
          s.tree.ownerOf x = s.tree.ownerOf id
  | .transfer _ _ => True

structure Sound (s : TopologySet) : Prop where
  tree : s.tree.WellFormed
  rights : s.portRights.WellFormed
  live : ∀ w, s.portRights.ActiveAt w →
    ∀ status, s.tree.statusOf w = some status → status.isTerminal = false

theorem sound_new {rootId : WorkspaceId} {rootOwner : UserId} : (new rootId rootOwner).Sound := by
  refine ⟨wellFormed_new rootId rootOwner, wellFormed_new, ?_⟩
  rintro w ⟨id, e, he, -⟩
  simp [new, PortRightsGraph.new] at he

theorem Sound.create (h : s.Sound)
    (hg : s.Guarded (.create params)) (hs : s.createWorkspace params = .ok s') : s'.Sound := by
  unfold createWorkspace at hs
  split at hs
  · cases hs
  · rename_i tree hins
    cases hs
    obtain ⟨p, pn, hp, hfresh, hpn, -⟩ := insert_ok hins
    cases hp
    have hpstatus : s.tree.statusOf params.parent = some pn.status := by
      simp [statusOf, hpn]
    obtain ⟨hparent, hnew⟩ := hg hfresh pn.status hpstatus
    refine ⟨h.tree.insert rfl hins, ((h.rights.create _ _ _).create _ _ _).create _ _ _, ?_⟩
    intro w hw status hstatus
    have hmap : tree.statusOf w = if w = params.id then some params.status else s.tree.statusOf w :=
      map_get_insert hins (·.status) (fun _ _ => rfl) w
    by_cases hid : w = params.id
    · have hst : params.status = status := by
        rw [if_pos hid] at hmap
        exact Option.some.inj (hmap.symm.trans hstatus)
      rw [← hst]
      exact hnew
    · have hold : s.tree.statusOf w = some status := by
        rw [if_neg hid] at hmap
        exact hmap.symm.trans hstatus
      rcases activeAt_createRights hw with h' | h' | h'
      · exact h.live w h' status hold
      · exact absurd h' hid
      · rw [h', hpstatus] at hold
        cases hold
        exact hparent

theorem Sound.transfer (h : s.Sound) {id : WorkspaceId} {newOwner oldOwner : UserId}
    (hs : s.transferOwnership id newOwner = .ok (s', oldOwner)) : s'.Sound := by
  unfold transferOwnership at hs
  split at hs
  · cases hs
  · rename_i tree old htr
    cases hs
    refine ⟨h.tree.transferOwner htr, h.rights, ?_⟩
    intro w hw status hstatus
    apply h.live w hw status
    obtain ⟨n, hn, -, -, ht⟩ := transferOwner_ok htr
    rw [← hstatus, ht]
    unfold statusOf
    simp only [Table.get_modify]
    by_cases hw : w = id
    · simp only [hw, if_true, Option.map_map]
      rfl
    · simp [hw]

/-! ## Termination -/

section

variable {t t' : WorkspaceTree} {id w : WorkspaceId} {moved : List WorkspaceId}
  (hres : t.CascadeResult t' id moved)
include hres

theorem below_after_cascade (hw : Below t.parentOf w id) (hown : t.ownerOf w = t.ownerOf id)
    (hpath : ∀ x, Below t.parentOf w x → Below t.parentOf x id → t.ownerOf x = t.ownerOf id) :
    Below t'.parentOf w id := by
  have hstay : ∀ {a b : WorkspaceId}, Up t.parentOf a b → t.ownerOf a = t.ownerOf id →
      Up t'.parentOf a b := by
    intro a b hab ha
    have hnot : a ∉ moved := fun hm => ((hres.mem_moved a).mp hm).2 ha
    unfold Up
    rw [hres.parent, if_neg hnot]
    exact hab
  -- induction along the path, from its lower end
  induction hw using head_induction_on with
  | single hup => exact single (hstay hup hown)
  | @head a b hup hbelow ih =>
    have hb := hpath b (single hup) hbelow
    refine head (hstay hup hown) (ih hb fun x hbx hx => ?_)
    exact hpath x (head hup hbx) hx

theorem mem_descendants_after {ds : List WorkspaceId} (hds : ∀ d, d ∈ ds ↔ Below t'.parentOf d id)
    (hw : Below t.parentOf w id) (hown : t.ownerOf w = t.ownerOf id) (hpath : id ≠ t.root → ∀ x,
      Below t.parentOf w x → Below t.parentOf x id → t.ownerOf x = t.ownerOf id) : w ∈ ds := by
  rw [hds]
  by_cases hroot : id = t.root
  · -- below the root everything is found, moved or not
    have hfailed := hres.status_hit w (.inr ⟨hw, hown⟩)
    obtain ⟨n, hn, -⟩ := map_eq_some_iff.mp hfailed
    have hreach := hres.wellFormed.rooted w n hn
    rw [hres.root, ← hroot] at hreach
    rcases reflTransGen_iff_eq_or_transGen.mp hreach with h | h
    · have hparent := hres.wellFormed.parentOf_root
      rw [hres.root, ← hroot, h, hres.parent] at hparent
      obtain ⟨p, hp, -⟩ := head'_iff.mp hw
      split at hparent
      · cases hparent
      · rw [Up, hparent] at hp
        cases hp
    · exact h
  · exact below_after_cascade hres hw hown (hpath hroot)

end

variable {effect : CascadeEffect}

theorem Sound.terminate_failed (h : s.Sound) {id : WorkspaceId}
    (hg : s.Guarded (.terminate id .failed))
    (hs : s.terminateWorkspace id .failed = some (s', effect)) : s'.Sound := by
  have hwf₁ := h.tree.updateStatus id .failed
  have hexp := h.rights.expireWorkspace id
  -- a workspace that keeps an Active right after the first expiry was live, and is not `id`
  have hkeep : ∀ w, (s.portRights.expireWorkspace id).ActiveAt w → w ≠ id ∧
      ∀ status, (s.tree.updateStatus id .failed).statusOf w = some status →
        status.isTerminal = false := by
    intro w hw
    obtain ⟨hbefore, hne⟩ := hw.of_expire h.rights
    refine ⟨hne, fun status hstatus => h.live w hbefore status ?_⟩
    rwa [statusOf_updateStatus_of_ne hne] at hstatus
  unfold terminateWorkspace at hs
  simp only [if_true] at hs
  cases hid : (s.tree.updateStatus id .failed).nodes.get id with
  | none =>
    rw [cascadeFailure_of_none hid] at hs
    obtain ⟨ds, hds, -, -⟩ := hwf₁.descendants_eq_some id
    simp only [hds, Option.some.injEq, Prod.mk.injEq] at hs
    obtain ⟨hs, -⟩ := hs
    subst hs
    refine ⟨hwf₁, (expireFailed_foldl _ hexp).1, fun w hw => ?_⟩
    exact (hkeep w ((expireFailed_foldl _ hexp).2 w hw).1).2
  | some =>
    obtain ⟨t', moved, hc, hres⟩ := cascadeFailure_result hwf₁ hid
    obtain ⟨ds, hds, -, hmem⟩ := hres.wellFormed.descendants_eq_some id
    simp only [hc, hds, Option.some.injEq, Prod.mk.injEq] at hs
    obtain ⟨hs, -⟩ := hs
    subst hs
    refine ⟨hres.wellFormed, (expireFailed_foldl _ hexp).1, ?_⟩
    intro w hw status hstatus
    obtain ⟨hw₁, hnot⟩ := (expireFailed_foldl _ hexp).2 w hw
    obtain ⟨hne, hlive⟩ := hkeep w hw₁
    by_cases hhit : (s.tree.updateStatus id .failed).Hit id w
    · obtain ⟨hbelow, hown⟩ := hhit.resolve_left hne
      exfalso
      apply hnot
      refine ⟨?_, hres.status_hit w (.inr ⟨hbelow, hown⟩)⟩
      refine mem_descendants_after hres hmem hbelow hown fun hroot x hwx hx => ?_
      obtain ⟨n, hn⟩ := get_of_below hbelow
      have hst : (s.tree.updateStatus id .failed).statusOf w = some n.status := by
        simp [statusOf, hn]
      rw [parentOf_updateStatus] at hbelow hwx hx
      rw [ownerOf_updateStatus] at hown ⊢
      refine hg rfl hroot w hbelow hown ⟨n.status, ?_, hlive _ hst⟩ x hwx hx
      rwa [statusOf_updateStatus_of_ne hne] at hst
    · apply hlive status
      rw [← hres.status_kept w hhit]
      exact hstatus

theorem Sound.terminate (h : s.Sound) {id : WorkspaceId} {status : WorkspaceState}
    (hg : s.Guarded (.terminate id status))
    (hs : s.terminateWorkspace id status = some (s', effect)) : s'.Sound := by
  by_cases hfailed : status = .failed
  · subst hfailed
    exact h.terminate_failed hg hs
  · unfold terminateWorkspace at hs
    simp only [if_neg hfailed, Option.some.injEq, Prod.mk.injEq] at hs
    obtain ⟨rfl, -⟩ := hs
    refine ⟨h.tree.updateStatus id status, h.rights.expireWorkspace id, ?_⟩
    intro w hw st hst
    obtain ⟨hbefore, hne⟩ := hw.of_expire h.rights
    apply h.live w hbefore st
    exact (statusOf_updateStatus_of_ne hne).symm.trans hst

theorem sound_step {op : Op} (h : s.Sound) (hg : s.Guarded op) (hs : s.Step op s') : s'.Sound := by
  unfold Step at hs
  cases op with
  | create params =>
    simp only [apply] at hs
    split at hs
    · rename_i s₁ hok
      cases hs
      exact h.create hg hok
    · cases hs
      exact h
  | terminate =>
    obtain ⟨⟨s₁, effect⟩, hterm, heq⟩ := map_eq_some_iff.mp hs
    cases heq
    exact h.terminate hg hterm
  | transfer id newOwner =>
    simp only [apply] at hs
    split at hs
    · rename_i s₁ old hok
      cases hs
      exact h.transfer hok
    · cases hs
      exact h

/-- **No stale right in a guarded run** of creations, terminations and ownership transfers. -/
theorem no_stale_rights_of_run {rootId : WorkspaceId} {rootOwner : UserId}
    (h : Run Step (fun s op => TerminalOnly s op ∧ Guarded s op) (new rootId rootOwner) s) :
    s.NoStaleRights := by
  have hsound : s.Sound :=
    h.invariant Sound (fun hI hok hstep => sound_step hI hok.2 hstep) sound_new
  exact noStaleRights_iff.mpr hsound.live

def sampleParams (id parent owner : String) : CreateWorkspaceParams :=
  { id := ⟨id⟩, parent := ⟨parent⟩, owner := ⟨owner⟩, originator := .system, status := .active,
    taskId := none }

theorem no_stale_rights_of_root_failure :
    ∃ s, Run Step (fun s op => TerminalOnly s op ∧ Guarded s op)
        (new ⟨"root"⟩ ⟨"alice"⟩) s ∧
      s.tree.statusOf ⟨"a"⟩ = some .failed ∧ s.NoStaleRights := by
  have hrun : ∃ s, Run Step (fun s op => TerminalOnly s op ∧ Guarded s op)
      (new ⟨"root"⟩ ⟨"alice"⟩) s ∧ s.tree.statusOf ⟨"a"⟩ = some .failed := by
    refine ⟨_, Run.tail (.terminate ⟨"root"⟩ .failed)
      (Run.tail (.create (sampleParams "a" "root" "alice")) (Run.refl _)
        ⟨trivial, fun _ => ?_⟩ rfl) ⟨rfl, fun _ hne => absurd rfl hne⟩ rfl, by decide⟩
    intro status hstatus
    cases hstatus
    exact ⟨rfl, rfl⟩
  obtain ⟨s, hs, ha⟩ := hrun
  exact ⟨s, hs, ha, no_stale_rights_of_run hs⟩

/-- **A stale right.** Alice's `c` is below Bob's `b`, below her `a`. When `a` fails, `c` is marked
Failed, but left with `b`: its receive right stays Active. -/
theorem stale_right_run : ∃ s, Run Step TerminalOnly (new ⟨"root"⟩ ⟨"alice"⟩) s ∧
      s.portRights.byId.get "pr-9" = some ⟨"pr-9", ⟨"c"⟩, ⟨"c"⟩, .receive, .active⟩ ∧
      s.tree.statusOf ⟨"c"⟩ = some .failed ∧ ¬ s.NoStaleRights := by
  refine ⟨_, Run.of_foldlM (by simp [TerminalOnly, WorkspaceState.isTerminal])
    (rfl : [Op.create (sampleParams "a" "root" "alice"), .create (sampleParams "b" "a" "bob"),
      .create (sampleParams "c" "b" "alice"), .terminate ⟨"a"⟩ .failed].foldlM apply _ = some _),
    by decide, by decide, fun hno => ?_⟩
  cases hno "pr-9" ⟨"pr-9", ⟨"c"⟩, ⟨"c"⟩, .receive, .active⟩ (by decide) rfl ⟨"c"⟩ (.inl rfl)
    .failed (by decide)

end TopologySet

end Wacp
