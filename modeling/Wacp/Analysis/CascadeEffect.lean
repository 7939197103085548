import Wacp.Analysis.TreeShape

/-!
# What `reparent` and `cascade_failure` do

The loop's edits change the pointers its list was computed from. `cascadeFailure_spec` puts it in
closed form.
-/

namespace Wacp.WorkspaceTree

open Relation Library Library.Forest List Option

def relocate (M : List WorkspaceId) (root w : WorkspaceId) (n : WorkspaceNode) : WorkspaceNode :=
  { n with
    parent := if w ∈ M then some root else n.parent
    children := n.children.filter (· ∉ M) ++ if w = root then M else [] }

variable {t : WorkspaceTree}

theorem get_reparent (hwf : t.WellFormed) {c : WorkspaceId} {cn : WorkspaceNode}
    (hc : t.nodes.get c = some cn) (hcr : c ≠ t.root) (w : WorkspaceId) :
    (t.reparent c t.root).nodes.get w = (t.nodes.get w).map (relocate [c] t.root w) := by
  obtain ⟨p, hp⟩ := hwf.exists_parent hc hcr
  have hmem : ∀ x n, t.nodes.get x = some n → (c ∈ n.children ↔ x = p) := by
    intro x n hn
    have h := hwf.mem_children x c
    rw [children_of_get hn, hp] at h
    exact h.trans ⟨fun e => (Option.some.inj e).symm, fun e => by rw [e]⟩
  unfold reparent
  simp only [hp, Table.get_modify]
  cases hw : t.nodes.get w with
  | none => simp
  | some n =>
    have hnp := hmem w n hw
    have hfilter : w ≠ p → n.children.filter (fun x => !decide (x = c)) = n.children := by
      intro hwp
      rw [filter_eq_self]
      intro x hx
      have hxc : x ≠ c := fun e => hwp (hnp.mp (e ▸ hx))
      simp [hxc]
    by_cases hwp : w = p
    · -- the old parent is not the moved node, or there would be a loop
      have hpc : p ≠ c := by
        intro e
        refine hwf.acyclic c (TransGen.single ?_)
        rw [Up, hp, e]
      by_cases hwr : w = t.root
      · simp [hwr, ← hwp, Ne.symm hcr, relocate, dropChild, addChild]
      · have hpr : p ≠ t.root := fun e => hwr (hwp.trans e)
        simp [hwp, hpc, hpr, relocate, dropChild]
    · have hf := hfilter hwp
      by_cases hwr : w = t.root
      · have hcn : c ∉ n.children := fun h => hwp (hnp.mp h)
        have hrp : t.root ≠ p := fun e => hwp (hwr.trans e)
        simp [hwr, hrp, Ne.symm hcr, relocate, addChild, hcn, hf]
      · by_cases hwc : w = c
        · have hcp : c ≠ p := fun e => hwp (hwc.trans e)
          simp [hwc, hcp, hcr, relocate, hf]
        · simp [hwr, hwc, hwp, relocate, hf]

theorem WellFormed.of_map (hwf : t.WellFormed) {t' : WorkspaceTree}
    {f : WorkspaceId → WorkspaceNode → WorkspaceNode}
    (hget : ∀ w, t'.nodes.get w = (t.nodes.get w).map (f w))
    (hkeep : ∀ w n, (f w n).id = n.id ∧ (f w n).owner = n.owner ∧ (f w n).originator = n.originator)
    (hroot : t'.root = t.root) (hown : t'.ownerIndex = t.ownerIndex)
    (horig : t'.originatorIndex = t.originatorIndex)
    (hnone : t'.parentOf t.root = none)
    (hmem : ∀ x c, c ∈ t'.children x ↔ t'.parentOf c = some x)
    (hnodup : ∀ x, (t'.children x).Nodup)
    (hrooted : ∀ w n, t.nodes.get w = some n → ReflTransGen (Up t'.parentOf) w t.root) :
    t'.WellFormed := by
  have hback : ∀ w n', t'.nodes.get w = some n' → ∃ n, t.nodes.get w = some n ∧ n' = f w n := by
    intro w n' hn'
    rw [hget w] at hn'
    obtain ⟨n, hn, e⟩ := map_eq_some_iff.mp hn'
    exact ⟨n, hn, e.symm⟩
  have howner : ∀ w, t'.ownerOf w = t.ownerOf w := by
    intro w
    unfold ownerOf
    rw [hget w]
    cases t.nodes.get w with
    | none => rfl
    | some n => simp [(hkeep w n).2.1]
  have horiginator : ∀ w, t'.originatorOf w = t.originatorOf w := by
    intro w
    unfold originatorOf
    rw [hget w]
    cases t.nodes.get w with
    | none => rfl
    | some n => simp [(hkeep w n).2.2]
  refine ⟨?_, ?_, hmem, hnodup, ?_, ?_, ?_⟩
  · intro w n' hn'
    obtain ⟨n, hn, rfl⟩ := hback w n' hn'
    rw [(hkeep w n).1]
    exact hwf.key w n hn
  · obtain ⟨n, hn, -⟩ := hwf.root_node
    have hn' : t'.nodes.get t'.root = some (f t.root n) := by rw [hroot, hget, hn]; rfl
    refine ⟨_, hn', ?_⟩
    rw [hroot] at hn'
    rw [← parentOf_of_get hn']
    exact hnone
  · intro w n' hn'
    obtain ⟨n, hn, -⟩ := hback w n' hn'
    rw [hroot]
    exact hrooted w n hn
  · rw [hown, funext howner]
    exact hwf.owners
  · rw [horig, funext horiginator]
    exact hwf.originators

/-! ## Status updates -/

section

variable (t : WorkspaceTree) (id : WorkspaceId) (s : WorkspaceState)

theorem get_updateStatus (w : WorkspaceId) : (t.updateStatus id s).nodes.get w =
      (t.nodes.get w).map fun n => { n with status := if w = id then s else n.status } := by
  unfold updateStatus
  rw [Table.get_modify]
  by_cases hw : w = id
  · simp [hw]
  · cases t.nodes.get w <;> simp [hw]

@[simp] theorem parentOf_updateStatus : (t.updateStatus id s).parentOf = t.parentOf := by
  funext w
  unfold parentOf
  rw [get_updateStatus]
  cases t.nodes.get w <;> rfl

@[simp] theorem children_updateStatus : (t.updateStatus id s).children = t.children := by
  funext w
  unfold children
  rw [get_updateStatus]
  cases t.nodes.get w <;> rfl

@[simp] theorem ownerOf_updateStatus : (t.updateStatus id s).ownerOf = t.ownerOf := by
  funext w
  unfold ownerOf
  rw [get_updateStatus]
  cases t.nodes.get w <;> rfl

end

theorem statusOf_updateStatus_of_ne {id w : WorkspaceId} {status : WorkspaceState} (h : w ≠ id) :
    (t.updateStatus id status).statusOf w = t.statusOf w := by
  unfold statusOf
  rw [get_updateStatus]
  cases t.nodes.get w <;> simp [h]

theorem WellFormed.updateStatus (hwf : t.WellFormed) (id : WorkspaceId) (s : WorkspaceState) :
    (t.updateStatus id s).WellFormed := by
  refine hwf.of_map (get_updateStatus t id s) (fun w n => ⟨rfl, rfl, rfl⟩) rfl rfl rfl ?_ ?_ ?_ ?_
  · rw [parentOf_updateStatus]
    exact hwf.parentOf_root
  · rw [parentOf_updateStatus, children_updateStatus]
    exact hwf.mem_children
  · rw [children_updateStatus]
    exact hwf.nodup
  · rw [parentOf_updateStatus]
    exact hwf.rooted

/-! ## Moving one node under the root -/

section Reparent

variable {c : WorkspaceId} {cn : WorkspaceNode}

variable (hwf : t.WellFormed) (hc : t.nodes.get c = some cn) (hcr : c ≠ t.root)
include hwf hc hcr

theorem parentOf_reparent : (t.reparent c t.root).parentOf = reroot t.parentOf c t.root := by
  funext w
  unfold parentOf reroot
  rw [get_reparent hwf hc hcr]
  by_cases hw : w = c
  · subst hw
    simp [hc, relocate]
  · cases hn : t.nodes.get w <;> simp [relocate, hw, hn]

theorem children_reparent : (t.reparent c t.root).children = relist t.children c t.root := by
  obtain ⟨rn, hrn, -⟩ := hwf.root_node
  funext w
  unfold children relist
  rw [get_reparent hwf hc hcr]
  cases hw : t.nodes.get w with
  | none =>
    have hwr : w ≠ t.root := by
      intro e
      rw [e, hrn] at hw
      cases hw
    simp [hw, hwr]
  | some => simp [hw, relocate]

theorem ownerOf_reparent : (t.reparent c t.root).ownerOf = t.ownerOf := by
  funext w
  unfold ownerOf
  rw [get_reparent hwf hc hcr]
  cases t.nodes.get w <;> rfl

theorem WellFormed.reparent : (t.reparent c t.root).WellFormed := by
  have hpar := parentOf_reparent hwf hc hcr
  have hch := children_reparent hwf hc hcr
  refine hwf.of_map (get_reparent hwf hc hcr) (fun w n => ⟨rfl, rfl, rfl⟩) rfl rfl rfl ?_ ?_ ?_ ?_
  · rw [hpar, reroot, if_neg (Ne.symm hcr)]
    exact hwf.parentOf_root
  · rw [hpar, hch]
    exact mem_relist hwf.mem_children
  · rw [hch]
    exact nodup_relist hwf.nodup
  · intro w n hn
    rw [hpar]
    exact reaches_reroot (hwf.rooted w n hn)

end Reparent

/-! ## The cascade in closed form -/

def foreign (t : WorkspaceTree) (o : UserId) (ds : List WorkspaceId) : List WorkspaceId :=
  ds.filter fun d => t.ownerOf d ≠ some o

/-- A node after the cascade of owner `o` over `ds`: failed if among them and of `o`, moved if of
another. -/
def cascaded (t : WorkspaceTree) (o : UserId) (ds : List WorkspaceId) (w : WorkspaceId)
    (n : WorkspaceNode) : WorkspaceNode :=
  relocate (t.foreign o ds) t.root w
    { n with status := if w ∈ ds ∧ n.owner = o then .failed else n.status }

theorem relocate_relocate {c : WorkspaceId} {M : List WorkspaceId} (hc : c ∉ M)
    (root w : WorkspaceId) (n : WorkspaceNode) :
    relocate M root w (relocate [c] root w n) = relocate (c :: M) root w n := by
  have hkeep : [c].filter (fun x => decide (x ∉ M)) = [c] := by simp [hc]
  have hchildren : ((n.children.filter fun x => decide (x ∉ [c])).filter
      fun x => decide (x ∉ M)) = n.children.filter fun x => decide (x ∉ c :: M) := by
    rw [List.filter_filter]
    apply filter_congr
    intro x _
    simp only [mem_cons, not_mem_nil, or_false, not_or, Bool.decide_and]
    rw [Bool.and_comm]
  have hlist : (relocate M root w (relocate [c] root w n)).children =
      (relocate (c :: M) root w n).children := by
    simp only [relocate, filter_append, hchildren, append_assoc]
    by_cases hw : w = root
    · simp only [hw, if_true, hkeep]
      rfl
    · simp [hw]
  have hparent : (relocate M root w (relocate [c] root w n)).parent =
      (relocate (c :: M) root w n).parent := by
    by_cases hM : w ∈ M
    · simp [relocate, hM]
    · by_cases hw : w = c <;> simp [relocate, hM, hw]
  unfold relocate at hlist hparent ⊢
  simp only [WorkspaceNode.mk.injEq, true_and, and_true]
  exact ⟨hparent, hlist⟩

section Loop

variable {o : UserId} {c : WorkspaceId} {cn : WorkspaceNode} {ds : List WorkspaceId}

theorem foreign_cons_own (hcn : t.nodes.get c = some cn) (how : cn.owner = o) :
    t.foreign o (c :: ds) = t.foreign o ds := by
  simp [foreign, ownerOf, hcn, how]

theorem foreign_cons_foreign (hcn : t.nodes.get c = some cn) (how : cn.owner ≠ o) :
    t.foreign o (c :: ds) = c :: t.foreign o ds := by
  simp [foreign, ownerOf, hcn, how]

theorem foreign_updateStatus (c : WorkspaceId) (s : WorkspaceState) :
    (t.updateStatus c s).foreign o ds = t.foreign o ds := by
  simp [foreign]

theorem foreign_reparent (hwf : t.WellFormed) (hcn : t.nodes.get c = some cn)
    (hcr : c ≠ t.root) : (t.reparent c t.root).foreign o ds = t.foreign o ds := by
  simp [foreign, ownerOf_reparent hwf hcn hcr]

theorem map_cascaded_own (hcn : t.nodes.get c = some cn) (how : cn.owner = o) (w : WorkspaceId) :
    ((t.updateStatus c .failed).nodes.get w).map ((t.updateStatus c .failed).cascaded o ds w) =
      (t.nodes.get w).map (t.cascaded o (c :: ds) w) := by
  rw [get_updateStatus]
  cases hw : t.nodes.get w with
  | none => rfl
  | some n =>
    simp only [map_some, Option.some.injEq, cascaded, foreign_cons_own hcn how,
      foreign_updateStatus]
    have hst : (if w ∈ ds ∧ n.owner = o then WorkspaceState.failed
        else if w = c then .failed else n.status) =
        if w ∈ c :: ds ∧ n.owner = o then .failed else n.status := by
      by_cases hwc : w = c
      · have hn : n = cn := by
          rw [hwc, hcn] at hw
          exact (Option.some.inj hw).symm
        simp [hwc, hn, how]
      · simp [hwc]
    rw [hst]
    rfl

theorem map_cascaded_foreign (hwf : t.WellFormed) (hcn : t.nodes.get c = some cn)
    (hcr : c ≠ t.root) (how : cn.owner ≠ o) (hcds : c ∉ ds) (w : WorkspaceId) :
    ((t.reparent c t.root).nodes.get w).map ((t.reparent c t.root).cascaded o ds w) =
      (t.nodes.get w).map (t.cascaded o (c :: ds) w) := by
  have hcM : c ∉ t.foreign o ds := fun h => hcds (mem_of_mem_filter h)
  rw [get_reparent hwf hcn hcr]
  cases hw : t.nodes.get w with
  | none => rfl
  | some n =>
    simp only [map_some, Option.some.injEq, cascaded, foreign_cons_foreign hcn how,
      foreign_reparent hwf hcn hcr]
    have hst : (if w ∈ ds ∧ n.owner = o then WorkspaceState.failed else n.status) =
        if w ∈ c :: ds ∧ n.owner = o then .failed else n.status := by
      by_cases hwc : w = c
      · have hn : n = cn := by
          rw [hwc, hcn] at hw
          exact (Option.some.inj hw).symm
        simp [hn, how]
      · simp [hwc]
    rw [← relocate_relocate hcM, ← hst]
    rfl

end Loop

/-- **The cascade loop** over distinct nodes other than the root makes every node `cascaded`. -/
theorem cascadeLoop_spec {o : UserId} (ds : List WorkspaceId) (hds : ds.Nodup)
    {t : WorkspaceTree} (hwf : t.WellFormed)
    (hnode : ∀ d ∈ ds, (∃ n, t.nodes.get d = some n) ∧ d ≠ t.root) (acc : List WorkspaceId) :
    (ds.foldl (cascadeStep o) (t, acc)).1.WellFormed ∧
      (ds.foldl (cascadeStep o) (t, acc)).1.root = t.root ∧
      (ds.foldl (cascadeStep o) (t, acc)).2 = acc ++ t.foreign o ds ∧
      ∀ w, (ds.foldl (cascadeStep o) (t, acc)).1.nodes.get w =
        (t.nodes.get w).map (t.cascaded o ds w) := by
  induction ds generalizing t acc with
  | nil =>
    refine ⟨hwf, rfl, by simp [foreign], fun w => ?_⟩
    cases hw : t.nodes.get w with
    | none => simp [hw]
    | some => simp [hw, cascaded, relocate, foreign]
  | cons c ds ih =>
    obtain ⟨⟨cn, hcn⟩, hcr⟩ := hnode c (by simp)
    obtain ⟨hcds, hds'⟩ := nodup_cons.mp hds
    rw [foldl_cons]
    by_cases how : cn.owner = o
    · have hstep : cascadeStep o (t, acc) c = (t.updateStatus c .failed, acc) := by
        simp [cascadeStep, hcn, how]
      have hnode' : ∀ d ∈ ds, (∃ n, (t.updateStatus c .failed).nodes.get d = some n) ∧
          d ≠ (t.updateStatus c .failed).root := by
        intro d hd
        obtain ⟨⟨n, hn⟩, hdr⟩ := hnode d (mem_cons_of_mem c hd)
        exact ⟨⟨_, by rw [get_updateStatus, hn]; rfl⟩, hdr⟩
      obtain ⟨hwf', hroot', hlist', hget'⟩ := ih hds' (hwf.updateStatus c .failed) hnode' acc
      rw [foreign_updateStatus] at hlist'
      rw [hstep, foreign_cons_own hcn how]
      refine ⟨hwf', hroot', hlist', fun w => ?_⟩
      rw [hget', map_cascaded_own hcn how]
    · have hstep : cascadeStep o (t, acc) c = (t.reparent c t.root, acc ++ [c]) := by
        simp [cascadeStep, hcn, how]
      have hnode' : ∀ d ∈ ds, (∃ n, (t.reparent c t.root).nodes.get d = some n) ∧
          d ≠ (t.reparent c t.root).root := by
        intro d hd
        obtain ⟨⟨n, hn⟩, hdr⟩ := hnode d (mem_cons_of_mem c hd)
        exact ⟨⟨_, by rw [get_reparent hwf hcn hcr, hn]; rfl⟩, hdr⟩
      obtain ⟨hwf', hroot', hlist', hget'⟩ :=
        ih hds' (hwf.reparent hcn hcr) hnode' (acc ++ [c])
      rw [foreign_reparent hwf hcn hcr, append_assoc] at hlist'
      rw [hstep, foreign_cons_foreign hcn how]
      refine ⟨hwf', hroot', hlist', fun w => ?_⟩
      rw [hget', map_cascaded_foreign hwf hcn hcr how hcds]

/-- **`cascade_failure` in closed form.** It returns the foreign descendants; the node fails and
every other one is `cascaded`. -/
theorem cascadeFailure_spec (hwf : t.WellFormed) {id : WorkspaceId} {node : WorkspaceNode}
    (hid : t.nodes.get id = some node) : ∃ ds t', t.descendants id = some ds ∧ ds.Nodup ∧
      (∀ d, d ∈ ds ↔ Below t.parentOf d id) ∧
      t.cascadeFailure id = some (t', t.foreign node.owner ds) ∧
      t'.WellFormed ∧ t'.root = t.root ∧
      ∀ w, t'.nodes.get w = (t.nodes.get w).map fun n =>
        t.cascaded node.owner ds w { n with status := if w = id then .failed else n.status } := by
  have hwf₁ := hwf.updateStatus id .failed
  obtain ⟨ds, hds, hnd, hmem⟩ := hwf₁.descendants_eq_some id
  rw [parentOf_updateStatus] at hmem
  have hsame : t.descendants id = (t.updateStatus id .failed).descendants id := by
    have hcard : t.nodes.keys = (t.updateStatus id .failed).nodes.keys := by
      ext w
      rw [Table.mem_keys, Table.mem_keys, get_updateStatus]
      cases t.nodes.get w <;> simp
    unfold descendants
    rw [descendantsLoop_eq, descendantsLoop_eq, children_updateStatus, hcard]
  have hnode : ∀ d ∈ ds, (∃ n, (t.updateStatus id .failed).nodes.get d = some n) ∧
      d ≠ (t.updateStatus id .failed).root := by
    intro d hd
    have hbelow := (hmem d).mp hd
    refine ⟨?_, fun e => hwf.not_below_root id (e ▸ hbelow)⟩
    obtain ⟨b, hb, -⟩ := TransGen.head'_iff.mp hbelow
    obtain ⟨n, hn, -⟩ := get_of_parentOf hb
    exact ⟨_, by rw [get_updateStatus, hn]; rfl⟩
  obtain ⟨hwf', hroot', hlist', hget'⟩ := cascadeLoop_spec ds hnd hwf₁ hnode []
  have hforeign : (t.updateStatus id .failed).foreign node.owner ds = t.foreign node.owner ds := by
    simp [foreign]
  refine ⟨ds, _, hsame.trans hds, hnd, hmem, ?_, hwf', hroot', fun w => ?_⟩
  · rw [nil_append, hforeign] at hlist'
    simp only [cascadeFailure, hid, hds]
    rw [← hlist']
  · rw [hget', get_updateStatus, Option.map_map]
    congr 1
    funext n
    simp only [Function.comp, cascaded, hforeign]
    rfl

/-- What a cascade from `id` marks Failed: `id` and all descendants of its owner. -/
def Hit (t : WorkspaceTree) (id w : WorkspaceId) : Prop :=
  w = id ∨ Below t.parentOf w id ∧ t.ownerOf w = t.ownerOf id

structure CascadeResult (t t' : WorkspaceTree) (id : WorkspaceId) (moved : List WorkspaceId) :
    Prop where
  wellFormed : t'.WellFormed
  root : t'.root = t.root
  status_hit : ∀ w, t.Hit id w → t'.statusOf w = some .failed
  status_kept : ∀ w, ¬ t.Hit id w → t'.statusOf w = t.statusOf w
  mem_moved : ∀ c, c ∈ moved ↔ Below t.parentOf c id ∧ t.ownerOf c ≠ t.ownerOf id
  nodup : moved.Nodup
  parent : ∀ w, t'.parentOf w = if w ∈ moved then some t.root else t.parentOf w
  children : ∀ x, t'.children x =
    (t.children x).filter (· ∉ moved) ++ if x = t.root then moved else []
  owner : ∀ w, t'.ownerOf w = t.ownerOf w
  task : ∀ w, (t'.nodes.get w).map (·.taskId) = (t.nodes.get w).map (·.taskId)

theorem cascadeFailure_result (hwf : t.WellFormed) {id : WorkspaceId} {node : WorkspaceNode}
    (hid : t.nodes.get id = some node) :
    ∃ t' moved, t.cascadeFailure id = some (t', moved) ∧ t.CascadeResult t' id moved := by
  obtain ⟨ds, t', -, hnd, hmem, hc, hwf', hroot, hget⟩ := cascadeFailure_spec hwf hid
  have howner : t.ownerOf id = some node.owner := by simp [ownerOf, hid]
  have hmoved : ∀ c, c ∈ t.foreign node.owner ds ↔
      Below t.parentOf c id ∧ t.ownerOf c ≠ t.ownerOf id := by
    intro c
    simp [foreign, hmem, howner]
  have hnode : ∀ w, Below t.parentOf w id → ∃ n, t.nodes.get w = some n := by
    intro w hw
    obtain ⟨b, hb, -⟩ := TransGen.head'_iff.mp hw
    obtain ⟨n, hn, -⟩ := get_of_parentOf hb
    exact ⟨n, hn⟩
  refine ⟨t', _, hc, hwf', hroot, ?_, ?_, hmoved, hnd.filter _, ?_, ?_, ?_, ?_⟩
  · rintro w (rfl | ⟨hbelow, how⟩)
    · have hself : w ∉ ds := fun h => hwf.acyclic w ((hmem w).mp h)
      simp [statusOf, hget, hid, cascaded, relocate, hself]
    · obtain ⟨n, hn⟩ := hnode w hbelow
      have hno : n.owner = node.owner := by
        rw [howner] at how
        simpa [ownerOf, hn] using how
      simp [statusOf, hget, hn, cascaded, relocate, (hmem w).mpr hbelow, hno]
  · intro w hw
    unfold statusOf
    rw [hget]
    cases hn : t.nodes.get w with
    | none => rfl
    | some n =>
      have hwid : w ≠ id := fun e => hw (.inl e)
      have hnot : ¬ (w ∈ ds ∧ n.owner = node.owner) := by
        rintro ⟨hds, hno⟩
        refine hw (.inr ⟨(hmem w).mp hds, ?_⟩)
        simp [ownerOf, hn, hid, hno]
      simp [cascaded, relocate, hwid, hnot]
  · intro w
    unfold parentOf
    rw [hget]
    cases hn : t.nodes.get w with
    | none =>
      have hnot : w ∉ t.foreign node.owner ds := by
        intro h
        obtain ⟨n, hn'⟩ := hnode w ((hmoved w).mp h).1
        rw [hn] at hn'
        cases hn'
      simp [hnot]
    | some => simp [cascaded, relocate]
  · intro x
    unfold WorkspaceTree.children
    rw [hget]
    cases hn : t.nodes.get x with
    | none =>
      have hxr : x ≠ t.root := by
        obtain ⟨rn, hrn, -⟩ := hwf.root_node
        intro e
        rw [e, hrn] at hn
        cases hn
      simp [hxr]
    | some => simp [cascaded, relocate]
  · intro w
    unfold ownerOf
    rw [hget]
    cases t.nodes.get w <;> rfl
  · intro w
    rw [hget]
    cases t.nodes.get w <;> rfl

theorem cascadeFailure_of_none {id : WorkspaceId} (h : t.nodes.get id = none) :
    t.cascadeFailure id = some (t, []) := by
  simp [cascadeFailure, h]

end Wacp.WorkspaceTree
