import Wacp.Library.Runs
import Wacp.Analysis.CascadeEffect

/-!
# Every reachable workspace tree is well-formed

Each of the five operations keeps `WorkspaceTree.WellFormed`, and `tree_structure_of_run` reads it
back in the terms of the source.
-/

namespace Wacp.WorkspaceTree

open Relation Library Library.Forest List Option Table Function

variable {t : WorkspaceTree}

/-! ## A new tree -/

theorem get_new (rootId : WorkspaceId) (owner : UserId) (w : WorkspaceId) :
    (new rootId owner).nodes.get w = if w = rootId then
      some ⟨rootId, none, [], owner, .system, .active, none⟩ else none := by
  simp [new, get_set]

theorem wellFormed_new (rootId : WorkspaceId) (owner : UserId) : (new rootId owner).WellFormed := by
  have hget := get_new rootId owner
  have hpar : ∀ w, (new rootId owner).parentOf w = none := by
    intro w
    unfold parentOf
    rw [hget]
    split <;> rfl
  have hch : ∀ w, (new rootId owner).children w = [] := by
    intro w
    unfold children
    rw [hget]
    split <;> rfl
  refine ⟨?_, ⟨_, by rw [hget]; exact if_pos rfl, rfl⟩, ?_, ?_, ?_, ?_, ?_⟩
  · intro w n hn
    rw [hget] at hn
    split at hn
    · rename_i hw
      cases hn
      exact hw.symm
    · cases hn
  · intro x c
    rw [hch, hpar]
    simp
  · intro x
    rw [hch]
    exact nodup_nil
  · intro w n hn
    rw [hget] at hn
    split at hn
    · rename_i hw
      rw [hw]
      exact ReflTransGen.refl
    · cases hn
  · have howner : (new rootId owner).ownerOf =
        update (fun _ => none) rootId (some owner) := by
      funext w
      unfold ownerOf
      rw [hget]
      by_cases hw : w = rootId <;> simp [hw]
    rw [howner]
    exact indexes_empty.push rfl
  · have horig : (new rootId owner).originatorOf =
        update (fun _ => none) rootId (some .system) := by
      funext w
      unfold originatorOf
      rw [hget]
      by_cases hw : w = rootId <;> simp [hw]
    rw [horig]
    exact indexes_empty.push rfl

/-! ## Insertion -/

theorem insert_ok {node : WorkspaceNode} {t' : WorkspaceTree} (h : t.insert node = .ok t') :
    ∃ p pn, node.parent = some p ∧ t.nodes.get node.id = none ∧ t.nodes.get p = some pn ∧
      t' = { t with
        nodes := (t.nodes.set node.id node).modify p (addChild node.id)
        originatorIndex := t.originatorIndex.push node.originator node.id
        ownerIndex := t.ownerIndex.push node.owner node.id } := by
  unfold insert at h
  split at h
  · cases h
  · rename_i hfresh
    split at h
    · cases h
    · rename_i p hp
      split at h
      · rename_i hcontains
        obtain ⟨pn, hpn⟩ := contains_iff.mp hcontains
        refine ⟨p, pn, hp, ?_, hpn, (Except.ok.inj h).symm⟩
        exact contains_eq_false_iff.mp (by simpa using hfresh)
      · cases h

theorem insert_root {node : WorkspaceNode} {t' : WorkspaceTree} (h : t.insert node = .ok t') :
    t'.root = t.root := by
  obtain ⟨p, pn, -, -, -, rfl⟩ := insert_ok h
  rfl

theorem insert_isOk {node : WorkspaceNode} {p : WorkspaceId} {pn : WorkspaceNode}
    (hfresh : t.nodes.get node.id = none) (hp : node.parent = some p)
    (hpn : t.nodes.get p = some pn) : ∃ t', t.insert node = .ok t' := by
  have hnode : t.nodes.contains node.id = false := contains_eq_false_iff.mpr hfresh
  have hparent : t.nodes.contains p := contains_iff.mpr ⟨pn, hpn⟩
  unfold insert
  simp only [hnode, hp, hparent]
  exact ⟨_, rfl⟩

theorem get_insert {node : WorkspaceNode} {t' : WorkspaceTree} (h : t.insert node = .ok t')
    (w : WorkspaceId) : t'.nodes.get w = if w = node.id then some node else
      (t.nodes.get w).map fun n => if node.parent = some w then addChild node.id n else n := by
  obtain ⟨p, pn, hp, hfresh, hpn, rfl⟩ := insert_ok h
  have hpid : node.id ≠ p := by
    intro e
    rw [e, hpn] at hfresh
    cases hfresh
  simp only [get_modify, get_set, hp, Option.some.injEq]
  by_cases hw : w = node.id
  · simp [hw, hpid]
  · by_cases hwp : w = p
    · simp [hwp, Ne.symm hpid]
    · have hpw : ¬ p = w := fun e => hwp e.symm
      simp [hw, hwp, hpw]

theorem map_get_insert {node : WorkspaceNode} {t' : WorkspaceTree} (h : t.insert node = .ok t')
    {α : Type} (f : WorkspaceNode → α) (hf : ∀ c n, f (addChild c n) = f n) (w : WorkspaceId) :
    (t'.nodes.get w).map f = if w = node.id then some (f node) else (t.nodes.get w).map f := by
  rw [get_insert h]
  by_cases hw : w = node.id
  · simp [hw]
  · rw [if_neg hw, if_neg hw, Option.map_map]
    cases t.nodes.get w with
    | none => rfl
    | some => by_cases hp : node.parent = some w <;> simp [hp, hf]

section Insert

variable {t' : WorkspaceTree} {node : WorkspaceNode} {p : WorkspaceId} {pn : WorkspaceNode}

theorem parentOf_insert (h : t.insert node = .ok t') (hp : node.parent = some p) :
    t'.parentOf = reroot t.parentOf node.id p := by
  funext w
  unfold parentOf reroot
  rw [get_insert h]
  by_cases hw : w = node.id
  · simp [hw, hp]
  · cases hn : t.nodes.get w with
    | none => simp [hw, hn]
    | some =>
      by_cases hwp : node.parent = some w <;> simp [hw, hn, hwp, addChild]

theorem children_insert (hwf : t.WellFormed) (h : t.insert node = .ok t')
    (hchildless : node.children = []) (hp : node.parent = some p)
    (hfresh : t.nodes.get node.id = none) (hpn : t.nodes.get p = some pn) :
    t'.children = relist t.children node.id p := by
  funext w
  have hkeep : (t.children w).filter (fun x => decide (x ≠ node.id)) = t.children w := by
    rw [filter_eq_self]
    intro x hx
    simp only [ne_eq, decide_eq_true_eq]
    rintro rfl
    rw [hwf.mem_children, parentOf, hfresh] at hx
    cases hx
  have hne : w = node.id → w ≠ p := by
    rintro hw rfl
    rw [← hw, hpn] at hfresh
    cases hfresh
  unfold relist
  rw [hkeep]
  unfold children
  rw [get_insert h, hp]
  by_cases hw : w = node.id
  · have hold : t.nodes.get w = none := hw ▸ hfresh
    rw [if_pos hw, hold, if_neg (hne hw)]
    exact hchildless
  · cases hn : t.nodes.get w with
    | none =>
      have hwp : w ≠ p := by
        rintro rfl
        rw [hpn] at hn
        cases hn
      simp [hw, hwp]
    | some =>
      by_cases hwp : w = p
      · have hpid : ¬ p = node.id := hwp ▸ hw
        simp [hwp, hpid, addChild]
      · have hpw : ¬ p = w := fun e => hwp e.symm
        simp [hw, hwp, hpw]

theorem ownerOf_insert (h : t.insert node = .ok t') :
    t'.ownerOf = update t.ownerOf node.id (some node.owner) := by
  funext w
  have hmap := map_get_insert h (·.owner) (fun _ _ => rfl) w
  by_cases hw : w = node.id <;> simpa [ownerOf, hw] using hmap

theorem originatorOf_insert (h : t.insert node = .ok t') :
    t'.originatorOf = update t.originatorOf node.id (some node.originator) := by
  funext w
  have hmap := map_get_insert h (·.originator) (fun _ _ => rfl) w
  by_cases hw : w = node.id <;> simpa [originatorOf, hw] using hmap

theorem WellFormed.insert (hwf : t.WellFormed) (hchildless : node.children = [])
    (h : t.insert node = .ok t') : t'.WellFormed := by
  obtain ⟨p, pn, hp, hfresh, hpn, ht'⟩ := insert_ok h
  have hget := get_insert h
  have hroot := insert_root h
  have hpar := parentOf_insert h hp
  have hch := children_insert hwf h hchildless hp hfresh hpn
  have hpath : ∀ w n, t.nodes.get w = some n → ReflTransGen (Up t'.parentOf) w t.root := by
    intro w n hn
    rw [hpar]
    exact reaches_reroot_of_none (by simp [parentOf, hfresh]) (hwf.rooted w n hn)
  refine ⟨?_, ?_, ?_, ?_, ?_, ?_, ?_⟩
  · intro w n hn
    rw [hget] at hn
    split at hn
    · rename_i hw
      cases hn
      exact hw.symm
    · obtain ⟨n₀, hn₀, rfl⟩ := map_eq_some_iff.mp hn
      have hkey := hwf.key w n₀ hn₀
      split <;> exact hkey
  · obtain ⟨rn, hrn, hrp⟩ := hwf.root_node
    have hrid : t.root ≠ node.id := by
      intro e
      rw [e, hfresh] at hrn
      cases hrn
    rw [hroot]
    refine ⟨_, by rw [hget, if_neg hrid, hrn]; rfl, ?_⟩
    split <;> exact hrp
  · rw [hpar, hch]
    exact mem_relist hwf.mem_children
  · rw [hch]
    exact nodup_relist hwf.nodup
  · intro w n hn
    rw [hroot]
    by_cases hw : w = node.id
    · have hup : Up t'.parentOf w p := by
        rw [Up, hpar, reroot, if_pos hw]
      exact ReflTransGen.head hup (hpath p pn hpn)
    · rw [hget, if_neg hw] at hn
      obtain ⟨n₀, hn₀, -⟩ := map_eq_some_iff.mp hn
      exact hpath w n₀ hn₀
  · rw [ownerOf_insert h, ht']
    exact hwf.owners.push (by simp [ownerOf, hfresh])
  · rw [originatorOf_insert h, ht']
    exact hwf.originators.push (by simp [originatorOf, hfresh])

end Insert

/-! ## Ownership transfer -/

variable {newOwner oldOwner : UserId}

theorem transferOwner_ok {id : WorkspaceId} {t' : WorkspaceTree}
    (h : t.transferOwner id newOwner = .ok (t', oldOwner)) :
    ∃ n, t.nodes.get id = some n ∧ n.owner = oldOwner ∧ oldOwner ≠ newOwner ∧
      t' = { t with
        nodes := t.nodes.modify id (fun n => { n with owner := newOwner })
        ownerIndex :=
          (t.ownerIndex.modify oldOwner (fun entries => entries.filter (· ≠ id))).push
            newOwner id } := by
  unfold transferOwner at h
  split at h
  · cases h
  · rename_i n hn
    split at h
    · cases h
    · rename_i hne
      cases h
      exact ⟨n, hn, rfl, hne, rfl⟩

theorem WellFormed.transferOwner (hwf : t.WellFormed) {id : WorkspaceId} {t' : WorkspaceTree}
    (h : t.transferOwner id newOwner = .ok (t', oldOwner)) : t'.WellFormed := by
  obtain ⟨n, hn, hown, hne, ht'⟩ := transferOwner_ok h
  have hget : ∀ w, t'.nodes.get w = (t.nodes.get w).map fun n =>
      { n with owner := if w = id then newOwner else n.owner } := by
    intro w
    rw [ht', get_modify]
    by_cases hw : w = id
    · simp [hw]
    · cases t.nodes.get w <;> simp [hw]
  have hroot : t'.root = t.root := by rw [ht']
  have hpar : t'.parentOf = t.parentOf := by
    funext w
    unfold parentOf
    rw [hget]
    cases t.nodes.get w <;> rfl
  have hch : t'.children = t.children := by
    funext w
    unfold children
    rw [hget]
    cases t.nodes.get w <;> rfl
  have hback : ∀ w n', t'.nodes.get w = some n' → ∃ n, t.nodes.get w = some n ∧
      n' = { n with owner := if w = id then newOwner else n.owner } := by
    intro w n' hn'
    rw [hget w] at hn'
    obtain ⟨n, hn, e⟩ := map_eq_some_iff.mp hn'
    exact ⟨n, hn, e.symm⟩
  refine ⟨?_, ?_, ?_, ?_, ?_, ?_, ?_⟩
  · intro w n' hn'
    obtain ⟨n₀, hn₀, rfl⟩ := hback w n' hn'
    exact hwf.key w n₀ hn₀
  · obtain ⟨rn, hrn, hrp⟩ := hwf.root_node
    rw [hroot]
    exact ⟨{ rn with owner := if t.root = id then newOwner else rn.owner },
      by rw [hget, hrn]; rfl, hrp⟩
  · rw [hpar, hch]
    exact hwf.mem_children
  · rw [hch]
    exact hwf.nodup
  · intro w n' hn'
    obtain ⟨n₀, hn₀, -⟩ := hback w n' hn'
    rw [hpar, hroot]
    exact hwf.rooted w n₀ hn₀
  · have howner : t'.ownerOf = update t.ownerOf id (some newOwner) := by
      funext w
      by_cases hw : w = id
      · simp [ownerOf, hget, hw, hn]
      · rw [update_of_ne hw]
        unfold ownerOf
        rw [hget]
        cases t.nodes.get w <;> simp [hw]
    rw [howner, ht']
    exact hwf.owners.move (by simp [ownerOf, hn, hown])
  · have horig : t'.originatorOf = t.originatorOf := by
      funext w
      unfold originatorOf
      rw [hget]
      cases t.nodes.get w <;> rfl
    rw [horig, ht']
    exact hwf.originators

/-! ## Runs -/

inductive Op where
  | insert (node : WorkspaceNode)
  | transferOwner (id : WorkspaceId) (newOwner : UserId)
  | updateStatus (id : WorkspaceId) (status : WorkspaceState)
  | cascadeFailure (id : WorkspaceId)

/-- A failed operation changes nothing; `none` is a cascade that does not return. -/
def apply (t : WorkspaceTree) : Op → Option WorkspaceTree
  | .insert node =>
    match t.insert node with
    | .ok t' => some t'
    | .error _ => some t
  | .transferOwner id newOwner =>
    match t.transferOwner id newOwner with
    | .ok (t', _) => some t'
    | .error _ => some t
  | .updateStatus id status => some (t.updateStatus id status)
  | .cascadeFailure id => (t.cascadeFailure id).map Prod.fst

def Step (t : WorkspaceTree) (op : Op) (t' : WorkspaceTree) : Prop := t.apply op = some t'

/-- Nodes are inserted without children, as the callers build them. -/
def Childless (_ : WorkspaceTree) : Op → Prop
  | .insert node => node.children = []
  | _ => True

theorem WellFormed.cascadeFailure (hwf : t.WellFormed) (id : WorkspaceId) :
    ∃ t' moved, t.cascadeFailure id = some (t', moved) ∧ t'.WellFormed := by
  cases hid : t.nodes.get id with
  | none => exact ⟨t, [], cascadeFailure_of_none hid, hwf⟩
  | some =>
    obtain ⟨ds, t', -, -, -, hc, hwf', -⟩ := cascadeFailure_spec hwf hid
    exact ⟨t', _, hc, hwf'⟩

theorem wellFormed_step {op : Op} {t' : WorkspaceTree} (hwf : t.WellFormed)
    (hop : Childless t op) (h : Step t op t') : t'.WellFormed := by
  unfold Step at h
  cases op with
  | insert node =>
    simp only [apply] at h
    split at h
    · rename_i t₁ hins
      cases h
      exact hwf.insert hop hins
    · cases h
      exact hwf
  | transferOwner id newOwner =>
    simp only [apply] at h
    split at h
    · rename_i t₁ old htr
      cases h
      exact hwf.transferOwner htr
    · cases h
      exact hwf
  | updateStatus id status =>
    cases h
    exact hwf.updateStatus id status
  | cascadeFailure id =>
    obtain ⟨t₁, moved, hc, hwf₁⟩ := hwf.cascadeFailure id
    simp only [apply, hc, map_some, Option.some.injEq] at h
    exact h ▸ hwf₁

theorem wellFormed_run {rootId : WorkspaceId} {owner : UserId}
    (h : Run Step Childless (new rootId owner) t) : t.WellFormed :=
  h.invariant WellFormed wellFormed_step (wellFormed_new rootId owner)

/-- **The structure of every reachable tree**, from insertions of childless nodes, transfers, status
updates and cascades, whatever the fuel. -/
theorem tree_structure_of_run {rootId : WorkspaceId} {owner : UserId}
    (h : Run Step Childless (new rootId owner) t) :
    (∃ n, t.get t.root = some n ∧ n.parent = none) ∧ (∀ w n, t.get w = some n → w ≠ t.root →
      ∃ p pn, n.parent = some p ∧ t.get p = some pn ∧ pn.children.count w = 1) ∧
    (∀ p pn c, t.get p = some pn → c ∈ pn.children → ∃ n, t.get c = some n ∧ n.parent = some p) ∧
    (∀ w n, t.get w = some n →
      ∃ chain, t.parentChain w = some chain ∧ (w :: chain).getLast? = some t.root) ∧
    (∀ a, ∃ ds, t.descendants a = some ds ∧ ds.Nodup ∧
      ∀ w, w ∈ ds ↔ ∃ chain, t.parentChain w = some chain ∧ a ∈ chain) ∧
    (∀ o w, (t.byOwner o).count w = if (t.get w).map (·.owner) = some o then 1 else 0) ∧
    (∀ o w, (t.byOriginator o).count w = if (t.get w).map (·.originator) = some o then 1 else 0) ∧
    (∀ w fuel, t.nodes.keys.card < fuel →
      t.parentChainLoop fuel w [] = t.parentChain w ∧
      t.descendantsLoop fuel [w] [] = t.descendants w) ∧
    (∀ id, ∃ r, t.cascadeFailure id = some r) := by
  have hwf := wellFormed_run h
  refine ⟨hwf.root_node, ?_, ?_, ?_, ?_, hwf.owners, hwf.originators, ?_, ?_⟩
  · intro w n hn hw
    obtain ⟨p, hp⟩ := hwf.exists_parent hn hw
    obtain ⟨pn, hpn, hmem⟩ := hwf.get_parent hp
    refine ⟨p, pn, (parentOf_of_get hn).symm.trans hp, hpn, ?_⟩
    have hnd := hwf.nodup p
    rw [children_of_get hpn] at hnd
    exact count_eq_one_of_mem hnd hmem
  · intro p pn c hpn hc
    have hup : t.parentOf c = some p := by
      rw [← hwf.mem_children, children_of_get hpn]
      exact hc
    exact get_of_parentOf hup
  · intro w n hn
    obtain ⟨chain, hchain, hlast, -⟩ := hwf.parentChain_eq_some hn
    exact ⟨chain, hchain, hlast⟩
  · intro a
    obtain ⟨ds, hds, hnd, hmem⟩ := hwf.descendants_eq_some a
    refine ⟨ds, hds, hnd, fun w => ?_⟩
    rw [hmem]
    cases hw : t.nodes.get w with
    | none =>
      have hpar : t.parentOf w = none := by simp [parentOf, hw]
      rw [WellFormed.parentChain_of_none hw]
      simp [not_below_of_none hpar]
    | some =>
      obtain ⟨chain, hchain, -, hanc⟩ := hwf.parentChain_eq_some hw
      rw [hchain, ← hanc]
      simp
  · intro w fuel hfuel
    refine ⟨?_, hwf.descendantsLoop_stable w hfuel⟩
    cases hw : t.nodes.get w with
    | none =>
      obtain ⟨k, rfl⟩ : ∃ k, fuel = k + 1 := ⟨fuel - 1, by omega⟩
      rw [WellFormed.parentChain_of_none hw]
      simp [parentChainLoop, hw]
    | some => exact hwf.parentChainLoop_stable hw hfuel
  · intro id
    obtain ⟨t', moved, hc, -⟩ := hwf.cascadeFailure id
    exact ⟨_, hc⟩

def sampleChild : WorkspaceNode :=
  { id := ⟨"ws-1"⟩, parent := some ⟨"ws-root"⟩, children := [], owner := ⟨"alice"⟩,
    originator := .system, status := .idle, taskId := none }

theorem tree_structure_of_sample_run : ∃ t, Run Step Childless (new ⟨"ws-root"⟩ ⟨"system"⟩) t ∧
      (t.get ⟨"ws-1"⟩).isSome ∧ ∀ id, ∃ r, t.cascadeFailure id = some r := by
  have hrun : ∃ t, Run Step Childless (new ⟨"ws-root"⟩ ⟨"system"⟩) t ∧
      (t.get ⟨"ws-1"⟩).isSome := by
    refine ⟨_, Run.tail (.cascadeFailure ⟨"ws-root"⟩)
      (Run.tail (.insert sampleChild) (Run.refl _) rfl (by rfl)) trivial (by rfl), ?_⟩
    decide
  obtain ⟨t, ht, hsome⟩ := hrun
  exact ⟨t, ht, hsome, (tree_structure_of_run ht).2.2.2.2.2.2.2.2⟩

end Wacp.WorkspaceTree
