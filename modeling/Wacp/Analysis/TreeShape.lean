import Wacp.Model.Tree

/-!
# The shape of a workspace tree

`WorkspaceTree.WellFormed`: parent pointers and child lists are one forest, every node reaches the
root, and each index counts each node once. Both traversals instantiate the walks of
`Library/Forest.lean`.
-/

namespace Wacp.WorkspaceTree

open Relation Library Library.Forest

def ownerOf (t : WorkspaceTree) (w : WorkspaceId) : Option UserId :=
  (t.nodes.get w).map (·.owner)

def originatorOf (t : WorkspaceTree) (w : WorkspaceId) : Option Originator :=
  (t.nodes.get w).map (·.originator)

def statusOf (t : WorkspaceTree) (w : WorkspaceId) : Option WorkspaceState :=
  (t.nodes.get w).map (·.status)

def Live (t : WorkspaceTree) (w : WorkspaceId) : Prop :=
  ∃ s, t.statusOf w = some s ∧ s.isTerminal = false

structure WellFormed (t : WorkspaceTree) : Prop where
  key : ∀ w n, t.nodes.get w = some n → n.id = w
  root_node : ∃ n, t.nodes.get t.root = some n ∧ n.parent = none
  mem_children : ∀ x c, c ∈ t.children x ↔ t.parentOf c = some x
  nodup : ∀ x, (t.children x).Nodup
  rooted : ∀ w n, t.nodes.get w = some n → ReflTransGen (Up t.parentOf) w t.root
  owners : t.ownerIndex.Indexes t.ownerOf
  originators : t.originatorIndex.Indexes t.originatorOf

variable {t : WorkspaceTree} {w : WorkspaceId} {n : WorkspaceNode}

theorem parentOf_of_get (h : t.nodes.get w = some n) : t.parentOf w = n.parent := by
  simp [parentOf, h]

theorem children_of_get (h : t.nodes.get w = some n) : t.children w = n.children := by
  simp [children, h]

theorem get_of_parentOf {p : WorkspaceId} (h : t.parentOf w = some p) :
    ∃ n, t.nodes.get w = some n ∧ n.parent = some p := by
  unfold parentOf at h
  cases hw : t.nodes.get w with
  | none => simp [hw] at h
  | some n => exact ⟨n, rfl, by simpa [hw] using h⟩

theorem get_of_mem_children {p c : WorkspaceId} (h : c ∈ t.children p) :
    ∃ n, t.nodes.get p = some n ∧ c ∈ n.children := by
  unfold children at h
  cases hp : t.nodes.get p with
  | none => simp [hp] at h
  | some n => exact ⟨n, rfl, by simpa [hp] using h⟩

theorem Live.ne_closed (h : t.Live w) : t.statusOf w ≠ some .closed := by
  obtain ⟨s, hs, hterm⟩ := h
  rw [hs]
  rintro ⟨⟩
  cases hterm

theorem Live.ne_failed (h : t.Live w) : t.statusOf w ≠ some .failed := by
  obtain ⟨s, hs, hterm⟩ := h
  rw [hs]
  rintro ⟨⟩
  cases hterm

theorem live_of_ne (hn : t.nodes.get w = some n) (hc : t.statusOf w ≠ some .closed)
    (hf : t.statusOf w ≠ some .failed) : t.Live w := by
  have hs : t.statusOf w = some n.status := by simp [statusOf, hn]
  refine ⟨n.status, hs, ?_⟩
  rw [hs] at hc hf
  cases h : n.status <;> simp_all [WorkspaceState.isTerminal]

theorem get_of_below {d a : WorkspaceId} (h : Below t.parentOf d a) :
    ∃ n, t.nodes.get d = some n := by
  obtain ⟨b, hb, -⟩ := TransGen.head'_iff.mp h
  obtain ⟨n, hn, -⟩ := get_of_parentOf hb
  exact ⟨n, hn⟩

namespace WellFormed

theorem parentOf_root (hwf : t.WellFormed) : t.parentOf t.root = none := by
  obtain ⟨n, hn, hp⟩ := hwf.root_node
  rw [parentOf_of_get hn, hp]

variable {w : WorkspaceId}

theorem get_parent (hwf : t.WellFormed) {p : WorkspaceId} (h : t.parentOf w = some p) :
    ∃ n, t.nodes.get p = some n ∧ w ∈ n.children :=
  get_of_mem_children ((hwf.mem_children p w).mpr h)

theorem acyclic (hwf : t.WellFormed) (x : WorkspaceId) : ¬ Below t.parentOf x x := by
  intro hx
  obtain ⟨b, hb, -⟩ := TransGen.head'_iff.mp hx
  obtain ⟨n, hn, -⟩ := get_of_parentOf hb
  exact not_below_self hwf.parentOf_root (hwf.rooted x n hn) hx

theorem listed (hwf : t.WellFormed) : Listed t.parentOf t.children t.nodes.keys where
  mem_children := hwf.mem_children
  nodup := hwf.nodup
  node := by
    intro a b hab
    obtain ⟨n, hn, -⟩ := get_of_parentOf hab
    exact Table.mem_keys.mpr ⟨n, hn⟩
  acyclic := hwf.acyclic

/-- **`descendants` returns the proper descendants, each once.** -/
theorem descendants_eq_some (hwf : t.WellFormed) (w : WorkspaceId) :
    ∃ ds, t.descendants w = some ds ∧ ds.Nodup ∧ ∀ d, d ∈ ds ↔ Below t.parentOf d w := by
  have h := bfs_eq_some hwf.listed w
  unfold descendants
  rw [descendantsLoop_eq]
  exact h

variable {n : WorkspaceNode}

/-- **`parent_chain` returns the proper ancestors, up to the root.** -/
theorem parentChain_eq_some (hwf : t.WellFormed) (hn : t.nodes.get w = some n) :
    ∃ chain, t.parentChain w = some chain ∧ (w :: chain).getLast? = some t.root ∧
      ∀ a, a ∈ chain ↔ Below t.parentOf w a := by
  have hS : ∀ a b, Up t.parentOf a b → b ∈ t.nodes.keys := by
    intro a b hab
    obtain ⟨pn, hpn, -⟩ := hwf.get_parent hab
    exact Table.mem_keys.mpr ⟨pn, hpn⟩
  have h := climb_eq_some hS hwf.parentOf_root (hwf.rooted w n hn) hwf.acyclic
  unfold parentChain
  rw [parentChainLoop_eq]
  exact h

theorem parentChain_of_none (h : t.nodes.get w = none) : t.parentChain w = some [] := by
  simp [parentChain, parentChainLoop, h]

theorem descendantsLoop_stable (hwf : t.WellFormed) (w : WorkspaceId) {fuel : ℕ}
    (hfuel : t.nodes.keys.card + 1 ≤ fuel) : t.descendantsLoop fuel [w] [] = t.descendants w := by
  obtain ⟨ds, hds, -⟩ := hwf.descendants_eq_some w
  rw [hds, descendantsLoop_eq]
  unfold descendants at hds
  rw [descendantsLoop_eq] at hds
  exact bfs_mono hfuel hds

theorem parentChainLoop_stable (hwf : t.WellFormed) (hn : t.nodes.get w = some n) {fuel : ℕ}
    (hfuel : t.nodes.keys.card + 1 ≤ fuel) : t.parentChainLoop fuel w [] = t.parentChain w := by
  obtain ⟨chain, hchain, -⟩ := hwf.parentChain_eq_some hn
  rw [hchain, parentChainLoop_eq]
  unfold parentChain at hchain
  rw [parentChainLoop_eq] at hchain
  exact climb_mono hfuel hchain

theorem exists_parent (hwf : t.WellFormed) (hn : t.nodes.get w = some n) (hw : w ≠ t.root) :
    ∃ p, t.parentOf w = some p := by
  rcases ReflTransGen.cases_head (hwf.rooted w n hn) with h | ⟨p, hp, -⟩
  · exact absurd h hw
  · exact ⟨p, hp⟩

theorem not_below_root (hwf : t.WellFormed) (a : WorkspaceId) : ¬ Below t.parentOf t.root a :=
  not_below_of_none hwf.parentOf_root

end WellFormed

end Wacp.WorkspaceTree
