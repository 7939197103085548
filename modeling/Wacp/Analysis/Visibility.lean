import Wacp.Library.Runs
import Wacp.Model.Topology

/-!
# The visibility graph

The graph keeps each pair twice; `sees_grant` says which pairs a grant adds. While nobody in `G`
sees `T`, no grants inside `G` reach `T`.
-/

namespace Wacp.VisibilityGraph

open Library Table

variable {g : VisibilityGraph}

def Sees (g : VisibilityGraph) (a b : WorkspaceId) : Prop := b ∈ (g.canSee.get a).getD ∅

def ListsViewer (g : VisibilityGraph) (b a : WorkspaceId) : Prop := a ∈ (g.seenBy.get b).getD ∅

def Converse (g : VisibilityGraph) : Prop := ∀ a b, g.Sees a b ↔ g.ListsViewer b a

theorem canSeeTarget_iff (a b : WorkspaceId) : g.canSeeTarget a b ↔ a = b ∨ g.Sees a b := by
  unfold canSeeTarget Sees
  by_cases hab : a = b
  · simp [hab]
  · cases g.canSee.get a with
    | none | some => simp [hab]

theorem mem_whoCanSee (a b : WorkspaceId) : a ∈ g.whoCanSee b ↔ a = b ∨ g.ListsViewer b a := by
  simp [whoCanSee, ListsViewer]

theorem getD_orDefault (m : Table WorkspaceId (Finset WorkspaceId)) (id k : WorkspaceId) :
    ((orDefault m id).get k).getD ∅ = (m.get k).getD ∅ := by
  unfold orDefault
  rw [get_set]
  split
  · rename_i hk
    rw [hk, Option.getD_some]
  · rfl

@[simp] theorem sees_register (id a b : WorkspaceId) : (g.register id).Sees a b ↔ g.Sees a b := by
  simp [Sees, register, getD_orDefault]

@[simp] theorem listsViewer_register (id b a : WorkspaceId) :
    (g.register id).ListsViewer b a ↔ g.ListsViewer b a := by
  simp [ListsViewer, register, getD_orDefault]

theorem sees_grant {viewer target a b : WorkspaceId} : (g.grant viewer target).1.Sees a b ↔
      g.Sees a b ∨ viewer ≠ target ∧ a = viewer ∧ b = target := by
  have hset : b ∈ ((g.canSee.set viewer (insert target ((g.canSee.get viewer).getD ∅))).get
      a).getD ∅ ↔ g.Sees a b ∨ a = viewer ∧ b = target := by
    unfold Sees
    rw [get_set]
    by_cases ha : a = viewer
    · simp [ha, or_comm]
    · simp [ha]
  unfold grant
  dsimp only
  split_ifs with hself hseen
  · simp [hself]
  · simp only [ne_eq, hself, not_false_eq_true, true_and]
    exact hset
  · simp only [ne_eq, hself, not_false_eq_true, true_and]
    exact hset

theorem Converse.listsViewer_grant (h : g.Converse) (viewer target b a : WorkspaceId) :
    (g.grant viewer target).1.ListsViewer b a ↔
      g.ListsViewer b a ∨ viewer ≠ target ∧ a = viewer ∧ b = target := by
  unfold grant
  dsimp only
  split_ifs with hself hseen
  · simp [hself]
  · have hlisted : g.ListsViewer target viewer := (h viewer target).mp hseen
    constructor
    · exact .inl
    · rintro (hold | ⟨-, rfl, rfl⟩)
      · exact hold
      · exact hlisted
  · unfold ListsViewer
    rw [get_set]
    by_cases hb : b = target
    · simp [hb, hself, or_comm]
    · simp [hb]

theorem converse_new : new.Converse := by
  intro a b
  simp [Sees, ListsViewer, new]

theorem Converse.register (h : g.Converse) (id : WorkspaceId) : (g.register id).Converse := by
  intro a b
  rw [sees_register, listsViewer_register, h a b]

theorem Converse.grant (h : g.Converse) (viewer target : WorkspaceId) :
    (g.grant viewer target).1.Converse := by
  intro a b
  rw [sees_grant, h.listsViewer_grant, h a b]

theorem Converse.canSeeTarget_iff_mem (h : g.Converse) (a b : WorkspaceId) :
    g.canSeeTarget a b ↔ a ∈ g.whoCanSee b := by
  rw [canSeeTarget_iff, mem_whoCanSee, h a b]

/-! ## Checked grants -/

structure GrantCall where
  (viewer target grantor : WorkspaceId)
  deriving DecidableEq

def applyGrant (g : VisibilityGraph) (c : GrantCall) : VisibilityGraph :=
  match g.grantChecked c.viewer c.target c.grantor with
  | .ok (g', _) => g'
  | .error _ => g

def GrantStep (g : VisibilityGraph) (c : GrantCall) (g' : VisibilityGraph) : Prop :=
  g' = g.applyGrant c

theorem applyGrant_eq (c : GrantCall) : g.applyGrant c =
      if g.canSeeTarget c.grantor c.target then (g.grant c.viewer c.target).1 else g := by
  unfold applyGrant grantChecked
  split_ifs <;> rfl

def SameViewers (T : WorkspaceId) (g g' : VisibilityGraph) : Prop :=
  (∀ w, g'.canSeeTarget w T = g.canSeeTarget w T) ∧ g'.whoCanSee T = g.whoCanSee T

theorem sameViewers_grant {T viewer target : WorkspaceId} (hne : target ≠ T) :
    SameViewers T g (g.grant viewer target).1 := by
  constructor
  · intro w
    have hsame : (g.grant viewer target).1.Sees w T ↔ g.Sees w T := by
      rw [sees_grant]
      constructor
      · rintro (h | ⟨-, -, h⟩)
        · exact h
        · exact absurd h.symm hne
      · exact .inl
    rw [Bool.eq_iff_iff, canSeeTarget_iff, canSeeTarget_iff, hsame]
  · unfold whoCanSee grant
    dsimp only
    split_ifs
    · rfl
    · rfl
    · rw [get_set, if_neg (Ne.symm hne)]

theorem sameViewers_applyGrant {T : WorkspaceId} {c : GrantCall}
    (hgrantor : g.canSeeTarget c.grantor T = false) : SameViewers T g (g.applyGrant c) := by
  rw [applyGrant_eq]
  split_ifs with hsees
  · apply sameViewers_grant
    rintro rfl
    rw [hgrantor] at hsees
    cases hsees
  · exact ⟨fun _ => rfl, rfl⟩

/-- **Visibility confinement.** If nobody in `G` sees `T`, then however the members of `G` grant,
the workspaces that see `T` stay the same. -/
theorem confined_of_run {T : WorkspaceId} {G : Set WorkspaceId} {g g' : VisibilityGraph}
    (hG : ∀ v ∈ G, v ≠ T ∧ g.canSeeTarget v T = false)
    (h : Run GrantStep (fun _ c => c.grantor ∈ G) g g') :
    (∀ w, g'.canSeeTarget w T = g.canSeeTarget w T) ∧ g'.whoCanSee T = g.whoCanSee T := by
  refine h.invariant (SameViewers T g) ?_ ⟨fun _ => rfl, rfl⟩
  rintro g₁ c g₂ ⟨hsee, hwho⟩ hmem rfl
  -- a grantee that is itself in `G` still does not see `T`, by the invariant
  have hgrantor : g₁.canSeeTarget c.grantor T = false := by
    rw [hsee]
    exact (hG c.grantor hmem).2
  obtain ⟨hsee', hwho'⟩ := sameViewers_applyGrant hgrantor
  exact ⟨fun w => (hsee' w).trans (hsee w), hwho'.trans hwho⟩

def sampleGraph : VisibilityGraph :=
  ((new.grant ⟨"boss"⟩ ⟨"vault"⟩).1.grant ⟨"a"⟩ ⟨"b"⟩).1

def sampleGrants : List GrantCall :=
  [⟨⟨"c"⟩, ⟨"b"⟩, ⟨"a"⟩⟩, ⟨⟨"d"⟩, ⟨"b"⟩, ⟨"c"⟩⟩, ⟨⟨"c"⟩, ⟨"vault"⟩, ⟨"a"⟩⟩]

theorem confined_of_sample_run :
    (sampleGrants.foldl applyGrant sampleGraph).canSeeTarget ⟨"d"⟩ ⟨"b"⟩ ∧
      (sampleGrants.foldl applyGrant sampleGraph).whoCanSee ⟨"vault"⟩ =
        sampleGraph.whoCanSee ⟨"vault"⟩ := by
  have hrun : Run GrantStep (fun _ c => c.grantor ∈ ({⟨"a"⟩, ⟨"c"⟩} : Set WorkspaceId))
      sampleGraph (sampleGrants.foldl applyGrant sampleGraph) := by
    refine Run.of_foldl (fun _ _ => rfl) ?_
    intro c hc _
    simp only [sampleGrants, List.mem_cons, List.not_mem_nil, or_false] at hc
    rcases hc with rfl | rfl | rfl <;> simp
  have hG : ∀ v ∈ ({⟨"a"⟩, ⟨"c"⟩} : Set WorkspaceId),
      v ≠ ⟨"vault"⟩ ∧ sampleGraph.canSeeTarget v ⟨"vault"⟩ = false := by
    rintro v (rfl | rfl)
    · exact ⟨by decide, by decide⟩
    · exact ⟨by decide, by decide⟩
  exact ⟨by decide, (confined_of_run hG hrun).2⟩

end Wacp.VisibilityGraph
