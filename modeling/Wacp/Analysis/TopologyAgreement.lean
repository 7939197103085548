import Wacp.Analysis.RightsExpiry
import Wacp.Analysis.Visibility

/-!
# Agreement of the tree, the router and the visibility graph

The owner of a workspace is stored twice, and so is every visibility pair. `Agrees` is what the
compound operations keep between the copies.
-/

namespace Wacp.TopologySet

open Library Option Table WorkspaceTree VisibilityGraph

variable {s s' : TopologySet}

/-- A compound operation, or a grant in the visibility graph. -/
inductive Change where
  | op (op : Op)
  | grant (viewer target : WorkspaceId)
  | grantChecked (call : GrantCall)

def change (s : TopologySet) : Change → Option TopologySet
  | .op op => s.apply op
  | .grant viewer target => some { s with visibility := (s.visibility.grant viewer target).1 }
  | .grantChecked call => some { s with visibility := s.visibility.applyGrant call }

def ChangeStep (s : TopologySet) (c : Change) (s' : TopologySet) : Prop := s.change c = some s'

/-- A workspace is in the tree if it has an owner there. -/
structure Agrees (s : TopologySet) : Prop where
  tree : s.tree.WellFormed
  routes : ∀ w, s.escalation.route w = s.tree.ownerOf w
  rootSees : ∀ w o, s.tree.ownerOf w = some o →
    w = s.tree.root ∨ s.visibility.Sees s.tree.root w
  converse : s.visibility.Converse

theorem ownerOf_new (rootId : WorkspaceId) (rootOwner : UserId) (w : WorkspaceId) :
    (new rootId rootOwner).tree.ownerOf w = if w = rootId then some rootOwner else none := by
  unfold ownerOf new
  rw [get_new]
  split_ifs <;> rfl

theorem agrees_new {rootId : WorkspaceId} {rootOwner : UserId} : (new rootId rootOwner).Agrees where
  tree := wellFormed_new rootId rootOwner
  routes w := by
    rw [ownerOf_new]
    simp only [new, EscalationRouter.route, EscalationRouter.register, EscalationRouter.new,
      get_set, get_empty]
  rootSees w o ho := by
    rw [ownerOf_new] at ho
    split_ifs at ho with hw
    exact .inl hw
  converse := converse_new.register rootId

/-! ## One change -/

/-- The parts agree, the root stays, and no workspace and no visibility pair is gone. -/
structure Grows (s s' : TopologySet) : Prop where
  agrees : s'.Agrees
  root : s'.tree.root = s.tree.root
  nodes : ∀ w o, s.tree.ownerOf w = some o → ∃ o', s'.tree.ownerOf w = some o'
  pairs : ∀ a b, s.visibility.Sees a b → s'.visibility.Sees a b

section

variable (h : s.Agrees)
include h

theorem Agrees.grows_refl : s.Grows s :=
  ⟨h, rfl, fun _ o ho => ⟨o, ho⟩, fun _ _ hab => hab⟩

theorem Agrees.grows_of_owner (htree : s'.tree.WellFormed) (hroot : s'.tree.root = s.tree.root)
    (howner : ∀ w, s'.tree.ownerOf w = s.tree.ownerOf w) (hvis : s'.visibility = s.visibility)
    (hesc : s'.escalation = s.escalation) : s.Grows s' := by
  refine ⟨⟨htree, ?_, ?_, hvis ▸ h.converse⟩, hroot, ?_, ?_⟩
  · intro w
    rw [hesc, howner]
    exact h.routes w
  · intro w o ho
    rw [howner] at ho
    rw [hroot, hvis]
    exact h.rootSees w o ho
  · intro w o ho
    exact ⟨o, (howner w).trans ho⟩
  · intro a b hab
    rw [hvis]
    exact hab

theorem Agrees.grows_of_visibility {g : VisibilityGraph} (hconv : g.Converse)
    (hpairs : ∀ a b, s.visibility.Sees a b → g.Sees a b) : s.Grows { s with visibility := g } := by
  refine ⟨⟨h.tree, h.routes, fun w o ho => ?_, hconv⟩, rfl, fun w o ho => ⟨o, ho⟩, hpairs⟩
  exact (h.rootSees w o ho).imp id (hpairs _ _)

theorem Agrees.grant (viewer target : WorkspaceId) :
    s.Grows { s with visibility := (s.visibility.grant viewer target).1 } :=
  h.grows_of_visibility (h.converse.grant viewer target) fun _ _ hab => sees_grant.mpr (.inl hab)

theorem Agrees.create {params : CreateWorkspaceParams} (hs : s.createWorkspace params = .ok s') :
    s.Grows s' := by
  unfold createWorkspace at hs
  split at hs
  · cases hs
  · rename_i tree hins
    cases hs
    have hroot : tree.root = s.tree.root := insert_root hins
    have howner : ∀ w, tree.ownerOf w =
        if w = params.id then some params.owner else s.tree.ownerOf w := by
      intro w
      rw [ownerOf_insert hins, Function.update_apply]
      rfl
    have hpairs : ∀ a b, ((s.visibility.register params.id).grant tree.root params.id).1.Sees
        a b ↔ s.visibility.Sees a b ∨ tree.root ≠ params.id ∧ a = tree.root ∧ b = params.id := by
      intro a b
      rw [sees_grant, sees_register]
    refine ⟨⟨h.tree.insert rfl hins, ?_, ?_, (h.converse.register _).grant _ _⟩, hroot, ?_,
      fun a b hab => (hpairs a b).mpr (.inl hab)⟩
    · intro w
      rw [howner, ← h.routes w]
      exact get_set _
    · intro w o ho
      rw [hpairs]
      by_cases hid : w = params.id
      · by_cases hw : w = tree.root
        · exact .inl hw
        · exact .inr (.inr ⟨fun hr => hw (hid.trans hr.symm), rfl, hid⟩)
      · rw [howner, if_neg hid] at ho
        rw [hroot]
        exact (h.rootSees w o ho).imp id Or.inl
    · intro w o ho
      rw [howner]
      split_ifs
      · exact ⟨_, rfl⟩
      · exact ⟨o, ho⟩

theorem Agrees.transfer {id : WorkspaceId} {newOwner oldOwner : UserId}
    (hs : s.transferOwnership id newOwner = .ok (s', oldOwner)) : s.Grows s' := by
  unfold transferOwnership at hs
  split at hs
  · cases hs
  · rename_i tree old htr
    cases hs
    obtain ⟨n, hn, -, -, ht⟩ := transferOwner_ok htr
    have hroot : tree.root = s.tree.root := by rw [ht]
    have howner : ∀ w, tree.ownerOf w =
        if w = id then some newOwner else s.tree.ownerOf w := by
      intro w
      rw [ht]
      unfold ownerOf
      simp only [get_modify]
      by_cases hw : w = id
      · simp [hw, hn]
      · simp [hw]
    refine ⟨⟨h.tree.transferOwner htr, ?_, ?_, h.converse⟩, hroot, ?_, fun _ _ hab => hab⟩
    · intro w
      rw [howner, ← h.routes w]
      exact get_set _
    · intro w o ho
      rw [hroot]
      by_cases hw : w = id
      · have hold : s.tree.ownerOf w = some n.owner := by
          simp [ownerOf, hw, hn]
        exact h.rootSees w _ hold
      · rw [howner, if_neg hw] at ho
        exact h.rootSees w o ho
    · intro w o ho
      rw [howner]
      split_ifs
      · exact ⟨_, rfl⟩
      · exact ⟨o, ho⟩

theorem Agrees.terminate (id : WorkspaceId) (status : WorkspaceState) :
    ∃ s' effect, s.terminateWorkspace id status = some (s', effect) ∧ s.Grows s' := by
  have hwf := h.tree.updateStatus id status
  have howner := ownerOf_updateStatus s.tree id status
  unfold terminateWorkspace
  by_cases hfailed : status = .failed
  · simp only [if_pos hfailed]
    cases hid : (s.tree.updateStatus id status).nodes.get id with
    | none =>
      rw [cascadeFailure_of_none hid]
      obtain ⟨ds, hds, -, -⟩ := hwf.descendants_eq_some id
      simp only [hds]
      exact ⟨_, _, rfl, h.grows_of_owner hwf rfl (fun w => congrFun howner w) rfl rfl⟩
    | some =>
      obtain ⟨t', moved, hc, hres⟩ := cascadeFailure_result hwf hid
      obtain ⟨ds, hds, -, -⟩ := hres.wellFormed.descendants_eq_some id
      simp only [hc, hds]
      refine ⟨_, _, rfl, h.grows_of_owner hres.wellFormed hres.root (fun w => ?_) rfl rfl⟩
      exact (hres.owner w).trans (congrFun howner w)
  · simp only [if_neg hfailed]
    exact ⟨_, _, rfl, h.grows_of_owner hwf rfl (fun w => congrFun howner w) rfl rfl⟩

theorem Agrees.change (c : Change) : ∃ s', s.change c = some s' ∧ s.Grows s' := by
  cases c with
  | op op =>
    cases op with
    | create params =>
      simp only [TopologySet.change, apply]
      split
      · rename_i s₁ hok
        exact ⟨s₁, rfl, h.create hok⟩
      · exact ⟨s, rfl, h.grows_refl⟩
    | terminate id status =>
      obtain ⟨s₁, effect, hterm, hgrows⟩ := h.terminate id status
      refine ⟨s₁, ?_, hgrows⟩
      simp [TopologySet.change, apply, hterm]
    | transfer id newOwner =>
      simp only [TopologySet.change, apply]
      split
      · rename_i s₁ old hok
        exact ⟨s₁, rfl, h.transfer hok⟩
      · exact ⟨s, rfl, h.grows_refl⟩
  | grant viewer target => exact ⟨_, rfl, h.grant viewer target⟩
  | grantChecked call =>
    refine ⟨_, rfl, ?_⟩
    rw [applyGrant_eq]
    split_ifs
    · exact h.grant call.viewer call.target
    · exact h.grows_refl

theorem Agrees.step {c : Change} (hs : s.ChangeStep c s') : s.Grows s' := by
  obtain ⟨s₁, hs₁, hgrows⟩ := h.change c
  have heq : s₁ = s' := Option.some.inj (hs₁.symm.trans hs)
  rwa [heq] at hgrows

end

/-! ## Whole runs -/

theorem Agrees.run (h : s.Agrees) (hrun : Run ChangeStep anyStep s s') : s.Grows s' := by
  refine hrun.invariant (s.Grows ·) ?_ h.grows_refl
  intro s₁ c s₂ h₁ _ hstep
  have h₂ := h₁.agrees.step hstep
  refine ⟨h₂.agrees, h₂.root.trans h₁.root, fun w o ho => ?_, fun a b hab => ?_⟩
  · obtain ⟨o₁, ho₁⟩ := h₁.nodes w o ho
    exact h₂.nodes w o₁ ho₁
  · exact h₂.pairs a b (h₁.pairs a b hab)

/-- **The structures agree**, in any state `s` of any run and any later `s'`. In `s` the router
sends `w` to `o` exactly if `o` owns the node `w`, and `can_see` and `who_can_see` are converse. In
`s'` the root sees every workspace of `s`, and every pair of `s` is there. No operation on `s` fails
to return. -/
theorem agreement_of_run {rootId : WorkspaceId} {rootOwner : UserId}
    (h : Run ChangeStep anyStep (new rootId rootOwner) s) (h' : Run ChangeStep anyStep s s') :
    (∀ w o, s.escalation.route w = some o ↔ ∃ n, s.tree.get w = some n ∧ n.owner = o) ∧
      (∀ w n, s.tree.get w = some n → s'.visibility.canSeeTarget s'.tree.root w) ∧
      (∀ a b, s.visibility.canSeeTarget a b ↔ a ∈ s.visibility.whoCanSee b) ∧
      (∀ a b, s.visibility.canSeeTarget a b → s'.visibility.canSeeTarget a b) ∧
      ∀ c, ∃ t, s.ChangeStep c t := by
  have hs : s.Agrees := (agrees_new.run h).agrees
  have hs' : s.Grows s' := hs.run h'
  refine ⟨?_, ?_, hs.converse.canSeeTarget_iff_mem, ?_, ?_⟩
  · intro w o
    rw [hs.routes w]
    exact map_eq_some_iff
  · intro w n hn
    have ho : s.tree.ownerOf w = some n.owner := map_eq_some_iff.mpr ⟨n, hn, rfl⟩
    obtain ⟨o', ho'⟩ := hs'.nodes w _ ho
    rw [canSeeTarget_iff]
    exact (hs'.agrees.rootSees w o' ho').imp Eq.symm id
  · intro a b hab
    rw [canSeeTarget_iff] at hab ⊢
    exact hab.imp id (hs'.pairs a b)
  · intro c
    obtain ⟨t, ht, -⟩ := hs.change c
    exact ⟨t, ht⟩

def sampleChanges : List Change :=
  [.op (.create (sampleParams "a" "root" "alice")), .op (.create (sampleParams "b" "a" "alice")),
    .op (.transfer ⟨"b"⟩ ⟨"bob"⟩), .grantChecked ⟨⟨"a"⟩, ⟨"b"⟩, ⟨"root"⟩⟩,
    .op (.terminate ⟨"a"⟩ .failed)]

theorem agreement_of_sample_run :
    ∃ s, sampleChanges.foldlM change (new ⟨"root"⟩ ⟨"alice"⟩) = some s ∧
      s.escalation.route ⟨"b"⟩ = some ⟨"bob"⟩ ∧
      s.visibility.canSeeTarget s.tree.root ⟨"b"⟩ ∧
      ⟨"a"⟩ ∈ s.visibility.whoCanSee ⟨"b"⟩ := by
  have hrun := Run.of_ops
    (rfl : sampleChanges.foldlM change (new ⟨"root"⟩ ⟨"alice"⟩) = some _)
  obtain ⟨hroute, hroot, hconv, -, -⟩ := agreement_of_run hrun (Run.refl _)
  exact ⟨_, rfl, (hroute _ _).mpr ⟨_, rfl, rfl⟩, hroot _ _ rfl, (hconv _ _).mp (by decide)⟩

end Wacp.TopologySet
