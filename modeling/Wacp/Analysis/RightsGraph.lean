import Wacp.Library.Names
import Wacp.Library.Runs
import Wacp.Model.PortRights

/-!
# The rights table and its indices

In every run both indices list every right once, where it belongs. A right is never removed, and
once it is not Active nothing about it changes.
-/

namespace Wacp.PortRightsGraph

open Library Option Table Function

variable {g g' : PortRightsGraph}

/-! ## The indices -/

/-- Both indices are exact, and identifiers come from the counter. -/
structure WellFormed (g : PortRightsGraph) : Prop where
  holders : g.byHolder.Indexes fun id => (g.byId.get id).map (·.holder)
  targets : g.byTarget.Indexes fun id => (g.byId.get id).map (·.target)
  issued : ∀ id e, g.byId.get id = some e → ∃ n < g.nextId, id = rightId n

theorem wellFormed_new : new.WellFormed := by
  refine ⟨?_, ?_, ?_⟩
  · exact indexes_empty
  · exact indexes_empty
  · intro id e h
    simp [new] at h

theorem WellFormed.get_next (hwf : g.WellFormed) : g.byId.get (rightId g.nextId) = none := by
  cases h : g.byId.get (rightId g.nextId) with
  | none => rfl
  | some e =>
    obtain ⟨n, hn, hid⟩ := hwf.issued _ e h
    have hnext : g.nextId = n := numbered_injective "pr-" hid
    omega

theorem get_create (holder target : WorkspaceId) (kind : PortRightType) (id : String) :
    (g.create holder target kind).1.byId.get id = if id = rightId g.nextId then
      some ⟨rightId g.nextId, holder, target, kind, .active⟩ else g.byId.get id :=
  get_set _

theorem WellFormed.create (hwf : g.WellFormed) (holder target : WorkspaceId)
    (kind : PortRightType) : (g.create holder target kind).1.WellFormed := by
  have hmap : ∀ {α : Type} (f : PortRightEntry → α),
      (fun id => ((g.create holder target kind).1.byId.get id).map f) =
        update (fun id => (g.byId.get id).map f) (rightId g.nextId)
          (some (f ⟨rightId g.nextId, holder, target, kind, .active⟩)) := by
    intro α f
    funext id
    rw [get_create]
    by_cases hid : id = rightId g.nextId <;> simp [hid]
  have hnone := hwf.get_next
  refine ⟨?_, ?_, ?_⟩
  · rw [hmap]
    apply hwf.holders.push
    rw [hnone]
    rfl
  · rw [hmap]
    apply hwf.targets.push
    rw [hnone]
    rfl
  · intro id e h
    rw [get_create] at h
    have hnext : (g.create holder target kind).1.nextId = g.nextId + 1 := rfl
    split at h
    · rename_i hid
      exact ⟨g.nextId, by omega, hid⟩
    · obtain ⟨n, hn, hid⟩ := hwf.issued id e h
      exact ⟨n, by omega, hid⟩

variable (e : PortRightEntry)

theorem expire_expire : expire (expire e) = expire e := by
  unfold expire
  split <;> simp_all

theorem expire_holder : (expire e).holder = e.holder := by
  unfold expire
  split <;> rfl

theorem expire_target : (expire e).target = e.target := by
  unfold expire
  split <;> rfl

theorem expire_not_active : (expire e).status ≠ .active := by
  unfold expire
  split
  · simp
  · assumption

theorem get_expireWorkspace (hwf : g.WellFormed) (w : WorkspaceId) (id : String) :
    (g.expireWorkspace w).byId.get id = (g.byId.get id).map fun e =>
      if e.holder = w ∨ e.target = w then expire e else e := by
  have hheld : id ∈ g.byHolder.getList w ↔ (g.byId.get id).map (·.holder) = some w :=
    hwf.holders.mem_iff
  have htargeted : id ∈ g.byTarget.getList w ↔ (g.byId.get id).map (·.target) = some w :=
    hwf.targets.mem_iff
  unfold expireWorkspace
  rw [get_foldl_modify expire_expire, get_foldl_modify expire_expire]
  cases h : g.byId.get id with
  | none => simp
  | some e =>
    rw [h] at hheld htargeted
    by_cases hh : e.holder = w
    · by_cases ht : e.target = w <;> simp [hheld, htargeted, hh, ht, expire_expire]
    · by_cases ht : e.target = w <;> simp [hheld, htargeted, hh, ht]

theorem WellFormed.of_entries (hwf : g.WellFormed) (hholders : g'.byHolder = g.byHolder)
    (htargets : g'.byTarget = g.byTarget) (hnext : g'.nextId = g.nextId)
    (hholder : ∀ id, (g'.byId.get id).map (·.holder) = (g.byId.get id).map (·.holder))
    (htarget : ∀ id, (g'.byId.get id).map (·.target) = (g.byId.get id).map (·.target)) :
    g'.WellFormed := by
  refine ⟨?_, ?_, ?_⟩
  · rw [hholders, funext hholder]
    exact hwf.holders
  · rw [htargets, funext htarget]
    exact hwf.targets
  · intro id e h
    have hsome := hholder id
    rw [h] at hsome
    obtain ⟨e₀, he₀, -⟩ := map_eq_some_iff.mp hsome.symm
    rw [hnext]
    exact hwf.issued id e₀ he₀

theorem WellFormed.expireWorkspace (hwf : g.WellFormed) (w : WorkspaceId) :
    (g.expireWorkspace w).WellFormed := by
  have hmap : ∀ {α : Type} (f : PortRightEntry → α), (∀ e, f (expire e) = f e) →
      ∀ id, ((g.expireWorkspace w).byId.get id).map f = (g.byId.get id).map f := by
    intro α f hf id
    rw [get_expireWorkspace hwf, map_map]
    cases g.byId.get id with
    | none => rfl
    | some =>
      simp only [map_some, comp]
      split
      · rw [hf]
      · rfl
  exact hwf.of_entries rfl rfl rfl (hmap _ expire_holder) (hmap _ expire_target)

theorem WellFormed.setStatus (hwf : g.WellFormed) (id : String) (status : PortRightStatus) :
    WellFormed { g with byId := g.byId.modify id fun e => { e with status := status } } := by
  have hmap : ∀ {α : Type} (f : PortRightEntry → α),
      (∀ e : PortRightEntry, f { e with status := status } = f e) → ∀ id',
      ((g.byId.modify id fun e => { e with status := status }).get id').map f =
        (g.byId.get id').map f := by
    intro α f hf id'
    rw [get_modify]
    split
    · cases g.byId.get id' with
      | none => rfl
      | some e => exact congrArg some (hf e)
    · rfl
  exact hwf.of_entries rfl rfl rfl (hmap _ fun _ => rfl) (hmap _ fun _ => rfl)

variable {id : String} {newHolder : WorkspaceId} {r : PortRightsGraph × WorkspaceId}

theorem transfer_inv (h : g.transfer id newHolder = .ok r) :
    ∃ entry, g.byId.get id = some entry ∧ entry.status = .active ∧
      r = ({ g with
        byHolder := (g.byHolder.modify entry.holder fun ids => ids.filter (· ≠ id)).push
          newHolder id
        byId := g.byId.modify id fun e => { e with holder := newHolder } }, entry.holder) := by
  unfold transfer at h
  split at h
  · cases h
  · next entry hentry =>
      split_ifs at h with hactive
      cases h
      exact ⟨entry, hentry, not_not.mp hactive, rfl⟩

variable {entry : PortRightEntry}

theorem map_get_newHolder {α : Type} {f : PortRightEntry → α} (hentry : g.byId.get id = some entry)
    : (fun id' => ((g.byId.modify id fun e => { e with holder := newHolder }).get id').map f) =
      update (fun id' => (g.byId.get id').map f) id
        (some (f { entry with holder := newHolder })) := by
  funext id'
  rw [get_modify]
  by_cases hid : id' = id
  · rw [if_pos hid, hid, hentry, update_self]
    rfl
  · rw [if_neg hid, update_of_ne hid]

theorem WellFormed.transfer (hwf : g.WellFormed)
    (h : g.transfer id newHolder = .ok r) : r.1.WellFormed := by
  obtain ⟨entry, hentry, -, rfl⟩ := transfer_inv h
  refine ⟨?_, ?_, ?_⟩
  · rw [map_get_newHolder hentry]
    apply hwf.holders.move
    rw [hentry]
    rfl
  · have htarget : (g.byId.get id).map (·.target) = some entry.target := by
      rw [hentry]
      rfl
    rw [map_get_newHolder hentry, ← htarget,
      update_eq_self id fun id' => (g.byId.get id').map (·.target)]
    exact hwf.targets
  · intro id' e he
    by_cases hid : id' = id
    · rw [hid]
      exact hwf.issued id entry hentry
    · rw [get_modify, if_neg hid] at he
      exact hwf.issued id' e he

/-! ## The life of a right -/

/-- Only the holder and the status of a right change, and nothing once it is not Active. -/
structure Advances (e e' : PortRightEntry) : Prop where
  id : e'.id = e.id
  target : e'.target = e.target
  kind : e'.kind = e.kind
  final : e.status ≠ .active → e' = e

theorem Advances.refl : Advances e e := ⟨rfl, rfl, rfl, fun _ => rfl⟩

theorem Advances.trans {e₁ e₂ e₃ : PortRightEntry} (h : Advances e₁ e₂) (h' : Advances e₂ e₃) :
    Advances e₁ e₃ where
  id := h'.id.trans h.id
  target := h'.target.trans h.target
  kind := h'.kind.trans h.kind
  final := by
    intro hstatus
    have heq := h.final hstatus
    rw [← heq] at hstatus
    rw [h'.final hstatus, heq]

inductive Succeeds (id : String) : Option PortRightEntry → Option PortRightEntry → Prop where
  | absent : Succeeds id none none
  | created {e : PortRightEntry} (hid : e.id = id) : Succeeds id none (some e)
  | advanced {e e' : PortRightEntry} (h : Advances e e') : Succeeds id (some e) (some e')

theorem Succeeds.refl (id : String) (entry : Option PortRightEntry) : Succeeds id entry entry := by
  cases entry with
  | none => exact .absent
  | some e => exact .advanced (.refl e)

theorem succeeds_modify {f : PortRightEntry → PortRightEntry} (hget : g.byId.get id = some entry)
    (h : Advances entry (f entry)) (id' : String) :
    Succeeds id' (g.byId.get id') ((g.byId.modify id f).get id') := by
  rw [get_modify]
  by_cases hid : id' = id
  · rw [if_pos hid, hid, hget]
    exact .advanced h
  · rw [if_neg hid]
    exact .refl id' _

theorem Advances.of_active {e e' : PortRightEntry} (hactive : e.status = .active)
    (hid : e'.id = e.id) (htarget : e'.target = e.target) (hkind : e'.kind = e.kind) :
    Advances e e' :=
  ⟨hid, htarget, hkind, fun hne => absurd hactive hne⟩

theorem advances_expire : Advances e (expire e) := by
  unfold expire
  split
  · next hactive => exact .of_active hactive rfl rfl rfl
  · exact .refl e

theorem WellFormed.ends (hwf : g.WellFormed) (hentry : g.byId.get id = some entry)
    (hactive : entry.status = .active) {status : PortRightStatus} :
    WellFormed { g with byId := g.byId.modify id fun e => { e with status := status } } ∧
      ∀ id', Succeeds id' (g.byId.get id')
        ((g.byId.modify id fun e => { e with status := status }).get id') :=
  ⟨hwf.setStatus id status, succeeds_modify hentry (.of_active hactive rfl rfl rfl)⟩

/-! ## Runs -/

inductive Op where
  | create (holder target : WorkspaceId) (kind : PortRightType)
  | transfer (id : String) (newHolder : WorkspaceId)
  | consume (id : String)
  | revoke (id : String)
  | expireWorkspace (workspaceId : WorkspaceId)

def apply (g : PortRightsGraph) : Op → PortRightsGraph
  | .create holder target kind => (g.create holder target kind).1
  | .transfer id newHolder =>
    match g.transfer id newHolder with
    | .ok (g', _) => g'
    | .error _ => g
  | .consume id =>
    match g.consume id with
    | .ok g' => g'
    | .error _ => g
  | .revoke id =>
    match g.revoke id with
    | .ok g' => g'
    | .error _ => g
  | .expireWorkspace workspaceId => g.expireWorkspace workspaceId

def Step (g : PortRightsGraph) (op : Op) (g' : PortRightsGraph) : Prop := g.apply op = g'

/-- **What an operation does**: the indices stay exact, and every right advances. -/
theorem WellFormed.apply (hwf : g.WellFormed) (op : Op) : (g.apply op).WellFormed ∧
      ∀ id, Succeeds id (g.byId.get id) ((g.apply op).byId.get id) := by
  have hrefl : ∀ id, Succeeds id (g.byId.get id) (g.byId.get id) := fun id => .refl id _
  cases op with
  | create holder target kind =>
    refine ⟨hwf.create holder target kind, fun id => ?_⟩
    show Succeeds id _ ((g.create holder target kind).1.byId.get id)
    rw [get_create]
    split
    · next hid =>
        rw [hid, hwf.get_next]
        exact .created rfl
    · exact hrefl id
  | transfer id newHolder =>
    simp only [PortRightsGraph.apply]
    cases htransfer : g.transfer id newHolder with
    | error => exact ⟨hwf, hrefl⟩
    | ok =>
      refine ⟨hwf.transfer htransfer, ?_⟩
      obtain ⟨entry, hentry, hactive, rfl⟩ := transfer_inv htransfer
      exact succeeds_modify hentry (.of_active hactive rfl rfl rfl)
  | consume id =>
    simp only [PortRightsGraph.apply, consume]
    cases hentry : g.byId.get id with
    | none => exact ⟨hwf, hrefl⟩
    | some =>
      dsimp only
      split_ifs with hkind hactive
      · exact ⟨hwf, hrefl⟩
      · exact ⟨hwf, hrefl⟩
      · exact hwf.ends hentry (not_not.mp hactive)
  | revoke id =>
    simp only [PortRightsGraph.apply, revoke]
    cases hentry : g.byId.get id with
    | none => exact ⟨hwf, hrefl⟩
    | some =>
      dsimp only
      split_ifs with hactive
      · exact ⟨hwf, hrefl⟩
      · exact hwf.ends hentry (not_not.mp hactive)
  | expireWorkspace w =>
    refine ⟨hwf.expireWorkspace w, fun id => ?_⟩
    show Succeeds id _ ((g.expireWorkspace w).byId.get id)
    rw [get_expireWorkspace hwf]
    cases g.byId.get id with
    | none => exact .absent
    | some e =>
      refine .advanced ?_
      dsimp only
      split
      · exact advances_expire e
      · exact .refl e

structure Consistent (g : PortRightsGraph) : Prop extends g.WellFormed where
  named : ∀ id e, g.byId.get id = some e → e.id = id

theorem consistent_new : new.Consistent := by
  refine ⟨wellFormed_new, ?_⟩
  intro id e h
  cases h

theorem Consistent.step (h : g.Consistent) {op : Op} (hstep : g.Step op g') : g'.Consistent := by
  subst hstep
  obtain ⟨hwf, hlife⟩ := h.toWellFormed.apply op
  refine ⟨hwf, ?_⟩
  intro id e he
  have hid := hlife id
  rw [he] at hid
  generalize hbefore : g.byId.get id = before at hid
  cases hid with
  | created hid => exact hid
  | advanced hadv =>
    rw [hadv.id]
    exact h.named id _ hbefore

theorem consistent_of_run (h : Run Step anyStep new g) : g.Consistent :=
  h.invariant Consistent (fun hc _ hstep => hc.step hstep) consistent_new

theorem advances_of_run (hc : g.Consistent) (h : Run Step anyStep g g') {e : PortRightEntry}
    (he : g.byId.get id = some e) : ∃ e', g'.byId.get id = some e' ∧ Advances e e' := by
  refine h.always Consistent (fun x => ∃ e', x.byId.get id = some e' ∧ Advances e e')
    (fun hx _ hstep => hx.step hstep) ?_ hc ⟨e, he, .refl e⟩
  rintro x op y hx ⟨e₁, he₁, hadv⟩ - rfl
  have hlife := (hx.toWellFormed.apply op).2 id
  rw [he₁] at hlife
  generalize hafter : (x.apply op).byId.get id = after at hlife
  cases hlife with
  | advanced hnext => exact ⟨_, rfl, hadv.trans hnext⟩

/-! ## The query -/

def MaySend (g : PortRightsGraph) (holder target : WorkspaceId) : Prop :=
  ∃ id e, g.byId.get id = some e ∧ e.holder = holder ∧ e.target = target ∧
    e.status = .active ∧ (e.kind = .send ∨ e.kind = .sendOnce)

theorem permitsSend_iff {target : WorkspaceId} :
    g.permitsSend target id ↔ ∃ e, g.byId.get id = some e ∧ e.target = target ∧
      e.status = .active ∧ (e.kind = .send ∨ e.kind = .sendOnce) := by
  unfold permitsSend
  cases g.byId.get id with
  | none | some => simp

theorem WellFormed.validateSend_iff (hwf : g.WellFormed) (sender target : WorkspaceId) :
    (∃ id, g.validateSend sender target = .ok id) ↔ g.MaySend sender target := by
  have hindex : ∀ id, id ∈ g.byHolder.getList sender ↔
      (g.byId.get id).map (·.holder) = some sender := fun id => hwf.holders.mem_iff
  have hfind : (∃ id, g.validateSend sender target = .ok id) ↔
      ∃ id ∈ g.byHolder.getList sender, g.permitsSend target id := by
    unfold validateSend Table.getList
    cases g.byHolder.get sender with
    | none => simp
    | some =>
      rw [getD_some, ← List.find?_isSome, isSome_iff_exists]
      dsimp only
      constructor
      · rintro ⟨id, h⟩
        split at h
        · next id' hid => exact ⟨id', hid⟩
        · cases h
      · rintro ⟨id, h⟩
        rw [h]
        exact ⟨id, rfl⟩
  rw [hfind]
  constructor
  · rintro ⟨id, hmem, hpermits⟩
    obtain ⟨e, he, htarget⟩ := permitsSend_iff.mp hpermits
    have hholder := (hindex id).mp hmem
    rw [he] at hholder
    exact ⟨id, e, he, Option.some.inj hholder, htarget⟩
  · rintro ⟨id, e, he, hholder, htarget⟩
    refine ⟨id, (hindex id).mpr ?_, permitsSend_iff.mpr ⟨e, he, htarget⟩⟩
    rw [he, map_some, hholder]

/-- **The rights of any run.** Identifiers are never given twice; the indices list every right once,
under its holder and target; rights stay and advance; and the query is the statement about the
table. -/
theorem rights_of_run {g g' : PortRightsGraph} (hreach : Run Step anyStep new g)
    (hrun : Run Step anyStep g g') :
    (∀ id e, g'.byId.get id = some e → e.id = id) ∧
    (∀ holder target kind, g'.byId.get (g'.create holder target kind).2 = none) ∧
    (g'.byHolder.Indexes fun id => (g'.byId.get id).map (·.holder)) ∧
    (g'.byTarget.Indexes fun id => (g'.byId.get id).map (·.target)) ∧
    (∀ id e, g.byId.get id = some e → ∃ e', g'.byId.get id = some e' ∧ Advances e e') ∧
    ∀ sender target,
      (∃ id, g'.validateSend sender target = .ok id) ↔ g'.MaySend sender target := by
  have hbefore := consistent_of_run hreach
  have hafter : g'.Consistent :=
    hrun.invariant Consistent (fun hc _ hstep => hc.step hstep) hbefore
  refine ⟨hafter.named, ?_, hafter.holders, hafter.targets, ?_, hafter.validateSend_iff⟩
  · intro holder target kind
    exact hafter.get_next
  · intro id e he
    exact advances_of_run hbefore hrun he

def sampleOps : List Op :=
  [.create ⟨"ws-0"⟩ ⟨"ws-1"⟩ .sendOnce, .transfer "pr-1" ⟨"ws-2"⟩, .expireWorkspace ⟨"ws-1"⟩]

theorem rights_of_sample_run : ∃ g : PortRightsGraph, Run Step anyStep new g ∧
    g.byHolder.getList ⟨"ws-0"⟩ = [] ∧ g.byHolder.getList ⟨"ws-2"⟩ = ["pr-1"] ∧
    (g.byId.get "pr-1").map (·.status) = some .expired ∧
    ((∃ id, g.validateSend ⟨"ws-2"⟩ ⟨"ws-1"⟩ = .ok id) ↔ g.MaySend ⟨"ws-2"⟩ ⟨"ws-1"⟩) := by
  have hrun : Run Step anyStep new (sampleOps.foldl apply new) :=
    Run.of_foldl (fun _ _ => rfl) (fun _ _ _ => trivial)
  exact ⟨_, hrun, by decide, by decide, by decide,
    (rights_of_run (Run.refl new) hrun).2.2.2.2.2 ⟨"ws-2"⟩ ⟨"ws-1"⟩⟩

end Wacp.PortRightsGraph
