import Wacp.Model.Permissions

/-!
# What the permission engine permits

The engine answers from tables that several loops fill, and falls back to base roles. The answers
are those of the definition, up to base roles.
-/

namespace Wacp

open Library List Table Taxonomy

namespace TaxonomyDefinition

/-! ## The definition as a relation -/

def BasedOn (d : TaxonomyDefinition) (role base : String) : Prop :=
  (role ∈ baseRoles ∧ base = role) ∨ ∃ r ∈ d.roles, r.name = role ∧ r.extendsRole = base

def ActsAs (d : TaxonomyDefinition) (role actual : String) : Prop :=
  actual = role ∨ d.BasedOn role actual

def Row (d : TaxonomyDefinition) (sender envelopeType receiver : String) : Prop :=
  { senderRole := sender, envelopeType := envelopeType, receiverRole := receiver } ∈
      basePermissionRows ∨
    ∃ et ∈ d.envelopeTypes, et.name = envelopeType ∧
      ∃ perm ∈ et.permissions, perm.senderRole = sender ∧ perm.receiverRole = receiver

/-- Those it names, or those of its base. -/
def Offers (role : RoleDefinition) (checkpointType : String) : Prop :=
  match role.checkpointTypes with
  | some overrides => checkpointType ∈ overrides
  | none => (role.extendsRole = "worker" ∧ checkpointType = "artifact") ∨
      (role.extendsRole = "observer" ∧ checkpointType = "observation")

/-- In the base table, among the permitted roles, or by the checkpoint types of the role. -/
def Listed (d : TaxonomyDefinition) (checkpointType role : String) : Prop :=
  (checkpointType = "artifact" ∧ role = "worker") ∨
    (checkpointType = "observation" ∧ role = "observer") ∨
    (∃ ct ∈ d.checkpointTypes, ct.name = checkpointType ∧ role ∈ ct.permittedRoles) ∨
    ∃ r ∈ d.roles, r.name = role ∧ Offers r checkpointType

/-! ## Acceptance -/

structure Accepted (d : TaxonomyDefinition) : Prop where
  roleNames : (d.roles.map (·.name)).Nodup
  notBaseRole : ∀ r ∈ d.roles, r.name ∉ baseRoles
  notBaseEnvelope : ∀ et ∈ d.envelopeTypes, et.name ∉ baseEnvelopeTypes
  typeNames : (d.checkpointTypes.map (·.name)).Nodup
  notBaseType : ∀ ct ∈ d.checkpointTypes, ct.name ∉ baseCheckpointTypes
  inherits : ∀ r ∈ d.roles, r.extendsRole = "worker" ∨ r.extendsRole = "observer"

theorem notBase_of_checks {α : Type} {name : α → String} {base : List String} {l : List α}
    (h : (l.map name).forM (checkNotBase base) = .ok ()) : ∀ a ∈ l, name a ∉ base := by
  intro a ha hmem
  have hcheck := forM_eq_ok_iff.mp h (name a) (mem_map_of_mem ha)
  rw [checkNotBase, if_pos hmem] at hcheck
  cases hcheck

variable {d : TaxonomyDefinition}

theorem accepted_of_validate {protocolVersion : String}
    (h : d.validate protocolVersion = .ok ()) : d.Accepted := by
  obtain ⟨⟨⟩, -, h⟩ := bind_eq_ok_iff.mp h
  obtain ⟨⟨⟩, hroles, h⟩ := bind_eq_ok_iff.mp h
  obtain ⟨⟨⟩, hbaseRole, h⟩ := bind_eq_ok_iff.mp h
  obtain ⟨⟨⟩, -, h⟩ := bind_eq_ok_iff.mp h
  obtain ⟨⟨⟩, hbaseEnvelope, h⟩ := bind_eq_ok_iff.mp h
  obtain ⟨⟨⟩, htypes, h⟩ := bind_eq_ok_iff.mp h
  obtain ⟨⟨⟩, hbaseType, h⟩ := bind_eq_ok_iff.mp h
  obtain ⟨⟨⟩, hinherits, -⟩ := bind_eq_ok_iff.mp h
  refine ⟨(checkUnique_eq_ok_iff.mp hroles).1, notBase_of_checks hbaseRole,
    notBase_of_checks hbaseEnvelope, (checkUnique_eq_ok_iff.mp htypes).1,
    notBase_of_checks hbaseType, ?_⟩
  intro r hr
  have hcheck := forM_eq_ok_iff.mp hinherits r hr
  by_contra hnot
  rw [checkInheritance, if_neg hnot] at hcheck
  cases hcheck

variable {role sender envelopeType receiver : String}

theorem Accepted.coordinator_of_row (h : d.Accepted)
    (hreserved : envelopeType = "directive" ∨ envelopeType = "feedback")
    (hacts : d.ActsAs role sender) (hrow : d.Row sender envelopeType receiver) :
    role = "coordinator" := by
  have hsender : sender = "coordinator" := by
    rcases hrow with hbase | ⟨et, het, rfl, -⟩
    · rcases hreserved with rfl | rfl
      · have hrow : sender = "coordinator" ∧ receiver = "worker" := by
          simpa [basePermissionRows] using hbase
        exact hrow.1
      · have hrow : sender = "coordinator" ∧ receiver = "worker" := by
          simpa [basePermissionRows] using hbase
        exact hrow.1
    · refine absurd ?_ (h.notBaseEnvelope et het)
      rcases hreserved with hname | hname <;> rw [hname] <;> decide
  subst hsender
  rcases hacts with hsame | ⟨-, hsame⟩ | ⟨r, hr, -, hextends⟩
  · exact hsame.symm
  · exact hsame.symm
  · rcases h.inherits r hr with hworker | hobserver
    · exact absurd (hextends.symm.trans hworker) (by decide)
    · exact absurd (hextends.symm.trans hobserver) (by decide)

/-! ## The tables of a taxonomy -/

theorem mem_permissionRows :
    { senderRole := sender, envelopeType := envelopeType, receiverRole := receiver } ∈
      d.permissionRows ↔ d.Row sender envelopeType receiver := by
  unfold permissionRows Row
  simp only [foldl_append_eq_append, mem_append, mem_flatten, mem_map]
  apply or_congr_right
  constructor
  · rintro ⟨-, ⟨et, het, rfl⟩, hrow⟩
    obtain ⟨one, hone, hrow⟩ := mem_flatten.mp hrow
    obtain ⟨perm, hperm, rfl⟩ := mem_map.mp hone
    cases mem_singleton.mp hrow
    exact ⟨et, het, rfl, perm, hperm, rfl, rfl⟩
  · rintro ⟨et, het, rfl, perm, hperm, rfl, rfl⟩
    refine ⟨_, ⟨et, het, rfl⟩, mem_flatten.mpr ⟨_, mem_map_of_mem hperm, ?_⟩⟩
    exact mem_singleton.mpr rfl

theorem get_resolveRoles {roles : List RoleDefinition} {m : Table String ResolvedRole}
    (h : resolveRoles roles = some m) (hnodup : (roles.map (·.name)).Nodup) {name : String}
    {v : ResolvedRole} :
    m.get name = some v ↔ ∃ r ∈ roles, r.name = name ∧ resolveRole r = some v := by
  -- from the last role back, since the loop inserts it last
  induction roles using reverseRecOn generalizing m with
  | nil =>
    cases h
    simp
  | append_singleton roles r ih =>
    rw [resolveRoles, foldlM_append] at h
    obtain ⟨m', hm', hlast⟩ := Option.bind_eq_some_iff.mp h
    obtain ⟨m'', hr, hpure⟩ := Option.bind_eq_some_iff.mp hlast
    cases hpure
    obtain ⟨resolved, hresolved, rfl⟩ := Option.map_eq_some_iff.mp hr
    rw [map_append, nodup_append] at hnodup
    obtain ⟨hroles, -, hdisjoint⟩ := hnodup
    rw [get_set]
    by_cases hname : name = r.name
    · rw [if_pos hname]
      constructor
      · intro hv
        cases hv
        exact ⟨r, by simp, hname.symm, hresolved⟩
      · rintro ⟨r', hr', hname', hv⟩
        rcases mem_append.mp hr' with hold | hnew
        · exact absurd (hname'.trans hname) (hdisjoint _ (mem_map_of_mem hold) _ (by simp))
        · rw [mem_singleton.mp hnew, hresolved] at hv
          exact hv
    · rw [if_neg hname, ih hm' hroles]
      constructor
      · rintro ⟨r', hr', hname', hv⟩
        exact ⟨r', mem_append_left _ hr', hname', hv⟩
      · rintro ⟨r', hr', hname', hv⟩
        rcases mem_append.mp hr' with hold | hnew
        · exact ⟨r', hold, hname', hv⟩
        · rw [mem_singleton.mp hnew] at hname'
          exact absurd hname'.symm hname

theorem resolveRole_spec {r : RoleDefinition} {v : ResolvedRole} (h : resolveRole r = some v) :
    v.name = r.name ∧ v.base.name = r.extendsRole ∧
      ∀ checkpointType, checkpointType ∈ v.checkpointTypes ↔ Offers r checkpointType := by
  obtain ⟨base, hbase, rfl⟩ := Option.map_eq_some_iff.mp h
  have hname : base.name = r.extendsRole ∧ (base = .worker ∨ base = .observer) := by
    unfold extendedBase at hbase
    split_ifs at hbase with hworker hobserver
    · cases hbase
      exact ⟨hworker.symm, .inl rfl⟩
    · cases hbase
      exact ⟨hobserver.symm, .inr rfl⟩
  refine ⟨rfl, hname.1, ?_⟩
  intro checkpointType
  unfold Offers
  cases htypes : r.checkpointTypes with
  | some => exact mem_foldl_insert_empty
  | none =>
    rw [← hname.1]
    rcases hname.2 with rfl | rfl
    · simp [defaultCheckpointTypes, BaseRole.name]
    · simp [defaultCheckpointTypes, BaseRole.name]

theorem resolveRole_isSome {r : RoleDefinition}
    (h : r.extendsRole = "worker" ∨ r.extendsRole = "observer") : ∃ v, resolveRole r = some v := by
  have hbase : ∃ base, extendedBase r = some base := by
    unfold extendedBase
    rcases h with hworker | hobserver
    · exact ⟨.worker, if_pos hworker⟩
    · rw [if_pos hobserver]
      split_ifs
      · exact ⟨_, rfl⟩
      · exact ⟨_, rfl⟩
  obtain ⟨base, hbase⟩ := hbase
  rw [resolveRole, hbase]
  exact ⟨_, rfl⟩

theorem typeTable_eq (d : TaxonomyDefinition) :
    d.typeTable = (d.checkpointTypes.map fun ct => (ct.name, ct.permittedRoles)).foldl
      (fun table p => table.set p.1 (p.2.foldl (fun roles name => insert name roles) ∅))
      (((∅ : Table String (Finset String)).set "artifact" {"worker"}).set "observation"
        {"observer"}) := by
  rw [foldl_map]
  rfl

theorem get_typeTable_of_mem (h : d.Accepted)
    {ct : CheckpointTypeDefinition} (hct : ct ∈ d.checkpointTypes) : d.typeTable.get ct.name =
      some (ct.permittedRoles.foldl (fun roles name => insert name roles) ∅) := by
  rw [typeTable_eq]
  refine get_foldl_set_of_mem ?_ (mem_map.mpr ⟨ct, hct, rfl⟩)
  rw [map_map]
  exact h.typeNames

variable {checkpointType : String}

theorem get_typeTable_of_notMem
    (h : checkpointType ∉ d.checkpointTypes.map (·.name)) : d.typeTable.get checkpointType =
      if checkpointType = "observation" then some {"observer"}
      else if checkpointType = "artifact" then some {"worker"} else none := by
  rw [typeTable_eq, get_foldl_set_of_notMem, get_set, get_set, get_empty]
  rw [map_map]
  exact h

theorem mem_typeTable (h : d.Accepted) : (∃ s, d.typeTable.get checkpointType = some s ∧ role ∈ s) ↔
      (checkpointType = "artifact" ∧ role = "worker") ∨
      (checkpointType = "observation" ∧ role = "observer") ∨
      ∃ ct ∈ d.checkpointTypes, ct.name = checkpointType ∧ role ∈ ct.permittedRoles := by
  by_cases hdefined : checkpointType ∈ d.checkpointTypes.map (·.name)
  · -- the names of definitions are unique and none is a base name
    obtain ⟨ct, hct, rfl⟩ := mem_map.mp hdefined
    have hbase : ct.name ≠ "artifact" ∧ ct.name ≠ "observation" := by
      simpa [baseCheckpointTypes] using h.notBaseType ct hct
    have honly : ∀ ct' ∈ d.checkpointTypes, ct'.name = ct.name → ct' = ct := by
      intro ct' hct' hname
      exact inj_on_of_nodup_map h.typeNames hct' hct hname
    rw [get_typeTable_of_mem h hct]
    constructor
    · rintro ⟨s, hs, hrole⟩
      cases hs
      exact .inr (.inr ⟨ct, hct, rfl, mem_foldl_insert_empty.mp hrole⟩)
    · rintro (⟨hname, -⟩ | ⟨hname, -⟩ | ⟨ct', hct', hname, hrole⟩)
      · exact absurd hname hbase.1
      · exact absurd hname hbase.2
      · rw [honly ct' hct' hname] at hrole
        exact ⟨_, rfl, mem_foldl_insert_empty.mpr hrole⟩
  · have hnone : ¬ ∃ ct ∈ d.checkpointTypes, ct.name = checkpointType ∧
        role ∈ ct.permittedRoles := by
      rintro ⟨ct, hct, rfl, -⟩
      exact hdefined (mem_map_of_mem hct)
    rw [get_typeTable_of_notMem hdefined, or_iff_left hnone]
    by_cases hobservation : checkpointType = "observation"
    · simp [hobservation]
    · by_cases hartifact : checkpointType = "artifact"
      · simp [hartifact]
      · simp [hobservation, hartifact]

end TaxonomyDefinition

namespace Taxonomy

open TaxonomyDefinition

def overrides (order : RoleOrder) : List (String × String) :=
  order.roles.flatMap fun entry => (order.types entry.1).map fun checkpointType =>
    (checkpointType, entry.2.name)

theorem addOverrides_eq (order : RoleOrder) (table : Table String (Finset String)) :
    addOverrides order table =
      (overrides order).foldl (fun table p => table.insertInto p.1 p.2) table := by
  rw [overrides, foldl_flatMap]
  simp only [foldl_map]
  rfl

theorem mem_overrides {order : RoleOrder} {resolved : Table String ResolvedRole}
    (h : order.Visits resolved) {p : String × String} :
    p ∈ overrides order ↔ ∃ name v, resolved.get name = some v ∧ v.name = p.2 ∧
      p.1 ∈ v.checkpointTypes := by
  rw [overrides, mem_flatMap]
  constructor
  · rintro ⟨⟨name, v⟩, hentry, hp⟩
    obtain ⟨checkpointType, htype, rfl⟩ := mem_map.mp hp
    have hget := (h.roles.mem name v).mp hentry
    exact ⟨name, v, hget, rfl, (h.types name v hget checkpointType).mp htype⟩
  · rintro ⟨name, v, hget, hname, htype⟩
    refine ⟨(name, v), (h.roles.mem name v).mpr hget, mem_map.mpr ⟨p.1, ?_, ?_⟩⟩
    · exact (h.types name v hget p.1).mpr htype
    · rw [hname]

structure Loads (order : RoleOrder) (d : TaxonomyDefinition) (taxonomy : Taxonomy) : Prop where
  accepted : d.Accepted
  resolved : resolveRoles d.roles = some taxonomy.resolvedRoles
  rows : taxonomy.envelopePermissions = d.permissionRows
  types : taxonomy.checkpointTypes = addOverrides order d.typeTable

variable {protocolVersion : String}

theorem loads_of_load {order : RoleOrder} {d : TaxonomyDefinition}
    {taxonomy : Taxonomy} (h : load order d protocolVersion = some (.ok taxonomy)) :
    Loads order d taxonomy := by
  unfold load at h
  split at h
  · cases h
  · next hvalid =>
      obtain ⟨resolved, hresolved, heq⟩ := Option.map_eq_some_iff.mp h
      cases heq
      exact ⟨accepted_of_validate hvalid, hresolved, rfl, rfl⟩

variable {order : RoleOrder} {d : TaxonomyDefinition} {taxonomy : Taxonomy}

theorem Loads.get_resolvedRoles (h : Loads order d taxonomy) {name : String} {v : ResolvedRole} :
    taxonomy.resolvedRoles.get name = some v ↔
      ∃ r ∈ d.roles, r.name = name ∧ resolveRole r = some v :=
  get_resolveRoles h.resolved h.accepted.roleNames

theorem Loads.mem_checkpointTypes (h : Loads order d taxonomy)
    (hvisits : order.Visits taxonomy.resolvedRoles) {checkpointType role : String} :
    (∃ s, taxonomy.checkpointTypes.get checkpointType = some s ∧ role ∈ s) ↔
      d.Listed checkpointType role := by
  rw [h.types, addOverrides_eq, mem_foldl_insertInto, mem_typeTable h.accepted,
    mem_overrides hvisits, Listed, or_assoc, or_assoc]
  refine or_congr_right (or_congr_right (or_congr_right ?_))
  constructor
  · rintro ⟨name, v, hget, hname, htype⟩
    obtain ⟨r, hr, -, hresolve⟩ := (h.get_resolvedRoles).mp hget
    obtain ⟨hvname, -, hoffers⟩ := resolveRole_spec hresolve
    exact ⟨r, hr, hvname.symm.trans hname, (hoffers checkpointType).mp htype⟩
  · rintro ⟨r, hr, hname, hoffer⟩
    obtain ⟨v, hv⟩ := resolveRole_isSome (h.accepted.inherits r hr)
    obtain ⟨hvname, -, hoffers⟩ := resolveRole_spec hv
    refine ⟨r.name, v, (h.get_resolvedRoles).mpr ⟨r, hr, rfl, hv⟩, ?_, ?_⟩
    · exact hvname.trans hname
    · exact (hoffers checkpointType).mpr hoffer

theorem Loads.notBase (h : Loads order d taxonomy) {name : String} {v : ResolvedRole}
    (hget : taxonomy.resolvedRoles.get name = some v) : name ∉ baseRoles := by
  obtain ⟨r, hr, rfl, -⟩ := (h.get_resolvedRoles).mp hget
  exact h.accepted.notBaseRole r hr

theorem load_eq_of_visits {order' : RoleOrder}
    (h : load order d protocolVersion = some (.ok taxonomy))
    (hvisits : order.Visits taxonomy.resolvedRoles)
    (hvisits' : order'.Visits taxonomy.resolvedRoles) :
    load order' d protocolVersion = some (.ok taxonomy) := by
  have hsame : ∀ table, addOverrides order' table = addOverrides order table := by
    intro table
    rw [addOverrides_eq, addOverrides_eq]
    apply foldl_insertInto_congr
    intro p
    rw [mem_overrides hvisits, mem_overrides hvisits']
  rw [← h]
  unfold load
  simp [hsame]

end Taxonomy

namespace PermissionEngine

open TaxonomyDefinition

/-! ## The tables of the engine -/

theorem foldl_addRole {l : List (String × ResolvedRole)} (hbase : ∀ p ∈ l, p.1 ∉ baseRoles)
    (sets : Table String (Finset SignalType)) (bases : Table String String) :
    l.foldl addRole (sets, bases) =
      (l.foldl (fun m p => m.set p.1 ((sets.get p.2.base.name).getD ∅)) sets,
        l.foldl (fun m p => m.set p.1 p.2.base.name) bases) := by
  induction l generalizing sets bases with
  | nil => rfl
  | cons p l ih =>
    have hkeep : ∀ b : BaseRole, ∀ set,
        (sets.set p.1 set).get b.name = sets.get b.name := by
      intro b set
      rw [get_set, if_neg]
      intro hname
      apply hbase p mem_cons_self
      rw [← hname]
      cases b <;> decide
    rw [foldl_cons, addRole, ih fun q hq => hbase q (mem_cons_of_mem _ hq)]
    simp [hkeep]

variable {order : RoleOrder} {d : TaxonomyDefinition} {taxonomy : Taxonomy}
  {visited : List (String × ResolvedRole)}

theorem get_foldl_addRole (h : Loads order d taxonomy)
    (hvisited : Enumerates visited taxonomy.resolvedRoles)
    {sets : Table String (Finset SignalType)} {bases : Table String String} {name : String} :
    (visited.foldl addRole (sets, bases)).1.get name =
        ((taxonomy.resolvedRoles.get name).map fun v => (sets.get v.base.name).getD ∅).or
          (sets.get name) ∧
      (visited.foldl addRole (sets, bases)).2.get name =
        ((taxonomy.resolvedRoles.get name).map fun v => v.base.name).or (bases.get name) := by
  have hbase : ∀ p ∈ visited, p.1 ∉ baseRoles := fun p hp =>
    h.notBase ((hvisited.mem p.1 p.2).mp hp)
  rw [foldl_addRole hbase]
  constructor
  · exact hvisited.get_foldl_set (f := fun v : ResolvedRole => (sets.get v.base.name).getD ∅)
  · exact hvisited.get_foldl_set (f := fun v : ResolvedRole => v.base.name)

theorem new_eq_of_enumerates (h : Loads order d taxonomy) {visited' : List (String × ResolvedRole)}
    (hvisited : Enumerates visited taxonomy.resolvedRoles)
    (hvisited' : Enumerates visited' taxonomy.resolvedRoles) :
    new visited' taxonomy = new visited taxonomy := by
  have hsets : (new visited' taxonomy).signalEmitSets = (new visited taxonomy).signalEmitSets := by
    apply ext
    intro name
    exact (get_foldl_addRole h hvisited').1.trans (get_foldl_addRole h hvisited).1.symm
  have hbases : (new visited' taxonomy).roleBases = (new visited taxonomy).roleBases := by
    apply ext
    intro name
    exact (get_foldl_addRole h hvisited').2.trans (get_foldl_addRole h hvisited).2.symm
  unfold new at hsets hbases ⊢
  simp only at hsets hbases ⊢
  rw [hsets, hbases]

theorem get_baseRoleBases {role base : String} :
    baseRoleBases.get role = some base ↔ role ∈ baseRoles ∧ base = role := by
  unfold baseRoleBases baseRoles
  rw [get_set, get_set, get_set, get_empty]
  split_ifs with hobserver hworker hcoordinator
  · simp [hobserver, eq_comm]
  · simp [hworker, eq_comm]
  · simp [hcoordinator, eq_comm]
  · simp [hobserver, hworker, hcoordinator]

theorem get_roleBases (h : Loads order d taxonomy)
    (hvisited : Enumerates visited taxonomy.resolvedRoles) {role base : String} :
    (new visited taxonomy).roleBases.get role = some base ↔ d.BasedOn role base := by
  have hbases : (new visited taxonomy).roleBases.get role =
      ((taxonomy.resolvedRoles.get role).map fun v => v.base.name).or (baseRoleBases.get role) :=
    (get_foldl_addRole h hvisited).2
  rw [hbases, BasedOn]
  cases hget : taxonomy.resolvedRoles.get role with
  | some v =>
    obtain ⟨r, hr, rfl, hresolve⟩ := (h.get_resolvedRoles).mp hget
    have hname := (resolveRole_spec hresolve).2.1
    rw [or_iff_right fun hbase => h.notBase hget hbase.1]
    constructor
    · intro heq
      cases heq
      exact ⟨r, hr, rfl, hname.symm⟩
    · rintro ⟨r', hr', hsame, rfl⟩
      rw [inj_on_of_nodup_map h.accepted.roleNames hr' hr hsame, ← hname]
      rfl
  | none =>
    have hnone : ¬ ∃ r ∈ d.roles, r.name = role ∧ r.extendsRole = base := by
      rintro ⟨r, hr, rfl, -⟩
      obtain ⟨v, hv⟩ := resolveRole_isSome (h.accepted.inherits r hr)
      rw [(h.get_resolvedRoles).mpr ⟨r, hr, rfl, hv⟩] at hget
      cases hget
    rw [or_iff_left hnone]
    exact get_baseRoleBases

theorem mem_permissionMatrix (h : Loads order d taxonomy) {sender envelopeType receiver : String} :
    (sender, envelopeType, receiver) ∈ (new visited taxonomy).permissionMatrix ↔
      d.Row sender envelopeType receiver := by
  rw [← mem_permissionRows, ← h.rows]
  show (sender, envelopeType, receiver) ∈ taxonomy.envelopePermissions.foldl (fun matrix row =>
    insert (row.senderRole, row.envelopeType, row.receiverRole) matrix) ∅ ↔ _
  rw [mem_foldl_insert (f := fun row : EnvelopePermissionRow =>
    (row.senderRole, row.envelopeType, row.receiverRole))]
  constructor
  · rintro (hempty | ⟨row, hrow, heq⟩)
    · cases hempty
    · cases heq
      exact hrow
  · intro hrow
    exact .inr ⟨_, hrow, rfl⟩

/-! ## Queries -/

variable (e : PermissionEngine)

theorem matrixAllows_iff (sender envelopeType receiver : String) :
    e.matrixAllows sender envelopeType receiver ↔
      ∃ s, (s = sender ∨ e.roleBases.get sender = some s) ∧
        ∃ r, (r = receiver ∨ e.roleBases.get receiver = some r) ∧
          (s, envelopeType, r) ∈ e.permissionMatrix := by
  unfold matrixAllows
  cases e.roleBases.get sender with
  | none =>
    cases e.roleBases.get receiver with
    | none | some => simp
  | some =>
    cases e.roleBases.get receiver with
    | none => simp
    | some => simp; tauto

def Holds (holder target : WorkspaceId) : Prop :=
  ∃ right ∈ e.portRights.getList holder, right.target = target ∧
    (right.rightType = .send ∨ right.rightType = .sendOnce)

theorem hasSendRight_iff (holder target : WorkspaceId) :
    e.hasSendRight holder target ↔ e.Holds holder target := by
  unfold hasSendRight Holds getList
  cases e.portRights.get holder <;> simp

theorem evaluate_send_iff (senderRole envelopeType receiverRole : String)
    (sender receiver : WorkspaceId) :
    e.evaluate (.sendEnvelope senderRole envelopeType receiverRole sender receiver .agent) =
        .ok () ↔
      e.matrixAllows senderRole envelopeType receiverRole ∧ e.Holds sender receiver := by
  rw [← hasSendRight_iff, evaluate, checkEnvelopeSend, if_neg (by decide)]
  cases e.matrixAllows senderRole envelopeType receiverRole <;>
    cases e.hasSendRight sender receiver <;> simp

theorem evaluate_create_iff (role checkpointType : String) :
    e.evaluate (.createCheckpoint role checkpointType) = .ok () ↔
      ∃ r, (r = role ∨ e.roleBases.get role = some r) ∧
        ∃ s, e.checkpointTable.get checkpointType = some s ∧ r ∈ s := by
  rw [evaluate, checkCheckpointCreate]
  cases e.checkpointTable.get checkpointType with
  | none => simp
  | some =>
    cases e.roleBases.get role with
    | none => simp
    | some => simpa using or_iff_not_imp_left.symm

/-! ## Rights that come and go -/

inductive RightsOp where
  | grant (right : PortRight)
  | revoke (holder target : WorkspaceId) (rightType : PortRightType)
  | consume (holder target : WorkspaceId)

def applyRights : RightsOp → PermissionEngine
  | .grant right => e.grantPortRight right
  | .revoke holder target rightType => e.revokePortRight holder target rightType
  | .consume holder target => (e.consumeSendOnce holder target).1

theorem tables_foldl_applyRights {ops : List RightsOp} :
    (ops.foldl applyRights e).permissionMatrix = e.permissionMatrix ∧
      (ops.foldl applyRights e).checkpointTable = e.checkpointTable ∧
      (ops.foldl applyRights e).roleBases = e.roleBases := by
  induction ops generalizing e with
  | nil => exact ⟨rfl, rfl, rfl⟩
  | cons op ops ih =>
    obtain ⟨hmatrix, htable, hbases⟩ := ih (e.applyRights op)
    have hstep : (e.applyRights op).permissionMatrix = e.permissionMatrix ∧
        (e.applyRights op).checkpointTable = e.checkpointTable ∧
        (e.applyRights op).roleBases = e.roleBases := by
      cases op with
      | grant | revoke => exact ⟨rfl, rfl, rfl⟩
      | consume =>
        unfold applyRights consumeSendOnce
        dsimp only
        split
        · exact ⟨rfl, rfl, rfl⟩
        · exact ⟨rfl, rfl, rfl⟩
    exact ⟨hmatrix.trans hstep.1, htable.trans hstep.2.1, hbases.trans hstep.2.2⟩

/-- **The engine permits what the definition says**, for every accepted definition, order of the
loops and history of rights. -/
theorem evaluate_iff {protocolVersion : String}
    (hload : load order d protocolVersion = some (.ok taxonomy))
    (hvisits : order.Visits taxonomy.resolvedRoles)
    (hvisited : Enumerates visited taxonomy.resolvedRoles) (ops : List RightsOp) :
    (∀ senderRole envelopeType receiverRole sender receiver,
      (ops.foldl applyRights (new visited taxonomy)).evaluate
          (.sendEnvelope senderRole envelopeType receiverRole sender receiver .agent) = .ok () ↔
        (∃ s, d.ActsAs senderRole s ∧ ∃ r, d.ActsAs receiverRole r ∧ d.Row s envelopeType r) ∧
          (ops.foldl applyRights (new visited taxonomy)).Holds sender receiver) ∧
    (∀ role checkpointType,
      (ops.foldl applyRights (new visited taxonomy)).evaluate
          (.createCheckpoint role checkpointType) = .ok () ↔
        ∃ r, d.ActsAs role r ∧ d.Listed checkpointType r) ∧
    (∀ (order' : RoleOrder) (visited' : List (String × ResolvedRole)),
      order'.Visits taxonomy.resolvedRoles →
      Enumerates visited' taxonomy.resolvedRoles →
        load order' d protocolVersion = some (.ok taxonomy) ∧
          new visited' taxonomy = new visited taxonomy) ∧
    (∀ senderRole envelopeType receiverRole sender receiver,
      envelopeType = "directive" ∨ envelopeType = "feedback" →
      (ops.foldl applyRights (new visited taxonomy)).evaluate
          (.sendEnvelope senderRole envelopeType receiverRole sender receiver .agent) = .ok () →
        senderRole = "coordinator") := by
  have h := loads_of_load hload
  obtain ⟨hmatrix, htable, hbases⟩ := tables_foldl_applyRights (new visited taxonomy)
  have hsend : ∀ senderRole envelopeType receiverRole sender receiver,
      (ops.foldl applyRights (new visited taxonomy)).evaluate
          (.sendEnvelope senderRole envelopeType receiverRole sender receiver .agent) = .ok () ↔
        (∃ s, d.ActsAs senderRole s ∧ ∃ r, d.ActsAs receiverRole r ∧ d.Row s envelopeType r) ∧
          (ops.foldl applyRights (new visited taxonomy)).Holds sender receiver := by
    intro senderRole envelopeType receiverRole sender receiver
    rw [evaluate_send_iff, matrixAllows_iff, hmatrix, hbases]
    simp [get_roleBases h hvisited, mem_permissionMatrix h, ActsAs]
  refine ⟨hsend, ?_, ?_, ?_⟩
  · intro role checkpointType
    rw [evaluate_create_iff, htable, hbases]
    have hlisted : ∀ r, (∃ s, (new visited taxonomy).checkpointTable.get checkpointType = some s ∧
        r ∈ s) ↔ d.Listed checkpointType r := fun r => h.mem_checkpointTypes hvisits
    simp [get_roleBases h hvisited, hlisted, ActsAs]
  · intro order' visited' hvisits' hvisited'
    exact ⟨load_eq_of_visits hload hvisits hvisits', new_eq_of_enumerates h hvisited hvisited'⟩
  · intro senderRole envelopeType receiverRole sender receiver hreserved hok
    obtain ⟨⟨s, hs, r, -, hrow⟩, -⟩ := (hsend _ _ _ _ _).mp hok
    exact h.accepted.coordinator_of_row hreserved hs hrow

def reviewerDefinition : TaxonomyDefinition :=
  { id := "reviews", version := "1.0.0", protocolVersion := "1.0"
    roles := [{ name := "reviewer", extendsRole := "worker", add := []
                remove := ["create: artifact"], checkpointTypes := some ["review"] }]
    envelopeTypes := [{ name := "review_request"
                        permissions := [{ senderRole := "worker", receiverRole := "reviewer" }] }]
    checkpointTypes := [{ name := "review", permittedRoles := ["coordinator"] }] }

def reviewer : ResolvedRole :=
  { name := "reviewer", base := .worker, capabilities := {"send: query → coordinator"}
    checkpointTypes := {"review"} }

def reviewerOrder : RoleOrder := { roles := [("reviewer", reviewer)], types := fun _ => ["review"] }

def reviewerTaxonomy : Taxonomy :=
  { id := "reviews", version := "1.0.0", protocolVersion := "1.0"
    resolvedRoles := (∅ : Table String ResolvedRole).set "reviewer" reviewer
    envelopeTypes := {"review_request", "directive", "feedback", "query"}
    envelopePermissions := reviewerDefinition.permissionRows
    checkpointTypes := addOverrides reviewerOrder reviewerDefinition.typeTable }

theorem load_reviewerDefinition :
    load reviewerOrder reviewerDefinition "1.0" = some (.ok reviewerTaxonomy) := by
  decide

theorem evaluate_iff_reviewer :
    load reviewerOrder reviewerDefinition "1.0" = some (.ok reviewerTaxonomy) ∧
      (new reviewerOrder.roles reviewerTaxonomy).evaluate
        (.createCheckpoint "reviewer" "review") = .ok () ∧
      (([.grant ⟨.send, ⟨"ws-1"⟩, ⟨"ws-0"⟩⟩] : List RightsOp).foldl applyRights
          (new reviewerOrder.roles reviewerTaxonomy)).evaluate
        (.sendEnvelope "reviewer" "query" "coordinator" ⟨"ws-1"⟩ ⟨"ws-0"⟩ .agent) = .ok () := by
  have hvisited : Enumerates reviewerOrder.roles reviewerTaxonomy.resolvedRoles := by
    refine ⟨by simp [reviewerOrder], ?_⟩
    intro name v
    show (name, v) ∈ [("reviewer", reviewer)] ↔
      ((∅ : Table String ResolvedRole).set "reviewer" reviewer).get name = some v
    rw [get_set, get_empty]
    split_ifs with hname
    · simp [hname, eq_comm]
    · simp [hname]
  have hvisits : reviewerOrder.Visits reviewerTaxonomy.resolvedRoles := by
    refine ⟨hvisited, fun name role _ => by simp [reviewerOrder], ?_⟩
    intro name role hget checkpointType
    have hrole := (hvisited.mem name role).mpr hget
    cases mem_singleton.mp hrole
    simp [reviewerOrder, reviewer]
  have hload := load_reviewerDefinition
  refine ⟨hload, ?_, ?_⟩
  · refine ((evaluate_iff hload hvisits hvisited []).2.1 "reviewer" "review").mpr ?_
    refine ⟨"reviewer", .inl rfl, .inr (.inr (.inr ?_))⟩
    exact ⟨_, mem_cons_self, rfl, mem_cons_self⟩
  · refine ((evaluate_iff hload hvisits hvisited _).1 _ _ _ _ _).mpr ⟨?_, ?_⟩
    · refine ⟨"worker", .inr (.inr ⟨_, mem_cons_self, rfl, rfl⟩), "coordinator",
        Or.inl rfl, .inl ?_⟩
      decide
    · exact ⟨⟨.send, ⟨"ws-1"⟩, ⟨"ws-0"⟩⟩, by decide, rfl, .inl rfl⟩

end PermissionEngine

end Wacp
