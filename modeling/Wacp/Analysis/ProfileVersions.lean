import Wacp.Library.Runs
import Wacp.Model.ProfileHandlers

/-!
# One current version of every profile

One statement takes `is_current` away and another inserts the new row; a request is `unset` between
the two. If the INSERT is refused there is no current row. Versions have no gap, so an accepted
INSERT is of the version after the highest.
-/

namespace Wacp.Console.Profiles

open Library Prog List Follows

/-! ## Tables -/

/-- Versions start at 1 without a gap, and no row is above a current one. -/
structure ProfileTable.Ordered (t : ProfileTable) : Prop where
  positive : ∀ r ∈ t.rows, 1 ≤ r.version
  below : ∀ r ∈ t.rows, ∀ w, 1 ≤ w → w ≤ r.version → ∃ s ∈ t.rows, s.key = (r.id, w)
  highest : ∀ r ∈ t.rows, r.isCurrent → ∀ s ∈ t.rows, s.id = r.id → s.version ≤ r.version

def ProfileTable.HasCurrent (t : ProfileTable) (id : String) : Prop :=
  ∃ r ∈ t.rows, r.id = id ∧ r.isCurrent

def ProfileTable.NotDeleted (t : ProfileTable) (id : String) : Prop :=
  ∃ r ∈ t.rows, r.id = id ∧ r.deletedAt = none

/-- Exactly one row with `is_current`, that of the highest version. -/
def ProfileTable.OneCurrent (t : ProfileTable) (id : String) : Prop :=
  ∃ r ∈ t.rows, (r.id = id ∧ r.isCurrent) ∧
    (∀ s ∈ t.rows, s.id = id → s.isCurrent → s = r) ∧
    ∀ s ∈ t.rows, s.id = id → s.version ≤ r.version

structure ProfileTable.Proper (t : ProfileTable) : Prop extends t.Ordered where
  current : ∀ r ∈ t.rows, t.HasCurrent r.id

namespace ProfileTable

variable {t t' : ProfileTable} {id : String}

section

variable (h : t.Ordered)
include h

theorem Ordered.oneCurrent (hc : t.HasCurrent id) : t.OneCurrent id := by
  obtain ⟨r, hr, hid, hcur⟩ := hc
  refine ⟨r, hr, ⟨hid, hcur⟩, ?_, fun s hs hsid => h.highest r hr hcur s hs (hsid.trans hid.symm)⟩
  intro s hs hsid hscur
  have hle := h.highest r hr hcur s hs (hsid.trans hid.symm)
  have hge := h.highest s hs hscur r hr (hid.trans hsid.symm)
  refine eq_of_key_eq t.keys hs hr ?_
  exact Prod.ext (hsid.trans hid.symm) (le_antisymm hle hge)

theorem Ordered.lt_of_missing {w : ℤ} (hw : 1 ≤ w) (hmissing : (id, w) ∉ t.rows.map ProfileRow.key)
    {s : ProfileRow} (hs : s ∈ t.rows) (hid : s.id = id) : s.version < w := by
  by_contra hge
  obtain ⟨x, hx, hkey⟩ := h.below s hs w hw (by omega)
  rw [hid] at hkey
  exact hmissing (mem_map.mpr ⟨x, hx, hkey⟩)

theorem Ordered.insert {row : ProfileRow} (hrows : t'.rows = t.rows ++ [row])
    (hmissing : row.key ∉ t.rows.map ProfileRow.key) (hpos : 1 ≤ row.version)
    (hprevious : row.version = 1 ∨ ∃ s ∈ t.rows, s.key = (row.id, row.version - 1))
    (hcurrent : ∀ r ∈ t.rows, r.id = row.id → r.isCurrent = false) : t'.Ordered := by
  have hmem : ∀ r, r ∈ t'.rows ↔ r ∈ t.rows ∨ r = row := by simp [hrows]
  have hlt : ∀ s ∈ t.rows, s.id = row.id → s.version < row.version :=
    fun s hs hid => h.lt_of_missing hpos hmissing hs hid
  refine ⟨?_, ?_, ?_⟩
  · intro r hr
    obtain hr | rfl := (hmem r).mp hr
    · exact h.positive r hr
    · exact hpos
  · intro r hr w hw hle
    obtain hr | rfl := (hmem r).mp hr
    · obtain ⟨s, hs, hkey⟩ := h.below r hr w hw hle
      exact ⟨s, (hmem s).mpr (.inl hs), hkey⟩
    · by_cases heq : w = r.version
      · subst heq
        exact ⟨r, hr, rfl⟩
      · obtain hone | ⟨s, hs, hkey⟩ := hprevious
        · omega
        · obtain ⟨hsid, hsv⟩ := Prod.ext_iff.mp hkey
          have hsv' : s.version = r.version - 1 := hsv
          obtain ⟨x, hx, hxkey⟩ := h.below s hs w hw (by omega)
          have hsid' : s.id = r.id := hsid
          rw [hsid'] at hxkey
          exact ⟨x, (hmem x).mpr (.inl hx), hxkey⟩
  · intro r hr hcur s hs hid
    obtain hr | rfl := (hmem r).mp hr
    · obtain hs | rfl := (hmem s).mp hs
      · exact h.highest r hr hcur s hs hid
      · rw [hcurrent r hr hid.symm] at hcur
        cases hcur
    · obtain hs | rfl := (hmem s).mp hs
      · exact (hlt s hs hid).le
      · exact le_rfl

theorem Ordered.update {p : ProfileRow → Bool} {f : ProfileRow → ProfileRow}
    (hrows : t'.rows = updateWhere p f t.rows) (hkey : ∀ r, (f r).key = r.key)
    (hcur : ∀ r, (f r).isCurrent → r.isCurrent) : t'.Ordered := by
  have hback : ∀ r ∈ t'.rows, ∃ s ∈ t.rows, s.key = r.key ∧
      (r.isCurrent → s.isCurrent) := by
    intro r hr
    rw [hrows] at hr
    obtain ⟨s, hs, -, rfl⟩ | ⟨hs, -⟩ := mem_updateWhere.mp hr
    · exact ⟨s, hs, (hkey s).symm, hcur s⟩
    · exact ⟨r, hs, rfl, id⟩
  have hthere : ∀ k ∈ t.rows.map ProfileRow.key, ∃ s ∈ t'.rows, s.key = k := by
    intro k hk
    rw [← map_updateWhere ProfileRow.key hkey (p := p), ← hrows] at hk
    exact mem_map.mp hk
  refine ⟨?_, ?_, ?_⟩
  · intro r hr
    obtain ⟨s, hs, hk, -⟩ := hback r hr
    have hv : s.version = r.version := congrArg Prod.snd hk
    have hpos := h.positive s hs
    omega
  · intro r hr w hw hle
    obtain ⟨s, hs, hk, -⟩ := hback r hr
    have hid : s.id = r.id := congrArg Prod.fst hk
    have hv : s.version = r.version := congrArg Prod.snd hk
    obtain ⟨x, hx, hxkey⟩ := h.below s hs w hw (by omega)
    rw [hid] at hxkey
    exact hthere _ (mem_map.mpr ⟨x, hx, hxkey⟩)
  · intro r hr hrcur s hs hid
    obtain ⟨r₀, hr₀, hrk, hcur₀⟩ := hback r hr
    obtain ⟨s₀, hs₀, hsk, -⟩ := hback s hs
    have hrid : r₀.id = r.id := congrArg Prod.fst hrk
    have hsid : s₀.id = s.id := congrArg Prod.fst hsk
    have hrv : r₀.version = r.version := congrArg Prod.snd hrk
    have hsv : s₀.version = s.version := congrArg Prod.snd hsk
    have hle := h.highest r₀ hr₀ (hcur₀ hrcur) s₀ hs₀ (by rw [hsid, hid, hrid])
    omega

theorem Ordered.unsetCurrent (id : String) : (t.unsetCurrent id).Ordered :=
  h.update rfl ProfileRow.key_superseded fun _ hcur => by cases hcur

theorem Ordered.softDelete (id now : String) : (t.softDelete id now).Ordered :=
  h.update rfl ProfileRow.key_deleted fun _ hcur => hcur

end

theorem hasCurrent_softDelete {now id' : String} (h : t.HasCurrent id') :
    (t.softDelete id now).HasCurrent id' := by
  obtain ⟨r, hr, hid, hcur⟩ := h
  cases hp : (r.id == id && r.deletedAt.isNone) with
  | true => exact ⟨r.deleted now, mem_updateWhere.mpr (.inl ⟨r, hr, hp, rfl⟩), hid, hcur⟩
  | false => exact ⟨r, mem_updateWhere.mpr (.inr ⟨hr, hp⟩), hid, hcur⟩

theorem hasCurrent_unsetCurrent {id' : String} (h : t.HasCurrent id') (hne : id' ≠ id) :
    (t.unsetCurrent id).HasCurrent id' := by
  obtain ⟨r, hr, hid, hcur⟩ := h
  have hp : (r.id == id && r.isCurrent) = false := by simp [hid, hne]
  exact ⟨r, mem_updateWhere.mpr (.inr ⟨hr, hp⟩), hid, hcur⟩

end ProfileTable

/-! ## The order of calls -/

namespace Edits

inductive Phase where
  | free
  | read (id : String) (v : ℤ)
  | unset (id : String) (v : ℤ)
  deriving DecidableEq

namespace Phase

def settled : Phase → Bool
  | .unset _ _ => false
  | _ => true

def afterRead : Phase → String → Except DbError (Option ProfileRow) → Option Phase
  | .free, id, .ok (some row) => some (.read id row.version)
  | .free, _, _ => some .free
  | _, _, _ => none

def afterUnset : Phase → String → Except DbError Unit → Option Phase
  | .read id v, id', .ok _ => if id' = id then some (.unset id v) else none
  | .read id _, id', .error _ => if id' = id then some .free else none
  | _, _, _ => none

def afterInsert : Phase → ProfileRow → Option Phase
  | .unset id v, row => if row.key = (id, v + 1) ∧ row.isCurrent = true then some .free else none
  | _, row => if row.version = 1 ∧ row.isCurrent = true then some .free else none

def ifSettled (φ : Phase) : Option Phase := if φ.settled then some φ else none

def next (φ : Phase) : Exchange Call Reply → Option Phase
  | ⟨.getCurrent id, r⟩ => φ.afterRead id r
  | ⟨.unsetCurrent id, r⟩ => φ.afterUnset id r
  | ⟨.insertProfile row, _⟩ => φ.afterInsert row
  | _ => φ.ifSettled

end Phase

open Wacp.Console.Profiles.Edits.Phase

abbrev Settles {α : Type} (p : Program α) (φ : Phase) : Prop :=
  p.Follows next (fun ψ _ => ψ.settled) φ

theorem getChecked_follows {check : ProfileRow → Except ProfileError Unit} {id : String} :
    (getChecked check id).Follows next
      (fun φ r => φ.settled ∧ ∀ p, r = .ok p → φ = .read id p.version) .free := by
  refine perform fun r => ?_
  obtain e | _ | profile := r
  · exact ⟨_, rfl, rfl, by simp⟩
  · exact ⟨_, rfl, rfl, by simp⟩
  · refine ⟨_, rfl, rfl, ?_⟩
    intro p hp
    cases hcheck : check profile with
    | error => simp [hcheck, Except.map] at hp
    | ok =>
      simp only [hcheck, Except.map, Except.ok.injEq] at hp
      rw [hp]

variable {fmt : Formats}

theorem validated_follows {input : ProfileInput} {φ : Phase} (hφ : φ.settled) :
    (validated fmt input).Follows next (fun ψ _ => ψ = φ) φ := by
  refine perform fun index => ⟨φ, if_pos hφ, ?_⟩
  refine perform fun nameExists => ⟨φ, if_pos hφ, ?_⟩
  cases validateProfile fmt input index nameExists with
  | none => rfl
  | some =>
    dsimp only
    split_ifs
    · rfl
    · rfl

variable {id : String} {row : ProfileRow}

theorem createNewVersion_settles {v : ℤ} (hkey : row.key = (id, v + 1))
    (hcur : row.isCurrent) : Settles (createNewVersion id row) (.read id v) := by
  refine perform fun r => ?_
  obtain e | _ := r
  · exact ⟨.free, if_pos rfl, rfl⟩
  · refine ⟨.unset id v, if_pos rfl, ?_⟩
    exact fun r => ⟨.free, if_pos ⟨hkey, hcur⟩, rfl⟩

theorem insertFirst_settles {α : Type} {φ : Phase} {f : Except DbError Unit → Program α}
    (hφ : φ.settled) (hversion : row.version = 1) (hcur : row.isCurrent)
    (hf : ∀ r, Settles (f r) .free) : Settles (perform (Call.insertProfile row) >>= f) φ := by
  refine perform fun r => ⟨.free, ?_, hf r⟩
  cases φ with
  | free | read => exact if_pos ⟨hversion, hcur⟩
  | unset => cases hφ

variable {auth : AuthenticatedUser} {body : CreateProfileRequest}

theorem createProfile_settles : Settles (createProfile fmt auth body) .free := by
  unfold createProfile
  cases authorize auth .createProfile with
  | error => rfl
  | ok =>
    refine (validated_follows rfl).bind ?_
    rintro φ (e | warnings) rfl
    · rfl
    · refine perform fun id => ⟨_, rfl, ?_⟩
      refine perform fun now => ⟨_, rfl, ?_⟩
      refine insertFirst_settles rfl rfl rfl ?_
      rintro (e | _)
      · rfl
      · rfl

theorem updateProfile_settles {id : String} : Settles (updateProfile fmt auth id body) .free := by
  refine getChecked_follows.bind ?_
  rintro φ (e | current) ⟨hφ, hread⟩
  · exact hφ
  · refine (validated_follows hφ).bind ?_
    rintro ψ (e | warnings) rfl
    · exact hφ
    · rw [hread current rfl]
      refine perform fun now => ⟨_, rfl, ?_⟩
      refine (createNewVersion_settles rfl rfl).bind ?_
      rintro χ (e | _) hχ
      · exact hχ
      · exact hχ

theorem deleteProfile_settles {id : String} : Settles (deleteProfile auth id) .free := by
  refine getChecked_follows.bind ?_
  rintro φ (e | current) ⟨hφ, -⟩
  · exact hφ
  · refine perform fun now => ⟨φ, if_pos hφ, ?_⟩
    refine perform fun r => ⟨φ, if_pos hφ, ?_⟩
    obtain e | _ := r
    · exact hφ
    · exact perform fun affected => ⟨φ, if_pos hφ, hφ⟩

theorem rollback_settles {id : String} {version : ℤ} :
    Settles (rollback auth id version) .free := by
  refine getChecked_follows.bind ?_
  rintro φ (e | current) ⟨hφ, hread⟩
  · exact hφ
  · rw [hread current rfl]
    refine perform fun r => ⟨_, rfl, ?_⟩
    obtain e | _ | target := r
    · rfl
    · rfl
    · refine perform fun now => ⟨_, rfl, ?_⟩
      refine (createNewVersion_settles rfl rfl).bind ?_
      rintro χ (e | _) hχ
      · exact hχ
      · exact hχ

theorem cloneProfile_settles {id : String} : Settles (cloneProfile fmt auth id) .free := by
  unfold cloneProfile
  cases authorize auth .createProfile with
  | error => rfl
  | ok =>
    refine getChecked_follows.bind ?_
    rintro φ (e | source) ⟨hφ, -⟩
    · exact hφ
    · refine perform fun newId => ⟨φ, if_pos hφ, ?_⟩
      refine perform fun now => ⟨φ, if_pos hφ, ?_⟩
      refine (validated_follows hφ).bind ?_
      rintro ψ (e | warnings) rfl
      · exact hφ
      · refine insertFirst_settles hφ rfl rfl ?_
        rintro (e | _)
        · rfl
        · rfl

theorem program_settles (r : EditRequest) : Settles (r.program fmt auth) .free := by
  cases r with
  | create body => exact createProfile_settles.bind fun _ _ h => h
  | update id body => exact updateProfile_settles.bind fun _ _ h => h
  | rollback id version => exact rollback_settles.bind fun _ _ h => h
  | clone id => exact cloneProfile_settles.bind fun _ _ h => h
  | delete id => exact deleteProfile_settles.bind fun _ _ h => h

/-! ## One step -/

def leavesVersions : Call → Bool
  | .insertProfile _ => false
  | .unsetCurrent _ => false
  | _ => true

inductive Allows : Phase → Exchange Call Reply → Phase → Prop where
  | stay {φ : Phase} {c : Call} (r : Reply c) (hφ : φ.settled)
      (hc : leavesVersions c) : Allows φ ⟨c, r⟩ φ
  | read (id : String) (row : ProfileRow) :
      Allows .free ⟨.getCurrent id, .ok (some row)⟩ (.read id row.version)
  | unset (id : String) (v : ℤ) : Allows (.read id v) ⟨.unsetCurrent id, .ok ()⟩ (.unset id v)
  | unsetFailed (id : String) (v : ℤ) (e : DbError) :
      Allows (.read id v) ⟨.unsetCurrent id, .error e⟩ .free
  | first {φ : Phase} {row : ProfileRow} (r : Except DbError Unit) (hφ : φ.settled)
      (hversion : row.version = 1) (hcur : row.isCurrent) :
      Allows φ ⟨.insertProfile row, r⟩ .free
  | newVersion {id : String} {v : ℤ} {row : ProfileRow} (r : Except DbError Unit)
      (hkey : row.key = (id, v + 1)) (hcur : row.isCurrent) :
      Allows (.unset id v) ⟨.insertProfile row, r⟩ .free

variable {c : Call}

theorem allows_of_ifSettled {φ φ' : Phase} {r : Reply c} (hc : leavesVersions c)
    (h : φ.ifSettled = some φ') : Allows φ ⟨c, r⟩ φ' := by
  unfold ifSettled at h
  split_ifs at h with hφ
  cases h
  exact .stay r hφ hc

theorem allows_of_next {φ φ' : Phase} {x : Exchange Call Reply} (h : φ.next x = some φ') :
    Allows φ x φ' := by
  obtain ⟨c, r⟩ := x
  cases c with
  | getCurrent id =>
    cases φ with
    | free =>
      obtain e | _ | row := r
      · cases h
        exact .stay _ rfl rfl
      · cases h
        exact .stay _ rfl rfl
      · cases h
        exact .read id row
    | read | unset => cases h
  | unsetCurrent id =>
    cases φ with
    | read id' v =>
      obtain e | _ := r
      · simp only [Phase.next, afterUnset] at h
        split_ifs at h with hid
        subst hid
        cases h
        exact .unsetFailed id v e
      · simp only [Phase.next, afterUnset] at h
        split_ifs at h with hid
        subst hid
        cases h
        exact .unset id v
    | free | unset => cases h
  | insertProfile =>
    cases φ with
    | unset =>
      simp only [Phase.next, afterInsert] at h
      split_ifs at h with hrow
      cases h
      exact .newVersion r hrow.1 hrow.2
    | free | read =>
      simp only [Phase.next, afterInsert] at h
      split_ifs at h with hrow
      cases h
      exact .first r rfl hrow.1 hrow.2
  | _ => exact allows_of_ifSettled rfl h

def holds : Phase → ProfileTable → Prop
  | .free, _ => True
  | .read id v, t => (id, v) ∈ t.rows.map ProfileRow.key
  | .unset id v, t =>
    (id, v) ∈ t.rows.map ProfileRow.key ∧ ∀ r ∈ t.rows, r.id = id → r.isCurrent → v < r.version

theorem holds_of_kept {t t' : ProfileTable}
    (hkeys : ∀ k ∈ t.rows.map ProfileRow.key, k ∈ t'.rows.map ProfileRow.key)
    (hcur : ∀ r ∈ t'.rows, r.isCurrent →
      (∃ s ∈ t.rows, s.key = r.key ∧ s.isCurrent) ∨
        ∀ s ∈ t.rows, s.id = r.id → s.version < r.version)
    {ψ : Phase} (h : holds ψ t) : holds ψ t' := by
  cases ψ with
  | free => trivial
  | read => exact hkeys _ h
  | unset id v =>
    obtain ⟨hkey, habove⟩ := h
    refine ⟨hkeys _ hkey, ?_⟩
    intro r hr hid hrcur
    obtain ⟨s, hs, hk, hscur⟩ | hnew := hcur r hr hrcur
    · have hsid : s.id = r.id := congrArg Prod.fst hk
      have hsv : s.version = r.version := congrArg Prod.snd hk
      have hlt := habove s hs (hsid.trans hid) hscur
      omega
    · obtain ⟨s, hs, hk⟩ := mem_map.mp hkey
      have hsid : s.id = id := congrArg Prod.fst hk
      have hsv : s.version = v := congrArg Prod.snd hk
      have hlt := hnew s hs (hsid.trans hid.symm)
      omega

theorem holds_of_update {t t' : ProfileTable} {p : ProfileRow → Bool}
    {f : ProfileRow → ProfileRow} (hrows : t'.rows = updateWhere p f t.rows)
    (hkey : ∀ r, (f r).key = r.key) (hcur : ∀ r, (f r).isCurrent → r.isCurrent)
    {ψ : Phase} (h : holds ψ t) : holds ψ t' := by
  refine holds_of_kept ?_ ?_ h
  · intro k hk
    rw [hrows, map_updateWhere ProfileRow.key hkey]
    exact hk
  · intro r hr hrcur
    rw [hrows] at hr
    obtain ⟨s, hs, -, rfl⟩ | ⟨hs, -⟩ := mem_updateWhere.mp hr
    · exact .inl ⟨s, hs, (hkey s).symm, hcur s hrcur⟩
    · exact .inl ⟨r, hs, rfl, hrcur⟩

structure Moves (φ φ' : Phase) (t t' : ProfileTable) : Prop where
  ordered : t'.Ordered
  own : holds φ' t'
  others : ∀ ψ, holds ψ t → holds ψ t'
  /-- a profile without a current row is the one just unset, or it had none before -/
  covered : ∀ r ∈ t'.rows, t'.HasCurrent r.id ∨ (∃ v, φ' = .unset r.id v) ∨
    ((∃ s ∈ t.rows, s.id = r.id) ∧ ¬ t.HasCurrent r.id ∧ ∀ v, φ ≠ .unset r.id v)

variable {φ φ' : Phase} {t t' : ProfileTable}

theorem ne_unset_of_settled (hφ : φ.settled) {id : String} {v : ℤ} : φ ≠ .unset id v := by
  rintro rfl
  cases hφ

theorem Moves.unchanged (hord : t.Ordered) (hφ : φ.settled) (hown : holds φ' t) :
    Moves φ φ' t t where
  ordered := hord
  own := hown
  others _ h := h
  covered r hr := by
    by_cases hcur : t.HasCurrent r.id
    · exact .inl hcur
    · exact .inr (.inr ⟨⟨r, hr, rfl⟩, hcur, fun v => ne_unset_of_settled hφ⟩)

theorem Moves.softDelete (hord : t.Ordered) (hφ : φ.settled) (hown : holds φ t)
    (id now : String) : Moves φ φ t (t.softDelete id now) := by
  have hkept : ∀ ψ, holds ψ t → holds ψ (t.softDelete id now) := fun ψ h =>
    holds_of_update rfl ProfileRow.key_deleted (fun _ hcur => hcur) h
  refine ⟨hord.softDelete id now, hkept φ hown, hkept, ?_⟩
  intro r hr
  by_cases hcur : t.HasCurrent r.id
  · exact .inl (ProfileTable.hasCurrent_softDelete hcur)
  · refine .inr (.inr ⟨?_, hcur, fun v => ne_unset_of_settled hφ⟩)
    obtain ⟨s, hs, -, rfl⟩ | ⟨hs, -⟩ := mem_updateWhere.mp hr
    · exact ⟨s, hs, rfl⟩
    · exact ⟨r, hs, rfl⟩

theorem Moves.unsetCurrent {v : ℤ} (hord : t.Ordered) (hown : holds (.read id v) t) :
    Moves (.read id v) (.unset id v) t (t.unsetCurrent id) := by
  have hkept : ∀ ψ, holds ψ t → holds ψ (t.unsetCurrent id) := fun ψ h =>
    holds_of_update rfl ProfileRow.key_superseded (fun _ hcur => by cases hcur) h
  refine ⟨hord.unsetCurrent id, ⟨hkept (.read id v) hown, ?_⟩, hkept, ?_⟩
  · intro r hr hid hcur
    obtain ⟨s, -, -, rfl⟩ | ⟨-, hp⟩ := mem_updateWhere.mp hr
    · cases hcur
    · simp [hid, hcur] at hp
  · intro r hr
    by_cases hid : r.id = id
    · exact .inr (.inl ⟨v, by rw [hid]⟩)
    · by_cases hcur : t.HasCurrent r.id
      · exact .inl (ProfileTable.hasCurrent_unsetCurrent hcur hid)
      · refine .inr (.inr ⟨?_, hcur, fun w => ne_unset_of_settled rfl⟩)
        obtain ⟨s, hs, -, rfl⟩ | ⟨hs, -⟩ := mem_updateWhere.mp hr
        · exact ⟨s, hs, rfl⟩
        · exact ⟨r, hs, rfl⟩

theorem Moves.insert (hord : t.Ordered) (hrows : t'.rows = t.rows ++ [row])
    (hmissing : row.key ∉ t.rows.map ProfileRow.key) (hpos : 1 ≤ row.version)
    (hprevious : row.version = 1 ∨ ∃ s ∈ t.rows, s.key = (row.id, row.version - 1))
    (hcurrent : ∀ r ∈ t.rows, r.id = row.id → r.isCurrent = false) (hcur : row.isCurrent)
    (hφ : ∀ id v, φ = .unset id v → id = row.id) : Moves φ .free t t' := by
  have hmem : ∀ r, r ∈ t'.rows ↔ r ∈ t.rows ∨ r = row := by simp [hrows]
  refine ⟨hord.insert hrows hmissing hpos hprevious hcurrent, trivial, ?_, ?_⟩
  · intro ψ h
    refine holds_of_kept ?_ ?_ h
    · intro k hk
      rw [hrows, map_append]
      exact mem_append_left _ hk
    · intro r hr hrcur
      obtain hr | rfl := (hmem r).mp hr
      · exact .inl ⟨r, hr, rfl, hrcur⟩
      · exact .inr fun s hs hid => hord.lt_of_missing hpos hmissing hs hid
  · intro r hr
    by_cases hid : r.id = row.id
    · exact .inl ⟨row, (hmem row).mpr (.inr rfl), hid.symm, hcur⟩
    · obtain hr | rfl := (hmem r).mp hr
      · by_cases hrcur : t.HasCurrent r.id
        · obtain ⟨s, hs, hsid, hscur⟩ := hrcur
          exact .inl ⟨s, (hmem s).mpr (.inl hs), hsid, hscur⟩
        · exact .inr (.inr ⟨⟨r, hr, rfl⟩, hrcur, fun v hv => hid (hφ _ v hv)⟩)
      · exact absurd rfl hid

variable {o : Outside}

theorem exec_of_leavesVersions (hc : leavesVersions c) {t : ProfileTable} :
    (exec c o t).2 = t ∨ ∃ id now, (exec c o t).2 = t.softDelete id now := by
  have hread : ∀ {α : Type} (a : α), (t.statement o a t).2 = t :=
    fun a => keeps_of_tried (t.statement_cases t o a) (· = t) rfl rfl
  cases c with
  | insertProfile | unsetCurrent => cases hc
  | softDelete id now =>
    obtain ⟨e, he⟩ | hok := t.statement_cases (t.softDelete id now) o
      (t.rows.any fun r => r.id == id && r.deletedAt.isNone)
    · exact .inl (by rw [exec, he])
    · exact .inr ⟨id, now, by rw [exec, hok]⟩
  | taxonomy | newId | now => exact .inl rfl
  | _ => exact .inl (hread _)

theorem getCurrent_of_exec (h : (exec (.getCurrent id) o t).1 = .ok (some row)) :
    row ∈ t.rows ∧ row.id = id := by
  have hfind : t.getCurrent id = some row := eq_of_tried (t.statement_cases t o _) h
  have hp := find?_some hfind
  simp only [Bool.and_eq_true, beq_iff_eq] at hp
  exact ⟨mem_of_find?_eq_some hfind, hp.1⟩

def accepted (φ : Phase) (c : Call) (o : Outside) (t : ProfileTable) : Bool :=
  φ.settled || match c with
    | .insertProfile row => (exec (.insertProfile row) o t).1.isOk
    | _ => true

theorem moves_of_allows (hallows : Allows φ ⟨c, (exec c o t).1⟩ φ')
    (hholds : holds φ t) (hord : t.Ordered) (hok : accepted φ c o t) :
    Moves φ φ' t (exec c o t).2 := by
  generalize hr : (exec c o t).1 = r at hallows
  cases hallows with
  | stay _ hφ hc =>
    obtain hsame | ⟨id, now, hdel⟩ := exec_of_leavesVersions hc
    · rw [hsame]
      exact .unchanged hord hφ hholds
    · rw [hdel]
      exact .softDelete hord hφ hholds id now
  | read id row =>
    obtain ⟨hmem, hid⟩ := getCurrent_of_exec hr
    have hsame : (exec (.getCurrent id) o t).2 = t :=
      keeps_of_tried (t.statement_cases t o _) (· = t) rfl rfl
    rw [hsame]
    exact .unchanged hord rfl (mem_map.mpr ⟨row, hmem, Prod.ext hid rfl⟩)
  | unset id =>
    obtain ⟨e, he⟩ | hok := t.statement_cases (t.unsetCurrent id) o ()
    · rw [exec, he] at hr
      cases hr
    · rw [exec, hok]
      exact .unsetCurrent hord hholds
  | unsetFailed id v e =>
    obtain ⟨e, he⟩ | hok := t.statement_cases (t.unsetCurrent id) o ()
    · rw [exec, he]
      exact .unchanged hord rfl trivial
    · rw [exec, hok] at hr
      cases hr
  | @first _ row _ hφ hversion hcur =>
    obtain ⟨e, he⟩ | ⟨t', ht', hrows, hmissing⟩ := t.insert_cases o row
    · rw [exec, he]
      exact .unchanged hord hφ trivial
    · rw [exec, ht']
      refine .insert hord hrows hmissing (by omega) (.inl hversion) ?_ hcur ?_
      · -- a first version that is accepted is that of a profile without rows
        intro s hs hid
        have hlt := hord.lt_of_missing (by omega) hmissing hs hid
        have hpos := hord.positive s hs
        omega
      · rintro id v rfl
        cases hφ
  | @newVersion id v row _ hkey hcur =>
    have hid : row.id = id := congrArg Prod.fst hkey
    have hv : row.version = v + 1 := congrArg Prod.snd hkey
    obtain ⟨hthere, habove⟩ := hholds
    obtain ⟨s, hs, hskey⟩ := mem_map.mp hthere
    have hsv : s.version = v := congrArg Prod.snd hskey
    have hpos := hord.positive s hs
    obtain ⟨e, he⟩ | ⟨t', ht', hrows, hmissing⟩ := t.insert_cases o row
    · -- a refused INSERT would leave the profile without a current row
      simp [accepted, settled, exec, he, Except.isOk, Except.toBool] at hok
    · rw [exec, ht']
      refine .insert hord hrows hmissing (by omega) (.inr ⟨s, hs, ?_⟩) ?_ hcur ?_
      · rw [hskey, hid, hv, add_sub_cancel_right]
      · intro r hr' hrid
        by_contra hne
        have hlt := hord.lt_of_missing (by omega) hmissing hr' hrid
        have hgt := habove r hr' (hrid.trans hid) (by simpa using hne)
        omega
      · rintro id' v' hφ
        cases hφ
        exact hid.symm

/-! ## Every run -/

def insertsAccepted (s : Edits) : Label → Bool
  | .call request o =>
    (s.pending request).all fun c =>
      (s.phase next .free request).all fun φ => accepted φ c o s.shared
  | .request _ _ => true

structure Versioned (s : Edits) : Prop where
  conforms : s.Conforms next .free (fun φ _ => φ.settled)
  relies : s.Relies next .free holds
  ordered : s.shared.Ordered
  covered : ∀ r ∈ s.shared.rows, s.shared.HasCurrent r.id ∨
    ∃ i v, s.phase next .free i = some (.unset r.id v)

theorem versioned_new {t : ProfileTable} (h : t.Proper) : Versioned (new t) where
  conforms := Pool.conforms_of_empty
  relies i φ hφ := by
    cases hφ
    trivial
  ordered := h.toOrdered
  covered r hr := .inl (h.current r hr)

theorem Versioned.step {fmt : Formats} {s s' : Edits} {label : Label} (h : Versioned s)
    (hok : insertsAccepted s label) (hstep : s.Step fmt label s') : Versioned s' := by
  cases label with
  | request auth r =>
    cases hstep
    exact ⟨h.conforms.start (program_settles r), h.relies.start _, h.ordered, h.covered⟩
  | call request o =>
    have hadvance : s.advance exec (fun _ _ => []) request o = some s' := hstep
    obtain ⟨hconforms, c, φ, φ', hadv⟩ := h.conforms.advance (by simp) hadvance
    have haccepted : accepted φ c o s.shared := by
      simpa [insertsAccepted, hadv.pending hadvance, hadv.before] using hok
    have hmoves := moves_of_allows (allows_of_next hadv.allowed) (h.relies _ _ hadv.before)
      h.ordered haccepted
    rw [← hadv.shared] at hmoves
    refine ⟨hconforms, hadv.relies h.relies hmoves.own fun _ ψ _ _ => hmoves.others ψ,
      hmoves.ordered, ?_⟩
    intro r hr
    obtain hcur | ⟨v, hv⟩ | ⟨⟨x, hx, hxid⟩, hnone, hne⟩ := hmoves.covered r hr
    · exact .inl hcur
    · exact .inr ⟨request, v, hv ▸ hadv.after⟩
    · -- somebody else has unset it, and still stands there
      rw [← hxid] at hnone
      obtain hcur | ⟨j, v, hj⟩ := h.covered x hx
      · exact absurd hcur hnone
      · rw [hxid] at hj
        have hji : j ≠ request := by
          rintro rfl
          exact hne v (Option.some.inj (hadv.before.symm.trans hj))
        exact .inr ⟨j, v, (hadv.others j hji).trans hj⟩

def Idle (s : Edits) : Prop := ∀ q ∈ s.processes, ∃ a, q = .ret a

theorem Versioned.hasCurrent {s : Edits} (h : Versioned s) (hidle : Idle s) {r : ProfileRow}
    (hr : r ∈ s.shared.rows) : s.shared.HasCurrent r.id := by
  obtain hcur | ⟨i, v, hi⟩ := h.covered r hr
  · exact hcur
  · by_cases hlt : i < s.processes.length
    · obtain ⟨a, ha⟩ := hidle _ (getElem_mem hlt)
      obtain ⟨φ, hφ, hfollows⟩ := h.conforms.follows i _ (getElem?_eq_getElem hlt)
      rw [ha] at hfollows
      cases hφ.symm.trans hi
      cases hfollows
    · rw [h.conforms.phase_of_length_le (by omega)] at hi
      cases hi

/-- **One current version between requests**, in every run from a proper table in which no INSERT of
a version is refused. -/
theorem one_current_between_requests {fmt : Formats} {t : ProfileTable} {s : Edits}
    (ht : t.Proper) (hrun : Run (Step fmt) (fun s l => insertsAccepted s l) (new t) s)
    (hidle : Idle s) (id : String) (hid : s.shared.NotDeleted id) : s.shared.OneCurrent id := by
  have hversioned : Versioned s :=
    Run.invariant Versioned Versioned.step hrun (versioned_new ht)
  obtain ⟨r, hr, rfl, -⟩ := hid
  exact hversioned.ordered.oneCurrent (hversioned.hasCurrent hidle hr)

/-! ## A profile that is rolled back -/

def sampleRow (version : ℤ) (isCurrent : Bool) : ProfileRow :=
  { id := "p", version := version, name := "reviewer", description := none, tags := none
    roleRef := "worker", llmProvider := "provider", llmModel := "model", llmTemperature := none
    llmMaxTokens := none, autonomy := "assisted", toolAllowlist := none, toolDenylist := none
    budgetMaxCostMicros := none, budgetMaxTokens := none, budgetMaxWallTimeMs := none
    budgetWarningThreshold := none, ownerUserId := "u1", visibility := "private"
    isCurrent := isCurrent, createdAt := "t", deletedAt := none }

def sampleTable : ProfileTable := ⟨[sampleRow 1 true], nodup_singleton _⟩

theorem sampleTable_proper : sampleTable.Proper := by
  have hmem : ∀ r, r ∈ sampleTable.rows ↔ r = sampleRow 1 true := fun r => mem_singleton
  refine ⟨⟨?_, ?_, ?_⟩, ?_⟩
  · intro r hr
    rw [(hmem r).mp hr]
    exact le_rfl
  · intro r hr w hw hle
    rw [(hmem r).mp hr] at hle ⊢
    have hone : w = 1 := le_antisymm hle hw
    exact ⟨sampleRow 1 true, (hmem _).mpr rfl, by rw [hone]; rfl⟩
  · intro r hr _ s hs _
    rw [(hmem r).mp hr, (hmem s).mp hs]
  · intro r hr
    rw [(hmem r).mp hr]
    exact ⟨sampleRow 1 true, (hmem _).mpr rfl, rfl, rfl⟩

def plainFormats : Formats :=
  { strings := fun _ => none, ofStrings := fun _ => "", json := fun _ => none
    float := fun _ => "" }

def willing : Outside :=
  { dbError := none, text := "t", sessions := [], displayName := none, index := ⟨∅, ∅, ∅⟩ }

def rollbackRequest : Label := .request ⟨"u1", "ada", .operator⟩ (.rollback "p" 1)

def calls (requests : List ℕ) : List Label := requests.map fun i => .call i willing

theorem not_oneCurrent_of_rows {t : ProfileTable} {rows : List ProfileRow} (hrows : t.rows = rows)
    (hnone : rows.all (fun r => !r.isCurrent) = true) {id : String} : ¬ t.OneCurrent id := by
  rintro ⟨r, hr, ⟨-, hcur⟩, -⟩
  rw [hrows] at hr
  have hfalse := all_eq_true.mp hnone r hr
  rw [hcur] at hfalse
  cases hfalse

theorem one_current_after_two_rollbacks :
    ∃ s, Run (Step plainFormats) (fun s l => insertsAccepted s l) (new sampleTable) s ∧
      s.shared.rows.length = 3 ∧ s.shared.OneCurrent "p" := by
  have hrun := Run.of_checked insertsAccepted (fun _ _ _ hok => hok)
    (rfl : ([rollbackRequest, rollbackRequest] ++ calls [0, 0, 0, 0, 0, 1, 1, 1, 1, 1]).foldlM
      (fun s l => if insertsAccepted s l then s.apply plainFormats l else none)
      (new sampleTable) = some _)
  refine ⟨_, hrun, rfl, one_current_between_requests sampleTable_proper hrun ?_ "p" ?_⟩
  · intro q hq
    have hq : q ∈ [.ret (), .ret ()] := hq
    exact ⟨(), by simpa using hq⟩
  · exact ⟨sampleRow 3 true, .tail _ (.tail _ mem_cons_self), rfl, rfl⟩

/-- Two requests that read the same version leave no current row; so does a refused INSERT. -/
theorem refused_insert_leaves_no_current : sampleTable.Proper ∧
      (∃ s, Run (Step plainFormats) anyStep (new sampleTable) s ∧ s.processes = [.ret (), .ret ()] ∧
        s.shared.NotDeleted "p" ∧ ¬ s.shared.OneCurrent "p") ∧
      ∃ s, Run (Step plainFormats) anyStep (new sampleTable) s ∧ s.processes = [.ret ()] ∧
        s.shared.NotDeleted "p" ∧ ¬ s.shared.OneCurrent "p" := by
  refine ⟨sampleTable_proper, ?_, ?_⟩
  · exact ⟨_, Run.of_ops (rfl : ([rollbackRequest, rollbackRequest] ++
        calls [0, 0, 0, 1, 1, 1, 0, 0, 1, 1]).foldlM (apply plainFormats) _ = some _), rfl,
      ⟨sampleRow 1 false, mem_cons_self, rfl, rfl⟩, not_oneCurrent_of_rows rfl rfl⟩
  · exact ⟨_, Run.of_ops (rfl : ([rollbackRequest] ++ calls [0, 0, 0, 0] ++
        [Label.call 0 { willing with dbError := some (.failed "disk I/O error") }]).foldlM
          (apply plainFormats) _ = some _), rfl,
      ⟨sampleRow 1 false, mem_cons_self, rfl, rfl⟩, not_oneCurrent_of_rows rfl rfl⟩

end Edits

end Wacp.Console.Profiles
