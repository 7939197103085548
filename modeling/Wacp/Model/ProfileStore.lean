import Mathlib.Data.List.Sort
import Wacp.Library.Rows
import Wacp.Model.ProfileValidation

/-!
# Profiles of the console: rows and calls

The table `profiles` (`migrations/005_profiles.sql`) and its statements
(`console-db/src/queries/profiles.rs`). A profile is all rows with one id, one for every version. A
statement fails and changes nothing, or is carried out on the rows of that moment. `Outside` may be
different at every call; the foreign key to `users` is a reason to refuse an INSERT.
-/

namespace Wacp.Console.Profiles

open Library List

/-! ## Rows -/

structure ProfileRow extends Wacp.Console.ProfileRow where
  id : String
  version : ℤ
  name : String
  (description tags : Option String)
  roleRef : String
  (budgetMaxCostMicros budgetMaxTokens budgetMaxWallTimeMs : Option ℤ)
  (ownerUserId visibility : String)
  isCurrent : Bool
  createdAt : String
  deletedAt : Option String

namespace ProfileRow

variable (row : ProfileRow)

def key : String × ℤ := (row.id, row.version)

def isLive : Bool := row.isCurrent && row.deletedAt.isNone

def meetsChecks : Bool :=
  ["autonomous", "assisted", "supervised"].contains row.autonomy &&
    ["private", "shared"].contains row.visibility &&
    row.budgetWarningThreshold.all fun th => decide (0.0 ≤ th ∧ th ≤ 1.0)

def superseded : ProfileRow := { row with isCurrent := false }

def deleted (now : String) (row : ProfileRow) : ProfileRow := { row with deletedAt := some now }

theorem key_superseded : row.superseded.key = row.key := rfl

theorem key_deleted {now : String} (row : ProfileRow) : (row.deleted now).key = row.key := rfl

end ProfileRow

/-- `LIKE` of SQLite: a percent sign stands for any text, an underscore for any character, and the
case of ASCII letters does not count. -/
def like : List Char → List Char → Bool
  | [], s => s.isEmpty
  | p :: ps, s =>
    if p = '%' then s.tails.any (like ps)
    else
      match s with
      | [] => false
      | c :: cs => (p == '_' || p.toLower == c.toLower) && like ps cs

structure ListQuery where
  viewerUserId : String
  isAdmin : Bool
  (roleRef search : Option String)
  limit : ℤ
  afterCursor : Option String
  deriving DecidableEq

namespace ListQuery

variable (q : ListQuery) (row : ProfileRow)

def visible : Bool :=
  q.isAdmin || row.ownerUserId == q.viewerUserId || row.visibility == "shared"

def found : Bool :=
  q.search.all fun text =>
    let pattern := '%' :: text.toList ++ ['%']
    like pattern row.name.toList || row.description.any fun d => like pattern d.toList

def selects : Bool :=
  row.isLive && q.visible row && q.roleRef.all (row.roleRef == ·) && q.found row &&
    q.afterCursor.all fun cursor => decide (cursor < row.name)

def limited (rows : List ProfileRow) : List ProfileRow :=
  if q.limit < 0 then rows else rows.take q.limit.toNat

end ListQuery

/-! ## The table -/

structure ProfileTable where
  rows : List ProfileRow
  keys : (rows.map ProfileRow.key).Nodup

namespace ProfileTable

variable (t : ProfileTable) (id : String)

def getCurrent : Option ProfileRow :=
  t.rows.find? fun r => r.id == id && r.isLive

def getVersion (version : ℤ) : Option ProfileRow :=
  t.rows.find? fun r => r.key = (id, version)

def listVisible (q : ListQuery) : List ProfileRow :=
  q.limited ((t.rows.filter q.selects).insertionSort fun a b => a.name ≤ b.name)

def listVersions : List ProfileRow :=
  (t.rows.filter fun r => r.id == id).insertionSort fun a b => b.version ≤ a.version

def nameExistsForUser (name ownerUserId : String) (excludeId : Option String) : Bool :=
  t.rows.any fun r =>
    r.name == name && r.ownerUserId == ownerUserId && r.isLive && excludeId.all (r.id != ·)

def insertProfile (row : ProfileRow) : Except DbError ProfileTable :=
  if !row.meetsChecks then .error (.failed "CHECK constraint failed: profiles")
  else if h : row.key ∈ t.rows.map ProfileRow.key then
    .error (.failed "UNIQUE constraint failed: profiles.id, profiles.version")
  else .ok
    { rows := t.rows ++ [row]
      keys := by
        rw [map_append, nodup_append]
        refine ⟨t.keys, by simp, ?_⟩
        rintro a ha b hb rfl
        exact h (by simpa [mem_singleton.mp hb] using ha) }

def unsetCurrent : ProfileTable where
  rows := updateWhere (fun r => r.id == id && r.isCurrent) ProfileRow.superseded t.rows
  keys := by
    rw [map_updateWhere _ ProfileRow.key_superseded]
    exact t.keys

def softDelete (now : String) : ProfileTable where
  rows := updateWhere (fun r => r.id == id && r.deletedAt.isNone) (ProfileRow.deleted now) t.rows
  keys := by
    rw [map_updateWhere _ ProfileRow.key_deleted]
    exact t.keys

end ProfileTable

/-! ## Calls -/

inductive Call where
  | getCurrent (id : String)
  | getVersion (id : String) (version : ℤ)
  | listVisible (q : ListQuery)
  | listVersions (id : String)
  | nameExistsForUser (name ownerUserId : String) (excludeId : Option String)
  | insertProfile (row : ProfileRow)
  | unsetCurrent (id : String)
  | softDelete (id now : String)
  | findActiveSessionsForProfile (id : String)
  | displayName (userId : String)
  | taxonomy
  | newId
  | now

abbrev Reply : Call → Type
  | .getCurrent _ => Except DbError (Option ProfileRow)
  | .getVersion _ _ => Except DbError (Option ProfileRow)
  | .listVisible _ => Except DbError (List ProfileRow)
  | .listVersions _ => Except DbError (List ProfileRow)
  | .nameExistsForUser _ _ _ => Except DbError Bool
  | .insertProfile _ => Except DbError Unit
  | .unsetCurrent _ => Except DbError Unit
  | .softDelete _ _ => Except DbError Bool
  | .findActiveSessionsForProfile _ => Except DbError (List String)
  | .displayName _ => Except DbError (Option String)
  | .taxonomy => TaxonomyIndex
  | .newId => String
  | .now => String

abbrev Program (α : Type) := Prog Call Reply α

structure Outside where
  dbError : Option DbError
  text : String
  sessions : List String
  displayName : Option String
  index : TaxonomyIndex

def ProfileTable.statement {α : Type} (t : ProfileTable) (o : Outside) (result : α)
    (t' : ProfileTable) : Except DbError α × ProfileTable :=
  match o.dbError with
  | some e => (.error e, t)
  | none => (.ok result, t')

def ProfileTable.insert (t : ProfileTable) (o : Outside)
    (inserted : Except DbError ProfileTable) : Except DbError Unit × ProfileTable :=
  match o.dbError, inserted with
  | some e, _ => (.error e, t)
  | none, .error e => (.error e, t)
  | none, .ok t' => (.ok (), t')

def exec : (c : Call) → Outside → ProfileTable → Reply c × ProfileTable
  | .getCurrent id, o, t => t.statement o (t.getCurrent id) t
  | .getVersion id version, o, t => t.statement o (t.getVersion id version) t
  | .listVisible q, o, t => t.statement o (t.listVisible q) t
  | .listVersions id, o, t => t.statement o (t.listVersions id) t
  | .nameExistsForUser name ownerUserId excludeId, o, t =>
    t.statement o (t.nameExistsForUser name ownerUserId excludeId) t
  | .insertProfile row, o, t => t.insert o (t.insertProfile row)
  | .unsetCurrent id, o, t => t.statement o () (t.unsetCurrent id)
  | .softDelete id now, o, t =>
    t.statement o (t.rows.any fun r => r.id == id && r.deletedAt.isNone) (t.softDelete id now)
  | .findActiveSessionsForProfile _, o, t => t.statement o o.sessions t
  | .displayName _, o, t => t.statement o o.displayName t
  | .taxonomy, o, t => (o.index, t)
  | .newId, o, t => (o.text, t)
  | .now, o, t => (o.text, t)

theorem ProfileTable.statement_cases {α : Type} (t t' : ProfileTable) (o : Outside) (a : α) :
    (∃ e, t.statement o a t' = (.error e, t)) ∨ t.statement o a t' = (.ok a, t') := by
  unfold ProfileTable.statement
  cases o.dbError with
  | some e => exact .inl ⟨e, rfl⟩
  | none => exact .inr rfl

theorem ProfileTable.insert_cases (t : ProfileTable) (o : Outside) (row : ProfileRow) :
    (∃ e, t.insert o (t.insertProfile row) = (.error e, t)) ∨
      ∃ t', t.insert o (t.insertProfile row) = (.ok (), t') ∧ t'.rows = t.rows ++ [row] ∧
        row.key ∉ t.rows.map ProfileRow.key := by
  unfold ProfileTable.insert ProfileTable.insertProfile
  cases o.dbError with
  | some e => exact .inl ⟨e, rfl⟩
  | none =>
    split_ifs with hchecks hkey
    · exact .inl ⟨_, rfl⟩
    · exact .inl ⟨_, rfl⟩
    · exact .inr ⟨_, rfl, rfl, hkey⟩

end Wacp.Console.Profiles
