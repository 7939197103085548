import Wacp.Model.SessionHandlers

/-!
# The console and its recovery at start-up

A crash leaves the rows of the database. At the next start `recovery::run` of
`console-core/src/recovery.rs` goes over the ACTIVE ones, before the server answers any request.
`ConsoleProcess` has the sessions with their components, `Store` what remains of them. In both, `id`
is the primary key.
-/

namespace Wacp.Console

open Library Prog

/-! ## The table of sessions -/

theorem id_exec {c : Call} {o : Outside} {s : SessionData} : (exec c o s).2.row.id = s.row.id :=
  exec_keeps SessionRow.id_moveTo (fun _ _ _ => rfl)

/-- The sessions as the database has them, and `active_sessions`. What `data` says of other ids
has no meaning. -/
structure Store where
  ids : List String
  nodup : ids.Nodup
  data : String → SessionData
  key : ∀ id, (data id).row.id = id

namespace Store

def set (s : Store) (id : String) (d : SessionData) (h : d.row.id = id) : Store where
  ids := s.ids
  nodup := s.nodup
  data := fun id' => if id' = id then d else s.data id'
  key := by
    intro id'
    split_ifs with hid
    · rw [h, hid]
    · exact s.key id'

def active (s : Store) : List SessionRow :=
  (s.ids.map fun id => (s.data id).row).filter fun row => row.state = .active

end Store

inductive StoreCall where
  | listActive
  | on (id : String) (c : Call)

abbrev StoreReply : StoreCall → Type
  | .listActive => Except DbError (List SessionRow)
  | .on _ c => Reply c

abbrev StoreProgram (α : Type) := Prog StoreCall StoreReply α

def Store.execute : (c : StoreCall) → Outside → Store → StoreReply c × Store
  | .listActive, o, s =>
    match o.dbError with
    | some e => (.error e, s)
    | none => (.ok s.active, s)
  | .on id c, o, s =>
    ((exec c o (s.data id)).1, s.set id (exec c o (s.data id)).2 (id_exec.trans (s.key id)))

/-! ## Recovery -/

structure RecoveryReport where
  resumed : List String
  syncedTerminal : List (String × SessionState)
  failed : List (String × RecoveryFailureReason)
  skippedUnavailable : List String
  deriving DecidableEq

namespace RecoveryReport

def default : RecoveryReport := ⟨[], [], [], []⟩

def push (report : RecoveryReport) (id : String) : RecoveryOutcome → RecoveryReport
  | .resumed => { report with resumed := report.resumed ++ [id] }
  | .syncedTerminal state =>
    { report with syncedTerminal := report.syncedTerminal ++ [(id, state)] }
  | .failed reason => { report with failed := report.failed ++ [(id, reason)] }
  | .skippedUnavailable =>
    { report with skippedUnavailable := report.skippedUnavailable ++ [id] }

end RecoveryReport

def onSession {α : Type} (id : String) : Program α → StoreProgram α
  | .ret a => .ret a
  | .call c k => .call (.on id c) fun r => onSession id (k r)

def recoverRows : List SessionRow → RecoveryReport → StoreProgram RecoveryReport
  | [], report => return report
  | row :: rows, report => do
      let outcome ← onSession row.id (recoverOne row)
      recoverRows rows (report.push row.id outcome)

def recovery : StoreProgram RecoveryReport := do
  match ← perform StoreCall.listActive with
  | .error _ => return .default
  | .ok rows => recoverRows rows .default

/-! ## The console -/

theorem Session.id_apply {s t : Session} {label : Session.Label} (h : s.apply label = some t) :
    t.row.id = s.row.id := by
  cases label with
  | call component o =>
    obtain ⟨c, k, -, ht⟩ := Pool.advance_cases h
    rw [ht]
    exact id_exec
  | _ =>
    cases h
    rfl

structure ConsoleProcess where
  ids : List String
  nodup : ids.Nodup
  session : String → Session
  key : ∀ id, (session id).row.id = id

namespace ConsoleProcess

/-- A session is created, a request for one arrives, or one of its components makes a call. -/
inductive Label where
  | create (row : SessionRow) (assignments : List SessionAssignmentRow)
  | launchRequest (id : String) (auth : Auth)
  | cancelRequest (id : String) (auth : Auth) (reason : Option String)
  | call (id : String) (component : ℕ) (o : Outside)

def act (c : ConsoleProcess) (id : String) (label : Session.Label) : Option ConsoleProcess :=
  match h : (c.session id).apply label with
  | none => none
  | some s =>
    if id ∈ c.ids then
      some
        { ids := c.ids
          nodup := c.nodup
          session := fun id' => if id' = id then s else c.session id'
          key := by
            intro id'
            split_ifs with hid
            · rw [Session.id_apply h, c.key id, hid]
            · exact c.key id' }
    else none

def apply (c : ConsoleProcess) : Label → Option ConsoleProcess
  | .create row assignments =>
    if h : row.id ∈ c.ids then none
    else
      some
        { ids := row.id :: c.ids
          nodup := List.nodup_cons.mpr ⟨h, c.nodup⟩
          session := fun id' => if id' = row.id then .new row assignments else c.session id'
          key := by
            intro id'
            split_ifs with hid
            · exact hid.symm
            · exact c.key id' }
  | .launchRequest id auth => c.act id (.launchRequest auth)
  | .cancelRequest id auth reason => c.act id (.cancelRequest auth reason)
  | .call id component o => c.act id (.call component o)

def crash (c : ConsoleProcess) : Store where
  ids := c.ids
  nodup := c.nodup
  data := fun id => (c.session id).crash.shared
  key := c.key

/-- The crash and the recovery at the next start, under what the outside answers to it. -/
def restart (c : ConsoleProcess) (outside : ℕ → Outside) :
    Ended StoreCall StoreReply Store RecoveryReport :=
  recovery.run Store.execute outside c.crash

end ConsoleProcess

end Wacp.Console
