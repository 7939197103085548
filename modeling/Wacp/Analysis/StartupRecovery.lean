import Wacp.Model.ConsoleRecovery
import Wacp.Analysis.LaunchProtocol

/-!
# Recovery after a crash

Recovery settles the rows that are ACTIVE. What was VALIDATING or LAUNCHING stays so, although the
source has a case for it.
-/

namespace Wacp.Console

open Library Prog List Store Session

/-! ## One session -/

def SessionData.Settled (s : SessionData) : Prop :=
  s.row.state = .configuring ∨ (s.row.state = .active ∧ s.monitored) ∨
    s.row.state.isTerminal

def Outside.Reachable (o : Outside) : Prop :=
  o.channel ∧
    ∀ status, o.view = .error status →
      status.code ≠ .unavailable ∧ status.code ≠ .deadlineExceeded

def refused : Exchange Call Reply → Bool
  | ⟨.transitionState _ _, r⟩ => !r.isOk
  | ⟨.listBySession, r⟩ => !r.isOk
  | _ => false

section

variable {α : Type} {s : SessionData}

/-- The run settles the session exactly if no statement is refused. -/
def SettlesIff (p : Program α) (env : ℕ → Outside) (s : SessionData) : Prop :=
  (p.run exec env s).state.Settled ↔ ∀ x ∈ (p.run exec env s).log, refused x = false

theorem not_settled (hactive : s.row.state = .active) (hmonitored : s.monitored = false) :
    ¬ s.Settled := by
  rintro (h | ⟨-, h⟩ | h)
  · rw [hactive] at h
    cases h
  · rw [hmonitored] at h
    cases h
  · rw [hactive] at h
    cases h

theorem settlesIff_ret (h : s.Settled) {a : α} {env : ℕ → Outside} : SettlesIff (.ret a) env s :=
  iff_of_true h fun x hx => by cases hx

variable {c : Call} {f : Reply c → Program α} {env : ℕ → Outside} {r : Reply c} {s' : SessionData}

theorem settlesIff_call (hexec : exec c (env 0) s = (r, s')) (hr : refused ⟨c, r⟩ = false)
    (h : SettlesIff (f r) (fun n => env (n + 1)) s') : SettlesIff (perform c >>= f) env s := by
  rw [SettlesIff, run_perform hexec]
  simp only [forall_mem_cons, hr, true_and]
  exact h

theorem settlesIff_refused {a : α} (hexec : exec c (env 0) s = (r, s'))
    (hr : refused ⟨c, r⟩) (hf : f r = .ret a) (hs : ¬ s'.Settled) :
    SettlesIff (perform c >>= f) env s := by
  rw [SettlesIff, run_perform hexec, hf]
  refine iff_of_false hs ?_
  intro hall
  rw [hall _ mem_cons_self] at hr
  cases hr

variable (hactive : s.row.state = .active) (hmonitored : s.monitored = false)
include hactive hmonitored

theorem settlesIff_update {t : SessionState} (ht : t.isTerminal) {a : α} {env : ℕ → Outside} :
    SettlesIff (transitionState .active t >>= fun _ => .ret a) env s := by
  have hexec : exec (.transitionState .active t) (env 0) s =
      s.statement (env 0) true (s.withRow (s.row.moveTo t (env 0).now)) := if_pos hactive
  obtain ⟨e, he⟩ | hok :=
    s.statement_cases (s.withRow (s.row.moveTo t (env 0).now)) (env 0) true
  · exact settlesIff_refused (hexec.trans he) rfl rfl (not_settled hactive hmonitored)
  · refine settlesIff_call (hexec.trans hok) rfl (settlesIff_ret (.inr (.inr ?_)))
    rw [SessionData.withRow, s.row.state_moveTo]
    exact ht

theorem settlesIff_resume {coordWs : String} {env : ℕ → Outside} :
    SettlesIff (resume coordWs) env s := by
  have hexec : exec .listBySession (env 0) s = s.statement (env 0) s.assignments s := rfl
  obtain ⟨e, he⟩ | hok := s.statement_cases s (env 0) s.assignments
  · exact settlesIff_refused (hexec.trans he) rfl rfl (not_settled hactive hmonitored)
  · refine settlesIff_call (hexec.trans hok) rfl (settlesIff_call rfl rfl (settlesIff_ret ?_))
    exact .inr (.inl ⟨hactive, rfl⟩)

theorem settlesIff_reconcile {coordWs : String} {view : Except Status (Option WorkspaceState)}
    (hview : ∀ status, view = .error status → status.code ≠ .unavailable ∧ status.code ≠
      .deadlineExceeded) {env : ℕ → Outside} : SettlesIff (reconcile coordWs view) env s := by
  unfold reconcile
  split
  · rename_i status
    obtain ⟨hunavailable, hdeadline⟩ := hview status rfl
    split
    · exact settlesIff_update hactive hmonitored rfl
    · exact absurd ‹_› hunavailable
    · exact absurd ‹_› hdeadline
    · exact settlesIff_update hactive hmonitored rfl
  · exact settlesIff_update hactive hmonitored rfl
  · exact settlesIff_update hactive hmonitored rfl
  · exact settlesIff_resume hactive hmonitored

/-- **One ACTIVE session** is settled exactly if its statements are answered, if the runtime can be
reached. -/
theorem settlesIff_recoverOne {env : ℕ → Outside} (henv : ∀ n, (env n).Reachable) :
    SettlesIff (recoverOne s.row) env s := by
  unfold recoverOne
  cases s.row.coordinatorWorkspaceId with
  | none => exact settlesIff_update hactive hmonitored rfl
  | some coordWs =>
    have hhighway : exec .highway (env 0) s = (true, s) := by
      simp [exec, (henv 0).1]
    refine settlesIff_call hhighway rfl (settlesIff_call rfl rfl ?_)
    exact settlesIff_reconcile hactive hmonitored (henv 1).2

end

/-! ## All of them -/

/-- A statement of recovery that was refused, for one session or all. -/
def storeRefused : Exchange StoreCall StoreReply → Bool
  | ⟨.listActive, r⟩ => !r.isOk
  | ⟨.on _ c, r⟩ => refused ⟨c, r⟩

def onExchange (id : String) (x : Exchange Call Reply) : Exchange StoreCall StoreReply :=
  ⟨.on id x.call, x.reply⟩

theorem run_onSession {α : Type} {id : String} {p : Program α} (env : ℕ → Outside) (s : Store) :
    ((onSession id p).run execute env s).result = (p.run exec env (s.data id)).result ∧
      ((onSession id p).run execute env s).log =
        (p.run exec env (s.data id)).log.map (onExchange id) ∧
      ∀ id', ((onSession id p).run execute env s).state.data id' =
        if id' = id then (p.run exec env (s.data id)).state else s.data id' := by
  induction p generalizing env s with
  | ret =>
    refine ⟨rfl, rfl, ?_⟩
    intro id'
    split_ifs with hid
    · rw [hid]
      rfl
    · rfl
  | call c k ih =>
    obtain ⟨hresult, hlog, hdata⟩ := ih (exec c (env 0) (s.data id)).1 (fun n => env (n + 1))
      (s.set id (exec c (env 0) (s.data id)).2 (id_exec.trans (s.key id)))
    have hself : (s.set id (exec c (env 0) (s.data id)).2
        (id_exec.trans (s.key id))).data id = (exec c (env 0) (s.data id)).2 := if_pos rfl
    rw [hself] at hresult hlog hdata
    refine ⟨hresult, congrArg _ hlog, ?_⟩
    intro id'
    refine (hdata id').trans ?_
    split_ifs with hid
    · rfl
    · exact if_neg hid

section

variable {rows : List SessionRow} (report : RecoveryReport) (env : ℕ → Outside)

/-- **The loop over the rows** does `recover_one` to the sessions of the rows, and nothing to
others. -/
theorem recoverRows_data (s : Store) (hnodup : (rows.map (·.id)).Nodup) (id : String) :
    (id ∉ rows.map (·.id) ∧
        ((recoverRows rows report).run execute env s).state.data id = s.data id) ∨
      ∃ row ∈ rows, row.id = id ∧ ∃ k,
        ((recoverRows rows report).run execute env s).state.data id =
          ((recoverOne row).run exec (fun n => env (k + n)) (s.data id)).state := by
  induction rows generalizing report env s with
  | nil => exact .inl ⟨not_mem_nil, rfl⟩
  | cons row rows ih =>
    obtain ⟨hhead, hrest⟩ := nodup_cons.mp hnodup
    obtain ⟨-, -, hdata⟩ := run_onSession env s
    rw [recoverRows, run_bind]
    generalize (onSession row.id (recoverOne row)).run execute env s = first at hdata ⊢
    obtain ⟨hid, hsame⟩ | ⟨row', hrow', rfl, k, hrun⟩ :=
      ih (report.push row.id first.result) (fun n => env (first.log.length + n)) first.state hrest
    · rw [hdata] at hsame
      by_cases h : id = row.id
      · subst h
        refine .inr ⟨row, mem_cons_self, rfl, 0, ?_⟩
        rw [if_pos rfl] at hsame
        simp only [Nat.zero_add]
        exact hsame
      · rw [if_neg h] at hsame
        exact .inl ⟨by simp [h, hid], hsame⟩
    · have hne : row'.id ≠ row.id := fun h => hhead (mem_map.mpr ⟨row', hrow', h⟩)
      rw [hdata, if_neg hne] at hrun
      refine .inr ⟨row', mem_cons_of_mem _ hrow', rfl, first.log.length + k, ?_⟩
      simp only [Nat.add_assoc]
      exact hrun

theorem recoverRows_settles (henv : ∀ n, (env n).Reachable) {s : Store} (hrows : ∀ row ∈ rows,
    (s.data row.id).row = row ∧ row.state = .active ∧ (s.data row.id).monitored = false)
    (hnodup : (rows.map (·.id)).Nodup) : (∀ row ∈ rows,
        (((recoverRows rows report).run execute env s).state.data row.id).Settled) ↔
      ∀ x ∈ ((recoverRows rows report).run execute env s).log, storeRefused x = false := by
  induction rows generalizing report env s with
  | nil =>
    refine iff_of_true ?_ ?_
    · intro row hrow
      cases hrow
    · intro x hx
      cases hx
  | cons row rows ih =>
    obtain ⟨hhead, hrest⟩ := nodup_cons.mp hnodup
    obtain ⟨hrow, hactive, hmonitored⟩ := hrows row mem_cons_self
    obtain ⟨-, hlog, hdata⟩ := run_onSession env s
    have hone : SettlesIff (recoverOne row) env (s.data row.id) := by
      have h := settlesIff_recoverOne (s := s.data row.id) (by rw [hrow]; exact hactive)
        hmonitored henv
      rw [hrow] at h
      exact h
    unfold SettlesIff at hone
    rw [recoverRows, run_bind]
    generalize (onSession row.id (recoverOne row)).run execute env s = first at hlog hdata ⊢
    -- the rows that follow are as they were, and they leave this one as it is now
    have hiff := ih (report.push row.id first.result) (fun n => env (first.log.length + n))
      (fun n => henv _) (s := first.state) (fun row' hrow' => by
        have hne : row'.id ≠ row.id := fun h => hhead (mem_map.mpr ⟨row', hrow', h⟩)
        rw [hdata, if_neg hne]
        exact hrows row' (mem_cons_of_mem _ hrow')) hrest
    obtain ⟨-, hsame⟩ | ⟨row', hrow', hid, -⟩ := recoverRows_data
      (report.push row.id first.result) (fun n => env (first.log.length + n)) first.state hrest
      row.id
    · rw [forall_mem_cons, hsame, hdata, if_pos rfl, hone, hiff, forall_mem_append,
        hlog, forall_mem_map]
      rfl
    · exact absurd (mem_map.mpr ⟨row', hrow', hid⟩) hhead

end

/-! ## The rows that recovery asks for -/

namespace Store

variable {s : Store}

theorem mem_active {id : String} (hid : id ∈ s.ids) (hactive : (s.data id).row.state = .active) :
    (s.data id).row ∈ s.active :=
  mem_filter.mpr ⟨mem_map_of_mem hid, by simpa using hactive⟩

theorem of_mem_active {row : SessionRow} (h : row ∈ s.active) :
    row.id ∈ s.ids ∧ (s.data row.id).row = row ∧ row.state = .active := by
  obtain ⟨hrow, hactive⟩ := mem_filter.mp h
  obtain ⟨id, hid, rfl⟩ := mem_map.mp hrow
  rw [s.key id]
  exact ⟨hid, rfl, by simpa using hactive⟩

theorem nodup_active (s : Store) : (s.active.map (·.id)).Nodup := by
  have hids : (s.ids.map fun id => (s.data id).row).map (·.id) = s.ids := by
    rw [map_map]
    exact (map_congr_left fun id _ => s.key id).trans (map_id _)
  have hsublist : (s.active.map (·.id)).Sublist s.ids :=
    hids ▸ filter_sublist.map _
  exact hsublist.nodup s.nodup

end Store

/-! ## The result -/

theorem recovery_of_refused {s : Store} {env : ℕ → Outside} {e : DbError}
    (h : (env 0).dbError = some e) :
    recovery.run execute env s = ⟨.default, s, [⟨.listActive, .error e⟩]⟩ := by
  have hexecute : execute .listActive (env 0) s = (.error e, s) := by
    simp [execute, h]
  simp only [recovery, Bind.bind, Prog.bind, perform, run, hexecute]
  rfl

theorem recovery_of_listed {s : Store} {env : ℕ → Outside} (h : (env 0).dbError = none) :
    (recovery.run execute env s).state =
        ((recoverRows s.active .default).run execute (fun n => env (n + 1)) s).state ∧
      (recovery.run execute env s).log = ⟨.listActive, .ok s.active⟩ ::
        ((recoverRows s.active .default).run execute (fun n => env (n + 1)) s).log := by
  have hexecute : execute .listActive (env 0) s = (.ok s.active, s) := by
    simp [execute, h]
  simp only [recovery, Bind.bind, Prog.bind, perform, run, hexecute]
  exact ⟨trivial, trivial⟩

theorem recoveryRun_state {d : SessionData} {env : ℕ → Outside} :
    (recoveryRun.run exec env d).state =
      if (env 0).dbError = none ∧ d.row.state = .active then
        ((recoverOne d.row).run exec (fun n => env (n + 1)) d).state
      else d := by
  cases hdb : (env 0).dbError with
  | some e =>
    have hexec : exec .listActive (env 0) d = (.error e, d) := by
      simp [exec, SessionData.statement, hdb]
    simp only [recoveryRun, listActive, Bind.bind, Prog.bind, perform, run, hexec]
    rfl
  | none =>
    have hexec : exec .listActive (env 0) d =
        (.ok (if d.row.state = .active then [d.row] else []), d) := by
      simp [exec, SessionData.statement, hdb]
    simp only [recoveryRun, listActive, Bind.bind, Prog.bind, perform, run, hexec, true_and]
    split_ifs with hactive
    · have hbind := run_bind exec (recoverOne d.row)
        (fun outcome => recoverEach [] >>= fun outcomes => .ret (outcome :: outcomes))
        (fun n => env (n + 1)) d
      exact congrArg Ended.state hbind
    · rfl

/-- **Recovery, seen from one session**, is the pass of the model of one session. -/
theorem recovery_refines_recoveryRun (s : Store) (env : ℕ → Outside) {id : String}
    (hid : id ∈ s.ids) : ∃ env', (recovery.run execute env s).state.data id =
      (recoveryRun.run exec env' (s.data id)).state := by
  cases hdb : (env 0).dbError with
  | some =>
    refine ⟨env, ?_⟩
    rw [recovery_of_refused hdb, recoveryRun_state, if_neg (by simp [hdb])]
  | none =>
    rw [(recovery_of_listed hdb).1]
    obtain ⟨hnot, hsame⟩ | ⟨row, hrow, rfl, k, hrun⟩ := recoverRows_data .default
      (fun n => env (n + 1)) s s.nodup_active id
    · refine ⟨env, ?_⟩
      rw [hsame, recoveryRun_state, if_neg]
      rintro ⟨-, hactive⟩
      exact hnot (mem_map.mpr ⟨_, mem_active hid hactive, s.key id⟩)
    · -- the answers from where the loop comes to this session
      refine ⟨fun n => if n = 0 then env 0 else env (k + n), ?_⟩
      obtain ⟨-, hdata, hactive⟩ := of_mem_active hrow
      rw [recoveryRun_state, if_pos ⟨hdb, by rw [hdata]; exact hactive⟩, hrun, hdata]
      rfl

namespace ConsoleProcess

/-- **What a restart settles**: after a crash at any point and a recovery that reaches the runtime,
all sessions exactly if none was VALIDATING or LAUNCHING and every statement was answered. -/
theorem restart_settles_iff (c : ConsoleProcess) (outside : ℕ → Outside)
    (hreach : ∀ n, (outside n).Reachable) :
    (∀ id ∈ c.ids, ((c.restart outside).state.data id).Settled) ↔
      (∀ id ∈ c.ids, (c.session id).row.state ≠ .validating ∧
        (c.session id).row.state ≠ .launching) ∧
      ((∃ id ∈ c.ids, (c.session id).row.state = .active) →
        ∀ x ∈ (c.restart outside).log, storeRefused x = false) := by
  -- the components are gone with the crash, the rows are not
  have hrow : ∀ id, (c.crash.data id).row = (c.session id).row := fun id => rfl
  have hmonitored : ∀ id, (c.crash.data id).monitored = false := fun id => rfl
  have hidle : ∀ id, (c.session id).row.state ≠ .active → ((c.crash.data id).Settled ↔
      (c.session id).row.state ≠ .validating ∧ (c.session id).row.state ≠ .launching) := by
    intro id h
    show (c.session id).row.state = .configuring ∨ _ ↔ _
    cases hstate : (c.session id).row.state <;> simp_all [SessionState.isTerminal]
  cases hdb : (outside 0).dbError with
  | some =>
    rw [restart, recovery_of_refused hdb]
    constructor
    · intro hall
      have hactive : ∀ id ∈ c.ids, (c.session id).row.state ≠ .active := fun id hid h =>
        not_settled (s := c.crash.data id) h (hmonitored id) (hall id hid)
      refine ⟨?_, ?_⟩
      · intro id hid
        exact (hidle id (hactive id hid)).mp (hall id hid)
      · rintro ⟨id, hid, h⟩
        exact absurd h (hactive id hid)
    · rintro ⟨hall, hanswered⟩ id hid
      refine (hidle id ?_).mpr (hall id hid)
      intro h
      cases hanswered ⟨id, hid, h⟩ _ mem_cons_self
  | none =>
    have hlisted := recovery_of_listed (s := c.crash) hdb
    obtain ⟨hstate, hlog⟩ : (c.restart outside).state = _ ∧ (c.restart outside).log = _ := hlisted
    have hiff := recoverRows_settles .default (fun n => outside (n + 1))
      (fun n => hreach (n + 1)) (fun row hmem =>
        ⟨(of_mem_active hmem).2.1, (of_mem_active hmem).2.2, hmonitored row.id⟩)
      c.crash.nodup_active
    have hkept : ∀ id ∈ c.ids, (c.session id).row.state ≠ .active →
        (c.restart outside).state.data id = c.crash.data id := by
      intro id hid h
      rw [hstate]
      obtain ⟨-, hsame⟩ | ⟨row, hlisted, rfl, -⟩ := recoverRows_data .default
        (fun n => outside (n + 1)) c.crash c.crash.nodup_active id
      · exact hsame
      · obtain ⟨-, hsame, hactive⟩ := of_mem_active hlisted
        rw [← hrow, hsame] at h
        exact absurd hactive h
    rw [← hstate] at hiff
    have hanswered : (∀ x ∈ (c.restart outside).log, storeRefused x = false) ↔
        ∀ row ∈ c.crash.active, ((c.restart outside).state.data row.id).Settled := by
      rw [hiff, hlog, forall_mem_cons]
      exact and_iff_right rfl
    rw [hanswered]
    constructor
    · intro hall
      refine ⟨?_, fun _ row hmem => hall row.id (of_mem_active hmem).1⟩
      intro id hid
      by_cases hactive : (c.session id).row.state = .active
      · rw [hactive]
        exact ⟨SessionState.noConfusion, SessionState.noConfusion⟩
      · have hsettled := hall id hid
        rw [hkept id hid hactive] at hsettled
        exact (hidle id hactive).mp hsettled
    · rintro ⟨hall, hrows⟩ id hid
      by_cases hactive : (c.session id).row.state = .active
      · have hsettled := hrows ⟨id, hid, hactive⟩ _ (mem_active hid hactive)
        rw [c.crash.key id] at hsettled
        exact hsettled
      · rw [hkept id hid hactive]
        exact (hidle id hactive).mpr (hall id hid)

/-! ## The sessions of a console -/

def SessionsReached (c : ConsoleProcess) : Prop :=
  ∀ id ∈ c.ids, ∃ row assignments,
    Run Step anyStep (new row assignments) (c.session id)

theorem SessionsReached.act {c c' : ConsoleProcess} (hc : c.SessionsReached) {id : String}
    (label : Session.Label) (h : c.act id label = some c') : c'.SessionsReached := by
  unfold ConsoleProcess.act at h
  split at h
  · cases h
  · rename_i s hs
    split_ifs at h with hid
    cases h
    intro id' hid'
    dsimp only
    split_ifs with heq
    · obtain ⟨row, assignments, hrun⟩ := hc id hid
      exact ⟨row, assignments, hrun.tail label trivial hs⟩
    · exact hc id' hid'

/-- **What a console does to a session is a run of the session**, also up to a crash. -/
theorem sessionsReached_of_run {c₀ c : ConsoleProcess} (hnone : c₀.ids = [])
    (hrun : Run (fun c label c' => c.apply label = some c') anyStep c₀ c) : c.SessionsReached := by
  refine hrun.invariant SessionsReached ?_ ?_
  · intro c label c' hc _ hstep
    cases label with
    | create row assignments =>
      simp only [ConsoleProcess.apply] at hstep
      split_ifs at hstep with hid
      cases hstep
      intro id' hid'
      dsimp only
      split_ifs with heq
      · exact ⟨row, assignments, Run.refl _⟩
      · exact hc id' ((mem_cons.mp hid').resolve_left heq)
    | launchRequest id auth => exact hc.act (.launchRequest auth) hstep
    | cancelRequest id auth reason => exact hc.act (.cancelRequest auth reason) hstep
    | call id component o => exact hc.act (.call component o) hstep
  · intro id hid
    rw [hnone] at hid
    cases hid

/-! ## Concrete crashes -/

def noSessions : ConsoleProcess :=
  ⟨[], nodup_nil, fun id => .new { sampleRow with id := id } [], fun _ => rfl⟩

def launchOf (n : ℕ) : List Label :=
  [.create sampleRow [sampleAssignment],
    .launchRequest "session" sampleAuth] ++
    List.replicate n (.call "session" 0 accepting)

theorem restart_settles_active : ∃ c, (launchOf 14).foldlM apply noSessions = some c ∧
      ((c.restart fun _ => accepting).state.data "session").row.state = .active ∧
      ∀ id ∈ c.ids, ((c.restart fun _ => accepting).state.data id).Settled := by
  refine ⟨_, rfl, rfl, (restart_settles_iff _ (fun _ => accepting) ?_).mpr ⟨by decide, ?_⟩⟩
  · exact fun _ => ⟨rfl, fun status h => by cases h⟩
  · intro _
    decide

theorem recovery_refines_launched : ∃ c, (launchOf 14).foldlM apply noSessions = some c ∧
    ∃ env, (recovery.run execute (fun _ => accepting) c.crash).state.data "session" =
      (recoveryRun.run exec env (c.crash.data "session")).state :=
  ⟨_, rfl, recovery_refines_recoveryRun _ _ (by decide)⟩

/-- A crash after the UPDATE to validating, or after the goal: the session stays as it was. -/
theorem restart_leaves_launching : (∃ c, (launchOf 2).foldlM apply noSessions = some c ∧
        ((c.restart fun _ => accepting).state.data "session").row.state = .validating) ∧
      ∃ c, (launchOf 8).foldlM apply noSessions = some c ∧
        ((c.restart fun _ => accepting).state.data "session").row.state = .launching :=
  ⟨⟨_, rfl, rfl⟩, _, rfl, rfl⟩

end ConsoleProcess

end Wacp.Console
