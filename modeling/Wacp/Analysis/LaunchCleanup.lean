import Wacp.Analysis.LaunchAccount

/-!
# Launches that fail

A failed launch should have aborted its workspaces and ended LAUNCHING. It has not where it returns
at once: a read fails, a directive cannot be written, or there is no channel.
-/

namespace Wacp.Console

open Library Prog List Session

/-! ## The property and the condition -/

/-- No longer LAUNCHING, and every created workspace was sent an abort. -/
def Cleaned (s : SessionData) (log : List (Exchange Call Reply)) : Prop :=
  s.row.state ≠ .launching ∧ ∀ w ∈ created log, w ∈ aborted log

/-- Reads were answered, directives written, and channels there when asked for. -/
def Answered (log : List (Exchange Call Reply)) : Prop := ∀ x ∈ log, unanswered x = false

def refusedUpdate : Exchange Call Reply → Bool
  | ⟨.transitionState _ _, r⟩ => !r.isOk
  | _ => false

theorem answered_append {log : List (Exchange Call Reply)} {x : Exchange Call Reply} :
    Answered (log ++ [x]) ↔ Answered log ∧ unanswered x = false := by
  simp [Answered, mem_append, or_imp, forall_and]

/-! ## The row and the answers -/

def Standing (s : SessionData) (log : List (Exchange Call Reply)) : Phase → Prop
  | .loading | .loaded | .building _ _ | .aborting _ => s.row.state = .launching ∧ Answered log
  | .settled => s.row.state ≠ .launching ∧ Answered log
  | .stuck => s.row.state = .launching ∧ ¬ Answered log
  | .leaked => ¬ Answered log
  | .committed => True
  | .fresh _ | .validating => False

section

variable {s : SessionData} {log : List (Exchange Call Reply)} {c : Call} {o : Outside}
  {φ φ' : Phase}

/-- **One exchange of a launch**, unless it is an UPDATE that is refused. -/
theorem standing_step (h : Standing s log φ) (hupdate : refusedUpdate (exchange c o s) = false)
    (hnext : φ.next (exchange c o s) = some φ') :
    Standing (exec c o s).2 (log ++ [exchange c o s]) φ' := by
  have hallows := Phase.allows_of_next hnext
  have hrow : writes (exchange c o s) = false → (exec c o s).2.row = s.row := row_exec
  generalize hx : exchange c o s = x at hupdate hallows hrow ⊢
  have hgoes : writes x = false → unanswered x = false → s.row.state = .launching ∧ Answered log →
      (exec c o s).2.row.state = .launching ∧ Answered (log ++ [x]) := by
    rintro hw ha ⟨hstate, hanswered⟩
    rw [hrow hw]
    exact ⟨hstate, answered_append.mpr ⟨hanswered, ha⟩⟩
  have hstops : unanswered x → ¬ Answered (log ++ [x]) := by
    intro ha hanswered
    rw [(answered_append.mp hanswered).2] at ha
    cases ha
  cases hallows with
  | update hupdates =>
    cases hupdates with
    | markFailed =>
      cases updateResult hx with
      | done hf hmoved =>
        refine ⟨?_, answered_append.mpr ⟨h.2, rfl⟩⟩
        rw [hmoved, s.row.state_moveTo]
        exact SessionState.noConfusion
      | late hf => exact absurd h.1 hf
      | refused => cases hupdate
    | markLeaked => exact fun hanswered => h (answered_append.mp hanswered).1
    | _ => exact h.elim
  | cancel | read | look | abortSeen | check => exact h.elim
  | load | goal | goalRefused | dispatched | rollback | abort => exact hgoes rfl rfl h
  | loadOther row hstate =>
    -- the launcher runs alone, so the row is still LAUNCHING
    rw [eq_row_of_read hx] at hstate
    exact absurd h.1 (hstate s.row rfl)
  | loadRefused => exact ⟨(congrArg _ (hrow rfl)).trans h.1, hstops rfl⟩
  | ask x hplain hp ha => exact hgoes hplain.writes ha h
  | unassigned x hplain hp ha => exact hgoes hplain.writes ha h
  | stop x hplain hp ha => exact ⟨(congrArg _ (hrow hplain.writes)).trans h.1, hstops ha⟩
  | build rootWs own x hplain hp ha => exact hgoes hplain.writes ha h
  | leave rootWs own x hplain hp ha => exact hstops ha
  | commit | monitor => exact trivial

theorem standing_account_step
    (h : (∀ x ∈ log, refusedUpdate x = false) → Standing s log φ ∧ Account log [] φ)
    (hnext : φ.next (exchange c o s) = some φ')
    (hall : ∀ x ∈ log ++ [exchange c o s], refusedUpdate x = false) :
    Standing (exec c o s).2 (log ++ [exchange c o s]) φ' ∧
      Account (log ++ [exchange c o s]) [] φ' := by
  obtain ⟨hstanding, haccount⟩ := h fun x hx => hall x (mem_append_left _ hx)
  have hlast := hall _ (mem_append_right _ mem_cons_self)
  refine ⟨standing_step hstanding hlast hnext, ?_⟩
  obtain hsame | ⟨seen, rfl, -⟩ := account_step haccount (Phase.allows_of_next hnext)
  · exact hsame
  · exact hstanding.elim

end

/-! ## The result -/

theorem standing_of_launch {s : SessionData} (hstate : s.row.state = .launching)
    {sessionId : String} {outside : ℕ → Outside}
    (hupdate : ∀ x ∈ ((launch sessionId).run exec outside s).log, refusedUpdate x = false) :
    ∃ φ, Standing ((launch sessionId).run exec outside s).state
        ((launch sessionId).run exec outside s).log φ ∧
      Account ((launch sessionId).run exec outside s).log [] φ ∧
      LaunchEnds φ ((launch sessionId).run exec outside s).result := by
  have hstart : Standing s [] .loading ∧ Account [] [] .loading :=
    ⟨⟨hstate, fun x hx => by cases hx⟩, rfl, rfl, rfl⟩
  obtain ⟨φ, hφ, hends⟩ := run_keeps
    (fun φ s log => (∀ x ∈ log, refusedUpdate x = false) → Standing s log φ ∧ Account log [] φ)
    (fun φ φ' s log c o h (hnext : φ.next (exchange c o s) = some φ') =>
      standing_account_step h hnext)
    launch_follows outside (fun _ => hstart)
  exact ⟨φ, (hφ hupdate).1, (hφ hupdate).2, hends⟩

/-- **When a failed launch cleans up**, whatever the outside answers, if the UPDATEs are accepted.
-/
theorem launch_cleanup_iff (s : SessionData) (hstate : s.row.state = .launching)
    (sessionId : String) (outside : ℕ → Outside) (err : LaunchError)
    (hresult : ((launch sessionId).run exec outside s).result = .error err)
    (hupdate : ∀ x ∈ ((launch sessionId).run exec outside s).log, refusedUpdate x = false) :
    Cleaned ((launch sessionId).run exec outside s).state
        ((launch sessionId).run exec outside s).log ↔
      Answered ((launch sessionId).run exec outside s).log := by
  obtain ⟨φ, hstanding, haccount, hends⟩ := standing_of_launch hstate hupdate
  rw [hresult] at hends
  obtain rfl | rfl | rfl := hends
  · -- what was created was aborted
    refine iff_of_true ⟨hstanding.1, ?_⟩ hstanding.2
    intro w hw
    rw [haccount.2]
    exact hw
  · -- nothing was aborted
    obtain ⟨hcreated, -, haborted⟩ := haccount
    refine iff_of_false ?_ hstanding
    rintro ⟨-, hall⟩
    rw [haborted] at hall
    obtain ⟨w, hw⟩ := exists_mem_of_ne_nil _ hcreated
    exact absurd (hall w hw) not_mem_nil
  · exact iff_of_false (fun hclean => hclean.1 hstanding.1) hstanding.2

/-! ## Concrete launches -/

namespace LaunchSample

def launching : SessionData :=
  ⟨{ sampleRow with state := .launching }, [sampleAssignment], false⟩

def dispatchRefused (n : ℕ) : Outside :=
  if n = 7 then
    { accepting with
      workspaceId := .error ⟨.unavailable, "unavailable", "shutting down"⟩ }
  else accepting

def channelLost (n : ℕ) : Outside :=
  if n = 8 then { accepting with channel := false } else dispatchRefused n

def profileRefused (n : ℕ) : Outside :=
  if n = 4 then { accepting with dbError := some (.failed "database is locked") }
  else accepting

def launchUnder (outside : ℕ → Outside) :
    Ended Call Reply SessionData (Except LaunchError LaunchOutcome) :=
  (launch "session").run exec outside launching

end LaunchSample

open LaunchSample

theorem launch_cleanup_dispatchRefused :
    (∃ err, (launchUnder dispatchRefused).result = .error err) ∧
      created (launchUnder dispatchRefused).log = ["ws-0"] ∧
      Cleaned (launchUnder dispatchRefused).state (launchUnder dispatchRefused).log := by
  refine ⟨⟨_, rfl⟩, rfl, ?_⟩
  refine (launch_cleanup_iff launching rfl "session" dispatchRefused _ rfl (by decide)).mpr ?_
  show ∀ x ∈ (launchUnder dispatchRefused).log, unanswered x = false
  decide

/-- Without a channel nothing is aborted; where a profile cannot be read the session also stays
LAUNCHING. -/
theorem launch_cleanup_fails : ((∃ err, (launchUnder channelLost).result = .error err) ∧
        (launchUnder channelLost).state.row.state = .failed ∧
        created (launchUnder channelLost).log = ["ws-0"] ∧
        aborted (launchUnder channelLost).log = []) ∧
      (∃ err, (launchUnder profileRefused).result = .error err) ∧
        (launchUnder profileRefused).state.row.state = .launching ∧
        created (launchUnder profileRefused).log = ["ws-0"] ∧
        aborted (launchUnder profileRefused).log = [] :=
  ⟨⟨⟨_, rfl⟩, rfl, rfl, rfl⟩, ⟨_, rfl⟩, rfl, rfl, rfl⟩

end Wacp.Console
