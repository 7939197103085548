import Wacp.Analysis.LaunchProtocol

/-!
# Launch requests for the same session

The handler does not look at whether its UPDATE to validating found the row. While none comes too
late, at most one request is between this UPDATE and the goal (`Turns`).
-/

namespace Wacp.Console

open Library Prog List SessionState Phase

/-! ## Turns -/

def lateUpdate : Exchange Call Reply → Bool
  | ⟨.transitionState .configuring .validating, .ok b⟩ => !b
  | _ => false

def isUpdate : Exchange Call Reply → Bool
  | ⟨.transitionState _ _, _⟩ => true
  | _ => false

def Phase.holds : Phase → Bool
  | .validating | .loading | .loaded => true
  | _ => false

/-- Neither CONFIGURING nor VALIDATING: no request can begin or go on. -/
def SessionState.Past (f : SessionState) : Prop := f ≠ .configuring ∧ f ≠ .validating

def Phase.Needs (f : SessionState) : Phase → Prop
  | .validating => f = .validating ∨ f.isTerminal
  | .loading | .loaded => f.Past
  | _ => True

def SessionState.Ahead (f f' : SessionState) : Prop :=
  f' = f ∨ f'.isTerminal ∨ (f = .launching ∧ f' = .active)

/-- What a call does to phase and state, and whether it submits the goal. -/
inductive Turn : Phase → Phase → SessionState → SessionState → Bool → Prop where
  | take (seen : List String) : Turn (.fresh seen) .validating .configuring .validating false
  | giveBack (f f' : SessionState) : Turn .validating .settled f f' false
  | proceed (f f' : SessionState) (h : f' = if f = .validating then .launching else f) :
      Turn .validating .loading f f' false
  | submit (φ' : Phase) (f : SessionState) (h : φ'.holds = false) : Turn .loaded φ' f f true
  | other (φ φ' : Phase) (f f' : SessionState)
      (hφ : φ'.holds → φ.holds ∧ ∀ f, φ.Needs f → φ'.Needs f)
      (hf : f.Ahead f') : Turn φ φ' f f' false

variable {f f' : SessionState}

theorem Turn.idle {φ φ' : Phase} (hφ' : φ'.holds = false)
    (hf : f.Ahead f') : Turn φ φ' f f' false := by
  refine .other φ φ' f f' (fun hholds => ?_) hf
  rw [hφ'] at hholds
  cases hholds

theorem SessionState.past_of_isTerminal (h : f.isTerminal) : f.Past := by
  cases f <;> simp_all [isTerminal, Past]

theorem SessionState.Past.ahead (h : f.Past) (hf : f.Ahead f') : f'.Past := by
  obtain rfl | hterminal | ⟨-, rfl⟩ := hf
  · exact h
  · exact past_of_isTerminal hterminal
  · exact ⟨noConfusion, noConfusion⟩

theorem Phase.Needs.ahead {φ : Phase} (h : φ.Needs f) (hf : f.Ahead f') : φ.Needs f' := by
  cases φ with
  | validating =>
    obtain rfl | hterminal | ⟨rfl, rfl⟩ := hf
    · exact h
    · exact .inr hterminal
    · obtain h | h := h <;> cases h
  | loading | loaded => exact Past.ahead h hf
  | _ => exact trivial

theorem Phase.needs_of_not_holds {φ : Phase} (h : φ.holds = false) {f : SessionState} :
    φ.Needs f := by
  cases φ <;> first | exact trivial | cases h

theorem Phase.not_holds_of_needs {φ : Phase} (h : φ.Needs .configuring) : φ.holds = false := by
  cases φ with
  | validating => obtain h | h := h <;> cases h
  | loading | loaded => exact absurd rfl h.1
  | _ => rfl

section

variable {c : Call} {o : Outside} {s : SessionData}

theorem Plain.not_update {x : Exchange Call Reply} (h : Plain x) : isUpdate x = false := by
  obtain ⟨c, r⟩ := x
  cases c with
  | transitionState => cases h.writes
  | _ => rfl

theorem ahead_of_not_update (hc : isUpdate (exchange c o s) = false) :
    s.row.state.Ahead (exec c o s).2.row.state := by
  obtain hrow | hchange := exec_row_cases
  · exact .inl (by rw [hrow])
  · generalize exchange c o s = x at hchange hc
    generalize (exec c o s).2.row = row' at hchange ⊢
    cases hchange with
    | transition => cases hc
    | cancel hlive hrow =>
      rw [hrow, s.row.state_moveTo]
      exact .inr (.inl rfl)
    | finalize rootWs launched hf hrow =>
      rw [hrow]
      exact .inr (.inr ⟨hf, rfl⟩)

variable {r : Except DbError Bool}

theorem ahead_of_updateResult {f t : SessionState} {row' : SessionRow} {now : String}
    (ht : t.isTerminal) (h : UpdateResult s f t now row' r) : s.row.state.Ahead row'.state := by
  cases h with
  | done hf hrow =>
    rw [hrow, s.row.state_moveTo]
    exact .inr (.inl ht)
  | late _ hrow | refused _ hrow => exact .inl (by rw [hrow])

theorem turn_of_updates {φ φ' : Phase} {f t : SessionState} {row' : SessionRow} {now : String}
    (hlate : lateUpdate ⟨.transitionState f t, r⟩ = false)
    (hupdates : Updates φ f t r φ') (h : UpdateResult s f t now row' r) :
    Turn φ φ' s.row.state row'.state false := by
  cases hupdates with
  | take seen =>
    cases h with
    | done hf hrow =>
      rw [hrow, s.row.state_moveTo, hf]
      exact .take seen
    | late => cases hlate
  | takeRefused seen e =>
    cases h with
    | refused e hrow =>
      rw [hrow]
      exact Turn.idle rfl (.inl rfl)
  | complete | fail | markFailed | markLeaked => exact Turn.idle rfl (ahead_of_updateResult rfl h)
  | giveBack => exact .giveBack _ _
  | proceed =>
    refine .proceed _ _ ?_
    cases h with
    | done hf hrow => rw [hrow, s.row.state_moveTo, if_pos hf]
    | late hf hrow => rw [hrow, if_neg hf]
  | proceedRefused e =>
    cases h with
    | refused e hrow =>
      rw [hrow]
      exact Turn.idle rfl (.inl rfl)

/-- **What one call does to the turns**, unless it is a late UPDATE. -/
theorem turn_of_next {φ φ' : Phase} (hlate : lateUpdate (exchange c o s) = false)
    (hnext : φ.next (exchange c o s) = some φ') :
    Turn φ φ' s.row.state (exec c o s).2.row.state (isGoal (exchange c o s)) := by
  have hallows := allows_of_next hnext
  have hahead := ahead_of_not_update (c := c) (o := o) (s := s)
  have hrow : writes (exchange c o s) = false → (exec c o s).2.row = s.row := row_exec
  have hidle : ∀ {ψ ψ' : Phase} {b : Bool}, b = false → ψ'.holds = false →
      isUpdate (exchange c o s) = false →
      Turn ψ ψ' s.row.state (exec c o s).2.row.state b := by
    rintro ψ ψ' b rfl hψ hc
    exact Turn.idle hψ (hahead hc)
  generalize hx : exchange c o s = x at hlate hallows hahead hrow hidle ⊢
  cases hallows with
  | update hupdates => exact turn_of_updates hlate hupdates (updateResult hx)
  | cancel | read | abortSeen | loadOther | loadRefused | dispatched | rollback | commit | abort
  | monitor => exact hidle rfl rfl rfl
  | look seen x hy => exact hidle hy.goal rfl hy.not_update
  | check x hy =>
    rw [hy.goal]
    exact .other _ _ _ _ (fun _ => ⟨rfl, fun f hf => hf⟩) (hahead hy.not_update)
  | load =>
    exact .other _ _ _ _ (fun _ => ⟨rfl, fun f hf => hf⟩) (hahead rfl)
  | ask x hy =>
    rw [hy.goal]
    exact .other _ _ _ _ (fun _ => ⟨rfl, fun f hf => hf⟩) (hahead hy.not_update)
  | unassigned x hy => exact hidle hy.goal rfl hy.not_update
  | stop x hy => exact hidle hy.goal rfl hy.not_update
  | goal | goalRefused =>
    rw [hrow rfl]
    exact .submit _ _ rfl
  | build rootWs own x hy => exact hidle hy.goal rfl hy.not_update
  | leave rootWs own x hy => exact hidle hy.goal rfl hy.not_update

end

/-! ## At most one turn at a time -/

namespace Session

def goals (s : Session) : ℕ := s.history.countP fun entry => isGoal entry.2

/-- At most one component is between its UPDATE and the goal, and after the goal none is or comes
there. -/
structure Turns (s : Session) : Prop where
  exclusive : ∀ i j φ ψ, s.phase i = some φ → φ.holds → s.phase j = some ψ →
    ψ.holds → i = j
  needs : ∀ i φ, s.phase i = some φ → φ.Needs s.row.state
  goals : s.goals = 0 ∨ s.goals = 1 ∧ s.row.state.Past ∧
    ∀ i φ, s.phase i = some φ → φ.holds = false

variable {s t : Session} {i : ℕ} {o : Outside} {c : Call} {φ φ' : Phase}

theorem turns_of_quiet (hs : s.Turns) (h : Quiet s t) : t.Turns := by
  have hgoals : t.goals = s.goals := by rw [Session.goals, h.history, Session.goals]
  refine ⟨?_, ?_, ?_⟩
  · rw [h.phase]
    exact hs.exclusive
  · rw [h.phase, h.row]
    exact hs.needs
  · rw [h.phase, h.row, hgoals]
    exact hs.goals

theorem Advances.goals (h : Advances s t i o c φ φ') :
    t.goals = s.goals + if isGoal (exchange c o s.shared) then 1 else 0 := by
  rw [Session.goals, h.history_eq, countP_append, countP_singleton]
  rfl

theorem Advances.phase_cases (h : Advances s t i o c φ φ') {j : ℕ} {ψ : Phase}
    (hψ : t.phase j = some ψ) : (j = i ∧ ψ = φ') ∨ (j ≠ i ∧ s.phase j = some ψ) := by
  by_cases hj : j = i
  · subst hj
    have hafter : t.phase j = some φ' := h.after
    rw [hafter] at hψ
    cases hψ
    exact .inl ⟨rfl, rfl⟩
  · have hothers : t.phase j = s.phase j := h.others j hj
    rw [hothers] at hψ
    exact .inr ⟨hj, hψ⟩

theorem Turns.of_holds (hs : s.Turns) (hφ : s.phase i = some φ) (hholds : φ.holds) :
    (∀ j ψ, j ≠ i → s.phase j = some ψ → ψ.holds = false) ∧ s.goals = 0 := by
  refine ⟨?_, ?_⟩
  · intro j ψ hj hψ
    cases h : ψ.holds with
    | false => rfl
    | true => exact absurd (hs.exclusive j i ψ φ hψ h hφ hholds) hj
  · obtain hzero | ⟨-, -, hnobody⟩ := hs.goals
    · exact hzero
    · rw [hnobody i φ hφ] at hholds
      cases hholds

theorem turns_of_alone (h : Advances s t i o c φ φ')
    (halone : ∀ j ψ, j ≠ i → s.phase j = some ψ → ψ.holds = false) (hneeds : φ'.Needs t.row.state)
    (hgoals : t.goals = 0 ∨ t.goals = 1 ∧ t.row.state.Past ∧ φ'.holds = false) : t.Turns := by
  have hself : ∀ j ψ, t.phase j = some ψ → ψ.holds → j = i ∧ ψ = φ' := by
    intro j ψ hψ hholds
    obtain hi | ⟨hj, hbefore⟩ := h.phase_cases hψ
    · exact hi
    · rw [halone j ψ hj hbefore] at hholds
      cases hholds
  refine ⟨?_, ?_, ?_⟩
  · intro j k ψ χ hψ hψholds hχ hχholds
    rw [(hself j ψ hψ hψholds).1, (hself k χ hχ hχholds).1]
  · intro j ψ hψ
    obtain ⟨-, rfl⟩ | ⟨hj, hbefore⟩ := h.phase_cases hψ
    · exact hneeds
    · exact needs_of_not_holds (halone j ψ hj hbefore)
  · refine hgoals.imp id ?_
    rintro ⟨hone, hpast, hφ'⟩
    refine ⟨hone, hpast, ?_⟩
    intro j ψ hψ
    obtain ⟨-, rfl⟩ | ⟨hj, hbefore⟩ := h.phase_cases hψ
    · exact hφ'
    · exact halone j ψ hj hbefore

theorem turns_of_other (hs : s.Turns) (h : Advances s t i o c φ φ') (hgoals : t.goals = s.goals)
    (hφ : φ'.holds → φ.holds ∧ ∀ f, φ.Needs f → φ'.Needs f)
    (hf : s.row.state.Ahead t.row.state) : t.Turns := by
  have hbefore : s.phase i = some φ := h.before
  -- whoever holds now was there before, and if it is not `i` in the same phase
  have hheld : ∀ j ψ, t.phase j = some ψ → ψ.holds →
      ∃ χ, s.phase j = some χ ∧ χ.holds := by
    intro j ψ hψ hholds
    obtain ⟨rfl, rfl⟩ | ⟨-, hsame⟩ := h.phase_cases hψ
    · exact ⟨φ, hbefore, (hφ hholds).1⟩
    · exact ⟨ψ, hsame, hholds⟩
  refine ⟨?_, ?_, ?_⟩
  · intro j k ψ χ hψ hψholds hχ hχholds
    obtain ⟨ψ', hψ', hψ'holds⟩ := hheld j ψ hψ hψholds
    obtain ⟨χ', hχ', hχ'holds⟩ := hheld k χ hχ hχholds
    exact hs.exclusive j k ψ' χ' hψ' hψ'holds hχ' hχ'holds
  · intro j ψ hψ
    obtain ⟨rfl, rfl⟩ | ⟨-, hsame⟩ := h.phase_cases hψ
    · cases hholds : ψ.holds with
      | false => exact needs_of_not_holds hholds
      | true => exact (hφ hholds).2 _ ((hs.needs j φ hbefore).ahead hf)
    · exact (hs.needs j ψ hsame).ahead hf
  · rw [hgoals]
    refine hs.goals.imp id ?_
    rintro ⟨hone, hpast, hnobody⟩
    refine ⟨hone, hpast.ahead hf, ?_⟩
    intro j ψ hψ
    cases hholds : ψ.holds with
    | false => rfl
    | true =>
      obtain ⟨χ, hχ, hχholds⟩ := hheld j ψ hψ hholds
      rw [hnobody j χ hχ] at hχholds
      cases hχholds

theorem turns_of_call (hs : s.Turns) (h : Advances s t i o c φ φ')
    (hlate : lateUpdate (exchange c o s.shared) = false) : t.Turns := by
  have hturn : Turn φ φ' s.row.state t.row.state (isGoal (exchange c o s.shared)) := by
    rw [h.row]
    exact turn_of_next hlate h.allowed
  have hgoals := h.goals
  have hφ : s.phase i = some φ := h.before
  generalize isGoal (exchange c o s.shared) = submitted at hturn hgoals
  generalize hf : s.row.state = f at hturn
  generalize hf' : t.row.state = f' at hturn
  cases hturn with
  | take =>
    refine turns_of_alone h ?_ (.inl hf') (.inl ?_)
    · intro j ψ _ hψ
      exact not_holds_of_needs (hf ▸ hs.needs j ψ hψ)
    · rw [hgoals]
      obtain hzero | ⟨-, hpast, -⟩ := hs.goals
      · exact hzero
      · exact absurd hf hpast.1
  | giveBack =>
    obtain ⟨halone, hzero⟩ := hs.of_holds hφ rfl
    exact turns_of_alone h halone trivial (.inl (hgoals.trans hzero))
  | proceed f f' hproceed =>
    obtain ⟨halone, hzero⟩ := hs.of_holds hφ rfl
    refine turns_of_alone h halone ?_ (.inl (hgoals.trans hzero))
    rw [hf', hproceed]
    obtain hvalidating | hterminal := hf ▸ hs.needs i _ hφ
    · rw [if_pos hvalidating]
      exact ⟨noConfusion, noConfusion⟩
    · have hpast := past_of_isTerminal hterminal
      rw [if_neg hpast.2]
      exact hpast
  | submit φ' f hφ' =>
    obtain ⟨halone, hzero⟩ := hs.of_holds hφ rfl
    refine turns_of_alone h halone (needs_of_not_holds hφ') (.inr ⟨?_, ?_, hφ'⟩)
    · rw [hgoals, hzero]
      rfl
    · rw [hf', ← hf]
      exact hs.needs i _ hφ
  | other φ φ' f f' hkeeps hahead =>
    exact turns_of_other hs h hgoals hkeeps (hf ▸ hf' ▸ hahead)

theorem turns_of_run {row : SessionRow} {assignments : List SessionAssignmentRow} {s : Session}
    (hrun : Run Step anyStep (new row assignments) s)
    (hlate : ∀ entry ∈ s.history, lateUpdate entry.2 = false) : s.Turns := by
  refine invariant_of_run
    (fun s => (∀ entry ∈ s.history, lateUpdate entry.2 = false) → s.Turns) ?_ ?_ ?_ hrun hlate
  · intro _
    refine ⟨?_, ?_, .inl rfl⟩
    · intro i j φ ψ hφ hholds
      cases hφ
      cases hholds
    · intro i φ hφ
      cases hφ
      exact trivial
  · intro s t hs hquiet hall
    exact turns_of_quiet (hs (hquiet.history ▸ hall)) hquiet
  · intro s t i o c φ φ' _ hs h hall
    rw [h.history_eq] at hall
    refine turns_of_call (hs fun entry hmem => hall entry (mem_append_left _ hmem)) h ?_
    exact hall (i, exchange c o s.shared) (mem_append_right _ mem_cons_self)

/-- **A session is launched at most once while the requests take turns**, in every interleaving with
cancellations, monitors, recovery and crashes. -/
theorem launched_once (row : SessionRow) (assignments : List SessionAssignmentRow) (s : Session)
    (hrun : Run Step anyStep (new row assignments) s)
    (hlate : ∀ entry ∈ s.history, lateUpdate entry.2 = false) : s.goals ≤ 1 := by
  obtain hzero | ⟨hone, -⟩ := (turns_of_run hrun hlate).goals
  · omega
  · omega

/-- The second request finds the session ACTIVE. -/
def oneAfterTheOther : List Label :=
  .launchRequest sampleAuth :: calls 0 14 ++ .launchRequest sampleAuth :: calls 2 1

theorem launched_once_oneAfterTheOther :
    ∃ s, oneAfterTheOther.foldlM apply sampleSession = some s ∧ s.row.state = .active ∧
      s.goals ≤ 1 := by
  have hrun := Run.of_ops (rfl : oneAfterTheOther.foldlM apply sampleSession = some _)
  exact ⟨_, rfl, rfl, launched_once sampleRow [sampleAssignment] _ hrun (by decide)⟩

/-- Both requests read CONFIGURING; the first submits the goal, and then the second. -/
def bothAtOnce : List Label :=
  [.launchRequest sampleAuth, .launchRequest sampleAuth] ++ calls 0 1 ++ calls 1 1 ++
    calls 0 7 ++ calls 1 7

theorem launched_twice : ∃ s, bothAtOnce.foldlM apply sampleSession = some s ∧ s.goals = 2 :=
  ⟨_, rfl, rfl⟩

end Session

end Wacp.Console
