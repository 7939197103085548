import Mathlib.Data.List.Induction
import Wacp.Model.ResourceLimits

/-!
# What timers account for, and what raising a limit does

Time is counted millisecond by millisecond, by the last state reported before each. An accumulator
with one open interval gives that count (`Accounts`).
-/

namespace Wacp

open Library List Table BudgetEnforcer

structure StateChange where
  id : WorkspaceId
  state : WorkspaceState
  time : ℕ

namespace TimeoutTracker

def report (t : TimeoutTracker) (c : StateChange) : TimeoutTracker :=
  t.onStateChange c.id c.state c.time

/-- A workspace begins as Idle. -/
def stateAt (w : WorkspaceId) (changes : List StateChange) (τ : ℕ) : WorkspaceState :=
  ((changes.filter fun c => c.id = w ∧ c.time ≤ τ).getLast?.map (·.state)).getD .idle

def activeTime (w : WorkspaceId) (changes : List StateChange) (now : ℕ) : ℕ :=
  (range now).countP fun τ => isTimerActive (stateAt w changes τ)

def Past (changes : List StateChange) (now : ℕ) : Prop := ∀ c ∈ changes, c.time ≤ now

variable {w : WorkspaceId} {changes : List StateChange} {c : StateChange} {e : TimeoutEntry}
  {now : ℕ}

theorem activeTime_le (w : WorkspaceId) (changes : List StateChange) (now : ℕ) :
    activeTime w changes now ≤ now :=
  countP_le_length.trans_eq length_range

theorem stateAt_concat (τ : ℕ) : stateAt w (changes ++ [c]) τ =
    if c.id = w ∧ c.time ≤ τ then c.state else stateAt w changes τ := by
  by_cases h : c.id = w ∧ c.time ≤ τ <;> simp [stateAt, h]

theorem activeTime_other (h : c.id ≠ w) :
    activeTime w (changes ++ [c]) now = activeTime w changes now := by
  simp [activeTime, stateAt_concat, h]

theorem activeTime_concat (h : c.id = w) (hnow : c.time ≤ now) : activeTime w (changes ++ [c]) now =
      activeTime w changes c.time + if isTimerActive c.state then now - c.time else 0 := by
  obtain ⟨k, rfl⟩ := Nat.exists_eq_add_of_le hnow
  have hbefore : (range c.time).countP (fun τ => isTimerActive (stateAt w (changes ++ [c]) τ)) =
      activeTime w changes c.time := by
    refine countP_congr fun τ hτ => ?_
    have hlt := mem_range.mp hτ
    simp [stateAt_concat, hlt.not_ge]
  rw [activeTime, range_add, countP_append, hbefore, countP_map]
  cases hact : isTimerActive c.state <;> simp [Function.comp_def, stateAt_concat, h, hact]

/-- The accumulator and the open interval together. -/
structure Accounts (w : WorkspaceId) (changes : List StateChange) (e : TimeoutEntry) : Prop where
  total : ∀ now, Past changes now →
    e.elapsedMs + (if e.running then now - e.lastResumeMs else 0) = activeTime w changes now
  resumed : e.running → ∀ now, Past changes now → e.lastResumeMs ≤ now

theorem Accounts.elapsedAt (h : Accounts w changes e) (hpast : Past changes now)
    (hnow : now < 2 ^ 64) : e.elapsedAt now = activeTime w changes now := by
  have htotal := h.total now hpast
  have hle := activeTime_le w changes now
  unfold TimeoutEntry.elapsedAt addU64
  cases hrun : e.running
  · simpa [hrun] using htotal
  · simp only [hrun, if_true] at htotal ⊢
    omega

theorem Accounts.change (h : Accounts w changes e) (hw : c.id = w) (hpast : Past changes c.time)
    (hu64 : c.time < 2 ^ 64) : Accounts w (changes ++ [c]) (e.change c.state c.time) := by
  have htotal := h.total c.time hpast
  have hresumed : e.running → e.lastResumeMs ≤ c.time := fun hrun => h.resumed hrun _ hpast
  have hle := activeTime_le w changes c.time
  have hlast {now : ℕ} (hnow : Past (changes ++ [c]) now) : c.time ≤ now :=
    hnow c (mem_append_right _ mem_cons_self)
  -- up to the change the old entry counts, and after it only whether the new state is active
  refine ⟨fun now hnow => ?_, fun hrun now hnow => ?_⟩
  · rw [activeTime_concat hw (hlast hnow), ← htotal]
    have := hlast hnow
    cases hr : e.running <;> cases hact : isTimerActive c.state <;>
      simp [TimeoutEntry.change, addU64, hr, hact] at htotal hresumed ⊢ <;> omega
  · have := hlast hnow
    cases hr : e.running <;> cases hact : isTimerActive c.state <;>
      simp [TimeoutEntry.change, hr, hact] at hresumed hrun ⊢ <;> omega

theorem accounts_foldl (t : TimeoutTracker) (limit : ℕ)
    (hsorted : changes.Pairwise fun a b => a.time ≤ b.time)
    (hu64 : ∀ c ∈ changes, c.time < 2 ^ 64) :
    ∃ e, (changes.foldl report (t.register w limit)).get w = some e ∧ e.limitMs = limit ∧
      Accounts w changes e := by
  induction changes using List.reverseRecOn with
  | nil =>
    refine ⟨_, get_set_self _, rfl, ?_⟩
    constructor <;> simp [activeTime, stateAt, isTimerActive]
  | append_singleton changes c ih =>
    have hpast := fun a ha => (pairwise_append.mp hsorted).2.2 a ha c mem_cons_self
    obtain ⟨e, hget, hlimit, hacc⟩ := ih (pairwise_append.mp hsorted).1
      fun a ha => hu64 a (mem_append_left _ ha)
    rw [foldl_append, foldl_cons, foldl_nil, report, onStateChange, get_modify]
    by_cases hw : w = c.id
    · refine ⟨e.change c.state c.time, by simp [← hw, hget], ?_,
        hacc.change hw.symm hpast (hu64 c (mem_append_right _ mem_cons_self))⟩
      unfold TimeoutEntry.change
      split_ifs <;> exact hlimit
    · refine ⟨e, by simpa [hw] using hget, hlimit, fun now hnow => ?_, fun hrun now hnow => ?_⟩
      · rw [activeTime_other (Ne.symm hw)]
        exact hacc.total now fun a ha => hnow a (mem_append_left _ ha)
      · exact hacc.resumed hrun now fun a ha => hnow a (mem_append_left _ ha)

theorem mem_checkExpired {t : TimeoutTracker} :
    w ∈ t.checkExpired now ↔ ∃ e, t.get w = some e ∧ e.expired now := by
  rw [checkExpired, Table.mem_keys]
  simp [get_retain]

/-- **The tracker accounts for the active time**. -/
theorem elapsed_eq_activeTime (t : TimeoutTracker) (w : WorkspaceId) (limit : ℕ)
    (changes : List StateChange) (hsorted : changes.Pairwise fun a b => a.time ≤ b.time) (now : ℕ)
    (hpast : Past changes now) (hnow : now < 2 ^ 64) :
    (changes.foldl report (t.register w limit)).elapsedMs w now = activeTime w changes now ∧
      (w ∈ (changes.foldl report (t.register w limit)).checkExpired now ↔
        limit ≠ 0 ∧ limit ≤ activeTime w changes now) ∧
      activeTime w changes now < 2 ^ 64 := by
  obtain ⟨e, hget, rfl, hacc⟩ := accounts_foldl (w := w) t limit hsorted
    fun c hc => (hpast c hc).trans_lt hnow
  have helapsed := hacc.elapsedAt hpast hnow
  refine ⟨by simp [elapsedMs, hget, helapsed], ?_, (activeTime_le _ _ _).trans_lt hnow⟩
  simp [mem_checkExpired, hget, TimeoutEntry.expired, helapsed]

def sampleChanges : List StateChange :=
  [⟨⟨"w"⟩, .active, 3⟩, ⟨⟨"v"⟩, .active, 4⟩, ⟨⟨"w"⟩, .blocked, 5⟩, ⟨⟨"w"⟩, .suspended, 7⟩,
    ⟨⟨"w"⟩, .active, 10⟩]

theorem elapsed_eq_activeTime_resumed : activeTime ⟨"w"⟩ sampleChanges 12 = 6 ∧
    (sampleChanges.foldl report (register ∅ ⟨"w"⟩ 6)).elapsedMs ⟨"w"⟩ 12 = 6 :=
  ⟨rfl, (elapsed_eq_activeTime ∅ ⟨"w"⟩ 6 sampleChanges (by simp [sampleChanges]) 12
    (by simp [Past, sampleChanges]) (by decide)).1⟩

end TimeoutTracker

/-! ## Raising a limit -/

/-- A limit of 0 means none. -/
def Over (limit used : ℕ) : Prop := limit ≠ 0 ∧ limit ≤ used

def SafeRaise (limit add : ℕ) : Prop := (limit = 0 → add = 0) ∧ limit + add ≤ 2 ^ 64

theorem SafeRaise.over {limit add used : ℕ} (h : SafeRaise limit add)
    (hover : Over (addU64 limit add) used) : Over limit used := by
  unfold Over SafeRaise addU64 at *
  omega

/-- Exact; a sum that wraps around to 0 does no harm either. -/
theorem over_addU64_iff {limit add : ℕ} (hlimit : limit < 2 ^ 64) (hadd : add < 2 ^ 64) :
    (∀ used, Over (addU64 limit add) used → Over limit used) ↔ SafeRaise limit add := by
  refine ⟨fun h => ?_, fun h used => h.over⟩
  have := h (addU64 limit add)
  unfold Over SafeRaise addU64 at *
  omega

theorem mem_exceeded_foldl (threshold : Float32) (name : String)
    (l : List (String × ℕ × Option ℕ)) (acc : List String × List String) :
    name ∈ (l.foldl (checkDim threshold) acc).2 ↔
      name ∈ acc.2 ∨ ∃ used limit, (name, used, some limit) ∈ l ∧ Over limit used := by
  induction l generalizing acc with
  | nil => simp
  | cons d l ih =>
    obtain ⟨name', used, _ | limit⟩ := d
    · simp [ih, checkDim]
    · rw [foldl_cons, ih, checkDim]
      unfold Over
      split_ifs <;> grind

namespace BudgetEnforcer

def exceededDims : BudgetCheckResult → List String
  | .exceeded dims => dims
  | _ => []

theorem mem_exceededDims {usage : ResourceUsage} {budget : ResourceBudget} {name : String} :
    name ∈ exceededDims (check usage budget) ↔
      ∃ used limit, (name, used, some limit) ∈ dims usage budget ∧ Over limit used := by
  have hmem := mem_exceeded_foldl (Float32.ofBits budget.warningThreshold) name
    (dims usage budget) ([], [])
  simp only [not_mem_nil, false_or] at hmem
  rw [← hmem, check]
  dsimp only
  split_ifs with hexceeded hwarnings <;> simp_all [exceededDims]

theorem over_of_increase {cur add : Option ℕ} {used limit : ℕ}
    (hsafe : ∀ c a, cur = some c → add = some a → SafeRaise c a)
    (h : increase cur add = some limit) (hover : Over limit used) :
    ∃ c, cur = some c ∧ Over c used := by
  obtain _ | c := cur
  · cases h
  · obtain _ | a := add
    · exact ⟨limit, h, hover⟩
    · cases h
      exact ⟨c, rfl, (hsafe c a rfl rfl).over hover⟩

def limits (budget : ResourceBudget) : List (Option ℕ) :=
  [budget.maxTokens, budget.maxWallTimeMs, budget.maxStorageBytes, budget.maxNetworkBytes,
    budget.maxCostMicros]

/-- **A raised limit does no harm** where it is a safe raise. -/
theorem raise_harmless (t : TimeoutTracker) (w : WorkspaceId) (d now : ℕ)
    (htimer : ∀ e, t.get w = some e → SafeRaise e.limitMs d)
    (usage : ResourceUsage) (budget additional : ResourceBudget)
    (hbudget : ∀ p ∈ (limits budget).zip (limits additional), ∀ c a, p.1 = some c →
      p.2 = some a → SafeRaise c a) (name : String) :
    (w ∉ t.checkExpired now → w ∉ (t.extend w d).checkExpired now) ∧
      (name ∉ exceededDims (check usage budget) →
        name ∉ exceededDims (check usage (increaseBudget budget additional))) := by
  refine ⟨fun hnot hmem => hnot ?_, fun hnot hmem => hnot ?_⟩
  · rw [TimeoutTracker.mem_checkExpired] at hmem ⊢
    obtain ⟨e', hget, hexp⟩ := hmem
    rw [TimeoutTracker.extend, get_modify, if_pos rfl] at hget
    obtain ⟨e, he, rfl⟩ := Option.map_eq_some_iff.mp hget
    refine ⟨e, he, ?_⟩
    simp only [TimeoutEntry.expired, bne_iff_ne, Bool.and_eq_true, decide_eq_true_eq] at hexp ⊢
    exact (htimer e he).over hexp
  · rw [mem_exceededDims] at hmem ⊢
    obtain ⟨used, limit, hmem, hover⟩ := hmem
    -- every dimension of the raised budget comes from that dimension of the old one
    have hold {cur add : Option ℕ} (hsafe : ∀ c a, cur = some c → add = some a →
        SafeRaise c a) (h : some limit = increase cur add)
        (hdim : ∀ c, cur = some c → (name, used, some c) ∈ dims usage budget) :
        ∃ used limit, (name, used, some limit) ∈ dims usage budget ∧ Over limit used := by
      obtain ⟨c, hc, hover⟩ := over_of_increase hsafe h.symm hover
      exact ⟨used, c, hdim c hc, hover⟩
    simp only [limits, zip_cons_cons, zip_nil_left, forall_mem_cons] at hbudget
    obtain ⟨htokens, htime, hstorage, hnetwork, hcost, -⟩ := hbudget
    simp only [dims, increaseBudget, mem_cons, Prod.mk.injEq, not_mem_nil, or_false] at hmem
    rcases hmem with ⟨rfl, rfl, h⟩ | ⟨rfl, rfl, h⟩ | ⟨rfl, rfl, h⟩ | ⟨rfl, rfl, h⟩ | ⟨rfl, rfl, h⟩
    · exact hold htokens h fun c hc => by simp [dims, hc]
    · exact hold htime h fun c hc => by simp [dims, hc]
    · exact hold hstorage h fun c hc => by simp [dims, hc]
    · exact hold hnetwork h fun c hc => by simp [dims, hc]
    · exact hold hcost h fun c hc => by simp [dims, hc]

def tokenBudget (tokens : ℕ) : ResourceBudget :=
  { maxTokens := some tokens, maxWallTimeMs := none, maxStorageBytes := none
    maxNetworkBytes := none, maxCostMicros := none, warningThreshold := 0x3f4ccccd }

/-- A timer that runs from 0 on. -/
def activeTimer (limit : ℕ) : TimeoutTracker :=
  (TimeoutTracker.register ∅ ⟨"w"⟩ limit).onStateChange ⟨"w"⟩ .active 0

theorem get_activeTimer (limit : ℕ) : (activeTimer limit).get ⟨"w"⟩ =
    some { elapsedMs := 0, limitMs := limit, running := true, lastResumeMs := 0 } := by
  rw [activeTimer, TimeoutTracker.onStateChange, get_modify, TimeoutTracker.register, get_set_self]
  rfl

theorem raise_harmless_from_six : ⟨"w"⟩ ∉ ((activeTimer 6).extend ⟨"w"⟩ 3).checkExpired 5 := by
  refine (raise_harmless (activeTimer 6) ⟨"w"⟩ 3 5 ?_ .default (tokenBudget 6) (tokenBudget 3) ?_
    "tokens").1 ?_
  · rw [get_activeTimer]
    rintro e ⟨⟩
    exact ⟨by decide, by decide⟩
  · simp [limits, tokenBudget, SafeRaise]
  · rw [TimeoutTracker.mem_checkExpired, get_activeTimer]
    rintro ⟨e, ⟨⟩, hexp⟩
    cases hexp

/-- A timer and a budget of 0 have no limit; extended by 3 or 5, they have one. -/
theorem unlimited_raise_hurts : (⟨"w"⟩ ∉ (activeTimer 0).checkExpired 5 ∧
      ⟨"w"⟩ ∈ ((activeTimer 0).extend ⟨"w"⟩ 3).checkExpired 5) ∧
    (check { ResourceUsage.default with tokens := 10 } (tokenBudget 0) = .ok ∧
      check { ResourceUsage.default with tokens := 10 }
        (increaseBudget (tokenBudget 0) (tokenBudget 5)) = .exceeded ["tokens"]) := by
  refine ⟨⟨?_, ?_⟩, rfl, rfl⟩
  · rw [TimeoutTracker.mem_checkExpired, get_activeTimer]
    rintro ⟨e, ⟨⟩, hexp⟩
    cases hexp
  · rw [TimeoutTracker.mem_checkExpired, TimeoutTracker.extend, get_modify, if_pos rfl,
      get_activeTimer]
    exact ⟨_, rfl, rfl⟩

end BudgetEnforcer

end Wacp
