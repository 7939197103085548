import Wacp.Model.Resilience

/-!
# The queue of the concurrency limiter

An invocation counts as queued until its permit is dropped. A future dropped while it waits has no
permit and stays counted for ever.
-/

namespace Wacp.Acquirers

open Library List Option ConcurrencyPermit

/-- No holder has waited and no waiter was cancelled; without a limit, nobody waits. -/
def Settled (s : Acquirers) : Prop :=
  if s.limiter.counts then s.holding.countP wasQueued = 0 ∧ s.cancelled = 0
  else s.waiting = 0

def Idle (s : Acquirers) : Prop :=
  s.refused = [] ∧ s.entering = [] ∧ s.waiting = 0 ∧ s.held = 0

structure Balanced (config : ConcurrencyConfig) (s : Acquirers) : Prop where
  config_eq : s.limiter.config = config
  permits : s.limiter.semaphore.available + s.granted.length + s.held =
    ConcurrencyLimiter.permits config
  queued : s.limiter.counts →
    s.limiter.queued = s.waiting + s.holding.countP wasQueued + s.cancelled
  uncounted : s.limiter.counts = false →
    s.limiter.queued = 0 ∧ s.entering = [] ∧
      s.holding.countP wasQueued = 0

variable {config : ConcurrencyConfig} {s : Acquirers}

theorem Balanced.new (config : ConcurrencyConfig) : Balanced config (Acquirers.new config) where
  config_eq := rfl
  permits := rfl
  queued := fun _ => rfl
  uncounted := fun _ => ⟨rfl, rfl, rfl⟩

/-! ## One step -/

theorem Balanced.tryAcquire (h : Balanced config s) (id : ℕ) :
    Balanced config (s.tryAcquire id).1 := by
  unfold Acquirers.tryAcquire
  cases htry : s.limiter.tryAcquire with
  | none => exact ⟨h.config_eq, h.permits, h.queued, h.uncounted⟩
  | some =>
    obtain ⟨sem, hsem, rfl⟩ := map_eq_some_iff.mp htry
    obtain ⟨hpos, rfl⟩ := Semaphore.tryAcquire_eq_some_iff.mp hsem
    have hp := h.permits
    refine ⟨h.config_eq, ?_, ?_, ?_⟩
    · simp only [held, length_append, length_singleton] at hp ⊢
      omega
    · intro hc
      have hq := h.queued hc
      simpa [waiting] using hq
    · intro hc
      simpa using h.uncounted hc

theorem Balanced.inspect (h : Balanced config s) (id : ℕ) : Balanced config (s.inspect id).1 := by
  unfold Acquirers.inspect
  cases hc : s.limiter.counts with
  | false =>
    refine ⟨h.config_eq, h.permits, ?_, fun _ => h.uncounted hc⟩
    intro hc'
    exact absurd (hc.symm.trans hc') Bool.false_ne_true
  | true =>
    cases s.limiter.inspect with
    | error => exact ⟨h.config_eq, h.permits, h.queued, h.uncounted⟩
    | ok =>
      refine ⟨h.config_eq, h.permits, h.queued, ?_⟩
      intro hc'
      exact absurd (hc'.symm.trans hc) Bool.false_ne_true

theorem Balanced.enterQueue (h : Balanced config s) {id : ℕ} (hid : id ∈ s.entering) :
    Balanced config (s.enterQueue id).1 := by
  have hcounts : s.limiter.counts := by
    by_contra hc
    rw [Bool.not_eq_true] at hc
    rw [(h.uncounted hc).2.1] at hid
    cases hid
  refine ⟨h.config_eq, h.permits, ?_, ?_⟩
  · intro hc
    have hq := h.queued hcounts
    simp only [Acquirers.enterQueue, ConcurrencyLimiter.enterQueue, waiting, length_append,
      length_singleton] at hq ⊢
    omega
  · intro hc
    exact absurd (hc.symm.trans hcounts) Bool.false_ne_true

theorem countP_holding_append (ps : List ConcurrencyPermit) (id : ℕ) (wasQueued : Bool) :
    (ps ++ [ConcurrencyPermit.mk id wasQueued]).countP ConcurrencyPermit.wasQueued =
      ps.countP ConcurrencyPermit.wasQueued + if wasQueued then 1 else 0 := by
  rw [countP_append, countP_singleton]

theorem Balanced.poll (h : Balanced config s) {id : ℕ} (hid : id ∈ s.queueing) :
    Balanced config (s.poll id).1 := by
  have hlen := length_eq_length_erase_add hid
  have hp := h.permits
  unfold Acquirers.poll ConcurrencyLimiter.poll
  obtain ⟨hpos, hacq⟩ | hacq := s.limiter.semaphore.acquire_cases id
  · rw [hacq]
    refine ⟨h.config_eq, ?_, ?_, ?_⟩
    · simp only [held, if_true, length_append, length_singleton] at hp ⊢
      omega
    · intro hc
      have hc : s.limiter.counts := hc
      have hq := h.queued hc
      simp only [if_true, hc, waiting, countP_holding_append] at hq ⊢
      omega
    · intro hc
      have hc : s.limiter.counts = false := hc
      obtain ⟨hq, he, hw⟩ := h.uncounted hc
      refine ⟨hq, he, ?_⟩
      simp [hc, hw]
  · rw [hacq]
    refine ⟨h.config_eq, hp, ?_, h.uncounted⟩
    intro hc
    have hq := h.queued hc
    simp only [Bool.false_eq_true, if_false, waiting, length_append, length_singleton] at hq ⊢
    omega

theorem Balanced.resume (h : Balanced config s) {id : ℕ} (hid : id ∈ s.granted) :
    Balanced config (s.resume id).1 := by
  have hlen := length_eq_length_erase_add hid
  have hp := h.permits
  unfold Acquirers.resume
  refine ⟨h.config_eq, ?_, ?_, ?_⟩
  · simp only [held, length_append, length_singleton] at hp ⊢
    omega
  · intro hc
    have hc : s.limiter.counts := hc
    have hq := h.queued hc
    simp only [countP_holding_append, hc, if_true, waiting] at hq ⊢
    omega
  · intro hc
    have hc : s.limiter.counts = false := hc
    obtain ⟨hq, he, hw⟩ := h.uncounted hc
    refine ⟨hq, he, ?_⟩
    simp [hc, hw]

theorem Balanced.dropGuard (h : Balanced config s) {p : ConcurrencyPermit}
    (hmem : p ∈ s.holding) : Balanced config (s.dropGuard p).1 := by
  have hlen := length_eq_length_erase_add hmem
  have hcount := countP_eq_countP_erase_add wasQueued hmem
  have hp := h.permits
  unfold Acquirers.dropGuard ConcurrencyLimiter.dropGuard
  cases hw : p.wasQueued with
  | false =>
    rw [hw] at hcount
    refine ⟨h.config_eq, ?_, ?_, ?_⟩
    · simp only [held, length_append, length_singleton, Bool.false_eq_true, if_false] at hp ⊢
      omega
    · intro hc
      have hq := h.queued hc
      simp only [waiting, Bool.false_eq_true, if_false] at hq hcount ⊢
      omega
    · intro hc
      obtain ⟨hq, he, hz⟩ := h.uncounted hc
      refine ⟨hq, he, ?_⟩
      dsimp only
      omega
  | true =>
    rw [hw, if_pos rfl] at hcount
    refine ⟨h.config_eq, ?_, ?_, ?_⟩
    · simp only [held, length_append, length_singleton, if_true] at hp ⊢
      omega
    · intro hc
      have hq := h.queued hc
      simp only [waiting, if_true] at hq ⊢
      omega
    · intro hc
      obtain ⟨-, -, hz⟩ := h.uncounted hc
      omega

/-- **A permit that is given back**: one more is free or on its way. -/
theorem giveBack_spec (s : Acquirers) : s.giveBack.waiting = s.waiting ∧
      s.giveBack.limiter.semaphore.available + s.giveBack.granted.length =
        s.limiter.semaphore.available + s.granted.length + 1 := by
  unfold giveBack ConcurrencyLimiter.release waiting
  obtain ⟨a, rest, hw, hrel⟩ | ⟨hw, hrel⟩ := s.limiter.semaphore.release_cases
  · rw [hrel, hw]
    simp only [toList_some, length_append, length_cons, length_nil]
    constructor <;> omega
  · rw [hrel]
    simp only [toList_none, append_nil]
    exact ⟨trivial, by omega⟩

theorem Balanced.giveBack (hconfig : s.limiter.config = config)
    (hp : s.limiter.semaphore.available + s.granted.length + s.held + 1 =
      ConcurrencyLimiter.permits config)
    (hq : s.limiter.counts →
      s.limiter.queued = s.waiting + s.holding.countP wasQueued + s.cancelled)
    (hu : s.limiter.counts = false → s.limiter.queued = 0 ∧ s.entering = [] ∧
      s.holding.countP wasQueued = 0) : Balanced config s.giveBack := by
  obtain ⟨hwait, hfree⟩ := s.giveBack_spec
  refine ⟨hconfig, ?_, ?_, hu⟩
  · have hheld : s.giveBack.held = s.held := rfl
    omega
  · intro hc
    rw [hwait]
    exact hq hc

theorem Balanced.cancel (h : Balanced config s) (id : ℕ) : Balanced config (s.cancel id) := by
  have hp := h.permits
  unfold Acquirers.cancel
  split
  · rename_i hid
    have hlen := length_eq_length_erase_add hid
    refine ⟨h.config_eq, hp, ?_, h.uncounted⟩
    intro hc
    have hq := h.queued hc
    simp only [waiting] at hq ⊢
    omega
  split
  · rename_i hid
    have hlen := length_eq_length_erase_add hid
    refine ⟨h.config_eq, hp, ?_, h.uncounted⟩
    intro hc
    have hq := h.queued hc
    simp only [waiting, ConcurrencyLimiter.leave, Semaphore.leave] at hq ⊢
    omega
  split
  · rename_i hid
    have hlen := length_eq_length_erase_add hid
    refine Balanced.giveBack h.config_eq ?_ ?_ h.uncounted
    · simp only [held] at hp ⊢
      omega
    · intro hc
      have hq := h.queued hc
      simp only [waiting] at hq ⊢
      omega
  · exact h

theorem Balanced.apply (h : Balanced config s) (l : Label) : Balanced config (s.apply l) := by
  have hif : ∀ {p : Prop} [Decidable p] {x : Acquirers × Answer}, (p → Balanced config x.1) →
      Balanced config (if p then x else (s, none)).1 := by
    intro p _ x hx
    split
    · next hp => exact hx hp
    · exact h
  unfold Acquirers.apply Acquirers.step
  cases l with
  | tryAcquire id => exact h.tryAcquire id
  | cancel id => exact h.cancel id
  | inspect id => exact hif fun _ => h.inspect id
  | enterQueue => exact hif h.enterQueue
  | poll => exact hif h.poll
  | resume => exact hif h.resume
  | dropGuard => exact hif h.dropGuard
  | release id =>
    refine hif fun hid => ?_
    have hlen := length_eq_length_erase_add hid
    have hp := h.permits
    refine Balanced.giveBack h.config_eq ?_ h.queued h.uncounted
    simp only [held] at hp ⊢
    omega

theorem answer_error {l : Label} {e : ToolError} (h : s.answer l = some (.error e)) :
    s.limiter.counts ∧ s.limiter.config.maxQueued ≤ s.limiter.queued ∧
      e = .limitReached s.limiter.config.maxConcurrent s.limiter.queued := by
  unfold answer step at h
  cases l with
  | tryAcquire =>
    simp only [Acquirers.tryAcquire] at h
    split at h <;> cases h
  | inspect id =>
    dsimp only at h
    split at h
    · simp only [Acquirers.inspect] at h
      split at h
      · cases h
      · rename_i hc
        refine ⟨by simpa using hc, ?_⟩
        unfold ConcurrencyLimiter.inspect at h
        by_cases hfull : s.limiter.config.maxQueued ≤ s.limiter.queued
        · rw [if_pos hfull] at h
          cases h
          exact ⟨hfull, rfl⟩
        · rw [if_neg hfull] at h
          cases h
    · cases h
  | enterQueue | resume | dropGuard | release => dsimp only at h; split at h <;> cases h
  | poll =>
    dsimp only at h
    split at h
    · simp only [Acquirers.poll] at h
      split at h <;> cases h
    · cases h
  | cancel => cases h

/-! ## Whole runs -/

theorem Balanced.queued_eq_waiting_iff (h : Balanced config s) :
    s.limiter.queued = s.waiting ↔ s.Settled := by
  unfold Settled
  cases hc : s.limiter.counts with
  | true =>
    have hq := h.queued hc
    rw [if_pos rfl]
    omega
  | false =>
    obtain ⟨hq, -, -⟩ := h.uncounted hc
    rw [if_neg Bool.false_ne_true, hq]
    exact eq_comm

/-- **The queue of the limiter**, in every interleaving of acquisitions, grants, drops and
cancellations. -/
theorem limiter_counter_iff (config : ConcurrencyConfig) (ls : List Label) :
    let s := ls.foldl apply (new config)
    (s.limiter.queued = s.waiting ↔ s.Settled) ∧
      (config.maxConcurrent ≠ 0 → s.held ≤ config.maxConcurrent) ∧
      (s.Settled → ∀ l e, s.answer l = some (.error e) → config.maxQueued ≤ s.waiting) ∧
      (s.Idle → ∀ id, s.answer (.tryAcquire id) = some (.ok ⟨id, false⟩)) := by
  intro s
  have h : Balanced config s :=
    List.foldlRecOn ls Acquirers.apply (Balanced.new config) fun _ h l _ => h.apply l
  have hp := h.permits
  refine ⟨h.queued_eq_waiting_iff, ?_, ?_, ?_⟩
  · intro hlimit
    rw [ConcurrencyLimiter.permits, if_neg hlimit] at hp
    omega
  · intro hsettled l e he
    obtain ⟨-, hfull, -⟩ := answer_error he
    rw [h.config_eq, h.queued_eq_waiting_iff.mpr hsettled] at hfull
    exact hfull
  · rintro ⟨-, -, hwait, hheld⟩ id
    -- no permit is granted or held, so all are free
    have hgranted : s.granted.length = 0 := by
      unfold waiting at hwait
      omega
    have hpos : 0 < ConcurrencyLimiter.permits config := by
      unfold ConcurrencyLimiter.permits
      split
      · decide
      · omega
    have hfree : 0 < s.limiter.semaphore.available := by omega
    simp [answer, step, Acquirers.tryAcquire, ConcurrencyLimiter.tryAcquire,
      Semaphore.tryAcquire, hfree]

def sampleConfig : ConcurrencyConfig := ⟨1, 1⟩

theorem limiter_counter_waiting :
    ([Label.tryAcquire 0, .tryAcquire 1, .inspect 1, .enterQueue 1, .poll 1].foldl apply
        (new sampleConfig)).limiter.queued =
      ([Label.tryAcquire 0, .tryAcquire 1, .inspect 1, .enterQueue 1, .poll 1].foldl apply
        (new sampleConfig)).waiting :=
  (limiter_counter_iff sampleConfig _).1.mpr ⟨by decide, by decide⟩

/-- The second invocation waits for the first one's permit and gets it. -/
def waitedHolder : List Label :=
  [.tryAcquire 0, .tryAcquire 1, .inspect 1, .enterQueue 1, .poll 1, .dropGuard ⟨0, false⟩,
    .release 0, .resume 1]

def cancelledWaiter : List Label :=
  [.tryAcquire 0, .tryAcquire 1, .inspect 1, .enterQueue 1, .poll 1, .cancel 1]

def TurnsAway (s : Acquirers) : Prop :=
  s.waiting = 0 ∧ s.limiter.queued = 1 ∧
    (s.apply (.tryAcquire 2)).answer (.inspect 2) = some (.error (.limitReached 1 1))

instance (s : Acquirers) : Decidable s.TurnsAway :=
  inferInstanceAs (Decidable (_ ∧ _ ∧ _))

theorem limiter_counter_fails : (waitedHolder.foldl apply (new sampleConfig)).TurnsAway ∧
      (cancelledWaiter.foldl apply (new sampleConfig)).TurnsAway := by
  decide

end Wacp.Acquirers
