import Mathlib.Algebra.Order.BigOperators.Group.List
import Mathlib.Algebra.Order.Group.Nat
import Wacp.Library.Runs
import Wacp.Model.RateLimit

/-!
# The window of the rate limiter

A check that succeeds leaves room for its estimate until the next record. The saturating sum hides
an excess at `u32::MAX`. The reported wait ends while the oldest record is still in the window.
-/

namespace Wacp.RateLimiter

open Library List

variable {l : RateLimiter} {c : RateLimitConfig} {w t t' d : ℕ} {log : List (ℕ × UInt32)}
  {e : UInt32}

/-! ## The records in the window -/

def recent (w t : ℕ) (log : List (ℕ × UInt32)) : List (ℕ × UInt32) :=
  log.filter fun p => decide (t ≤ p.1 + w)

def tokens (log : List (ℕ × UInt32)) : ℕ := (log.map (·.2.toNat)).sum

theorem recent_recent (h : t ≤ t') : recent w t' (recent w t log) = recent w t' log := by
  unfold recent
  rw [filter_filter]
  refine filter_congr fun p _ => ?_
  simp only [← Bool.decide_and, decide_eq_decide]
  omega

theorem recent_concat (n : UInt32) : recent w t (log ++ [(t, n)]) = recent w t log ++ [(t, n)] := by
  simp [recent]

/-- The window at `t` has room for `n` more requests and `m` more tokens. -/
def Room (c : RateLimitConfig) (log : List (ℕ × UInt32)) (t n m : ℕ) : Prop :=
  (0 < c.maxRequestsPerWindow.toNat →
    (recent c.window t log).length + n ≤ c.maxRequestsPerWindow.toNat) ∧
  (0 < c.maxTokensPerWindow.toNat → tokens (recent c.window t log) + m ≤ c.maxTokensPerWindow.toNat)

theorem Room.mono {n m : ℕ} (h : Room c log t n m) (ht : t ≤ t') : Room c log t' n m := by
  have hsub : (recent c.window t' log).Sublist (recent c.window t log) := by
    rw [← recent_recent ht]
    exact filter_sublist
  have hlen := hsub.length_le
  have hsum : tokens (recent c.window t' log) ≤ tokens (recent c.window t log) :=
    (hsub.map _).sum_le_sum (by simp)
  exact ⟨fun hr => by have := h.1 hr; omega, fun hm => by have := h.2 hm; omega⟩

/-! ## One check -/

/-- The same times, in order and none after `t`. -/
structure Ordered (l : RateLimiter) (t : ℕ) : Prop where
  times : l.requestLog = l.tokenLog.map (·.1)
  sorted : l.tokenLog.Pairwise fun p q => p.1 ≤ q.1
  past : ∀ p ∈ l.tokenLog, p.1 ≤ t

theorem dropWhile_eq_recent (h : log.Pairwise fun p q => p.1 ≤ q.1) :
    log.dropWhile (fun p => decide (p.1 + w < t)) = recent w t log := by
  induction h with
  | nil => rfl
  | @cons p log hp _ ih =>
    unfold recent at ih ⊢
    rw [dropWhile_cons, filter_cons]
    by_cases hlt : p.1 + w < t
    · simpa [hlt, Nat.not_le.mpr hlt] using ih
    · have hall : log.filter (fun q => decide (t ≤ q.1 + w)) = log := by
        refine filter_eq_self.mpr fun q hq => ?_
        have := hp q hq
        simp only [decide_eq_true_eq]
        omega
      simp [hlt, Nat.not_lt.mp hlt, hall]

theorem Ordered.prune_eq (h : l.Ordered t') {t : ℕ} : l.prune t = { l with
    requestLog := (recent l.config.window t l.tokenLog).map (·.1)
    tokenLog := recent l.config.window t l.tokenLog } := by
  unfold prune
  rw [h.times, dropWhile_map, ← dropWhile_eq_recent h.sorted]
  rfl

theorem Ordered.prune (h : l.Ordered t) (ht : t ≤ t') : (l.prune t').Ordered t' := by
  rw [h.prune_eq]
  exact ⟨rfl, h.sorted.filter _, fun p hp => (h.past p (mem_filter.mp hp).1).trans ht⟩

theorem Ordered.record (h : l.Ordered t) (ht : t ≤ t') (n : UInt32) :
    (l.record t' n).Ordered t' := by
  unfold RateLimiter.record
  refine ⟨by simp [h.times], ?_, ?_⟩
  · refine pairwise_append.mpr ⟨h.sorted, pairwise_singleton _ _, fun p hp q hq => ?_⟩
    rw [mem_singleton.mp hq]
    exact (h.past p hp).trans ht
  · intro p hp
    rcases mem_append.mp hp with hp | hp
    · exact (h.past p hp).trans ht
    · rw [mem_singleton.mp hp]

/-- What a check asks of the records in the window. -/
def Fits (c : RateLimitConfig) (log : List (ℕ × UInt32)) (e : UInt32) : Prop :=
  ¬ (0 < c.maxRequestsPerWindow.toNat ∧ c.maxRequestsPerWindow.toNat ≤ log.length) ∧
  ¬ (0 < c.maxTokensPerWindow.toNat ∧
    c.maxTokensPerWindow.toNat < saturatingAdd (tokens log % 2 ^ 32) e.toNat)

theorem Ordered.check_eq_ok_iff (h : l.Ordered t') :
    (l.check t e).2 = .ok () ↔ Fits l.config (recent l.config.window t l.tokenLog) e := by
  unfold check checkLimits Fits totalTokens tokens
  rw [h.prune_eq, length_map]
  split_ifs <;> simp_all

theorem Fits.room (h : Fits c (recent c.window t log) e) (hroom : Room c log t 0 0)
    (hmax : c.maxTokensPerWindow.toNat < 2 ^ 32 - 1) : Room c log t 1 e.toNat := by
  unfold Fits saturatingAdd at h
  refine ⟨fun hr => by omega, fun hm => ?_⟩
  have hsum := hroom.2 hm
  omega

/-! ## The end of the wait -/

/-- All that was recorded, the estimates since the last record, and the last time. -/
structure Observed where
  limiter : RateLimiter
  history : List (ℕ × UInt32)
  permits : List UInt32
  clock : ℕ

inductive Op where
  | check (now : ℕ) (estimatedTokens : UInt32)
  | record (now : ℕ) (tokens : UInt32)

def start (config : RateLimitConfig) : Observed :=
  { limiter := .new config, history := [], permits := [], clock := 0 }

section Step

variable (s : Observed)

def Observed.checked (now : ℕ) (e : UInt32) : Observed :=
  { s with limiter := (s.limiter.check now e).1, clock := now }

def Observed.allowed (now : ℕ) (e : UInt32) : Observed :=
  { s.checked now e with permits := e :: s.permits }

def Observed.recorded (now : ℕ) (n : UInt32) : Observed :=
  { limiter := s.limiter.record now n, history := s.history ++ [(now, n)], permits := []
    clock := now }

/-- Nondecreasing times; a record follows a successful check, with at most its tokens. -/
inductive Step : Op → Observed → Prop where
  | allowed {now : ℕ} {e : UInt32} (hnow : s.clock ≤ now)
      (hok : (s.limiter.check now e).2 = .ok ()) : Step (.check now e) (s.allowed now e)
  | refused {now wait : ℕ} {e : UInt32} (hnow : s.clock ≤ now)
      (hwait : (s.limiter.check now e).2 = .error wait) : Step (.check now e) (s.checked now e)
  | record {now : ℕ} {n e : UInt32} (hnow : s.clock ≤ now) (he : e ∈ s.permits)
      (hn : n.toNat ≤ e.toNat) : Step (.record now n) (s.recorded now n)

end Step

structure Kept (c : RateLimitConfig) (s : Observed) : Prop where
  config : s.limiter.config = c
  ordered : s.limiter.Ordered s.clock
  agree : recent c.window s.clock s.limiter.tokenLog = recent c.window s.clock s.history
  room : Room c s.history s.clock 0 0
  permits : ∀ e ∈ s.permits, Room c s.history s.clock 1 e.toNat

variable {s : Observed} {now : ℕ}

section

variable (h : Kept c s) (hnow : s.clock ≤ now)
include h hnow

theorem Kept.agree_later :
    recent c.window now s.limiter.tokenLog = recent c.window now s.history := by
  rw [← recent_recent hnow, h.agree, recent_recent hnow]

theorem Kept.checked (e : UInt32) : Kept c (s.checked now e) := by
  refine ⟨h.config, h.ordered.prune hnow, ?_, h.room.mono hnow, fun e he => ?_⟩
  · unfold Observed.checked check
    rw [h.ordered.prune_eq, h.config]
    exact (recent_recent (le_refl now)).trans (h.agree_later hnow)
  · exact (h.permits e he).mono hnow

theorem Kept.allowed (hmax : c.maxTokensPerWindow.toNat < 2 ^ 32 - 1)
    (hok : (s.limiter.check now e).2 = .ok ()) : Kept c (s.allowed now e) := by
  have hchecked := h.checked hnow e
  refine { hchecked with permits := fun e' he' => ?_ }
  rcases mem_cons.mp he' with rfl | he'
  · have hfits := h.ordered.check_eq_ok_iff.mp hok
    rw [h.config, h.agree_later hnow] at hfits
    exact hfits.room (h.room.mono hnow) hmax
  · exact hchecked.permits e' he'

theorem Kept.recorded {n : UInt32} (he : e ∈ s.permits) (hn : n.toNat ≤ e.toNat) :
    Kept c (s.recorded now n) := by
  have hroom := (h.permits e he).mono hnow
  refine ⟨h.config, h.ordered.record hnow n, ?_, ?_, by simp [Observed.recorded]⟩
  · unfold Observed.recorded RateLimiter.record
    rw [recent_concat, recent_concat, h.agree_later hnow]
  · unfold Room tokens Observed.recorded at *
    simp only [recent_concat, length_append, length_singleton, map_append, sum_append,
      map_singleton, sum_singleton]
    exact ⟨fun hr => by have := hroom.1 hr; omega, fun hm => by have := hroom.2 hm; omega⟩

end

/-- **The window keeps the limits** unless the token limit is `u32::MAX`. -/
theorem window_within_limits (c : RateLimitConfig) (hmax : c.maxTokensPerWindow.toNat < 2 ^ 32 - 1)
    {s : Observed} (hrun : Run Step anyStep (start c) s) {t : ℕ} (ht : s.clock ≤ t) :
    (0 < c.maxRequestsPerWindow.toNat →
      (recent c.window t s.history).length ≤ c.maxRequestsPerWindow.toNat) ∧
    (0 < c.maxTokensPerWindow.toNat →
      tokens (recent c.window t s.history) ≤ c.maxTokensPerWindow.toNat) := by
  have hkept : Kept c s := by
    refine hrun.invariant (Kept c) (fun h _ hstep => ?_) ?_
    · cases hstep with
      | allowed hnow hok => exact h.allowed hnow hmax hok
      | refused hnow => exact h.checked hnow _
      | record hnow he hn => exact h.recorded hnow he hn
    · refine ⟨rfl, ⟨rfl, .nil, by simp [start, new]⟩, rfl, ?_, by simp [start]⟩
      exact ⟨fun _ => Nat.zero_le _, fun _ => Nat.zero_le _⟩
  exact hkept.room.mono ht

def twoRecords (max n m : UInt32) : Observed :=
  ((((start ⟨0, max, 10⟩).allowed 1 n).recorded 1 n).allowed 2 m).recorded 2 m

theorem run_twoRecords {max n m : UInt32} (h : ((start ⟨0, max, 10⟩).limiter.check 1 n).2 = .ok ())
    (h' : ((((start ⟨0, max, 10⟩).allowed 1 n).recorded 1 n).limiter.check 2 m).2 = .ok ()) :
    Run Step anyStep (start ⟨0, max, 10⟩) (twoRecords max n m) := by
  refine Run.tail (.record 2 m) ?_ trivial (.record (le_refl 2) (mem_singleton_self m) le_rfl)
  refine Run.tail (.check 2 m) ?_ trivial (.allowed (Nat.le_succ 1) h')
  refine Run.tail (.record 1 n) ?_ trivial (.record (le_refl 1) (mem_singleton_self n) le_rfl)
  exact Run.tail (.check 1 n) (Run.refl _) trivial (.allowed (Nat.zero_le 1) h)

theorem window_within_limits_two : tokens (recent 10 3 (twoRecords 100 60 40).history) ≤ 100 :=
  (window_within_limits ⟨0, 100, 10⟩ (by decide) (run_twoRecords rfl rfl) (by decide)).2 (by decide)

/-- **More tokens than the limit**: at `u32::MAX` the saturated sum is not above it. -/
theorem window_exceeded :
    Run Step anyStep (start ⟨0, 4294967295, 10⟩) (twoRecords 4294967295 4294967295 1) ∧
      tokens (recent 10 2 (twoRecords 4294967295 4294967295 1).history) = 4294967296 :=
  ⟨run_twoRecords rfl rfl, by decide⟩

end Wacp.RateLimiter
