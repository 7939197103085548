import Mathlib.Algebra.Order.Ring.Nat

/-!
# The rate limiter of the LLM client

`wacp-llm/src/rate_limit.rs`. Instants are natural numbers, and each call is given the one at which
it reads the clock. The `sum()` over the `u32` counts wraps around as in a release build.
-/

namespace Wacp

structure RateLimitConfig where
  (maxRequestsPerWindow maxTokensPerWindow : UInt32)
  window : ℕ

structure RateLimiter where
  config : RateLimitConfig
  requestLog : List ℕ
  tokenLog : List (ℕ × UInt32)

namespace RateLimiter

def new (config : RateLimitConfig) : RateLimiter :=
  { config := config, requestLog := [], tokenLog := [] }

/-- Entries before the cutoff `now - window` are dropped. -/
def prune (l : RateLimiter) (now : ℕ) : RateLimiter :=
  { l with
    requestLog := l.requestLog.dropWhile fun t => decide (t + l.config.window < now)
    tokenLog := l.tokenLog.dropWhile fun p => decide (p.1 + l.config.window < now) }

def saturatingAdd (a b : ℕ) : ℕ := min (a + b) (2 ^ 32 - 1)

def totalTokens (l : RateLimiter) : ℕ := (l.tokenLog.map (·.2.toNat)).sum % 2 ^ 32

/-- Both limits on a pruned log; an error is the duration to wait. -/
def checkLimits (l : RateLimiter) (now : ℕ) (estimatedTokens : UInt32) : Except ℕ Unit :=
  if 0 < l.config.maxRequestsPerWindow.toNat ∧
      l.config.maxRequestsPerWindow.toNat ≤ l.requestLog.length then
    .error (l.config.window - (now - l.requestLog.headD now))
  else if 0 < l.config.maxTokensPerWindow.toNat ∧
      l.config.maxTokensPerWindow.toNat < saturatingAdd l.totalTokens estimatedTokens.toNat then
    .error (l.config.window - (now - (l.tokenLog.map (·.1)).headD now))
  else .ok ()

def check (l : RateLimiter) (now : ℕ) (estimatedTokens : UInt32) : RateLimiter × Except ℕ Unit :=
  (l.prune now, (l.prune now).checkLimits now estimatedTokens)

def record (l : RateLimiter) (now : ℕ) (tokens : UInt32) : RateLimiter :=
  { l with requestLog := l.requestLog ++ [now], tokenLog := l.tokenLog ++ [(now, tokens)] }

end RateLimiter

end Wacp
