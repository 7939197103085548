import Wacp.Library.Table
import Wacp.Model.Types

/-!
# Timeouts and budgets of workspaces

`TimeoutTracker` and `BudgetEnforcer` of `wacp-coordinator/src/resource.rs`. A `u64` is a natural
number below `2 ^ 64`; sums wrap around as in a release build, `saturating_sub` is `-` on `ℕ`.
-/

namespace Wacp

open Library

def addU64 (a b : ℕ) : ℕ := (a + b) % 2 ^ 64

def isTimerActive : WorkspaceState → Bool
  | .active | .blocked | .conflicted => true
  | _ => false

structure TimeoutEntry where
  (elapsedMs limitMs : ℕ)
  running : Bool
  lastResumeMs : ℕ

namespace TimeoutEntry

variable (e : TimeoutEntry)

def change (newState : WorkspaceState) (nowMs : ℕ) : TimeoutEntry :=
  if isTimerActive newState && !e.running then { e with running := true, lastResumeMs := nowMs }
  else if !isTimerActive newState && e.running then
    { e with elapsedMs := addU64 e.elapsedMs (nowMs - e.lastResumeMs), running := false }
  else e

def elapsedAt (nowMs : ℕ) : ℕ :=
  if e.running then addU64 e.elapsedMs (nowMs - e.lastResumeMs) else e.elapsedMs

def expired (nowMs : ℕ) : Bool := e.limitMs != 0 && decide (e.limitMs ≤ e.elapsedAt nowMs)

end TimeoutEntry

abbrev TimeoutTracker := Table WorkspaceId TimeoutEntry

namespace TimeoutTracker

variable (t : TimeoutTracker)

def register (id : WorkspaceId) (limitMs : ℕ) : TimeoutTracker :=
  t.set id { elapsedMs := 0, limitMs := limitMs, running := false, lastResumeMs := 0 }

def onStateChange (id : WorkspaceId) (newState : WorkspaceState) (nowMs : ℕ) : TimeoutTracker :=
  t.modify id (·.change newState nowMs)

def extend (id : WorkspaceId) (additionalMs : ℕ) : TimeoutTracker :=
  t.modify id fun e => { e with limitMs := addU64 e.limitMs additionalMs }

def elapsedMs (id : WorkspaceId) (nowMs : ℕ) : ℕ := ((t.get id).map (·.elapsedAt nowMs)).getD 0

def checkExpired (nowMs : ℕ) : Finset WorkspaceId := (t.retain fun _ e => e.expired nowMs).keys

end TimeoutTracker

inductive BudgetCheckResult where
  | ok
  | warning (dims : List String)
  | exceeded (dims : List String)

namespace BudgetEnforcer

/-- The accumulators are the warnings and the exceeded dimensions. -/
def checkDim (threshold : Float32) (acc : List String × List String) :
    String × ℕ × Option ℕ → List String × List String
  | (name, used, some limit) =>
    if limit = 0 then acc
    else if limit ≤ used then (acc.1, acc.2 ++ [name])
    else if (UInt64.ofNat used).toFloat ≥ (UInt64.ofNat limit).toFloat * threshold.toFloat then
      (acc.1 ++ [name], acc.2)
    else acc
  | (_, _, none) => acc

def dims (usage : ResourceUsage) (budget : ResourceBudget) : List (String × ℕ × Option ℕ) :=
  [("tokens", usage.tokens, budget.maxTokens),
    ("wall_time_ms", usage.wallTimeMs, budget.maxWallTimeMs),
    ("storage_bytes", usage.storageBytes, budget.maxStorageBytes),
    ("network_bytes", usage.networkBytes, budget.maxNetworkBytes),
    ("cost_micros", usage.costMicros, budget.maxCostMicros)]

def check (usage : ResourceUsage) (budget : ResourceBudget) : BudgetCheckResult :=
  let (warnings, exceeded) := (dims usage budget).foldl
    (checkDim (Float32.ofBits budget.warningThreshold)) ([], [])
  if exceeded ≠ [] then .exceeded exceeded
  else if warnings ≠ [] then .warning warnings
  else .ok

def increase : Option ℕ → Option ℕ → Option ℕ
  | some cur, some add => some (addU64 cur add)
  | cur, _ => cur

def increaseBudget (budget additional : ResourceBudget) : ResourceBudget :=
  { budget with
    maxTokens := increase budget.maxTokens additional.maxTokens
    maxWallTimeMs := increase budget.maxWallTimeMs additional.maxWallTimeMs
    maxStorageBytes := increase budget.maxStorageBytes additional.maxStorageBytes
    maxNetworkBytes := increase budget.maxNetworkBytes additional.maxNetworkBytes
    maxCostMicros := increase budget.maxCostMicros additional.maxCostMicros }

end BudgetEnforcer

end Wacp
