import Wacp.Library.Semaphore
import Wacp.Model.Types

/-!
# Circuit breaker and concurrency limiter of a tool

`wacp-tools/src/resilience.rs`. A method of the breaker holds its mutex throughout, so it is one
function, with the instant it reads as an argument. An `acquire` of the limiter is cut into one
function for each access: it tries the semaphore, loads the counter, adds to it and waits.
`Instant::duration_since` is truncated subtraction.
-/

namespace Wacp

open Library

/-! ## Errors -/

inductive ToolErrorCode where
  | validationFailed | timeout | executionFailed | internalError | unavailable | overloaded
  | cancelled
  deriving DecidableEq

/-- The errors that the registry, the breaker and the limiter construct, by their format string
and its arguments. -/
inductive ToolError where
  | toolNotFound (toolName : String)
  | capabilityNotFound (capabilityName toolName : String)
  | handlerMissing (capabilityName : String)
  | breakerOpen (remaining : ℕ)
  | breakerHalfOpen
  | limitReached (active queued : ℕ)
  deriving DecidableEq

namespace ToolError

def code : ToolError → ToolErrorCode
  | toolNotFound _ | capabilityNotFound _ _ => .validationFailed
  | handlerMissing _ => .internalError
  | breakerOpen _ | breakerHalfOpen => .unavailable
  | limitReached _ _ => .overloaded

def retryable : ToolError → Bool
  | toolNotFound _ | capabilityNotFound _ _ | handlerMissing _ => false
  | breakerOpen _ | breakerHalfOpen | limitReached _ _ => true

def message (debug : ℕ → String) : ToolError → String
  | toolNotFound toolName => "tool '" ++ toolName ++ "' not found"
  | capabilityNotFound capabilityName toolName =>
    "capability '" ++ capabilityName ++ "' not found in tool '" ++ toolName ++ "'"
  | handlerMissing capabilityName =>
    "handler missing for capability '" ++ capabilityName ++ "' — registry inconsistency"
  | breakerOpen remaining => "circuit breaker open, cooldown remaining: " ++ debug remaining
  | breakerHalfOpen => "circuit breaker half-open, probe in progress"
  | limitReached active queued =>
    "concurrency limit reached (" ++ toString active ++ " active, " ++ toString queued ++
      " queued)"

end ToolError

/-! ## Circuit breaker -/

structure CircuitBreakerConfig where
  failureThreshold : ℕ := 5
  failureWindow : ℕ := 60000
  cooldown : ℕ := 30000
  enabled : Bool := false
  deriving DecidableEq

inductive BreakerStatus where
  | closed | opened | halfOpen
  deriving DecidableEq

structure CircuitBreaker where
  config : CircuitBreakerConfig
  status : BreakerStatus
  failures : List ℕ
  openedAt : Option ℕ
  deriving DecidableEq

namespace CircuitBreaker

def new (config : CircuitBreakerConfig) : CircuitBreaker := ⟨config, .closed, [], none⟩

variable (b : CircuitBreaker)

/-- Whether an invocation may start. The first one after the cooldown moves the breaker to
half-open. -/
def check (now : ℕ) : Except ToolError Unit × CircuitBreaker :=
  if !b.config.enabled then (.ok (), b)
  else
    match b.status with
    | .closed => (.ok (), b)
    | .opened =>
      match b.openedAt with
      | some openedAt =>
        if b.config.cooldown ≤ now - openedAt then (.ok (), { b with status := .halfOpen })
        else (.error (.breakerOpen (b.config.cooldown - (now - openedAt))), b)
      | none => (.error (.breakerOpen 0), b)
    | .halfOpen => (.error .breakerHalfOpen, b)

def recordSuccess : CircuitBreaker :=
  if !b.config.enabled then b
  else
    match b.status with
    | .halfOpen => { b with status := .closed, failures := [], openedAt := none }
    | .closed => b
    | .opened => b

def failuresAt (now : ℕ) : List ℕ :=
  b.failures.filter (fun t => now - b.config.failureWindow ≤ t) ++ [now]

def recordFailure (now : ℕ) : CircuitBreaker :=
  if !b.config.enabled then b
  else
    match b.status with
    | .closed =>
      if b.config.failureThreshold ≤ (b.failuresAt now).length then
        { b with failures := b.failuresAt now, status := .opened, openedAt := some now }
      else { b with failures := b.failuresAt now }
    | .halfOpen => { b with status := .opened, openedAt := some now }
    | .opened => b

end CircuitBreaker

/-! ## Concurrency limiter -/

structure ConcurrencyConfig where
  maxConcurrent : ℕ := 10
  maxQueued : ℕ := 50
  deriving DecidableEq

def maxPermits : ℕ := 2305843009213693951

/-- The counter of the queue is an `AtomicU64`; that it wraps around after 2⁶⁴ entries is left
out. -/
structure ConcurrencyLimiter where
  semaphore : Semaphore ℕ
  config : ConcurrencyConfig
  queued : ℕ
  deriving DecidableEq

structure ConcurrencyPermit where
  holder : ℕ
  wasQueued : Bool
  deriving DecidableEq

namespace ConcurrencyLimiter

def permits (config : ConcurrencyConfig) : ℕ :=
  if config.maxConcurrent = 0 then maxPermits else config.maxConcurrent

def new (config : ConcurrencyConfig) : ConcurrencyLimiter :=
  ⟨Semaphore.new (permits config), config, 0⟩

def tryAcquire (l : ConcurrencyLimiter) : Option ConcurrencyLimiter :=
  l.semaphore.tryAcquire.map fun s => { l with semaphore := s }

variable (l : ConcurrencyLimiter)

/-- Whether an `acquire` without a permit counts as queued: a limiter without a limit waits for
the semaphore at once. -/
def counts : Bool := l.config.maxConcurrent != 0

/-- The load of the counter and the test of the capacity of the queue. -/
def inspect : Except ToolError Unit :=
  if l.config.maxQueued ≤ l.queued then
    .error (.limitReached l.config.maxConcurrent l.queued)
  else .ok ()

def enterQueue : ConcurrencyLimiter := { l with queued := l.queued + 1 }

def poll (id : ℕ) : Bool × ConcurrencyLimiter :=
  ((l.semaphore.acquire id).1, { l with semaphore := (l.semaphore.acquire id).2 })

/-- What the drop of a guard does before its permit is released. -/
def dropGuard (p : ConcurrencyPermit) : ConcurrencyLimiter :=
  if p.wasQueued then { l with queued := l.queued - 1 } else l

def release (l : ConcurrencyLimiter) : Option ℕ × ConcurrencyLimiter :=
  (l.semaphore.release.1, { l with semaphore := l.semaphore.release.2 })

def leave (l : ConcurrencyLimiter) (id : ℕ) : ConcurrencyLimiter :=
  { l with semaphore := l.semaphore.leave id }

end ConcurrencyLimiter

/-! ## Concurrent acquisitions -/

/-- A limiter with the invocations that use it, by how far each has come. `cancelled` counts the
futures that were dropped after they had entered the queue; the source does not keep it. -/
structure Acquirers where
  limiter : ConcurrencyLimiter
  (refused entering queueing granted : List ℕ)
  holding : List ConcurrencyPermit
  releasing : List ℕ
  cancelled : ℕ

namespace Acquirers

inductive Label where
  | tryAcquire (id : ℕ)
  | inspect (id : ℕ)
  | enterQueue (id : ℕ)
  | poll (id : ℕ)
  | resume (id : ℕ)
  | dropGuard (p : ConcurrencyPermit)
  | release (id : ℕ)
  | cancel (id : ℕ)
  deriving DecidableEq

def new (config : ConcurrencyConfig) : Acquirers :=
  ⟨ConcurrencyLimiter.new config, [], [], [], [], [], [], 0⟩

abbrev Answer : Type := Option (Except ToolError ConcurrencyPermit)

def tryAcquire (s : Acquirers) (id : ℕ) : Acquirers × Answer :=
  match s.limiter.tryAcquire with
  | some l =>
    ({ s with limiter := l, holding := s.holding ++ [⟨id, false⟩] }, some (.ok ⟨id, false⟩))
  | none => ({ s with refused := s.refused ++ [id] }, none)

def inspect (s : Acquirers) (id : ℕ) : Acquirers × Answer :=
  let s' := { s with refused := s.refused.erase id }
  if !s.limiter.counts then ({ s' with queueing := s.queueing ++ [id] }, none)
  else
    match s.limiter.inspect with
    | .error e => (s', some (.error e))
    | .ok _ => ({ s' with entering := s.entering ++ [id] }, none)

def enterQueue (s : Acquirers) (id : ℕ) : Acquirers × Answer :=
  ({ s with
      limiter := s.limiter.enterQueue
      entering := s.entering.erase id
      queueing := s.queueing ++ [id] }, none)

def poll (s : Acquirers) (id : ℕ) : Acquirers × Answer :=
  let s' := { s with limiter := (s.limiter.poll id).2, queueing := s.queueing.erase id }
  if (s.limiter.poll id).1 then
    ({ s' with holding := s.holding ++ [⟨id, s.limiter.counts⟩] },
      some (.ok ⟨id, s.limiter.counts⟩))
  else (s', none)

variable (s : Acquirers)

def resume (id : ℕ) : Acquirers × Answer :=
  ({ s with
      granted := s.granted.erase id
      holding := s.holding ++ [⟨id, s.limiter.counts⟩] }, some (.ok ⟨id, s.limiter.counts⟩))

def dropGuard (s : Acquirers) (p : ConcurrencyPermit) : Acquirers × Answer :=
  ({ s with
      limiter := s.limiter.dropGuard p
      holding := s.holding.erase p
      releasing := s.releasing ++ [p.holder] }, none)

def giveBack : Acquirers :=
  { s with
    limiter := s.limiter.release.2
    granted := s.granted ++ s.limiter.release.1.toList }

/-- The future of an `acquire` is dropped at its await: before the semaphore has seen it, in the
line, or with a permit that it has not taken. The permit is given back; the counter is not
touched. -/
def cancel (id : ℕ) : Acquirers :=
  if id ∈ s.queueing then
    { s with queueing := s.queueing.erase id, cancelled := s.cancelled + 1 }
  else if id ∈ s.limiter.semaphore.waiters then
    { s with limiter := s.limiter.leave id, cancelled := s.cancelled + 1 }
  else if id ∈ s.granted then
    { s with granted := s.granted.erase id, cancelled := s.cancelled + 1 }.giveBack
  else s

/-- One step, and what `acquire` returns at it. An invocation that is not where the step takes
place does nothing. -/
def step : Label → Acquirers × Answer
  | .tryAcquire id => s.tryAcquire id
  | .inspect id => if id ∈ s.refused then s.inspect id else (s, none)
  | .enterQueue id => if id ∈ s.entering then s.enterQueue id else (s, none)
  | .poll id => if id ∈ s.queueing then s.poll id else (s, none)
  | .resume id => if id ∈ s.granted then s.resume id else (s, none)
  | .dropGuard p => if p ∈ s.holding then s.dropGuard p else (s, none)
  | .release id =>
    if id ∈ s.releasing then ({ s with releasing := s.releasing.erase id }.giveBack, none)
    else (s, none)
  | .cancel id => (s.cancel id, none)

def apply (l : Label) : Acquirers := (s.step l).1

def answer (l : Label) : Answer := (s.step l).2

def waiting : ℕ :=
  s.queueing.length + s.limiter.semaphore.waiters.length + s.granted.length

def held : ℕ := s.holding.length + s.releasing.length

end Acquirers

end Wacp
