import Wacp.Library.Table
import Wacp.Model.Resilience

/-!
# Tool registry

`wacp-tools/src/registry.rs`, around the execution engine. `execute` is cut in two: `enter` up to
the check and `record` after the result. `ToolCalls` is a registry with concurrent calls of
`execute`, each with two notes the source does not keep: whether `check` let it through an open
breaker, and how often the breaker had opened by then.
-/

namespace Wacp

open Library

/-- A package by its name, the names of its capabilities and the keys of its handlers. -/
structure ToolPackage where
  name : String
  (capabilities handlers : List String)
  deriving DecidableEq

inductive PackageError where
  | missingHandler (capability : String)
  | extraHandler (handler : String)
  deriving DecidableEq

def ToolPackage.validate (p : ToolPackage) : Except PackageError Unit := do
  p.capabilities.forM fun cap =>
    if p.handlers.contains cap then .ok () else .error (.missingHandler cap)
  p.handlers.forM fun key =>
    if p.capabilities.contains key then .ok () else .error (.extraHandler key)

structure RegisteredTool where
  (capabilities handlers : List String)
  circuitBreaker : CircuitBreaker
  deriving DecidableEq

inductive RegistryError where
  | package (e : PackageError)
  | duplicateName (name : String)
  deriving DecidableEq

structure ToolRegistry where
  tools : Table String RegisteredTool
  defaultCircuitBreaker : CircuitBreakerConfig

/-- How a call that passed the check ends: no permit, a result of the engine, or the future is
dropped before either. -/
inductive CallEnd where
  | overloaded
  | result (r : Except ToolErrorCode Unit)
  | dropped

/-- What the breaker is told. A call without a permit returns at the `?` of `acquire`, a dropped
one nowhere, and both before this point. -/
def CallEnd.record (e : CallEnd) (now : ℕ) (b : CircuitBreaker) : CircuitBreaker :=
  match e with
  | .overloaded => b
  | .dropped => b
  | .result (.ok _) => b.recordSuccess
  | .result (.error .timeout) => b.recordFailure now
  | .result (.error .executionFailed) => b.recordFailure now
  | .result (.error .internalError) => b.recordFailure now
  | .result (.error _) => b

namespace ToolRegistry

def new (config : CircuitBreakerConfig) : ToolRegistry := ⟨∅, config⟩

variable (r : ToolRegistry)

/-- Registration of a package whose configuration and `initialize` are in order. -/
def register (p : ToolPackage) : Except RegistryError ToolRegistry :=
  match p.validate with
  | .error e => .error (.package e)
  | .ok _ =>
    if r.tools.contains p.name then .error (.duplicateName p.name)
    else
      let tool := ⟨p.capabilities, p.handlers, CircuitBreaker.new r.defaultCircuitBreaker⟩
      .ok { r with tools := r.tools.set p.name tool }

def load (config : CircuitBreakerConfig) (packages : List ToolPackage) : ToolRegistry :=
  packages.foldl (fun r p => (r.register p).toOption.getD r) (new config)

variable (toolName : String)

def breaker : Option CircuitBreaker :=
  (r.tools.get toolName).map RegisteredTool.circuitBreaker

def onBreaker (f : CircuitBreaker → CircuitBreaker) : ToolRegistry :=
  { r with
    tools := r.tools.modify toolName fun t => { t with circuitBreaker := f t.circuitBreaker } }

def enter (capabilityName : String) (now : ℕ) : Except ToolError Unit × ToolRegistry :=
  match r.tools.get toolName with
  | none => (.error (.toolNotFound toolName), r)
  | some tool =>
    if !tool.capabilities.contains capabilityName then
      (.error (.capabilityNotFound capabilityName toolName), r)
    else if !tool.handlers.contains capabilityName then
      (.error (.handlerMissing capabilityName), r)
    else
      ((tool.circuitBreaker.check now).1, r.onBreaker toolName fun b => (b.check now).2)

def record (r : ToolRegistry) (toolName : String) (e : CallEnd) (now : ℕ) : ToolRegistry :=
  r.onBreaker toolName (e.record now)

end ToolRegistry

/-! ## Concurrent calls -/

structure ToolCall where
  toolName : String
  probe : Bool
  openings : ℕ
  deriving DecidableEq

/-- A registry, how often each breaker has opened, and the calls in flight. -/
structure ToolCalls where
  registry : ToolRegistry
  openings : String → ℕ
  inFlight : List ToolCall

namespace ToolCalls

/-- One step of one call of `execute`, with the instant at which it reads the clock. -/
inductive Label where
  | invoke (toolName capabilityName : String) (now : ℕ)
  | finish (call : ToolCall) (e : CallEnd) (now : ℕ)

def status (s : ToolCalls) (toolName : String) : Option BreakerStatus :=
  (s.registry.breaker toolName).map CircuitBreaker.status

def start (registry : ToolRegistry) : ToolCalls := ⟨registry, fun _ => 0, []⟩

variable (s : ToolCalls)

def invoke (toolName capabilityName : String) (now : ℕ) : ToolCalls :=
  match s.registry.enter toolName capabilityName now with
  | (.error _, r) => { s with registry := r }
  | (.ok _, r) =>
    { s with
      registry := r
      inFlight := s.inFlight ++
        [⟨toolName, s.status toolName == some .opened, s.openings toolName⟩] }

def finish (call : ToolCall) (e : CallEnd) (now : ℕ) : ToolCalls :=
  let registry := s.registry.record call.toolName e now
  { registry
    openings := fun n =>
      if s.status n ≠ some .opened ∧
          (registry.breaker n).map CircuitBreaker.status = some .opened then s.openings n + 1
      else s.openings n
    inFlight := s.inFlight.erase call }

def finishing : Label → Option (ToolCall × CallEnd)
  | .invoke _ _ _ => none
  | .finish call e _ => if call ∈ s.inFlight then some (call, e) else none

def apply : Label → ToolCalls
  | .invoke toolName capabilityName now => s.invoke toolName capabilityName now
  | .finish call e now => if call ∈ s.inFlight then s.finish call e now else s

end ToolCalls

end Wacp
