import Wacp.Library.Names
import Wacp.Library.Runs
import Wacp.Model.Gate

/-!
# A gate is resolved once

One counter numbers both kinds of gates, so an id names one gate. `timeout` looks among the task
gates only: a checkpoint gate that times out stays open.
-/

namespace Wacp.GateController

open Library List Table

variable {c c' : GateController}

inductive Issue where
  | task (taskId : TaskId) (taskName taskDescription : String) (timeoutMs : Option ℕ)
      (fallback : Option GateFallback)
  | checkpoint (workspaceId : WorkspaceId) (checkpointId : CheckpointId) (checkpointType : String)
      (timeoutMs : Option ℕ) (fallback : Option GateFallback)

def issue (c : GateController) : Issue → GateController × GateEvent
  | .task taskId taskName taskDescription timeoutMs fallback =>
    c.openGate taskId taskName taskDescription timeoutMs fallback
  | .checkpoint workspaceId checkpointId checkpointType timeoutMs fallback =>
    c.openCheckpointGate workspaceId checkpointId checkpointType timeoutMs fallback

inductive Op where
  | issue (i : Issue)
  | resolve (gateId : String) (decision : GateDecision)
  | resolveCheckpoint (gateId : String)
  | timeout (gateId : String)

inductive Outcome where
  | resolution (r : GateResolution)
  | detached (gate : PendingCheckpointGate)
  deriving DecidableEq

def apply (c : GateController) : Op → GateController × Option Outcome
  | .issue i => ((c.issue i).1, none)
  | .resolve gateId decision =>
    ((c.resolve gateId decision).1, (c.resolve gateId decision).2.map .resolution)
  | .resolveCheckpoint gateId =>
    ((c.resolveCheckpoint gateId).1, (c.resolveCheckpoint gateId).2.map .detached)
  | .timeout gateId => ((c.timeout gateId).1, (c.timeout gateId).2.map .resolution)

def Step (c : GateController) (op : Op) (c' : GateController) : Prop := c' = (c.apply op).1

def after (c : GateController) (ops : List Op) : GateController :=
  ops.foldl (fun c op => (c.apply op).1) c

/-! ## What is expected of a gate -/

inductive Gate where
  | task (gate : PendingGate)
  | checkpoint (gate : PendingCheckpointGate)
  deriving DecidableEq

def gateOf (c : GateController) : Issue → Gate
  | .task taskId taskName _ timeoutMs fallback =>
    .task (c.taskGate taskId taskName timeoutMs fallback)
  | .checkpoint workspaceId checkpointId checkpointType timeoutMs fallback =>
    .checkpoint (c.checkpointGate workspaceId checkpointId checkpointType timeoutMs fallback)

/-- What a call on an open gate should return; `none` for a call of the other kind. -/
def Gate.reply : Gate → Op → Option Outcome
  | .task _, .resolve _ decision => some (.resolution (humanResolution decision))
  | .task gate, .timeout _ => some (.resolution (timeoutResolution gate.fallback))
  | .checkpoint gate, .resolveCheckpoint _ => some (.detached gate)
  | .checkpoint gate, .timeout _ => some (.resolution (timeoutResolution gate.fallback))
  | _, _ => none

def Op.gateId : Op → Option String
  | .issue _ => none
  | .resolve gateId _ => some gateId
  | .resolveCheckpoint gateId => some gateId
  | .timeout gateId => some gateId

def Gate.concerns (gate : Gate) (x : String) (op : Op) : Bool :=
  decide (op.gateId = some x) && (gate.reply op).isSome

def Gate.missedBy : Gate → Op → Bool
  | .checkpoint _, .timeout _ => true
  | _, _ => false

def holds (c : GateController) (x : String) : Gate → Bool
  | .task _ => c.isPending x
  | .checkpoint _ => c.isCheckpointPending x

def answers (gate : Gate) (x : String) : GateController → List Op → List (Option Outcome)
  | _, [] => []
  | c, op :: ops =>
    if gate.concerns x op then (c.apply op).2 :: answers gate x (c.apply op).1 ops
    else answers gate x (c.apply op).1 ops

def Gate.firstOnly (gate : Gate) : List Op → List (Option Outcome)
  | [] => []
  | op :: later => gate.reply op :: later.map fun _ => none

/-- The first call that concerns the gate returns its resolution, later ones nothing; without one it
stays open. -/
def ResolvedOnce (gate : Gate) (x : String) (c : GateController) (ops : List Op) : Prop :=
  answers gate x c ops = gate.firstOnly (ops.filter (gate.concerns x)) ∧
    (c.after ops).holds x gate = (ops.filter (gate.concerns x)).isEmpty

/-! ## Ids -/

def name (n : ℕ) : String := "gate-" ++ toString n

def Fresh (c : GateController) : Prop :=
  ∀ n, c.nextId ≤ n → c.pending.get (name n) = none ∧ c.pendingCheckpoints.get (name n) = none

variable {defaultTimeoutMs : ℕ} {defaultFallback : GateFallback}

theorem fresh_new : (new defaultTimeoutMs defaultFallback).Fresh := by
  intro n _
  simp [new]

def Op.removesTask : Op → Option String
  | .resolve gateId _ => some gateId
  | .timeout gateId => some gateId
  | _ => none

def Op.removesCheckpoint : Op → Option String
  | .resolveCheckpoint gateId => some gateId
  | _ => none

variable {x : String}

theorem get_apply (op : Op) (hx : ∀ i, op = .issue i → x ≠ name c.nextId) :
    (c.apply op).1.pending.get x = (if op.removesTask = some x then none else c.pending.get x) ∧
      (c.apply op).1.pendingCheckpoints.get x =
        (if op.removesCheckpoint = some x then none else c.pendingCheckpoints.get x) := by
  cases op with
  | issue i =>
    cases i with
    | task =>
      refine ⟨?_, rfl⟩
      exact (get_set _).trans (if_neg (hx _ rfl))
    | checkpoint =>
      refine ⟨rfl, ?_⟩
      exact (get_set _).trans (if_neg (hx _ rfl))
  | resolve =>
    refine ⟨?_, rfl⟩
    simp [apply, resolve, Op.removesTask, get_remove, eq_comm]
  | resolveCheckpoint =>
    refine ⟨rfl, ?_⟩
    simp [apply, resolveCheckpoint, Op.removesCheckpoint, get_remove, eq_comm]
  | timeout =>
    refine ⟨?_, rfl⟩
    simp [apply, timeout, Op.removesTask, get_remove, eq_comm]

theorem nextId_issue (i : Issue) : (c.apply (.issue i)).1.nextId = c.nextId + 1 := by
  cases i <;> rfl

theorem nextId_le_apply {op : Op} : c.nextId ≤ (c.apply op).1.nextId := by
  cases op with
  | issue =>
    rw [nextId_issue]
    exact Nat.le_succ _
  | resolve | resolveCheckpoint | timeout => exact le_refl _

theorem Fresh.apply (h : c.Fresh) (op : Op) : (c.apply op).1.Fresh := by
  intro n hn
  have hne : ∀ i, op = .issue i → name n ≠ name c.nextId := by
    rintro i rfl heq
    rw [nextId_issue] at hn
    have := numbered_injective "gate-" heq
    omega
  obtain ⟨htask, hcheckpoint⟩ := h n (nextId_le_apply.trans hn)
  rw [(get_apply op hne).1, (get_apply op hne).2, htask, hcheckpoint]
  simp

theorem fresh_of_run (h : Run Step anyStep (new defaultTimeoutMs defaultFallback) c) : c.Fresh := by
  refine h.invariant Fresh ?_ fresh_new
  rintro c₁ op c₂ hI - rfl
  exact hI.apply op

def Used (x : String) (c : GateController) : Prop := ∃ n, n < c.nextId ∧ x = name n

theorem Used.apply (h : Used x c) (op : Op) : Used x (c.apply op).1 := by
  obtain ⟨n, hn, rfl⟩ := h
  exact ⟨n, hn.trans_le nextId_le_apply, rfl⟩

theorem Used.ne_next (h : Used x c) : x ≠ name c.nextId := by
  obtain ⟨n, hn, rfl⟩ := h
  intro heq
  have := numbered_injective "gate-" heq
  omega

/-! ## The life of one gate -/

/-- In the table of its kind, and no gate with this id in the other. -/
def Stored (c : GateController) (x : String) : Gate → Prop
  | .task gate => c.pending.get x = some gate ∧ c.pendingCheckpoints.get x = none
  | .checkpoint gate => c.pendingCheckpoints.get x = some gate ∧ c.pending.get x = none

def Gone (c : GateController) (x : String) : Prop :=
  c.pending.get x = none ∧ c.pendingCheckpoints.get x = none

variable {gate : Gate}

theorem holds_of_stored (h : c.Stored x gate) : c.holds x gate := by
  cases gate <;> exact contains_iff.mpr ⟨_, h.1⟩

theorem holds_of_gone (h : c.Gone x) {gate : Gate} : c.holds x gate = false := by
  cases gate with
  | task => exact contains_eq_false_iff.mpr h.1
  | checkpoint => exact contains_eq_false_iff.mpr h.2

theorem Fresh.issue (h : c.Fresh) (i : Issue) : Used (c.issue i).2.gateId (c.issue i).1 ∧
      (c.issue i).1.Stored (c.issue i).2.gateId (c.gateOf i) := by
  obtain ⟨htask, hcheckpoint⟩ := h c.nextId (le_refl _)
  cases i with
  | task =>
    exact ⟨⟨c.nextId, Nat.lt_succ_self _, rfl⟩, get_set_self _, hcheckpoint⟩
  | checkpoint =>
    exact ⟨⟨c.nextId, Nat.lt_succ_self _, rfl⟩, get_set_self _, htask⟩

theorem Gone.apply (h : c.Gone x) (hx : Used x c) (op : Op) : (c.apply op).1.Gone x := by
  have hget := get_apply op fun _ _ => hx.ne_next
  unfold Gone
  rw [hget.1, hget.2, h.1, h.2]
  simp

variable {op : Op}

theorem Gone.answer (h : c.Gone x) (hop : op.gateId = some x) : (c.apply op).2 = none := by
  cases op with
  | issue => cases hop
  | resolve =>
    cases hop
    simp [GateController.apply, resolve, h.1]
  | resolveCheckpoint =>
    cases hop
    simp [GateController.apply, resolveCheckpoint, h.2]
  | timeout =>
    cases hop
    simp [GateController.apply, timeout, h.1]

theorem Stored.apply (h : c.Stored x gate) (hx : Used x c) (hop : gate.concerns x op = false) :
    (c.apply op).1.Stored x gate := by
  have hget := get_apply op fun _ _ => hx.ne_next
  cases gate with
  | task =>
    have hkeep : op.removesTask ≠ some x := by
      intro hr
      cases op <;> simp_all [Op.removesTask, Gate.concerns, Gate.reply, Op.gateId]
    refine ⟨hget.1.trans ?_, hget.2.trans ?_⟩
    · rw [if_neg hkeep]
      exact h.1
    · rw [h.2]
      simp
  | checkpoint =>
    have hkeep : op.removesCheckpoint ≠ some x := by
      intro hr
      cases op <;> simp_all [Op.removesCheckpoint, Gate.concerns, Gate.reply, Op.gateId]
    refine ⟨hget.2.trans ?_, hget.1.trans ?_⟩
    · rw [if_neg hkeep]
      exact h.1
    · rw [h.2]
      simp

theorem Stored.answer (h : c.Stored x gate) (hx : Used x c) (hop : gate.concerns x op) :
    if gate.missedBy op then (c.apply op).2 = none
    else (c.apply op).2 = gate.reply op ∧ (c.apply op).1.Gone x := by
  obtain ⟨hname, hreply⟩ := (Bool.and_eq_true _ _).mp hop
  have hname := of_decide_eq_true hname
  have hget := get_apply op fun _ _ => hx.ne_next
  unfold Gone
  rw [hget.1, hget.2]
  cases op with
  | issue => cases hname
  | resolve =>
    cases hname
    cases gate with
    | task => simp [Gate.missedBy, GateController.apply, resolve, Gate.reply, h.1, h.2,
        Op.removesTask]
    | checkpoint => cases hreply
  | resolveCheckpoint =>
    cases hname
    cases gate with
    | task => cases hreply
    | checkpoint => simp [Gate.missedBy, GateController.apply, resolveCheckpoint,
        Gate.reply, h.1, h.2, Op.removesCheckpoint]
  | timeout =>
    cases hname
    cases gate with
    | task => simp [Gate.missedBy, GateController.apply, timeout, Gate.reply, h.1, h.2,
        Op.removesTask]
    | checkpoint => simp [Gate.missedBy, GateController.apply, timeout, h.2]

/-! ## Whole runs -/

theorem Gone.run (gate : Gate) (ops : List Op) (h : c.Gone x) (hx : Used x c) :
    answers gate x c ops = (ops.filter (gate.concerns x)).map (fun _ => none) ∧
      (c.after ops).holds x gate = false := by
  induction ops generalizing c with
  | nil => exact ⟨rfl, holds_of_gone h⟩
  | cons op ops ih =>
    obtain ⟨hans, hend⟩ := ih (h.apply hx op) (hx.apply op)
    refine ⟨?_, hend⟩
    rw [answers, filter_cons]
    split_ifs with hop
    · have hname := of_decide_eq_true ((Bool.and_eq_true _ _).mp hop).1
      rw [h.answer hname, hans, map_cons]
    · exact hans

theorem Stored.run (ops : List Op) (h : c.Stored x gate) (hx : Used x c) :
    ResolvedOnce gate x c ops ↔
      ∀ op, ops.find? (gate.concerns x) = some op → gate.missedBy op = false := by
  induction ops generalizing c with
  | nil =>
    constructor
    · intro _ op hop
      cases hop
    · intro _
      exact ⟨rfl, holds_of_stored h⟩
  | cons op ops ih =>
    unfold ResolvedOnce
    rw [answers, filter_cons, find?_cons]
    cases hop : gate.concerns x op with
    | false =>
      exact ih (h.apply hx hop) (hx.apply op)
    | true =>
      have hanswer := h.answer hx hop
      simp only [if_true, Gate.firstOnly, List.cons.injEq, isEmpty_cons,
        Option.some.injEq, forall_eq']
      cases hmissed : gate.missedBy op with
      | true =>
        have hnone : (c.apply op).2 = none := by simpa [hmissed] using hanswer
        have hsome := ((Bool.and_eq_true _ _).mp hop).2
        rw [hnone]
        constructor
        · rintro ⟨⟨heq, -⟩, -⟩
          rw [← heq] at hsome
          cases hsome
        · intro hfalse
          cases hfalse
      | false =>
        obtain ⟨hreply, hgone⟩ : (c.apply op).2 = gate.reply op ∧ (c.apply op).1.Gone x := by
          simpa [hmissed] using hanswer
        obtain ⟨hrest, hend⟩ := hgone.run gate ops (hx.apply op)
        simp only [iff_true]
        exact ⟨⟨hreply, hrest⟩, hend⟩

/-- **A gate is resolved once, unless it is a checkpoint gate that times out first**, after any run
and among any calls. -/
theorem resolved_once_iff {defaultTimeoutMs : ℕ} {defaultFallback : GateFallback}
    (h : Run Step anyStep (new defaultTimeoutMs defaultFallback) c) (i : Issue) (ops : List Op) :
    ResolvedOnce (c.gateOf i) (c.issue i).2.gateId (c.issue i).1 ops ↔
      ∀ op, ops.find? ((c.gateOf i).concerns (c.issue i).2.gateId) = some op →
        (c.gateOf i).missedBy op = false := by
  obtain ⟨hx, hstored⟩ := (fresh_of_run h).issue i
  exact hstored.run ops hx

def sampleIssue : Issue := .checkpoint ⟨"w"⟩ ⟨"cp-0"⟩ "code" none none

theorem resolved_once_answered_gate : ResolvedOnce (gateOf (new 30000 .cancel) sampleIssue) "gate-1"
      (issue (new 30000 .cancel) sampleIssue).1
      [.issue (.task ⟨"t"⟩ "task" "" none none), .resolveCheckpoint "gate-1", .timeout "gate-1",
        .resolveCheckpoint "gate-1"] := by
  refine (resolved_once_iff (Run.refl (new 30000 .cancel)) sampleIssue _).mpr ?_
  intro op hop
  cases hop
  rfl

/-- **An unanswered timeout**: it returns nothing, the gate stays open, and a later response is
answered. -/
theorem checkpoint_gate_timeout_ignored : answers (gateOf (new 30000 .cancel) sampleIssue) "gate-1"
        (issue (new 30000 .cancel) sampleIssue).1
        [.timeout "gate-1", .resolveCheckpoint "gate-1"] =
      [none, some (.detached ⟨"gate-1", ⟨"w"⟩, ⟨"cp-0"⟩, "code", 30000, .cancel, 0⟩)] ∧
      (after (issue (new 30000 .cancel) sampleIssue).1 [.timeout "gate-1"]).isCheckpointPending
        "gate-1" ∧
      ¬ ResolvedOnce (gateOf (new 30000 .cancel) sampleIssue) "gate-1"
        (issue (new 30000 .cancel) sampleIssue).1
        [.timeout "gate-1", .resolveCheckpoint "gate-1"] := by
  refine ⟨by decide, by decide, ?_⟩
  rintro ⟨hanswers, -⟩
  revert hanswers
  decide

end Wacp.GateController
