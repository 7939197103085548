import Mathlib.Data.List.Perm.Basic
import Wacp.Analysis.WorkspaceOps
import Wacp.Library.StableQueue

/-!
# Delivery to the inbox

A delivery is dropped if its id was read: two copies that arrive before the first is read are both
read. The reads come in the order of a stable priority queue.
-/

namespace Wacp

open List Library WorkspaceData WorkspaceActor

def envelopeIds (envelopes : List Envelope) : List String := envelopes.map (·.id.text)

structure Reader where
  actor : WorkspaceActor
  popped : List Envelope

namespace Reader

variable {r : Reader}

def start (config : WorkspaceConfig) : Reader := { actor := .spawn config, popped := [] }

def step (r : Reader) (op : WorkspaceOp) : Reader :=
  { actor := (r.actor.applyOp op).1, popped := r.popped ++ (r.actor.applyOp op).2.toList }

def run (r : Reader) (ops : List WorkspaceOp) : Reader := ops.foldl step r

def drain (r : Reader) : List WorkspaceOp := List.replicate r.actor.state.inbox.length .pop

/-- Not a delivery accepted while a copy of the envelope waits. -/
def clean (r : Reader) : WorkspaceOp → Bool
  | .command (.deliverEnvelope e) =>
    r.actor.state.isEnvelopeDelivered e.id.text ||
      !decide (e.id.text ∈ envelopeIds r.actor.state.inbox)
  | _ => true

def cleanRun : Reader → List WorkspaceOp → Bool
  | _, [] => true
  | r, op :: ops => r.clean op && cleanRun (r.step op) ops

/-! ## One operation -/

def seen (r : Reader) : List String :=
  envelopeIds r.popped ++ envelopeIds r.actor.state.inbox

def Recorded (r : Reader) : Prop :=
  ∀ x, x ∈ r.actor.state.deliveredEnvelopeIds ↔ x ∈ envelopeIds r.popped

/-- The ids read stay recorded, and an operation is clean exactly if it repeats no id. -/
def Advances (r r' : Reader) (clean : Bool) : Prop :=
  r'.Recorded ∧ (r'.seen.Nodup ↔ clean ∧ r.seen.Nodup)

theorem advances_of_eq {r' : Reader} (h : r.Recorded) (hpopped : r'.popped = r.popped)
    (hmail : (r'.actor.state.inbox, r'.actor.state.deliveredEnvelopeIds) =
      (r.actor.state.inbox, r.actor.state.deliveredEnvelopeIds)) : Advances r r' true := by
  obtain ⟨hinbox, hdelivered⟩ := Prod.mk.inj hmail
  refine ⟨fun x => ?_, ?_⟩
  · rw [hdelivered, hpopped]
    exact h x
  · unfold seen
    rw [hinbox, hpopped]
    simp

theorem envelopeIds_pushInbox {d : WorkspaceData} {e : Envelope} :
    (envelopeIds (d.pushInbox e).inbox).Perm (e.id.text :: envelopeIds d.inbox) :=
  (perm_insertIdx e d.inbox findIdx_le_length).map _

theorem advances_deliver (h : r.Recorded) (e : Envelope) :
    Advances r (r.step (.command (.deliverEnvelope e)))
      (r.clean (.command (.deliverEnvelope e))) := by
  rcases r.actor.state_deliverEnvelope e with ⟨hstate, hdelivered⟩ | ⟨hnew, s, hstate⟩
  · have hclean : r.clean (.command (.deliverEnvelope e)) := by simp [clean, hdelivered]
    rw [hclean]
    refine advances_of_eq h (append_nil _) ?_
    exact congrArg (fun d : WorkspaceData => (d.inbox, d.deliveredEnvelopeIds)) hstate
  · have hpopped : (r.step (.command (.deliverEnvelope e))).popped = r.popped :=
      append_nil _
    have hinbox : (r.step (.command (.deliverEnvelope e))).actor.state.inbox =
        (r.actor.state.pushInbox e).inbox := by
      have := congrArg inbox hstate
      exact this
    have hids : (r.step (.command (.deliverEnvelope e))).actor.state.deliveredEnvelopeIds =
        r.actor.state.deliveredEnvelopeIds := by
      have := congrArg deliveredEnvelopeIds hstate
      exact this
    refine ⟨fun x => ?_, ?_⟩
    · rw [hids, hpopped]
      exact h x
    · have hunread : e.id.text ∉ envelopeIds r.popped := by
        rw [← h]
        exact of_decide_eq_false hnew
      have hperm : (r.step (.command (.deliverEnvelope e))).seen.Perm (e.id.text :: r.seen) := by
        unfold seen
        rw [hpopped, hinbox]
        exact (envelopeIds_pushInbox.append_left _).trans perm_middle
      rw [hperm.nodup_iff, nodup_cons]
      simp [clean, hnew, seen, hunread]

theorem advances_pop (h : r.Recorded) : Advances r (r.step .pop) true := by
  unfold step applyOp popInbox
  dsimp only
  split
  · exact advances_of_eq h (append_nil _) rfl
  · next e rest hinbox =>
      refine ⟨fun x => ?_, ?_⟩
      · simp [envelopeIds, h x, or_comm]
      · simp [seen, envelopeIds, hinbox]

theorem blind_inbox : Blind fun d : WorkspaceData => (d.inbox, d.deliveredEnvelopeIds) :=
  ⟨fun _ _ => rfl, fun _ _ => rfl, fun _ _ => rfl⟩

theorem advances_step (h : r.Recorded) {op : WorkspaceOp} :
    Advances r (r.step op) (r.clean op) := by
  cases op with
  | command cmd =>
    by_cases hdeliver : ∃ e, cmd = .deliverEnvelope e
    · obtain ⟨e, rfl⟩ := hdeliver
      exact advances_deliver h e
    · have hclean : r.clean (.command cmd) := by
        cases cmd with
        | deliverEnvelope e => exact absurd ⟨e, rfl⟩ hdeliver
        | _ => rfl
      rw [hclean]
      refine advances_of_eq h (append_nil _) ?_
      exact map_handleCoordinatorCmd blind_inbox r.actor
        (fun e he => hdeliver ⟨e, he⟩) fun _ _ => rfl
  | message msg =>
    refine advances_of_eq h (append_nil _) ?_
    exact map_handleAgentMsg blind_inbox r.actor
  | pop => exact advances_pop h
  | write =>
    exact advances_of_eq h (append_nil _) rfl

/-! ## Whole runs -/

theorem advances_run {ops : List WorkspaceOp} (h : r.Recorded) :
    Advances r (r.run ops) (r.cleanRun ops) := by
  induction ops generalizing r with
  | nil => exact advances_of_eq h rfl rfl
  | cons op ops ih =>
    obtain ⟨hrecorded, hstep⟩ := advances_step h
    obtain ⟨hend, hrest⟩ := ih hrecorded
    refine ⟨hend, hrest.trans ?_⟩
    rw [hstep, cleanRun, Bool.and_eq_true]
    tauto

theorem recorded_start {config : WorkspaceConfig} : (start config).Recorded := by
  intro x
  simp [start, spawn, new, envelopeIds]

theorem popped_drain (r : Reader) : (r.run r.drain).popped = r.popped ++ r.actor.state.inbox := by
  unfold drain
  generalize hn : r.actor.state.inbox.length = n
  induction n generalizing r with
  | zero =>
    rw [length_eq_zero_iff.mp hn, append_nil]
    rfl
  | succ n ih =>
    obtain ⟨e, rest, hinbox⟩ := exists_cons_of_length_eq_add_one hn
    have hstep : (r.step .pop).popped = r.popped ++ [e] ∧
        (r.step .pop).actor.state.inbox = rest := by
      simp [step, applyOp, popInbox, hinbox]
    have hlength : (r.step .pop).actor.state.inbox.length = n := by
      rw [hstep.2]
      rw [hinbox] at hn
      exact Nat.succ.inj hn
    rw [replicate_succ]
    show ((r.step .pop).run _).popped = _
    rw [ih _ hlength, hstep.1, hstep.2, hinbox, append_assoc]
    rfl

theorem run_append (ops ops' : List WorkspaceOp) :
    r.run (ops ++ ops') = (r.run ops).run ops' := foldl_append

/-- **No id is read twice, unless a copy was accepted while another waited**; then reading the inbox
out pops an id twice. -/
theorem popped_once_iff (config : WorkspaceConfig) (ops : List WorkspaceOp) :
    ((start config).cleanRun ops → (envelopeIds ((start config).run ops).popped).Nodup) ∧
      ((envelopeIds ((start config).run (ops ++ ((start config).run ops).drain)).popped).Nodup ↔
        (start config).cleanRun ops) := by
  obtain ⟨-, hrun⟩ := advances_run recorded_start
  have hstart : (start config).seen.Nodup := nodup_nil
  refine ⟨fun hclean => ?_, ?_⟩
  · exact (hrun.mpr ⟨hclean, hstart⟩).of_append_left
  · rw [run_append, popped_drain]
    have hseen : envelopeIds (((start config).run ops).popped ++
        ((start config).run ops).actor.state.inbox) = ((start config).run ops).seen :=
      map_append
    rw [hseen, hrun]
    simp [hstart]

def sampleEnvelope (id : String) (priority : EnvelopePriority) : Envelope :=
  { id := ⟨id⟩, fromWorkspace := ⟨"root"⟩, toWorkspace := ⟨"w"⟩, envelopeType := "note"
    payload := [], inReplyTo := none, timestamp := 0, priority := priority, origin := .agent
    state := .created }

def sampleConfig : WorkspaceConfig :=
  { id := ⟨"w"⟩, role := "dev", baseRole := .worker, parent := ⟨"root"⟩, owner := ⟨"alice"⟩
    originator := .system, directive := sampleEnvelope "d" .normal, context := []
    visibility := {"docs"}, authority := ∅, delegate := false, budget := none }

theorem popped_once_read_copy : (envelopeIds ((start sampleConfig).run
      [.command (.deliverEnvelope (sampleEnvelope "e" .normal)), .pop,
        .command (.deliverEnvelope (sampleEnvelope "e" .urgent)), .pop]).popped).Nodup :=
  (popped_once_iff sampleConfig _).1 (by decide)

/-- Two copies, the second with a higher priority, and two reads. -/
def waitingCopy : List WorkspaceOp :=
  [.command (.deliverEnvelope (sampleEnvelope "e" .normal)),
    .command (.deliverEnvelope (sampleEnvelope "e" .urgent)), .pop, .pop]

/-- **An envelope read twice**: the second copy arrives before the first is read. -/
theorem popped_twice_waiting_copy :
    envelopeIds ((start sampleConfig).run waitingCopy).popped = ["e", "e"] ∧
      ¬ (envelopeIds ((start sampleConfig).run waitingCopy).popped).Nodup := by
  decide

end Reader

/-! ## The order of the inbox -/

inductive InboxOp where
  | push (envelope : Envelope)
  | pop
  | migrate (config : WorkspaceConfig) (restoreStatus : WorkspaceState)

/-- What pops return; a migration goes on from the restored snapshot. -/
def WorkspaceData.served (d : WorkspaceData) : List InboxOp → List (Option Envelope)
  | [] => []
  | .push envelope :: ops => (d.pushInbox envelope).served ops
  | .pop :: ops => d.popInbox.2 :: d.popInbox.1.served ops
  | .migrate config status :: ops =>
    (restoreFromSnapshot config d.captureSnapshot status).served ops

def rankOf (envelope : Envelope) : ℕ := priorityRank envelope.priority

/-- **A stable priority queue**: a pop takes the first of those with the highest priority, and
nothing only if there is none. -/
def Serves : List Envelope → List InboxOp → List (Option Envelope) → Prop
  | _, [], out => out = []
  | pending, .push e :: ops, out => Serves (pending ++ [e]) ops out
  | pending, .pop :: ops, some e :: out => ∃ before after, pending = before ++ e :: after ∧
      (∀ e' ∈ before, rankOf e' < rankOf e) ∧ (∀ e' ∈ after, rankOf e' ≤ rankOf e) ∧
        Serves (before ++ after) ops out
  | pending, .pop :: ops, none :: out => pending = [] ∧ Serves [] ops out
  | _, .pop :: _, [] => False
  | pending, .migrate _ _ :: ops, out => Serves pending ops out

theorem serves_of_queued {ops : List InboxOp} {pending : List Envelope} {d : WorkspaceData}
    (h : Queued rankOf pending d.inbox) : Serves pending ops (d.served ops) := by
  induction ops generalizing pending d with
  | nil => rfl
  | cons op ops ih =>
    cases op with
    | push e => exact ih (h.push e)
    | migrate => exact ih h
    | pop =>
      unfold served popInbox
      cases hinbox : d.inbox with
      | nil =>
        rw [hinbox] at h
        obtain rfl := h.eq_nil
        exact ⟨rfl, ih (by rwa [hinbox])⟩
      | cons =>
        rw [hinbox] at h
        obtain ⟨before, after, rfl, hbefore, hafter, hrest⟩ := h.pop
        exact ⟨before, after, rfl, hbefore, hafter, ih hrest⟩

/-- **The inbox is a stable priority queue** in every sequence of pushes, pops and migrations. -/
theorem inbox_serves (config : WorkspaceConfig) (ops : List InboxOp) :
    Serves [] ops ((new config).served ops) :=
  serves_of_queued ⟨.nil, fun _ => rfl⟩

end Wacp
