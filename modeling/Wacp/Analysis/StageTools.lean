import Wacp.Model.StageAgent

/-!
# The tools a stage executes

The stage carries out any call whose name some executor knows. The gate is reliable: an untrusted
call runs only after the human approved it, or its operation for always.
-/

namespace Wacp.Cli

open Library Wacp.Local List

abbrev Log := List (Exchange Call Reply)

section Approval

variable (text : TextLibrary)

def approvesAlways : Exchange Call Reply → Option OperationType
  | ⟨.promptGate _ operation, answer⟩ =>
    if decisionOf text answer = .always then some operation else none
  | _ => none

def alwaysIn (log : Log) : List OperationType := log.filterMap (approvesAlways text)

def isAnswer : Exchange Call Reply → Bool
  | ⟨.streamCompletion _ _, _⟩ => true
  | _ => false

def untilAnswer (log : Log) : Log := (log.reverse.dropWhile fun x => !isAnswer x).reverse

/-- The operation was trusted when the last answer requested its calls, from the start or by an
approval for always. -/
def TrustedWhenRequested (autonomy : AutonomyManager) (log : Log) (operation : OperationType) :
    Prop :=
  operation ∈ autonomy.trusted ∨ operation ∈ alwaysIn text (untilAnswer log)

def ApprovedCall (log : Log) (call : ToolCall) (operation : OperationType) : Prop :=
  ∃ earlier answer, log = earlier ++ [⟨.promptGate call operation, answer⟩] ∧
    decisionOf text answer = .once

end Approval

def requestedBy : Exchange Call Reply → List ToolCall
  | ⟨.streamCompletion _ _, .ok response⟩ => response.toolCalls
  | _ => []

def executedBy : Exchange Call Reply → Option ToolCall
  | ⟨.runTool _ call _, _⟩ => some call
  | _ => none

/-- What was executed and not trusted when requested was approved, for that call or for always. -/
def GateKept (config : StageConfig) (autonomy : AutonomyManager) (log : Log) : Prop :=
  ∀ (i : ℕ) (x : Exchange Call Reply) (call : ToolCall) (operation : OperationType),
    log[i]? = some x → executedBy x = some call →
    gateOperation call.name config.ecosystem = some operation →
    ¬ TrustedWhenRequested config.text autonomy (log.take i) operation →
    ApprovedCall config.text (log.take i) call operation ∨
      operation ∈ alwaysIn config.text (log.take i)

/-- The tools that ran are in the profile, and what was not trusted was approved. -/
structure StageConfined (config : StageConfig) (profile : AgentProfile)
    (autonomy : AutonomyManager) (log : Log) : Prop where
  listed : ∀ x ∈ log, ∀ call, executedBy x = some call → call.name ∈ profile.tools
  approved : GateKept config autonomy log

def CallsListed (profile : AgentProfile) (log : Log) : Prop :=
  ∀ x ∈ log, ∀ call ∈ requestedBy x, call.name ∈ profile.tools

/-! ## The protocol -/

structure Phase where
  always : List OperationType
  calls : List ToolCall
  approved : Option (ToolCall × OperationType)

variable (config : StageConfig) (autonomy : AutonomyManager)

def Phase.Allows (φ : Phase) (call : ToolCall) : Prop :=
  call ∈ φ.calls ∧ ∀ operation, gateOperation call.name config.ecosystem = some operation →
    operation ∈ autonomy.trusted ∨ operation ∈ φ.always ∨ φ.approved = some (call, operation)

def Phase.decided (φ : Phase) (call : ToolCall) (operation : OperationType) : Decision → Phase
  | .once => { φ with approved := some (call, operation) }
  | .always => { φ with always := φ.always ++ [operation], approved := none }
  | .deny => { φ with approved := none }

def Phase.after (φ : Phase) : Exchange Call Reply → Phase
  | ⟨.streamCompletion _ _, .ok response⟩ =>
    { always := φ.always, calls := response.toolCalls, approved := none }
  | ⟨.streamCompletion _ _, .error _⟩ =>
    { always := φ.always, calls := [], approved := none }
  | ⟨.promptGate call operation, answer⟩ =>
    φ.decided call operation (decisionOf config.text answer)
  | _ => { φ with approved := none }

open Classical in

/-- All is allowed but the execution of a tool that the phase does not let run. -/
noncomputable def Phase.next (φ : Phase) (x : Exchange Call Reply) : Option Phase :=
  if ∀ call, executedBy x = some call → φ.Allows config autonomy call then
    some (φ.after config x)
  else none

variable {config autonomy} {φ : Phase} {x : Exchange Call Reply}

theorem Phase.next_of_not_executed (h : executedBy x = none) :
    φ.next config autonomy x = some (φ.after config x) := by
  unfold Phase.next
  rw [if_pos]
  intro call hcall
  rw [h] at hcall
  cases hcall

/-! ## The stage keeps to the protocol -/

/-- The manager trusts what it did at first and what was approved for always. -/
def InStep (autonomy manager : AutonomyManager) (φ : Phase) : Prop :=
  ∀ operation, operation ∈ manager.trusted ↔
    operation ∈ autonomy.trusted ∨ operation ∈ φ.always

/-- No approval for always in between, and the calls are of the same answer. -/
def Unchanged (φ φ' : Phase) : Prop := φ'.always = φ.always ∧ φ'.calls = φ.calls

variable {manager : AutonomyManager}

theorem InStep.of_unchanged {φ' : Phase} (h : InStep autonomy manager φ) (hsame : Unchanged φ φ') :
    InStep autonomy manager φ' := by
  intro operation
  rw [hsame.1]
  exact h operation

variable (config autonomy) in
abbrev Keeps {α : Type} (p : Action α) (post : Phase → α → Prop) (φ : Phase) : Prop :=
  p.Follows (Phase.next config autonomy) post φ

variable (config autonomy) in
abbrev KeepsCalm {α : Type} (p : Action α) (φ : Phase) : Prop :=
  Keeps config autonomy p (fun φ' _ => Unchanged φ φ') φ

/-- **A call that executes nothing and is not looked at.** -/
theorem follows_quiet {α : Type} {c : Call} {f : Reply c → Action α} {post : Phase → α → Prop}
    (hexec : ∀ r, executedBy ⟨c, r⟩ = none)
    (h : ∀ r, Keeps config autonomy (f r) post (φ.after config ⟨c, r⟩)) :
    Keeps config autonomy (Prog.perform c >>= f) post φ :=
  Prog.Follows.perform fun r => ⟨_, Phase.next_of_not_executed (hexec r), h r⟩

variable {call : ToolCall}

theorem follows_runTool {α : Type} {executor : Executor}
    {f : Except ToolFailure (String × Bool) → Action α} {post : Phase → α → Prop}
    (hallows : φ.Allows config autonomy call)
    (h : ∀ r, Keeps config autonomy (f r) post { φ with approved := none }) :
    Keeps config autonomy (Prog.perform (Call.runTool executor call manager) >>= f) post φ := by
  refine Prog.Follows.perform fun r => ⟨{ φ with approved := none }, ?_, h r⟩
  unfold Phase.next
  rw [if_pos]
  · rfl
  · intro call' hcall
    cases hcall
    exact hallows

theorem follows_executeSweTools (hallows : φ.Allows config autonomy call) :
    KeepsCalm config autonomy (executeSweTools manager call) φ := by
  by_cases hswe : call.name ∈ sweToolNames
  · have hruns : executeSweTools manager call =
        (Prog.perform (Call.runTool .swe call manager) >>= Prog.ret) := if_pos hswe
    rw [hruns]
    exact follows_runTool hallows fun r => ⟨rfl, rfl⟩
  · have hnone : executeSweTools manager call =
        pure (.ok ("Unknown SWE tool: " ++ call.name, true)) := if_neg hswe
    rw [hnone]
    exact ⟨rfl, rfl⟩

theorem follows_executeTool (hallows : φ.Allows config autonomy call) :
    KeepsCalm config autonomy (executeTool config.ecosystem manager call) φ := by
  unfold executeTool
  split_ifs with hbuiltin
  · refine follows_runTool hallows ?_
    rintro (e | result)
    all_goals exact ⟨rfl, rfl⟩
  · cases config.ecosystem.bind fun e => e.toolByName call.name with
    | some =>
      refine follows_runTool hallows ?_
      rintro (e | result)
      all_goals exact ⟨rfl, rfl⟩
    | none =>
      refine (follows_executeSweTools hallows).bind ?_
      rintro φ' (e | result) hsame
      · exact hsame
      · dsimp only
        split_ifs
        all_goals exact hsame

variable {operation : OperationType}

theorem Phase.allows_of_operation (hcall : call ∈ φ.calls)
    (hop : gateOperation call.name config.ecosystem = some operation)
    (h : operation ∈ autonomy.trusted ∨ operation ∈ φ.always ∨
      φ.approved = some (call, operation)) : φ.Allows config autonomy call := by
  refine ⟨hcall, ?_⟩
  intro operation' hop'
  rw [hop] at hop'
  cases hop'
  exact h

variable (autonomy φ) in
/-- The manager is in step, and the calls are of the same answer. -/
def GateEnds (φ' : Phase) (r : ToolResult × AutonomyManager) : Prop :=
  InStep autonomy r.2 φ' ∧ φ'.calls = φ.calls

/-- **The gate.** An untrusted call is executed after an approval, which is undone unless for
always. -/
theorem follows_gated (hcall : call ∈ φ.calls)
    (hop : gateOperation call.name config.ecosystem = some operation)
    (hstep : InStep autonomy manager φ) (huntrusted : operation ∉ manager.trusted) :
    Keeps config autonomy (gated config.text config.ecosystem manager call operation)
      (GateEnds autonomy φ) φ := by
  apply follows_quiet (fun _ => rfl)
  intro answer
  show Prog.Follows _ _ _ (φ.decided call operation (decisionOf config.text answer))
  cases decisionOf config.text answer with
  | once =>
    have hallows : Phase.Allows config autonomy { φ with approved := some (call, operation) } call :=
      Phase.allows_of_operation hcall hop (.inr (.inr rfl))
    refine (follows_executeTool hallows).bind ?_
    rintro φ' result ⟨halways, hcalls⟩
    apply follows_quiet (fun _ => rfl)
    intro _
    refine ⟨?_, hcalls⟩
    -- the grant is taken back, since nothing untrusted is always trusted
    have hrevoke : ((manager.grant operation).revoke operation).trusted = manager.trusted := by
      have hnot : operation ∉ manager.alwaysTrusted :=
        fun h => huntrusted (manager.always_subset h)
      unfold AutonomyManager.revoke
      rw [dif_neg (show operation ∉ (manager.grant operation).alwaysTrusted from hnot)]
      exact Finset.erase_insert huntrusted
    intro operation'
    rw [hrevoke]
    show _ ↔ _ ∨ operation' ∈ φ'.always
    rw [halways]
    exact hstep operation'
  | always =>
    apply follows_quiet (fun _ => rfl)
    intro _
    have hallows : Phase.Allows config autonomy
        { φ with always := φ.always ++ [operation], approved := none } call :=
      Phase.allows_of_operation hcall hop (.inr (.inl (by simp)))
    refine (follows_executeTool hallows).bind ?_
    rintro φ' result ⟨halways, hcalls⟩
    refine ⟨?_, hcalls⟩
    intro operation'
    rw [halways]
    show operation' ∈ insert operation manager.trusted ↔ _
    rw [Finset.mem_insert, hstep operation', mem_append, mem_singleton]
    tauto
  | deny => exact follows_quiet (fun _ => rfl) fun _ => ⟨hstep, rfl⟩

theorem follows_executeWithGate (hcall : call ∈ φ.calls) (hstep : InStep autonomy manager φ) :
    Keeps config autonomy (executeWithGate config.text config.ecosystem manager call)
      (GateEnds autonomy φ) φ := by
  have hungated (hallows : φ.Allows config autonomy call) :
      Keeps config autonomy (executeTool config.ecosystem manager call >>= fun result =>
        (pure (result, manager) : Action (ToolResult × AutonomyManager)))
        (GateEnds autonomy φ) φ := by
    refine (follows_executeTool hallows).bind ?_
    intro φ' result hsame
    exact ⟨hstep.of_unchanged hsame, hsame.2⟩
  unfold executeWithGate
  cases hop : gateOperation call.name config.ecosystem with
  | none =>
    apply hungated
    refine ⟨hcall, ?_⟩
    intro operation hop'
    rw [hop] at hop'
    cases hop'
  | some operation =>
    dsimp only
    split_ifs with hcheck
    · have htrusted := (hstep operation).mp (of_decide_eq_true hcheck)
      exact hungated (Phase.allows_of_operation hcall hop (htrusted.imp id Or.inl))
    · exact follows_gated hcall hop hstep fun h => hcheck (decide_eq_true h)

theorem follows_whenConnected {c : Call} (hexec : ∀ r, executedBy ⟨c, r⟩ = none)
    (hsame : ∀ r, Unchanged φ (φ.after config ⟨c, r⟩)) :
    KeepsCalm config autonomy (whenConnected config c) φ := by
  unfold whenConnected
  split_ifs
  · exact follows_quiet hexec fun r => hsame r
  · exact ⟨rfl, rfl⟩

theorem follows_checkpointResult {result : ToolResult} :
    KeepsCalm config autonomy (checkpointResult config call result) φ := by
  unfold checkpointResult
  split_ifs
  · exact ⟨rfl, rfl⟩
  · exact follows_whenConnected (fun _ => rfl) fun _ => ⟨rfl, rfl⟩

variable (autonomy) in
def LoopEnds {α : Type} (φ : Phase) (r : α × AutonomyManager) : Prop := InStep autonomy r.2 φ

theorem follows_runCalls {calls : List ToolCall} (hcalls : ∀ call ∈ calls, call ∈ φ.calls)
    (hstep : InStep autonomy manager φ) :
    Keeps config autonomy (runCalls config calls manager) (LoopEnds autonomy) φ := by
  induction calls generalizing manager φ with
  | nil => exact hstep
  | cons call calls ih =>
    rw [forall_mem_cons] at hcalls
    refine (follows_executeWithGate hcalls.1 hstep).bind ?_
    rintro φ₁ ⟨result, manager₁⟩ ⟨hstep₁, hcalls₁⟩
    refine follows_checkpointResult.bind ?_
    intro φ₂ _ hsame
    have hcalls₂ : ∀ call ∈ calls, call ∈ φ₂.calls := by
      rw [hsame.2, hcalls₁]
      exact hcalls.2
    exact (ih hcalls₂ (hstep₁.of_unchanged hsame)).bind fun φ₃ r hstep₃ => hstep₃

theorem follows_loopFrom (tools : List ToolDefinition) {turns : ℕ} (messages : List Message)
    (lastContent : String) (hstep : InStep autonomy manager φ) :
    Keeps config autonomy (loopFrom config tools turns messages lastContent manager)
      (LoopEnds autonomy) φ := by
  induction turns generalizing messages lastContent manager φ with
  | zero => exact follows_quiet (fun _ => rfl) fun _ => hstep
  | succ turns ih =>
    apply follows_quiet (fun _ => rfl)
    intro r
    obtain (⟨_, _, _ | _⟩ | _ | _) | response := r
    · exact hstep
    · exact follows_quiet (fun _ => rfl) fun _ => ih messages lastContent hstep
    · exact hstep
    · exact hstep
    · dsimp only
      generalize (if response.content = "" then lastContent else response.content) = content
      split_ifs
      · exact follows_quiet (fun _ => rfl) fun _ => hstep
      · have hanswered : InStep autonomy manager
            (φ.after config ⟨.streamCompletion messages tools, .ok response⟩) := hstep
        refine (follows_runCalls (fun _ h => h) hanswered).bind ?_
        rintro φ' ⟨toolMessages, manager'⟩ hstep'
        exact ih _ content hstep'

theorem follows_bindStage {binding : Option (String × String)} :
    KeepsCalm config autonomy (bindStage config binding) φ := by
  unfold bindStage
  cases binding with
  | none => exact ⟨rfl, rfl⟩
  | some =>
    split_ifs
    · apply follows_quiet (fun _ => rfl)
      rintro (e | _)
      · exact ⟨rfl, rfl⟩
      · have hstarted : KeepsCalm config autonomy (whenConnected config (.emitSignal .started))
            { φ with approved := none } :=
          follows_whenConnected (fun _ => rfl) fun _ => ⟨rfl, rfl⟩
        exact hstarted
    · exact ⟨rfl, rfl⟩

theorem follows_closeStage {input : StageInput} {result : LoopResult} :
    Keeps config autonomy (closeStage config input result) (fun _ _ => True) φ := by
  have hsignal (signal : StageSignal) (φ : Phase) :
      Keeps config autonomy (whenConnected config (.emitSignal signal)) (fun _ _ => True) φ :=
    (follows_whenConnected (fun _ => rfl) fun _ => ⟨rfl, rfl⟩).mono fun _ _ _ => trivial
  unfold closeStage
  cases result with
  | error => exact hsignal _ φ
  | ok =>
    dsimp only
    split_ifs
    · exact hsignal _ φ
    · exact (follows_whenConnected (fun _ => rfl) fun _ => ⟨rfl, rfl⟩).bind fun φ' _ _ =>
        hsignal _ φ'

def Phase.initial : Phase := { always := [], calls := [], approved := none }

/-- **Every stage keeps to the protocol**, whatever is replied. -/
theorem follows_stageAgentLoop {input : StageInput} :
    Keeps config autonomy (stageAgentLoop config input autonomy) (fun _ _ => True)
      Phase.initial := by
  have hstep : InStep autonomy autonomy Phase.initial := by
    intro operation
    simp [Phase.initial]
  refine follows_bindStage.bind ?_
  intro φ₁ _ hsame
  refine (follows_loopFrom _ _ "" (hstep.of_unchanged hsame)).bind ?_
  rintro φ₂ ⟨result, manager⟩ -
  exact follows_closeStage.bind fun _ _ _ => trivial

/-! ## What the protocol allows -/

structure Sound (config : StageConfig) (autonomy : AutonomyManager) (φ : Phase) (log : Log) :
    Prop where
  always : φ.always = alwaysIn config.text log
  calls : ∀ call ∈ φ.calls, ∃ x ∈ log, call ∈ requestedBy x
  approved : ∀ call operation, φ.approved = some (call, operation) →
    ApprovedCall config.text log call operation
  executed : ∀ x ∈ log, ∀ call, executedBy x = some call → ∃ y ∈ log, call ∈ requestedBy y
  gate : GateKept config autonomy log

theorem Sound.initial : Sound config autonomy Phase.initial [] where
  always := rfl
  calls := by simp [Phase.initial]
  approved := by simp [Phase.initial]
  executed := by simp
  gate := by
    intro i x call operation hx
    simp at hx

theorem alwaysIn_snoc (text : TextLibrary) (log : Log) (x : Exchange Call Reply) :
    alwaysIn text (log ++ [x]) = alwaysIn text log ++ (approvesAlways text x).toList := by
  unfold alwaysIn
  rw [filterMap_append]
  cases h : approvesAlways text x with
  | none | some => simp [h]

theorem Phase.after_always (φ : Phase) (x : Exchange Call Reply) :
    (φ.after config x).always = φ.always ++ (approvesAlways config.text x).toList := by
  obtain ⟨c, r⟩ := x
  cases c with
  | promptGate call operation =>
    show (φ.decided call operation (decisionOf config.text r)).always =
      φ.always ++ (if decisionOf config.text r = .always then some operation else none).toList
    cases decisionOf config.text r <;> simp [Phase.decided]
  | streamCompletion =>
    obtain e | response := r
    · exact (append_nil _).symm
    · exact (append_nil _).symm
  | _ => exact (append_nil _).symm

theorem Phase.mem_after_calls (h : call ∈ (φ.after config x).calls) :
    call ∈ φ.calls ∨ call ∈ requestedBy x := by
  obtain ⟨c, r⟩ := x
  cases c with
  | promptGate call' operation =>
    left
    change call ∈ (φ.decided call' operation (decisionOf config.text r)).calls at h
    cases hd : decisionOf config.text r <;> rw [hd] at h <;> exact h
  | streamCompletion =>
    obtain e | response := r
    · cases h
    · exact .inr h
  | _ => exact .inl h

theorem Phase.approved_of_after {operation : OperationType}
    (h : (φ.after config x).approved = some (call, operation)) :
    ∃ answer, x = ⟨.promptGate call operation, answer⟩ ∧
      decisionOf config.text answer = .once := by
  obtain ⟨c, r⟩ := x
  cases c with
  | promptGate call' operation' =>
    change (φ.decided call' operation' (decisionOf config.text r)).approved = _ at h
    cases hd : decisionOf config.text r with
    | once =>
      rw [hd] at h
      cases h
      exact ⟨r, rfl, hd⟩
    | always | deny =>
      rw [hd] at h
      cases h
  | streamCompletion =>
    obtain e | response := r
    · cases h
    · cases h
  | _ => cases h

variable {log : Log}

theorem Sound.next {φ' : Phase} (h : Sound config autonomy φ log)
    (hnext : φ.next config autonomy x = some φ') : Sound config autonomy φ' (log ++ [x]) := by
  unfold Phase.next at hnext
  split_ifs at hnext with hallows
  cases hnext
  have hrequested (call : ToolCall) (hcall : ∃ y ∈ log, call ∈ requestedBy y) :
      ∃ y ∈ log ++ [x], call ∈ requestedBy y := by
    obtain ⟨y, hy, hmem⟩ := hcall
    exact ⟨y, mem_append_left _ hy, hmem⟩
  refine ⟨?_, ?_, ?_, ?_, ?_⟩
  · rw [Phase.after_always, alwaysIn_snoc, h.always]
  · intro call hcall
    obtain hold | hnew := Phase.mem_after_calls hcall
    · exact hrequested call (h.calls call hold)
    · exact ⟨x, by simp, hnew⟩
  · intro call operation happroved
    obtain ⟨answer, rfl, honce⟩ := Phase.approved_of_after happroved
    exact ⟨log, answer, rfl, honce⟩
  · intro y hy call hexecuted
    obtain hy | hy := mem_append.mp hy
    · exact hrequested call (h.executed y hy call hexecuted)
    · rw [mem_singleton.mp hy] at hexecuted
      exact hrequested call (h.calls call (hallows call hexecuted).1)
  · intro i y call operation hi hexecuted hop huntrusted
    obtain hlt | hlt := Nat.lt_or_ge i log.length
    · rw [getElem?_append_left hlt] at hi
      rw [take_append_of_le_length hlt.le] at huntrusted ⊢
      exact h.gate i y call operation hi hexecuted hop huntrusted
    · rw [getElem?_append_right hlt] at hi
      rw [getElem?_singleton] at hi
      split_ifs at hi with hzero
      cases hi
      -- the last exchange: the log before it is the one the phase is about
      have htake : (log ++ [x]).take i = log := by
        have : i = log.length := by omega
        rw [this, take_left']
        rfl
      rw [htake] at huntrusted ⊢
      obtain htrusted | halways | happroved := (hallows call hexecuted).2 operation hop
      · exact absurd (.inl htrusted) huntrusted
      · exact .inr (h.always ▸ halways)
      · exact .inl (h.approved call operation happroved)

theorem sound_of_returns {input : StageInput} {result : LoopResult × AutonomyManager}
    (h : (stageAgentLoop config input autonomy).Returns log result) :
    ∃ φ, Sound config autonomy φ log := by
  obtain ⟨φ, hlog, -⟩ := h.follows follows_stageAgentLoop
  exact ⟨φ, Prog.log_keeps (Sound config autonomy) Sound.initial (fun _ _ _ _ hs => hs.next) hlog⟩

/-- **Tools of a stage** whose answers only call tools of the profile: what runs is in it, and was
trusted or approved. -/
theorem stageConfined_of_callsListed {input : StageInput} {log : Log}
    {result : LoopResult × AutonomyManager}
    (h : (stageAgentLoop config input autonomy).Returns log result)
    (hlisted : CallsListed input.profile log) :
    StageConfined config input.profile autonomy log := by
  obtain ⟨φ, hsound⟩ := sound_of_returns h
  refine ⟨?_, hsound.gate⟩
  intro x hx call hexecuted
  obtain ⟨y, hy, hrequested⟩ := hsound.executed x hx call hexecuted
  exact hlisted y hy call hrequested

namespace Sample

def text : TextLibrary := { lowerTrim := id, slice := fun n s => String.ofList (s.toList.take n) }

def offline : StageConfig :=
  { text := text, provider := .anthropic, agentClient := false, ecosystem := none }

def input (tools : List String) : StageInput :=
  { goal := "summarise", priorContext := "", binding := none, builtins := [], sweTools := []
    profile := { roleId := "reader", systemPrompt := "", tools := tools } }

def runCommand : ToolCall := { id := "1", name := "run_command", arguments := .null }

def answer (calls : List ToolCall) : LlmResponse := { content := "ok", toolCalls := calls }

end Sample

open Sample in

theorem stageConfined_approved : ∃ log result,
    (stageAgentLoop offline (input ["run_command"]) (.new .supervised)).Returns log result ∧
    (∃ x ∈ log, executedBy x = some runCommand) ∧
    StageConfined offline (input ["run_command"]).profile (.new .supervised) log := by
  obtain ⟨log, result, hreturns, hexecuted, hlisted⟩ : ∃ log result,
      (stageAgentLoop offline (input ["run_command"]) (.new .supervised)).Returns log result ∧
      (∃ x ∈ log, executedBy x = some runCommand) ∧
      CallsListed (input ["run_command"]).profile log := by
    refine ⟨_, _, ⟨.ok (answer [runCommand]), _, rfl, "y", _, rfl, .ok ("done", false), _, rfl,
      (), _, rfl, .ok (answer []), _, rfl, (), _, rfl, rfl, rfl⟩, ?_, ?_⟩
    · exact ⟨_, mem_cons_of_mem _ (mem_cons_of_mem _ mem_cons_self), rfl⟩
    · unfold CallsListed
      simp [requestedBy, answer, runCommand, input]
  exact ⟨log, result, hreturns, hexecuted, stageConfined_of_callsListed hreturns hlisted⟩

open Sample in

/-- **A tool outside the profile runs**: `read_file` is listed, the model calls `run_command`, which
is trusted. -/
theorem unlisted_tool_executed : ∃ log result,
    (stageAgentLoop offline (input ["read_file"]) (.new .autonomous)).Returns log result ∧
    ¬ StageConfined offline (input ["read_file"]).profile (.new .autonomous) log := by
  refine ⟨_, _, ⟨.ok (answer [runCommand]), _, rfl, .ok ("done", false), _, rfl,
    .ok (answer []), _, rfl, (), _, rfl, rfl, rfl⟩, ?_⟩
  intro hconfined
  have hname := hconfined.listed _ (mem_cons_of_mem _ mem_cons_self) runCommand rfl
  exact absurd hname (by decide)

end Wacp.Cli
