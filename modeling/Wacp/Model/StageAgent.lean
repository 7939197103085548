import Wacp.Library.Programs
import Wacp.Model.LocalResources
import Wacp.Model.Types

/-!
# The agent loop of a workflow stage

`wacp-cli/src/agent.ts` and `tools.ts`: the client asks a language model for completions and carries
out the tool calls in them, each behind the human's approval unless its operation is trusted. The
loop is a program of calls to the model, the human, the tools and the runtime, whose replies may be
anything. A tool runs with the autonomy manager as it is then.
-/

namespace Wacp.Cli

open Library Wacp.Local

structure TextLibrary where
  lowerTrim : String → String
  slice : ℕ → String → String

/-! ## Tools (tools.ts, ecosystem.ts) -/

structure ToolDefinition where
  (name description : String)
  inputSchema : JsonValue

structure ToolCall where
  (id name : String)
  arguments : JsonValue

structure ToolResult where
  (toolCallId content : String)
  isError : Bool
  deriving DecidableEq

structure LoadedVertical where
  id : String
  toolDefinitions : List ToolDefinition
  toolOperation : String → Option String

structure LoadedEcosystem where
  verticals : List LoadedVertical
  toolByName : String → Option LoadedVertical

def builtinToolNames : List String :=
  ["read_file", "write_file", "list_dir", "search_files", "run_command", "git_status", "git_diff"]

def sweToolNames : List String :=
  ["code_search", "code_edit", "test_run", "lint_check", "type_check", "git_branch", "git_commit",
    "dependency_check"]

inductive Executor where
  | builtin
  | vertical (id : String)
  | swe
  deriving DecidableEq

/-- How the execution of a tool fails: with an `AutonomyError` of the resources, or otherwise. -/
inductive ToolFailure where
  | autonomy (operation : String)
  | error (message : String)
  deriving DecidableEq

/-! ## The outside -/

structure LlmResponse where
  content : String
  toolCalls : List ToolCall

inductive LlmFailure where
  | llmCall (status : ℕ) (message : String) (retryable : Bool)
  | abort
  | other (message : String)
  deriving DecidableEq

inductive ContentBlock where
  | text (text : String)
  | toolUse (id name : String) (input : JsonValue)
  | toolResult (toolUseId content : String) (isError : Bool)

inductive Content where
  | text (text : String)
  | blocks (blocks : List ContentBlock)

structure Message where
  role : String
  content : Content
  toolCallId : Option String

inductive StageSignal where
  | started
  | complete
  | failed (message : String)
  deriving DecidableEq

inductive StageCheckpoint where
  | observation (data description : String)
  | artifact (data description : String)
  deriving DecidableEq

inductive Call where
  | bind (workspaceId authToken : String)
  | emitSignal (signal : StageSignal)
  | createCheckpoint (checkpoint : StageCheckpoint)
  | streamCompletion (messages : List Message) (tools : List ToolDefinition)
  | sleep (milliseconds : ℕ)
  | promptGate (call : ToolCall) (operation : OperationType)
  | runTool (executor : Executor) (call : ToolCall) (autonomy : AutonomyManager)
  | recordTrust (operation : OperationType) (granted : Bool)
  | addHistory (entry : String)

def Reply : Call → Type
  | .bind _ _ => Except String Unit
  | .emitSignal _ => Except String Unit
  | .createCheckpoint _ => Except String Unit
  | .streamCompletion _ _ => Except LlmFailure LlmResponse
  | .sleep _ => Unit
  | .promptGate _ _ => String
  | .runTool _ _ _ => Except ToolFailure (String × Bool)
  | .recordTrust _ _ => Unit
  | .addHistory _ => Unit

abbrev Action (α : Type) := Prog Call Reply α

/-! ## Operations of tools (agent.ts) -/

def objectPrototype : List String :=
  ["constructor", "__defineGetter__", "__defineSetter__", "hasOwnProperty", "__lookupGetter__",
    "__lookupSetter__", "isPrototypeOf", "propertyIsEnumerable", "toString", "valueOf", "__proto__",
    "toLocaleString"]

def lookupRecord (table : List (String × String)) (name : String) : Option OperationType :=
  match table.find? fun entry => entry.1 = name with
  | some entry => some (.named entry.2)
  | none => if name ∈ objectPrototype then some (.inherited name) else none

def builtinToolOperations : List (String × String) :=
  [("read_file", "file_read"), ("write_file", "file_write"), ("list_dir", "file_read"),
    ("search_files", "file_read"), ("run_command", "shell_exec"), ("git_status", "git_read"),
    ("git_diff", "git_read")]

def sweLegacy : List (String × String) :=
  [("code_search", "file_read"), ("code_edit", "file_write"), ("test_run", "shell_exec"),
    ("type_check", "shell_exec"), ("lint_check", "shell_exec"), ("git_branch", "git_write"),
    ("git_commit", "git_write"), ("dependency_check", "shell_exec")]

variable (name : String) (text : TextLibrary) (ecosystem : Option LoadedEcosystem)

def toolToOperation : Option OperationType :=
  match lookupRecord builtinToolOperations name with
  | some operation => some operation
  | none =>
    match ecosystem.bind fun e => e.toolByName name with
    | some owner => (owner.toolOperation name).map .named
    | none => lookupRecord sweLegacy name

/-- The operation in the condition of the gate, where an empty text counts as none. -/
def gateOperation : Option OperationType :=
  (toolToOperation name ecosystem).filter fun operation => operation ≠ .named ""

/-! ## Executing a tool (tools.ts) -/

variable (autonomy : AutonomyManager) (call : ToolCall)

def failedResult : ToolFailure → ToolResult
  | .autonomy operation =>
    { toolCallId := call.id
      content := "Operation denied: " ++ operation ++ " requires human approval", isError := true }
  | .error message => { toolCallId := call.id, content := "Error: " ++ message, isError := true }

/-- `executeSweTools`: a name it does not know is answered without executing anything. -/
def executeSweTools : Action (Except ToolFailure (String × Bool)) :=
  if call.name ∈ sweToolNames then Prog.perform (Call.runTool .swe call autonomy)
  else pure (.ok ("Unknown SWE tool: " ++ call.name, true))

def isUnknownSwe (content : String) : Bool :=
  "Unknown SWE tool:".toList.isPrefixOf content.toList

def executeTool : Action ToolResult := do
  if call.name ∈ builtinToolNames then
    match ← Prog.perform (Call.runTool .builtin call autonomy) with
    | .ok (content, _) => pure { toolCallId := call.id, content := content, isError := false }
    | .error e => pure (failedResult call e)
  else
    match ecosystem.bind fun e => e.toolByName call.name with
    | some owner =>
      match ← Prog.perform (Call.runTool (.vertical owner.id) call autonomy) with
      | .ok (content, isError) =>
        pure { toolCallId := call.id, content := content, isError := isError }
      | .error e => pure (failedResult call e)
    | none =>
      match ← executeSweTools autonomy call with
      | .ok (content, isError) =>
        if isUnknownSwe content then
          pure { toolCallId := call.id, content := "Unknown tool: " ++ call.name, isError := true }
        else pure { toolCallId := call.id, content := content, isError := isError }
      | .error e => pure (failedResult call e)

/-! ## The gate (agent.ts) -/

inductive Decision where
  | once
  | always
  | deny
  deriving DecidableEq

def decisionOf (answer : String) : Decision :=
  let word := text.lowerTrim answer
  if word = "y" ∨ word = "yes" then .once
  else if word = "a" ∨ word = "always" then .always
  else .deny

/-- A call whose operation is not trusted, with the human's approval. -/
def gated (operation : OperationType) : Action (ToolResult × AutonomyManager) := do
  match decisionOf text (← Prog.perform (Call.promptGate call operation)) with
  | .once =>
    let granted := autonomy.grant operation
    let result ← executeTool ecosystem granted call
    Prog.perform (Call.recordTrust operation true)
    pure (result, granted.revoke operation)
  | .always =>
    let granted := autonomy.grantAlways operation
    Prog.perform (Call.recordTrust operation true)
    let result ← executeTool ecosystem granted call
    pure (result, granted)
  | .deny =>
    Prog.perform (Call.recordTrust operation false)
    -- the text of an inherited member is that of a function of the platform
    let name := match operation with
      | .named text => text
      | .inherited property => property
    pure ({ toolCallId := call.id, content := "Operation '" ++ name ++ "' denied by user."
            isError := true }, autonomy)

def executeWithGate : Action (ToolResult × AutonomyManager) :=
  match gateOperation call.name ecosystem with
  | some operation =>
    if autonomy.check operation then do
      pure (← executeTool ecosystem autonomy call, autonomy)
    else gated text ecosystem autonomy call operation
  | none => do
    pure (← executeTool ecosystem autonomy call, autonomy)

/-! ## The loop (agent.ts) -/

inductive Provider where
  | anthropic | openai | generic
  deriving DecidableEq

/-- What a stage is run with: the connection to the runtime is there or not. -/
structure StageConfig where
  text : TextLibrary
  provider : Provider
  agentClient : Bool
  ecosystem : Option LoadedEcosystem

structure AgentProfile where
  (roleId systemPrompt : String)
  tools : List String

def buildAssistantContent (response : LlmResponse) : Content :=
  if response.toolCalls = [] then .text response.content
  else
    .blocks ((if response.content = "" then [] else [.text response.content]) ++
      response.toolCalls.map fun call => .toolUse call.id call.name call.arguments)

def toolMessage (provider : Provider) (call : ToolCall) (result : ToolResult) : Message :=
  match provider with
  | .anthropic =>
    { role := "tool", content := .blocks [.toolResult call.id result.content result.isError]
      toolCallId := none }
  | _ => { role := "tool", content := .text result.content, toolCallId := some call.id }

variable (config : StageConfig)

/-- A call to the runtime whose failure does not matter, if there is a connection. -/
def whenConnected (call : Call) : Action Unit :=
  if config.agentClient then do
    let _ ← Prog.perform call
    pure ()
  else pure ()

def checkpointResult (call : ToolCall) (result : ToolResult) : Action Unit :=
  if result.isError then pure ()
  else whenConnected config (.createCheckpoint
    (.observation (config.text.slice 4096 result.content) ("tool:" ++ call.name)))

def runCalls (config : StageConfig) :
    List ToolCall → AutonomyManager → Action (List Message × AutonomyManager)
  | [], autonomy => pure ([], autonomy)
  | call :: calls, autonomy => do
    let (result, autonomy) ← executeWithGate config.text config.ecosystem autonomy call
    checkpointResult config call result
    let (messages, autonomy) ← runCalls config calls autonomy
    pure (toolMessage config.provider call result :: messages, autonomy)

abbrev LoopResult := Except String String

def finish (lastContent : String) (autonomy : AutonomyManager) :
    Action (LoopResult × AutonomyManager) := do
  Prog.perform (Call.addHistory ("assistant: " ++ config.text.slice 200 lastContent))
  pure (.ok lastContent, autonomy)

def loopFrom (config : StageConfig) (tools : List ToolDefinition) :
    ℕ → List Message → String → AutonomyManager → Action (LoopResult × AutonomyManager)
  | 0, _, lastContent, autonomy => finish config lastContent autonomy
  | turns + 1, messages, lastContent, autonomy => do
    match ← Prog.perform (Call.streamCompletion messages tools) with
    | .error (.llmCall _ _ true) =>
      Prog.perform (Call.sleep 2000)
      loopFrom config tools turns messages lastContent autonomy
    | .error (.llmCall _ _ false) => pure (.ok "", autonomy)
    | .error .abort => pure (.ok "", autonomy)
    | .error (.other message) => pure (.error message, autonomy)
    | .ok response =>
      let lastContent := if response.content = "" then lastContent else response.content
      if response.toolCalls = [] then finish config lastContent autonomy
      else do
        let assistant : Message :=
          { role := "assistant", content := buildAssistantContent response, toolCallId := none }
        let (toolMessages, autonomy) ← runCalls config response.toolCalls autonomy
        loopFrom config tools turns (messages ++ assistant :: toolMessages) lastContent autonomy

def maxIterations : ℕ := 25

def runLoop (messages : List Message) (tools : List ToolDefinition) (autonomy : AutonomyManager) :
    Action (LoopResult × AutonomyManager) :=
  loopFrom config tools maxIterations messages "" autonomy

def buildTools (builtins sweTools : List ToolDefinition) : Option LoadedEcosystem →
    List ToolDefinition
  | some ecosystem => builtins ++ ecosystem.verticals.flatMap LoadedVertical.toolDefinitions
  | none => builtins ++ sweTools

def filterToolsByProfile (allTools : List ToolDefinition) (profile : AgentProfile) :
    List ToolDefinition :=
  allTools.filter fun t => t.name ∈ profile.tools

/-- What a stage is given: the texts of the goal and the context, the binding to a workspace, and
the definitions of the built-in and the SWE tools. -/
structure StageInput where
  (goal priorContext : String)
  profile : AgentProfile
  binding : Option (String × String)
  (builtins sweTools : List ToolDefinition)

def bindStage : Option (String × String) → Action Unit
  | some (workspaceId, authToken) =>
    if config.agentClient then do
      match ← Prog.perform (Call.bind workspaceId authToken) with
      | .ok () => whenConnected config (.emitSignal .started)
      | .error _ => pure ()
    else pure ()
  | none => pure ()

def stageMessages (input : StageInput) : List Message :=
  [{ role := "system", content := .text input.profile.systemPrompt, toolCallId := none },
    { role := "user"
      content := .text (input.priorContext ++ "\n\nCurrent task: " ++ input.goal)
      toolCallId := none }]

/-- After the loop: the checkpoint of the output and the signal. -/
def closeStage (input : StageInput) : LoopResult → Action Unit
  | .ok lastContent => do
    if lastContent = "" then pure ()
    else whenConnected config (.createCheckpoint
      (.artifact lastContent ("stage output for " ++ input.profile.roleId)))
    whenConnected config (.emitSignal .complete)
  | .error message => whenConnected config (.emitSignal (.failed message))

def stageAgentLoop (input : StageInput) (autonomy : AutonomyManager) :
    Action (LoopResult × AutonomyManager) := do
  bindStage config input.binding
  let tools := filterToolsByProfile
    (buildTools input.builtins input.sweTools config.ecosystem) input.profile
  let (result, autonomy) ← runLoop config (stageMessages input) tools autonomy
  closeStage config input result
  pure (result, autonomy)

end Wacp.Cli
