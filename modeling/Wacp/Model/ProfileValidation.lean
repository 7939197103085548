import Wacp.Library.Table
import Wacp.Model.SessionStore

/-!
# Checks of a profile

`validate_profile` of `console-core/src/profile_validation.rs`: the checks of the fields, those
against the taxonomy index (`console-core/src/taxonomy.rs`), and that against the names in the
database, whose answer is an argument. A tag that is too long is cut at 50 bytes; in the middle of a
character that panics, and there is no result.
-/

namespace Wacp.Console

open Library

/-! ## The taxonomy index -/

structure RoleEntry where
  (name baseRole : String)
  tools : List String
  vertical : Option String
  deriving DecidableEq

structure ToolEntry where
  vertical : Option String
  hasPolicy : Bool
  deriving DecidableEq

inductive FieldType where
  | string | number | boolean | enum
  deriving DecidableEq

structure ContextField where
  fieldType : FieldType
  required : Bool
  enumValues : Option (List String)
  deriving DecidableEq

structure VerticalEntry where
  loadError : Option String
  roles : List String
  contextSchema : List (String × ContextField)
  workflows : List String
  deriving DecidableEq

structure TaxonomyIndex where
  roles : Table String RoleEntry
  tools : Table String ToolEntry
  verticals : Table String VerticalEntry

namespace TaxonomyIndex

variable (index : TaxonomyIndex)

def getRole (id : String) : Option RoleEntry := index.roles.get id

def getTool (name : String) : Option ToolEntry := index.tools.get name

def getVertical (id : String) : Option VerticalEntry :=
  index.verticals.get id

end TaxonomyIndex

/-! ## Input and result -/

/-- The texts that `serde_json` and the formatting of numbers make and read. -/
structure Formats where
  strings : String → Option (List String)
  ofStrings : List String → String
  json : String → Option JsonValue
  float : Float → String

structure ValidationViolation where
  (code message : String)
  field : Option String
  deriving DecidableEq

structure ValidationWarning where
  (code message : String)
  deriving DecidableEq

structure ValidationResult where
  violations : List ValidationViolation
  warnings : List ValidationWarning
  deriving DecidableEq

def ValidationResult.isValid (result : ValidationResult) : Bool := result.violations.isEmpty

structure ProfileInput where
  name : String
  tags : Option String
  (roleRef llmProvider llmModel : String)
  llmTemperature : Option Float
  llmMaxTokens : Option ℤ
  autonomy : String
  (toolAllowlist toolDenylist : Option String)
  (budgetMaxCostMicros budgetMaxTokens budgetMaxWallTimeMs : Option ℤ)
  budgetWarningThreshold : Option Float
  (visibility ownerUserId : String)
  excludeId : Option String

/-! ## The checks -/

namespace ProfileInput

def check (failed : Prop) [Decidable failed] (code message field : String) :
    List ValidationViolation :=
  if failed then [⟨code, message, some field⟩] else []

def checkTexts (input : ProfileInput) : List ValidationViolation :=
  check (input.name = "" ∨ 200 < input.name.utf8ByteSize) "INVALID_NAME"
      "Name must be 1–200 characters" "name" ++
    check (input.llmProvider = "") "INVALID_PROVIDER" "LLM provider is required" "llm_provider" ++
    check (input.llmModel = "") "INVALID_MODEL" "LLM model is required" "llm_model"

variable (fmt : Formats)

def checkNumbers (input : ProfileInput) : List ValidationViolation :=
  (input.llmTemperature.toList.flatMap fun t =>
      check (¬ (0.0 ≤ t ∧ t ≤ 2.0)) "INVALID_TEMPERATURE"
        ("Temperature must be 0.0–2.0, got " ++ fmt.float t) "llm_temperature") ++
    (input.llmMaxTokens.toList.flatMap fun mt =>
      check (mt ≤ 0) "INVALID_MAX_TOKENS" "Max tokens must be a positive integer"
        "llm_max_tokens") ++
    check (input.autonomy ∉ ["autonomous", "assisted", "supervised"]) "INVALID_AUTONOMY"
      ("Autonomy must be one of: autonomous, assisted, supervised; got '" ++ input.autonomy ++ "'")
      "autonomy" ++
    (input.budgetWarningThreshold.toList.flatMap fun th =>
      check (¬ (0.0 ≤ th ∧ th ≤ 1.0)) "INVALID_THRESHOLD"
        ("Budget warning threshold must be 0.0–1.0, got " ++ fmt.float th)
        "budget_warning_threshold")

def checkBudgets (input : ProfileInput) : List ValidationViolation :=
  [("budget_max_cost_micros", input.budgetMaxCostMicros),
    ("budget_max_tokens", input.budgetMaxTokens),
    ("budget_max_wall_time_ms", input.budgetMaxWallTimeMs)].flatMap fun (field, val) =>
      val.toList.flatMap fun v =>
        check (v < 0) "INVALID_BUDGET" (field ++ " must be non-negative") field

def sliceBytes : ℕ → List Char → Option (List Char)
  | 0, _ => some []
  | _ + 1, [] => none
  | n + 1, c :: cs =>
    if c.utf8Size ≤ n + 1 then (sliceBytes (n + 1 - c.utf8Size) cs).map (c :: ·) else none
termination_by structural _ cs => cs

/-- The first tag that is too long ends the loop; nothing stands for a panic. -/
def checkTags (input : ProfileInput) : Option (List ValidationViolation) :=
  match input.tags with
  | none => some []
  | some tagsJson =>
    match fmt.strings tagsJson with
    | none => some [⟨"INVALID_TAGS", "Tags must be a JSON array of strings", some "tags"⟩]
    | some tags =>
      match tags.find? fun tag => decide (50 < tag.utf8ByteSize) with
      | none => some []
      | some tag => (sliceBytes 50 tag.toList).map fun start =>
        [⟨"INVALID_TAGS", "Tag '" ++ String.ofList start ++ "' exceeds 50 characters",
          some "tags"⟩]

def checkVisibility (input : ProfileInput) : List ValidationViolation :=
  check (input.visibility ∉ ["private", "shared"]) "INVALID_VISIBILITY"
    ("Visibility must be 'private' or 'shared', got '" ++ input.visibility ++ "'") "visibility"

/-- The tool names in a column, none if there is no text or it cannot be read. -/
def toolNames (column : Option String) : List String :=
  (column.bind fmt.strings).getD []

def checkRole (input : ProfileInput) (index : TaxonomyIndex) : List ValidationViolation :=
  check (index.getRole input.roleRef = none) "UNKNOWN_ROLE"
    ("Role '" ++ input.roleRef ++ "' not found in taxonomy") "role_ref"

def checkTool (input : ProfileInput) (index : TaxonomyIndex) (toolName : String) :
    List ValidationViolation :=
  match index.getTool toolName with
  | none =>
    [⟨"UNKNOWN_TOOL", "Tool '" ++ toolName ++ "' not found in taxonomy", some "tool_allowlist"⟩]
  | some tool =>
    ((index.getRole input.roleRef).bind (·.vertical)).toList.flatMap fun rv =>
      check (tool.vertical ≠ some rv) "TOOL_NOT_IN_ROLE_VERTICAL"
        ("Tool '" ++ toolName ++ "' belongs to vertical '" ++ tool.vertical.getD "none" ++
          "' but role '" ++ input.roleRef ++ "' is in '" ++ rv ++ "'") "tool_allowlist"

/-- The tools that a role has under an allowlist and a denylist. -/
def effectiveTools (role : RoleEntry) (allowlist denylist : List String) : List String :=
  (if allowlist.isEmpty then role.tools else allowlist).filter fun t => !denylist.contains t

def checkToolSet (input : ProfileInput) (index : TaxonomyIndex) : List ValidationViolation :=
  ((index.getRole input.roleRef).filter (·.vertical.isSome)).toList.flatMap fun role =>
    check (effectiveTools role (toolNames fmt input.toolAllowlist)
        (toolNames fmt input.toolDenylist) = []) "EMPTY_TOOL_SET"
      "Effective tool set is empty after applying allow/deny lists" "tool_allowlist"

def highImpactSuffixes : List String :=
  ["_execute", "_write", "_deploy", "_delete", "_rotate", "_launch", "_submit"]

def warnings (input : ProfileInput) (index : TaxonomyIndex) : List ValidationWarning :=
  ((index.getRole input.roleRef).filter (·.vertical.isSome)).toList.flatMap fun role =>
    let tools := effectiveTools role (toolNames fmt input.toolAllowlist)
      (toolNames fmt input.toolDenylist)
    let gated := tools.filter fun t => (index.getTool t).any (·.hasPolicy)
    let highImpact := tools.find? fun t =>
      highImpactSuffixes.any fun s => s.toList.isSuffixOf t.toList
    (gated.map fun t =>
        ⟨"TOOL_HAS_RUNTIME_POLICY", "Tool '" ++ t ++ "' has a runtime-enforced policy"⟩) ++
      if input.autonomy = "autonomous" ∧ role.baseRole = "worker" then
        highImpact.toList.map fun t =>
          ⟨"AUTONOMOUS_WORKER_HIGH_IMPACT", "Autonomous worker with high-impact tool '" ++ t ++ "'"⟩
      else []

def checkDuplicate (input : ProfileInput) (nameExists : Except DbError Bool) :
    List ValidationViolation :=
  match nameExists with
  | .ok true =>
    [⟨"DUPLICATE_NAME", "You already have a profile named '" ++ input.name ++ "'", some "name"⟩]
  | _ => []

end ProfileInput

open ProfileInput in

def validateProfile (fmt : Formats) (input : ProfileInput) (index : TaxonomyIndex)
    (nameExists : Except DbError Bool) : Option ValidationResult :=
  (input.checkTags fmt).map fun tagViolations =>
    { violations :=
        input.checkTexts ++ input.checkNumbers fmt ++ input.checkBudgets ++ tagViolations ++
          input.checkVisibility ++ input.checkRole index ++
          ((toolNames fmt input.toolAllowlist ++ toolNames fmt input.toolDenylist).flatMap
            (input.checkTool index)) ++
          input.checkToolSet fmt index ++ input.checkDuplicate nameExists
      warnings := input.warnings fmt index }

end Wacp.Console
