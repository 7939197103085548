import Mathlib.Data.Rat.Defs
import Mathlib.Algebra.Order.Field.Rat

/-!
# The finance tools

`ecosystem/finance/src/tools/finance-tools.ts`: a pre-trade `compliance_check` answers with an
approval, and `trade_execute` takes the approval from its own arguments. The executor keeps no
state. Arguments come from JSON, so no two are the same object and none is a function. A number is
exact: the only sum is that of a time and five minutes. Conversions of arbitrary values to text and
the messages of thrown errors are parameters (`TextLibrary`).
-/

namespace Wacp.Finance

/-! ## JavaScript values -/

inductive JsNumber where
  | finite (q : ℚ)
  | infinity
  | negInfinity
  | nan
  deriving DecidableEq

namespace JsNumber

def nonpositive : JsNumber → Bool
  | .finite q => decide (q ≤ 0)
  | .infinity => false
  | .negInfinity => true
  | .nan => false

def exceeds (n : ℕ) : JsNumber → Bool
  | .finite q => decide ((n : ℚ) < q)
  | .infinity => true
  | .negInfinity => false
  | .nan => false

def strictEq : JsNumber → JsNumber → Bool
  | .finite q, .finite q' => decide (q = q')
  | .infinity, .infinity => true
  | .negInfinity, .negInfinity => true
  | _, _ => false

end JsNumber

inductive JsValue where
  | undefined
  | null
  | bool (b : Bool)
  | number (n : JsNumber)
  | string (s : String)
  | array (items : List JsValue)
  | object (fields : List (String × JsValue))

abbrev Thrown := String

structure TextLibrary where
  toLowerCase : String → String
  toUpperCase : String → String
  trim : String → String
  display : JsValue → Except Thrown String
  join : List JsValue → Except Thrown String
  stringify : JsValue → String
  coercedPositive : JsValue → Except Thrown Bool
  typeError : JsValue → String → Thrown

namespace JsValue

def truthy : JsValue → Bool
  | .undefined => false
  | .null => false
  | .bool b => b
  | .number (.finite q) => decide (q ≠ 0)
  | .number .nan => false
  | .number _ => true
  | .string s => decide (s ≠ "")
  | .array _ => true
  | .object _ => true

def strictEq : JsValue → JsValue → Bool
  | .undefined, .undefined => true
  | .null, .null => true
  | .bool b, .bool b' => decide (b = b')
  | .number n, .number n' => n.strictEq n'
  | .string s, .string s' => decide (s = s')
  | _, _ => false

def orElse (value other : JsValue) : JsValue :=
  match value with
  | .undefined => other
  | .null => other
  | v => v

def member (lib : TextLibrary) (value : JsValue) (name : String) : Except Thrown JsValue :=
  match value with
  | .undefined => .error (lib.typeError .undefined name)
  | .null => .error (lib.typeError .null name)
  | .object fields =>
    .ok (((fields.find? fun field => field.1 = name).map Prod.snd).getD .undefined)
  | _ => .ok .undefined

/-- `value.name`, for a value that is truthy or an element that has been looked at. -/
def field (value : JsValue) (name : String) : JsValue :=
  match value with
  | .object fields => ((fields.find? fun field => field.1 = name).map Prod.snd).getD .undefined
  | _ => .undefined

end JsValue

variable (lib : TextLibrary) (value : JsValue)

def joined : Except Thrown String :=
  match value with
  | .array items => lib.join items
  | v => .error (lib.typeError v "join")

def upperCased : Except Thrown String :=
  match value with
  | .string s => .ok (lib.toUpperCase s)
  | v => .error (lib.typeError v "toUpperCase")

/-! ## Compliance checks -/

def missing : Except Thrown Bool :=
  if value.truthy then
    match value with
    | .string s => .ok (decide (lib.trim s = ""))
    | v => .error (lib.typeError v "trim")
  else .ok true

def notPositive : JsValue → Bool
  | .number n => n.nonpositive
  | _ => true

def errorIf (failed : Bool) (message : String) : List String := if failed then [message] else []

def validateComplianceCheck (check : JsValue) : Except Thrown (List String) := do
  let tradeId ← missing lib (check.field "trade_id")
  let instrument ← missing lib (check.field "instrument")
  let regulation ← missing lib (check.field "regulation_cited")
  let side := check.field "side"
  let status := check.field "status"
  pure (errorIf tradeId "trade_id is required" ++
    errorIf instrument "instrument is required" ++
    errorIf (!side.strictEq (.string "buy") && !side.strictEq (.string "sell"))
      "side must be 'buy' or 'sell'" ++
    errorIf (notPositive (check.field "quantity")) "quantity must be a positive number" ++
    errorIf (!status.strictEq (.string "approved") && !status.strictEq (.string "rejected"))
      "status must be 'approved' or 'rejected'" ++
    errorIf regulation "regulation_cited is required" ++
    errorIf (!(check.field "forbidden_pattern_screened").strictEq (.bool true))
      "forbidden_pattern_screened must be true" ++
    errorIf (!(check.field "suitability_verified").strictEq (.bool true))
      "suitability_verified must be true" ++
    errorIf (!(check.field "kyc_current").strictEq (.bool true)) "kyc_current must be true" ++
    errorIf (notPositive (check.field "expires_at")) "expires_at must be a positive timestamp")

inductive ForbiddenPattern where
  | insiderTrading | washTrade | churning | frontRunning | layering | spoofing | paintingTheTape
  deriving DecidableEq

def ForbiddenPattern.text : ForbiddenPattern → String
  | .insiderTrading => "insider_trading"
  | .washTrade => "wash_trade"
  | .churning => "churning"
  | .frontRunning => "front_running"
  | .layering => "layering"
  | .spoofing => "spoofing"
  | .paintingTheTape => "painting_the_tape"

structure ProposedTrade where
  (instrument side quantity rationale relatedOrders source : JsValue)

def lowerCased : Except Thrown String :=
  match value.orElse (.string "") with
  | .string s => .ok (lib.toLowerCase s)
  | v => .error (lib.typeError v "toLowerCase")

def includes (text part : String) : Bool :=
  text.toList.tails.any fun rest => part.toList.isPrefixOf rest

def nonEmpty : JsValue → Except Thrown Bool
  | .array items => .ok (decide (items ≠ []))
  | .string s => .ok (decide (s ≠ ""))
  | .object fields =>
    match (JsValue.object fields).field "length" with
    | .undefined => .ok false
    | .number n => .ok (n.exceeds 0)
    | v => lib.coercedPositive v
  | _ => .ok false

def countOrders (keep : JsValue → Except Thrown Bool) (orders : List JsValue) :
    Except Thrown ℕ := do
  pure (← orders.filterM keep).length

variable (trade : ProposedTrade) (order : JsValue)

/-- `o.side !== trade.side && o.quantity === trade.quantity && !o.cancelled`. -/
def opposingSameQuantity : Except Thrown Bool := do
  let side ← order.member lib "side"
  pure (!side.strictEq trade.side && (order.field "quantity").strictEq trade.quantity &&
    !(order.field "cancelled").truthy)

def cancelledOpposing : Except Thrown Bool := do
  let side ← order.member lib "side"
  pure (!side.strictEq trade.side && (order.field "cancelled").truthy)

def sameSideStaggered : Except Thrown Bool := do
  let side ← order.member lib "side"
  pure (side.strictEq trade.side && (order.field "cancelled").truthy)

def classifyOrders : Except Thrown (Option ForbiddenPattern) := do
  if ← nonEmpty lib trade.relatedOrders then
    match trade.relatedOrders with
    | .array orders =>
      if 0 < (← countOrders (opposingSameQuantity lib trade) orders) then
        return some .washTrade
      if 3 ≤ (← countOrders (cancelledOpposing lib trade) orders) then
        return some .spoofing
      if 3 ≤ (← countOrders (sameSideStaggered lib trade) orders) then
        return some .layering
      return none
    | v => throw (lib.typeError v "filter")
  else return none

def classifyForbiddenPattern : Except Thrown (Option ForbiddenPattern) := do
  let rationale ← lowerCased lib trade.rationale
  let source ← lowerCased lib trade.source
  if includes rationale "material non-public" || includes source "mnpi" ||
      includes source "insider" then
    return some .insiderTrading
  match ← classifyOrders lib trade with
  | some pattern => return some pattern
  | none =>
    if includes rationale "front of" || includes rationale "ahead of client" then
      return some .frontRunning
    if includes rationale "commission" || includes rationale "generate fees" then
      return some .churning
    if includes rationale "close price" || includes rationale "mark the close" then
      return some .paintingTheTape
    return none

def isComplianceFresh (check : JsValue) (nowMs : ℕ) : Bool :=
  match check.field "expires_at" with
  | .number n => n.exceeds nowMs
  | _ => false

/-! ## The tools -/

/-- What a call reports. An error and the output of a command have a text; an approval and an
executed trade also have the check they are about. -/
inductive Report where
  | output (stdout : String)
  | approved (approval : JsValue)
  | executed (check : JsValue) (stdout : String)
  | refused (content : String)

def Report.result : Report → String × Bool
  | .output stdout => (stdout, false)
  | .approved approval => ("COMPLIANCE_APPROVED: " ++ lib.stringify approval, false)
  | .executed _ stdout => (stdout, false)
  | .refused content => (content, true)

abbrev Shell := String → Option ℕ → Except Thrown String

variable (shell : Shell)

def shellTool (timeout : Option ℕ) (command : Except Thrown String) : Except Thrown Report := do
  pure (.output (← shell (← command) timeout))

variable (nowMs : ℕ) (args : JsValue)

def marketDataFetch : Except Thrown Report :=
  shellTool shell (some 30000) do
    let symbols ← args.member lib "symbols"
    let fields := (args.field "fields").orElse (.array [.string "price"])
    let listed ← joined lib fields
    pure ("echo \"Fetching " ++ listed ++ " for " ++ (← joined lib symbols) ++ "\"")

def financialModelBuild : Except Thrown Report :=
  shellTool shell (some 60000) do
    let modelType ← lib.display (← args.member lib "model_type")
    pure ("echo \"Building " ++ modelType ++ " model for " ++
      (← lib.display (args.field "target")) ++ "\"")

def riskCalc : Except Thrown Report :=
  shellTool shell (some 60000) do
    let metric ← upperCased lib (← args.member lib "metric")
    let portfolio ← lib.display (args.field "portfolio")
    let horizon ← lib.display ((args.field "horizon_days").orElse (.number (.finite 1)))
    let confidence ← lib.display ((args.field "confidence").orElse (.number (.finite (19 / 20))))
    pure ("echo \"" ++ metric ++ " for " ++ portfolio ++ " | horizon=" ++ horizon ++
      "d | confidence=" ++ confidence ++ "\"")

def fiveMinutes : ℕ := 5 * 60 * 1000

def approvalOf (tradeId instrument side quantity regulation : JsValue) (nowMs : ℕ) : JsValue :=
  .object [("trade_id", tradeId), ("instrument", instrument), ("side", side),
    ("quantity", quantity), ("status", .string "approved"), ("regulation_cited", regulation),
    ("forbidden_pattern_screened", .bool true), ("suitability_verified", .bool true),
    ("kyc_current", .bool true), ("expires_at", .number (.finite ((nowMs + fiveMinutes : ℕ))))]

def complianceCheck : Except Thrown Report := do
  let tradeId ← args.member lib "trade_id"
  let instrument := args.field "instrument"
  let side := args.field "side"
  let quantity := args.field "quantity"
  let regulation := args.field "regulation"
  let trade : ProposedTrade :=
    { instrument := instrument, side := side, quantity := quantity
      rationale := args.field "rationale", relatedOrders := args.field "related_orders"
      source := .undefined }
  match ← classifyForbiddenPattern lib trade with
  | some detected =>
    pure (.refused ("COMPLIANCE_REJECTED: forbidden pattern detected — " ++ detected.text ++
      ". Trade " ++ (← lib.display tradeId) ++ " (" ++ (← lib.display side) ++ " " ++
      (← lib.display quantity) ++ " " ++ (← lib.display instrument) ++ ") blocked under " ++
      (← lib.display regulation) ++ "."))
  | none => pure (.approved (approvalOf tradeId instrument side quantity regulation nowMs))

def kycScreen : Except Thrown Report :=
  shellTool shell none do
    let clientId ← lib.display (← args.member lib "client_id")
    let name ← lib.display (args.field "name")
    let screens := (args.field "screens").orElse
      (.array [.string "identity", .string "ofac", .string "pep"])
    pure ("echo \"KYC screen for client " ++ clientId ++ " (" ++ name ++ "): " ++
      (← joined lib screens) ++ "\"")

def executeCommand (check : JsValue) : Except Thrown String := do
  let side ← lib.display (check.field "side")
  let quantity ← lib.display (check.field "quantity")
  let instrument ← lib.display (check.field "instrument")
  let orderType ← lib.display ((args.field "order_type").orElse (.string "market"))
  let venue ← lib.display ((args.field "venue").orElse (.string "smart_route"))
  let tradeId ← lib.display (check.field "trade_id")
  let regulation ← lib.display (check.field "regulation_cited")
  pure ("echo \"EXECUTED: " ++ side ++ " " ++ quantity ++ " " ++ instrument ++ " @ " ++ orderType ++
    " via " ++ venue ++ " (trade_id=" ++ tradeId ++ ", regulation=" ++ regulation ++ ")\"")

def tradeExecute : Except Thrown Report := do
  let check ← args.member lib "compliance_check"
  if !check.truthy then
    return .refused ("COMPLIANCE_NOT_APPROVED: trade_execute requires a compliance_check " ++
      "argument from a prior compliance_check checkpoint")
  let errors ← validateComplianceCheck lib check
  if errors ≠ [] then
    return .refused ("COMPLIANCE_NOT_APPROVED: compliance_check is invalid — " ++
      "; ".intercalate errors)
  if !(check.field "status").strictEq (.string "approved") then
    return .refused ("COMPLIANCE_NOT_APPROVED: compliance_check status is '" ++
      (← lib.display (check.field "status")) ++ "', not 'approved'")
  if !isComplianceFresh check nowMs then
    return .refused ("COMPLIANCE_NOT_APPROVED: compliance_check expired at " ++
      (← lib.display (check.field "expires_at")) ++ " (now=" ++
      (← lib.display (.number (.finite nowMs))) ++ ")")
  let stdout ← shell (← executeCommand lib args check) none
  return .executed check stdout

def portfolioRebalance : Except Thrown Report :=
  shellTool shell (some 60000) do
    let portfolio ← lib.display (← args.member lib "portfolio")
    let tolerance ← lib.display ((args.field "tolerance").orElse (.number (.finite (1 / 20))))
    pure ("echo \"Rebalance proposal for " ++ portfolio ++ " (tolerance=" ++ tolerance ++ ")\"")

def auditTrailExport : Except Thrown Report :=
  shellTool shell none do
    let workspaceId ← lib.display (← args.member lib "workspace_id")
    let format ← lib.display ((args.field "format").orElse (.string "json"))
    pure ("echo \"Exporting audit trail for " ++ workspaceId ++ " as " ++ format ++ "\"")

def regulatoryFilingPrepare : Except Thrown Report :=
  shellTool shell (some 120000) do
    let filingType ← lib.display (← args.member lib "filing_type")
    pure ("echo \"Preparing " ++ filingType ++ " filing for period ending " ++
      (← lib.display (args.field "period_end")) ++ "\"")

def disclosureReview : Except Thrown Report :=
  shellTool shell none do
    let document ← lib.display (← args.member lib "document")
    let checks := (args.field "checks").orElse (.array [.string "material_risk", .string "coi"])
    pure ("echo \"Reviewing disclosure " ++ document ++ ": " ++ (← joined lib checks) ++ "\"")

inductive FinanceTool where
  | marketDataFetch | financialModelBuild | riskCalc | complianceCheck | kycScreen | tradeExecute
  | portfolioRebalance | auditTrailExport | regulatoryFilingPrepare | disclosureReview
  deriving DecidableEq

def FinanceTool.ofName : String → Option FinanceTool
  | "market_data_fetch" => some .marketDataFetch
  | "financial_model_build" => some .financialModelBuild
  | "risk_calc" => some .riskCalc
  | "compliance_check" => some .complianceCheck
  | "kyc_screen" => some .kycScreen
  | "trade_execute" => some .tradeExecute
  | "portfolio_rebalance" => some .portfolioRebalance
  | "audit_trail_export" => some .auditTrailExport
  | "regulatory_filing_prepare" => some .regulatoryFilingPrepare
  | "disclosure_review" => some .disclosureReview
  | _ => none

def FinanceTool.execute : FinanceTool → Except Thrown Report
  | .marketDataFetch => Finance.marketDataFetch lib shell args
  | .financialModelBuild => Finance.financialModelBuild lib shell args
  | .riskCalc => Finance.riskCalc lib shell args
  | .complianceCheck => Finance.complianceCheck lib nowMs args
  | .kycScreen => Finance.kycScreen lib shell args
  | .tradeExecute => Finance.tradeExecute lib shell nowMs args
  | .portfolioRebalance => Finance.portfolioRebalance lib shell args
  | .auditTrailExport => Finance.auditTrailExport lib shell args
  | .regulatoryFilingPrepare => Finance.regulatoryFilingPrepare lib shell args
  | .disclosureReview => Finance.disclosureReview lib shell args

def executeFinanceTools (toolName : String) (args : JsValue) (nowMs : ℕ) : Report :=
  match FinanceTool.ofName toolName with
  | none => .refused ("Unknown finance tool: " ++ toolName)
  | some tool =>
    match tool.execute lib shell nowMs args with
    | .ok report => report
    | .error message => .refused ("Error: " ++ message)

end Wacp.Finance
