import Wacp.Library.Loops
import Wacp.Model.FinanceTools

/-!
# Executed trades and their approvals

`trade_execute` looks at the approval in its own arguments and nowhere else.
-/

namespace Wacp.Finance

open Library FinanceTool

/-- When, with what, and how the shell answers. -/
structure TimedCall where
  now : ℕ
  tool : String
  args : JsValue
  shell : Shell

variable (lib : TextLibrary)

def TimedCall.report (c : TimedCall) : Report :=
  executeFinanceTools lib c.shell c.tool c.args c.now

variable (calls : List TimedCall)

structure SameTrade (a b : JsValue) : Prop where
  tradeId : a.field "trade_id" = b.field "trade_id"
  instrument : a.field "instrument" = b.field "instrument"
  side : a.field "side" = b.field "side"
  quantity : a.field "quantity" = b.field "quantity"

/-- Every reported trade was approved by a call less than five minutes before. -/
def Backed : Prop :=
  ∀ (i : ℕ) (c : TimedCall) (check : JsValue) (stdout : String), calls[i]? = some c →
    c.report lib = .executed check stdout →
    ∃ (j : ℕ) (c' : TimedCall) (approval : JsValue), j < i ∧ calls[j]? = some c' ∧
      c'.report lib = .approved approval ∧ SameTrade approval check ∧
      c.now < c'.now + fiveMinutes

/-! ## What a call reports -/

structure Accepted (c : TimedCall) (check : JsValue) : Prop where
  tool : c.tool = "trade_execute"
  presented : c.args.member lib "compliance_check" = .ok check
  truthy : check.truthy
  valid : validateComplianceCheck lib check = .ok []
  approved : (check.field "status").strictEq (.string "approved")
  fresh : isComplianceFresh check c.now
  runs : ∃ command stdout, executeCommand lib c.args check = .ok command ∧
    c.shell command none = .ok stdout

def proposedBy (args : JsValue) : ProposedTrade :=
  { instrument := args.field "instrument", side := args.field "side"
    quantity := args.field "quantity", rationale := args.field "rationale"
    relatedOrders := args.field "related_orders", source := .undefined }

structure Screened (c : TimedCall) : Prop where
  tool : c.tool = "compliance_check"
  readable : ∃ tradeId, c.args.member lib "trade_id" = .ok tradeId
  clean : classifyForbiddenPattern lib (proposedBy c.args) = .ok none

def approvalFor (c : TimedCall) : JsValue :=
  approvalOf (c.args.field "trade_id") (c.args.field "instrument") (c.args.field "side")
    (c.args.field "quantity") (c.args.field "regulation") c.now

variable {lib}

theorem member_eq_ok {value v : JsValue} {name : String} (h : value.member lib name = .ok v) :
    v = value.field name := by
  cases value with
  | undefined | null => cases h
  | object => exact (Except.ok.inj h).symm
  | _ => exact (Except.ok.inj h).symm

theorem ofName_eq_tradeExecute {s : String} (h : ofName s = some .tradeExecute) :
    s = "trade_execute" := by
  unfold ofName at h
  split at h
  all_goals first | rfl | cases h

theorem ofName_eq_complianceCheck {s : String}
    (h : ofName s = some .complianceCheck) : s = "compliance_check" := by
  unfold ofName at h
  split at h
  all_goals first | rfl | cases h

variable {c : TimedCall}

theorem report_of_ok {tool : FinanceTool} {report : Report} (hname : ofName c.tool = some tool)
    (hok : tool.execute lib c.shell c.now c.args = .ok report) : c.report lib = report := by
  unfold TimedCall.report executeFinanceTools
  rw [hname]
  dsimp only
  rw [hok]

theorem exists_of_report {report : Report} (h : c.report lib = report)
    (hreport : ∀ content, report ≠ .refused content) : ∃ tool, ofName c.tool = some tool ∧
      tool.execute lib c.shell c.now c.args = .ok report := by
  unfold TimedCall.report executeFinanceTools at h
  cases hname : ofName c.tool with
  | none =>
    rw [hname] at h
    exact absurd h.symm (hreport _)
  | some tool =>
    rw [hname] at h
    cases hexec : tool.execute lib c.shell c.now c.args with
    | error =>
      dsimp only at h
      rw [hexec] at h
      exact absurd h.symm (hreport _)
    | ok report' =>
      dsimp only at h
      rw [hexec] at h
      have hreport' : report' = report := h
      exact ⟨tool, rfl, by rw [hexec, hreport']⟩

theorem shellTool_eq_ok {shell : Shell} {timeout : Option ℕ} {command : Except Thrown String}
    {report : Report} (h : shellTool shell timeout command = .ok report) :
    ∃ stdout, report = .output stdout := by
  obtain ⟨text, -, h⟩ := bind_eq_ok_iff.mp h
  obtain ⟨stdout, -, h⟩ := bind_eq_ok_iff.mp h
  exact ⟨stdout, (Except.ok.inj h).symm⟩

/-- **What `trade_execute` reports**: a refusal, or the execution of a check that passes. -/
theorem tradeExecute_eq_ok {shell : Shell} {now : ℕ} {args : JsValue} {report : Report}
    (h : tradeExecute lib shell now args = .ok report) : (∃ content, report = .refused content) ∨
      ∃ check stdout, report = .executed check stdout ∧
        Accepted lib ⟨now, "trade_execute", args, shell⟩ check := by
  obtain ⟨check, hpresented, h⟩ := bind_eq_ok_iff.mp h
  by_cases htruthy : check.truthy
  swap
  · rw [if_pos (by simpa using htruthy)] at h
    exact .inl ⟨_, (Except.ok.inj h).symm⟩
  rw [if_neg (by simpa using htruthy)] at h
  obtain ⟨errors, hvalid, h⟩ := bind_eq_ok_iff.mp h
  by_cases herrors : errors = []
  swap
  · rw [if_pos herrors] at h
    exact .inl ⟨_, (Except.ok.inj h).symm⟩
  subst herrors
  rw [if_neg (not_not.mpr rfl)] at h
  split_ifs at h with hstatus hfresh
  · obtain ⟨text, -, h⟩ := bind_eq_ok_iff.mp h
    exact .inl ⟨_, (Except.ok.inj h).symm⟩
  · obtain ⟨text, -, h⟩ := bind_eq_ok_iff.mp h
    obtain ⟨time, -, h⟩ := bind_eq_ok_iff.mp h
    exact .inl ⟨_, (Except.ok.inj h).symm⟩
  · obtain ⟨command, hcommand, h⟩ := bind_eq_ok_iff.mp h
    obtain ⟨stdout, hstdout, h⟩ := bind_eq_ok_iff.mp h
    refine .inr ⟨check, stdout, (Except.ok.inj h).symm, ?_⟩
    exact
      { tool := rfl, presented := hpresented, truthy := htruthy, valid := hvalid
        approved := by simpa using hstatus
        fresh := by simpa using hfresh
        runs := ⟨command, stdout, hcommand, hstdout⟩ }

variable {check : JsValue}

theorem Accepted.report (h : Accepted lib c check) :
    ∃ stdout, c.report lib = .executed check stdout := by
  obtain ⟨command, stdout, hcommand, hstdout⟩ := h.runs
  have hok : tradeExecute lib c.shell c.now c.args = .ok (.executed check stdout) := by
    unfold tradeExecute
    simp [h.presented, h.truthy, h.valid, h.approved, h.fresh, hcommand, hstdout, bind,
      Except.bind, pure, Except.pure]
  have hname : ofName c.tool = some .tradeExecute := by
    rw [h.tool]
    rfl
  exact ⟨stdout, report_of_ok hname hok⟩

/-- **What `compliance_check` reports**: a refusal, or the approval of a trade without forbidden
pattern. -/
theorem complianceCheck_eq_ok {report : Report} (h : complianceCheck lib c.now c.args = .ok report)
    (htool : c.tool = "compliance_check") :
    (∃ content, report = .refused content) ∨ report = .approved (approvalFor c) ∧
      Screened lib c := by
  obtain ⟨tradeId, hreadable, h⟩ := bind_eq_ok_iff.mp h
  obtain ⟨detected, hclean, h⟩ := bind_eq_ok_iff.mp h
  have htrade := member_eq_ok hreadable
  cases detected with
  | none =>
    refine .inr ⟨?_, htool, ⟨tradeId, hreadable⟩, hclean⟩
    rw [htrade] at h
    exact (Except.ok.inj h).symm
  | some =>
    obtain ⟨_, -, h⟩ := bind_eq_ok_iff.mp h
    obtain ⟨_, -, h⟩ := bind_eq_ok_iff.mp h
    obtain ⟨_, -, h⟩ := bind_eq_ok_iff.mp h
    obtain ⟨_, -, h⟩ := bind_eq_ok_iff.mp h
    obtain ⟨_, -, h⟩ := bind_eq_ok_iff.mp h
    exact .inl ⟨_, (Except.ok.inj h).symm⟩

theorem Screened.report (h : Screened lib c) : c.report lib = .approved (approvalFor c) := by
  obtain ⟨tradeId, hreadable⟩ := h.readable
  have htrade := member_eq_ok hreadable
  have hclean := h.clean
  unfold proposedBy at hclean
  have hok : complianceCheck lib c.now c.args = .ok (.approved (approvalFor c)) := by
    unfold complianceCheck
    simp [hreadable, hclean, htrade, approvalFor, bind, Except.bind, pure, Except.pure]
  have hname : ofName c.tool = some .complianceCheck := by
    rw [h.tool]
    rfl
  exact report_of_ok hname hok

theorem exists_executed_iff :
    (∃ stdout, c.report lib = .executed check stdout) ↔ Accepted lib c check := by
  constructor
  · rintro ⟨stdout, h⟩
    obtain ⟨tool, hname, hexec⟩ := exists_of_report h (fun _ => nofun)
    cases tool with
    | tradeExecute =>
      obtain ⟨content, hrefused⟩ | ⟨check', stdout', hexecuted, haccepted⟩ :=
        tradeExecute_eq_ok hexec
      · cases hrefused
      · cases hexecuted
        have htool := ofName_eq_tradeExecute hname
        obtain ⟨now, name, args, shell⟩ := c
        cases htool
        exact haccepted
    | complianceCheck =>
      obtain ⟨content, hrefused⟩ | ⟨happroved, -⟩ :=
        complianceCheck_eq_ok hexec (ofName_eq_complianceCheck hname)
      · cases hrefused
      · cases happroved
    | _ =>
      obtain ⟨stdout', houtput⟩ := shellTool_eq_ok hexec
      cases houtput
  · exact Accepted.report

theorem report_eq_approved_iff {approval : JsValue} :
    c.report lib = .approved approval ↔ approval = approvalFor c ∧ Screened lib c := by
  constructor
  · intro h
    obtain ⟨tool, hname, hexec⟩ := exists_of_report h (fun _ => nofun)
    cases tool with
    | complianceCheck =>
      obtain ⟨content, hrefused⟩ | ⟨happroved, hscreened⟩ :=
        complianceCheck_eq_ok hexec (ofName_eq_complianceCheck hname)
      · cases hrefused
      · cases happroved
        exact ⟨rfl, hscreened⟩
    | tradeExecute =>
      obtain ⟨content, hrefused⟩ | ⟨check, stdout, hexecuted, -⟩ := tradeExecute_eq_ok hexec
      · cases hrefused
      · cases hexecuted
    | _ =>
      obtain ⟨stdout, houtput⟩ := shellTool_eq_ok hexec
      cases houtput
  · rintro ⟨rfl, hscreened⟩
    exact hscreened.report

/-! ## Sequences of calls -/

variable (lib)

/-- Every accepted check matches an earlier trade found clean, less than five minutes before. -/
def MatchesApprovals : Prop :=
  ∀ (i : ℕ) (c : TimedCall) (check : JsValue), calls[i]? = some c → Accepted lib c check →
    ∃ (j : ℕ) (c' : TimedCall), j < i ∧ calls[j]? = some c' ∧ Screened lib c' ∧
      SameTrade c'.args check ∧ c.now < c'.now + fiveMinutes

/-- A check that is presented is one that an earlier call reported. -/
def PassesOn : Prop :=
  ∀ (i : ℕ) (c : TimedCall), calls[i]? = some c → c.tool = "trade_execute" →
    ∃ (j : ℕ) (c' : TimedCall), j < i ∧ calls[j]? = some c' ∧
      c'.report lib = .approved (c.args.field "compliance_check")

variable {lib}

theorem sameTrade_approvalFor : SameTrade (approvalFor c) check ↔ SameTrade c.args check :=
  ⟨fun h => ⟨h.tradeId, h.instrument, h.side, h.quantity⟩,
    fun h => ⟨h.tradeId, h.instrument, h.side, h.quantity⟩⟩

theorem isComplianceFresh_approvalFor {now : ℕ} :
    isComplianceFresh (approvalFor c) now ↔ now < c.now + fiveMinutes := by
  have hfresh : isComplianceFresh (approvalFor c) now =
      decide ((now : ℚ) < ((c.now + fiveMinutes : ℕ) : ℚ)) := rfl
  rw [hfresh, decide_eq_true_iff, Nat.cast_lt]

theorem backed_of_matchesApprovals {calls : List TimedCall} (h : MatchesApprovals lib calls) :
    Backed lib calls := by
  intro i c check stdout hc hexecuted
  obtain ⟨j, c', hj, hc', hscreened, hsame, hrecent⟩ :=
    h i c check hc (exists_executed_iff.mp ⟨stdout, hexecuted⟩)
  exact ⟨j, c', approvalFor c', hj, hc', hscreened.report, sameTrade_approvalFor.mpr hsame, hrecent⟩

theorem backed_of_passesOn {calls : List TimedCall} (h : PassesOn lib calls) :
    Backed lib calls := by
  apply backed_of_matchesApprovals
  intro i c check hc haccepted
  obtain ⟨j, c', hj, hc', happroved⟩ := h i c hc haccepted.tool
  rw [← member_eq_ok haccepted.presented, report_eq_approved_iff] at happroved
  obtain ⟨rfl, hscreened⟩ := happroved
  exact ⟨j, c', hj, hc', hscreened, sameTrade_approvalFor.mp ⟨rfl, rfl, rfl, rfl⟩,
    isComplianceFresh_approvalFor.mp haccepted.fresh⟩

namespace Sample

def library : TextLibrary :=
  { toLowerCase := id, toUpperCase := id, trim := id, display := fun _ => .ok "?"
    join := fun _ => .ok "", stringify := fun _ => "", coercedPositive := fun _ => .ok false
    typeError := fun _ name => name }

def shell : Shell := fun command _ => .ok command

def proposal : TimedCall :=
  { now := 1000, tool := "compliance_check", shell := shell
    args := .object [("trade_id", .string "t1"), ("instrument", .string "ABC"),
      ("side", .string "buy"), ("quantity", .number (.finite 1)), ("regulation", .string "SEC")] }

def execution (check : JsValue) : TimedCall :=
  { now := 2000, tool := "trade_execute", shell := shell
    args := .object [("compliance_check", check)] }

end Sample

open Sample in

theorem Sample.accepted :
    Accepted library (execution (approvalFor proposal)) (approvalFor proposal) where
  tool := rfl
  presented := rfl
  truthy := rfl
  valid := rfl
  approved := rfl
  fresh := isComplianceFresh_approvalFor.mpr (by decide)
  runs := ⟨_, _, rfl, rfl⟩

open Sample in

theorem backed_passed_on : Backed library [proposal, execution (approvalFor proposal)] := by
  refine backed_of_passesOn fun i c hc htool => ?_
  obtain _ | _ | i := i <;> cases hc
  · exact absurd htool (by decide)
  · exact ⟨0, proposal, Nat.zero_lt_one, rfl, report_eq_approved_iff.mpr ⟨rfl, rfl, ⟨_, rfl⟩, rfl⟩⟩

end Wacp.Finance
