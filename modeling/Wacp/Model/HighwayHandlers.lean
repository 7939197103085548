import Wacp.Model.Authorizer
import Wacp.Model.HighwayService

/-!
# Actions of the highway in the console

`resolve_gate`, `batch_resolve_gates`, `respond_escalation` and `inject_directive` of
`console-api/src/routes/highway.rs`. Each reads the session in the path, asks whether the user may
act on it, and forwards the ids in the rest of the request.
-/

namespace Wacp.Console.Highway

open Library Prog

/-! ## What the handlers reach -/

structure PendingState where
  (gates escalations : List String)
  deriving DecidableEq

/-- The sessions, the assignments of each session, the monitors of the active sessions, and the
runtime. -/
structure Data where
  sessions : List SessionRow
  ids : (sessions.map (·.id)).Nodup
  assignments : List (String × SessionAssignmentRow)
  activeSessions : Table String PendingState
  runtime : HighwayRuntime

namespace Data

def getById (d : Data) (id : String) : Option SessionRow := d.sessions.find? fun s => s.id = id

def dropGate (d : Data) (sid gid : String) : Data :=
  match d.activeSessions.get sid with
  | none => d
  | some p => { d with
      activeSessions := d.activeSessions.set sid { p with gates := p.gates.filter (· ≠ gid) } }

def dropEscalation (d : Data) (sid eid : String) : Data :=
  match d.activeSessions.get sid with
  | none => d
  | some p => { d with
      activeSessions :=
        d.activeSessions.set sid { p with escalations := p.escalations.filter (· ≠ eid) } }

end Data

structure GateResponse extends Wacp.GateResponse where
  modifications : List UInt8
  deriving DecidableEq

inductive Call where
  | getById (id : String)
  | highway
  | respondToGate (request : GateResponse)
  | respondToEscalation (request : EscalationResponse)
  | injectEnvelope (request : InjectEnvelopeRequest)
  | monitor (sid : String)
  | dropGate (sid gid : String)
  | dropEscalation (sid eid : String)

abbrev Reply : Call → Type
  | .getById _ => Except DbError (Option SessionRow)
  | .highway => Bool
  | .respondToGate _ => Except Status GateResponseAck
  | .respondToEscalation _ => Except Status EscalationResponseAck
  | .injectEnvelope _ => Except Status InjectEnvelopeResponse
  | .monitor _ => Bool
  | .dropGate _ _ => Unit
  | .dropEscalation _ _ => Unit

abbrev Program (α : Type) := Prog Call Reply α

/-- What the outside says at one call: whether the database refuses, whether there is a channel,
and whether the request is lost on its way to the runtime. -/
structure Outside where
  dbError : Option DbError
  channel : Bool
  transport : Option Status
  codeText : Code → String

def InjectError.status (codeText : Code → String) : InjectError → Status
  | .notFound message => ⟨.notFound, codeText .notFound, message⟩
  | .unavailable message => ⟨.unavailable, codeText .unavailable, message⟩

def forward {α : Type} (d : Data) (o : Outside) (r : HighwayRuntime × Except Status α) :
    Except Status α × Data :=
  match o.transport with
  | some status => (.error status, d)
  | none => (r.2, { d with runtime := r.1 })

def exec : (c : Call) → Outside → Data → Reply c × Data
  | .getById id, o, d =>
    match o.dbError with
    | some e => (.error e, d)
    | none => (.ok (d.getById id), d)
  | .highway, o, d => (o.channel, d)
  | .respondToGate request, o, d =>
    let r := d.runtime.respondToGate request.toGateResponse
    forward d o (r.1, .ok r.2)
  | .respondToEscalation request, o, d =>
    let r := d.runtime.respondToEscalation request
    forward d o (r.1, .ok r.2)
  | .injectEnvelope request, o, d =>
    let r := d.runtime.injectEnvelope request
    forward d o (r.1, r.2.mapError (InjectError.status o.codeText))
  | .monitor sid, _, d => (d.activeSessions.contains sid, d)
  | .dropGate sid gid, _, d => ((), d.dropGate sid gid)
  | .dropEscalation sid eid, _, d => ((), d.dropEscalation sid eid)

/-! ## Handlers -/

/-- An error that other handlers answer with as well, or a bad request. -/
inductive HighwayError where
  | api (e : ApiError)
  | badRequest (message : String)
  deriving DecidableEq

def checkSessionActionAccess (auth : Auth) (session : SessionRow) : Except HighwayError Unit :=
  if auth.isAdmin then .ok ()
  else if session.ownerUserId = auth.userId then .ok ()
  else .error (.api (.console (.forbidden
    "Only the session owner or an admin can perform actions on this session")))

def getAccessible (auth : Auth) (sid : String) : Program (Except HighwayError SessionRow) := do
  match ← perform (Call.getById sid) with
  | .error e => return .error (.api (.console (.database e.text)))
  | .ok none => return .error (.api (.notFound "session" sid))
  | .ok (some session) =>
    match checkSessionActionAccess auth session with
    | .error e => return .error e
    | .ok () => return .ok session

def parseGateDecision (s : String) : Except HighwayError GateDecision :=
  if s = "approve" then .ok .approve
  else if s = "reject" then .ok .reject
  else if s = "modify" then .ok .modify
  else .error (.badRequest
    ("unknown gate decision '" ++ s ++ "' (expected approve|reject|modify)"))

def decisionNumber : GateDecision → ℤ
  | .approve => 1
  | .reject => 2
  | .modify => 3

def bytesOf (jsonText : JsonValue → List UInt8) (value : Option JsonValue) : List UInt8 :=
  (value.map jsonText).getD []

section Handlers

variable (jsonText : JsonValue → List UInt8) (auth : Auth) (sid : String)

structure GateResolveRequest where
  decision : String
  modifications : Option JsonValue

def resolveGate (gid : String) (body : GateResolveRequest) :
    Program (Except HighwayError (String × Bool)) := do
  match ← getAccessible auth sid with
  | .error e => return .error e
  | .ok _ =>
    match parseGateDecision body.decision with
    | .error e => return .error e
    | .ok decision =>
      if ← perform Call.highway then
        let req : GateResponse :=
          { gateId := gid, decision := decisionNumber decision, clientRequestId := ""
            modifications := bytesOf jsonText body.modifications }
        match ← perform (Call.respondToGate req) with
        | .error s => return .error (.api (.fromTonic s "HighwayService" "RespondToGate"))
        | .ok ack =>
          perform (Call.dropGate sid gid)
          return .ok (gid, ack.applied)
      else return .error (.api (.runtimeUnavailable "HighwayService" "RespondToGate"))

structure BatchGateItem where
  (gateId decision : String)
  deriving DecidableEq

inductive BatchResult where
  | badRequest (gateId message : String)
  | applied (gateId : String) (applied : Bool)
  | runtimeRejected (gateId code message : String)
  deriving DecidableEq

def batchResolveOne (monitor : Bool) (item : BatchGateItem) : Program BatchResult := do
  match parseGateDecision item.decision with
  | .error _ =>
    return .badRequest item.gateId ("unknown decision '" ++ item.decision ++ "'")
  | .ok decision =>
    let req : GateResponse :=
      { gateId := item.gateId, decision := decisionNumber decision, clientRequestId := ""
        modifications := [] }
    match ← perform (Call.respondToGate req) with
    | .error s => return .runtimeRejected item.gateId s.code.debug s.message
    | .ok ack =>
      if monitor then
        perform (Call.dropGate sid item.gateId)
        return .applied item.gateId ack.applied
      else return .applied item.gateId ack.applied

def batchResolveEach (monitor : Bool) : List BatchGateItem → Program (List BatchResult)
  | [] => return []
  | item :: gates => do
      let result ← batchResolveOne sid monitor item
      return result :: (← batchResolveEach monitor gates)

def batchResolveGates (gates : List BatchGateItem) :
    Program (Except HighwayError (List BatchResult)) := do
  match ← getAccessible auth sid with
  | .error e => return .error e
  | .ok _ =>
    if ← perform Call.highway then
      let monitor ← perform (Call.monitor sid)
      return .ok (← batchResolveEach sid monitor gates)
    else return .error (.api (.runtimeUnavailable "HighwayService" "RespondToGate"))

structure EscalationRequest where
  response : String
  context : Option JsonValue

def escalationAction (body : EscalationRequest) : Except HighwayError EscalationAction :=
  if body.response = "abort" then .ok (.abort true)
  else if body.response = "delegate" then .ok (.delegateToCoordinator true)
  else if body.response = "feedback" then
    .ok (.feedback { type := "feedback", payload := bytesOf jsonText body.context })
  else .error (.badRequest
    ("unknown escalation response '" ++ body.response ++ "' (expected feedback|abort|delegate)"))

def respondEscalation (eid : String) (body : EscalationRequest) :
    Program (Except HighwayError (String × Bool)) := do
  match ← getAccessible auth sid with
  | .error e => return .error e
  | .ok _ =>
    match escalationAction jsonText body with
    | .error e => return .error e
    | .ok action =>
      if ← perform Call.highway then
        let req : EscalationResponse :=
          { escalationId := eid, action := some action, clientRequestId := "" }
        match ← perform (Call.respondToEscalation req) with
        | .error s =>
          return .error (.api (.fromTonic s "HighwayService" "RespondToEscalation"))
        | .ok ack =>
          perform (Call.dropEscalation sid eid)
          return .ok (eid, ack.applied)
      else return .error (.api (.runtimeUnavailable "HighwayService" "RespondToEscalation"))

structure InjectDirectiveRequest where
  workspaceId : String
  content : JsonValue
  envelopeType : Option String

def InjectDirectiveRequest.message (body : InjectDirectiveRequest) : InjectEnvelopeRequest :=
  { toWorkspace := body.workspaceId, type := body.envelopeType.getD "directive"
    payload := jsonText body.content, priority := 1, clientRequestId := "" }

def injectDirective (body : InjectDirectiveRequest) : Program (Except HighwayError String) := do
  match ← getAccessible auth sid with
  | .error e => return .error e
  | .ok session =>
    if session.state ≠ .active then
      return .error (.api (.console
        (.conflict "Directives can only be injected into active sessions")))
    else if ← perform Call.highway then
      match ← perform (Call.injectEnvelope (body.message jsonText)) with
      | .error s => return .error (.api (.fromTonic s "HighwayService" "InjectEnvelope"))
      | .ok ack => return .ok ack.envelopeId
    else return .error (.api (.runtimeUnavailable "HighwayService" "InjectEnvelope"))

end Handlers

/-! ## Requests -/

inductive Request where
  | resolveGate (gid : String) (body : GateResolveRequest)
  | batchResolveGates (gates : List BatchGateItem)
  | respondEscalation (eid : String) (body : EscalationRequest)
  | injectDirective (body : InjectDirectiveRequest)

def Request.program (jsonText : JsonValue → List UInt8) (auth : Auth) (sid : String) :
    Request → Program Unit
  | .resolveGate gid body => do let _ ← Highway.resolveGate jsonText auth sid gid body
  | .batchResolveGates gates => do let _ ← Highway.batchResolveGates auth sid gates
  | .respondEscalation eid body => do let _ ← Highway.respondEscalation jsonText auth sid eid body
  | .injectDirective body => do let _ ← Highway.injectDirective jsonText auth sid body

end Wacp.Console.Highway
