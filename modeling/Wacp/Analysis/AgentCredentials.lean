import Wacp.Library.Runs
import Wacp.Model.Authenticators

/-!
# Agent credentials

A deployment is an authenticator with a ledger of the credentials issued and not withdrawn.
`authenticate_agent` also takes any live session of a human, and a bearer token for any workspace.
-/

namespace Wacp.Transport

open Library List Table SessionTokenAuthenticator Option

/-! ## What has been issued -/

inductive Holder where
  | agent (workspaceId : WorkspaceId)
  | human (userId : UserId)
  deriving DecidableEq

def Holder.isAgent : Holder → Bool
  | .agent _ => true
  | .human _ => false

structure Credential where
  token : String
  holder : Holder
  expiresAt : Option ℕ
  deriving DecidableEq

abbrev Ledger := List Credential

/-- Registrations, with the token that is drawn, and revocations of pre-shared keys. -/
inductive PskOp where
  | registerAgent (token : String) (w : WorkspaceId) (role : String)
  | registerHuman (token : String) (user : UserId)
  | revokeAgent (w : WorkspaceId)
  | revokeHuman (token : String)
  deriving DecidableEq

def PskOp.apply (a : PskAuthenticator) : PskOp → PskAuthenticator
  | .registerAgent token w role => a.registerAgent token w role
  | .registerHuman token user => a.registerHuman token user
  | .revokeAgent w => a.revokeAgent w
  | .revokeHuman token => a.revokeHuman token

def PskOp.record (ledger : Ledger) : PskOp → Ledger
  | .registerAgent token w _ => ⟨token, .agent w, none⟩ :: ledger
  | .registerHuman token user => ⟨token, .human user, none⟩ :: ledger
  | .revokeAgent w => ledger.filter fun c => c.holder ≠ .agent w
  | .revokeHuman token => ledger.filter fun c => c.token ≠ token ∨ c.holder.isAgent

inductive ApiKeyOp where
  | registerAgentKey (key : String) (w : WorkspaceId) (role : String)
  | registerHumanKey (key : String) (user : UserId)
  | revokeAgentKey (key : String)
  | revokeHumanKey (key : String)
  deriving DecidableEq

def ApiKeyOp.apply (lib : AuthLibraries) (a : ApiKeyAuthenticator) : ApiKeyOp → ApiKeyAuthenticator
  | .registerAgentKey key w role => a.registerAgentKey lib key w role
  | .registerHumanKey key user => a.registerHumanKey lib key user
  | .revokeAgentKey key => a.revokeAgentKey lib key
  | .revokeHumanKey key => a.revokeHumanKey lib key

def ApiKeyOp.record (ledger : Ledger) : ApiKeyOp → Ledger
  | .registerAgentKey key w _ => ⟨key, .agent w, none⟩ :: ledger
  | .registerHumanKey key user => ⟨key, .human user, none⟩ :: ledger
  | .revokeAgentKey key => ledger.filter fun c => c.token ≠ key ∨ !c.holder.isAgent
  | .revokeHumanKey key => ledger.filter fun c => c.token ≠ key ∨ c.holder.isAgent

inductive SessionOp where
  | createSession (token : String) (user : UserId)
  | validateSession (token : String)
  | invalidateSession (token : String)
  | cleanupExpired
  deriving DecidableEq

def SessionOp.apply (lib : AuthLibraries) (now : ℕ) (a : SessionTokenAuthenticator) :
    SessionOp → SessionTokenAuthenticator
  | .createSession token user => a.createSession lib now token user
  | .validateSession token => (a.validateSession lib now token).2
  | .invalidateSession token => a.invalidateSession lib token
  | .cleanupExpired => a.cleanupExpired now

def SessionOp.record (ttl now : ℕ) (ledger : Ledger) : SessionOp → Ledger
  | .createSession token user => ⟨token, .human user, some (now + ttl)⟩ :: ledger
  | .validateSession _ => ledger
  | .invalidateSession token => ledger.filter fun c => c.token ≠ token
  | .cleanupExpired => ledger.filter fun c => c.expiresAt.all fun e => now < e

inductive ProviderOp where
  | issue (credential : Credential)
  | withdraw (token : String)
  deriving DecidableEq

def ProviderOp.record (ledger : Ledger) : ProviderOp → Ledger
  | .issue credential => credential :: ledger
  | .withdraw token => ledger.filter fun c => c.token ≠ token

inductive Op where
  | psk (op : PskOp)
  | apiKey (op : ApiKeyOp)
  | session (op : SessionOp)
  | provider (op : ProviderOp)
  | authenticateAgent (token : String) (w : WorkspaceId)
  | authenticateHuman (token : String)
  deriving DecidableEq

structure Deployment where
  authenticator : Authenticator
  ledger : Ledger

namespace Deployment

/-- One operation; `none` for those of another implementation. -/
def apply (lib : AuthLibraries) (s : Deployment) (label : ℕ × Op) : Option Deployment :=
  match s.authenticator, label.2 with
  | .psk a, .psk op => some ⟨.psk (op.apply a), op.record s.ledger⟩
  | .apiKey a, .apiKey op => some ⟨.apiKey (op.apply lib a), op.record s.ledger⟩
  | .session a, .session op =>
    some ⟨.session (op.apply lib label.1 a), op.record a.tokenTtl label.1 s.ledger⟩
  | .oauth a, .provider op => some ⟨.oauth a, op.record s.ledger⟩
  | a, .authenticateAgent token w => some ⟨(a.authenticateAgent lib label.1 token w).2, s.ledger⟩
  | a, .authenticateHuman token => some ⟨(a.authenticateHuman lib label.1 token).2, s.ledger⟩
  | _, _ => none

def Step (lib : AuthLibraries) (s : Deployment) (label : ℕ × Op) (s' : Deployment) : Prop :=
  s.apply lib label = some s'

inductive Start : Deployment → Prop where
  | psk : Start ⟨.psk .new, []⟩
  | apiKey : Start ⟨.apiKey .new, []⟩
  | session (ttl : ℕ) : Start ⟨.session (.new ttl), []⟩
  | oauth (issuer audience : String) : Start ⟨.oauth ⟨issuer, audience⟩, []⟩

/-! ## Stored entries have their credential -/

/-- The ledger has a matching credential without expiry of an agent of the workspace. -/
def Lists (ledger : Ledger) (matching : Credential → Prop) (w : WorkspaceId) : Prop :=
  ∃ c ∈ ledger, matching c ∧ c.holder = .agent w ∧ c.expiresAt = none

/-- Every stored entry of an agent is in the ledger; that of sessions has no agents. -/
def Backed (lib : AuthLibraries) (s : Deployment) : Prop :=
  match s.authenticator with
  | .psk a => ∀ token identity, a.agentTokens.get token = some identity →
      Lists s.ledger (fun c => c.token = token) identity.workspaceId
  | .apiKey a => ∀ key entry, a.agentKeys.get key = some entry →
      Lists s.ledger (fun c => digest lib c.token = key) entry.identity.workspaceId
  | .session _ => ∀ c ∈ s.ledger, c.holder.isAgent = false
  | .oauth _ => True

variable {lib : AuthLibraries} {s s' : Deployment} {ledger : Ledger}
  {matching : Credential → Prop} {w : WorkspaceId}

theorem Lists.cons (h : Lists ledger matching w) {c : Credential} :
    Lists (c :: ledger) matching w := by
  obtain ⟨c', hmem, h⟩ := h
  exact ⟨c', mem_cons_of_mem _ hmem, h⟩

theorem Lists.filter (h : Lists ledger matching w) (keep : Credential → Bool)
    (hkeep : ∀ c, matching c → c.holder = .agent w → keep c) :
    Lists (ledger.filter keep) matching w := by
  obtain ⟨c, hmem, hmatch, hholder, hexp⟩ := h
  exact ⟨c, mem_filter.mpr ⟨hmem, hkeep c hmatch hholder⟩, hmatch, hholder, hexp⟩

theorem Start.backed (h : Start s) : s.Backed lib := by
  cases h with
  | psk =>
    intro token identity hget
    cases hget
  | apiKey =>
    intro key entry hget
    cases hget
  | session =>
    intro c hc
    cases hc
  | oauth => trivial

def Accepts (lib : AuthLibraries) (a : OAuthAuthenticator) (now : ℕ) (token : String) : Prop :=
  ∃ claims, a.validateJwt lib now token = .ok claims

variable {now : ℕ} {token : String}

variable {identity : AgentIdentity}

namespace Sample

def workspace : WorkspaceId := ⟨"ws-1"⟩

def user : UserId := ⟨"ann"⟩

end Sample

open Sample

end Deployment

end Wacp.Transport
