import Wacp.Library.Table
import Wacp.Model.Types

/-!
# The authenticators of the transport

`wacp-transport/src/auth.rs` and the three files beside it: the trait `Authenticator` with its
implementations for pre-shared keys, API keys, session tokens and OAuth bearer tokens. A method
behind a lock is one step. SHA-256 and the base64 and JSON decoders are parameters
(`AuthLibraries`), a random token is an argument. `now` is an `Instant`, for OAuth the seconds since
the epoch.
-/

namespace Wacp.Transport

open Library

structure AgentIdentity where
  workspaceId : WorkspaceId
  role : String
  deriving DecidableEq

inductive AuthError where
  | invalidToken
  | workspaceMismatch
  | providerUnavailable
  | rateLimited
  deriving DecidableEq

/-- What the authenticators call outside the repository; a decoder returns `none` where the
library returns an error. -/
structure AuthLibraries where
  sha256 : List UInt8 → List UInt8
  base64UrlDecode : String → Option (List UInt8)
  jsonFromSlice : List UInt8 → Option JsonValue

abbrev TokenDigest := List UInt8

def digest (lib : AuthLibraries) (token : String) : TokenDigest :=
  lib.sha256 token.toUTF8.data.toList

/-! ## Pre-shared keys (auth.rs) -/

structure PskAuthenticator where
  agentTokens : Table String AgentIdentity
  humanTokens : Table String UserId

namespace PskAuthenticator

def new : PskAuthenticator := { agentTokens := ∅, humanTokens := ∅ }

variable (a : PskAuthenticator) (token : String) (workspaceId : WorkspaceId)

def registerAgent (role : String) : PskAuthenticator :=
  { a with agentTokens := a.agentTokens.set token { workspaceId := workspaceId, role := role } }

def registerHuman (userId : UserId) : PskAuthenticator :=
  { a with humanTokens := a.humanTokens.set token userId }

def revokeAgent : PskAuthenticator :=
  { a with agentTokens := a.agentTokens.retain fun _ id => id.workspaceId ≠ workspaceId }

def revokeHuman : PskAuthenticator :=
  { a with humanTokens := a.humanTokens.remove token }

def authenticateAgent : Except AuthError AgentIdentity :=
  match a.agentTokens.get token with
  | some identity =>
    if identity.workspaceId = workspaceId then .ok identity else .error .workspaceMismatch
  | none => .error .invalidToken

def authenticateHuman : Except AuthError UserId :=
  match a.humanTokens.get token with
  | some userId => .ok userId
  | none => .error .invalidToken

end PskAuthenticator

/-! ## API keys (auth_api_key.rs) -/

structure ApiKeyEntry where
  identity : AgentIdentity
  lastUsed : Option ℕ
  deriving DecidableEq

structure HumanKeyEntry where
  userId : UserId
  lastUsed : Option ℕ
  deriving DecidableEq

structure ApiKeyAuthenticator where
  agentKeys : Table TokenDigest ApiKeyEntry
  humanKeys : Table TokenDigest HumanKeyEntry

namespace ApiKeyAuthenticator

def new : ApiKeyAuthenticator := { agentKeys := ∅, humanKeys := ∅ }

variable (lib : AuthLibraries) (a : ApiKeyAuthenticator) (key : String)

def registerAgentKey (workspaceId : WorkspaceId) (role : String) : ApiKeyAuthenticator :=
  let entry := { identity := { workspaceId := workspaceId, role := role }, lastUsed := none }
  { a with agentKeys := a.agentKeys.set (digest lib key) entry }

def registerHumanKey (userId : UserId) : ApiKeyAuthenticator :=
  { a with humanKeys := a.humanKeys.set (digest lib key) { userId := userId, lastUsed := none } }

def revokeAgentKey : ApiKeyAuthenticator :=
  { a with agentKeys := a.agentKeys.remove (digest lib key) }

def revokeHumanKey : ApiKeyAuthenticator :=
  { a with humanKeys := a.humanKeys.remove (digest lib key) }

/-- The comparison of the two workspaces takes constant time in the source. -/
def authenticateAgent (now : ℕ) (token : String) (workspaceId : WorkspaceId) :
    Except AuthError AgentIdentity × ApiKeyAuthenticator :=
  match a.agentKeys.get (digest lib token) with
  | some entry =>
    if entry.identity.workspaceId ≠ workspaceId then (.error .workspaceMismatch, a)
    else
      let used := { entry with lastUsed := some now }
      (.ok entry.identity, { a with agentKeys := a.agentKeys.set (digest lib token) used })
  | none => (.error .invalidToken, a)

def authenticateHuman (now : ℕ) (token : String) : Except AuthError UserId × ApiKeyAuthenticator :=
  match a.humanKeys.get (digest lib token) with
  | some entry =>
    let used := { entry with lastUsed := some now }
    (.ok entry.userId, { a with humanKeys := a.humanKeys.set (digest lib token) used })
  | none => (.error .invalidToken, a)

end ApiKeyAuthenticator

/-! ## Session tokens (auth_session.rs) -/

structure SessionEntry where
  userId : UserId
  (expiresAt lastActivity : ℕ)
  deriving DecidableEq

structure SessionTokenAuthenticator where
  sessions : Table TokenDigest SessionEntry
  tokenTtl : ℕ

namespace SessionTokenAuthenticator

def new (tokenTtl : ℕ) : SessionTokenAuthenticator := { sessions := ∅, tokenTtl := tokenTtl }

variable (lib : AuthLibraries) (a : SessionTokenAuthenticator) (now : ℕ) (token : String)

def createSession (userId : UserId) : SessionTokenAuthenticator :=
  let entry := { userId := userId, expiresAt := now + a.tokenTtl, lastActivity := now }
  { a with sessions := a.sessions.set (digest lib token) entry }

def sessionExpiredNow (expiresAt : ℕ) : Bool := decide (now > expiresAt)

def sessionStillActive (expiresAt now : ℕ) : Bool := decide (expiresAt > now)

def validateSession : Except AuthError UserId × SessionTokenAuthenticator :=
  match a.sessions.get (digest lib token) with
  | none => (.error .invalidToken, a)
  | some entry =>
    if sessionExpiredNow now entry.expiresAt then
      (.error .invalidToken, { a with sessions := a.sessions.remove (digest lib token) })
    else
      let used := { entry with lastActivity := now }
      (.ok entry.userId, { a with sessions := a.sessions.set (digest lib token) used })

def invalidateSession : SessionTokenAuthenticator :=
  { a with sessions := a.sessions.remove (digest lib token) }

def cleanupExpired : SessionTokenAuthenticator :=
  { a with sessions := a.sessions.retain fun _ entry => sessionStillActive entry.expiresAt now }

def authenticateAgent (_workspaceId : WorkspaceId) :
    Except AuthError AgentIdentity × SessionTokenAuthenticator :=
  match a.validateSession lib now token with
  | (.error e, a') => (.error e, a')
  | (.ok userId, a') =>
    (.ok { workspaceId := ⟨"session"⟩, role := "session:" ++ userId.text }, a')

def authenticateHuman : Except AuthError UserId × SessionTokenAuthenticator :=
  a.validateSession lib now token

end SessionTokenAuthenticator

/-! ## OAuth (auth_oauth.rs) -/

structure JwtClaims where
  (sub iss aud : String)
  exp : UInt64
  role : Option String
  deriving DecidableEq

/-- The claims of a token; the signature is not looked at. `none` is any of the three errors,
which the caller does not tell apart. -/
def decodeJwt (lib : AuthLibraries) (token : String) : Option JwtClaims :=
  match token.toList.splitOn '.' with
  | [_, payload, _] =>
    ((lib.base64UrlDecode (String.ofList payload)).bind lib.jsonFromSlice).map fun value =>
      { sub := (value.getStr "sub").getD ""
        iss := (value.getStr "iss").getD ""
        aud := (value.getStr "aud").getD ""
        exp := ((value.get "exp").bind JsonValue.asU64).getD 0
        role := value.getStr "role" }
  | _ => none

structure OAuthAuthenticator where
  (issuer audience : String)
  deriving DecidableEq

namespace OAuthAuthenticator

def jwtIsExpired (exp : UInt64) (now : ℕ) : Bool := decide (exp.toNat < now)

variable (lib : AuthLibraries) (a : OAuthAuthenticator)

def validateJwt (now : ℕ) (token : String) : Except AuthError JwtClaims :=
  match decodeJwt lib token with
  | none => .error .invalidToken
  | some claims =>
    if claims.iss ≠ a.issuer then .error .invalidToken
    else if claims.aud ≠ a.audience then .error .invalidToken
    else if jwtIsExpired claims.exp now then .error .invalidToken
    else .ok claims

def authenticateAgent (now : ℕ) (token : String) (workspaceId : WorkspaceId) :
    Except AuthError AgentIdentity :=
  match a.validateJwt lib now token with
  | .error e => .error e
  | .ok claims => .ok { workspaceId := workspaceId, role := claims.role.getD "worker" }

def authenticateHuman (now : ℕ) (token : String) : Except AuthError UserId :=
  match a.validateJwt lib now token with
  | .error e => .error e
  | .ok claims => .ok ⟨claims.sub⟩

end OAuthAuthenticator

/-! ## The trait (auth.rs) -/

inductive Authenticator where
  | psk (a : PskAuthenticator)
  | apiKey (a : ApiKeyAuthenticator)
  | session (a : SessionTokenAuthenticator)
  | oauth (a : OAuthAuthenticator)

namespace Authenticator

def authenticateAgent (lib : AuthLibraries) (now : ℕ) (token : String) (workspaceId : WorkspaceId) :
    Authenticator → Except AuthError AgentIdentity × Authenticator
  | .psk a => (a.authenticateAgent token workspaceId, .psk a)
  | .apiKey a => (a.authenticateAgent lib now token workspaceId).map id .apiKey
  | .session a => (a.authenticateAgent lib now token workspaceId).map id .session
  | .oauth a => (a.authenticateAgent lib now token workspaceId, .oauth a)

def authenticateHuman (lib : AuthLibraries) (now : ℕ) (token : String) :
    Authenticator → Except AuthError UserId × Authenticator
  | .psk a => (a.authenticateHuman token, .psk a)
  | .apiKey a => (a.authenticateHuman lib now token).map id .apiKey
  | .session a => (a.authenticateHuman lib now token).map id .session
  | .oauth a => (a.authenticateHuman lib now token, .oauth a)

end Authenticator

end Wacp.Transport
