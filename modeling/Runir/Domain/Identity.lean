import Runir.Domain.Types
import Runir.Lib.Lines

/-!
# Domain — Identity keys

The record ids and scope keys that `src/identity/canonical-context.ts` and the stores derive from
the ids of users, workspaces, projects and sessions.  `fingerprint`, the first half of a SHA-256 in
hexadecimal, is a parameter.
-/

namespace Runir

/-- `normalizeToken`. -/
def normalizeToken (value : Option String) : Option String :=
  (value.map Text.trim).filter Text.truthy

/-- `canonicalizeWorkspaceId`. -/
def canonicalizeWorkspaceId (value : Option String) : String :=
  ((value.map Text.trim).filter Text.truthy).getD "-"

theorem canonicalizeWorkspaceId_again (value : Option String) :
    canonicalizeWorkspaceId (some (canonicalizeWorkspaceId value)) = canonicalizeWorkspaceId value := by
  unfold canonicalizeWorkspaceId
  cases h : (value.map Text.trim).filter Text.truthy with
  | none => decide
  | some s =>
      obtain ⟨hs, htruthy⟩ := Option.filter_eq_some_iff.mp h
      obtain ⟨t, _, rfl⟩ := Option.map_eq_some_iff.mp hs
      simp [trim_trim, Option.filter, htruthy]

section
variable (fingerprint : String → String)

/-! ### Projects -/

def buildProjectStateRecordId (userId : String) (projectKey legacyPath : Option String) : String :=
  let discriminator := (projectKey.or legacyPath).getD "*"
  "project_state_" ++ fingerprint (userId ++ "::" ++ discriminator)

/-- `continuityTripleFingerprint`. -/
def tripleFingerprint (userId workspaceId projectKey : String) : String :=
  fingerprint (userId ++ "::" ++ workspaceId ++ "::" ++ projectKey)

def buildProjectContinuityStateRecordId (userId workspaceId projectKey : String) : String :=
  "project_continuity_state_" ++ tripleFingerprint fingerprint userId workspaceId projectKey

def buildProjectEnrollmentRecordId (userId workspaceId projectKey : String) : String :=
  "project_enrollment_" ++ tripleFingerprint fingerprint userId workspaceId projectKey

def buildContinuityBuildStateRecordId (userId workspaceId projectKey : String) : String :=
  "continuity_build_state_" ++ tripleFingerprint fingerprint userId workspaceId projectKey

def buildContinuityEvidenceRecordId (userId : String) (workspaceIdRaw : Option String)
    (projectKey sourceType sourceId : String) : String :=
  let workspaceId := canonicalizeWorkspaceId workspaceIdRaw
  "continuity_evidence_" ++ fingerprint (userId ++ "::" ++ workspaceId ++ "::" ++ projectKey ++ "::" ++
    sourceType ++ "::" ++ sourceId)

def buildContinuityGapRecordId (userId workspaceId projectKey dedupeKey : String) : String :=
  "continuity_gap_" ++ fingerprint (userId ++ "::" ++ workspaceId ++ "::" ++ projectKey ++ "::" ++
    dedupeKey)

/-! ### Sessions -/

/-- What the key of a session is made of. -/
structure ResolverInput where
  userId : String
  projectKey : Option String := none
  clientKind : Option String := none
  nativeSessionKey : Option String := none
  workspaceFingerprint : Option String := none
  hostId : Option String := none
  deriving DecidableEq

/-- `hasStableWorkspaceIdentity`. -/
def ResolverInput.stable (input : ResolverInput) : Bool :=
  input.projectKey.any Text.truthy || input.workspaceFingerprint.any Text.truthy ||
    input.hostId.any Text.truthy

def buildRunirSessionResolverKey (input : ResolverInput) : String :=
  fingerprint (Text.join "::" [input.userId, input.projectKey.getD "-", input.clientKind.getD "-",
    if input.stable then "-" else input.nativeSessionKey.getD "-",
    input.workspaceFingerprint.getD "-", input.hostId.getD "-"])

end

/-! ### Contexts -/

/-- `CanonicalContextRawFragments`, with the user. -/
structure CanonicalContext where
  userId : String
  sessionId : Option String := none
  path : Option String := none
  projectId : Option String := none
  gitRemoteUrl : Option String := none
  gitRepoRoot : Option String := none
  agentId : Option String := none
  deriving DecidableEq

inductive ContextScopeKind where
  | session | project | agent
  deriving DecidableEq

/-- `deriveContextScopeKind`.  The fragments are normalized: none of them is empty. -/
def CanonicalContext.contextScopeKind (raw : CanonicalContext) : ContextScopeKind :=
  if raw.sessionId.isSome then .session
  else if raw.projectId.isSome || raw.gitRemoteUrl.isSome || raw.gitRepoRoot.isSome ||
      raw.path.isSome then .project
  else .agent

/-- `scopeKey` of `buildHexisContextRef`. -/
def CanonicalContext.hexisScopeKey (identity : CanonicalContext) : String :=
  match identity.contextScopeKind with
  | .session => identity.userId ++ "::session::" ++ identity.sessionId.getD "default"
  | .project => identity.userId ++ "::project::" ++
      ((identity.projectId.or identity.gitRemoteUrl).or identity.path).getD "default"
  | .agent => identity.userId ++ "::agent::" ++ identity.agentId.getD identity.userId

end Runir
