import Runir.Domain.Identity
import Runir.Lib.Joined

/-!
# Domain — Keys apart

When the record ids and scope keys of two identities are the same, for a fingerprint that tells
all texts apart.

* `Apart`: the parts of the two keys do not slide over the separator, and no part of the one is
  only the placeholder of the other.
* `SessionIdentity`, `WorkspaceIdentity`, `ProjectStateIdentity`, `HexisIdentity`: what each key
  stands for, and the parts it is joined from.
* `keys_apart_iff`: distinct identities have distinct keys exactly where they are apart.
-/

namespace Runir
open Runir.Joined

/-! ### Joined keys -/

def partChars (parts : List String) : List (List Char) := parts.map String.toList

theorem toList_join (parts : List String) :
    (Text.join "::" parts).toList = [':', ':'].intercalate (partChars parts) := by
  induction parts using Text.join.induct with
  | case1 => rfl
  | case2 s => exact (List.intercalate_singleton).symm
  | case3 s ss hne ih =>
      obtain ⟨s', ss, rfl⟩ := List.exists_cons_of_ne_nil hne
      rw [Text.join, String.toList_append, String.toList_append, ih]
      · exact List.intercalate_cons_cons.symm
      · exact hne

theorem join_eq_iff {parts parts' : List String} (hlength : parts.length = parts'.length) :
    Text.join "::" parts = Text.join "::" parts' ↔
      parts = parts' ∨ Slides ':' (partChars parts) (partChars parts') := by
  have hchars : partChars parts = partChars parts' ↔ parts = parts' :=
    (List.map_injective_iff.mpr fun _ _ => String.toList_injective).eq_iff
  rw [← String.toList_inj, toList_join, toList_join,
    intercalate_eq_iff (by rw [partChars, partChars, List.length_map, List.length_map, hlength]),
    hchars]

section
variable {ι : Type}

/-- Two identities whose parts do not slide, and which are the same when their parts are `alike`. -/
structure Apart (parts : ι → List String) (alike : ι → ι → Prop) (a b : ι) : Prop where
  fixed : ¬ Slides ':' (partChars (parts a)) (partChars (parts b))
  told : alike a b → a = b

/-- Distinct identities have distinct keys exactly where they are apart. -/
theorem apart_iff {parts : ι → List String} {alike : ι → ι → Prop} {key : String → String} {a b : ι}
    (hkey : Function.Injective key) (hlength : (parts a).length = (parts b).length)
    (halike : alike a b ↔ parts a = parts b) :
    (a ≠ b → key (Text.join "::" (parts a)) ≠ key (Text.join "::" (parts b))) ↔
      Apart parts alike a b := by
  rw [hkey.ne_iff, Ne, Ne, join_eq_iff hlength, ← halike]
  constructor
  · intro hdistinct
    have hsame : alike a b ∨ _ → a = b := fun h => by_contra fun hne => hdistinct hne h
    refine ⟨fun hslides => ?_, fun h => hsame (.inl h)⟩
    obtain rfl := hsame (.inr hslides)
    exact slides_irrefl hslides
  · rintro hapart hne (h | h)
    · exact hne (hapart.told h)
    · exact hapart.fixed h

end

/-- The same value, or a value that is the placeholder against none. -/
def AlikeBut (placeholder : String) (x y : Option String) : Prop :=
  x = y ∨ (x = none ∧ y = some placeholder) ∨ (x = some placeholder ∧ y = none)

theorem alikeBut_iff {placeholder : String} {x y : Option String} :
    AlikeBut placeholder x y ↔ x.getD placeholder = y.getD placeholder := by
  unfold AlikeBut
  cases x <;> cases y <;> simp [eq_comm]

/-! ### Sessions -/

/-- What a session is known by; one with a stable workspace identity is not told by its native
key. -/
structure SessionIdentity where
  userId : String
  projectKey : Option String
  clientKind : Option String
  nativeSessionKey : Option String
  workspaceFingerprint : Option String
  hostId : Option String
  deriving DecidableEq

def ResolverInput.identity (input : ResolverInput) : SessionIdentity where
  userId := input.userId
  projectKey := input.projectKey
  clientKind := input.clientKind
  nativeSessionKey := if input.stable then none else input.nativeSessionKey
  workspaceFingerprint := input.workspaceFingerprint
  hostId := input.hostId

namespace SessionIdentity

def parts (s : SessionIdentity) : List String :=
  [s.userId, s.projectKey.getD "-", s.clientKind.getD "-", s.nativeSessionKey.getD "-",
    s.workspaceFingerprint.getD "-", s.hostId.getD "-"]

def alike (s s' : SessionIdentity) : Prop :=
  s.userId = s'.userId ∧ AlikeBut "-" s.projectKey s'.projectKey ∧
    AlikeBut "-" s.clientKind s'.clientKind ∧
    AlikeBut "-" s.nativeSessionKey s'.nativeSessionKey ∧
    AlikeBut "-" s.workspaceFingerprint s'.workspaceFingerprint ∧ AlikeBut "-" s.hostId s'.hostId

theorem alike_iff (s s' : SessionIdentity) : alike s s' ↔ parts s = parts s' := by
  simp only [alike, alikeBut_iff, parts, List.cons.injEq, and_true]

end SessionIdentity

/-! ### Workspaces -/

/-- A user, a workspace (the one `canonicalizeWorkspaceId` finds, before its placeholder), and what
is told apart in it. -/
structure WorkspaceIdentity where
  userId : String
  workspace : Option String
  fields : List String
  deriving DecidableEq

namespace WorkspaceIdentity

def parts (w : WorkspaceIdentity) : List String := w.userId :: w.workspace.getD "-" :: w.fields

def alike (w w' : WorkspaceIdentity) : Prop :=
  w.userId = w'.userId ∧ AlikeBut "-" w.workspace w'.workspace ∧ w.fields = w'.fields

theorem alike_iff (w w' : WorkspaceIdentity) : alike w w' ↔ parts w = parts w' := by
  simp only [alike, alikeBut_iff, parts, List.cons.injEq]

end WorkspaceIdentity

structure ProjectInput where
  userId : String
  workspaceId : Option String
  projectKey : String

def ProjectInput.identity (p : ProjectInput) : WorkspaceIdentity :=
  ⟨p.userId, normalizeToken p.workspaceId, [p.projectKey]⟩

structure EvidenceInput extends ProjectInput where
  sourceType : String
  sourceId : String

def EvidenceInput.identity (e : EvidenceInput) : WorkspaceIdentity :=
  ⟨e.userId, normalizeToken e.workspaceId, [e.projectKey, e.sourceType, e.sourceId]⟩

structure GapInput extends ProjectInput where
  dedupeKey : String

def GapInput.identity (g : GapInput) : WorkspaceIdentity :=
  ⟨g.userId, normalizeToken g.workspaceId, [g.projectKey, g.dedupeKey]⟩

/-! ### Project states -/

inductive ProjectDiscriminator where
  | key (projectKey : String)
  | path (legacyPath : String)
  | all
  deriving DecidableEq

def ProjectDiscriminator.text : ProjectDiscriminator → String
  | .key projectKey => projectKey
  | .path legacyPath => legacyPath
  | .all => "*"

structure ProjectStateIdentity where
  userId : String
  discriminator : ProjectDiscriminator
  deriving DecidableEq

namespace ProjectStateIdentity

/-- The project key, or else the path. -/
def of (userId : String) (projectKey legacyPath : Option String) : ProjectStateIdentity :=
  ⟨userId,
    match projectKey, legacyPath with
    | some projectKey, _ => .key projectKey
    | none, some legacyPath => .path legacyPath
    | none, none => .all⟩

def parts (p : ProjectStateIdentity) : List String := [p.userId, p.discriminator.text]

def alike (p p' : ProjectStateIdentity) : Prop :=
  p.userId = p'.userId ∧ p.discriminator.text = p'.discriminator.text

theorem alike_iff (p p' : ProjectStateIdentity) : alike p p' ↔ parts p = parts p' := by
  simp only [alike, parts, List.cons.injEq, and_true]

end ProjectStateIdentity

/-! ### Contexts -/

/-- What tells a context from the others of its user: the sources of `deriveContextScopeKind`. -/
inductive HexisScope where
  | session (sessionId : String)
  | projectId (projectId : String)
  | gitRemote (gitRemoteUrl : String)
  | gitRoot (gitRepoRoot : String) (path : Option String)
  | path (path : String)
  | agent (agentId : Option String)
  deriving DecidableEq

structure HexisIdentity where
  userId : String
  scope : HexisScope
  deriving DecidableEq

def CanonicalContext.hexisIdentity (raw : CanonicalContext) : HexisIdentity where
  userId := raw.userId
  scope :=
    match raw.sessionId, raw.projectId, raw.gitRemoteUrl, raw.gitRepoRoot, raw.path with
    | some sessionId, _, _, _, _ => .session sessionId
    | none, some projectId, _, _, _ => .projectId projectId
    | none, none, some gitRemoteUrl, _, _ => .gitRemote gitRemoteUrl
    | none, none, none, some gitRepoRoot, path => .gitRoot gitRepoRoot path
    | none, none, none, none, some path => .path path
    | none, none, none, none, none => .agent raw.agentId

namespace HexisIdentity

def kind (h : HexisIdentity) : String :=
  match h.scope with
  | .session _ => "session"
  | .projectId _ => "project"
  | .gitRemote _ => "project"
  | .gitRoot _ _ => "project"
  | .path _ => "project"
  | .agent _ => "agent"

/-- The id, or what stands for it. -/
def scopeId (h : HexisIdentity) : String :=
  match h.scope with
  | .session sessionId => sessionId
  | .projectId projectId => projectId
  | .gitRemote gitRemoteUrl => gitRemoteUrl
  | .gitRoot _ path => path.getD "default"
  | .path path => path
  | .agent agentId => agentId.getD h.userId

def parts (h : HexisIdentity) : List String := [h.userId, h.kind, h.scopeId]

def alike (h h' : HexisIdentity) : Prop :=
  h.userId = h'.userId ∧ h.kind = h'.kind ∧ h.scopeId = h'.scopeId

theorem alike_iff (h h' : HexisIdentity) : alike h h' ↔ parts h = parts h' := by
  simp only [alike, parts, List.cons.injEq, and_true]

end HexisIdentity

/-! ### The keys -/

section
variable (fingerprint : String → String)

theorem buildRunirSessionResolverKey_eq (input : ResolverInput) :
    buildRunirSessionResolverKey fingerprint input =
      fingerprint (Text.join "::" input.identity.parts) := by
  unfold buildRunirSessionResolverKey ResolverInput.identity SessionIdentity.parts
  cases input.stable <;> rfl

theorem tripleFingerprint_eq (p : ProjectInput) :
    tripleFingerprint fingerprint p.userId (canonicalizeWorkspaceId p.workspaceId) p.projectKey =
      fingerprint (Text.join "::" p.identity.parts) := by
  simp only [tripleFingerprint, canonicalizeWorkspaceId, ProjectInput.identity, normalizeToken,
    WorkspaceIdentity.parts, Text.join, String.append_assoc]

theorem buildContinuityEvidenceRecordId_eq (e : EvidenceInput) :
    buildContinuityEvidenceRecordId fingerprint e.userId e.workspaceId e.projectKey e.sourceType
        e.sourceId =
      "continuity_evidence_" ++ fingerprint (Text.join "::" e.identity.parts) := by
  change "continuity_evidence_" ++ fingerprint _ = _ ++ fingerprint
    (e.userId ++ "::" ++ (canonicalizeWorkspaceId e.workspaceId ++ "::" ++
      (e.projectKey ++ "::" ++ (e.sourceType ++ "::" ++ e.sourceId))))
  simp only [String.append_assoc]

theorem buildContinuityGapRecordId_eq (g : GapInput) :
    buildContinuityGapRecordId fingerprint g.userId (canonicalizeWorkspaceId g.workspaceId)
        g.projectKey g.dedupeKey =
      "continuity_gap_" ++ fingerprint (Text.join "::" g.identity.parts) := by
  simp only [buildContinuityGapRecordId, canonicalizeWorkspaceId, GapInput.identity, normalizeToken,
    WorkspaceIdentity.parts, Text.join, String.append_assoc]

theorem buildProjectStateRecordId_eq (userId : String) (projectKey legacyPath : Option String) :
    buildProjectStateRecordId fingerprint userId projectKey legacyPath =
      "project_state_" ++ fingerprint
        (Text.join "::" (ProjectStateIdentity.of userId projectKey legacyPath).parts) := by
  cases projectKey <;> cases legacyPath <;> rfl

theorem hexisScopeKey_eq (raw : CanonicalContext) :
    raw.hexisScopeKey = Text.join "::" raw.hexisIdentity.parts := by
  have hjoin : ∀ userId kind scopeId : String,
      Text.join "::" [userId, kind, scopeId] = userId ++ ("::" ++ kind ++ "::") ++ scopeId := by
    intro userId kind scopeId
    simp only [Text.join, String.append_assoc]
  rw [HexisIdentity.parts, hjoin]
  obtain ⟨userId, sessionId, path, projectId, gitRemoteUrl, gitRepoRoot, agentId⟩ := raw
  cases sessionId <;> cases projectId <;> cases gitRemoteUrl <;> cases gitRepoRoot <;>
    cases path <;> rfl

end

/-! ### Collisions -/

/-- **Distinct identities have distinct keys** exactly where they are apart, whatever the kind of
the key. -/
theorem keys_apart_iff (fingerprint : String → String) (hfingerprint : Function.Injective fingerprint) :
    (∀ a b : ResolverInput,
      (a.identity ≠ b.identity →
        buildRunirSessionResolverKey fingerprint a ≠ buildRunirSessionResolverKey fingerprint b) ↔
      Apart SessionIdentity.parts SessionIdentity.alike a.identity b.identity) ∧
    (∀ recordId ∈ [buildProjectContinuityStateRecordId fingerprint,
        buildProjectEnrollmentRecordId fingerprint, buildContinuityBuildStateRecordId fingerprint],
      ∀ a b : ProjectInput,
        (a.identity ≠ b.identity →
          recordId a.userId (canonicalizeWorkspaceId a.workspaceId) a.projectKey ≠
            recordId b.userId (canonicalizeWorkspaceId b.workspaceId) b.projectKey) ↔
        Apart WorkspaceIdentity.parts WorkspaceIdentity.alike a.identity b.identity) ∧
    (∀ a b : EvidenceInput,
      (a.identity ≠ b.identity →
        buildContinuityEvidenceRecordId fingerprint a.userId a.workspaceId a.projectKey a.sourceType
            a.sourceId ≠
          buildContinuityEvidenceRecordId fingerprint b.userId b.workspaceId b.projectKey b.sourceType
            b.sourceId) ↔
      Apart WorkspaceIdentity.parts WorkspaceIdentity.alike a.identity b.identity) ∧
    (∀ a b : GapInput,
      (a.identity ≠ b.identity →
        buildContinuityGapRecordId fingerprint a.userId (canonicalizeWorkspaceId a.workspaceId)
            a.projectKey a.dedupeKey ≠
          buildContinuityGapRecordId fingerprint b.userId (canonicalizeWorkspaceId b.workspaceId)
            b.projectKey b.dedupeKey) ↔
      Apart WorkspaceIdentity.parts WorkspaceIdentity.alike a.identity b.identity) ∧
    (∀ (userId userId' : String) (projectKey projectKey' legacyPath legacyPath' : Option String),
      (ProjectStateIdentity.of userId projectKey legacyPath ≠
          ProjectStateIdentity.of userId' projectKey' legacyPath' →
        buildProjectStateRecordId fingerprint userId projectKey legacyPath ≠
          buildProjectStateRecordId fingerprint userId' projectKey' legacyPath') ↔
      Apart ProjectStateIdentity.parts ProjectStateIdentity.alike
        (ProjectStateIdentity.of userId projectKey legacyPath)
        (ProjectStateIdentity.of userId' projectKey' legacyPath')) ∧
    ∀ a b : CanonicalContext,
      (a.hexisIdentity ≠ b.hexisIdentity → a.hexisScopeKey ≠ b.hexisScopeKey) ↔
      Apart HexisIdentity.parts HexisIdentity.alike a.hexisIdentity b.hexisIdentity := by
  have hpre : ∀ p : String, Function.Injective fun v => p ++ fingerprint v := fun p x y h =>
    hfingerprint ((String.append_right_inj p).mp h)
  have htriple : ∀ (p : String) (a b : ProjectInput),
      (a.identity ≠ b.identity →
        p ++ tripleFingerprint fingerprint a.userId (canonicalizeWorkspaceId a.workspaceId)
            a.projectKey ≠
          p ++ tripleFingerprint fingerprint b.userId (canonicalizeWorkspaceId b.workspaceId)
            b.projectKey) ↔
      Apart WorkspaceIdentity.parts WorkspaceIdentity.alike a.identity b.identity := by
    intro p a b
    rw [tripleFingerprint_eq, tripleFingerprint_eq]
    exact apart_iff (hpre p) rfl (WorkspaceIdentity.alike_iff _ _)
  refine ⟨fun a b => ?_, fun recordId hmem => ?_, fun a b => ?_, fun a b => ?_, fun _ _ _ _ _ _ => ?_,
    fun a b => ?_⟩
  · rw [buildRunirSessionResolverKey_eq, buildRunirSessionResolverKey_eq]
    exact apart_iff hfingerprint rfl (SessionIdentity.alike_iff _ _)
  · simp only [List.mem_cons, List.not_mem_nil, or_false] at hmem
    rcases hmem with rfl | rfl | rfl
    · exact htriple "project_continuity_state_"
    · exact htriple "project_enrollment_"
    · exact htriple "continuity_build_state_"
  · rw [buildContinuityEvidenceRecordId_eq, buildContinuityEvidenceRecordId_eq]
    exact apart_iff (hpre _) rfl (WorkspaceIdentity.alike_iff _ _)
  · rw [buildContinuityGapRecordId_eq, buildContinuityGapRecordId_eq]
    exact apart_iff (hpre _) rfl (WorkspaceIdentity.alike_iff _ _)
  · rw [buildProjectStateRecordId_eq, buildProjectStateRecordId_eq]
    exact apart_iff (hpre _) rfl (ProjectStateIdentity.alike_iff _ _)
  · rw [hexisScopeKey_eq, hexisScopeKey_eq]
    exact apart_iff Function.injective_id rfl (HexisIdentity.alike_iff _ _)

theorem keys_apart_users :
    buildProjectStateRecordId (fun v => v) "ann" (some "k") none ≠
      buildProjectStateRecordId (fun v => v) "bob" (some "k") none :=
  ((keys_apart_iff (fun v => v) Function.injective_id).2.2.2.2.1 "ann" "bob" (some "k") (some "k")
    none none).mpr
    ⟨by simp [Slides, Overruns, partChars, ProjectStateIdentity.parts, ProjectStateIdentity.of],
      by simp [ProjectStateIdentity.alike, ProjectStateIdentity.of]⟩
    (by decide)

/-- A user id that holds the separator, and another user with a workspace id that does. -/
theorem keys_slide :
    ∃ a b : ProjectInput, a.userId ≠ b.userId ∧
      buildProjectContinuityStateRecordId (fun v => v) a.userId
          (canonicalizeWorkspaceId a.workspaceId) a.projectKey =
        buildProjectContinuityStateRecordId (fun v => v) b.userId
          (canonicalizeWorkspaceId b.workspaceId) b.projectKey :=
  ⟨⟨"ann", some "x::y", "k"⟩, ⟨"ann::x", some "y", "k"⟩, by decide, by decide +kernel⟩

end Runir
