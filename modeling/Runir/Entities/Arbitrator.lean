import Runir.Entities.Rows
import Runir.Recall.EntityMentions

/-!
# Entities — Arbitrator

`arbitrateEntity` of `src/entities/entity-arbitrator.ts`: which row of the table a mention is taken
for, and what is upserted for it.

* `findExisting`: the row of the same name, of an alias, or of the session; its three lookups in
  order.
* `arbitration`: what is returned and what is upserted, before the upsert is performed.
* `arbitrateEntity_faithful_iff`: the id returned is the id written, and every name keeps its row,
  exactly where no surer mention renames a canonical to another id and a new stub takes no other
  entity's id.
-/

namespace Runir
open Recall (EntityHost normalizeEntityName)

/-- `EntityMention`; its confidence is a number. -/
structure EntityMention where
  name : String
  kind : EntityKind
  confidence : ℚ
  description : Option String := none
  subtype : Option String := none
  handles : Option (List String) := none
  orgType : Option String := none
  aliases : Option (List String) := none

inductive EntityArbitrationOutcome where
  | create | update | merge
  deriving DecidableEq

structure EntityArbitrationResult where
  outcome : EntityArbitrationOutcome
  entityId : String
  reason : String
  deriving DecidableEq

/-- `findEntityByAlias`, with the ids of the rows. -/
def findEntityByAlias (aliasNorm userId : String) (scope : MemoryScope) (table : EntityTable) :
    List (String × EntityRow) :=
  table.entries.filter fun e =>
    (e.2.aliasesNorm.getD []).contains aliasNorm && e.2.scope = scope && e.2.userId = userId

/-- The columns of `idx_entities_userId_nameNorm_kind_scope_session`. -/
def EntityRecord.uniqueColumns (entity : EntityRecord) :
    String × String × EntityKind × MemoryScope × Option String :=
  (entity.userId, entity.nameNorm, entity.kind, entity.scope, entity.sessionId)

/-- The unique index refuses the upsert: another row has the columns. -/
def isRefused (entity : EntityRecord) (table : EntityTable) : Bool :=
  table.entries.any fun e =>
    decide (e.1 ≠ entity.recordId) && decide (e.2.uniqueColumns = entity.uniqueColumns)

/-- What a mention is taken for. -/
inductive ExistingEntity where
  | canonical (id : String) (row : EntityRow)
  | aliased (id : String) (row : EntityRow)
  | stub (id : String) (row : EntityRow)
  | absent

section
variable (host : EntityHost)

/-- `mention.aliases`, normalised. -/
def EntityMention.aliasesNorm (mention : EntityMention) : List String :=
  (mention.aliases.getD []).map (normalizeEntityName host)

/-- The lookups of steps 2 to 4. -/
def findExisting (table : EntityTable) (mention : EntityMention) (userId : String)
    (sessionId : Option String) : ExistingEntity :=
  let nameNorm := normalizeEntityName host mention.name
  match (findEntityByName nameNorm mention.kind userId .user table).head? with
  | some (id, row) => .canonical id row
  | none =>
      match ((findEntityByAlias nameNorm userId .user table).filter fun e =>
          e.2.kind = mention.kind).head? with
      | some (id, row) => .aliased id row
      | none =>
          match sessionId.bind fun session =>
              (findEntityByName nameNorm mention.kind userId .session table).find? fun e =>
                e.2.sessionId = some session with
          | some (id, row) => .stub id row
          | none => .absent

/-- What step 2 upserts. -/
def updatedCanonical (mention : EntityMention) (seenAt : String) (existing : EntityRow) :
    EntityRecord :=
  let isOtherSpelling := mention.name ≠ existing.canonicalName
  { existing.toEntityRecord with
    lastSeenAt := seenAt
    confidence := max existing.confidence mention.confidence
    aliases := some (distinct (existing.aliases.getD [] ++ mention.aliases.getD [] ++
      if isOtherSpelling then [mention.name] else []))
    aliasesNorm := some (distinct (existing.aliasesNorm.getD [] ++ mention.aliasesNorm host ++
      if isOtherSpelling then [normalizeEntityName host mention.name] else []))
    handles := mention.handles.or existing.handles
    orgType := mention.orgType.or existing.orgType
    subtype := mention.subtype.or existing.subtype
    description := mention.description.or existing.description }

/-- The canonical takes the name of a surer mention. -/
def isRenamed (mention : EntityMention) (existing : EntityRow) : Prop :=
  existing.confidence < mention.confidence

instance (mention : EntityMention) (existing : EntityRow) :
    Decidable (isRenamed mention existing) :=
  inferInstanceAs (Decidable (_ < _))

/-- What step 3 upserts. -/
def mergedCanonical (mention : EntityMention) (seenAt : String) (existing : EntityRow) :
    EntityRecord :=
  let nameNorm := normalizeEntityName host mention.name
  let renamed := isRenamed mention existing
  { existing.toEntityRecord with
    canonicalName := if renamed then mention.name else existing.canonicalName
    nameNorm := if renamed then nameNorm else existing.nameNorm
    lastSeenAt := seenAt
    confidence := max existing.confidence mention.confidence
    aliases := some (distinct (existing.aliases.getD [] ++ mention.aliases.getD [] ++
      (if renamed then [existing.canonicalName] else []) ++ [mention.name]))
    aliasesNorm := some (distinct (existing.aliasesNorm.getD [] ++ mention.aliasesNorm host ++
      (if renamed then [existing.nameNorm] else []) ++ [nameNorm]))
    description := mention.description.or existing.description }

/-- What step 4 upserts. -/
def updatedStub (mention : EntityMention) (seenAt : String) (stub : EntityRow) : EntityRecord :=
  { stub.toEntityRecord with
    lastSeenAt := seenAt
    confidence := max stub.confidence mention.confidence
    aliases := some (distinct (stub.aliases.getD [] ++ mention.aliases.getD []))
    aliasesNorm := some (distinct (stub.aliasesNorm.getD [] ++ mention.aliasesNorm host))
    description := mention.description.or stub.description }

/-- What step 5 upserts. -/
def newStub (mention : EntityMention) (userId : String) (sessionId : Option String)
    (sourceProject seenAt : String) : EntityRecord where
  kind := mention.kind
  canonicalName := mention.name
  nameNorm := normalizeEntityName host mention.name
  aliases := some (mention.aliases.getD [])
  aliasesNorm := some (mention.aliasesNorm host)
  description := mention.description
  confidence := mention.confidence
  sourceProject := sourceProject
  firstSeenAt := seenAt
  lastSeenAt := seenAt
  scope := .session
  sessionId := sessionId
  userId := userId
  handles := mention.handles
  orgType := mention.orgType
  subtype := mention.subtype

/-- What `arbitrateEntity` returns, and what it upserts. -/
def arbitration (table : EntityTable) (mention : EntityMention) (userId : String)
    (sessionId : Option String) (sourceProject seenAt : String) :
    EntityArbitrationResult × EntityRecord :=
  match findExisting host table mention userId sessionId with
  | .canonical id existing =>
      (⟨.update, id, "user canonical name match"⟩, updatedCanonical host mention seenAt existing)
  | .aliased id existing =>
      (⟨.merge, id, "user canonical alias match"⟩, mergedCanonical host mention seenAt existing)
  | .stub id stub => (⟨.update, id, "session stub name match"⟩, updatedStub host mention seenAt stub)
  | .absent =>
      let entity := newStub host mention userId sessionId sourceProject seenAt
      (⟨.create, entity.recordId, "new session stub created"⟩, entity)

/-- The result and the table after the upsert, unless the index refuses it. -/
def arbitrateEntity (table : EntityTable) (mention : EntityMention) (userId : String)
    (sessionId : Option String) (sourceProject seenAt now : String) :
    Option (EntityArbitrationResult × EntityTable) :=
  let (result, entity) := arbitration host table mention userId sessionId sourceProject seenAt
  if isRefused entity table then none else some (result, upsertEntity now entity table)

end

/-! ### What is written -/

/-- A name the row is found by, by name with this kind or by alias. -/
def EntityRow.Named (row : EntityRow) (name : String) (kind : EntityKind) : Prop :=
  (row.nameNorm = name ∧ row.kind = kind) ∨ name ∈ row.aliasesNorm.getD []

/-- `findEntityByName` or `findEntityByAlias` finds the row `id`. -/
def FindsRow (table : EntityTable) (name : String) (kind : EntityKind) (userId : String)
    (scope : MemoryScope) (id : String) : Prop :=
  id ∈ (findEntityByName name kind userId scope table).map Prod.fst ∨
    id ∈ (findEntityByAlias name userId scope table).map Prod.fst

variable {table : EntityTable} {kind : EntityKind} {userId : String} {scope : MemoryScope}

theorem findsRow_iff {name : String} {id : String} :
    FindsRow table name kind userId scope id ↔
      ∃ row, table.get? id = some row ∧ row.userId = userId ∧ row.scope = scope ∧
        row.Named name kind := by
  simp only [FindsRow, findEntityByName, findEntityByAlias, EntityRow.Named, List.mem_map,
    List.mem_filter, Prod.exists, exists_and_right, exists_eq_right, OrdMap.get?_eq_some,
    Bool.and_eq_true, decide_eq_true_eq, List.contains_iff_mem]
  constructor
  · rintro (⟨row, hm, ⟨⟨hname, hscope⟩, hkind⟩, huser⟩ | ⟨row, hm, ⟨halias, hscope⟩, huser⟩)
    · exact ⟨row, hm, huser, hscope, Or.inl ⟨hname, hkind⟩⟩
    · exact ⟨row, hm, huser, hscope, Or.inr halias⟩
  · rintro ⟨row, hm, huser, hscope, ⟨hname, hkind⟩ | halias⟩
    · exact Or.inl ⟨row, hm, ⟨⟨hname, hscope⟩, hkind⟩, huser⟩
    · exact Or.inr ⟨row, hm, ⟨halias, hscope⟩, huser⟩

theorem get?_upsertEntity (now : String) (entity : EntityRecord) (table : EntityTable)
    (id : String) :
    (upsertEntity now entity table).get? id =
      if id = entity.recordId then some (upsertRow now entity (table.get? entity.recordId))
      else table.get? id :=
  OrdMap.get?_set ..

variable {entity : EntityRecord}

/-- The row written has the name upserted, and the aliases of both. -/
theorem named_upsertRow {now : String} {old : Option EntityRow} {name : String} :
    (upsertRow now entity old).Named name kind ↔
      (entity.nameNorm = name ∧ entity.kind = kind) ∨
        name ∈ (old.bind (·.aliasesNorm)).getD [] ∨ name ∈ entity.aliasesNorm.getD [] := by
  unfold EntityRow.Named upsertRow arrayUnion
  simp only [Option.getD_some, mem_distinct, List.mem_append]

/-- What an arbitration promises of the table it leaves. -/
structure Faithful (table table' : EntityTable) (nameNorm : String) (kind : EntityKind)
    (userId : String) (result : EntityArbitrationResult) (entity : EntityRecord) : Prop where
  writes_returned : result.entityId = entity.recordId
  updates : result.outcome ≠ .create → (table.get? result.entityId).isSome ∧
    ∀ id ≠ result.entityId, table'.get? id = table.get? id
  adds : ∀ id, table.get? id = none → (table'.get? id).isSome →
    result.outcome = .create ∧ id = result.entityId
  creates_stub : result.outcome = .create →
    (table'.get? result.entityId).map (fun row : EntityRow => row.scope) = some .session
  resolves : ∃ row, table'.get? result.entityId = some row ∧
    FindsRow table' nameNorm kind userId row.scope result.entityId ∧
      ∀ name kind' user scope, FindsRow table name kind' user scope result.entityId →
        FindsRow table' name kind' user row.scope result.entityId

variable {result : EntityArbitrationResult}

/-- An upsert of the row's own id that keeps its user and its name. -/
theorem Faithful.of_rewrite {now : String} {nameNorm : String}
    {row : EntityRow} (hcreate : result.outcome ≠ .create)
    (hrow : table.get? result.entityId = some row) (hid : result.entityId = entity.recordId)
    (huser : entity.userId = userId) (hsame : row.userId = userId) (hkind : row.kind = entity.kind)
    (hkeeps : row.nameNorm = entity.nameNorm ∨ row.nameNorm ∈ entity.aliasesNorm.getD [])
    (hmention : (entity.nameNorm = nameNorm ∧ entity.kind = kind) ∨
      nameNorm ∈ entity.aliasesNorm.getD []) :
    Faithful table (upsertEntity now entity table) nameNorm kind userId result entity := by
  have hwritten : (upsertEntity now entity table).get? result.entityId =
      some (upsertRow now entity (some row)) := by
    rw [get?_upsertEntity, if_pos hid, ← hid, hrow]
  refine ⟨hid, fun _ => ⟨by rw [hrow]; rfl, fun id hne => ?_⟩, fun id hnone hsome => ?_,
    fun h => absurd h hcreate, _, hwritten, ?_, ?_⟩
  · rw [get?_upsertEntity, if_neg (hid ▸ hne)]
  · rw [get?_upsertEntity] at hsome
    split at hsome
    · rename_i h
      rw [h, ← hid, hrow] at hnone
      cases hnone
    · rw [hnone] at hsome
      cases hsome
  · refine findsRow_iff.mpr ⟨_, hwritten, huser, rfl, named_upsertRow.mpr ?_⟩
    exact hmention.imp_right Or.inr
  · intro name kind' user scope h
    obtain ⟨row', hrow', huser', -, hnamed⟩ := findsRow_iff.mp h
    obtain rfl := Option.some.inj (hrow.symm.trans hrow')
    refine findsRow_iff.mpr ⟨_, hwritten, ?_, rfl, named_upsertRow.mpr ?_⟩
    · exact huser.trans (hsame.symm.trans huser')
    · rcases hnamed with ⟨rfl, rfl⟩ | halias
      · exact hkeeps.imp (fun h => ⟨h.symm, hkind.symm⟩) Or.inr
      · exact Or.inr (Or.inl halias)

/-- An upsert of a stub under an id whose row, if there is one, keeps its user and its name. -/
theorem faithful_create_iff (now : String) (table : EntityTable) (reason : String)
    (hscope : entity.scope = .session) :
    Faithful table (upsertEntity now entity table) entity.nameNorm entity.kind entity.userId
        ⟨.create, entity.recordId, reason⟩ entity ↔
      ∀ row, table.get? entity.recordId = some row → row.userId = entity.userId ∧
        ((row.nameNorm = entity.nameNorm ∧ row.kind = entity.kind) ∨
          row.nameNorm ∈ row.aliasesNorm.getD [] ∨ row.nameNorm ∈ entity.aliasesNorm.getD []) := by
  have hwritten : (upsertEntity now entity table).get? entity.recordId =
      some (upsertRow now entity (table.get? entity.recordId)) := by
    rw [get?_upsertEntity, if_pos rfl]
  constructor
  · intro h row hrow
    obtain ⟨-, -, -, -, row', hrow', -, hkept⟩ := h
    obtain rfl := Option.some.inj (hwritten.symm.trans hrow')
    -- the row's own name found it
    have hnamed := hkept row.nameNorm row.kind row.userId row.scope
      (findsRow_iff.mpr ⟨row, hrow, rfl, rfl, Or.inl ⟨rfl, rfl⟩⟩)
    obtain ⟨row'', hrow'', huser, -, hnamed⟩ := findsRow_iff.mp hnamed
    obtain rfl := Option.some.inj (hwritten.symm.trans hrow'')
    refine ⟨huser.symm, ?_⟩
    rw [named_upsertRow, hrow] at hnamed
    exact hnamed.imp_left fun h => ⟨h.1.symm, h.2.symm⟩
  · intro h
    refine ⟨rfl, fun hne => absurd rfl hne, fun id hnone hsome => ⟨rfl, ?_⟩,
      fun _ => ?_, _, hwritten, ?_, ?_⟩
    · by_contra hne
      rw [get?_upsertEntity, if_neg hne, hnone] at hsome
      cases hsome
    · exact (congrArg (Option.map fun row : EntityRow => row.scope) hwritten).trans
        (congrArg some hscope)
    · exact findsRow_iff.mpr ⟨_, hwritten, rfl, rfl, Or.inl ⟨rfl, rfl⟩⟩
    · intro name kind' user scope hres
      obtain ⟨row, hrow, huser, -, hnamed⟩ := findsRow_iff.mp hres
      obtain ⟨hsame, hname⟩ := h row hrow
      refine findsRow_iff.mpr ⟨_, hwritten, hsame.symm.trans huser, rfl, named_upsertRow.mpr ?_⟩
      rw [show table.get? entity.recordId = some row from hrow]
      rcases hnamed with ⟨rfl, rfl⟩ | halias
      · exact hname.imp_left fun h => ⟨h.1.symm, h.2.symm⟩
      · exact Or.inr (Or.inl halias)

/-! ### What a mention is taken for -/

theorem mem_findEntityByName {e : String × EntityRow} {nameNorm : String} :
    e ∈ findEntityByName nameNorm kind userId scope table ↔
      table.get? e.1 = some e.2 ∧ e.2.nameNorm = nameNorm ∧ e.2.scope = scope ∧
        e.2.kind = kind ∧ e.2.userId = userId := by
  simp only [findEntityByName, List.mem_filter, Bool.and_eq_true, decide_eq_true_eq,
    OrdMap.get?_eq_some, and_assoc]

theorem mem_findEntityByAlias {e : String × EntityRow} {aliasNorm userId : String} :
    e ∈ findEntityByAlias aliasNorm userId scope table ↔
      table.get? e.1 = some e.2 ∧ aliasNorm ∈ e.2.aliasesNorm.getD [] ∧ e.2.scope = scope ∧
        e.2.userId = userId := by
  simp only [findEntityByAlias, List.mem_filter, Bool.and_eq_true, decide_eq_true_eq,
    OrdMap.get?_eq_some, List.contains_iff_mem, and_assoc]

/-- What the lookups say of the row they found. -/
def ExistingEntity.Found (table : EntityTable) (nameNorm : String) (kind : EntityKind)
    (userId : String) : ExistingEntity → Prop
  | .canonical id row | .stub id row =>
      table.get? id = some row ∧ row.userId = userId ∧ row.kind = kind ∧ row.nameNorm = nameNorm
  | .aliased id row =>
      table.get? id = some row ∧ row.userId = userId ∧ row.kind = kind ∧ row.scope = .user ∧
        findEntityByName nameNorm kind userId .user table = []
  | .absent => True

theorem found_findExisting (host : EntityHost) (table : EntityTable) (mention : EntityMention)
    (userId : String) (sessionId : Option String) :
    (findExisting host table mention userId sessionId).Found table
      (normalizeEntityName host mention.name) mention.kind userId := by
  unfold findExisting
  dsimp only
  split
  · rename_i id row h
    obtain ⟨hrow, hname, -, hkind, huser⟩ := mem_findEntityByName.mp (List.mem_of_head? h)
    exact ⟨hrow, huser, hkind, hname⟩
  · rename_i hnone
    split
    · rename_i id row h
      obtain ⟨hm, hkind⟩ := List.mem_filter.mp (List.mem_of_head? h)
      obtain ⟨hrow, -, hscope, huser⟩ := mem_findEntityByAlias.mp hm
      exact ⟨hrow, huser, of_decide_eq_true hkind, hscope, List.head?_eq_none_iff.mp hnone⟩
    · split
      · rename_i id row h
        obtain ⟨session, -, h⟩ := Option.bind_eq_some_iff.mp h
        obtain ⟨hrow, hname, -, hkind, huser⟩ :=
          mem_findEntityByName.mp (List.mem_of_find?_eq_some h)
        exact ⟨hrow, huser, hkind, hname⟩
      · trivial

theorem isRefused_iff :
    isRefused entity table = true ↔
      ∃ id row, table.get? id = some row ∧ id ≠ entity.recordId ∧
        row.uniqueColumns = entity.uniqueColumns := by
  simp only [isRefused, List.any_eq_true, Prod.exists, Bool.and_eq_true, decide_eq_true_eq,
    OrdMap.get?_eq_some]

/-- The index lets a row's own columns be upserted under its own id only. -/
theorem recordId_eq_of_accepted {id : String} {row : EntityRow} (hrow : table.get? id = some row)
    (hsame : row.uniqueColumns = entity.uniqueColumns) (h : ¬ isRefused entity table = true) :
    id = entity.recordId := by
  by_contra hne
  exact h (isRefused_iff.mpr ⟨id, row, hrow, hne, hsame⟩)

/-- No row has the columns that a lookup by name did not find. -/
theorem not_isRefused_of_findEntityByName
    (h : findEntityByName entity.nameNorm entity.kind entity.userId entity.scope table = []) :
    ¬ isRefused entity table = true := by
  intro hrefused
  obtain ⟨id, row, hrow, -, hsame⟩ := isRefused_iff.mp hrefused
  simp only [EntityRecord.uniqueColumns, Prod.mk.injEq] at hsame
  obtain ⟨huser, hname, hkind, hscope, -⟩ := hsame
  have hm : (id, row) ∈ findEntityByName entity.nameNorm entity.kind entity.userId entity.scope
      table := mem_findEntityByName.mpr ⟨hrow, hname, hscope, hkind, huser⟩
  rw [h] at hm
  cases hm

/-! ### The arbitration -/

section
variable (host : EntityHost) (table : EntityTable) (mention : EntityMention) (userId : String)
  (sessionId : Option String) (sourceProject seenAt now : String)

/-- The mention's row stays the mention's row: a canonical that takes the name of a surer mention
keeps its id, and a new stub goes under an id that is free or whose row has its user and its
name. -/
def KeepsIdentity : Prop :=
  match findExisting host table mention userId sessionId with
  | .canonical _ _ | .stub _ _ => True
  | .aliased id existing =>
      isRenamed mention existing →
        entityIdSlug (normalizeEntityName host mention.name) mention.kind userId .user
          existing.sessionId = id
  | .absent =>
      let stub := newStub host mention userId sessionId sourceProject seenAt
      isRefused stub table = true ∨
        ∀ row, table.get? stub.recordId = some row → row.userId = userId ∧
          ((row.nameNorm = stub.nameNorm ∧ row.kind = mention.kind) ∨
            row.nameNorm ∈ row.aliasesNorm.getD [] ∨ row.nameNorm ∈ mention.aliasesNorm host)

theorem arbitrateEntity_eq_some {table' : EntityTable} :
    arbitrateEntity host table mention userId sessionId sourceProject seenAt now =
        some (result, table') ↔
      ∃ entity, arbitration host table mention userId sessionId sourceProject seenAt =
          (result, entity) ∧
        ¬ isRefused entity table = true ∧ table' = upsertEntity now entity table := by
  unfold arbitrateEntity
  obtain ⟨result₀, entity₀⟩ :=
    arbitration host table mention userId sessionId sourceProject seenAt
  dsimp only
  split
  · rename_i hrefused
    constructor
    · intro h
      cases h
    · rintro ⟨entity, h, hno, -⟩
      obtain ⟨rfl, rfl⟩ := Prod.mk.inj h
      exact absurd hrefused hno
  · rename_i hno
    constructor
    · intro h
      obtain ⟨rfl, rfl⟩ := Prod.mk.inj (Option.some.inj h)
      exact ⟨entity₀, rfl, hno, rfl⟩
    · rintro ⟨entity, h, -, rfl⟩
      obtain ⟨rfl, rfl⟩ := Prod.mk.inj h
      rfl

variable {table mention userId sessionId} {existing : EntityRow} {id reason : String}

theorem faithful_updatedCanonical (hfound : (ExistingEntity.canonical id existing).Found table
      (normalizeEntityName host mention.name) mention.kind userId)
    (h : ¬ isRefused (updatedCanonical host mention seenAt existing) table = true) :
    Faithful table (upsertEntity now (updatedCanonical host mention seenAt existing) table)
      (normalizeEntityName host mention.name) mention.kind userId ⟨.update, id, reason⟩
      (updatedCanonical host mention seenAt existing) := by
  obtain ⟨hrow, huser, hkind, hname⟩ := hfound
  exact Faithful.of_rewrite (fun h => by cases h) hrow (recordId_eq_of_accepted hrow rfl h) huser
    huser rfl (Or.inl rfl) (Or.inl ⟨hname, hkind⟩)

theorem faithful_updatedStub {stub : EntityRow} (hfound : (ExistingEntity.stub id stub).Found table
      (normalizeEntityName host mention.name) mention.kind userId)
    (h : ¬ isRefused (updatedStub host mention seenAt stub) table = true) :
    Faithful table (upsertEntity now (updatedStub host mention seenAt stub) table)
      (normalizeEntityName host mention.name) mention.kind userId ⟨.update, id, reason⟩
      (updatedStub host mention seenAt stub) := by
  obtain ⟨hrow, huser, hkind, hname⟩ := hfound
  exact Faithful.of_rewrite (fun h => by cases h) hrow (recordId_eq_of_accepted hrow rfl h) huser
    huser rfl (Or.inl rfl) (Or.inl ⟨hname, hkind⟩)

/-- The record id of a renamed canonical is that of the mention's name. -/
theorem recordId_mergedCanonical (hrenamed : isRenamed mention existing) :
    (mergedCanonical host mention seenAt existing).recordId =
      entityIdSlug (normalizeEntityName host mention.name) existing.kind existing.userId
        existing.scope existing.sessionId := by
  have hname : (mergedCanonical host mention seenAt existing).nameNorm =
      normalizeEntityName host mention.name := if_pos hrenamed
  unfold EntityRecord.recordId
  rw [hname]
  rfl

/-- A merge is faithful once it is under the canonical's id. -/
theorem faithful_mergedCanonical (hfound : (ExistingEntity.aliased id existing).Found table
      (normalizeEntityName host mention.name) mention.kind userId)
    (hid : id = (mergedCanonical host mention seenAt existing).recordId) :
    Faithful table (upsertEntity now (mergedCanonical host mention seenAt existing) table)
      (normalizeEntityName host mention.name) mention.kind userId ⟨.merge, id, reason⟩
      (mergedCanonical host mention seenAt existing) := by
  obtain ⟨hrow, huser, hkind, -, -⟩ := hfound
  have hkept : existing.nameNorm = (mergedCanonical host mention seenAt existing).nameNorm ∨
      existing.nameNorm ∈ (mergedCanonical host mention seenAt existing).aliasesNorm.getD [] := by
    by_cases hrenamed : isRenamed mention existing
    · -- the name it had is an alias now
      refine Or.inr (mem_distinct.mpr ?_)
      simp [hrenamed]
    · exact Or.inl (if_neg hrenamed).symm
  have hmention : normalizeEntityName host mention.name ∈
      (mergedCanonical host mention seenAt existing).aliasesNorm.getD [] :=
    mem_distinct.mpr (by simp)
  exact Faithful.of_rewrite (fun h => by cases h) hrow hid huser huser rfl hkept (Or.inr hmention)

theorem faithful_merge_iff (reason : String) {id : String}
    (hfound : (ExistingEntity.aliased id existing).Found table
      (normalizeEntityName host mention.name) mention.kind userId) :
    (¬ isRefused (mergedCanonical host mention seenAt existing) table = true →
        Faithful table (upsertEntity now (mergedCanonical host mention seenAt existing) table)
          (normalizeEntityName host mention.name) mention.kind userId ⟨.merge, id, reason⟩
          (mergedCanonical host mention seenAt existing)) ↔
      (isRenamed mention existing →
        entityIdSlug (normalizeEntityName host mention.name) mention.kind userId .user
          existing.sessionId = id) := by
  have ⟨hrow, huser, hkind, hscope, hnone⟩ := hfound
  have hslug (hrenamed : isRenamed mention existing) :
      (mergedCanonical host mention seenAt existing).recordId =
        entityIdSlug (normalizeEntityName host mention.name) mention.kind userId .user
          existing.sessionId := by
    rw [recordId_mergedCanonical host seenAt hrenamed, hkind, huser, hscope]
  constructor
  · intro h hrenamed
    have hname : (mergedCanonical host mention seenAt existing).nameNorm =
        normalizeEntityName host mention.name := if_pos hrenamed
    -- no canonical has the mention's name, so the index lets it be written
    have hwritten := h (not_isRefused_of_findEntityByName (by
      rw [hname]
      exact huser ▸ hkind ▸ hscope ▸ hnone))
    exact (hslug hrenamed).symm.trans hwritten.writes_returned.symm
  · intro h haccepted
    refine faithful_mergedCanonical host seenAt now hfound ?_
    by_cases hrenamed : isRenamed mention existing
    · exact (h hrenamed).symm.trans (hslug hrenamed).symm
    · refine recordId_eq_of_accepted hrow ?_ haccepted
      have hname : (mergedCanonical host mention seenAt existing).nameNorm = existing.nameNorm :=
        if_neg hrenamed
      unfold EntityRecord.uniqueColumns
      rw [hname]
      rfl

variable (table mention userId sessionId)

/-- **An arbitration writes the row it names** exactly where that row keeps its identity. -/
theorem arbitrateEntity_faithful_iff :
    (∀ result table',
      arbitrateEntity host table mention userId sessionId sourceProject seenAt now =
          some (result, table') →
        Faithful table table' (normalizeEntityName host mention.name) mention.kind userId result
          (arbitration host table mention userId sessionId sourceProject seenAt).2) ↔
      KeepsIdentity host table mention userId sessionId sourceProject seenAt := by
  have hfound := found_findExisting host table mention userId sessionId
  simp only [arbitrateEntity_eq_some]
  unfold arbitration KeepsIdentity
  generalize findExisting host table mention userId sessionId = found at hfound
  cases found with
  | canonical id existing =>
      refine ⟨fun _ => trivial, fun _ => ?_⟩
      rintro result table' ⟨entity, h, haccepted, rfl⟩
      obtain ⟨rfl, rfl⟩ := Prod.mk.inj h
      exact faithful_updatedCanonical host seenAt now hfound haccepted
  | stub id existing =>
      refine ⟨fun _ => trivial, fun _ => ?_⟩
      rintro result table' ⟨entity, h, haccepted, rfl⟩
      obtain ⟨rfl, rfl⟩ := Prod.mk.inj h
      exact faithful_updatedStub host seenAt now hfound haccepted
  | aliased id existing =>
      refine Iff.trans ?_ (faithful_merge_iff host seenAt now "user canonical alias match" hfound)
      constructor
      · exact fun h haccepted => h _ _ ⟨_, rfl, haccepted, rfl⟩
      · rintro h result table' ⟨entity, he, haccepted, rfl⟩
        obtain ⟨rfl, rfl⟩ := Prod.mk.inj he
        exact h haccepted
  | absent =>
      dsimp only
      have hscope : (newStub host mention userId sessionId sourceProject seenAt).scope =
          .session := rfl
      have hcreate := faithful_create_iff now table "new session stub created" hscope
      constructor
      · intro h
        refine or_iff_not_imp_left.mpr fun haccepted => ?_
        exact hcreate.mp (h _ _ ⟨_, rfl, haccepted, rfl⟩)
      · rintro h result table' ⟨entity, he, haccepted, rfl⟩
        obtain ⟨rfl, rfl⟩ := Prod.mk.inj he
        exact hcreate.mpr (h.resolve_left haccepted)

end

/-! ### A surer alias -/

/-- The canonical of `Alice`, who is also called `Ali`. -/
def aliceCanonical : EntityTable :=
  OrdMap.empty.set alice.slug { aliceRow with aliases := some ["Ali"], aliasesNorm := some ["ali"] }

def aliMention : EntityMention where
  name := "Ali"
  kind := .person
  confidence := 9 / 10

/-- The mention of an alias that is surer than the canonical: what is returned is the canonical's
id, and what is written is a second row under the alias's. -/
theorem surer_alias_forks :
    ∃ result table', arbitrateEntity .ascii aliceCanonical aliMention "u1" (some "s1") "p" "2026"
        "2026" = some (result, table') ∧
      result.outcome = .merge ∧ result.entityId = "alice_person_u1" ∧
      table'.keys = ["alice_person_u1", "ali_person_u1"] ∧
      table'.get? "alice_person_u1" = aliceCanonical.get? "alice_person_u1" ∧
      ¬ Faithful aliceCanonical table' (normalizeEntityName .ascii aliMention.name) .person "u1"
        result (arbitration .ascii aliceCanonical aliMention "u1" (some "s1") "p" "2026").2 := by
  refine ⟨_, _, if_neg ?_, ?_, ?_, ?_, ?_, fun h => ?_⟩
  · decide +kernel
  · decide +kernel
  · decide +kernel
  · decide +kernel
  · decide +kernel
  · exact absurd h.writes_returned (by decide +kernel)

end Runir
