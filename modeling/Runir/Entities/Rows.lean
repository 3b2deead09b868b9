import Runir.Entities.Slug
import Runir.Lib.OrdMap

/-!
# Entities — Rows

`composeUpsertEntity` and `findEntityByName` of `src/entities/entity-store.ts` on the table of
entities, which is keyed by record id.

* `EntityRecord`: an entity without its id and the two timestamps of its row.
* `upsertRow`: what the statement makes of the row that is there, if there is one.
* `upsertEntity_keeps_iff`: an upsert leaves the row of another key exactly where the words of the
  two keys differ.
-/

namespace Runir

/-- `Omit<EntityRecord, "id" | "createdAt" | "updatedAt">`. -/
structure EntityRecord where
  kind : EntityKind
  canonicalName : String
  nameNorm : String
  aliases : Option (List String) := none
  aliasesNorm : Option (List String) := none
  description : Option String := none
  sourceProject : String
  firstSeenAt : String
  lastSeenAt : String
  confidence : ℚ
  scope : MemoryScope
  sessionId : Option String := none
  userId : String
  handles : Option (List String) := none
  titles : Option (List String) := none
  classification : Option Value := none
  orgType : Option String := none
  subtype : Option String := none
  locationType : Option String := none
  eventType : Option String := none
  startAt : Option String := none
  endAt : Option String := none
  deriving DecidableEq

/-- A row of the table. -/
structure EntityRow extends EntityRecord where
  createdAt : String
  updatedAt : String
  deriving DecidableEq

abbrev EntityTable := OrdMap String EntityRow

namespace EntityRecord

/-- The key of a canonical or of a stub; other rows have none. -/
def key? (entity : EntityRecord) : Option EntityKey :=
  match entity.scope, entity.sessionId with
  | .user, _ => some (.canonical entity.nameNorm entity.kind entity.userId)
  | .session, some sessionId => some (.stub entity.nameNorm entity.kind entity.userId sessionId)
  | _, _ => none

def recordId (entity : EntityRecord) : String :=
  entityIdSlug entity.nameNorm entity.kind entity.userId entity.scope entity.sessionId

theorem recordId_eq {entity : EntityRecord} {key : EntityKey} (h : entity.key? = some key) :
    entity.recordId = key.slug := by
  unfold key? at h
  unfold recordId
  split at h
  · rename_i hscope
    obtain rfl := Option.some.inj h
    rw [hscope]
    rfl
  · rename_i hscope hsession
    obtain rfl := Option.some.inj h
    rw [hscope, hsession]
    rfl
  · exact nomatch h

end EntityRecord

/-- `array::union(old ?? [], new ?? [])`. -/
def arrayUnion (old new : Option (List String)) : List String :=
  distinct (old.getD [] ++ new.getD [])

/-- The longer description, the stored one at a tie. -/
def longerDescription (old new : Option String) : Option String :=
  if (old.getD "").length < (new.getD "").length then new else old.or new

/-- What the statement of `composeUpsertEntity` makes of a row. -/
def upsertRow (now : String) (entity : EntityRecord) (old : Option EntityRow) : EntityRow :=
  { entity with
    aliases := some (arrayUnion (old.bind (·.aliases)) entity.aliases)
    aliasesNorm := some (arrayUnion (old.bind (·.aliasesNorm)) entity.aliasesNorm)
    description := longerDescription (old.bind (·.description)) entity.description
    firstSeenAt := (old.map (·.firstSeenAt)).getD entity.firstSeenAt
    confidence := (old.map fun row => max row.confidence entity.confidence).getD entity.confidence
    createdAt := (old.map (·.createdAt)).getD now
    updatedAt := now }

/-- The statement of `composeUpsertEntity`, where it is performed. -/
def upsertEntity (now : String) (entity : EntityRecord) (table : EntityTable) : EntityTable :=
  table.set entity.recordId (upsertRow now entity (table.get? entity.recordId))

/-- `findEntityByName`, with the ids of the rows. -/
def findEntityByName (nameNorm : String) (kind : EntityKind) (userId : String) (scope : MemoryScope)
    (table : EntityTable) : List (String × EntityRow) :=
  table.entries.filter fun e =>
    e.2.nameNorm = nameNorm && e.2.scope = scope && e.2.kind = kind && e.2.userId = userId

@[simp] theorem upsertRow_key? (now : String) (entity : EntityRecord) (old : Option EntityRow) :
    (upsertRow now entity old).key? = entity.key? := rfl

/-- **An upsert keeps another key's row** exactly where the words of the two keys differ.  The ids
of two keys are apart exactly then. -/
theorem upsertEntity_keeps_iff {k₁ k₂ : EntityKey} (hne : k₁ ≠ k₂) :
    (k₁.slug ≠ k₂.slug ↔ k₁.slugWords ≠ k₂.slugWords) ∧
      ∀ (now : String) (entity : EntityRecord) (table : EntityTable) (row : EntityRow),
        entity.key? = some k₂ → table.get? k₁.slug = some row → row.key? = some k₁ →
          ((upsertEntity now entity table).get? k₁.slug = some row ↔
            k₁.slugWords ≠ k₂.slugWords) := by
  have hslug : k₁.slug ≠ k₂.slug ↔ k₁.slugWords ≠ k₂.slugWords := not_congr (slug_eq_iff k₁ k₂)
  refine ⟨hslug, fun now entity table row hentity hrow hkey => ?_⟩
  rw [← hslug]
  unfold upsertEntity
  rw [EntityRecord.recordId_eq hentity, OrdMap.get?_set]
  by_cases hsame : k₁.slug = k₂.slug
  · -- the row now has the other key
    rw [if_pos hsame]
    refine ⟨fun h => absurd ?_ hne, fun h => absurd hsame h⟩
    have hkeys := congrArg (fun r : Option EntityRow => r.bind (·.key?)) h
    simp only [Option.bind_some, upsertRow_key?, hentity, hkey] at hkeys
    exact (Option.some.inj hkeys).symm
  · rw [if_neg hsame]
    exact ⟨fun _ => hsame, fun _ => hrow⟩

def alice : EntityKey := .canonical "alice" .person "u1"

def bob : EntityKey := .canonical "bob" .person "u1"

def bobEntity : EntityRecord where
  kind := .person
  canonicalName := "Bob"
  nameNorm := "bob"
  sourceProject := "p"
  firstSeenAt := "2024"
  lastSeenAt := "2025"
  confidence := 1 / 2
  scope := .user
  userId := "u1"

def aliceRow : EntityRow :=
  { bobEntity with canonicalName := "Alice", nameNorm := "alice", createdAt := "2024",
                   updatedAt := "2024" }

theorem upsertEntity_keeps_alice :
    alice.slug ≠ bob.slug ∧
      (upsertEntity "2026" bobEntity (OrdMap.empty.set alice.slug aliceRow)).get? alice.slug =
        some aliceRow := by
  obtain ⟨hslug, hkeeps⟩ := upsertEntity_keeps_iff (show alice ≠ bob by decide)
  have hwords : alice.slugWords ≠ bob.slugWords := by decide +kernel
  exact ⟨hslug.mpr hwords,
    (hkeeps "2026" bobEntity _ aliceRow rfl (OrdMap.get?_set_self ..) rfl).mpr hwords⟩

/-- A hyphen between spaces is not told from the word of a hyphen, and a stub not from a canonical
whose user id spells the rest. -/
theorem slug_collides :
    (EntityKey.canonical "a - b" .concept "u1").slug =
        (EntityKey.canonical "a x2d b" .concept "u1").slug ∧
      (EntityKey.stub "a" .person "x20" "x20").slug =
        (EntityKey.canonical "a" .person " session ").slug := by
  decide +kernel

end Runir
