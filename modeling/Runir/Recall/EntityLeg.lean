import Runir.Domain.Types
import Runir.Lib.OrdMap
import Runir.Recall.EntityMentions

/-!
# Recall — The entity leg

`queryEntityLeg` of `src/recall/query/memory-query.ts`: the mentions of a query are looked up among
the entities, and the memories of each entity found are boosted.

* `EntityDb`: what the queries answer; where one has no answer, it fails.
* `queryEntityLeg`: its rows, and its trace, which shows each boost.
* `merged_mergeCandidates`: a boost is not given twice where no mention is there twice.
* `entityMentions_sound_iff`: when mentions and leg are as they should be.
-/

namespace Runir.Recall
open List

/-- `MAX_ENTITY_MATCHES_PER_CANDIDATE`. -/
def maxEntityMatchesPerCandidate : Nat := 6

/-- `MAX_ENTITY_LINKED_IDS_PER_MATCH`. -/
def maxEntityLinkedIdsPerMatch : Nat := 25

/-- `MAX_ENTITY_ROWS`. -/
def maxEntityRows : Nat := 50

/-! ### What is looked up -/

/-- What the leg reads of an entity's row, with its id as `extractId` gives it. -/
structure FoundEntity where
  id : String
  nameNorm : String
  canonicalName : String
  aliasesNorm : Option (List String) := none
  sessionId : Option String := none
  confidence : Option ℚ := none
  deriving DecidableEq

inductive MatchedBy where
  | name | alias
  deriving DecidableEq

structure EntityMatch where
  entity : FoundEntity
  matchedBy : MatchedBy
  scope : MemoryScope

structure EntityLookupScope where
  scope : MemoryScope
  sessionId : Option String := none

/-- The variables of a `ScopeFilter` that the leg reads. -/
structure ScopeVars where
  scopeVal : Option String := none
  sessionScope : Option String := none
  sessionId : Option String := none

def entityLookupScopes (vars : ScopeVars) (currentSessionId : Option String) :
    List EntityLookupScope :=
  if vars.scopeVal = some "team" then []
  else if vars.scopeVal = some "session" then
    (vars.sessionId.map fun sessionId => ⟨.session, some sessionId⟩).toList
  else if vars.sessionScope = some "session" ∧ vars.sessionId.isSome then
    [⟨.user, none⟩, ⟨.session, vars.sessionId⟩]
  else [⟨.user, none⟩, ⟨.session, currentSessionId.filter Text.truthy⟩]

/-- What the queries of the leg answer. -/
structure EntityDb where
  byNames : List String → MemoryScope → Option (List FoundEntity)
  byAliases : List String → MemoryScope → Option (List FoundEntity)
  /-- The ids of the memories each entity is mentioned in. -/
  supporting : List String → Option (List (String × List String))
  /-- The ids of the records the filters of the recall let through. -/
  surviving : List String → Option (List String)

section
variable (db : EntityDb) (tableName : String)

def findEntitiesByNames (nameNorms : List String) (scope : MemoryScope) :
    Option (List FoundEntity) :=
  if nameNorms = [] then some [] else db.byNames nameNorms scope

def findEntitiesByAliases (aliasNorms : List String) (scope : MemoryScope) :
    Option (List FoundEntity) :=
  if aliasNorms = [] then some [] else db.byAliases aliasNorms scope

def getSupportingMemoryIdsBatch (entityIds : List String) :
    Option (OrdMap String (List String)) :=
  if entityIds = [] then some .empty else (db.supporting entityIds).map .ofList

/-- What one scope answers to all candidates. -/
structure ScopeBatch where
  lookupScope : EntityLookupScope
  nameRows : List FoundEntity
  aliasRows : List FoundEntity

def scopeBatch (names : List String) (lookupScope : EntityLookupScope) : Option ScopeBatch := do
  let nameRows ← findEntitiesByNames db names lookupScope.scope
  let aliasRows ← findEntitiesByAliases db names lookupScope.scope
  return ⟨lookupScope, nameRows, aliasRows⟩

/-- An entity of another session than the one looked up is passed over. -/
def inLookupScope (lookupScope : EntityLookupScope) (entity : FoundEntity) : Bool :=
  decide (lookupScope.scope ≠ .session) || lookupScope.sessionId.isNone ||
    decide (entity.sessionId = lookupScope.sessionId)

/-- The matches of a candidate in a scope, by name before by alias. -/
def matchesIn (normalized : String) (batch : ScopeBatch) : List EntityMatch :=
  let byName := batch.nameRows.filter fun entity => entity.nameNorm = normalized
  let byAlias := batch.aliasRows.filter fun entity =>
    (entity.aliasesNorm.getD []).contains normalized
  (byName.filter (inLookupScope batch.lookupScope)).map
      (⟨·, .name, batch.lookupScope.scope⟩) ++
    (byAlias.filter (inLookupScope batch.lookupScope)).map
      (⟨·, .alias, batch.lookupScope.scope⟩)

def entityMatches (batches : List ScopeBatch) (candidate : MentionCandidate) : List EntityMatch :=
  (batches.flatMap (matchesIn candidate.normalized)).take maxEntityMatchesPerCandidate

/-! ### The memories of the entities -/

/-- `replace(/^⟨/, "").replace(/⟩$/, "")`. -/
def withoutAngles (raw : String) : String :=
  let cs := raw.toList
  let cs := if cs.head? = some '⟨' then cs.drop 1 else cs
  String.ofList (if cs.getLast? = some '⟩' then cs.dropLast else cs)

def normalizeLinkedMemoryId (memoryId : String) : Option String :=
  let table := tableName ++ ":"
  let withoutTable :=
    if Text.startsWith memoryId table then Text.sliceFrom memoryId table.toList.length else memoryId
  let withoutBrackets := withoutAngles withoutTable
  if withoutBrackets = "" then none else some withoutBrackets

def linkedMemoryRecordIds (linkedIds : List String) : List String :=
  (distinct linkedIds).filterMap (normalizeLinkedMemoryId tableName)

def filterLinkedMemoryIds (linkedIds : List String) : Option (List String) :=
  if linkedIds = [] then some []
  else (db.surviving (linkedMemoryRecordIds tableName linkedIds)).map
    fun ids => ids.insertionSort (· ≤ ·)

/-- What was fetched for an entity: how many memories it is linked to, and which of them pass. -/
structure FetchedLinks where
  linkedCount : Nat
  filtered : List String

def fetchLinks (entityIds : List String) : Option (OrdMap String FetchedLinks) := do
  let supportingByEntity ← getSupportingMemoryIdsBatch db entityIds
  let linkedOf := fun entityId =>
    (((supportingByEntity.get? entityId).getD []).filterMap
      (normalizeLinkedMemoryId tableName)).take maxEntityLinkedIdsPerMatch
  let unionIds := distinct (entityIds.flatMap linkedOf)
  let survivors ← filterLinkedMemoryIds db tableName unionIds
  return .ofList (entityIds.map fun entityId =>
    (entityId, ⟨(linkedOf entityId).length,
      ((distinct (linkedOf entityId)).filter survivors.contains).insertionSort (· ≤ ·)⟩))

end

/-! ### The merge -/

/-- `EntityRow`, as the leg returns it. -/
structure LegRow where
  id : String
  rank : Nat
  score : ℚ
  matchedEntities : List String
  linkedMemoryIds : List String
  deriving DecidableEq

structure ScoreChange where
  memoryId : String
  before : ℚ
  boost : ℚ
  after : ℚ
  deriving DecidableEq

/-- `EntityRetrievalTraceMatch`. -/
structure EntityTraceMatch where
  queryMention : String
  normalizedMention : String
  entityId : Option String := none
  canonicalName : Option String := none
  matchedBy : Option MatchedBy := none
  scope : Option MemoryScope := none
  linkedMemoryIds : List String := []
  scoreChanges : List ScoreChange := []
  ignoredReason : Option String := none

/-- The rows so far, and the trace. -/
structure LegState where
  byMemoryId : OrdMap String LegRow := .empty
  traceMatches : List EntityTraceMatch := []

/-- `Math.max(0.1, match.entity.confidence ?? 0.5)`. -/
def boostOf (entity : FoundEntity) : ℚ := max (1 / 10) (entity.confidence.getD (1 / 2))

section
variable (tableName : String)

/-- The row of a memory, a new one where it has none yet. -/
def rowOf (rows : OrdMap String LegRow) (memoryId : String) : LegRow :=
  (rows.get? memoryId).getD ⟨tableName ++ ":" ++ memoryId, rows.size + 1, 0, [], [memoryId]⟩

def LegRow.boosted (row : LegRow) (entity : FoundEntity) : LegRow :=
  { row with
    score := row.score + boostOf entity
    matchedEntities := row.matchedEntities ++ [entity.canonicalName] }

/-- The memories of an entity are boosted, until one would be a row too many. -/
def boostLinked (entity : FoundEntity) :
    List String → OrdMap String LegRow → OrdMap String LegRow × List ScoreChange
  | [], rows => (rows, [])
  | memoryId :: rest, rows =>
      if !rows.has memoryId && decide (maxEntityRows ≤ rows.size) then (rows, [])
      else
        let existing := rowOf tableName rows memoryId
        let (rows', changes) :=
          boostLinked entity rest (rows.set memoryId (existing.boosted entity))
        (rows', ⟨memoryId, existing.score, boostOf entity, (existing.boosted entity).score⟩ ::
          changes)

/-- What is done for an entity that was not seen yet for this candidate. -/
def mergeMatch (candidate : MentionCandidate) (found : EntityMatch) (links : FetchedLinks)
    (s : LegState) : LegState :=
  if links.linkedCount = 0 ∨ links.filtered = [] then
    { s with traceMatches := s.traceMatches ++ [
      { queryMention := candidate.mention
        normalizedMention := candidate.normalized
        ignoredReason := some (if links.linkedCount = 0 then "no_linked_memories"
          else "linked_memories_filtered") }] }
  else
    let (rows, changes) := boostLinked tableName found.entity links.filtered s.byMemoryId
    { byMemoryId := rows
      traceMatches := s.traceMatches ++ [
        { queryMention := candidate.mention
          normalizedMention := candidate.normalized
          entityId := some found.entity.id
          canonicalName := some found.entity.canonicalName
          matchedBy := some found.matchedBy
          scope := some found.scope
          linkedMemoryIds := links.filtered
          scoreChanges := changes }] }

variable (fetched : Option (OrdMap String FetchedLinks))

/-- The matches of a candidate, each entity once.  Where fetching failed, so does the leg. -/
def mergeMatches (candidate : MentionCandidate) :
    List EntityMatch → List String → LegState → Option LegState
  | [], _, s => some s
  | found :: rest, seenEntityIds, s =>
      if maxEntityRows ≤ s.byMemoryId.size then some s
      else if found.entity.id ∈ seenEntityIds then mergeMatches candidate rest seenEntityIds s
      else
        fetched.bind fun links =>
          mergeMatches candidate rest (seenEntityIds ++ [found.entity.id])
            (mergeMatch tableName candidate found ((links.get? found.entity.id).getD ⟨0, []⟩) s)

def mergeCandidate (resolved : MentionCandidate × List EntityMatch) (s : LegState) :
    Option LegState :=
  if resolved.2 = [] then
    some { s with traceMatches := s.traceMatches ++ [
      { queryMention := resolved.1.mention
        normalizedMention := resolved.1.normalized
        ignoredReason := some "no_entity_match" }] }
  else mergeMatches tableName fetched resolved.1 resolved.2 [] s

def mergeCandidates (resolved : List (MentionCandidate × List EntityMatch)) (s : LegState) :
    Option LegState :=
  resolved.foldlM (fun s candidate => mergeCandidate tableName fetched candidate s) s

end

/-- What the leg returns, but for its time. -/
structure LegResult where
  rows : List LegRow
  traceMatches : List EntityTraceMatch

/-- The rows in the order of their scores, ranked. -/
def rankedRows (limit : Int) (rows : List LegRow) : List LegRow :=
  ((rows.insertionSort fun a b => b.score ≤ a.score).take
    (max 1 (min limit 50)).toNat).mapIdx fun idx row => { row with rank := idx + 1 }

def queryEntityLeg (host : EntityHost) (db : EntityDb) (queryText : String) (limit : Int)
    (vars : ScopeVars) (tableName : String) (currentSessionId : Option String)
    (entityFillerWords : List String) : Option LegResult := do
  let candidates := entityMentionCandidates host entityFillerWords queryText
  let batches ← (entityLookupScopes vars currentSessionId).mapM
    (scopeBatch db (candidates.map (·.normalized)))
  let resolved := candidates.map fun candidate => (candidate, entityMatches batches candidate)
  let entityIds := distinct (resolved.flatMap fun r => r.2.map (·.entity.id))
  let s ← mergeCandidates tableName (fetchLinks db tableName entityIds) resolved {}
  return ⟨rankedRows limit s.byMemoryId.values, s.traceMatches⟩

/-! ### Boosts -/

/-- A boost, as the trace shows it. -/
structure Boost where
  mention : String
  entityId : String
  memoryId : String
  amount : ℚ

/-- Which entity boosts which memory for which mention. -/
def Boost.key (b : Boost) : String × String × String := (b.mention, b.entityId, b.memoryId)

def EntityTraceMatch.boosts (t : EntityTraceMatch) : List Boost :=
  t.entityId.toList.flatMap fun entityId =>
    t.scoreChanges.map fun c => ⟨t.normalizedMention, entityId, c.memoryId, c.boost⟩

def boostsOf (traceMatches : List EntityTraceMatch) : List Boost :=
  traceMatches.flatMap EntityTraceMatch.boosts

/-- What a memory has been boosted by. -/
def total (memoryId : String) (boosts : List Boost) : ℚ :=
  ((boosts.filter fun b => b.memoryId = memoryId).map Boost.amount).sum

theorem total_append (memoryId : String) (front back : List Boost) :
    total memoryId (front ++ back) = total memoryId front + total memoryId back := by
  rw [total, filter_append, map_append, sum_append]
  rfl

theorem total_cons (memoryId : String) (b : Boost) (bs : List Boost) :
    total memoryId (b :: bs) = (if b.memoryId = memoryId then b.amount else 0) + total memoryId bs := by
  by_cases h : b.memoryId = memoryId
  · simp [total, h]
  · simp [total, h]

theorem boostsOf_append (front back : List EntityTraceMatch) :
    boostsOf (front ++ back) = boostsOf front ++ boostsOf back := flatMap_append

/-- What the leg is to return. -/
structure LegSound (tableName : String) (result : LegResult) : Prop where
  /-- An entity boosts a memory at most once for a mention. -/
  boostedOnce : ((boostsOf result.traceMatches).map Boost.key).Nodup
  /-- A row has the score of its memory's boosts. -/
  scored : ∀ row ∈ result.rows, ∃ memoryId, row.linkedMemoryIds = [memoryId] ∧
    row.id = tableName ++ ":" ++ memoryId ∧
      row.score = total memoryId (boostsOf result.traceMatches)
  ranked : result.rows.map LegRow.rank = range' 1 result.rows.length
  ordered : result.rows.Pairwise fun a b => b.score ≤ a.score
  few : result.rows.length ≤ 50
  distinctIds : (result.rows.map LegRow.id).Nodup

/-- The score of a memory, zero where it has no row. -/
def scoreOf (rows : OrdMap String LegRow) (memoryId : String) : ℚ :=
  ((rows.get? memoryId).map LegRow.score).getD 0

/-- What holds of the rows at any time. -/
structure RowsSound (tableName : String) (rows : OrdMap String LegRow) : Prop where
  size : rows.size ≤ maxEntityRows
  named : ∀ memoryId row, rows.get? memoryId = some row →
    row.id = tableName ++ ":" ++ memoryId ∧ row.linkedMemoryIds = [memoryId]

section
variable {tableName : String} {rows : OrdMap String LegRow}

theorem size_set_le (rows : OrdMap String LegRow) (memoryId : String) (row : LegRow)
    (hroom : rows.has memoryId = true ∨ rows.size < maxEntityRows) (h : rows.size ≤ maxEntityRows) :
    (rows.set memoryId row).size ≤ maxEntityRows := by
  cases hget : rows.get? memoryId with
  | none =>
      rw [OrdMap.size_set_of_none hget]
      refine hroom.resolve_left ?_
      rw [OrdMap.has, hget]
      exact Bool.false_ne_true
  | some row' =>
      have hkeys := congrArg length (OrdMap.keys_set_of_has hget row)
      rw [OrdMap.keys, OrdMap.keys, length_map, length_map] at hkeys
      exact (le_of_eq hkeys).trans h

theorem scoreOf_set (rows : OrdMap String LegRow) (memoryId m : String) (row : LegRow) :
    scoreOf (rows.set memoryId row) m = if m = memoryId then row.score else scoreOf rows m := by
  rw [scoreOf, OrdMap.get?_set]
  split
  · rfl
  · rfl

theorem score_rowOf (rows : OrdMap String LegRow) (memoryId : String) :
    (rowOf tableName rows memoryId).score = scoreOf rows memoryId := by
  rw [rowOf, scoreOf]
  cases rows.get? memoryId with
  | none => rfl
  | some row => rfl

theorem named_rowOf (hrows : RowsSound tableName rows) (memoryId : String) :
    (rowOf tableName rows memoryId).id = tableName ++ ":" ++ memoryId ∧
      (rowOf tableName rows memoryId).linkedMemoryIds = [memoryId] := by
  rw [rowOf]
  cases hget : rows.get? memoryId with
  | none => exact ⟨rfl, rfl⟩
  | some row => exact hrows.named memoryId row hget

theorem rowsSound_set (hrows : RowsSound tableName rows) {memoryId : String}
    (hroom : rows.has memoryId = true ∨ rows.size < maxEntityRows) (entity : FoundEntity) :
    RowsSound tableName
      (rows.set memoryId ((rowOf tableName rows memoryId).boosted entity)) where
  size := size_set_le rows memoryId _ hroom hrows.size
  named := by
    intro m row hrow
    rw [OrdMap.get?_set] at hrow
    split at hrow
    · next heq =>
        obtain rfl := Option.some.inj hrow
        subst heq
        exact named_rowOf hrows m
    · exact hrows.named m row hrow

/-- The changes, as boosts. -/
def changesAs (mention entityId : String) (changes : List ScoreChange) : List Boost :=
  changes.map fun c => ⟨mention, entityId, c.memoryId, c.boost⟩

theorem nodup_changesAs (mention entityId : String) {changes : List ScoreChange}
    (h : (changes.map ScoreChange.memoryId).Nodup) :
    ((changesAs mention entityId changes).map Boost.key).Nodup := by
  have hkeys : (changesAs mention entityId changes).map Boost.key =
      (changes.map ScoreChange.memoryId).map fun memoryId => (mention, entityId, memoryId) := by
    rw [changesAs, map_map, map_map]
    rfl
  rw [hkeys]
  refine h.map fun m m' heq => ?_
  rw [Prod.mk.injEq, Prod.mk.injEq] at heq
  exact heq.2.2

/-- **Boosting the memories of an entity**: each at most once, and the scores go up by it. -/
theorem boostLinked_spec (entity : FoundEntity) (mention : String)
    (hrows : RowsSound tableName rows) (memoryIds : List String) :
    RowsSound tableName (boostLinked tableName entity memoryIds rows).1 ∧
      (boostLinked tableName entity memoryIds rows).2.map ScoreChange.memoryId <+: memoryIds ∧
        ∀ m, scoreOf (boostLinked tableName entity memoryIds rows).1 m = scoreOf rows m +
          total m (changesAs mention entity.id
            (boostLinked tableName entity memoryIds rows).2) := by
  induction memoryIds generalizing rows with
  | nil => exact ⟨hrows, nil_prefix, fun m => (add_zero _).symm⟩
  | cons memoryId rest ih =>
      rw [boostLinked]
      split
      · exact ⟨hrows, nil_prefix, fun m => (add_zero _).symm⟩
      · next hroom =>
          rw [Bool.and_eq_true, Bool.not_eq_true', decide_eq_true_eq, not_and_or,
            Bool.not_eq_false] at hroom
          obtain ⟨hsound, hprefix, hscores⟩ :=
            ih (rowsSound_set hrows (hroom.imp_right Nat.lt_of_not_le) entity)
          refine ⟨hsound, (prefix_cons_inj memoryId).mpr hprefix, fun m => ?_⟩
          dsimp only
          rw [hscores m, scoreOf_set, changesAs, changesAs, map_cons, total_cons]
          split
          · next heq =>
              subst heq
              rw [if_pos rfl, LegRow.boosted, score_rowOf, add_assoc]
          · next hne => rw [if_neg (Ne.symm hne), zero_add]

/-! ### The run of the merge -/

/-- What holds of the state at any time: each boost is one of the `allowed`, and was given once. -/
structure Merged (tableName : String) (allowed : String → String → Prop) (s : LegState) : Prop where
  rows : RowsSound tableName s.byMemoryId
  scores : ∀ m, scoreOf s.byMemoryId m = total m (boostsOf s.traceMatches)
  once : ((boostsOf s.traceMatches).map Boost.key).Nodup
  given : ∀ b ∈ boostsOf s.traceMatches, allowed b.mention b.entityId

variable {allowed allowed' : String → String → Prop} {s s' : LegState}

theorem Merged.mono (h : Merged tableName allowed s)
    (hmono : ∀ mention entityId, allowed mention entityId → allowed' mention entityId) :
    Merged tableName allowed' s :=
  { h with given := fun b hb => hmono _ _ (h.given b hb) }

theorem merged_empty : Merged tableName (fun _ _ => False) {} where
  rows := ⟨Nat.zero_le _, fun m row h => by cases h⟩
  scores := fun _ => rfl
  once := nodup_nil
  given := fun _ hb => absurd hb not_mem_nil

/-- A trace entry without boosts. -/
theorem Merged.ignored (h : Merged tableName allowed s) {t : EntityTraceMatch}
    (ht : t.entityId = none) :
    Merged tableName allowed { s with traceMatches := s.traceMatches ++ [t] } := by
  have hnone : t.boosts = [] := by rw [EntityTraceMatch.boosts, ht]; rfl
  have hboosts : boostsOf (s.traceMatches ++ [t]) = boostsOf s.traceMatches := by
    rw [boostsOf_append, boostsOf, boostsOf, flatMap_singleton, hnone, append_nil]
  exact
    { rows := h.rows
      scores := by
        intro m
        rw [hboosts]
        exact h.scores m
      once := by
        rw [hboosts]
        exact h.once
      given := by
        rw [hboosts]
        exact h.given }

/-- **An entity that has given no boost for a mention gives each memory one.** -/
theorem merged_mergeMatch (h : Merged tableName allowed s) {candidate : MentionCandidate}
    {found : EntityMatch} (hnew : ¬allowed candidate.normalized found.entity.id)
    {links : FetchedLinks} (hlinks : links.filtered.Nodup) :
    Merged tableName (fun mention entityId => allowed mention entityId ∨
        (mention = candidate.normalized ∧ entityId = found.entity.id))
      (mergeMatch tableName candidate found links s) := by
  rw [mergeMatch]
  split
  · exact (h.ignored rfl).mono fun _ _ => .inl
  · obtain ⟨hrows, hprefix, hscores⟩ :=
      boostLinked_spec found.entity candidate.normalized h.rows links.filtered
    have hboosts : ∀ t : EntityTraceMatch, t.entityId = some found.entity.id →
        t.normalizedMention = candidate.normalized →
          boostsOf (s.traceMatches ++ [t]) = boostsOf s.traceMatches ++
            changesAs candidate.normalized found.entity.id t.scoreChanges := by
      intro t hid hmention
      rw [boostsOf_append, boostsOf, boostsOf, flatMap_singleton, EntityTraceMatch.boosts, hid,
        hmention, Option.toList_some, flatMap_singleton]
      rfl
    dsimp only
    refine ⟨hrows, fun m => ?_, ?_, ?_⟩
    · rw [hboosts _ rfl rfl, total_append, ← h.scores m]
      exact hscores m
    · rw [hboosts _ rfl rfl, map_append]
      refine h.once.append (nodup_changesAs _ _ (hlinks.sublist hprefix.sublist)) ?_
      intro key hold hnewKey
      obtain ⟨b, hb, rfl⟩ := mem_map.mp hold
      obtain ⟨b', hb', hkey⟩ := mem_map.mp hnewKey
      obtain ⟨c, -, rfl⟩ := mem_map.mp hb'
      obtain ⟨hmention, hentity, -⟩ : b.mention = candidate.normalized ∧
          b.entityId = found.entity.id ∧ b.memoryId = c.memoryId := by
        simp only [Boost.key, Prod.mk.injEq] at hkey
        exact ⟨hkey.1.symm, hkey.2.1.symm, hkey.2.2.symm⟩
      have hgiven := h.given b hb
      rw [hmention, hentity] at hgiven
      exact hnew hgiven
    · rw [hboosts _ rfl rfl]
      intro b hb
      rcases mem_append.mp hb with hb | hb
      · exact .inl (h.given b hb)
      · obtain ⟨c, -, rfl⟩ := mem_map.mp hb
        exact .inr ⟨rfl, rfl⟩

variable {fetched : Option (OrdMap String FetchedLinks)}

/-- What was fetched names no memory twice. -/
def FetchedDistinct (fetched : Option (OrdMap String FetchedLinks)) : Prop :=
  ∀ links, fetched = some links → ∀ id l, links.get? id = some l → l.filtered.Nodup

theorem fetchLinks_distinct (db : EntityDb) (entityIds : List String) :
    FetchedDistinct (fetchLinks db tableName entityIds) := by
  intro links hlinks id l hget
  rw [fetchLinks, Option.bind_eq_bind, Option.bind_eq_some_iff] at hlinks
  obtain ⟨supportingByEntity, -, hlinks⟩ := hlinks
  rw [Option.bind_eq_bind, Option.bind_eq_some_iff] at hlinks
  obtain ⟨survivors, -, hlinks⟩ := hlinks
  obtain rfl := Option.some.inj hlinks
  obtain ⟨entityId, -, heq⟩ := mem_map.mp (OrdMap.mem_of_get?_ofList hget)
  obtain rfl := (Prod.mk.inj heq).2
  exact (perm_insertionSort _ _).nodup_iff.mpr ((nodup_distinct _).filter _)

/-- **The matches of a candidate**: an entity that was seen gives no boost again. -/
theorem merged_mergeMatches (hfetched : FetchedDistinct fetched) {candidate : MentionCandidate}
    {done : String → Prop} (hnew : ¬done candidate.normalized) (found : List EntityMatch)
    (seen : List String)
    (h : Merged tableName (fun mention entityId => done mention ∨
      (mention = candidate.normalized ∧ entityId ∈ seen)) s)
    (hrun : mergeMatches tableName fetched candidate found seen s = some s') :
    Merged tableName (fun mention _ => done mention ∨ mention = candidate.normalized) s' := by
  induction found generalizing seen s with
  | nil =>
      obtain rfl := Option.some.inj hrun
      exact h.mono fun _ _ => Or.imp_right And.left
  | cons m found ih =>
      rw [mergeMatches] at hrun
      split at hrun
      · obtain rfl := Option.some.inj hrun
        exact h.mono fun _ _ => Or.imp_right And.left
      · split at hrun
        · exact ih seen h hrun
        · next hunseen =>
            obtain ⟨links, hlinks, hrun⟩ := Option.bind_eq_some_iff.mp hrun
            have hnot : ¬(done candidate.normalized ∨
                (candidate.normalized = candidate.normalized ∧ m.entity.id ∈ seen)) := by
              rintro (hdone | ⟨-, hseen⟩)
              · exact hnew hdone
              · exact hunseen hseen
            have hnodup : ((links.get? m.entity.id).getD ⟨0, []⟩).filtered.Nodup := by
              cases hget : links.get? m.entity.id with
              | none => exact nodup_nil
              | some l => exact hfetched links hlinks _ l hget
            refine ih (seen ++ [m.entity.id]) ?_ hrun
            refine (merged_mergeMatch h hnot hnodup).mono fun mention entityId => ?_
            rintro ((hdone | ⟨rfl, hseen⟩) | ⟨rfl, rfl⟩)
            · exact .inl hdone
            · exact .inr ⟨rfl, mem_append_left _ hseen⟩
            · exact .inr ⟨rfl, mem_append_right _ mem_cons_self⟩

/-- **The candidates**, no mention twice. -/
theorem merged_mergeCandidates (hfetched : FetchedDistinct fetched)
    (resolved : List (MentionCandidate × List EntityMatch))
    (hnodup : (resolved.map fun r => r.1.normalized).Nodup) {done : String → Prop}
    (hnew : ∀ r ∈ resolved, ¬done r.1.normalized)
    (h : Merged tableName (fun mention _ => done mention) s)
    (hrun : mergeCandidates tableName fetched resolved s = some s') :
    Merged tableName (fun _ _ => True) s' := by
  induction resolved generalizing done s with
  | nil =>
      obtain rfl := Option.some.inj hrun
      exact h.mono fun _ _ _ => trivial
  | cons r resolved ih =>
      rw [mergeCandidates, foldlM_cons, Option.bind_eq_bind, Option.bind_eq_some_iff] at hrun
      obtain ⟨s₁, hfirst, hrest⟩ := hrun
      rw [map_cons, nodup_cons] at hnodup
      have hr := hnew r mem_cons_self
      have h₁ : Merged tableName (fun mention _ => done mention ∨ mention = r.1.normalized) s₁ := by
        rw [mergeCandidate] at hfirst
        split at hfirst
        · obtain rfl := Option.some.inj hfirst
          exact (h.ignored rfl).mono fun _ _ => .inl
        · refine merged_mergeMatches hfetched hr r.2 [] (h.mono fun _ _ => .inl) hfirst
      refine ih hnodup.2 (fun r' hr' => ?_) h₁ hrest
      rintro (hdone | heq)
      · exact hnew r' (mem_cons_of_mem _ hr') hdone
      · exact hnodup.1 (mem_map.mpr ⟨r', hr', heq⟩)

end

/-! ### The rows -/

section
variable {tableName : String}

/-- The rows that are ranked: the best ones. -/
def bestRows (limit : Int) (rows : List LegRow) : List LegRow :=
  (rows.insertionSort fun a b => b.score ≤ a.score).take (max 1 (min limit 50)).toNat

/-- Ranking changes ranks only. -/
theorem map_rankedRows {α : Type*} (field : LegRow → α)
    (hfield : ∀ row rank, field { row with rank := rank } = field row) (limit : Int)
    (rows : List LegRow) :
    (rankedRows limit rows).map field = (bestRows limit rows).map field := by
  rw [rankedRows, bestRows]
  refine ext_getElem (by simp) fun i _ _ => ?_
  simp [hfield]

theorem map_rank (limit : Int) (rows : List LegRow) :
    (rankedRows limit rows).map LegRow.rank = range' 1 (rankedRows limit rows).length := by
  rw [rankedRows]
  refine ext_getElem (by simp) fun i _ _ => ?_
  simp [Nat.add_comm]

theorem bestRows_subset (limit : Int) (rows : List LegRow) : bestRows limit rows ⊆ rows :=
  fun _ h => (mem_insertionSort _).mp (mem_of_mem_take h)

theorem ordered_rankedRows (limit : Int) (rows : List LegRow) :
    (rankedRows limit rows).Pairwise fun a b => b.score ≤ a.score := by
  have htotal : Std.Total fun a b : LegRow => b.score ≤ a.score := ⟨fun a b => le_total _ _⟩
  have htrans : IsTrans LegRow fun a b => b.score ≤ a.score := ⟨fun _ _ _ h h' => h'.trans h⟩
  have hsorted : (bestRows limit rows).Pairwise fun a b => b.score ≤ a.score :=
    (pairwise_insertionSort _ rows).sublist (take_sublist _ _)
  have hscores := map_rankedRows LegRow.score (fun _ _ => rfl) limit rows
  have hbest : ((bestRows limit rows).map LegRow.score).Pairwise fun x y => y ≤ x :=
    pairwise_map.mpr hsorted
  rw [← hscores] at hbest
  exact pairwise_map.mp hbest

theorem length_rankedRows (limit : Int) (rows : List LegRow) :
    (rankedRows limit rows).length ≤ 50 := by
  have hlength := congrArg length (map_rankedRows LegRow.score (fun _ _ => rfl) limit rows)
  rw [length_map, length_map] at hlength
  rw [hlength, bestRows, length_take]
  omega

theorem append_id_inj {a b : String} (h : tableName ++ ":" ++ a = tableName ++ ":" ++ b) : a = b := by
  have hlist := congrArg String.toList h
  simp only [String.toList_append, append_cancel_left_eq] at hlist
  exact String.toList_inj.mp hlist

theorem ids_values {rows : OrdMap String LegRow} (h : RowsSound tableName rows) :
    (rows.values.map LegRow.id).Nodup := by
  have hids : rows.values.map LegRow.id = rows.keys.map fun m => tableName ++ ":" ++ m := by
    rw [OrdMap.values, OrdMap.keys, map_map, map_map]
    exact map_congr_left fun e he => (h.named e.1 e.2 (OrdMap.get?_eq_some.mpr he)).1
  rw [hids]
  exact rows.keys_nodup.map fun a b => append_id_inj

theorem legSound_of_merged {s : LegState} (h : Merged tableName (fun _ _ => True) s) (limit : Int) :
    LegSound tableName ⟨rankedRows limit s.byMemoryId.values, s.traceMatches⟩ where
  boostedOnce := h.once
  scored := by
    intro row hrow
    obtain ⟨row', hbest, heq⟩ : ∃ row' ∈ bestRows limit s.byMemoryId.values,
        (row'.linkedMemoryIds, row'.id, row'.score) = (row.linkedMemoryIds, row.id, row.score) := by
      have hmem := mem_map_of_mem (f := fun row : LegRow => (row.linkedMemoryIds, row.id, row.score))
        hrow
      rw [map_rankedRows _ (fun _ _ => rfl)] at hmem
      exact mem_map.mp hmem
    obtain ⟨memoryId, hget⟩ := OrdMap.mem_values.mp (bestRows_subset _ _ hbest)
    obtain ⟨hid, hlinked⟩ := h.rows.named memoryId row' hget
    have hscore := h.scores memoryId
    rw [scoreOf, hget] at hscore
    simp only [Prod.mk.injEq] at heq
    exact ⟨memoryId, heq.1 ▸ hlinked, heq.2.1 ▸ hid, heq.2.2 ▸ hscore⟩
  ranked := map_rank limit _
  ordered := ordered_rankedRows limit _
  few := length_rankedRows limit _
  distinctIds := by
    show ((rankedRows limit s.byMemoryId.values).map LegRow.id).Nodup
    rw [map_rankedRows LegRow.id fun _ _ => rfl, bestRows, map_take]
    refine Nodup.sublist (take_sublist _ _) ?_
    exact ((perm_insertionSort _ _).map _).nodup_iff.mpr (ids_values h.rows)

end

/-! ### Mentions and leg -/

/-- **No mention is there twice, and no boost is given twice**, exactly where no proper name is
repeated. -/
theorem entityMentions_sound_iff (host : EntityHost) (entityFillerWords : List String)
    (queryText : String) :
    ((entityMentionCandidates host entityFillerWords queryText).length ≤ 16 ∧
        ((entityMentionCandidates host entityFillerWords queryText).map
          MentionCandidate.normalized).Nodup ∧
        ∀ db limit vars tableName currentSessionId result,
          queryEntityLeg host db queryText limit vars tableName currentSessionId
            entityFillerWords = some result → LegSound tableName result) ↔
      MentionsApart host entityFillerWords queryText := by
  rw [← mentions_distinct_iff]
  refine ⟨fun h => h.2.1, fun hnodup => ⟨length_candidates .., hnodup, ?_⟩⟩
  intro db limit vars tableName currentSessionId result hrun
  rw [queryEntityLeg] at hrun
  obtain ⟨batches, -, hrun⟩ := Option.bind_eq_some_iff.mp hrun
  obtain ⟨s, hmerge, hresult⟩ := Option.bind_eq_some_iff.mp hrun
  obtain rfl := Option.some.inj hresult
  refine legSound_of_merged (merged_mergeCandidates (fetchLinks_distinct db _) _ ?_ ?_
    merged_empty hmerge) limit
  · rw [map_map]
    exact hnodup
  · exact fun _ _ h => h

/-- A database in which one entity, of one name, is mentioned in one memory. -/
def loneEntityDb (nameNorm : String) : EntityDb where
  byNames := fun names scope => some
    (if names.contains nameNorm && decide (scope = .user) then
      [{ id := "e", nameNorm, canonicalName := nameNorm }] else [])
  byAliases := fun _ _ => some []
  supporting := fun _ => some [("e", ["semiote:m"])]
  surviving := some

/-- **A proper name is boosted twice.** -/
theorem proper_boosted_twice :
    ¬((entityMentionCandidates .ascii [] "Postgres").map MentionCandidate.normalized).Nodup ∧
      (queryEntityLeg .ascii (loneEntityDb "postgres") "Postgres" 10 {} "semiote" none []).map
        (fun result => result.rows.map fun row => (row.id, row.score)) =
          some [("semiote:m", 1 / 2 + 1 / 2)] := by
  decide +kernel

end Runir.Recall
