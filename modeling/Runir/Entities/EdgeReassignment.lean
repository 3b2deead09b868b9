import Mathlib.Algebra.Order.Field.Rat
import Runir.Domain.Types
import Runir.Lib.UniqueIndex

/-!
# Entities — Edge reassignment

`composeEdgeReassignment` of `src/entities/entity-store.ts` on the table of edges: the fragment that
moves every edge of one entity to another, from what is read before its transaction, and the
transaction performed.

* `aggregateEdges`: the edges that touch the entity, folded by where they go; those that would
  become loops apart.
* `composeEdgeReassignment`: the statements, in order.
* `performAll`: the transaction.  The unique index on `(in, out, kind)` refuses a second edge.

The endpoints of an edge are the texts of its records, and the dates are of any linear order.
-/

namespace Runir

inductive EdgeKind where
  | mentionedIn | affiliatedWith | participatesIn | locatedIn | references | supports | opposes
  | relatedTo
  deriving DecidableEq

/-- `EntityEdge`, as a row of the table. -/
structure EntityEdge (τ : Type*) where
  inStr : String
  outStr : String
  kind : EdgeKind
  confidence : Option ℚ := none
  weight : Option ℚ := none
  sourceMemoryId : Option String := none
  contextText : Option String := none
  observedAt : Option τ := none
  lastSeenAt : Option τ := none
  sourceProject : Option String := none
  scope : Option MemoryScope := none
  sessionId : Option String := none
  provenance : Option String := none
  updatedAt : Option τ := none
  deriving DecidableEq

/-- The columns of `idx_ee_unique`. -/
abbrev EdgeKey := String × String × EdgeKind

abbrev EdgeTable (τ : Type*) := OrdMap String (EntityEdge τ)

/-- The edges folded for one target. -/
structure TargetAgg (τ : Type*) where
  newInStr : String
  newOutStr : String
  kind : EdgeKind
  confidence : ℚ
  weight : ℚ
  lastSeenAt : τ
  observedAt : τ
  contextText : Option String
  sourceMemoryId : Option String
  sourceProject : String
  scope : MemoryScope
  sessionId : Option String
  provenance : String
  originalIds : List String

/-- A statement of the fragment, with the values bound to its parameters. -/
inductive EdgeStatement (τ : Type*) where
  | delete (id : String)
  | update (existingId : String) (lastSeenAt : τ) (confidence weight : ℚ)
      (contextText : Option String) (now : τ)
  | relate (edge : EntityEdge τ)

/-- The record of an entity. -/
def entityRecord (id : String) : String := "entities:" ++ id

section
variable {τ : Type*}

def EntityEdge.key (edge : EntityEdge τ) : EdgeKey := (edge.inStr, edge.outStr, edge.kind)

/-- The edge has the record at either end. -/
def EntityEdge.touches (edge : EntityEdge τ) (record : String) : Bool :=
  decide (edge.inStr = record) || decide (edge.outStr = record)

/-- An endpoint after the move. -/
def repoint (fromRecord toRecord endpoint : String) : String :=
  if endpoint = fromRecord then toRecord else endpoint

/-- Where an edge goes. -/
def EntityEdge.target (fromRecord toRecord : String) (edge : EntityEdge τ) : EdgeKey :=
  (repoint fromRecord toRecord edge.inStr, repoint fromRecord toRecord edge.outStr, edge.kind)

/-- It would go from a record to itself. -/
def EntityEdge.loops (fromRecord toRecord : String) (edge : EntityEdge τ) : Bool :=
  decide (repoint fromRecord toRecord edge.inStr = repoint fromRecord toRecord edge.outStr)

/-- What starts a target. -/
def newAgg (now : τ) (fromRecord toRecord : String) (id : String) (edge : EntityEdge τ) :
    TargetAgg τ where
  newInStr := repoint fromRecord toRecord edge.inStr
  newOutStr := repoint fromRecord toRecord edge.outStr
  kind := edge.kind
  confidence := edge.confidence.getD (1 / 2)
  weight := edge.weight.getD 1
  lastSeenAt := edge.lastSeenAt.getD now
  observedAt := edge.observedAt.getD now
  contextText := edge.contextText
  sourceMemoryId := edge.sourceMemoryId
  sourceProject := edge.sourceProject.getD "entity-consolidation"
  scope := edge.scope.getD .user
  sessionId := edge.sessionId
  provenance := edge.provenance.getD "entity-merge"
  originalIds := [id]

/-- READ 2. -/
def findEdge (table : EdgeTable τ) (key : EdgeKey) : Option (String × EntityEdge τ) :=
  table.findOn EntityEdge.key key

/-- The edge of a target that has none. -/
def TargetAgg.edge (agg : TargetAgg τ) : EntityEdge τ where
  inStr := agg.newInStr
  outStr := agg.newOutStr
  kind := agg.kind
  confidence := some agg.confidence
  weight := some agg.weight
  sourceMemoryId := agg.sourceMemoryId
  contextText := agg.contextText
  observedAt := some agg.observedAt
  lastSeenAt := some agg.lastSeenAt
  sourceProject := some agg.sourceProject
  scope := some agg.scope
  sessionId := agg.sessionId
  provenance := some agg.provenance

variable [LinearOrder τ]

/-- A second edge for a target. -/
def foldAgg (now : τ) (agg : TargetAgg τ) (id : String) (edge : EntityEdge τ) : TargetAgg τ :=
  let seen := edge.lastSeenAt.getD now
  { agg with
    confidence := max agg.confidence (edge.confidence.getD 0)
    weight := agg.weight + edge.weight.getD 1
    lastSeenAt := if agg.lastSeenAt < seen then seen else agg.lastSeenAt
    contextText :=
      if agg.contextText.getD "" = "" && edge.contextText.getD "" ≠ "" then edge.contextText
      else agg.contextText
    originalIds := agg.originalIds ++ [id] }

/-- What the loop over the edges has. -/
structure EdgeAggregation (τ : Type*) where
  byTarget : OrdMap EdgeKey (TargetAgg τ)
  selfLoopIds : List String

def aggregateEdge (now : τ) (fromRecord toRecord : String) (acc : EdgeAggregation τ)
    (e : String × EntityEdge τ) : EdgeAggregation τ :=
  if e.2.loops fromRecord toRecord then { acc with selfLoopIds := acc.selfLoopIds ++ [e.1] }
  else
    let key := e.2.target fromRecord toRecord
    let agg := match acc.byTarget.get? key with
      | none => newAgg now fromRecord toRecord e.1 e.2
      | some agg => foldAgg now agg e.1 e.2
    { acc with byTarget := acc.byTarget.set key agg }

/-- READ 1 and the loop over what it returns. -/
def aggregateEdges (now : τ) (fromRecord toRecord : String) (table : EdgeTable τ) :
    EdgeAggregation τ :=
  (table.entries.filter fun e => e.2.touches fromRecord).foldl
    (aggregateEdge now fromRecord toRecord) ⟨OrdMap.empty, []⟩

/-- The later of the two dates; an edge never seen is before all. -/
def laterSeen (aggSeen : τ) (existingSeen : Option τ) : τ :=
  match existingSeen with
  | none => aggSeen
  | some seen => if seen < aggSeen then aggSeen else seen

def edgeStatement (now : τ) (agg : TargetAgg τ) :
    Option (String × EntityEdge τ) → EdgeStatement τ
  | some (existingId, existing) =>
      .update existingId (laterSeen agg.lastSeenAt existing.lastSeenAt)
        (max agg.confidence (existing.confidence.getD 0)) (agg.weight + existing.weight.getD 1)
        (existing.contextText.or agg.contextText) now
  | none => .relate agg.edge

/-- The statements for one target: its edge, and then the originals away. -/
def edgeStatements (now : τ) (table : EdgeTable τ) (agg : TargetAgg τ) :
    List (EdgeStatement τ) :=
  edgeStatement now agg (findEdge table (agg.newInStr, agg.newOutStr, agg.kind)) ::
    agg.originalIds.map .delete

def composeEdgeReassignment (now : τ) (table : EdgeTable τ) (fromEntityId toEntityId : String) :
    List (EdgeStatement τ) :=
  if fromEntityId = toEntityId then []
  else
    let acc := aggregateEdges now (entityRecord fromEntityId) (entityRecord toEntityId) table
    acc.selfLoopIds.map .delete ++ acc.byTarget.values.flatMap (edgeStatements now table)

end

/-! ### The transaction -/

/-- The ids the database gives to new edges. -/
structure EdgeIds (τ : Type*) where
  pick : EdgeTable τ → String
  unused : ∀ table : EdgeTable τ, table.get? (pick table) = none

section
variable {τ : Type*} (ids : EdgeIds τ)

def EdgeStatement.perform : EdgeStatement τ → EdgeTable τ → Option (EdgeTable τ)
  | .delete id, table => some (table.erase id)
  | .update existingId lastSeenAt confidence weight contextText now, table =>
      match table.get? existingId with
      | none => some table
      | some edge =>
          some (table.set existingId
            { edge with
              lastSeenAt := some lastSeenAt
              confidence := some confidence
              weight := some weight
              contextText := contextText
              updatedAt := some now })
  | .relate edge, table =>
      if (findEdge table edge.key).isSome then none else some (table.set (ids.pick table) edge)

def performAll (statements : List (EdgeStatement τ)) (table : EdgeTable τ) :
    Option (EdgeTable τ) :=
  statements.foldlM (fun table statement => statement.perform ids table) table

end

end Runir
