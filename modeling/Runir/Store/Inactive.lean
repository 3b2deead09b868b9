import Runir.Store.Supersede

/-!
# Store — Inactive

The writers that turn rows off and on again outside a supersede.

* `deleteMemoryById`, `restoreMemoryById`, `softArchiveInactiveOlderThan` of
  `src/storage/surreal/memory-crud-store.ts`.
* `softInactivateForCompaction` of `src/lifecycle/compaction/memory-compactor.ts`.
-/

namespace Runir

/-- `UPDATE type::record(id) SET … WHERE payload.userId = $userId`. -/
def updateOwned (userId id : String) (f : MemoryRow → MemoryRow) (rows : Rows) : Rows :=
  match rows.get? id with
  | none => rows
  | some row => if row.payloadUserId = some userId then rows.set id (f row) else rows

/-- The `SET` list of a soft forget. -/
def setForgotten (now : Int) (row : MemoryRow) : MemoryRow :=
  { row with
    active := some false
    inactiveAt := some (Date.toISOString now)
    inactiveReason := some "forgotten"
    payload := row.payload
      |> setProp "active" (some (.bool false))
      |> setProp "inactiveAt" (some (.str (Date.toISOString now)))
      |> setProp "inactiveReason" (some (.str "forgotten"))
      |> setProp "updatedAt" (some (.str (Date.toISOString now)))
    updatedAt := now }

inductive DeleteMode where
  | softInactivate | hardDelete
  deriving DecidableEq

def deleteMemoryById (now : Int) (id userId : String) (mode : DeleteMode) (rows : Rows) : Rows :=
  match mode with
  | .hardDelete =>
      if (rows.get? id).any fun row => row.payloadUserId = some userId then rows.erase id else rows
  | .softInactivate => updateOwned userId id (setForgotten now) rows

/-- The `SET` list of a restore. -/
def setRestored (now : Int) (row : MemoryRow) : MemoryRow :=
  { row with
    active := some true
    inactiveAt := none
    inactiveReason := none
    payload := row.payload
      |> setProp "active" (some (.bool true))
      |> setProp "inactiveAt" none
      |> setProp "inactiveReason" none
      |> setProp "updatedAt" (some (.str (Date.toISOString now)))
    updatedAt := now }

/-- The rows after a restore, and whether it found a row to restore: an inactive one, or one that
says nothing. -/
def restoreMemoryById (now : Int) (id userId : String) (rows : Rows) : Rows × Bool :=
  match rows.get? id with
  | none => (rows, false)
  | some row =>
      if row.payloadUserId = some userId ∧ row.active ≠ some true then
        (rows.set id (setRestored now row), true)
      else (rows, false)

/-- The `SET` list of a compaction on a source row. -/
def setCompacted (now : Int) (mergedId : String) (row : MemoryRow) : MemoryRow :=
  { row with
    active := some false
    inactiveAt := some (Date.toISOString now)
    inactiveReason := some "compacted"
    supersededBy := some mergedId
    payload := row.payload
      |> setProp "active" (some (.bool false))
      |> setProp "inactiveAt" (some (.str (Date.toISOString now)))
      |> setProp "inactiveReason" (some (.str "compacted"))
      |> setProp "supersededById" (some (.str mergedId))
      |> setProp "updatedAt" (some (.str (Date.toISOString now)))
    updatedAt := now }

/-- One query for each source; a run that throws part of the way is a run on fewer sources. -/
def softInactivateForCompaction (now : Int) (sourceIds : List String) (mergedId userId : String)
    (rows : Rows) : Rows :=
  sourceIds.foldl (fun rows id => updateOwned userId id (setCompacted now mergedId) rows) rows

/-- `inactive_at < <datetime>$cutoff`, by the instants; no date is before every cutoff. -/
def inactiveBefore (host : Host) (cutoffMs : Int) (row : MemoryRow) : Bool :=
  match row.inactiveAt with
  | none => true
  | some at' => (host.dateParse at').any (· < cutoffMs)

/-- The rows `softArchiveInactiveOlderThan` selects. -/
def archivable (host : Host) (userId : String) (scope : MemoryScope) (cutoffMs : Int)
    (row : MemoryRow) : Bool :=
  row.payloadUserId = some userId && row.propStr? "scope" = some scope.text &&
    row.processingLineage = none && row.active = some false && inactiveBefore host cutoffMs row &&
    (row.archived = none || row.archived = some false)

/-- The archived rows and their number. -/
def softArchiveInactiveOlderThan (host : Host) (now : Int) (userId : String) (scope : MemoryScope)
    (cutoffMs : Int) (rows : Rows) : Rows × Nat :=
  (rows.mapValues fun row =>
      if archivable host userId scope cutoffMs row then
        { row with archived := some true, updatedAt := now }
      else row,
    (rows.values.filter (archivable host userId scope cutoffMs)).length)

end Runir
