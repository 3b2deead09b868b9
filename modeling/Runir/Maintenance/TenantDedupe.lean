import Mathlib.Data.Int.ConditionallyCompleteOrder
import Runir.Store.Rows

/-!
# Maintenance — TenantDedupe

What `scripts/migrate-canonical-tenant.ts` does to the memory rows of two tenants that become one:
`src/maintenance/semiote-tenant-dedupe.ts` and the first statement of
`src/maintenance/canonical-tenant-migration.ts`.

* `buildSemioteDedupeGroups`: the fact keys that both tenants carry, each with a winner and losers.
* `applySemioteDedupeGroups`: the losers are retired, the winner is made active.
* `tenantUpdate`: the rows of the one tenant become the other's.

The table is keyed by the bare record ids.  What the database driver hands over for a `datetime`
column is a parameter.
-/

namespace Runir

/-- A column as the driver hands it over, as far as `timestamp` tells them apart. -/
inductive ReadTime where
  | date (ms : Int)
  | text (s : String)
  | other
  deriving DecidableEq

structure SemioteIdentityRow where
  id : String
  userId : Option String
  factKey : Option String
  updatedAt : ReadTime
  deriving DecidableEq

structure SemioteDedupeGroup where
  factKey : String
  winnerId : String
  loserIds : List String
  deriving DecidableEq

section
variable (host : Host) (readTime : Int → ReadTime)

/-- `timestamp`, with `⊥` for negative infinity. -/
def timestamp : ReadTime → WithBot Int
  | .date ms => ms
  | .text s => host.dateParse s
  | .other => ⊥

/-- The row as the migration reads it: an empty fact key is none. -/
def identityRow (id : String) (row : MemoryRow) : SemioteIdentityRow where
  id := id
  userId := row.userId
  factKey := (row.propStr? "factKey").filter (· ≠ "")
  updatedAt := readTime row.updatedAt

/-- `SELECT … FROM semiote WHERE user_id IN [$fromUserId, $toUserId]`. -/
def readSemiotes (fromUserId toUserId : String) (rows : Rows) : List SemioteIdentityRow :=
  (rows.entries.map fun e => identityRow readTime e.1 e.2).filter fun row =>
    row.userId = some fromUserId || row.userId = some toUserId

/-- The group of a fact key, where both tenants carry it. -/
def dedupeGroup (fromUserId toUserId : String) (factKey : String) (group : List SemioteIdentityRow) :
    Option SemioteDedupeGroup :=
  if group.any (fun row => row.userId = some fromUserId) &&
      group.any (fun row => row.userId = some toUserId) then
    match group.insertionSort fun left right => timestamp host right.updatedAt ≤ timestamp host left.updatedAt with
    | [] => none
    | winner :: losers =>
        some ⟨factKey, winner.id, (losers.map (·.id)).insertionSort (· ≤ ·)⟩
  else none

def buildSemioteDedupeGroups (fromUserId toUserId : String) (rows : List SemioteIdentityRow) :
    List SemioteDedupeGroup :=
  ((groupOn (·.factKey) rows).entries.filterMap fun e =>
      dedupeGroup host fromUserId toUserId e.1 e.2).insertionSort fun left right =>
    host.localeCompare left.factKey right.factKey ≠ .gt

/-! ### The statements -/

/-- A statement of `applySemioteDedupeGroups`. -/
inductive DedupeStatement where
  | retire (loserId winnerId : String)
  | activate (winnerId : String)
  deriving DecidableEq

def DedupeStatement.target : DedupeStatement → String
  | .retire loserId _ => loserId
  | .activate winnerId => winnerId

def factKeyCollision : String := "canonical_tenant_migration_fact_key_collision"

/-- What a statement sets. -/
def DedupeStatement.effect (now : Int) (row : MemoryRow) : DedupeStatement → MemoryRow
  | .retire _ winnerId =>
      { row with
        active := some false
        inactiveAt := some (Date.toISOString now)
        inactiveReason := some factKeyCollision
        supersededBy := some winnerId
        payload := ((((row.payload.set "active" (.bool false)).set "inactiveAt"
          (.str (Date.toISOString now))).set "inactiveReason" (.str factKeyCollision)).set
          "supersededById" (.str winnerId)).set "updatedAt" (.str (Date.toISOString now))
        updatedAt := now }
  | .activate _ =>
      { row with
        active := some true
        inactiveAt := none
        inactiveReason := none
        payload := (((row.payload.set "active" (.bool true)).erase "inactiveAt").erase
          "inactiveReason").set "updatedAt" (.str (Date.toISOString now))
        updatedAt := now }

/-- `UPDATE` of a record: one that is not there stays away. -/
def DedupeStatement.run (now : Int) (rows : Rows) (statement : DedupeStatement) : Rows :=
  match rows.get? statement.target with
  | none => rows
  | some row => rows.set statement.target (statement.effect now row)

def SemioteDedupeGroup.statements (group : SemioteDedupeGroup) : List DedupeStatement :=
  (group.loserIds.map fun loserId => .retire loserId group.winnerId) ++ [.activate group.winnerId]

def applySemioteDedupeGroups (now : Int) (groups : List SemioteDedupeGroup) (rows : Rows) : Rows :=
  (groups.flatMap (·.statements)).foldl (DedupeStatement.run now) rows

/-- The first of `buildTenantUpdateStatements`, on one row. -/
def tenantUpdateRow (fromUserId toUserId : String) (row : MemoryRow) : MemoryRow :=
  if row.userId = some fromUserId ∨ row.payloadUserId = some fromUserId then
    { row with
      userId := some toUserId
      payload := row.payload.set "userId" (.str toUserId) }
  else row

def tenantUpdate (fromUserId toUserId : String) (rows : Rows) : Rows :=
  rows.mapValues (tenantUpdateRow fromUserId toUserId)

/-- The memory rows after the migration. -/
def mergeTenants (now : Int) (fromUserId toUserId : String) (rows : Rows) : Rows :=
  tenantUpdate fromUserId toUserId
    (applySemioteDedupeGroups now
      (buildSemioteDedupeGroups host fromUserId toUserId
        (readSemiotes readTime fromUserId toUserId rows)) rows)

end

end Runir
