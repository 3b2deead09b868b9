import Mathlib.Data.Rat.Defs
import Runir.Lib.OrdMap

/-!
# Overlay — Store

`src/storage/overlay/overlay-store.ts`: the per-user registry of memories written but perhaps not
yet visible in the durable index.  Each tenant's store is an insertion-ordered map whose head is
the least recently used entry; the registry keeps the tenants in the order they were first asked
for.  One call reads one instant of the clock.  A call that expires entries lazily returns the
store it leaves behind together with its result.
-/

namespace Runir

/-- `OverlayLockKey`. -/
structure OverlayLockKey where
  factKey : String
  continuitySubjectKey : String
  deriving DecidableEq

inductive OverlayOutcome where
  | create | mergeUpdate | supersede
  deriving DecidableEq

structure OverlayEntry where
  memoryId : String
  text : String
  lockKey : OverlayLockKey
  userId : String
  score : ℚ
  committedAtMs : Int
  expiresAtMs : Int
  lastAccessedAtMs : Int
  active : Bool
  outcome : OverlayOutcome
  deriving DecidableEq

structure OverlayRegistryOptions where
  perTenantCap : Nat
  globalAggregateCap : Nat

def serializeLockKey (lockKey : OverlayLockKey) : String :=
  lockKey.factKey ++ "\x00" ++ lockKey.continuitySubjectKey

/-! ### One tenant -/

structure PerTenantStore where
  entries : OrdMap String OverlayEntry

namespace PerTenantStore

def empty : PerTenantStore := ⟨.empty⟩

def lazyExpire (now : Int) (s : PerTenantStore) : PerTenantStore :=
  ⟨s.entries.filter fun _ e => decide (now < e.expiresAtMs)⟩

/-- `put` without its `onAfterPut` hook. -/
def insert (lockKey : OverlayLockKey) (entry : OverlayEntry) (s : PerTenantStore) :
    PerTenantStore :=
  let k := serializeLockKey lockKey
  ⟨(s.entries.erase k).set k entry⟩

def get (now : Int) (lockKey : OverlayLockKey) (s : PerTenantStore) :
    Option OverlayEntry × PerTenantStore :=
  let k := serializeLockKey lockKey
  match s.entries.get? k with
  | none => (none, s)
  | some existing =>
      if existing.expiresAtMs ≤ now then (none, ⟨s.entries.erase k⟩)
      else
        let touched := { existing with lastAccessedAtMs := now }
        (some touched, ⟨(s.entries.erase k).set k touched⟩)

def delete (lockKey : OverlayLockKey) (s : PerTenantStore) : Bool × PerTenantStore :=
  let k := serializeLockKey lockKey
  (s.entries.has k, ⟨s.entries.erase k⟩)

def snapshot (now : Int) (s : PerTenantStore) : List OverlayEntry × PerTenantStore :=
  let s := s.lazyExpire now
  (s.entries.values, s)

def size (now : Int) (s : PerTenantStore) : Nat × PerTenantStore :=
  let s := s.lazyExpire now
  (s.entries.size, s)

/-- The oldest entry that has not expired. -/
def lruHead (now : Int) (s : PerTenantStore) : Option OverlayEntry × PerTenantStore :=
  let s := s.lazyExpire now
  (s.entries.values.head?, s)

def evictLruHead (now : Int) (s : PerTenantStore) : Bool × PerTenantStore :=
  let s := s.lazyExpire now
  match s.entries.keys with
  | [] => (false, s)
  | k :: _ => (true, ⟨s.entries.erase k⟩)

def evictExpired (now : Int) (s : PerTenantStore) : Nat × PerTenantStore :=
  (s.entries.size - (s.lazyExpire now).entries.size, s.lazyExpire now)

end PerTenantStore

/-! ### The registry -/

structure OverlayRegistry where
  tenants : OrdMap String PerTenantStore

namespace OverlayRegistry

/-- `createOverlayRegistry`. -/
def empty : OverlayRegistry := ⟨.empty⟩

def store (r : OverlayRegistry) (userId : String) : PerTenantStore :=
  (r.tenants.get? userId).getD .empty

def setStore (r : OverlayRegistry) (userId : String) (s : PerTenantStore) : OverlayRegistry :=
  ⟨r.tenants.set userId s⟩

/-- `forUser`: registers the tenant the first time it is asked for. -/
def forUser (r : OverlayRegistry) (userId : String) : OverlayRegistry :=
  if r.tenants.has userId then r else r.setStore userId .empty

/-- Every store with its expired entries dropped, as asking each for its size leaves them. -/
def expireAll (now : Int) (r : OverlayRegistry) : OverlayRegistry :=
  ⟨r.tenants.mapValues (·.lazyExpire now)⟩

def globalSize (now : Int) (r : OverlayRegistry) : Nat × OverlayRegistry :=
  ((r.tenants.values.map fun s => (s.size now).1).sum, r.expireAll now)

def tenantCount (now : Int) (r : OverlayRegistry) : Nat × OverlayRegistry :=
  ((r.tenants.values.filter fun s => decide (0 < (s.size now).1)).length, r.expireAll now)

def evictExpired (now : Int) (r : OverlayRegistry) : Nat × OverlayRegistry :=
  ((r.tenants.values.map fun s => (s.evictExpired now).1).sum, r.expireAll now)

/-- One round of the loop in `registryLruHead`: a later tenant's head wins only if it was
accessed strictly earlier. -/
def older (now : Int) (best : Option (String × OverlayEntry)) (t : String × PerTenantStore) :
    Option (String × OverlayEntry) :=
  match (t.2.lruHead now).1 with
  | none => best
  | some head =>
      match best with
      | none => some (t.1, head)
      | some (owner, oldest) =>
          if head.lastAccessedAtMs < oldest.lastAccessedAtMs then some (t.1, head)
          else some (owner, oldest)

def registryLruHead (now : Int) (r : OverlayRegistry) :
    Option (String × OverlayEntry) × OverlayRegistry :=
  (r.tenants.entries.foldl (older now) none, r.expireAll now)

/-- Pass 1 of `afterPut`, with a bound on the rounds of its loop. -/
def evictGlobally (opts : OverlayRegistryOptions) (now : Int) :
    Nat → OverlayRegistry → OverlayRegistry
  | 0, r => r
  | rounds + 1, r =>
      let (n, r) := r.globalSize now
      if opts.globalAggregateCap < n then
        match r.registryLruHead now with
        | (none, r) => r
        | (some (owner, _), r) =>
            evictGlobally opts now rounds (r.setStore owner ((r.store owner).evictLruHead now).2)
      else r

/-- Pass 2 of `afterPut` on the inserting tenant's store, with a bound on its rounds. -/
def evictLocally (opts : OverlayRegistryOptions) (now : Int) :
    Nat → PerTenantStore → PerTenantStore
  | 0, s => s
  | rounds + 1, s =>
      let (n, s) := s.size now
      if opts.perTenantCap < n then
        match s.evictLruHead now with
        | (false, s) => s
        | (true, s) => evictLocally opts now rounds s
      else s

/-- The entries held, expired or not. -/
def held (r : OverlayRegistry) : Nat := (r.tenants.values.map fun s => s.entries.size).sum

/-- `afterPut`.  Each round of a pass evicts an entry or ends it, so the entries held bound the
rounds. -/
def afterPut (opts : OverlayRegistryOptions) (now : Int) (insertingUserId : String)
    (r : OverlayRegistry) : OverlayRegistry :=
  let r := evictGlobally opts now (r.held + 1) r
  match r.tenants.get? insertingUserId with
  | none => r
  | some s => r.setStore insertingUserId (evictLocally opts now (s.entries.size + 1) s)

/-- `forUser(userId).put(lockKey, entry)`. -/
def put (opts : OverlayRegistryOptions) (now : Int) (userId : String) (lockKey : OverlayLockKey)
    (entry : OverlayEntry) (r : OverlayRegistry) : OverlayRegistry :=
  let r := r.forUser userId
  afterPut opts now userId (r.setStore userId ((r.store userId).insert lockKey entry))

/-- `forUser(userId).get(lockKey)`. -/
def get (now : Int) (userId : String) (lockKey : OverlayLockKey) (r : OverlayRegistry) :
    Option OverlayEntry × OverlayRegistry :=
  let r := r.forUser userId
  let (found, s) := (r.store userId).get now lockKey
  (found, r.setStore userId s)

/-- `forUser(userId).delete(lockKey)`. -/
def delete (userId : String) (lockKey : OverlayLockKey) (r : OverlayRegistry) :
    Bool × OverlayRegistry :=
  let r := r.forUser userId
  let (had, s) := (r.store userId).delete lockKey
  (had, r.setStore userId s)

/-- `forUser(userId).snapshot()`. -/
def snapshot (now : Int) (userId : String) (r : OverlayRegistry) :
    List OverlayEntry × OverlayRegistry :=
  let r := r.forUser userId
  let (es, s) := (r.store userId).snapshot now
  (es, r.setStore userId s)

/-- `forUser(userId).size()`. -/
def size (now : Int) (userId : String) (r : OverlayRegistry) : Nat × OverlayRegistry :=
  let r := r.forUser userId
  let (n, s) := (r.store userId).size now
  (n, r.setStore userId s)

/-- The calls a registry serves. -/
inductive Call where
  | put (userId : String) (lockKey : OverlayLockKey) (entry : OverlayEntry)
  | get (userId : String) (lockKey : OverlayLockKey)
  | delete (userId : String) (lockKey : OverlayLockKey)
  | snapshot (userId : String)
  | size (userId : String)
  | globalSize
  | tenantCount
  | evictExpired

/-- The registry after one call at the instant `now`. -/
def serve (opts : OverlayRegistryOptions) (r : OverlayRegistry) (now : Int) :
    Call → OverlayRegistry
  | .put userId lockKey entry => r.put opts now userId lockKey entry
  | .get userId lockKey => (r.get now userId lockKey).2
  | .delete userId lockKey => (r.delete userId lockKey).2
  | .snapshot userId => (r.snapshot now userId).2
  | .size userId => (r.size now userId).2
  | .globalSize => (r.globalSize now).2
  | .tenantCount => (r.tenantCount now).2
  | .evictExpired => (r.evictExpired now).2

/-- The registry after a history of calls, each with the instant it was made at. -/
def serveAll (opts : OverlayRegistryOptions) (calls : List (Int × Call)) : OverlayRegistry :=
  calls.foldl (fun r c => r.serve opts c.1 c.2) .empty

end OverlayRegistry

end Runir
