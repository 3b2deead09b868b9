import Runir.Domain.Identity
import Runir.Lib.OrdMap
import Runir.Writes.ReferentIdentity

/-!
# Writes — Recent writes

`src/storage/writes/recent-writes.ts`: the in-memory cache of what was written lately, by user,
scope and session.  The key comes from `src/identity/canonical-context.ts`.

* `prunedRecentWritesView`: what a decision reads, without touching the cache.
* `pruneRecentWrites`, `rememberWrite`: the two changes a write makes.
-/

namespace Runir

abbrev RecentWrites := OrdMap String (List RecentWrite)

/-- The partition key of a user, a scope and a session. -/
def getRecentWriteKey (userId : String) (scope : MemoryScope) (sessionId : Option String) :
    String :=
  (normalizeToken (some userId)).getD userId ++ "::" ++ scope.text ++ "::" ++
    (normalizeToken sessionId).getD "-"

/-- The entries still within their time to live. -/
def retainedWrites (ttlMs : ℚ) (nowMs : Int) (entries : List RecentWrite) : List RecentWrite :=
  entries.filter fun entry => decide ((nowMs : ℚ) - ttlMs ≤ entry.writtenAtMs)

/-- One key of the pruned view, set only where something is retained. -/
def retainKey (ttlMs : ℚ) (nowMs : Int) (view : RecentWrites) (e : String × List RecentWrite) :
    RecentWrites :=
  let retained := retainedWrites ttlMs nowMs e.2
  if retained = [] then view else view.set e.1 retained

def prunedRecentWritesView (ttlMs : ℚ) (nowMs : Int) (recentWrites : RecentWrites) :
    RecentWrites :=
  recentWrites.entries.foldl (retainKey ttlMs nowMs) .empty

/-- One key of the cache, pruned in place. -/
def pruneKey (ttlMs : ℚ) (nowMs : Int) (recentWrites : RecentWrites)
    (e : String × List RecentWrite) : RecentWrites :=
  let retained := retainedWrites ttlMs nowMs e.2
  if retained = [] then recentWrites.erase e.1 else recentWrites.set e.1 retained

def pruneRecentWrites (ttlMs : ℚ) (nowMs : Int) (recentWrites : RecentWrites) : RecentWrites :=
  recentWrites.entries.foldl (pruneKey ttlMs nowMs) recentWrites

/-- A write goes first under its key, and the key keeps its twenty latest. -/
def rememberWrite (host : Host) (text : String) (embedding : List ℚ) (userId : String)
    (scope : MemoryScope) (sessionId : Option String) (source : WriteSource) (nowMs : Int)
    (recentWrites : RecentWrites) : RecentWrites :=
  let key := getRecentWriteKey userId scope sessionId
  let entry : RecentWrite :=
    { text := text, normalizedText := normalizeText host text, embedding := embedding,
      userId := userId, scope := scope, sessionId := sessionId, source := source,
      writtenAtMs := nowMs }
  recentWrites.set key ((entry :: (recentWrites.get? key).getD []).take 20)

/-! ### The view and the cache -/

section
variable (ttlMs : ℚ) (nowMs : Int)

/-- What pruning makes of the entries under a key. -/
def pruned (entries : List RecentWrite) : Option (List RecentWrite) :=
  let retained := retainedWrites ttlMs nowMs entries
  if retained = [] then none else some retained

theorem get?_foldl_retainKey {es : List (String × List RecentWrite)}
    (hes : (es.map Prod.fst).Nodup) (view : RecentWrites) (k : String) :
    (es.foldl (retainKey ttlMs nowMs) view).get? k =
      ((OrdMap.find k es).bind (pruned ttlMs nowMs)).or (view.get? k) := by
  induction es generalizing view with
  | nil => rfl
  | cons e es ih =>
      obtain ⟨k', entries⟩ := e
      obtain ⟨hk', hes⟩ := List.nodup_cons.mp hes
      rw [List.foldl_cons, ih hes]
      by_cases hk : k' = k
      · subst hk
        -- the key does not occur again
        have hnone : OrdMap.find k' es = none :=
          OrdMap.get?_eq_none (m := ⟨es, hes⟩).mpr hk'
        rw [hnone, OrdMap.find, if_pos rfl]
        unfold retainKey pruned
        by_cases hret : retainedWrites ttlMs nowMs entries = []
        · simp [hret]
        · simp [hret]
      · rw [OrdMap.find, if_neg hk]
        congr 1
        unfold retainKey
        by_cases hret : retainedWrites ttlMs nowMs entries = []
        · simp [hret]
        · simp [hret, OrdMap.get?_set, Ne.symm hk]

/-- The view depends on a key's own entries only. -/
theorem prunedRecentWritesView_get? (recentWrites : RecentWrites) (k : String) :
    (prunedRecentWritesView ttlMs nowMs recentWrites).get? k =
      (recentWrites.get? k).bind (pruned ttlMs nowMs) := by
  unfold prunedRecentWritesView
  rw [get?_foldl_retainKey ttlMs nowMs recentWrites.nodup, OrdMap.get?_empty, Option.or_none]
  rfl

end

end Runir
