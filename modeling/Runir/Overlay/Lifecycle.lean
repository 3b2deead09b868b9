import Runir.Lib.Text
import Runir.Lib.Value
import Runir.Overlay.Store

/-!
# Overlay — Lifecycle

`src/storage/writes/overlay-lifecycle.ts` and the lock key of
`src/storage/writes/overlay-supersession.ts`: what a committed write puts into the overlay.
-/

namespace Runir

/-- The free-form properties of a write, `Record<string, unknown>`. -/
abbrev Metadata := OrdMap String Value

def normalizeKeyField (value : Option String) : Option String :=
  match value with
  | none => none
  | some v =>
      let trimmed := Text.trim v
      if trimmed = "" then none else some trimmed

def buildOverlayKey (factKey continuitySubjectKey : Option String) : Option OverlayLockKey :=
  match normalizeKeyField factKey, normalizeKeyField continuitySubjectKey with
  | some f, some c => some ⟨f, c⟩
  | _, _ => none

def lockKeyFromMetadata (metadata : Option Metadata) : Option OverlayLockKey :=
  match metadata with
  | none => none
  | some m =>
      buildOverlayKey ((m.get? "factKey").bind Value.str?)
        ((m.get? "continuitySubjectKey").bind Value.str?)

def buildOverlayEntry (ttlMs nowMs : Int) (userId memoryId text : String)
    (lockKey : OverlayLockKey) (outcome : OverlayOutcome) : OverlayEntry where
  memoryId := memoryId
  text := text
  lockKey := lockKey
  userId := userId
  score := 1
  committedAtMs := nowMs
  expiresAtMs := nowMs + ttlMs
  lastAccessedAtMs := nowMs
  active := true
  outcome := outcome

@[simp] theorem buildOverlayEntry_memoryId (ttlMs nowMs : Int) (userId memoryId text : String)
    (lockKey : OverlayLockKey) (outcome : OverlayOutcome) :
    (buildOverlayEntry ttlMs nowMs userId memoryId text lockKey outcome).memoryId = memoryId := rfl

/-- The overlay step of `arbitrateWrite` after a durable commit: nothing without a lock key; a
supersede deletes before it puts. -/
def commitToOverlay (opts : OverlayRegistryOptions) (ttlMs nowMs : Int)
    (userId memoryId text : String) (metadata : Option Metadata) (outcome : OverlayOutcome)
    (r : OverlayRegistry) : OverlayRegistry :=
  match lockKeyFromMetadata metadata with
  | none => r
  | some lockKey =>
      let entry := buildOverlayEntry ttlMs nowMs userId memoryId text lockKey outcome
      match outcome with
      | .supersede => (r.delete userId lockKey).2.put opts nowMs userId lockKey entry
      | _ => r.put opts nowMs userId lockKey entry

end Runir
