import Runir.Lib.Host
import Runir.Overlay.Store

/-!
# Overlay — Merge

`src/recall/query/overlay-merge.ts`: the retrieval-side leg that puts the overlay's entries over
the durable hits.  An entry survives on the word of an active durable hit with its memory id, or
of a row of the one batched fallback read.

The symbol a hit carries its lineage classification under is kept as the stored field it was
classified from.  The fallback read is a parameter: the ids asked for to the rows that came back.
A field of a row is an accessor, since a getter may throw.
-/

namespace Runir

/-- `SearchHit`: the fields the merge reads or writes, and the others by name. -/
structure SearchHit where
  id : String
  text : String
  score : ℚ
  createdAt : Option String
  updatedAt : Option String
  active : Option Bool
  continuitySubjectKey : Option String
  others : OrdMap String Value
  lineage : Option (Option Value)
  deriving DecidableEq

/-- A field as its getter answers: a value, `undefined`, or an exception. -/
abbrev Getter := Except Unit (Option Value)

structure OverlayDurableRow where
  id : Getter
  user_id : Getter
  payload_user_id : Getter
  active : Getter
  processing_lineage : Getter

/-- A row `validatedDurableRow` lets through. -/
structure ValidatedRow where
  id : String
  processing_lineage : Option Value

/-- `s.replace(/^[^:]+:/, "")`. -/
def stripTable (s : String) : String :=
  match s.toList.takeWhile (· != ':'), s.toList.dropWhile (· != ':') with
  | _ :: _, ':' :: rest => String.ofList rest
  | _, _ => s

/-- The text of a record id, from the variants the database client answers with. -/
def extractId (host : Host) (rawId : Option Value) : String :=
  match rawId with
  | none => "undefined"
  | some v =>
      match v.prop? "id" with
      | some inner => host.stringOf inner
      | none => stripTable (host.stringOf v)

def isNonEmptyUserIdentity (v : Option Value) : Bool :=
  match v with
  | some (.str s) => Text.truthy s
  | _ => false

def validatedDurableRow (host : Host) (row : OverlayDurableRow) (requestedIds : List String)
    (userId : String) : Option ValidatedRow :=
  match row.id with
  | .error _ => none
  | .ok rawId =>
      let id := extractId host rawId
      if id ∉ requestedIds then none
      else
        match row.user_id, row.payload_user_id, row.active with
        | .ok rootUser, .ok payloadUser, .ok active =>
            if !isNonEmptyUserIdentity rootUser || !isNonEmptyUserIdentity payloadUser then none
            else if rootUser ≠ some (.str userId) ∨ payloadUser ≠ some (.str userId) ∨
                active ≠ some (.bool true) then none
            else
              match row.processing_lineage with
              | .error _ => none
              | .ok lineage => some ⟨id, lineage⟩
        | _, _, _ => none

/-- The last boolean activity the durable hits give each memory id. -/
def durableActiveByMemId (durableHits : List SearchHit) : OrdMap String Bool :=
  .ofList (durableHits.filterMap fun hit => hit.active.map fun b => (hit.id, b))

/-- `entry` over `prior`, the hit its memory id has so far. -/
def overlayEntryToSearchHit (entry : OverlayEntry) (prior : Option SearchHit)
    (selectedProcessingLineage : Option Value) (lineageSelectionEstablished : Bool) :
    SearchHit :=
  let committedIso := Date.toISOString entry.committedAtMs
  { id := entry.memoryId
    text := entry.text
    score := entry.score
    createdAt := some ((prior.bind (·.createdAt)).getD committedIso)
    updatedAt := some committedIso
    active :=
      match prior.bind (·.active) with
      | some b => some b
      | none => if lineageSelectionEstablished then some true else none
    continuitySubjectKey := some entry.lockKey.continuitySubjectKey
    others :=
      match prior with
      | some hit => hit.others.erase "processing_lineage"
      | none => .empty
    lineage :=
      if lineageSelectionEstablished then some selectedProcessingLineage
      else prior.bind (·.lineage) }

/-- The entries a durable hit settles: its own user's, and active there. -/
def durableKeepers (userId : String) (durableHits : List SearchHit)
    (snapshot : List OverlayEntry) : List OverlayEntry :=
  snapshot.filter fun entry =>
    entry.userId == userId && (durableActiveByMemId durableHits).get? entry.memoryId == some true

/-- The entries no durable hit speaks for. -/
def tentativeKeepers (userId : String) (durableHits : List SearchHit)
    (snapshot : List OverlayEntry) : List OverlayEntry :=
  snapshot.filter fun entry =>
    entry.userId == userId && (durableActiveByMemId durableHits).get? entry.memoryId == none

/-- The ids of the fallback read. -/
def requestedIds (userId : String) (durableHits : List SearchHit)
    (snapshot : List OverlayEntry) : List String :=
  distinct ((tentativeKeepers userId durableHits snapshot).map (·.memoryId))

/-- The validated rows of the fallback read, by id.  Nothing is read when no id is asked for. -/
def durableRowsById (host : Host) (userId : String) (requested : List String)
    (query : List String → List OverlayDurableRow) : OrdMap String ValidatedRow :=
  if requested = [] then .empty
  else
    .ofList ((query requested).filterMap fun row =>
      (validatedDurableRow host row requested userId).map fun valid =>
        (extractId host (some (.str valid.id)), valid))

/-- The entries that reach the fusion, those a durable hit settles first. -/
def filteredOverlay (userId : String) (durableHits : List SearchHit)
    (rows : OrdMap String ValidatedRow) (snapshot : List OverlayEntry) : List OverlayEntry :=
  durableKeepers userId durableHits snapshot ++
    (tentativeKeepers userId durableHits snapshot).filter fun entry => rows.has entry.memoryId

/-- One entry of the fusion. -/
def fuseEntry (rows : OrdMap String ValidatedRow) (fused : OrdMap String SearchHit)
    (entry : OverlayEntry) : SearchHit :=
  let row := rows.get? entry.memoryId
  overlayEntryToSearchHit entry (fused.get? entry.memoryId) (row.bind (·.processing_lineage))
    row.isSome

/-- The fusion of the durable hits with the entries kept. -/
def fuse (durableHits : List SearchHit) (rows : OrdMap String ValidatedRow)
    (kept : List OverlayEntry) : OrdMap String SearchHit :=
  kept.foldl (fun m entry => m.set entry.memoryId (fuseEntry rows m entry))
    (.ofList (durableHits.map fun hit => (hit.id, hit)))

/-- The hits the leg returns for a snapshot of the user's overlay. -/
def mergeSnapshot (host : Host) (userId : String) (durableHits : List SearchHit)
    (query : List String → List OverlayDurableRow) (snapshot : List OverlayEntry) :
    List SearchHit :=
  if snapshot = [] then durableHits
  else
    let rows := durableRowsById host userId (requestedIds userId durableHits snapshot) query
    (fuse durableHits rows (filteredOverlay userId durableHits rows snapshot)).values

/-- `mergeOverlayLeg`, with the registry its snapshot leaves. -/
def mergeOverlayLeg (host : Host) (now : Int) (registry : OverlayRegistry) (userId : String)
    (durableHits : List SearchHit) (query : List String → List OverlayDurableRow) :
    List SearchHit × OverlayRegistry :=
  let (snapshot, registry) := registry.snapshot now userId
  (mergeSnapshot host userId durableHits query snapshot, registry)

end Runir
