import Runir.Overlay.Merge

/-!
# Overlay — MergeFacts

Which hits the merge returns.

* `fuse_get?`: a memory id with kept entries carries the text of the last of them; one without
  keeps its last durable hit.
* `mergeSnapshot_authorised`: every hit an entry adds or rewrites is the requested user's, and
  its memory id is vouched for by an active durable hit or by an active row of that user which
  the fallback read asked for.
-/

namespace Runir

section
variable {host : Host} {userId : String} {durableHits : List SearchHit}
  {query : List String → List OverlayDurableRow} {snapshot : List OverlayEntry}

/-! ### The two routes -/

/-- What `validatedDurableRow` has checked of a row it lets through. -/
theorem validatedDurableRow_some {row : OverlayDurableRow} {requested : List String}
    {valid : ValidatedRow}
    (h : validatedDurableRow host row requested userId = some valid) :
    ∃ rawId, row.id = .ok rawId ∧ valid.id = extractId host rawId ∧ valid.id ∈ requested ∧
      row.user_id = .ok (some (.str userId)) ∧ row.payload_user_id = .ok (some (.str userId)) ∧
      row.active = .ok (some (.bool true)) := by
  unfold validatedDurableRow at h
  cases hid : row.id with
  | error _ => rw [hid] at h; cases h
  | ok rawId =>
      rw [hid] at h
      by_cases hreq : extractId host rawId ∉ requested
      · simp only [if_pos hreq] at h; cases h
      · simp only [if_neg hreq] at h
        rw [not_not] at hreq
        cases hu : row.user_id with
        | error _ => simp [hu] at h
        | ok rootUser =>
            cases hp : row.payload_user_id with
            | error _ => simp [hu, hp] at h
            | ok payloadUser =>
                cases ha : row.active with
                | error _ => simp [hu, hp, ha] at h
                | ok active =>
                    cases hl : row.processing_lineage with
                    | error _ =>
                        simp only [hu, hp, ha, hl] at h
                        split at h
                        · cases h
                        · split at h <;> cases h
                    | ok lineage =>
                        simp only [hu, hp, ha, hl] at h
                        split at h
                        · cases h
                        · split at h
                          · cases h
                          · rename_i hne
                            simp only [not_or, ne_eq, not_not] at hne
                            obtain ⟨rfl, rfl, rfl⟩ := hne
                            cases h
                            exact ⟨rawId, rfl, rfl, hreq, rfl, rfl, rfl⟩

/-- A row of the fallback read that speaks for `id`: it was asked for, both of its tenant
identities are the requested user and it is active. -/
def FallbackRow (host : Host) (userId : String) (requested : List String)
    (query : List String → List OverlayDurableRow) (id : String) : Prop :=
  ∃ row ∈ query requested, ∃ rawId, row.id = .ok rawId ∧ extractId host rawId = id ∧
    id ∈ requested ∧ row.user_id = .ok (some (.str userId)) ∧
    row.payload_user_id = .ok (some (.str userId)) ∧ row.active = .ok (some (.bool true))

/-- `id` is an active durable hit. -/
def ActiveDurableHit (durableHits : List SearchHit) (id : String) : Prop :=
  ∃ hit ∈ durableHits, hit.id = id ∧ hit.active = some true

theorem durableActive_some {id : String} {b : Bool}
    (h : (durableActiveByMemId durableHits).get? id = some b) :
    ∃ hit ∈ durableHits, hit.id = id ∧ hit.active = some b := by
  obtain ⟨hit, hm, e⟩ := List.mem_filterMap.mp (OrdMap.mem_of_get?_ofList h)
  cases ha : hit.active with
  | none => rw [ha] at e; cases e
  | some b' =>
      rw [ha] at e
      cases e
      exact ⟨hit, hm, rfl, ha⟩

/-- The ids asked for are those the second `extractId` does not change. -/
theorem fallbackRow_of_has {requested : List String}
    (hids : ∀ id ∈ requested, extractId host (some (.str id)) = id) {id : String}
    (h : (durableRowsById host userId requested query).has id = true) :
    FallbackRow host userId requested query id := by
  obtain ⟨valid, hv⟩ := Option.isSome_iff_exists.mp h
  unfold durableRowsById at hv
  by_cases hreq : requested = []
  · rw [if_pos hreq] at hv; cases hv
  · rw [if_neg hreq] at hv
    obtain ⟨row, hrow, e⟩ := List.mem_filterMap.mp (OrdMap.mem_of_get?_ofList hv)
    obtain ⟨valid', hvalid, e'⟩ := Option.map_eq_some_iff.mp e
    obtain ⟨rawId, hid, hext, hmem, hroot, hpay, hact⟩ := validatedDurableRow_some hvalid
    rw [hids _ hmem] at e'
    cases e'
    exact ⟨row, hrow, rawId, hid, hext.symm, hmem, hroot, hpay, hact⟩

variable {rows : OrdMap String ValidatedRow}

theorem mem_snapshot_of_filteredOverlay {entry : OverlayEntry}
    (h : entry ∈ filteredOverlay userId durableHits rows snapshot) : entry ∈ snapshot := by
  rcases List.mem_append.mp h with hk | hk
  · exact (List.mem_filter.mp hk).1
  · exact (List.mem_filter.mp (List.mem_filter.mp hk).1).1

/-- **What an entry needs to be kept.** -/
theorem mem_filteredOverlay {entry : OverlayEntry}
    (hids : ∀ e ∈ snapshot, e.userId = userId →
      extractId host (some (.str e.memoryId)) = e.memoryId)
    (h : entry ∈ filteredOverlay userId durableHits
      (durableRowsById host userId (requestedIds userId durableHits snapshot) query) snapshot) :
    entry ∈ snapshot ∧ entry.userId = userId ∧
      (ActiveDurableHit durableHits entry.memoryId ∨
        FallbackRow host userId (requestedIds userId durableHits snapshot) query
          entry.memoryId) := by
  have hreq : ∀ id ∈ requestedIds userId durableHits snapshot,
      extractId host (some (.str id)) = id := by
    intro id hid
    obtain ⟨e, he, rfl⟩ := List.mem_map.mp (mem_distinct.mp hid)
    obtain ⟨hs, hcond⟩ := List.mem_filter.mp he
    simp only [Bool.and_eq_true, beq_iff_eq] at hcond
    exact hids e hs hcond.1
  rcases List.mem_append.mp h with hk | hk
  · obtain ⟨hs, hcond⟩ := List.mem_filter.mp hk
    simp only [Bool.and_eq_true, beq_iff_eq] at hcond
    exact ⟨hs, hcond.1, Or.inl (durableActive_some hcond.2)⟩
  · obtain ⟨hk, hrow⟩ := List.mem_filter.mp hk
    obtain ⟨hs, hcond⟩ := List.mem_filter.mp hk
    simp only [Bool.and_eq_true, beq_iff_eq] at hcond
    exact ⟨hs, hcond.1, Or.inr (fallbackRow_of_has hreq hrow)⟩

/-! ### The fusion -/

/-- The last durable hit with a memory id. -/
def lastDurableHit (durableHits : List SearchHit) (id : String) : Option SearchHit :=
  latest (fun hit => decide (hit.id = id)) durableHits

theorem lastDurableHit_id {id : String} {hit : SearchHit}
    (h : lastDurableHit durableHits id = some hit) : hit ∈ durableHits ∧ hit.id = id := by
  obtain ⟨hm, hid⟩ := latest_mem h
  exact ⟨hm, of_decide_eq_true hid⟩

theorem fusedDurable_get? (durableHits : List SearchHit) (id : String) :
    (OrdMap.ofList (durableHits.map fun hit => (hit.id, hit))).get? id =
      lastDurableHit durableHits id := by
  rw [OrdMap.get?_ofList, latest, List.filter_map, List.getLast?_map, Option.map_map]
  simp [Function.comp_def, lastDurableHit, latest]

/-- **What the fusion holds under a memory id**: the last entry kept for it, else its last
durable hit. -/
theorem fuse_get? (durableHits : List SearchHit) (rows : OrdMap String ValidatedRow)
    (kept : List OverlayEntry) (id : String) :
    ((fuse durableHits rows kept).get? id = lastDurableHit durableHits id ∧
        ∀ e ∈ kept, e.memoryId ≠ id) ∨
      ∃ pre entry post fused, kept = pre ++ entry :: post ∧ entry.memoryId = id ∧
        (∀ e ∈ post, e.memoryId ≠ id) ∧
        (fuse durableHits rows kept).get? id = some (fuseEntry rows fused entry) := by
  rw [← fusedDurable_get?]
  exact OrdMap.get?_foldl_set (·.memoryId) (fuseEntry rows) kept _ id

/-- A hit of the fusion stands under its own memory id. -/
theorem mem_fuse {kept : List OverlayEntry} {hit : SearchHit} :
    hit ∈ (fuse durableHits rows kept).values ↔
      (fuse durableHits rows kept).get? hit.id = some hit := by
  refine OrdMap.mem_values.trans ⟨fun ⟨id, hid⟩ => ?_, fun h => ⟨_, h⟩⟩
  rcases fuse_get? durableHits rows kept id with ⟨e, -⟩ | ⟨-, entry, -, fused, -, rfl, -, e⟩
  · rw [hid] at e
    rw [(lastDurableHit_id e.symm).2]
    exact hid
  · rw [hid] at e
    cases e
    exact hid

/-! ### The hits returned -/

/-- A hit is a durable one, or stems from an entry of the user whose memory id is vouched for. -/
def Authorised (host : Host) (userId : String) (durableHits : List SearchHit)
    (query : List String → List OverlayDurableRow) (snapshot : List OverlayEntry)
    (hit : SearchHit) : Prop :=
  hit ∈ durableHits ∨
    ∃ entry ∈ snapshot, entry.userId = userId ∧ entry.memoryId = hit.id ∧
      entry.text = hit.text ∧
      (ActiveDurableHit durableHits hit.id ∨
        FallbackRow host userId (requestedIds userId durableHits snapshot) query hit.id)

theorem mergeSnapshot_authorised
    (hids : ∀ e ∈ snapshot, e.userId = userId →
      extractId host (some (.str e.memoryId)) = e.memoryId) :
    let result := mergeSnapshot host userId durableHits query snapshot
    (∀ hit ∈ result, Authorised host userId durableHits query snapshot hit) ∧
    (∀ id, (∀ e ∈ snapshot, e.memoryId ≠ id) →
      (∀ hit, lastDurableHit durableHits id = some hit → hit ∈ result) ∧
      (snapshot ≠ [] → ∀ hit ∈ result, hit.id = id → lastDurableHit durableHits id = some hit)) := by
  intro result
  by_cases hs : snapshot = []
  · have hr : result = durableHits := if_pos hs
    rw [hr]
    exact ⟨fun hit h => Or.inl h, fun id _ => ⟨fun hit h => (lastDurableHit_id h).1,
      fun hne => absurd hs hne⟩⟩
  · have hr : result = (fuse durableHits
        (durableRowsById host userId (requestedIds userId durableHits snapshot) query)
        (filteredOverlay userId durableHits
          (durableRowsById host userId (requestedIds userId durableHits snapshot) query)
          snapshot)).values := if_neg hs
    have hauth : ∀ entry ∈ filteredOverlay userId durableHits
        (durableRowsById host userId (requestedIds userId durableHits snapshot) query) snapshot,
        entry ∈ snapshot ∧ entry.userId = userId ∧
          (ActiveDurableHit durableHits entry.memoryId ∨
            FallbackRow host userId (requestedIds userId durableHits snapshot) query
              entry.memoryId) := fun _ => mem_filteredOverlay hids
    generalize durableRowsById host userId (requestedIds userId durableHits snapshot) query = rows
      at hr hauth
    generalize hkept : filteredOverlay userId durableHits rows snapshot = kept at hr hauth
    have hno : ∀ {id}, (∀ e ∈ snapshot, e.memoryId ≠ id) → ∀ e ∈ kept, e.memoryId ≠ id :=
      fun h e he => h e (mem_snapshot_of_filteredOverlay (hkept ▸ he))
    rw [hr]
    refine ⟨fun hit h => ?_, fun id hid => ⟨fun hit h => ?_, fun _ hit h hhit => ?_⟩⟩
    · rw [mem_fuse] at h
      rcases fuse_get? durableHits rows kept hit.id with
        ⟨e, -⟩ | ⟨pre, entry, post, fused, hk, -, -, e⟩
      · exact Or.inl (lastDurableHit_id (e.symm.trans h)).1
      · cases h.symm.trans e
        obtain ⟨hmem, huser, hent⟩ := hauth entry (by simp [hk])
        exact Or.inr ⟨entry, hmem, huser, rfl, rfl, hent⟩
    · rw [mem_fuse, (lastDurableHit_id h).2]
      rcases fuse_get? durableHits rows kept id with ⟨e, -⟩ | ⟨pre, entry, post, -, hk, he, -, -⟩
      · exact e.trans h
      · exact absurd he (hno hid entry (by simp [hk]))
    · rw [mem_fuse, hhit] at h
      rcases fuse_get? durableHits rows kept id with ⟨e, -⟩ | ⟨pre, entry, post, -, hk, he, -, -⟩
      · exact e.symm.trans h
      · exact absurd he (hno hid entry (by simp [hk]))

end

/-- **No phantom or foreign overlay hit.**  A hit the leg returns is a durable one, or it stems
from an entry of the requested user whose memory id is an active durable hit or that of a row
which speaks for it.  A memory id with no entry keeps its last durable hit, and no other hit is
returned under it once there is an entry to merge. -/
theorem mergeOverlayLeg_authorised {host : Host} {now : Int} {registry : OverlayRegistry}
    {userId : String} {durableHits : List SearchHit}
    {query : List String → List OverlayDurableRow}
    (hids : ∀ e ∈ (registry.snapshot now userId).1, e.userId = userId →
      extractId host (some (.str e.memoryId)) = e.memoryId) :
    let snapshot := (registry.snapshot now userId).1
    let result := (mergeOverlayLeg host now registry userId durableHits query).1
    (∀ hit ∈ result, Authorised host userId durableHits query snapshot hit) ∧
    (∀ id, (∀ e ∈ snapshot, e.memoryId ≠ id) →
      (∀ hit, lastDurableHit durableHits id = some hit → hit ∈ result) ∧
      (snapshot ≠ [] → ∀ hit ∈ result, hit.id = id →
        lastDurableHit durableHits id = some hit)) :=
  mergeSnapshot_authorised hids

/-- A row of `u` as the fallback read projects it. -/
def rowOf (id : String) : OverlayDurableRow :=
  ⟨.ok (some (.obj (.cons "id" (.str id) .nil))), .ok (some (.str "u")), .ok (some (.str "u")),
    .ok (some (.bool true)), .ok none⟩

def hitOf (id text : String) : SearchHit := ⟨id, text, 1, none, none, some true, none, .empty, none⟩

def entryOf (id text : String) : OverlayEntry :=
  ⟨id, text, ⟨"fact", id⟩, "u", 1, 5, 65, 5, true, .create⟩

/-- A registry holding `entries` for `u`. -/
def registryOf (entries : List OverlayEntry) : OverlayRegistry :=
  OverlayRegistry.serveAll ⟨8, 8⟩ (entries.map fun e => (5, .put "u" e.lockKey e))

theorem mergeOverlayLeg_authorised_fallback :
    let result := (mergeOverlayLeg .ascii 6 (registryOf [entryOf "m" "new"]) "u" []
      fun ids => ids.map rowOf).1
    result.map (·.text) = ["new"] ∧
      ∀ hit ∈ result, Authorised .ascii "u" [] (fun ids => ids.map rowOf)
        ((registryOf [entryOf "m" "new"]).snapshot 6 "u").1 hit :=
  ⟨by decide +kernel, (mergeOverlayLeg_authorised (by decide +kernel)).1⟩

/-- Of two durable hits with one id the earlier is dropped, once the overlay has an entry for some
other memory; and an entry whose id is what a second `extractId` makes of another requested row's
id is returned on the word of that row. -/
theorem merge_drops_and_admits :
    (hitOf "m" "first" ∉ (mergeOverlayLeg .ascii 6 (registryOf [entryOf "other" "new"]) "u"
        [hitOf "m" "first", hitOf "m" "second"] fun _ => []).1 ∧
      ∀ e ∈ ((registryOf [entryOf "other" "new"]).snapshot 6 "u").1, e.memoryId ≠ "m") ∧
    (mergeOverlayLeg .ascii 6 (registryOf [entryOf "a:b" "new", entryOf "b" "gone"]) "u" []
        fun _ => [rowOf "a:b"]).1.map (fun hit => (hit.id, hit.text)) = [("b", "gone")] := by
  decide +kernel

end Runir
