import Runir.Store.ProtectedSupersede

/-!
# Store — What a protected supersede is reconciled as

* `DriftFree`: the caller's metadata gives a created replacement none of the stale flags, and its id
  is read back as the id it was given.
* `Reconciles`: the committed rows are the expected ones, and a reading is classified as committed
  or as rolled back exactly when it is the same as the committed rows or as the preflight.
* `supersede_reconciles_iff`: a supersede reconciles exactly when it updates a replacement or is
  free of drift.

Values are the same as `sameMetadataValue` has it: a date and its text are, and a record id and the
id in it.
-/

namespace Runir

variable {row : MemoryRow}

variable {snapshot : SupersedeMetadataSnapshot}

section
variable {host : Host} {recordJson : String → String}

/-! ### Values -/

theorem sameMetadataValue_iff {left right : MetadataValue} :
    sameMetadataValue host recordJson left right = true ↔
      canonicalMetadataValue host recordJson left = canonicalMetadataValue host recordJson right ∨
        sameRecord host left right = true ∨ sameRecord host right left = true := by
  rw [sameMetadataValue, Bool.or_eq_true, Bool.or_eq_true, decide_eq_true_eq, or_assoc]

theorem sameMetadataValue_self (v : MetadataValue) : sameMetadataValue host recordJson v v = true :=
  sameMetadataValue_iff.mpr (Or.inl rfl)

/-- A date and the text of a date are told apart as two dates are. -/
theorem same_date_text (a b : Int) :
    sameMetadataValue host recordJson (.date a) (.text (Date.toISOString b)) =
      sameMetadataValue host recordJson (.date a) (.date b) := by
  rw [Bool.eq_iff_iff, sameMetadataValue_iff, sameMetadataValue_iff]
  exact Iff.rfl

/-- An activity is not the same as both values. -/
theorem not_same_active (active : Option Bool)
    (h : sameMetadataValue host recordJson (.ofOption (active.map .bool)) (.plain (.bool true)) = true) :
    sameMetadataValue host recordJson (.ofOption (active.map .bool)) (.plain (.bool false)) =
      false := by
  rcases active with _ | _ | _
  · simp [sameMetadataValue, sameRecord, MetadataValue.id?, canonicalMetadataValue,
      MetadataValue.ofOption, Host.stringOf]
  · simp [sameMetadataValue, sameRecord, MetadataValue.id?, canonicalMetadataValue,
      MetadataValue.ofOption, Host.stringOf] at h
  · simp [sameMetadataValue, sameRecord, MetadataValue.id?, canonicalMetadataValue,
      MetadataValue.ofOption, Host.stringOf]

variable (host recordJson) in
/-- No value of a row tells it from an absent one. -/
def ReadsAsAbsent (v : Option Value) : Prop :=
  ∀ x : Option Value, sameMetadataValue host recordJson (.ofOption x) (.ofOption v) =
    sameMetadataValue host recordJson (.ofOption x) .absent

/-! ### Snapshots -/

variable {left right : SupersedeMetadataSnapshot}

theorem same_some_iff :
    sameSupersedeSnapshot host recordJson (some left) (some right) = true ↔
      ∀ f, sameMetadataValue host recordJson (left f) (right f) = true := by
  rw [sameSupersedeSnapshot, List.all_eq_true]
  exact ⟨fun h f => h f f.mem_all, fun h f _ => h f⟩

theorem sameSupersedeSnapshot_self (s : Option SupersedeMetadataSnapshot) :
    sameSupersedeSnapshot host recordJson s s = true := by
  cases s with
  | none => rfl
  | some s => exact same_some_iff.mpr fun f => sameMetadataValue_self (s f)

/-- No reading of the id tells the two snapshots apart. -/
def ReadAlike (host : Host) (recordJson : String → String) (id : String)
    (left right : SupersedeMetadataSnapshot) : Prop :=
  ∀ row f, sameMetadataValue host recordJson (supersedeMetadata id row f) (left f) =
    sameMetadataValue host recordJson (supersedeMetadata id row f) (right f)

theorem ReadAlike.same_eq {id : String}
    (h : ReadAlike host recordJson id left right) (rows : Rows) :
    sameSupersedeSnapshot host recordJson (readSupersedeMetadata rows id) (some left) =
      sameSupersedeSnapshot host recordJson (readSupersedeMetadata rows id) (some right) := by
  unfold readSupersedeMetadata
  cases rows.get? id with
  | none => rfl
  | some row =>
      rw [Option.map_some, Bool.eq_iff_iff, same_some_iff, same_some_iff]
      exact forall_congr' fun f => by rw [h row f]

/-- Snapshots that differ in the form of `updated_at` at most. -/
theorem readAlike_of_eq {id : String} {now : Int} (h : ∀ f, f ≠ .updatedAt → left f = right f)
    (hleft : left .updatedAt = .text (Date.toISOString now)) (hright : right .updatedAt = .date now) :
    ReadAlike host recordJson id left right := by
  intro row f
  by_cases hf : f = .updatedAt
  · rw [hf, hleft, hright]
    exact same_date_text _ now
  · rw [h f hf]

theorem sameSupersedeBranch_iff {id : String} :
    sameSupersedeBranch snapshot id row = true ↔
      ∀ f, f ≠ .id → supersedeMetadata id row f = snapshot f := by
  rw [sameSupersedeBranch, List.all_eq_true]
  simp only [Bool.or_eq_true, decide_eq_true_eq]
  exact ⟨fun h f hf => (h f f.mem_all).resolve_left hf, fun h f _ => or_iff_not_imp_left.mpr (h f)⟩

end

/-! ### Preflight -/

/-- What a preflight has found. -/
structure PreflightFound (input : ProtectedMemorySupersedeInput)
    (preflight : ProtectedSupersedePreflight) : Prop where
  ne : input.replacement.id ≠ input.previousId
  previousId : preflight.previous .id = .record input.previousId
  active : preflight.previous .active = .plain (.bool true)
  replacementId : ∀ s, preflight.replacement = some s → s .id = .record input.replacement.id

theorem found_of_preflight {incomingLineage : ProcessingLineageV1} {targetUserId : String}
    {guardFailed : Option String} {guardRows previousRows replacementRows : Rows}
    {input : ProtectedMemorySupersedeInput} {preflight : ProtectedSupersedePreflight}
    (h : protectedSupersedePreflight incomingLineage targetUserId guardFailed guardRows previousRows
      replacementRows input = .ok preflight) : PreflightFound input preflight := by
  have hid : ∀ {rows : Rows} {id s}, readSupersedeMetadata rows id = some s → s .id = .record id := by
    intro rows id s hs
    obtain ⟨row, -, rfl⟩ := Option.map_eq_some_iff.mp hs
    rfl
  unfold protectedSupersedePreflight at h
  simp only at h
  split at h
  · cases h
  · next hne =>
      split at h
      · cases h
      · split at h
        · cases h
        · split at h
          · cases h
          · split at h
            · cases h
            · next previous hprevious =>
                split at h
                · cases h
                · next hactive =>
                    split at h
                    · cases h
                    · split at h
                      · cases h
                      · cases h
                      · obtain rfl := Except.ok.inj h
                        refine ⟨fun heq => hne (Or.inl heq), hid hprevious,
                          not_not.mp fun hna => hactive (Or.inr hna), fun s hs => hid hs⟩

/-! ### Written rows -/

section
variable {host : Host} {recordJson : String → String} {now : Int}
  {input : ProtectedMemorySupersedeInput} {preflight : ProtectedSupersedePreflight}

/-- The previous row, written over the row the preflight has found, is the expected one. -/
theorem readAlike_previous (hfound : PreflightFound input preflight)
    (hbranch : sameSupersedeBranch preflight.previous input.previousId row = true) :
    ReadAlike host recordJson input.previousId (expectedPrevious now input preflight)
      (supersedeMetadata input.previousId (setProtectedPrevious now input preflight row)) := by
  have hsame := sameSupersedeBranch_iff.mp hbranch
  have hpayload : ∀ k, (setProtectedPrevious now input preflight row).payloadValue k =
      .ofOption ((setProtectedPrevious now input preflight row).payload.get? k) := fun _ => rfl
  refine readAlike_of_eq (fun f hf => ?_) rfl rfl
  cases f
  case id => exact hfound.previousId
  case updatedAt => exact absurd rfl hf
  case payloadIsStale | payloadStaleSince | payloadContradictedBy =>
    rw [supersedeMetadata, hpayload, setProtectedPrevious, expectedPrevious]
    cases hflags : input.previousStaleFlags with
    | some flags => simp [setStale, get?_setProp, MetadataValue.ofOption, MetadataValue.text]
    | none =>
        rw [← hsame _ (by decide)]
        simp [setStale, get?_setProp, supersedeMetadata, MemoryRow.payloadValue]
  case payloadActive | payloadInactiveAt | payloadInactiveReason | payloadSupersededById |
      payloadLineageRootId | payloadSupersedeProvenance | payloadUpdatedAt =>
    rw [supersedeMetadata, hpayload, setProtectedPrevious, expectedPrevious]
    cases input.previousStaleFlags <;>
      simp [setStale, get?_setProp, MetadataValue.ofOption, MetadataValue.text]
  case payloadUserId | payloadSupersedesId | payloadWriteSource | payloadArbitrationOutcome =>
    rw [supersedeMetadata, hpayload, setProtectedPrevious, expectedPrevious, ← hsame _ (by decide)]
    · cases input.previousStaleFlags <;>
        simp [setStale, get?_setProp, supersedeMetadata, MemoryRow.payloadValue]
    all_goals exact fun h => nomatch h
  case userId | supersedes => exact (hsame _ (by decide)).symm
  all_goals rfl

/-- So is a replacement that was there. -/
theorem readAlike_existing (hid : snapshot .id = .record input.replacement.id)
    (hbranch : sameSupersedeBranch snapshot input.replacement.id row = true) :
    ReadAlike host recordJson input.replacement.id (expectedExisting now input preflight snapshot)
      (supersedeMetadata input.replacement.id (setProtectedReplacement now input preflight row)) := by
  have hsame := sameSupersedeBranch_iff.mp hbranch
  refine readAlike_of_eq (fun f hf => ?_) rfl rfl
  cases f
  case id => exact hid
  case updatedAt => exact absurd rfl hf
  case payloadSupersedesId | payloadLineageRootId | payloadUpdatedAt | payloadWriteSource |
      payloadArbitrationOutcome | payloadSupersedeProvenance =>
    simp [supersedeMetadata, MemoryRow.payloadValue, setProtectedReplacement, expectedExisting,
      get?_setProp, MetadataValue.ofOption, MetadataValue.text]
  case payloadUserId | payloadActive | payloadInactiveAt | payloadInactiveReason |
      payloadSupersededById | payloadIsStale | payloadStaleSince | payloadContradictedBy =>
    refine (hsame _ (by decide)).symm.trans ?_
    simp [supersedeMetadata, MemoryRow.payloadValue, setProtectedReplacement, get?_setProp]
  case userId | active | supersededBy | inactiveAt | inactiveReason =>
    exact (hsame _ (by decide)).symm
  all_goals rfl

/-- The properties the writer puts back. -/
def writerProps (now : Int) (text userId : String) (scope : MemoryScope) (sessionId : Option String)
    (lifecycle : MemoryLifecycleState) : List (String × Option Value) :=
  [("l2", some (.str text)), ("userId", some (.str userId)),
    ("createdAt", some (.str (Date.toISOString now))),
    ("updatedAt", some (.str (Date.toISOString now))), ("source", some (.str "memory-hybrid")),
    ("scope", some (.str scope.text)), ("sessionId", sessionId.map .str),
    ("active", some (.bool lifecycle.active)), ("inactiveAt", lifecycle.inactiveAt.map .str),
    ("inactiveReason", lifecycle.inactiveReason.map .str),
    ("supersededById", lifecycle.supersededById.map .str),
    ("supersedesId", lifecycle.supersedesId.map .str),
    ("lineageRootId", lifecycle.lineageRootId.map .str)]

theorem get?_foldl_setProp {props : List (String × Option Value)} (h : (props.map Prod.fst).Nodup)
    (payload : OrdMap String Value) (k : String) :
    (props.foldl (fun payload e => setProp e.1 e.2 payload) payload).get? k =
      (OrdMap.find k props).getD (payload.get? k) := by
  induction props generalizing payload with
  | nil => rfl
  | cons e props ih =>
      rw [List.map_cons, List.nodup_cons] at h
      rw [List.foldl_cons, ih h.2, get?_setProp, OrdMap.find]
      by_cases hk : e.1 = k
      · have hnone : OrdMap.find k props = none := by
          rw [← Option.not_isSome_iff_eq_none, OrdMap.isSome_find]
          exact hk ▸ h.1
        rw [if_pos hk, if_pos hk.symm, hnone]
        rfl
      · rw [if_neg hk, if_neg (Ne.symm hk)]

variable {k : String}

/-- A created payload has the writer's properties, and else the caller's. -/
theorem get?_composeProtectedPayload {text userId : String} {metadata : Option Metadata}
    {scope : MemoryScope} {sessionId : Option String} {lifecycle : MemoryLifecycleState}
    (hpinned : k ≠ "pinnedAt") (hlineage : k ≠ "processing_lineage") :
    (composeProtectedPayload now text userId metadata scope sessionId lifecycle).get? k =
      (OrdMap.find k (writerProps now text userId scope sessionId lifecycle)).getD
        ((metadata.getD .empty).get? k) := by
  have hpin : ∀ payload : OrdMap String Value,
      (if payload.get? "pinnedAt" = some .null then payload.erase "pinnedAt" else payload).get? k =
        payload.get? k := by
    intro payload
    split
    · rw [OrdMap.get?_erase, if_neg hpinned]
    · rfl
  have hkeys : ((writerProps now text userId scope sessionId lifecycle).map Prod.fst).Nodup := by
    change ["l2", "userId", "createdAt", "updatedAt", "source", "scope", "sessionId", "active",
      "inactiveAt", "inactiveReason", "supersededById", "supersedesId", "lineageRootId"].Nodup
    decide
  have hfold := get?_foldl_setProp hkeys
    ((spread (basePayload now text userId scope sessionId lifecycle)
      (metadata.getD .empty)).erase "processing_lineage") k
  rw [OrdMap.get?_erase, if_neg hlineage, get?_spread] at hfold
  rw [composeProtectedPayload]
  refine (hpin _).trans (hfold.trans ?_)
  cases hfind : OrdMap.find k (writerProps now text userId scope sessionId lifecycle) with
  | some v => rfl
  | none =>
      -- the defaults have the same names
      have hbase : (basePayload now text userId scope sessionId lifecycle).get? k = none := by
        have hnot : k ∉ (writerProps now text userId scope sessionId lifecycle).map Prod.fst := by
          rw [← OrdMap.isSome_find, hfind]
          exact Bool.false_ne_true
        simp only [writerProps, List.map_cons, List.map_nil, List.mem_cons, List.not_mem_nil,
          or_false, not_or] at hnot
        simp [get?_basePayload, OrdMap.find_append, OrdMap.find, find_optionalProp, hnot, eq_comm]
      rw [Option.getD_none, Option.getD_none, hbase, Option.or_none]

/-- The stale flags of the projection, with their names in the payload. -/
def SnapshotField.staleKey : SnapshotField → Option String
  | .payloadIsStale => some "isStale"
  | .payloadStaleSince => some "staleSince"
  | .payloadContradictedBy => some "contradictedBy"
  | _ => none

variable {f : SnapshotField}

theorem supersedeMetadata_staleKey (hf : f.staleKey = some k)
    (id : String) (row : MemoryRow) : supersedeMetadata id row f = .ofOption (row.payload.get? k) := by
  cases f
  case payloadIsStale | payloadStaleSince | payloadContradictedBy =>
    obtain rfl := Option.some.inj hf
    rfl
  all_goals cases hf

/-- A flag of the payload is read in its own field only. -/
theorem supersedeMetadata_setProp {f g : SnapshotField} (hf : f.staleKey = some k)
    (hne : g ≠ f) (id : String) (row : MemoryRow) (v : Option Value) :
    supersedeMetadata id { row with payload := setProp k v row.payload } g =
      supersedeMetadata id row g := by
  cases f
  case payloadIsStale | payloadStaleSince | payloadContradictedBy =>
    obtain rfl := Option.some.inj hf
    cases g <;> first
      | rfl
      | exact absurd rfl hne
      | simp [supersedeMetadata, MemoryRow.payloadValue, get?_setProp]
  all_goals cases hf

theorem expectedCreated_staleKey (hf : f.staleKey = some k) :
    expectedCreated now input preflight f = .absent := by
  cases f
  case payloadIsStale | payloadStaleSince | payloadContradictedBy => rfl
  all_goals cases hf

/-- The stamps of a supersede. -/
def supersedeStamps (input : ProtectedMemorySupersedeInput) : List (String × Value) :=
  [("writeSource", .str input.replacement.writeSource), ("arbitrationOutcome", .str "supersede"),
    ("supersede_provenance", .str input.supersedeProvenance.text)]

theorem get?_protectedMetadata (k : String) :
    (protectedMetadata input).get? k =
      (OrdMap.find k (supersedeStamps input)).or ((input.replacement.metadata.getD .empty).get? k) := by
  have hkeys : ["writeSource", "arbitrationOutcome", "supersede_provenance"].Nodup := by decide
  rw [protectedMetadata, get?_spread, OrdMap.get?_ofList_of_nodup]
  · rfl
  · exact hkeys

/-- What a created replacement has in its payload. -/
theorem get?_created (hpinned : k ≠ "pinnedAt") (hlineage : k ≠ "processing_lineage") :
    (createdReplacement host now input preflight).payload.get? k =
      (OrdMap.find k (writerProps now input.replacement.text input.replacement.userId
          input.replacement.scope input.replacement.sessionId
          { active := true
            supersedesId := some input.previousId
            lineageRootId := some preflight.lineageRootId })).getD
        ((OrdMap.find k (supersedeStamps input)).or
          ((input.replacement.metadata.getD .empty).get? k)) := by
  rw [← get?_protectedMetadata]
  exact get?_composeProtectedPayload hpinned hlineage

/-- The flags of a created replacement are the caller's. -/
theorem created_staleKey (hf : f.staleKey = some k) :
    supersedeMetadata input.replacement.id (createdReplacement host now input preflight) f =
      .ofOption ((input.replacement.metadata.getD .empty).get? k) := by
  rw [supersedeMetadata_staleKey hf]
  cases f
  case payloadIsStale | payloadStaleSince | payloadContradictedBy =>
    obtain rfl := Option.some.inj hf
    rw [get?_created (by decide) (by decide)]
    rfl
  all_goals cases hf

/-- The other fields of a created replacement, but for the forms of its id and its date, are as
expected. -/
theorem created_eq (host : Host) (hstale : f.staleKey = none) (hid : f ≠ .id)
    (hupdated : f ≠ .updatedAt) :
    expectedCreated now input preflight f =
      supersedeMetadata input.replacement.id (createdReplacement host now input preflight) f := by
  cases f
  case id => exact absurd rfl hid
  case updatedAt => exact absurd rfl hupdated
  case payloadIsStale | payloadStaleSince | payloadContradictedBy => cases hstale
  case payloadUserId | payloadActive | payloadInactiveAt | payloadInactiveReason |
      payloadSupersededById | payloadSupersedesId | payloadLineageRootId |
      payloadSupersedeProvenance | payloadUpdatedAt | payloadWriteSource |
      payloadArbitrationOutcome =>
    rw [supersedeMetadata, MemoryRow.payloadValue, get?_created (by decide) (by decide)]
    rfl
  all_goals rfl

/-- The rows a committed transaction has written, and what it has checked of them. -/
structure CommittedRows (host : Host) (now : Int) (input : ProtectedMemorySupersedeInput)
    (preflight : ProtectedSupersedePreflight) (rows' : Rows) (previous replacement : MemoryRow) :
    Prop where
  previousRead : readSupersedeMetadata rows' input.previousId =
    some (supersedeMetadata input.previousId (setProtectedPrevious now input preflight previous))
  previousBranch : sameSupersedeBranch preflight.previous input.previousId previous = true
  replacementRow : rows'.get? input.replacement.id = some replacement
  replacement :
    (preflight.replacement = none ∧ replacement = createdReplacement host now input preflight) ∨
      ∃ snapshot row, preflight.replacement = some snapshot ∧
        sameSupersedeBranch snapshot input.replacement.id row = true ∧
        replacement = setProtectedReplacement now input preflight row

theorem exists_committed {rows rows' : Rows} (hfound : PreflightFound input preflight)
    (h : protectedSupersedeTransaction host now input preflight rows = some rows') :
    ∃ previous replacement, CommittedRows host now input preflight rows' previous replacement := by
  obtain ⟨written, hwritten, hprevious⟩ := Option.bind_eq_some_iff.mp h
  unfold writePrevious at hprevious
  split at hprevious
  · cases hprevious
  · next previous _ =>
      split at hprevious
      · next hbranch =>
          obtain rfl := Option.some.inj hprevious
          have hread : ∀ replacement, written.get? input.replacement.id = some replacement →
              (written.set input.previousId
                (setProtectedPrevious now input preflight previous)).get? input.replacement.id =
                some replacement := fun replacement hr =>
            (OrdMap.get?_set_ne written _ hfound.ne).trans hr
          have hpreviousRead : readSupersedeMetadata (written.set input.previousId
              (setProtectedPrevious now input preflight previous)) input.previousId =
              some (supersedeMetadata input.previousId
                (setProtectedPrevious now input preflight previous)) := by
            rw [readSupersedeMetadata, OrdMap.get?_set_self]
            rfl
          unfold writeReplacement at hwritten
          simp only at hwritten
          split at hwritten
          · next snapshot row hsnapshot _ =>
              split at hwritten
              · next hreplacement =>
                  obtain rfl := Option.some.inj hwritten
                  exact ⟨previous, _, hpreviousRead, hbranch,
                    hread _ (OrdMap.get?_set_self rows _ _),
                    Or.inr ⟨snapshot, row, hsnapshot, hreplacement, rfl⟩⟩
              · cases hwritten
          · next hnone _ =>
              obtain rfl := Option.some.inj hwritten
              exact ⟨previous, _, hpreviousRead, hbranch, hread _ (OrdMap.get?_set_self rows _ _),
                Or.inl ⟨hnone, rfl⟩⟩
          · cases hwritten
      · cases hprevious

/-! ### Reconciliation -/

/-- **The reconciliation matches the transaction.**  Its two readings are each of a table of their
own. -/
structure Reconciles (host : Host) (recordJson : String → String) (now : Int)
    (input : ProtectedMemorySupersedeInput) (preflight : ProtectedSupersedePreflight)
    (committedRows : Rows) : Prop where
  expected :
    sameSupersedeSnapshot host recordJson (readSupersedeMetadata committedRows input.previousId)
        (some (protectedSupersedeExpectedState now input preflight).previous) = true ∧
      sameSupersedeSnapshot host recordJson
        (readSupersedeMetadata committedRows input.replacement.id)
        (some (protectedSupersedeExpectedState now input preflight).replacement) = true
  committed : ∀ after after' : Rows,
    supersedeOutcome host now input preflight recordJson
        (readSupersedeMetadata after input.previousId)
        (readSupersedeMetadata after' input.replacement.id) = .committed ↔
      sameSupersedeSnapshot host recordJson (readSupersedeMetadata after input.previousId)
          (readSupersedeMetadata committedRows input.previousId) = true ∧
        sameSupersedeSnapshot host recordJson (readSupersedeMetadata after' input.replacement.id)
          (readSupersedeMetadata committedRows input.replacement.id) = true
  rolledBack : ∀ after after' : Rows,
    supersedeOutcome host now input preflight recordJson
        (readSupersedeMetadata after input.previousId)
        (readSupersedeMetadata after' input.replacement.id) = .rolledBack ↔
      sameSupersedeSnapshot host recordJson (readSupersedeMetadata after input.previousId)
          (some preflight.previous) = true ∧
        sameSupersedeSnapshot host recordJson (readSupersedeMetadata after' input.replacement.id)
          preflight.replacement = true

/-- The caller gives a created replacement no stale flag, and an id that is read back. -/
structure DriftFree (host : Host) (recordJson : String → String)
    (input : ProtectedMemorySupersedeInput) : Prop where
  id : sameMetadataValue host recordJson (.record input.replacement.id)
    (.text input.replacement.id) = true
  flags : ∀ k ∈ ["isStale", "staleSince", "contradictedBy"],
    ReadsAsAbsent host recordJson ((input.replacement.metadata.getD .empty).get? k)

theorem supersedeOutcome_eq (hne : input.replacement.id ≠ input.previousId)
    (previous replacement : Option SupersedeMetadataSnapshot) :
    supersedeOutcome host now input preflight recordJson previous replacement =
      if (sameSupersedeSnapshot host recordJson previous
            (some (protectedSupersedeExpectedState now input preflight).previous) &&
          sameSupersedeSnapshot host recordJson replacement
            (some (protectedSupersedeExpectedState now input preflight).replacement)) = true then
        .committed
      else if (sameSupersedeSnapshot host recordJson previous (some preflight.previous) &&
          sameSupersedeSnapshot host recordJson replacement preflight.replacement) = true then
        .rolledBack
      else .inconsistentOrUnresolved := by
  unfold supersedeOutcome
  simp only [if_neg hne]
  cases preflight.replacement with
  | none =>
      cases replacement with
      | none => rfl
      | some s => rfl
  | some snapshot => rfl

variable {previous replacement : Option SupersedeMetadataSnapshot}

theorem outcome_committed_iff (hne : input.replacement.id ≠ input.previousId) :
    supersedeOutcome host now input preflight recordJson previous replacement = .committed ↔
      sameSupersedeSnapshot host recordJson previous
          (some (protectedSupersedeExpectedState now input preflight).previous) = true ∧
        sameSupersedeSnapshot host recordJson replacement
          (some (protectedSupersedeExpectedState now input preflight).replacement) = true := by
  rw [supersedeOutcome_eq hne, ← Bool.and_eq_true]
  split
  · next h => exact iff_of_true rfl h
  · next h =>
      split
      · exact iff_of_false (fun hc => (nomatch hc)) h
      · exact iff_of_false (fun hc => (nomatch hc)) h

theorem outcome_rolledBack_iff (hne : input.replacement.id ≠ input.previousId) :
    supersedeOutcome host now input preflight recordJson previous replacement = .rolledBack ↔
      (sameSupersedeSnapshot host recordJson previous (some preflight.previous) = true ∧
        sameSupersedeSnapshot host recordJson replacement preflight.replacement = true) ∧
      supersedeOutcome host now input preflight recordJson previous replacement ≠ .committed := by
  rw [supersedeOutcome_eq hne, ← Bool.and_eq_true]
  split
  · exact iff_of_false (fun h => (nomatch h)) fun h => h.2 rfl
  · split
    · next h => exact iff_of_true rfl ⟨h, fun hc => (nomatch hc)⟩
    · next h => exact iff_of_false (fun hc => (nomatch hc)) fun hc => h hc.1

/-- A reading of the previous row is not the same as both sides of the supersede. -/
theorem not_expected_of_preflight (now : Int) (hfound : PreflightFound input preflight) {rows : Rows}
    (h : sameSupersedeSnapshot host recordJson (readSupersedeMetadata rows input.previousId)
      (some preflight.previous) = true) :
    sameSupersedeSnapshot host recordJson (readSupersedeMetadata rows input.previousId)
      (some (expectedPrevious now input preflight)) = false := by
  unfold readSupersedeMetadata at h ⊢
  cases hrow : rows.get? input.previousId with
  | none => rfl
  | some row =>
      rw [hrow, Option.map_some, same_some_iff] at h
      rw [Option.map_some, Bool.eq_false_iff, ne_eq, same_some_iff]
      intro hall
      have hactive := h .active
      rw [hfound.active] at hactive
      have hfalse := not_same_active row.active hactive
      rw [show sameMetadataValue host recordJson (.ofOption (row.active.map .bool))
        (.plain (.bool false)) = true from hall .active] at hfalse
      cases hfalse

theorem reconciles_of_readAlike {rows' : Rows} {previous replacement : MemoryRow}
    (hfound : PreflightFound input preflight)
    (h : CommittedRows host now input preflight rows' previous replacement)
    (halike : ReadAlike host recordJson input.replacement.id
      (protectedSupersedeExpectedState now input preflight).replacement
      (supersedeMetadata input.replacement.id replacement)) :
    Reconciles host recordJson now input preflight rows' := by
  have hprevious : ∀ rows : Rows,
      sameSupersedeSnapshot host recordJson (readSupersedeMetadata rows input.previousId)
          (some (protectedSupersedeExpectedState now input preflight).previous) =
        sameSupersedeSnapshot host recordJson (readSupersedeMetadata rows input.previousId)
          (readSupersedeMetadata rows' input.previousId) := by
    intro rows
    rw [h.previousRead]
    exact (readAlike_previous hfound h.previousBranch).same_eq rows
  have hreplacement : ∀ rows : Rows,
      sameSupersedeSnapshot host recordJson (readSupersedeMetadata rows input.replacement.id)
          (some (protectedSupersedeExpectedState now input preflight).replacement) =
        sameSupersedeSnapshot host recordJson (readSupersedeMetadata rows input.replacement.id)
          (readSupersedeMetadata rows' input.replacement.id) := by
    intro rows
    have hread : readSupersedeMetadata rows' input.replacement.id =
        some (supersedeMetadata input.replacement.id replacement) := by
      rw [readSupersedeMetadata, h.replacementRow]
      rfl
    rw [hread]
    exact halike.same_eq rows
  refine ⟨⟨?_, ?_⟩, fun after after' => ?_, fun after after' => ?_⟩
  · rw [hprevious]
    exact sameSupersedeSnapshot_self _
  · rw [hreplacement]
    exact sameSupersedeSnapshot_self _
  · rw [outcome_committed_iff hfound.ne, hprevious, hreplacement]
  · rw [outcome_rolledBack_iff hfound.ne, and_iff_left_iff_imp]
    intro hsame hcommitted
    have hexpected := ((outcome_committed_iff hfound.ne).mp hcommitted).1
    have hnot := not_expected_of_preflight now hfound hsame.1
    rw [show sameSupersedeSnapshot host recordJson (readSupersedeMetadata after input.previousId)
      (some (expectedPrevious now input preflight)) = true from hexpected] at hnot
    cases hnot

theorem readAlike_created (h : DriftFree host recordJson input) :
    ReadAlike host recordJson input.replacement.id (expectedCreated now input preflight)
      (supersedeMetadata input.replacement.id (createdReplacement host now input preflight)) := by
  intro row f
  by_cases hid : f = .id
  · subst hid
    exact h.id.trans (sameMetadataValue_self _).symm
  by_cases hupdated : f = .updatedAt
  · subst hupdated
    exact same_date_text row.updatedAt now
  cases hstale : f.staleKey with
  | none => rw [created_eq host hstale hid hupdated]
  | some k =>
      have hkey : k ∈ ["isStale", "staleSince", "contradictedBy"] := by
        cases f
        case payloadIsStale | payloadStaleSince | payloadContradictedBy =>
          obtain rfl := Option.some.inj hstale
          decide
        all_goals cases hstale
      rw [expectedCreated_staleKey hstale, created_staleKey hstale, supersedeMetadata_staleKey hstale]
      exact (h.flags k hkey _).symm

/-- A flag that the caller gives is read back, and not expected. -/
theorem readsAsAbsent_of_reconciles {rows' : Rows} {previous : MemoryRow}
    (hfound : PreflightFound input preflight) (hnone : preflight.replacement = none)
    (h : CommittedRows host now input preflight rows' previous
      (createdReplacement host now input preflight))
    (hr : Reconciles host recordJson now input preflight rows') (hf : f.staleKey = some k) :
    ReadsAsAbsent host recordJson ((input.replacement.metadata.getD .empty).get? k) := by
  intro x
  have hstate : (protectedSupersedeExpectedState now input preflight).replacement =
      expectedCreated now input preflight := by
    rw [protectedSupersedeExpectedState, hnone]
  have hread : readSupersedeMetadata rows' input.replacement.id =
      some (supersedeMetadata input.replacement.id (createdReplacement host now input preflight)) := by
    rw [readSupersedeMetadata, h.replacementRow]
    rfl
  have hexpected := hr.expected.2
  rw [hread, hstate, same_some_iff] at hexpected
  -- the committed row, with another value of the flag
  generalize hother : ({ createdReplacement host now input preflight with
    payload := setProp k x (createdReplacement host now input preflight).payload } : MemoryRow) =
    other
  have hotherRead : readSupersedeMetadata (rows'.set input.replacement.id other)
      input.replacement.id = some (supersedeMetadata input.replacement.id other) := by
    rw [readSupersedeMetadata, OrdMap.get?_set_self]
    rfl
  have hflag : supersedeMetadata input.replacement.id other f = .ofOption x := by
    rw [supersedeMetadata_staleKey hf, ← hother, get?_setProp, if_pos rfl]
  have hrest : ∀ g, g ≠ f → supersedeMetadata input.replacement.id other g =
      supersedeMetadata input.replacement.id (createdReplacement host now input preflight) g :=
    fun g hg => hother ▸ supersedeMetadata_setProp hf hg _ _ x
  have hsame : ∀ {right : SupersedeMetadataSnapshot},
      (∀ g, g ≠ f → sameMetadataValue host recordJson
        (supersedeMetadata input.replacement.id (createdReplacement host now input preflight) g)
        (right g) = true) →
      (sameSupersedeSnapshot host recordJson
          (some (supersedeMetadata input.replacement.id other)) (some right) = true ↔
        sameMetadataValue host recordJson (.ofOption x) (right f) = true) := by
    intro right hright
    rw [same_some_iff]
    refine ⟨fun hall => hflag ▸ hall f, fun hx g => ?_⟩
    by_cases hg : g = f
    · rw [hg, hflag]
      exact hx
    · rw [hrest g hg]
      exact hright g hg
  have hcommitted := hr.committed rows' (rows'.set input.replacement.id other)
  rw [outcome_committed_iff hfound.ne, and_iff_right hr.expected.1,
    and_iff_right (sameSupersedeSnapshot_self _), hotherRead, hread, hstate,
    hsame fun g _ => hexpected g, hsame fun g _ => sameMetadataValue_self _,
    expectedCreated_staleKey hf, created_staleKey hf] at hcommitted
  exact Bool.eq_iff_iff.mpr hcommitted.symm

end

/-- **The exact guard.**  Whatever the preflight has read, and at whatever table the transaction
commits, the reconciliation matches it exactly when the replacement was there already or is created
free of drift. -/
theorem supersede_reconciles_iff (host : Host) (recordJson : String → String) (now : Int)
    (incomingLineage : ProcessingLineageV1) (targetUserId : String) (guardFailed : Option String)
    (guardRows previousRows replacementRows : Rows) (input : ProtectedMemorySupersedeInput)
    (preflight : ProtectedSupersedePreflight)
    (hpreflight : protectedSupersedePreflight incomingLineage targetUserId guardFailed guardRows
      previousRows replacementRows input = .ok preflight)
    (rows committedRows : Rows)
    (hcommit : protectedSupersedeTransaction host now input preflight rows = some committedRows) :
    Reconciles host recordJson now input preflight committedRows ↔
      preflight.replacement.isSome = true ∨ DriftFree host recordJson input := by
  have hfound := found_of_preflight hpreflight
  obtain ⟨previous, replacement, h⟩ := exists_committed hfound hcommit
  rcases h.replacement with ⟨hnone, rfl⟩ | ⟨snapshot, row, hsnapshot, hbranch, rfl⟩
  · have hstate : (protectedSupersedeExpectedState now input preflight).replacement =
        expectedCreated now input preflight := by
      rw [protectedSupersedeExpectedState, hnone]
    rw [hnone, Option.isSome_none]
    constructor
    · refine fun hr => Or.inr ⟨?_, fun k hk => ?_⟩
      · have hexpected := hr.expected.2
        rw [readSupersedeMetadata, h.replacementRow, hstate] at hexpected
        exact same_some_iff.mp hexpected .id
      · have hfield : ∃ f : SnapshotField, f.staleKey = some k := by
          simp only [List.mem_cons, List.not_mem_nil, or_false] at hk
          rcases hk with rfl | rfl | rfl
          · exact ⟨.payloadIsStale, rfl⟩
          · exact ⟨.payloadStaleSince, rfl⟩
          · exact ⟨.payloadContradictedBy, rfl⟩
        obtain ⟨f, hf⟩ := hfield
        exact readsAsAbsent_of_reconciles hfound hnone h hr hf
    · rintro (hsome | hfree)
      · cases hsome
      · exact reconciles_of_readAlike hfound h (hstate ▸ readAlike_created hfree)
  · have hstate : (protectedSupersedeExpectedState now input preflight).replacement =
        expectedExisting now input preflight snapshot := by
      rw [protectedSupersedeExpectedState, hsnapshot]
    rw [hsnapshot]
    refine iff_of_true (reconciles_of_readAlike hfound h ?_) (Or.inl rfl)
    rw [hstate]
    exact readAlike_existing (hfound.replacementId snapshot hsnapshot) hbranch

/-! ### A replacement created with metadata -/

def profileLineage : ProcessingLineageV1 where
  state := .minniVerified
  origin := .minni
  producerPrincipalRef := "principal"
  producerRegistrationRef := "registration"
  processingPolicyVersion := .minniLocalV1
  admittedOperation := .captureIngest
  targetUserId := "ann"
  delivery := ⟨.minniDeliveryV1, .ordinary, []⟩

def oldProfile : MemoryRow :=
  composeProtectedCreateMemory .ascii 0 "Ann lives in Oslo" "ann" [1] none .user none
    { active := true } profileLineage

def profileRows : Rows := .ofList [("old", oldProfile)]

def profileSupersede (metadata : Metadata) : ProtectedMemorySupersedeInput where
  previousId := "old"
  replacement :=
    { id := "new", text := "Ann lives in Bergen", userId := "ann", embedding := [1]
      metadata := some metadata }
  supersedeProvenance := .deterministic

def profilePreflight : ProtectedSupersedePreflight where
  previous := supersedeMetadata "old" oldProfile
  replacement := none
  mergedProcessingLineage := profileLineage
  lineageRootId := "old"

/-- A preflight that meets no row of the replacement. -/
theorem preflight_of_created {incomingLineage : ProcessingLineageV1} {rows : Rows}
    (input : ProtectedMemorySupersedeInput) (previous : SupersedeMetadataSnapshot)
    {merged : ProcessingLineageV1}
    (hids : ¬(input.replacement.id = input.previousId ∨ input.replacement.scope = .global))
    (htext : ¬Text.trim input.replacement.text = "")
    (hcycle : wouldCreateCycle none rows input.replacement.id input.previousId
      input.replacement.userId = false)
    (hprevious : readSupersedeMetadata rows input.previousId = some previous)
    (hown : ¬(previous .userId ≠ .text input.replacement.userId ∨
      previous .active ≠ .plain (.bool true)))
    (hreplacement : readSupersedeMetadata rows input.replacement.id = none)
    (hjoin : classifyAndJoinSupersedeLineage incomingLineage [storedLineage previous] = .ok merged)
    (hroot : previous .lineageRootId = .absent) :
    protectedSupersedePreflight incomingLineage input.replacement.userId none rows rows rows input =
      .ok ⟨previous, none, merged, input.previousId⟩ := by
  have hlineages : (previous :: (none : Option SupersedeMetadataSnapshot).toList).map
      storedLineage = [storedLineage previous] := rfl
  unfold protectedSupersedePreflight
  simp only
  rw [if_neg hids, if_neg htext, if_neg (fun h => h rfl), hcycle, if_neg Bool.false_ne_true,
    hprevious]
  simp only
  rw [if_neg hown, hreplacement, ownSnapshot, Option.all_none, if_neg (by decide),
    hlineages, hjoin, hroot]

theorem preflight_profile (metadata : Metadata) :
    protectedSupersedePreflight profileLineage "ann" none profileRows profileRows profileRows
      (profileSupersede metadata) = .ok profilePreflight := by
  have hold : profileRows.get? "old" = some oldProfile := by decide +kernel
  have hnew : profileRows.get? "new" = none := by decide +kernel
  refine preflight_of_created (profileSupersede metadata) (supersedeMetadata "old" oldProfile)
    ?_ ?_ ?_ ?_ ?_ ?_ ?_ ?_
  · change ¬("new" = "old" ∨ MemoryScope.user = .global)
    decide
  · change ¬Text.trim "Ann lives in Bergen" = ""
    decide +kernel
  · change wouldCreateCycle none profileRows "new" "old" "ann" = false
    decide +kernel
  · change (profileRows.get? "old").map (supersedeMetadata "old") = _
    rw [hold]
    rfl
  · change ¬(supersedeMetadata "old" oldProfile .userId ≠ .text "ann" ∨
      supersedeMetadata "old" oldProfile .active ≠ .plain (.bool true))
    decide +kernel
  · change (profileRows.get? "new").map (supersedeMetadata "new") = none
    rw [hnew]
    rfl
  · change classifyAndJoinSupersedeLineage profileLineage [some profileLineage.toValue] =
      .ok profileLineage
    decide +kernel
  · rfl

/-- The supersede commits, and its reconciliation matches, as long as the metadata has no flag. -/
theorem supersede_reconciles_iff_profile :
    ∃ committedRows, protectedSupersedeTransaction .ascii 1000 (profileSupersede .empty)
        profilePreflight profileRows = some committedRows ∧
      (Reconciles .ascii ("memories:" ++ ·) 1000 (profileSupersede .empty) profilePreflight
          committedRows ↔
        profilePreflight.replacement.isSome = true ∨
          DriftFree .ascii ("memories:" ++ ·) (profileSupersede .empty)) := by
  have hcommits : (protectedSupersedeTransaction .ascii 1000 (profileSupersede .empty)
      profilePreflight profileRows).isSome = true := by decide +kernel
  obtain ⟨committedRows, hcommit⟩ := Option.isSome_iff_exists.mp hcommits
  exact ⟨committedRows, hcommit, supersede_reconciles_iff _ _ _ _ _ _ _ _ _ _ _
    (preflight_profile .empty) _ _ hcommit⟩

def staleMetadata : Metadata := .ofList [("isStale", .bool false)]

/-- With a flag it commits too, and the committed rows are not classified as committed. -/
theorem supersede_misreconciled :
    ∃ preflight committedRows, protectedSupersedePreflight profileLineage "ann" none profileRows
        profileRows profileRows (profileSupersede staleMetadata) = .ok preflight ∧
      protectedSupersedeTransaction .ascii 1000 (profileSupersede staleMetadata) preflight
        profileRows = some committedRows ∧
      supersedeOutcome .ascii 1000 (profileSupersede staleMetadata) preflight ("memories:" ++ ·)
        (readSupersedeMetadata committedRows "old") (readSupersedeMetadata committedRows "new") ≠
          .committed ∧
      ¬Reconciles .ascii ("memories:" ++ ·) 1000 (profileSupersede staleMetadata) preflight
        committedRows := by
  have hcommits : (protectedSupersedeTransaction .ascii 1000 (profileSupersede staleMetadata)
      profilePreflight profileRows).isSome = true := by decide +kernel
  obtain ⟨committedRows, hcommit⟩ := Option.isSome_iff_exists.mp hcommits
  have hfound := found_of_preflight (preflight_profile staleMetadata)
  have hnot : supersedeOutcome .ascii 1000 (profileSupersede staleMetadata) profilePreflight
      ("memories:" ++ ·) (readSupersedeMetadata committedRows "old")
      (readSupersedeMetadata committedRows "new") ≠ .committed := by
    intro hcommitted
    obtain ⟨previous, replacement, h⟩ := exists_committed hfound hcommit
    have hrow : replacement = createdReplacement .ascii 1000 (profileSupersede staleMetadata)
        profilePreflight := by
      rcases h.replacement with ⟨-, hrow⟩ | ⟨snapshot, row, hsome, -⟩
      · exact hrow
      · cases hsome
    have hexpected := ((outcome_committed_iff hfound.ne).mp hcommitted).2
    have hget : committedRows.get? "new" = some replacement := h.replacementRow
    rw [readSupersedeMetadata, hget, Option.map_some, same_some_iff] at hexpected
    have hstale := hexpected .payloadIsStale
    rw [hrow, show supersedeMetadata "new" _ .payloadIsStale = _ from
      created_staleKey (f := .payloadIsStale) rfl] at hstale
    revert hstale
    decide +kernel
  refine ⟨profilePreflight, committedRows, preflight_profile _, hcommit, hnot, fun hr => ?_⟩
  exact hnot ((hr.committed committedRows committedRows).mpr
    ⟨sameSupersedeSnapshot_self _, sameSupersedeSnapshot_self _⟩)

end Runir
