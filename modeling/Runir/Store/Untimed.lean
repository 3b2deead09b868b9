import Runir.Store.SupersedeFacts

/-!
# Store — Rows apart from their timestamps

`MemoryRow.untimed` forgets the clocks of a row: its columns without `created_at`, `updated_at`
and `inactive_at`, and its payload as a function, without the properties of the same names.  On
what is left, the writers of a supersede do not depend on the clock, and linking a target twice is
linking it once.
-/

namespace Runir

/-- The payload properties that hold clocks. -/
def timeKeys : List String := ["createdAt", "updatedAt", "inactiveAt"]

/-- A row without its clocks. -/
@[ext] structure Untimed where
  columns : MemoryRow
  props : String → Option Value

def MemoryRow.untimed (row : MemoryRow) : Untimed where
  columns := { row with payload := .empty, createdAt := 0, updatedAt := 0, inactiveAt := none }
  props k := if k ∈ timeKeys then none else row.payload.get? k

/-- The properties a plan writes on its target. -/
def linkProps (p : PreparedSupersede) : List (String × Value) :=
  [("supersedesId", .str p.previousId), ("lineageRootId", .str p.lineageRootId),
    ("writeSource", .str p.replacement.writeSource), ("arbitrationOutcome", .str "supersede"),
    ("supersede_provenance", .str p.provenance.text)]

/-- A target linked to the previous row of a plan. -/
def Untimed.link (p : PreparedSupersede) (u : Untimed) : Untimed where
  columns :=
    { u.columns with
      supersedes := some p.previousId
      lineageRootId := some p.lineageRootId
      supersedeProvenance := some p.provenance }
  props k := (OrdMap.find k (linkProps p)).or (u.props k)

theorem untimed_props (row : MemoryRow) (k : String) :
    row.untimed.props k = if k ∈ timeKeys then none else row.payload.get? k := rfl

theorem Untimed.link_props (p : PreparedSupersede) (u : Untimed) (k : String) :
    (u.link p).props k = (OrdMap.find k (linkProps p)).or (u.props k) := rfl

/-- The last link decides. -/
theorem Untimed.link_link (p q : PreparedSupersede) (u : Untimed) :
    (u.link p).link q = u.link q := by
  refine Untimed.ext rfl (funext fun k => ?_)
  rw [link_props, link_props, link_props]
  cases hq : OrdMap.find k (linkProps q) with
  | some v => rfl
  | none =>
      -- both plans write the same keys
      have hp : OrdMap.find k (linkProps p) = none := by
        rw [← Option.not_isSome_iff_eq_none, OrdMap.isSome_find] at hq ⊢
        exact hq
      rw [hp]
      rfl

variable {k : String}

/-- What a target reads after it is linked. -/
theorem get?_setTarget (host : Host) (now : Int) (p : PreparedSupersede) (row : MemoryRow)
    (hk : k ∉ timeKeys) :
    (setTarget host now p row).payload.get? k =
      (OrdMap.find k (linkProps p)).or (row.payload.get? k) := by
  have hupdated : k ≠ "updatedAt" := fun h => hk (by simp [h, timeKeys])
  change (setProp "supersede_provenance" _ (setProp "arbitrationOutcome" _ (setProp "writeSource" _
    (setProp "updatedAt" _ (setProp "lineageRootId" _ (setProp "supersedesId" _ _)))))).get? k = _
  rw [get?_setProp, get?_setProp, get?_setProp, get?_setProp, if_neg hupdated, get?_setProp,
    get?_setProp]
  -- the keys of a link, one by one
  by_cases h₁ : k = "supersedesId"
  · subst h₁; rfl
  by_cases h₂ : k = "lineageRootId"
  · subst h₂; rfl
  by_cases h₃ : k = "writeSource"
  · subst h₃; rfl
  by_cases h₄ : k = "arbitrationOutcome"
  · subst h₄; rfl
  by_cases h₅ : k = "supersede_provenance"
  · subst h₅; rfl
  have hnone : OrdMap.find k (linkProps p) = none := by
    rw [← Option.not_isSome_iff_eq_none, OrdMap.isSome_find]
    simp [linkProps, h₁, h₂, h₃, h₄, h₅]
  rw [if_neg h₁, if_neg h₂, if_neg h₃, if_neg h₄, if_neg h₅, hnone]
  rfl

theorem untimed_setTarget (host : Host) (now : Int) (p : PreparedSupersede) (row : MemoryRow) :
    (setTarget host now p row).untimed = row.untimed.link p := by
  refine Untimed.ext rfl (funext fun k => ?_)
  rw [Untimed.link_props, untimed_props, untimed_props]
  by_cases hk : k ∈ timeKeys
  · have hnone : OrdMap.find k (linkProps p) = none := by
      have hcases : k = "createdAt" ∨ k = "updatedAt" ∨ k = "inactiveAt" := by
        simpa [timeKeys] using hk
      rcases hcases with rfl | rfl | rfl <;> rfl
    rw [if_pos hk, if_pos hk, hnone]
    rfl
  · rw [if_neg hk, if_neg hk, get?_setTarget host now p row hk]

theorem get?_setProp_congr {payload payload' : OrdMap String Value}
    (h : payload.get? k = payload'.get? k) (key : String) (v : Option Value) :
    (setProp key v payload).get? k = (setProp key v payload').get? k := by
  rw [get?_setProp, get?_setProp, h]

theorem get?_setProp_of_ne {k key : String} {payload : OrdMap String Value} (hk : k ≠ key)
    (v : Option Value) : (setProp key v payload).get? k = payload.get? k := by
  rw [get?_setProp, if_neg hk]

/-- A retired row does not depend on the clock. -/
theorem untimed_setPrevious (host host' : Host) (now now' : Int) (p : PreparedSupersede) (row : MemoryRow) :
    (setPrevious host now p row).untimed = (setPrevious host' now' p row).untimed := by
  have hcolumns : ∀ host now, (setPrevious host now p row).untimed.columns =
      { row.untimed.columns with
        active := some false
        inactiveReason := some p.inactiveReason
        supersededBy := some p.replacement.id
        lineageRootId := some p.lineageRootId
        supersedeProvenance := some p.provenance } := fun _ _ => rfl
  refine Untimed.ext ((hcolumns host now).trans (hcolumns host' now').symm) (funext fun k => ?_)
  rw [untimed_props, untimed_props]
  by_cases hk : k ∈ timeKeys
  · rw [if_pos hk, if_pos hk]
  · rw [if_neg hk, if_neg hk]
    have hupdated : k ≠ "updatedAt" := fun h => hk (by simp [h, timeKeys])
    have hinactive : k ≠ "inactiveAt" := fun h => hk (by simp [h, timeKeys])
    have hstale : ∀ {payload payload' : OrdMap String Value}, payload.get? k = payload'.get? k →
        (setStale p.previousStaleFlags payload).get? k =
          (setStale p.previousStaleFlags payload').get? k := by
      intro payload payload' h
      cases p.previousStaleFlags with
      | none => exact h
      | some f =>
          exact get?_setProp_congr (get?_setProp_congr (get?_setProp_congr h _ _) _ _) _ _
    refine hstale ?_
    rw [get?_setProp_of_ne hupdated, get?_setProp_of_ne hupdated]
    refine get?_setProp_congr (get?_setProp_congr (get?_setProp_congr (get?_setProp_congr ?_ _ _)
      _ _) _ _) _ _
    rw [get?_setProp_of_ne hinactive, get?_setProp_of_ne hinactive]

/-! ### Created rows -/

/-- The property a created replacement has under `k`, before its clocks. -/
def createdProp (first last : PreparedSupersede) (k : String) : Option Value :=
  (((createMetadata first last).get? k).or
    ((basePayload 0 first.replacement.text first.replacement.userId first.replacement.scope
      first.replacement.sessionId
      { active := true, supersedesId := some last.previousId,
        lineageRootId := some last.lineageRootId }).get? k)).filter fun v =>
          k ≠ "processing_lineage" && !(k = "pinnedAt" && v = .null)

/-- The defaults depend on the clock in the clocks only. -/
theorem basePayload_clock (now : Int) (text userId : String) (scope : MemoryScope)
    (sessionId : Option String) (lifecycle : MemoryLifecycleState) (hk : k ∉ timeKeys) :
    (basePayload now text userId scope sessionId lifecycle).get? k =
      (basePayload 0 text userId scope sessionId lifecycle).get? k := by
  unfold timeKeys at hk
  simp only [List.mem_cons, List.not_mem_nil, or_false, not_or] at hk
  obtain ⟨hcreated, hupdated, -⟩ := hk
  rw [get?_basePayload, get?_basePayload]
  simp only [List.cons_append, List.nil_append, OrdMap.find, if_neg (Ne.symm hcreated),
    if_neg (Ne.symm hupdated)]

/-- The payload of a created replacement, before the clocks of its transaction. -/
theorem get?_composePayload_created (now : Int) (first last : PreparedSupersede)
    (hk : k ∉ timeKeys) :
    (composePayload now first.replacement.text first.replacement.userId
      (some (createMetadata first last)) first.replacement.scope first.replacement.sessionId
      { active := true, supersedesId := some last.previousId,
        lineageRootId := some last.lineageRootId }).get? k = createdProp first last k := by
  rw [get?_composePayload, basePayload_clock _ _ _ _ _ _ hk]
  rfl

theorem get?_createdRow (host : Host) (now : Int) (first last : PreparedSupersede) (shared : Bool)
    (hk : k ∉ timeKeys) :
    (createdRow host now first last shared).payload.get? k = createdProp first last k := by
  have hcreated : k ≠ "createdAt" := fun h => hk (by simp [h, timeKeys])
  have hupdated : k ≠ "updatedAt" := fun h => hk (by simp [h, timeKeys])
  unfold createdRow
  simp only
  rw [get?_clockOverlay _ _ _ _ _ hcreated hupdated]
  exact get?_composePayload_created now first last hk

/-- A created row without its clocks: it depends neither on the clock nor on whether its target is
shared. -/
def createdUntimed (host : Host) (first last : PreparedSupersede) : Untimed where
  columns :=
    { embedding := embeddingForStore first.replacement.embedding
      payload := .empty
      textNorm := Text.trim (host.unicode.toLowerCase first.replacement.text)
      createdAt := 0
      updatedAt := 0
      userId := some first.replacement.userId
      scope := some first.replacement.scope.text
      sessionId := first.replacement.sessionId
      path := (createdProp first last "path").bind Value.str?
      memoryRole := (createdProp first last "memoryRole").bind Value.str?
      validAt := (createdProp first last "validAt").bind Value.str?
      invalidAt := (createdProp first last "invalidAt").bind Value.str?
      confidence := (createdProp first last "confidence").bind fun v =>
        match v with
        | .num q => some q
        | _ => none
      active := some true
      inactiveAt := none
      inactiveReason := none
      supersededBy := none
      supersedes := some last.previousId
      lineageRootId := some last.lineageRootId
      processingLineage := none
      supersedeProvenance := some last.provenance }
  props k := if k ∈ timeKeys then none else createdProp first last k

theorem createdUntimed_props (host : Host) (first last : PreparedSupersede) (k : String) :
    (createdUntimed host first last).props k =
      if k ∈ timeKeys then none else createdProp first last k := rfl

theorem untimed_createdRow (host : Host) (now : Int) (first last : PreparedSupersede)
    (shared : Bool) :
    (createdRow host now first last shared).untimed = createdUntimed host first last := by
  refine Untimed.ext ?_ (funext fun k => ?_)
  · have hread : ∀ {k}, k ∉ timeKeys → (composePayload now first.replacement.text
        first.replacement.userId (some (createMetadata first last)) first.replacement.scope
        first.replacement.sessionId
        { active := true, supersedesId := some last.previousId,
          lineageRootId := some last.lineageRootId }).get? k = createdProp first last k := fun hk =>
      get?_composePayload_created now first last hk
    unfold createdUntimed
    rw [← hread (by decide), ← hread (by decide), ← hread (by decide), ← hread (by decide),
      ← hread (by decide)]
    rfl
  · rw [untimed_props, createdUntimed_props]
    by_cases hk : k ∈ timeKeys
    · rw [if_pos hk, if_pos hk]
    · rw [if_neg hk, if_neg hk, get?_createdRow host now first last shared hk]

/-- The caller's metadata leaves the two links to the plan. -/
def LeavesLinks (metadata : Option Metadata) (p : PreparedSupersede) : Prop :=
  ((metadata.getD .empty).get? "supersedesId").getD (.str p.previousId) = .str p.previousId ∧
    ((metadata.getD .empty).get? "lineageRootId").getD (.str p.lineageRootId) =
      .str p.lineageRootId

instance (metadata : Option Metadata) (p : PreparedSupersede) :
    Decidable (LeavesLinks metadata p) := inferInstanceAs (Decidable (_ ∧ _))

/-- The keys a link writes. -/
def linkKeys : List String :=
  ["supersedesId", "lineageRootId", "writeSource", "arbitrationOutcome", "supersede_provenance"]

theorem find_linkProps_none (hk : k ∉ linkKeys) (p : PreparedSupersede) :
    OrdMap.find k (linkProps p) = none := by
  rw [← Option.not_isSome_iff_eq_none, OrdMap.isSome_find]
  exact hk

/-- The defaults depend on the links in the links only. -/
theorem basePayload_links (now : Int) (text userId : String) (scope : MemoryScope)
    (sessionId : Option String) (lifecycle : MemoryLifecycleState) (hk : k ∉ linkKeys) :
    (basePayload now text userId scope sessionId lifecycle).get? k =
      (basePayload now text userId scope sessionId
        { lifecycle with supersedesId := none, lineageRootId := none }).get? k := by
  have hsup : "supersedesId" ≠ k := fun h => hk (by simp [← h, linkKeys])
  have hroot : "lineageRootId" ≠ k := fun h => hk (by simp [← h, linkKeys])
  -- the links are the last two of the defaults
  rw [get?_basePayload, OrdMap.find_append, OrdMap.find_append, find_optionalProp,
    find_optionalProp, if_neg hsup, if_neg hroot, get?_basePayload, Option.or_none, Option.or_none]
  have hnone : ∀ k', optionalProp k' none = [] := fun _ => rfl
  simp only [hnone, List.append_nil]

/-- Outside the links, a created row does not depend on the plan it is linked to. -/
theorem createdProp_of_not_link (first last : PreparedSupersede) (hk : k ∉ linkKeys) :
    createdProp first last k = createdProp first first k := by
  have hstamps : ∀ p : PreparedSupersede, OrdMap.find k [("writeSource",
      Value.str p.replacement.writeSource), ("arbitrationOutcome", .str "supersede"),
      ("supersede_provenance", .str p.provenance.text)] = none := by
    intro p
    rw [← Option.not_isSome_iff_eq_none, OrdMap.isSome_find]
    exact fun h => hk (List.mem_cons_of_mem _ (List.mem_cons_of_mem _ h))
  have hbase : ∀ p : PreparedSupersede, (basePayload 0 first.replacement.text
      first.replacement.userId first.replacement.scope first.replacement.sessionId
      { active := true, supersedesId := some p.previousId,
        lineageRootId := some p.lineageRootId }).get? k =
      (basePayload 0 first.replacement.text first.replacement.userId first.replacement.scope
        first.replacement.sessionId { active := true }).get? k :=
    fun p => basePayload_links _ _ _ _ _ _ hk
  unfold createdProp
  rw [get?_createMetadata, get?_createMetadata, hstamps, hstamps, hbase, hbase]

/-- The stamps a created row takes from the plan it is linked to. -/
theorem createdProp_stamp (first last : PreparedSupersede)
    (hk : k = "writeSource" ∨ k = "arbitrationOutcome" ∨ k = "supersede_provenance") :
    createdProp first last k = OrdMap.find k (linkProps last) := by
  unfold createdProp
  rw [get?_createMetadata]
  rcases hk with rfl | rfl | rfl <;> rfl

/-- The links a created row has, unless the caller's metadata places them. -/
theorem createdProp_supersedesId (first last : PreparedSupersede) :
    createdProp first last "supersedesId" =
      some (((first.replacement.metadata.getD .empty).get? "supersedesId").getD
        (.str last.previousId)) := by
  unfold createdProp
  rw [get?_createMetadata, get?_basePayload]
  cases (first.replacement.metadata.getD .empty).get? "supersedesId" <;>
    simp [OrdMap.find_append, find_optionalProp, OrdMap.find, Option.filter]

theorem createdProp_lineageRootId (first last : PreparedSupersede) :
    createdProp first last "lineageRootId" =
      some (((first.replacement.metadata.getD .empty).get? "lineageRootId").getD
        (.str last.lineageRootId)) := by
  unfold createdProp
  rw [get?_createMetadata, get?_basePayload]
  cases (first.replacement.metadata.getD .empty).get? "lineageRootId" <;>
    simp [OrdMap.find_append, find_optionalProp, OrdMap.find, Option.filter]

/-- **Created once, linked last.**  Creating a target for the first plan and linking it to the last
is creating it for both at once, exactly when the first plan's metadata leaves the links alone. -/
theorem createdUntimed_link (host : Host) (first last : PreparedSupersede) :
    (createdUntimed host first first).link last = createdUntimed host first last ↔
      LeavesLinks first.replacement.metadata last := by
  have hprops : ∀ k, ((createdUntimed host first first).link last).props k =
      (OrdMap.find k (linkProps last)).or
        (if k ∈ timeKeys then none else createdProp first first k) := fun k => rfl
  constructor
  · intro heq
    have hread : ∀ k, ((createdUntimed host first first).link last).props k =
        (createdUntimed host first last).props k := fun k => by rw [heq]
    have hsup := hread "supersedesId"
    have hroot := hread "lineageRootId"
    rw [hprops, createdUntimed_props, if_neg (show "supersedesId" ∉ timeKeys by decide),
      if_neg (show "supersedesId" ∉ timeKeys by decide), createdProp_supersedesId first last]
      at hsup
    rw [hprops, createdUntimed_props, if_neg (show "lineageRootId" ∉ timeKeys by decide),
      if_neg (show "lineageRootId" ∉ timeKeys by decide), createdProp_lineageRootId first last]
      at hroot
    exact ⟨(Option.some.inj hsup).symm, (Option.some.inj hroot).symm⟩
  · rintro ⟨hsup, hroot⟩
    have hlinked : ∀ {k}, k ∈ linkKeys →
        createdProp first last k = OrdMap.find k (linkProps last) := by
      intro k hk
      have hcases : k = "supersedesId" ∨ k = "lineageRootId" ∨ k = "writeSource" ∨
          k = "arbitrationOutcome" ∨ k = "supersede_provenance" := by simpa [linkKeys] using hk
      rcases hcases with rfl | rfl | h
      · rw [createdProp_supersedesId, hsup]
        rfl
      · rw [createdProp_lineageRootId, hroot]
        rfl
      · exact createdProp_stamp first last h
    refine Untimed.ext ?_ (funext fun k => ?_)
    · -- the columns read no link
      have hcolumns : (createdUntimed host first last).columns =
          { (createdUntimed host first first).columns with
            supersedes := some last.previousId
            lineageRootId := some last.lineageRootId
            supersedeProvenance := some last.provenance } := by
        unfold createdUntimed
        rw [createdProp_of_not_link first last (k := "path") (by decide),
          createdProp_of_not_link first last (k := "memoryRole") (by decide),
          createdProp_of_not_link first last (k := "validAt") (by decide),
          createdProp_of_not_link first last (k := "invalidAt") (by decide),
          createdProp_of_not_link first last (k := "confidence") (by decide)]
      exact hcolumns.symm
    · rw [hprops, createdUntimed_props]
      by_cases hk : k ∈ linkKeys
      · have htime : k ∉ timeKeys := by
          intro h
          have hnone : ∀ t ∈ timeKeys, t ∉ linkKeys := by decide
          exact hnone k h hk
        have hsome : (OrdMap.find k (linkProps last)).isSome = true := OrdMap.isSome_find.mpr hk
        rw [if_neg htime, if_neg htime, hlinked hk]
        obtain ⟨v, hv⟩ := Option.isSome_iff_exists.mp hsome
        rw [hv]
        rfl
      · rw [find_linkProps_none hk, createdProp_of_not_link first last hk]
        rfl

end Runir
