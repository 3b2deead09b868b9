import Runir.Store.Inactive

/-!
# Lifecycle — Decay

The decay and promotion passes of `src/lifecycle/semion/decay-pass.ts`.

* `computeDecayScore`: the vitality of a memory.
* `runDecayPass`: every active memory is rescored, and the least vital are pruned.
* `runPromotionPass`: memories move to a longer-lived tier.
* `toPrune_least`, `aged_of_passes`: whom a pass prunes, and what any number of passes leave.

A pass selects its rows once and then sends one `UPDATE` a row; the updates are data here
(`RowWrite`), so that a pass that throws part of the way is one that ran a prefix of them.  Numbers
are exact, `none` standing for `NaN`.
-/

namespace Runir

/-- `Math.exp` and `Math.LN2`. -/
structure Exponential where
  exp : ℚ → ℚ
  ln2 : ℚ

/-- A number read from a payload, coerced as arithmetic coerces it; texts count as no number. -/
def toNumber : Option Value → Option ℚ
  | some .null => some 0
  | some (.bool b) => some (if b then 1 else 0)
  | some (.num q) => some q
  | _ => none

def truthy? (v : Option Value) : Bool := v.any Value.truthy

/-- `Math.max(0, Math.min(1, q))`. -/
def clamp01 (q : ℚ) : ℚ := max 0 (min 1 q)

section
variable (host : Host) (ex : Exponential)

/-- `new Date(v).getTime()`. -/
def timeOf (v : Option Value) : Option Int := (v.bind Value.str?).bind host.dateParse

def msPerHour : ℚ := 3600000

/-- Hours from a date to `now`. -/
def hoursSince (now : Int) (v : Option Value) : Option ℚ :=
  (timeOf host v).map fun t => ((now - t : Int) : ℚ) / msPerHour

/-- `getLambda`: the half-lives are 3, 48 and 672 hours. -/
def getLambda (tier : Option Value) : ℚ :=
  if tier = some (.str "ephemeral") then ex.ln2 / 3
  else if tier = some (.str "durable") then ex.ln2 / 672
  else ex.ln2 / 48

/-- `a ?? b`. -/
def nullish (a b : Option Value) : Option Value :=
  match a with
  | none => b
  | some .null => b
  | some v => some v

/-- The vitality of a payload, from 0 to 1; a pinned memory does not decay. -/
def computeDecayScore (payload : OrdMap String Value) (now : Int) : Option ℚ :=
  if truthy? (payload.get? "pinnedAt") then some 1
  else do
    let hours ← hoursSince host now (nullish (payload.get? "lastAccessedAt") (payload.get? "createdAt"))
    let accessCount ← toNumber (payload.get? "accessCount")
    let confidence ← toNumber (payload.get? "confidence")
    let recency := ex.exp (-getLambda ex (payload.get? "tier") * hours)
    let access := min 1 (accessCount / 5)
    some ((recency + access + clamp01 confidence) / 3)

/-- An `UPDATE $id SET …` of a pass. -/
inductive RowWrite where
  | score (id : String) (vitality : Option ℚ)
  | prune (id : String)
  | setTier (id tier nowIso : String)
  deriving DecidableEq

def RowWrite.id : RowWrite → String
  | .score id _ => id
  | .prune id => id
  | .setTier id _ _ => id

/-- A number as a payload holds it. -/
def numberValue : Option ℚ → Value
  | none => .str "NaN"
  | some q => .num q

/-- The `SET` list of an update. -/
def RowWrite.update (row : MemoryRow) : RowWrite → MemoryRow
  | .score _ vitality =>
      { row with payload := setProp "decayScore" (some (numberValue vitality)) row.payload }
  | .prune _ =>
      { row with
        active := some false
        inactiveReason := some "decay-prune"
        payload := setProp "inactiveReason" (some (.str "decay-prune")) row.payload }
  | .setTier _ tier nowIso =>
      { row with payload := row.payload
        |> setProp "tier" (some (.str tier))
        |> setProp "updatedAt" (some (.str nowIso)) }

def RowWrite.run (rows : Rows) (w : RowWrite) : Rows :=
  match rows.get? w.id with
  | none => rows
  | some row => rows.set w.id (w.update row)

theorem RowWrite.get?_run (rows : Rows) (w : RowWrite) (k : String) :
    (w.run rows).get? k =
      if k = w.id then (rows.get? w.id).map (fun row => w.update row) else rows.get? k := by
  unfold RowWrite.run
  cases hrow : rows.get? w.id with
  | none =>
      by_cases hk : k = w.id
      · rw [if_pos hk, hk]
        exact hrow
      · rw [if_neg hk]
  | some row => exact OrdMap.get?_set rows w.id k (w.update row)

def runWrites (writes : List RowWrite) (rows : Rows) : Rows := writes.foldl RowWrite.run rows

/-- The rows both passes select: of any lineage. -/
def selectedByPass (userId : String) (scope : MemoryScope) (row : MemoryRow) : Bool :=
  row.payloadUserId = some userId && row.propStr? "scope" = some scope.text && row.isCurrent

def passRows (userId : String) (scope : MemoryScope) (rows : Rows) : List (String × MemoryRow) :=
  rows.entries.filter fun e => selectedByPass userId scope e.2

/-! ### Decay -/

def isDurable (row : MemoryRow) : Bool := row.prop? "tier" = some (.str "durable")

/-- The guards on a row to prune, in the order of the source. -/
def pruneEligible (now : Int) (row : MemoryRow) : Bool :=
  !isDurable row && !truthy? (row.prop? "pinnedAt") &&
    (computeDecayScore host ex row.payload now).any (fun v => decide (v < 1 / 10)) &&
    (hoursSince host now (row.prop? "createdAt")).any (fun h => decide (30 < h / 24)) &&
    (toNumber (row.prop? "confidence")).any (fun c => decide (clamp01 c < 7 / 10))

/-- At most one in twenty. -/
def maxPrune (totalActive : Nat) : Nat := totalActive / 20

/-- The ids to prune, least vital first. -/
def toPrune (now : Int) (memories : List (String × MemoryRow)) : List String :=
  let eligible := memories.filterMap fun (id, row) =>
    if pruneEligible host ex now row then
      (computeDecayScore host ex row.payload now).map fun vitality => (id, vitality)
    else none
  ((eligible.insertionSort fun a b => a.2 ≤ b.2).take (maxPrune memories.length)).map Prod.fst

/-- The updates of `runDecayPass`: every memory is scored before the first is pruned. -/
def decayWrites (now : Int) (userId : String) (scope : MemoryScope) (rows : Rows) :
    List RowWrite :=
  let memories := passRows userId scope rows
  memories.map (fun (id, row) => .score id (computeDecayScore host ex row.payload now)) ++
    (toPrune host ex now memories).map .prune

structure DecayPassReport where
  scored : Nat
  pruned : Nat
  skippedDurable : Nat
  skippedPinned : Nat
  rateCapped : Nat
  deriving DecidableEq

def runDecayPass (now : Int) (userId : String) (scope : MemoryScope) (rows : Rows) :
    Rows × DecayPassReport :=
  let memories := passRows userId scope rows
  let pruned := (toPrune host ex now memories).length
  (runWrites (decayWrites host ex now userId scope rows) rows,
    { scored := memories.length
      pruned := pruned
      skippedDurable := (memories.filter fun e => isDurable e.2).length
      skippedPinned := (memories.filter fun e =>
        !isDurable e.2 && truthy? (e.2.prop? "pinnedAt")).length
      rateCapped := (memories.filter fun e => pruneEligible host ex now e.2).length - pruned })

/-! ### Promotion -/

/-- The tier a memory moves to, if it does. -/
def promotedTier (now : Int) (row : MemoryRow) : Option String :=
  let age := hoursSince host now (row.prop? "createdAt")
  let confidence := (toNumber (row.prop? "confidence")).map clamp01
  let accessCount := toNumber (row.prop? "accessCount")
  if row.prop? "tier" = some (.str "ephemeral") then
    if (accessCount.any (fun n => decide (2 ≤ n)) || confidence.any (fun c => decide (9 / 10 ≤ c))) &&
        age.any (fun h => decide (1 ≤ h)) then some "working"
    else none
  else if row.prop? "tier" = some (.str "working") then
    if accessCount.any (fun n => decide (3 ≤ n)) && confidence.any (fun c => decide (8 / 10 ≤ c)) &&
        age.any (fun h => decide (24 ≤ h)) &&
        (row.prop? "active" = some (.bool true) || row.prop? "active" = none) then some "durable"
    else none
  else none

def promotionWrites (now : Int) (userId : String) (scope : MemoryScope) (rows : Rows) :
    List RowWrite :=
  (passRows userId scope rows).filterMap fun (id, row) =>
    (promotedTier host now row).map fun tier => .setTier id tier (Date.toISOString now)

structure PromotionPassReport where
  promotedToWorking : Nat
  promotedToDurable : Nat
  deriving DecidableEq

def runPromotionPass (now : Int) (userId : String) (scope : MemoryScope) (rows : Rows) :
    Rows × PromotionPassReport :=
  let tiers := (passRows userId scope rows).filterMap fun (_, row) => promotedTier host now row
  (runWrites (promotionWrites host now userId scope rows) rows,
    { promotedToWorking := tiers.count "working"
      promotedToDurable := tiers.count "durable" })

end

/-! ### What the passes leave -/

/-- A row after some updates: those of its id, one after the other. -/
theorem get?_runWrites (writes : List RowWrite) (rows : Rows) (k : String) :
    (runWrites writes rows).get? k = (rows.get? k).map fun row =>
      (writes.filter fun w => w.id = k).foldl (fun row w => w.update row) row := by
  induction writes generalizing rows with
  | nil => simp [runWrites]
  | cons w writes ih =>
      rw [runWrites, List.foldl_cons, ← runWrites, ih, RowWrite.get?_run]
      by_cases hk : w.id = k
      · subst hk
        simp [Function.comp_def]
      · rw [if_neg (Ne.symm hk), List.filter_cons_of_neg (by simpa using hk)]

variable {rows : Rows} {row : MemoryRow}

theorem mem_passRows {userId : String} {scope : MemoryScope} {id : String} :
    (id, row) ∈ passRows userId scope rows ↔
      rows.get? id = some row ∧ selectedByPass userId scope row = true := by
  rw [passRows, List.mem_filter, OrdMap.get?_eq_some]

section
variable (host : Host) (ex : Exponential) (now : Int)

/-- At most one row in twenty is pruned; only eligible ones; and none that is less vital is spared,
nor any while there is room. -/
structure PrunesLeastVital (memories : List (String × MemoryRow)) (pruned : List String) : Prop where
  few : 20 * pruned.length ≤ memories.length
  eligible : ∀ id ∈ pruned, ∃ row, (id, row) ∈ memories ∧ pruneEligible host ex now row = true
  least : ∀ e ∈ memories, pruneEligible host ex now e.2 = true → e.1 ∉ pruned →
    pruned.length = memories.length / 20 ∧ ∀ id ∈ pruned, ∃ row v v', (id, row) ∈ memories ∧
      computeDecayScore host ex row.payload now = some v ∧
      computeDecayScore host ex e.2.payload now = some v' ∧ v ≤ v'

theorem toPrune_sorted (memories : List (String × MemoryRow)) : ∃ sorted : List (String × ℚ),
    toPrune host ex now memories = (sorted.take (maxPrune memories.length)).map Prod.fst ∧
    (∀ c, c ∈ sorted ↔ ∃ row, (c.1, row) ∈ memories ∧ pruneEligible host ex now row = true ∧
      computeDecayScore host ex row.payload now = some c.2) ∧
    sorted.Pairwise fun a b => a.2 ≤ b.2 := by
  refine ⟨_, rfl, fun c => ?_, List.pairwise_insertionSort _ _⟩
  rw [List.mem_insertionSort, List.mem_filterMap]
  constructor
  · rintro ⟨⟨id, row⟩, he, hc⟩
    simp only [Option.ite_none_right_eq_some, Option.map_eq_some_iff] at hc
    obtain ⟨hprune, v, hv, rfl⟩ := hc
    exact ⟨row, he, hprune, hv⟩
  · rintro ⟨row, he, hprune, hv⟩
    exact ⟨(c.1, row), he, by simp [hprune, hv]⟩

theorem eligible_of_mem_toPrune (memories : List (String × MemoryRow)) :
    ∀ id ∈ toPrune host ex now memories,
      ∃ row, (id, row) ∈ memories ∧ pruneEligible host ex now row = true := by
  intro id hid
  obtain ⟨sorted, hpruned, hmem, -⟩ := toPrune_sorted host ex now memories
  rw [hpruned] at hid
  obtain ⟨c, hc, rfl⟩ := List.mem_map.mp hid
  obtain ⟨row, he, hprune, -⟩ := (hmem c).mp (List.mem_of_mem_take hc)
  exact ⟨row, he, hprune⟩

/-- **The least vital go first.** -/
theorem toPrune_least (memories : List (String × MemoryRow)) :
    PrunesLeastVital host ex now memories (toPrune host ex now memories) := by
  obtain ⟨sorted, hpruned, hmem, hpairwise⟩ := toPrune_sorted host ex now memories
  have heligible := eligible_of_mem_toPrune host ex now memories
  rw [← List.take_append_drop (maxPrune memories.length) sorted, List.pairwise_append] at hpairwise
  rw [hpruned] at heligible ⊢
  refine ⟨?_, heligible, ?_⟩
  · have hlength := List.length_take_le (maxPrune memories.length) sorted
    rw [List.length_map]
    unfold maxPrune at hlength ⊢
    omega
  · intro e he hprune hspared
    obtain ⟨v', hv'⟩ : ∃ v', computeDecayScore host ex e.2.payload now = some v' := by
      simp only [pruneEligible, Bool.and_eq_true, Option.any_eq_true] at hprune
      obtain ⟨⟨⟨-, v', hv', -⟩, -⟩, -⟩ := hprune
      exact ⟨v', hv'⟩
    have hdropped : (e.1, v') ∈ sorted.drop (maxPrune memories.length) := by
      have hin := (hmem (e.1, v')).mpr ⟨e.2, he, hprune, hv'⟩
      rw [← List.take_append_drop (maxPrune memories.length) sorted, List.mem_append] at hin
      exact hin.resolve_left fun htaken => hspared (List.mem_map.mpr ⟨_, htaken, rfl⟩)
    constructor
    · have hlonger := List.length_pos_of_mem hdropped
      rw [List.length_drop] at hlonger
      rw [List.length_map, List.length_take, min_eq_left (by omega)]
      rfl
    · intro id hid
      obtain ⟨c, hc, rfl⟩ := List.mem_map.mp hid
      obtain ⟨row, hrow, -, hv⟩ := (hmem c).mp (List.mem_of_mem_take hc)
      exact ⟨row, c.2, v', hrow, hv, hv', hpairwise.2.2 c hc _ hdropped⟩

end

/-! ### Any number of passes -/

/-- Tiers by how long their memories live. -/
def tierRank (row : MemoryRow) : Nat :=
  if row.prop? "tier" = some (.str "durable") then 2
  else if row.prop? "tier" = some (.str "working") then 1 else 0

/-- What passes may make of a row: one that is retired stays as it is, a tier only rises, and a
durable or a pinned memory stays. -/
structure Aged (row row' : MemoryRow) : Prop where
  payload : ∀ key ∉ ["decayScore", "inactiveReason", "tier", "updatedAt"],
    row'.prop? key = row.prop? key
  retired : row.isCurrent = false → row' = row
  tier : tierRank row ≤ tierRank row'
  spared : isDurable row = true ∨ truthy? (row.prop? "pinnedAt") = true →
    row'.isCurrent = row.isCurrent

theorem isDurable_iff : isDurable row = true ↔ 2 ≤ tierRank row := by
  unfold tierRank isDurable
  split
  · simp [*]
  · split <;> simp [*]

theorem tierRank_congr {row row' : MemoryRow} (h : row.prop? "tier" = row'.prop? "tier") :
    tierRank row = tierRank row' := by simp only [tierRank, h]

theorem Aged.refl (row : MemoryRow) : Aged row row :=
  ⟨fun _ _ => rfl, fun _ => rfl, le_rfl, fun _ => rfl⟩

theorem Aged.trans {a b c : MemoryRow} (hab : Aged a b) (hbc : Aged b c) : Aged a c where
  payload key hkey := (hbc.payload key hkey).trans (hab.payload key hkey)
  retired h := by
    obtain rfl := hab.retired h
    exact hbc.retired h
  tier := hab.tier.trans hbc.tier
  spared h := by
    refine (hbc.spared ?_).trans (hab.spared h)
    rw [hab.payload "pinnedAt" (by decide)]
    exact h.imp_left fun hdurable => isDurable_iff.mpr ((isDurable_iff.mp hdurable).trans hab.tier)

/-- A pass that got through some of its statements. -/
inductive TierPass where
  | decay (now : Int) (statements : Nat)
  | promotion (now : Int) (statements : Nat)

section
variable (host : Host) (ex : Exponential) (userId : String) (scope : MemoryScope)

def TierPass.writes (rows : Rows) : TierPass → List RowWrite
  | .decay now statements => (decayWrites host ex now userId scope rows).take statements
  | .promotion now statements => (promotionWrites host now userId scope rows).take statements

def TierPass.run (rows : Rows) (pass : TierPass) : Rows :=
  runWrites (pass.writes host ex userId scope rows) rows

end

/-- An update that a pass has read the row for. -/
def Due (row : MemoryRow) : RowWrite → Prop
  | .score _ _ => row.isCurrent = true
  | .prune _ => row.isCurrent = true ∧ isDurable row = false ∧
      truthy? (row.prop? "pinnedAt") = false
  | .setTier _ tier _ => row.isCurrent = true ∧
      ∀ row' : MemoryRow, row'.prop? "tier" = some (.str tier) → tierRank row < tierRank row'

section
variable {host : Host} {row : MemoryRow} {w : RowWrite}

variable {row' : MemoryRow}

/-- A promotion is one to a longer-lived tier. -/
theorem promotedTier_rises {now : Int} {tier : String} (h : promotedTier host now row = some tier)
    (htier : row'.prop? "tier" = some (.str tier)) :
    tierRank row < tierRank row' := by
  simp only [promotedTier] at h
  split at h
  · next hephemeral =>
      simp only [Option.ite_none_right_eq_some, Option.some.injEq] at h
      obtain ⟨-, rfl⟩ := h
      simp [tierRank, hephemeral, htier]
  · split at h
    · next hworking =>
        simp only [Option.ite_none_right_eq_some, Option.some.injEq] at h
        obtain ⟨-, rfl⟩ := h
        simp [tierRank, hworking, htier]
    · cases h

theorem due_of_mem {ex : Exponential} {userId : String} {scope : MemoryScope}
    {pass : TierPass} (hw : w ∈ pass.writes host ex userId scope rows)
    (hrow : rows.get? w.id = some row) : Due row w := by
  have hread : ∀ {row' : MemoryRow}, (w.id, row') ∈ passRows userId scope rows →
      row' = row ∧ row.isCurrent = true := by
    intro row' hmem
    obtain ⟨hrow', hselected⟩ := mem_passRows.mp hmem
    obtain rfl := Option.some.inj (hrow'.symm.trans hrow)
    exact ⟨rfl, (Bool.and_eq_true _ _ ▸ hselected).2⟩
  cases pass with
  | decay now statements =>
      rcases List.mem_append.mp (List.mem_of_mem_take hw) with hw | hw
      · obtain ⟨⟨id, row'⟩, hmem, rfl⟩ := List.mem_map.mp hw
        exact (hread hmem).2
      · obtain ⟨id, hid, rfl⟩ := List.mem_map.mp hw
        obtain ⟨row', hmem, hprune⟩ := eligible_of_mem_toPrune host ex now _ id hid
        obtain ⟨rfl, hcurrent⟩ := hread hmem
        simp only [pruneEligible, Bool.and_eq_true, Bool.not_eq_true'] at hprune
        obtain ⟨⟨⟨⟨hdurable, hpinned⟩, -⟩, -⟩, -⟩ := hprune
        exact ⟨hcurrent, hdurable, hpinned⟩
  | promotion now statements =>
      obtain ⟨⟨id, row'⟩, hmem, hsome⟩ := List.mem_filterMap.mp (List.mem_of_mem_take hw)
      obtain ⟨tier, htier, rfl⟩ := Option.map_eq_some_iff.mp hsome
      obtain ⟨rfl, hcurrent⟩ := hread hmem
      exact ⟨hcurrent, fun _ => promotedTier_rises htier⟩

theorem Due.current (h : Due row w) : row.isCurrent = true := by
  cases w with
  | score => exact h
  | prune | setTier => exact h.1

/-- Updates the row was read for, whichever of them have run. -/
theorem Aged.update (h : Aged row row') (hw : Due row w) :
    Aged row (w.update row') where
  payload key hkey := by
    rw [← h.payload key hkey]
    simp only [List.mem_cons, List.not_mem_nil, or_false, not_or] at hkey
    cases w <;> simp [RowWrite.update, MemoryRow.prop?, get?_setProp, hkey]
  retired hretired := absurd (hretired.symm.trans hw.current) Bool.false_ne_true
  tier := by
    cases w with
    | score | prune =>
        exact h.tier.trans_eq (tierRank_congr (by
          simp [RowWrite.update, MemoryRow.prop?, get?_setProp]))
    | setTier => exact (hw.2 _ (by simp [RowWrite.update, MemoryRow.prop?, get?_setProp])).le
  spared hspared := by
    cases w with
    | score | setTier => exact h.spared hspared
    | prune =>
        obtain ⟨-, hdurable, hpinned⟩ := hw
        simp [hdurable, hpinned] at hspared

theorem aged_foldl {writes : List RowWrite} (h : Aged row row') (hdue : ∀ w ∈ writes, Due row w) :
    Aged row (writes.foldl (fun row w => w.update row) row') := by
  induction writes generalizing row' with
  | nil => exact h
  | cons w writes ih =>
      obtain ⟨hw, hrest⟩ := List.forall_mem_cons.mp hdue
      exact ih (h.update hw) hrest

theorem aged_run (host : Host) (ex : Exponential) (userId : String) (scope : MemoryScope) (pass : TierPass)
    (rows : Rows) (id : String) :
    Option.Rel Aged (rows.get? id) ((pass.run host ex userId scope rows).get? id) := by
  rw [TierPass.run, get?_runWrites]
  cases hrow : rows.get? id with
  | none => exact .none
  | some row =>
      refine .some (aged_foldl (Aged.refl row) fun w hw => ?_)
      obtain ⟨hmem, hid⟩ := List.mem_filter.mp hw
      exact due_of_mem hmem (of_decide_eq_true hid ▸ hrow)

end

/-- **Passes age a table.**  After any number of decay and promotion passes, stopped wherever they
were, every row is still there, aged. -/
theorem aged_of_passes (host : Host) (ex : Exponential) (userId : String) (scope : MemoryScope)
    (passes : List TierPass) (rows : Rows) (id : String) :
    Option.Rel Aged (rows.get? id)
      ((passes.foldl (TierPass.run host ex userId scope) rows).get? id) := by
  induction passes generalizing rows with
  | nil =>
      rw [List.foldl_nil]
      cases rows.get? id with
      | none => exact .none
      | some row => exact .some (Aged.refl row)
  | cons pass passes ih =>
      have hstep := aged_run host ex userId scope pass rows id
      have hrest := ih (pass.run host ex userId scope rows)
      rw [List.foldl_cons]
      generalize rows.get? id = before at hstep ⊢
      generalize (pass.run host ex userId scope rows).get? id = between at hstep hrest
      generalize (passes.foldl (TierPass.run host ex userId scope)
        (pass.run host ex userId scope rows)).get? id = after at hrest ⊢
      cases hstep with
      | none => exact hrest
      | some h =>
          cases hrest with
          | some h' => exact .some (h.trans h')

end Runir
