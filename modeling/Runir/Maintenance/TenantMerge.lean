import Runir.Maintenance.TenantDedupe
import Runir.Store.SupersedeRuns

/-!
# Maintenance — TenantMerge

When the merge of two tenants keeps the lifecycle of their memories.

* `mem_statements_iff`: what the transaction does to whom.
* `get?_mergeTenants`: every row is retired, made active or left as it was.
* `mergeTenants_never_resurrects_iff`: the merge brings nothing back exactly where the newest row
  of every shared key is active and not superseded.
-/

namespace Runir

/-! ### The two tenants -/

/-- The row is one of the two tenants'. -/
def MemoryRow.OfTenants (fromUserId toUserId : String) (row : MemoryRow) : Prop :=
  row.userId = some fromUserId ∨ row.userId = some toUserId

def MemoryRow.factKey? (row : MemoryRow) : Option String := (row.propStr? "factKey").filter (· ≠ "")

/-- The row with the id is one of the user's that carry the key. -/
def CarriedBy (userId : String) (rows : Rows) (factKey id : String) : Prop :=
  ∃ row, rows.get? id = some row ∧ row.userId = some userId ∧ row.factKey? = some factKey

/-- Both tenants carry the key. -/
def SharedKey (fromUserId toUserId : String) (rows : Rows) (factKey : String) : Prop :=
  (∃ id, CarriedBy fromUserId rows factKey id) ∧ ∃ id, CarriedBy toUserId rows factKey id

/-- The row with the id is there and active. -/
def ActiveAt (rows : Rows) (id : String) : Prop := ∃ row, rows.get? id = some row ∧ row.isCurrent

/-- The lifecycle state of a row, in its columns and in its payload. -/
def MemoryRow.lifecycle (row : MemoryRow) : List (Option Value) :=
  [row.active.map .bool, row.inactiveAt.map .str, row.inactiveReason.map .str,
    row.supersededBy.map .str] ++
  ["active", "inactiveAt", "inactiveReason", "supersededById"].map row.prop?

/-- A merge of two tenants that brings nothing back, where `rows` were there before and `rows'` are
there after it. -/
structure NeverResurrects (fromUserId toUserId : String) (rows rows' : Rows) : Prop where
  inactive : ∀ id row, rows.get? id = some row → row.isCurrent = false → ¬ActiveAt rows' id
  unlinked : ∀ id row row', rows.get? id = some row → row.OfTenants fromUserId toUserId →
    rows'.get? id = some row' → row'.isCurrent → row'.supersededBy = none
  acyclic : Pointers.Acyclic (supersededByOf rows) → Pointers.Acyclic (supersededByOf rows')
  one : ∀ k, SharedKey fromUserId toUserId rows k →
    (∃ id, (CarriedBy fromUserId rows k id ∨ CarriedBy toUserId rows k id) ∧ ActiveAt rows id) →
    ∃! id, (CarriedBy fromUserId rows k id ∨ CarriedBy toUserId rows k id) ∧ ActiveAt rows' id
  none : ∀ k, SharedKey fromUserId toUserId rows k →
    (¬∃ id, (CarriedBy fromUserId rows k id ∨ CarriedBy toUserId rows k id) ∧ ActiveAt rows id) →
    ¬∃ id, (CarriedBy fromUserId rows k id ∨ CarriedBy toUserId rows k id) ∧ ActiveAt rows' id
  others : ∀ id row, rows.get? id = some row → row.OfTenants fromUserId toUserId →
    (∀ k, row.factKey? = some k → ¬SharedKey fromUserId toUserId rows k) →
    ∃ row', rows'.get? id = some row' ∧ row'.lifecycle = row.lifecycle

section
variable {host : Host} {readTime : Int → ReadTime} {fromUserId toUserId : String} {rows : Rows}
  {now : Int}

/-! ### What is read -/

theorem mem_readSemiotes {r : SemioteIdentityRow} :
    r ∈ readSemiotes readTime fromUserId toUserId rows ↔
      ∃ id row, rows.get? id = some row ∧ row.OfTenants fromUserId toUserId ∧
        r = identityRow readTime id row := by
  unfold readSemiotes
  rw [List.mem_filter, List.mem_map]
  constructor
  · rintro ⟨⟨⟨id, row⟩, hmem, rfl⟩, hof⟩
    rw [Bool.or_eq_true, decide_eq_true_iff, decide_eq_true_iff] at hof
    exact ⟨id, row, OrdMap.get?_eq_some.mpr hmem, hof, rfl⟩
  · rintro ⟨id, row, hrow, hof, rfl⟩
    refine ⟨⟨(id, row), OrdMap.get?_eq_some.mp hrow, rfl⟩, ?_⟩
    rw [Bool.or_eq_true, decide_eq_true_iff, decide_eq_true_iff]
    exact hof

/-- The ids of the rows read are distinct. -/
theorem nodup_readSemiotes :
    ((readSemiotes readTime fromUserId toUserId rows).map (·.id)).Nodup := by
  refine List.Nodup.sublist (List.filter_sublist.map _) ?_
  rw [List.map_map]
  exact rows.nodup

/-- The rows of the two tenants that carry the key, in the order they are read. -/
def carriers (readTime : Int → ReadTime) (fromUserId toUserId : String) (rows : Rows)
    (factKey : String) : List SemioteIdentityRow :=
  (readSemiotes readTime fromUserId toUserId rows).filter fun row => row.factKey = some factKey

/-- The row that wins the key: the first of the newest that carry it. -/
def Newest (host : Host) (readTime : Int → ReadTime) (fromUserId toUserId : String) (rows : Rows)
    (factKey id : String) : Prop :=
  ∃ row, FirstTop (fun row : SemioteIdentityRow => timestamp host row.updatedAt)
    (carriers readTime fromUserId toUserId rows factKey) row ∧ row.id = id

variable {k : String}

theorem mem_carriers {r : SemioteIdentityRow} :
    r ∈ carriers readTime fromUserId toUserId rows k ↔
      ∃ id row, rows.get? id = some row ∧ row.OfTenants fromUserId toUserId ∧ row.factKey? = some k ∧
        r = identityRow readTime id row := by
  unfold carriers
  rw [List.mem_filter, mem_readSemiotes]
  constructor
  · rintro ⟨⟨id, row, hrow, hof, rfl⟩, hkey⟩
    exact ⟨id, row, hrow, hof, of_decide_eq_true hkey, rfl⟩
  · rintro ⟨id, row, hrow, hof, hkey, rfl⟩
    exact ⟨⟨id, row, hrow, hof, rfl⟩, decide_eq_true hkey⟩

variable {k id : String}

/-- A row that carries the key is one of the carriers. -/
theorem exists_carrier :
    (∃ r ∈ carriers readTime fromUserId toUserId rows k, r.id = id) ↔
      CarriedBy fromUserId rows k id ∨ CarriedBy toUserId rows k id := by
  constructor
  · rintro ⟨r, hr, rfl⟩
    obtain ⟨id, row, hrow, hof, hkey, rfl⟩ := mem_carriers.mp hr
    exact hof.imp (fun h => ⟨row, hrow, h, hkey⟩) fun h => ⟨row, hrow, h, hkey⟩
  · rintro (⟨row, hrow, hof, hkey⟩ | ⟨row, hrow, hof, hkey⟩)
    · exact ⟨identityRow readTime id row, mem_carriers.mpr ⟨id, row, hrow, Or.inl hof, hkey, rfl⟩, rfl⟩
    · exact ⟨identityRow readTime id row, mem_carriers.mpr ⟨id, row, hrow, Or.inr hof, hkey, rfl⟩, rfl⟩

/-- A row carries one key. -/
theorem carriers_disjoint {k k' : String} {r r' : SemioteIdentityRow}
    (hr : r ∈ carriers readTime fromUserId toUserId rows k)
    (hr' : r' ∈ carriers readTime fromUserId toUserId rows k') (hid : r.id = r'.id) : k = k' := by
  obtain ⟨id, row, hrow, -, hkey, rfl⟩ := mem_carriers.mp hr
  obtain ⟨id', row', hrow', -, hkey', rfl⟩ := mem_carriers.mp hr'
  obtain rfl : id = id' := hid
  obtain rfl := Option.some.inj (hrow.symm.trans hrow')
  exact Option.some.inj (hkey.symm.trans hkey')

theorem any_carriers {k userId : String} (huser : userId = fromUserId ∨ userId = toUserId) :
    (carriers readTime fromUserId toUserId rows k).any (fun row => row.userId = some userId) = true ↔
      ∃ id, CarriedBy userId rows k id := by
  rw [List.any_eq_true]
  constructor
  · rintro ⟨r, hr, hof⟩
    obtain ⟨id, row, hrow, -, hkey, rfl⟩ := mem_carriers.mp hr
    exact ⟨id, row, hrow, of_decide_eq_true hof, hkey⟩
  · rintro ⟨id, row, hrow, hof, hkey⟩
    have htenants : row.OfTenants fromUserId toUserId := by
      rcases huser with rfl | rfl
      · exact Or.inl hof
      · exact Or.inr hof
    exact ⟨identityRow readTime id row, mem_carriers.mpr ⟨id, row, hrow, htenants, hkey, rfl⟩,
      decide_eq_true hof⟩

/-! ### The groups -/

/-- A group stands for its key: the winner is the first of the newest, the losers are the rest. -/
structure GroupOf (host : Host) (carrying : List SemioteIdentityRow) (k : String)
    (group : SemioteDedupeGroup) : Prop where
  factKey_eq : group.factKey = k
  winner : ∃ row, FirstTop (fun row : SemioteIdentityRow => timestamp host row.updatedAt) carrying row ∧
    row.id = group.winnerId
  targets : (group.loserIds ++ [group.winnerId]).Perm (carrying.map (·.id))

variable {carrying : List SemioteIdentityRow}

theorem dedupeGroup_eq_some {group : SemioteDedupeGroup}
    (h : dedupeGroup host fromUserId toUserId k carrying = some group) :
    carrying.any (fun row => row.userId = some fromUserId) = true ∧
      carrying.any (fun row => row.userId = some toUserId) = true ∧ GroupOf host carrying k group := by
  unfold dedupeGroup at h
  split at h
  · next hany =>
      obtain ⟨hfrom, hto⟩ := Bool.and_eq_true_iff.mp hany
      refine ⟨hfrom, hto, ?_⟩
      split at h
      · cases h
      · next winner losers hsorted =>
          obtain rfl := Option.some.inj h
          have hperm := List.perm_insertionSort
            (fun left right : SemioteIdentityRow =>
              timestamp host right.updatedAt ≤ timestamp host left.updatedAt) carrying
          rw [hsorted] at hperm
          have hne : carrying ≠ [] := by
            rintro rfl
            cases hsorted
          obtain ⟨top, htop⟩ :=
            exists_firstTop (fun row : SemioteIdentityRow => timestamp host row.updatedAt) hne
          have hhead := htop.head?_insertionSort
          rw [hsorted] at hhead
          obtain rfl : winner = top := Option.some.inj hhead
          refine ⟨rfl, ⟨winner, htop, rfl⟩, ?_⟩
          have hlosers : ((losers.map (·.id)).insertionSort (· ≤ ·) ++ [winner.id]).Perm
              ((winner :: losers).map (·.id)) :=
            ((List.perm_insertionSort _ _).append_right _).trans (List.perm_append_singleton _ _)
          exact hlosers.trans (hperm.map _)
  · cases h

/-- A key that both tenants carry has a group. -/
theorem exists_dedupeGroup (hfrom : carrying.any (fun row => row.userId = some fromUserId) = true)
    (hto : carrying.any (fun row => row.userId = some toUserId) = true) :
    ∃ group, dedupeGroup host fromUserId toUserId k carrying = some group := by
  have hne : carrying ≠ [] := by
    rintro rfl
    cases hfrom
  simp only [dedupeGroup]
  rw [if_pos (Bool.and_eq_true_iff.mpr ⟨hfrom, hto⟩)]
  split
  · next hsorted =>
      have hperm := List.perm_insertionSort
        (fun left right : SemioteIdentityRow =>
          timestamp host right.updatedAt ≤ timestamp host left.updatedAt) carrying
      rw [hsorted] at hperm
      exact absurd hperm.symm.eq_nil hne
  · exact ⟨_, rfl⟩

theorem get?_groupOn_readSemiotes :
    (k, carrying) ∈ (groupOn (·.factKey) (readSemiotes readTime fromUserId toUserId rows)).entries ↔
      carrying = carriers readTime fromUserId toUserId rows k ∧ carrying ≠ [] := by
  rw [← OrdMap.get?_eq_some, get?_groupOn]
  change (if carriers readTime fromUserId toUserId rows k = [] then none
    else some (carriers readTime fromUserId toUserId rows k)) = some carrying ↔ _
  constructor
  · intro h
    split at h
    · cases h
    · next hne =>
        obtain rfl := Option.some.inj h
        exact ⟨rfl, hne⟩
  · rintro ⟨rfl, hne⟩
    rw [if_neg hne]

/-- The groups are those of the shared keys. -/
theorem mem_buildSemioteDedupeGroups {group : SemioteDedupeGroup}
    (h : group ∈ buildSemioteDedupeGroups host fromUserId toUserId
      (readSemiotes readTime fromUserId toUserId rows)) :
    SharedKey fromUserId toUserId rows group.factKey ∧
      GroupOf host (carriers readTime fromUserId toUserId rows group.factKey) group.factKey group := by
  unfold buildSemioteDedupeGroups at h
  rw [List.mem_insertionSort, List.mem_filterMap] at h
  obtain ⟨⟨k, carrying⟩, hmem, hgroup⟩ := h
  obtain ⟨rfl, -⟩ := get?_groupOn_readSemiotes.mp hmem
  obtain ⟨hfrom, hto, hof⟩ := dedupeGroup_eq_some hgroup
  obtain rfl := hof.factKey_eq
  exact ⟨⟨(any_carriers (Or.inl rfl)).mp hfrom, (any_carriers (Or.inr rfl)).mp hto⟩, hof⟩

theorem exists_group_of_shared (host : Host) (readTime : Int → ReadTime)
    (h : SharedKey fromUserId toUserId rows k) :
    ∃ group ∈ buildSemioteDedupeGroups host fromUserId toUserId
      (readSemiotes readTime fromUserId toUserId rows), group.factKey = k := by
  have hfrom : (carriers readTime fromUserId toUserId rows k).any
      (fun row => row.userId = some fromUserId) = true := (any_carriers (Or.inl rfl)).mpr h.1
  have hto : (carriers readTime fromUserId toUserId rows k).any
      (fun row => row.userId = some toUserId) = true := (any_carriers (Or.inr rfl)).mpr h.2
  have hne : carriers readTime fromUserId toUserId rows k ≠ [] := by
    intro hnil
    rw [hnil] at hfrom
    cases hfrom
  obtain ⟨group, hgroup⟩ : ∃ group, dedupeGroup host fromUserId toUserId k
      (carriers readTime fromUserId toUserId rows k) = some group := exists_dedupeGroup hfrom hto
  refine ⟨group, ?_, (dedupeGroup_eq_some hgroup).2.2.factKey_eq⟩
  unfold buildSemioteDedupeGroups
  rw [List.mem_insertionSort, List.mem_filterMap]
  exact ⟨⟨k, _⟩, get?_groupOn_readSemiotes.mpr ⟨rfl, hne⟩, hgroup⟩

/-- There is one group for a key. -/
theorem nodup_factKeys :
    ((buildSemioteDedupeGroups host fromUserId toUserId
      (readSemiotes readTime fromUserId toUserId rows)).map (·.factKey)).Nodup := by
  unfold buildSemioteDedupeGroups
  rw [((List.perm_insertionSort _ _).map _).nodup_iff]
  refine List.Nodup.sublist ?_
    (groupOn (·.factKey) (readSemiotes readTime fromUserId toUserId rows)).nodup
  induction (groupOn (·.factKey) (readSemiotes readTime fromUserId toUserId rows)).entries with
  | nil => exact List.Sublist.refl _
  | cons e es ih =>
      rw [List.filterMap_cons, List.map_cons]
      split
      · exact ih.cons _
      · next group hgroup =>
          rw [List.map_cons, (dedupeGroup_eq_some hgroup).2.2.factKey_eq]
          exact ih.cons_cons _

/-! ### The transaction -/

theorem statements_target (group : SemioteDedupeGroup) :
    group.statements.map DedupeStatement.target = group.loserIds ++ [group.winnerId] := by
  unfold SemioteDedupeGroup.statements
  rw [List.map_append, List.map_map]
  exact congrArg (· ++ [group.winnerId]) (List.map_id _)

/-- No row is named by two statements. -/
theorem nodup_targets :
    (((buildSemioteDedupeGroups host fromUserId toUserId
      (readSemiotes readTime fromUserId toUserId rows)).flatMap (·.statements)).map
        DedupeStatement.target).Nodup := by
  rw [List.map_flatMap]
  simp only [statements_target]
  rw [List.nodup_flatMap]
  constructor
  · intro group hgroup
    rw [(mem_buildSemioteDedupeGroups hgroup).2.targets.nodup_iff]
    exact nodup_readSemiotes.sublist (List.filter_sublist.map _)
  · refine (List.pairwise_map.mp nodup_factKeys).imp_of_mem fun hgroup hgroup' hne id hid hid' => ?_
    rw [(mem_buildSemioteDedupeGroups hgroup).2.targets.mem_iff, List.mem_map] at hid
    rw [(mem_buildSemioteDedupeGroups hgroup').2.targets.mem_iff, List.mem_map] at hid'
    obtain ⟨r, hr, rfl⟩ := hid
    obtain ⟨r', hr', hsame⟩ := hid'
    exact hne (carriers_disjoint hr hr' hsame.symm)

variable {id : String}

theorem DedupeStatement.get?_run {statement : DedupeStatement} :
    (statement.run now rows).get? id =
      if id = statement.target then (rows.get? id).map fun row => statement.effect now row
      else rows.get? id := by
  unfold DedupeStatement.run
  split
  · next hnone =>
      split
      · next hid => rw [hid, hnone]; rfl
      · rfl
  · next row hrow =>
      rw [OrdMap.get?_set]
      split
      · next hid => rw [hid, hrow]; rfl
      · rfl

variable {statements : List DedupeStatement}

theorem get?_foldl_run_of_not (h : id ∉ statements.map DedupeStatement.target) :
    (statements.foldl (DedupeStatement.run now) rows).get? id = rows.get? id := by
  induction statements generalizing rows with
  | nil => rfl
  | cons statement statements ih =>
      rw [List.map_cons, List.mem_cons, not_or] at h
      rw [List.foldl_cons, ih h.2, DedupeStatement.get?_run, if_neg h.1]

/-- Where no row is named twice, a row gets what the statement that names it sets. -/
theorem get?_foldl_run (now : Int) (rows : Rows)
    {statement : DedupeStatement} (hnodup : (statements.map DedupeStatement.target).Nodup) (h : statement ∈ statements) :
    (statements.foldl (DedupeStatement.run now) rows).get? statement.target =
      (rows.get? statement.target).map fun row => statement.effect now row := by
  induction statements generalizing rows with
  | nil => cases h
  | cons first statements ih =>
      rw [List.map_cons, List.nodup_cons] at hnodup
      rw [List.foldl_cons]
      rcases List.mem_cons.mp h with rfl | h
      · rw [get?_foldl_run_of_not hnodup.1, DedupeStatement.get?_run, if_pos rfl]
      · have hne : statement.target ≠ first.target := fun heq =>
          hnodup.1 (heq ▸ List.mem_map_of_mem h)
        rw [ih _ hnodup.2 h, DedupeStatement.get?_run, if_neg hne]

/-! ### Row by row -/

/-- What the merge makes of the row with the id. -/
inductive Merged (host : Host) (readTime : Int → ReadTime) (now : Int) (fromUserId toUserId : String)
    (rows : Rows) (id : String) (row : MemoryRow) : MemoryRow → Prop
  /-- It is the newest of a shared key. -/
  | won (k : String) (hshared : SharedKey fromUserId toUserId rows k)
      (hnewest : Newest host readTime fromUserId toUserId rows k id) :
      Merged host readTime now fromUserId toUserId rows id row
        (tenantUpdateRow fromUserId toUserId ((DedupeStatement.activate id).effect now row))
  /-- It carries a shared key, and another row is the newest. -/
  | lost (k winnerId : String) (hshared : SharedKey fromUserId toUserId rows k)
      (hcarried : CarriedBy fromUserId rows k id ∨ CarriedBy toUserId rows k id)
      (hnewest : Newest host readTime fromUserId toUserId rows k winnerId) (hne : id ≠ winnerId) :
      Merged host readTime now fromUserId toUserId rows id row
        (tenantUpdateRow fromUserId toUserId ((DedupeStatement.retire id winnerId).effect now row))
  /-- It carries no shared key. -/
  | left (hother : ∀ k, SharedKey fromUserId toUserId rows k →
        ¬(CarriedBy fromUserId rows k id ∨ CarriedBy toUserId rows k id)) :
      Merged host readTime now fromUserId toUserId rows id row
        (tenantUpdateRow fromUserId toUserId row)

theorem get?_mergeTenants (host : Host) (readTime : Int → ReadTime) (now : Int)
    (fromUserId toUserId : String) {row : MemoryRow} (hrow : rows.get? id = some row) :
    ∃ row', (mergeTenants host readTime now fromUserId toUserId rows).get? id = some row' ∧
      Merged host readTime now fromUserId toUserId rows id row row' := by
  unfold mergeTenants tenantUpdate applySemioteDedupeGroups
  rw [OrdMap.get?_mapValues]
  by_cases hnamed : ∃ k, SharedKey fromUserId toUserId rows k ∧
      (CarriedBy fromUserId rows k id ∨ CarriedBy toUserId rows k id)
  · obtain ⟨k, hshared, hcarried⟩ := hnamed
    obtain ⟨group, hgroup, rfl⟩ := exists_group_of_shared host readTime hshared
    obtain ⟨-, -, ⟨top, htop, hwinner⟩, htargets⟩ := mem_buildSemioteDedupeGroups hgroup
    have hnewest : Newest host readTime fromUserId toUserId rows group.factKey group.winnerId :=
      ⟨top, htop, hwinner⟩
    have hmem : id ∈ group.loserIds ++ [group.winnerId] := by
      rw [htargets.mem_iff, List.mem_map]
      exact exists_carrier.mpr hcarried
    have hstatement : ∀ statement ∈ group.statements, statement ∈ (buildSemioteDedupeGroups host
        fromUserId toUserId (readSemiotes readTime fromUserId toUserId rows)).flatMap (·.statements) :=
      fun statement h => List.mem_flatMap.mpr ⟨group, hgroup, h⟩
    by_cases hid : id = group.winnerId
    · subst hid
      have hactivate := hstatement (.activate group.winnerId)
        (List.mem_append_right _ (List.mem_singleton_self _))
      refine ⟨_, ?_, .won group.factKey hshared hnewest⟩
      have hget := get?_foldl_run now rows nodup_targets hactivate
      simp only [DedupeStatement.target, hrow] at hget
      rw [hget]
      rfl
    · have hloser : id ∈ group.loserIds := by
        rcases List.mem_append.mp hmem with h | h
        · exact h
        · exact absurd (List.mem_singleton.mp h) hid
      have hretire := hstatement (.retire id group.winnerId)
        (List.mem_append_left _ (List.mem_map_of_mem hloser))
      refine ⟨_, ?_, .lost group.factKey group.winnerId hshared hcarried hnewest hid⟩
      have hget := get?_foldl_run now rows nodup_targets hretire
      simp only [DedupeStatement.target, hrow] at hget
      rw [hget]
      rfl
  · have hother : ∀ k, SharedKey fromUserId toUserId rows k →
        ¬(CarriedBy fromUserId rows k id ∨ CarriedBy toUserId rows k id) :=
      fun k hshared hcarried => hnamed ⟨k, hshared, hcarried⟩
    refine ⟨_, ?_, .left hother⟩
    rw [get?_foldl_run_of_not, hrow, Option.map_some]
    rw [List.map_flatMap, List.mem_flatMap]
    rintro ⟨group, hgroup, hid⟩
    obtain ⟨hshared, hof⟩ := mem_buildSemioteDedupeGroups hgroup
    rw [statements_target, hof.targets.mem_iff, List.mem_map] at hid
    exact hother _ hshared (exists_carrier.mp hid)

/-! ### What the merge keeps -/

theorem tenantUpdateRow_isCurrent (row : MemoryRow) :
    (tenantUpdateRow fromUserId toUserId row).isCurrent = row.isCurrent := by
  unfold tenantUpdateRow
  split <;> rfl

theorem tenantUpdateRow_supersededBy (row : MemoryRow) :
    (tenantUpdateRow fromUserId toUserId row).supersededBy = row.supersededBy := by
  unfold tenantUpdateRow
  split <;> rfl

theorem tenantUpdateRow_lifecycle (row : MemoryRow) :
    (tenantUpdateRow fromUserId toUserId row).lifecycle = row.lifecycle := by
  unfold tenantUpdateRow
  split
  · have hprop : ∀ key ∈ ["active", "inactiveAt", "inactiveReason", "supersededById"],
        (row.payload.set "userId" (.str toUserId)).get? key = row.payload.get? key := by
      intro key hkey
      refine OrdMap.get?_set_ne _ _ ?_
      rintro rfl
      revert hkey
      decide
    exact congrArg ([row.active.map .bool, row.inactiveAt.map .str, row.inactiveReason.map .str,
      row.supersededBy.map .str] ++ ·) (List.map_congr_left hprop)
  · rfl

/-- The newest row of a key carries it, and there is one of them. -/
theorem Newest.carried (h : Newest host readTime fromUserId toUserId rows k id) :
    CarriedBy fromUserId rows k id ∨ CarriedBy toUserId rows k id := by
  obtain ⟨row, htop, rfl⟩ := h
  exact exists_carrier.mp ⟨row, htop.mem, rfl⟩

theorem Newest.eq {k id id' : String} (h : Newest host readTime fromUserId toUserId rows k id)
    (h' : Newest host readTime fromUserId toUserId rows k id') : id = id' := by
  obtain ⟨row, htop, rfl⟩ := h
  obtain ⟨row', htop', rfl⟩ := h'
  rw [htop.unique htop']

theorem exists_newest (host : Host) (readTime : Int → ReadTime)
    (h : SharedKey fromUserId toUserId rows k) :
    ∃ id, Newest host readTime fromUserId toUserId rows k id := by
  obtain ⟨id, hcarried⟩ := h.1
  obtain ⟨r, hr, -⟩ : ∃ r ∈ carriers readTime fromUserId toUserId rows k, r.id = id :=
    exists_carrier.mpr (Or.inl hcarried)
  obtain ⟨top, htop⟩ := exists_firstTop
    (fun row : SemioteIdentityRow => timestamp host row.updatedAt) (List.ne_nil_of_mem hr)
  exact ⟨top.id, top, htop, rfl⟩

theorem CarriedBy.key_eq {k k' id : String}
    (h : CarriedBy fromUserId rows k id ∨ CarriedBy toUserId rows k id)
    (h' : CarriedBy fromUserId rows k' id ∨ CarriedBy toUserId rows k' id) : k = k' := by
  obtain ⟨r, hr, hid⟩ : ∃ r ∈ carriers (fun _ => .other) fromUserId toUserId rows k, r.id = id :=
    exists_carrier.mpr h
  obtain ⟨r', hr', hid'⟩ : ∃ r ∈ carriers (fun _ => .other) fromUserId toUserId rows k', r.id = id :=
    exists_carrier.mpr h'
  exact carriers_disjoint hr hr' (hid.trans hid'.symm)

namespace Merged
variable {id : String} {row row' : MemoryRow}

/-- A row that is active after the merge has won its key, or was active and is unchanged. -/
theorem of_current (h : Merged host readTime now fromUserId toUserId rows id row row')
    (hcurrent : row'.isCurrent) :
    (∃ k, SharedKey fromUserId toUserId rows k ∧ Newest host readTime fromUserId toUserId rows k id) ∨
      row.isCurrent ∧ ∀ k, SharedKey fromUserId toUserId rows k →
        ¬(CarriedBy fromUserId rows k id ∨ CarriedBy toUserId rows k id) := by
  cases h with
  | won k hshared hnewest => exact Or.inl ⟨k, hshared, hnewest⟩
  | lost k winnerId hshared hcarried hnewest hne =>
      rw [tenantUpdateRow_isCurrent] at hcurrent
      cases hcurrent
  | left hother => exact Or.inr ⟨tenantUpdateRow_isCurrent row ▸ hcurrent, hother⟩

/-- A pointer leads to the winner of a shared key, or was there before. -/
theorem supersededBy (h : Merged host readTime now fromUserId toUserId rows id row row') :
    row'.supersededBy = row.supersededBy ∨
      ∃ k winnerId, SharedKey fromUserId toUserId rows k ∧
        Newest host readTime fromUserId toUserId rows k winnerId ∧ id ≠ winnerId ∧
        row'.supersededBy = some winnerId := by
  cases h with
  | won k hshared hnewest => exact Or.inl (tenantUpdateRow_supersededBy _)
  | lost k winnerId hshared hcarried hnewest hne =>
      exact Or.inr ⟨k, winnerId, hshared, hnewest, hne, tenantUpdateRow_supersededBy _⟩
  | left hother => exact Or.inl (tenantUpdateRow_supersededBy _)

/-- The newest row of a shared key is made active, with the pointer it had. -/
theorem of_newest (h : Merged host readTime now fromUserId toUserId rows id row row')
    (hshared : SharedKey fromUserId toUserId rows k)
    (hnewest : Newest host readTime fromUserId toUserId rows k id) :
    row'.isCurrent ∧ row'.supersededBy = row.supersededBy := by
  cases h with
  | won => exact ⟨tenantUpdateRow_isCurrent _, tenantUpdateRow_supersededBy _⟩
  | lost k' winnerId hshared' hcarried hnewest' hne =>
      obtain rfl := CarriedBy.key_eq hnewest.carried hcarried
      exact absurd (hnewest.eq hnewest') hne
  | left hother => exact absurd hnewest.carried (hother k hshared)

/-- A row that is active after the merge and carries a shared key is its newest. -/
theorem newest_of_current (h : Merged host readTime now fromUserId toUserId rows id row row')
    (hcurrent : row'.isCurrent) (hshared : SharedKey fromUserId toUserId rows k)
    (hcarried : CarriedBy fromUserId rows k id ∨ CarriedBy toUserId rows k id) :
    Newest host readTime fromUserId toUserId rows k id := by
  rcases h.of_current hcurrent with ⟨k', hshared', hnewest⟩ | ⟨-, hother⟩
  · rwa [CarriedBy.key_eq hcarried hnewest.carried]
  · exact absurd hcarried (hother k hshared)

end Merged

/-- Nothing is there for the merge to bring back: the newest row of every shared key is active and
not superseded, and no other active row of the two tenants is superseded. -/
structure NothingToRevive (host : Host) (readTime : Int → ReadTime) (fromUserId toUserId : String)
    (rows : Rows) : Prop where
  newest : ∀ k id row, SharedKey fromUserId toUserId rows k →
    Newest host readTime fromUserId toUserId rows k id → rows.get? id = some row →
    row.isCurrent ∧ row.supersededBy = none
  rest : ∀ id row, rows.get? id = some row → row.OfTenants fromUserId toUserId → row.isCurrent →
    (∀ k, row.factKey? = some k → ¬SharedKey fromUserId toUserId rows k) → row.supersededBy = none

/-- Rows of one lifecycle state are active alike and point alike. -/
theorem MemoryRow.of_lifecycle_eq {row row' : MemoryRow} (h : row'.lifecycle = row.lifecycle) :
    row'.isCurrent = row.isCurrent ∧ row'.supersededBy = row.supersededBy := by
  have hcolumns := List.append_inj_left h rfl
  injection hcolumns with hactive hrest
  injection hrest with _ hrest
  injection hrest with _ hrest
  injection hrest with hsuperseded _
  have hactive := Option.map_injective (fun _ _ h => Value.bool.inj h) hactive
  refine ⟨?_, Option.map_injective (fun _ _ h => Value.str.inj h) hsuperseded⟩
  unfold MemoryRow.isCurrent
  rw [hactive]

/-- The key a row carries is its own. -/
theorem CarriedBy.factKey?_eq {row : MemoryRow} (hrow : rows.get? id = some row)
    (h : CarriedBy fromUserId rows k id ∨ CarriedBy toUserId rows k id) : row.factKey? = some k := by
  rcases h with ⟨row₀, hrow₀, -, hkey⟩ | ⟨row₀, hrow₀, -, hkey⟩
  · rwa [Option.some.inj (hrow.symm.trans hrow₀)]
  · rwa [Option.some.inj (hrow.symm.trans hrow₀)]

/-- A row of the two tenants carries its key. -/
theorem MemoryRow.OfTenants.carried {id k : String} {row : MemoryRow}
    (h : row.OfTenants fromUserId toUserId) (hrow : rows.get? id = some row)
    (hkey : row.factKey? = some k) : CarriedBy fromUserId rows k id ∨ CarriedBy toUserId rows k id :=
  h.imp (fun h => ⟨row, hrow, h, hkey⟩) fun h => ⟨row, hrow, h, hkey⟩

theorem get?_foldl_run_none
    (h : rows.get? id = none) : (statements.foldl (DedupeStatement.run now) rows).get? id = none := by
  induction statements generalizing rows with
  | nil => exact h
  | cons statement statements ih =>
      refine ih ?_
      rw [DedupeStatement.get?_run, h]
      exact ite_self _

/-- A row is there after the merge only if it was there before. -/
theorem get?_of_mergeTenants {row' : MemoryRow}
    (h : (mergeTenants host readTime now fromUserId toUserId rows).get? id = some row') :
    ∃ row, rows.get? id = some row ∧ Merged host readTime now fromUserId toUserId rows id row row' := by
  cases hrow : rows.get? id with
  | none =>
      unfold mergeTenants tenantUpdate applySemioteDedupeGroups at h
      rw [OrdMap.get?_mapValues, get?_foldl_run_none hrow] at h
      cases h
  | some row =>
      obtain ⟨row'', hget, hmerged⟩ := get?_mergeTenants host readTime now fromUserId toUserId hrow
      obtain rfl := Option.some.inj (hget.symm.trans h)
      exact ⟨row, rfl, hmerged⟩

/-- One carrier of a shared key is active after the merge, its newest. -/
theorem activeAt_mergeTenants_iff (hshared : SharedKey fromUserId toUserId rows k)
    (hcarried : CarriedBy fromUserId rows k id ∨ CarriedBy toUserId rows k id) :
    ActiveAt (mergeTenants host readTime now fromUserId toUserId rows) id ↔
      Newest host readTime fromUserId toUserId rows k id := by
  constructor
  · rintro ⟨row', hrow', hcurrent⟩
    obtain ⟨row, -, hmerged⟩ := get?_of_mergeTenants hrow'
    exact hmerged.newest_of_current hcurrent hshared hcarried
  · intro hnewest
    obtain ⟨row, hrow⟩ : ∃ row, rows.get? id = some row :=
      hcarried.elim (fun ⟨row, hrow, _⟩ => ⟨row, hrow⟩) fun ⟨row, hrow, _⟩ => ⟨row, hrow⟩
    obtain ⟨row', hrow', hmerged⟩ := get?_mergeTenants host readTime now fromUserId toUserId hrow
    exact ⟨row', hrow', (hmerged.of_newest hshared hnewest).1⟩

theorem NothingToRevive.neverResurrects
    (h : NothingToRevive host readTime fromUserId toUserId rows) :
    NeverResurrects fromUserId toUserId rows
      (mergeTenants host readTime now fromUserId toUserId rows) where
  inactive := by
    rintro id row hrow hinactive ⟨row', hrow', hcurrent⟩
    obtain ⟨row₀, hrow₀, hmerged⟩ := get?_of_mergeTenants hrow'
    obtain rfl := Option.some.inj (hrow.symm.trans hrow₀)
    rcases hmerged.of_current hcurrent with ⟨k, hshared, hnewest⟩ | ⟨hactive, -⟩
    · have hactive := (h.newest k id row hshared hnewest hrow).1
      rw [hinactive] at hactive
      cases hactive
    · rw [hinactive] at hactive
      cases hactive
  unlinked := by
    intro id row row' hrow hof hrow' hcurrent
    obtain ⟨row₀, hrow₀, hmerged⟩ := get?_of_mergeTenants hrow'
    obtain rfl := Option.some.inj (hrow.symm.trans hrow₀)
    have hbefore : row.supersededBy = none := by
      rcases hmerged.of_current hcurrent with ⟨k, hshared, hnewest⟩ | ⟨hactive, hother⟩
      · exact (h.newest k id row hshared hnewest hrow).2
      · exact h.rest id row hrow hof hactive fun k hkey hshared =>
          hother k hshared (hof.carried hrow hkey)
    cases hmerged with
    | won => exact (tenantUpdateRow_supersededBy _).trans hbefore
    | lost =>
        rw [tenantUpdateRow_isCurrent] at hcurrent
        cases hcurrent
    | left => exact (tenantUpdateRow_supersededBy _).trans hbefore
  acyclic := by
    intro hacyclic
    refine hacyclic.of_stops fun a b hab => ?_
    obtain ⟨row', hrow', hb⟩ := Option.bind_eq_some_iff.mp hab
    obtain ⟨row, hrow, hmerged⟩ := get?_of_mergeTenants hrow'
    rcases hmerged.supersededBy with hsame | ⟨k, winnerId, hshared, hnewest, -, hwinner⟩
    · exact Or.inl (Option.bind_eq_some_iff.mpr ⟨row, hrow, hsame ▸ hb⟩)
    · -- the winner of a key has no pointer of its own
      right
      obtain rfl : winnerId = b := Option.some.inj (hwinner.symm.trans hb)
      rw [supersededByOf, Option.bind_eq_none_iff]
      intro winner' hget
      obtain ⟨winner, hget₀, hmerged'⟩ := get?_of_mergeTenants hget
      have hnone := (h.newest k winnerId winner hshared hnewest hget₀).2
      exact (hmerged'.of_newest hshared hnewest).2.trans hnone
  one := by
    rintro k hshared -
    obtain ⟨id, hnewest⟩ := exists_newest host readTime hshared
    refine ⟨id, ⟨hnewest.carried, (activeAt_mergeTenants_iff hshared hnewest.carried).mpr hnewest⟩, ?_⟩
    rintro id' ⟨hcarried, hactive⟩
    exact ((activeAt_mergeTenants_iff hshared hcarried).mp hactive).eq hnewest
  none := by
    intro k hshared hno
    obtain ⟨id, hnewest⟩ := exists_newest host readTime hshared
    obtain ⟨row, hrow⟩ : ∃ row, rows.get? id = some row :=
      hnewest.carried.elim (fun ⟨row, hrow, _⟩ => ⟨row, hrow⟩) fun ⟨row, hrow, _⟩ => ⟨row, hrow⟩
    exact absurd ⟨id, hnewest.carried, row, hrow, (h.newest k id row hshared hnewest hrow).1⟩ hno
  others := by
    intro id row hrow hof hother
    obtain ⟨row', hrow', hmerged⟩ := get?_mergeTenants host readTime now fromUserId toUserId hrow
    refine ⟨row', hrow', ?_⟩
    have hkey : ∀ k, SharedKey fromUserId toUserId rows k →
        ¬(CarriedBy fromUserId rows k id ∨ CarriedBy toUserId rows k id) := by
      intro k hshared hcarried
      exact hother k (CarriedBy.factKey?_eq hrow hcarried) hshared
    cases hmerged with
    | won k hshared hnewest => exact absurd hnewest.carried (hkey k hshared)
    | lost k winnerId hshared hcarried => exact absurd hcarried (hkey k hshared)
    | left => exact tenantUpdateRow_lifecycle row

/-- **The merge of two tenants brings nothing back** exactly where the newest row of every shared
key is active and not superseded, and no other active row is superseded. -/
theorem mergeTenants_never_resurrects_iff (host : Host) (readTime : Int → ReadTime) (now : Int)
    (fromUserId toUserId : String) (rows : Rows) :
    NeverResurrects fromUserId toUserId rows
        (mergeTenants host readTime now fromUserId toUserId rows) ↔
      NothingToRevive host readTime fromUserId toUserId rows := by
  refine ⟨fun h => ⟨?_, ?_⟩, fun h => h.neverResurrects⟩
  · intro k id row hshared hnewest hrow
    obtain ⟨row', hrow', hmerged⟩ := get?_mergeTenants host readTime now fromUserId toUserId hrow
    obtain ⟨hcurrent, hsame⟩ := hmerged.of_newest hshared hnewest
    constructor
    · by_contra hinactive
      exact h.inactive id row hrow (Bool.eq_false_iff.mpr hinactive) ⟨row', hrow', hcurrent⟩
    · have hof : row.OfTenants fromUserId toUserId := by
        rcases hnewest.carried with ⟨row₀, hrow₀, hof, -⟩ | ⟨row₀, hrow₀, hof, -⟩
        · obtain rfl := Option.some.inj (hrow.symm.trans hrow₀)
          exact Or.inl hof
        · obtain rfl := Option.some.inj (hrow.symm.trans hrow₀)
          exact Or.inr hof
      exact hsame.symm.trans (h.unlinked id row row' hrow hof hrow' hcurrent)
  · intro id row hrow hof hcurrent hother
    obtain ⟨row', hrow', hlifecycle⟩ := h.others id row hrow hof hother
    obtain ⟨hactive, hsame⟩ := MemoryRow.of_lifecycle_eq hlifecycle
    rw [← hsame]
    exact h.unlinked id row row' hrow hof hrow' (hactive.trans hcurrent)

end

/-! ### A forgotten memory comes back -/

/-- A memory about the employer of a user. -/
def employerRow (userId text : String) (active : Bool) (updatedAt : Int) : MemoryRow where
  embedding := none
  payload := .ofList [("l2", .str text), ("userId", .str userId), ("factKey", .str "employer"),
    ("active", .bool active)]
  textNorm := text
  createdAt := 0
  updatedAt := updatedAt
  userId := some userId
  scope := some "user"
  sessionId := none
  path := none
  memoryRole := none
  validAt := none
  invalidAt := none
  confidence := none
  active := some active
  inactiveAt := if active then none else some (Date.toISOString updatedAt)
  inactiveReason := if active then none else some "forgotten"
  supersededBy := none
  supersedes := none
  lineageRootId := none
  processingLineage := none
  supersedeProvenance := none

/-- The memory of the one tenant was forgotten after that of the other was last written. -/
def employerRows : Rows :=
  .ofList [("m1", employerRow "old" "works at acme" false 2000),
    ("m2", employerRow "new" "works at globex" true 1000)]

theorem mergeTenants_revives_forgotten :
    ¬NeverResurrects "old" "new" employerRows
      (mergeTenants .ascii .date 3000 "old" "new" employerRows) := by
  intro h
  have hrevived : ((mergeTenants .ascii .date 3000 "old" "new" employerRows).get? "m1").any
      MemoryRow.isCurrent = true := by decide +kernel
  obtain ⟨row', hrow', hcurrent⟩ := (Option.any_eq_true ..).mp hrevived
  exact h.inactive "m1" _ rfl rfl ⟨row', hrow', hcurrent⟩

end Runir
