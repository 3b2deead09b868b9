import Mathlib.Data.List.Pairwise
import Runir.Recall.LatestState

/-!
# Recall — One row per state

The rows of a key are its seeds and what is hydrated for it, and the first of them represents it.

* `Leads`: a row comes first among those of its key, by their scores raised to the best of the seeds.
* `mem_representatives`, `mem_droppedSeedIds`: what is returned and dropped, by the rows that lead.
* `oneRowPerState_iff`: there is one current row per state exactly if the rows that lead do not
  overlap.
* `lineage_returned_twice`: two rows of one lineage, of which one has a subject.
-/

namespace Runir.Recall.LatestState
open List

variable {host : Host} {pool hydrated : List Hit}

/-- The rows of a key: its seeds, and those hydrated for it. -/
def rowsOf (pool hydrated : List Hit) (key : String) : List Hit := ofKey pool key ++ ofKey hydrated key

/-- A row with its score raised to the best of its seeds. -/
def raised (pool : List Hit) (row : Hit) : Hit :=
  mergeRepresentativeScore (bestOf (ofKey pool (getLatestStateIdentityKey row))) row

@[simp] theorem key_raised (pool : List Hit) (row : Hit) :
    getLatestStateIdentityKey (raised pool row) = getLatestStateIdentityKey row := rfl

@[simp] theorem active_raised (pool : List Hit) (row : Hit) :
    isActiveLineageBacked (raised pool row) = isActiveLineageBacked row := rfl

/-- A row comes first among those of its key, which has a seed. -/
structure Leads (host : Host) (pool hydrated : List Hit) (row : Hit) : Prop where
  seeded : ofKey pool (getLatestStateIdentityKey row) ≠ []
  first : (rowsOf pool hydrated (getLatestStateIdentityKey row)).find? (fun x =>
    ∀ y ∈ rowsOf pool hydrated (getLatestStateIdentityKey row),
      compareLatestStateRepresentatives host (raised pool x) (raised pool y)) = some row

variable {key : String}

theorem key_of_mem_rowsOf {row : Hit} (h : row ∈ rowsOf pool hydrated key) :
    getLatestStateIdentityKey row = key := by
  rcases mem_append.mp h with h | h
  · exact (mem_ofKey.mp h).2
  · exact (mem_ofKey.mp h).2

theorem Leads.precedes {row other : Hit} (h : Leads host pool hydrated row)
    (hother : other ∈ rowsOf pool hydrated (getLatestStateIdentityKey row)) :
    compareLatestStateRepresentatives host (raised pool row) (raised pool other) := by
  have hfirst := find?_some h.first
  rw [decide_eq_true_eq] at hfirst
  exact hfirst other hother

/-- One row leads those of a key. -/
theorem Leads.unique {row other : Hit} (h : Leads host pool hydrated row)
    (h' : Leads host pool hydrated other)
    (hkey : getLatestStateIdentityKey row = getLatestStateIdentityKey other) : row = other := by
  have hfirst := h.first
  rw [hkey, h'.first] at hfirst
  exact (Option.some.inj hfirst).symm

/-! ### The first of a group -/

theorem compare_total (hlocale : Std.TransCmp host.localeCompare) (a b : Hit) :
    compareLatestStateRepresentatives host a b ∨ compareLatestStateRepresentatives host b a := by
  refine Sorted.falling_total (Sorted.falling_total (Sorted.falling_total ?_)) a b
  intro a b
  by_cases h : host.localeCompare a.id b.id = .gt
  · right
    have hswap : host.localeCompare b.id a.id = (host.localeCompare a.id b.id).swap :=
      Std.OrientedCmp.eq_swap
    rw [hswap, h]
    decide
  · exact .inl h

theorem compare_trans (hlocale : Std.TransCmp host.localeCompare) (a b c : Hit)
    (hab : compareLatestStateRepresentatives host a b)
    (hbc : compareLatestStateRepresentatives host b c) :
    compareLatestStateRepresentatives host a c := by
  refine Sorted.falling_trans (Sorted.falling_trans (Sorted.falling_trans ?_)) a b c hab hbc
  intro a b c hab hbc
  exact Ordering.isLE_iff_ne_gt.mp (Std.TransCmp.isLE_trans (Ordering.isLE_iff_ne_gt.mpr hab)
    (Ordering.isLE_iff_ne_gt.mpr hbc))

theorem hydratedOf_eq (hydrated : List Hit) (group : CandidateGroup) :
    hydratedOf hydrated group = ofKey hydrated group.identityKey := by
  have hfilter : (hydrated.filter fun hit =>
      some (getLatestStateIdentityKey hit) = some group.identityKey) =
        ofKey hydrated group.identityKey := by
    simp [ofKey]
  rw [hydratedOf, get?_groupOn, hfilter]
  split
  · next hnil => rw [hnil, Option.getD_none]
  · rfl

variable {group : CandidateGroup}

theorem candidatesOf_eq (h : GroupOf pool key group) :
    candidatesOf hydrated group = (rowsOf pool hydrated key).map (raised pool) := by
  rw [candidatesOf, hydratedOf_eq, h.key_eq, h.hits_eq, h.best_eq]
  refine map_congr_left fun row hrow => ?_
  rw [raised, key_of_mem_rowsOf hrow]

/-- **What represents a group is the row that leads its key, raised.** -/
theorem representativeOf_eq_some (hlocale : Std.TransCmp host.localeCompare)
    (h : GroupOf pool key group) {rep : Hit} :
    representativeOf host hydrated group = some rep ↔
      ∃ row, getLatestStateIdentityKey row = key ∧ Leads host pool hydrated row ∧
        rep = raised pool row := by
  have hfind : representativeOf host hydrated group = ((rowsOf pool hydrated key).find? fun x =>
      ∀ y ∈ rowsOf pool hydrated key, compareLatestStateRepresentatives host (raised pool x)
        (raised pool y)).map (raised pool) := by
    rw [representativeOf, Sorted.head?_insertionSort (compare_total hlocale) (compare_trans hlocale),
      candidatesOf_eq h, find?_map]
    simp only [Function.comp_def, forall_mem_map]
  rw [hfind, Option.map_eq_some_iff]
  constructor
  · rintro ⟨row, hrow, rfl⟩
    have hkey := key_of_mem_rowsOf (mem_of_find?_eq_some hrow)
    exact ⟨row, hkey, ⟨by rw [hkey]; exact h.ne_nil, by rw [hkey]; exact hrow⟩, rfl⟩
  · rintro ⟨row, rfl, hlead, rfl⟩
    exact ⟨row, hlead.first, rfl⟩

theorem exists_representative (host : Host) (hydrated : List Hit)
    (h : GroupOf pool key group) : ∃ rep, representativeOf host hydrated group = some rep := by
  have hne : rowsOf pool hydrated key ≠ [] := append_ne_nil_of_left_ne_nil h.ne_nil _
  rw [← Option.isSome_iff_exists, representativeOf, isSome_head?, candidatesOf_eq h,
    ← length_pos_iff, length_insertionSort, length_map]
  exact length_pos_iff.mpr hne

/-- A key with a seed has a row that leads. -/
theorem exists_leads (hlocale : Std.TransCmp host.localeCompare) (hne : ofKey pool key ≠ []) :
    ∃ row, getLatestStateIdentityKey row = key ∧ Leads host pool hydrated row := by
  obtain ⟨group, -, hgroup⟩ := exists_group host hne
  obtain ⟨rep, hrep⟩ := exists_representative host hydrated hgroup
  obtain ⟨row, hkey, hlead, -⟩ := (representativeOf_eq_some hlocale hgroup).mp hrep
  exact ⟨row, hkey, hlead⟩

/-! ### What is returned -/

/-- What the lane makes of a pool, and of what is hydrated for it. -/
def resolved (host : Host) (pool hydrated : List Hit) : Resolution :=
  resolveLatestStateRepresentatives host (collapseLatestStateCandidates host pool) hydrated

/-- **The rows that lead are returned, raised.** -/
theorem mem_representatives (hlocale : Std.TransCmp host.localeCompare) {rep : Hit} :
    rep ∈ (resolved host pool hydrated).representatives ↔
      ∃ row, Leads host pool hydrated row ∧ rep = raised pool row := by
  rw [resolved, resolveLatestStateRepresentatives, mem_insertionSort, mem_filterMap]
  constructor
  · rintro ⟨group, hgroup, hrep⟩
    obtain ⟨row, -, hlead, rfl⟩ :=
      (representativeOf_eq_some hlocale (groupOf_of_mem_collapse hgroup)).mp hrep
    exact ⟨row, hlead, rfl⟩
  · rintro ⟨row, hlead, rfl⟩
    obtain ⟨group, hmem, hgroup⟩ := exists_group host hlead.seeded
    exact ⟨group, hmem, (representativeOf_eq_some hlocale hgroup).mpr ⟨row, rfl, hlead, rfl⟩⟩

/-- No two of them have a key in common. -/
theorem nodup_keys_representatives (hlocale : Std.TransCmp host.localeCompare) :
    ((resolved host pool hydrated).representatives.map getLatestStateIdentityKey).Nodup := by
  have hperm := perm_insertionSort (compareLatestStateRepresentatives host)
    ((collapseLatestStateCandidates host pool).filterMap (representativeOf host hydrated))
  refine (hperm.map getLatestStateIdentityKey).nodup_iff.mpr ?_
  have hkeys : ((collapseLatestStateCandidates host pool).filterMap
      (representativeOf host hydrated)).map getLatestStateIdentityKey =
        (collapseLatestStateCandidates host pool).map CandidateGroup.identityKey := by
    rw [map_filterMap]
    refine (filterMap_congr fun group hgroup => ?_).trans (congrFun filterMap_eq_map _)
    have hof := groupOf_of_mem_collapse hgroup
    obtain ⟨rep, hrep⟩ := exists_representative host hydrated hof
    obtain ⟨row, hkey, -, rfl⟩ := (representativeOf_eq_some hlocale hof).mp hrep
    rw [hrep, Option.map_some, key_raised, hkey]
    rfl
  rw [hkeys]
  exact nodup_collapse host pool

/-- **A seed is dropped whose key another row leads.** -/
theorem mem_droppedSeedIds (hlocale : Std.TransCmp host.localeCompare) {id : String} :
    id ∈ (resolved host pool hydrated).droppedSeedIds ↔
      ∃ seed ∈ pool, seed.id = id ∧ ∃ row, Leads host pool hydrated row ∧
        getLatestStateIdentityKey row = getLatestStateIdentityKey seed ∧ id ≠ row.id := by
  simp only [resolved, resolveLatestStateRepresentatives, mem_distinct, mem_flatMap, mem_map,
    mem_filter, Option.mem_toList, decide_eq_true_eq]
  constructor
  · rintro ⟨group, hgroup, rep, hrep, seed, ⟨hseed, hne⟩, rfl⟩
    have hof := groupOf_of_mem_collapse hgroup
    obtain ⟨row, hkey, hlead, rfl⟩ := (representativeOf_eq_some hlocale hof).mp hrep
    rw [hof.hits_eq] at hseed
    obtain ⟨hpool, hseedKey⟩ := mem_ofKey.mp hseed
    exact ⟨seed, hpool, rfl, row, hlead, hkey.trans hseedKey.symm, hne⟩
  · rintro ⟨seed, hpool, rfl, row, hlead, hkey, hne⟩
    obtain ⟨group, hmem, hgroup⟩ := exists_group host hlead.seeded
    refine ⟨group, hmem, raised pool row,
      (representativeOf_eq_some hlocale hgroup).mpr ⟨row, rfl, hlead, rfl⟩, seed, ⟨?_, hne⟩, rfl⟩
    rw [hgroup.hits_eq]
    exact mem_ofKey.mpr ⟨hpool, hkey.symm⟩

/-! ### One row per state -/

/-- A row is the current one of its group: it is active and of a lineage where the group has such a
row, and none of them of at least its score is more recent. -/
structure Current (host : Host) (pool hydrated : List Hit) (rep : Hit) : Prop where
  active : (∃ row ∈ rowsOf pool hydrated (getLatestStateIdentityKey rep),
    isActiveLineageBacked row = true) → isActiveLineageBacked rep = true
  recent : isActiveLineageBacked rep = true →
    ∀ row ∈ rowsOf pool hydrated (getLatestStateIdentityKey rep), isActiveLineageBacked row = true →
      rep.score ≤ (raised pool row).score → currentSince host row ≤ currentSince host rep

/-- What the lane is to make of a pool. -/
structure OneRowPerState (host : Host) (pool hydrated : List Hit) (r : Resolution) : Prop where
  ids : (r.representatives.map Hit.id).Nodup
  subjects : r.representatives.Pairwise fun a b => ∀ subject,
    a.continuitySubjectKey = some subject → b.continuitySubjectKey ≠ some subject
  roots : r.representatives.Pairwise fun a b => ∀ root,
    a.lineageRootId = some root → b.lineageRootId ≠ some root
  covered : ∀ seed ∈ pool, ∃ rep ∈ r.representatives,
    getLatestStateIdentityKey rep = getLatestStateIdentityKey seed
  current : ∀ rep ∈ r.representatives, Current host pool hydrated rep
  dropped : ∀ id, id ∈ r.droppedSeedIds ↔
    id ∈ pool.map Hit.id ∧ id ∉ r.representatives.map Hit.id

/-- Rows of different keys of which one leads are not of one id or, if both lead, of one lineage. -/
structure LeadersApart (host : Host) (pool hydrated : List Hit) : Prop where
  seeds : ∀ row, Leads host pool hydrated row → ∀ seed ∈ pool,
    getLatestStateIdentityKey seed ≠ getLatestStateIdentityKey row → seed.id ≠ row.id
  ids : ∀ row other, Leads host pool hydrated row → Leads host pool hydrated other →
    getLatestStateIdentityKey row ≠ getLatestStateIdentityKey other → row.id ≠ other.id
  roots : ∀ row other, Leads host pool hydrated row → Leads host pool hydrated other →
    getLatestStateIdentityKey row ≠ getLatestStateIdentityKey other →
      ∀ root, row.lineageRootId = some root → other.lineageRootId ≠ some root

/-- **A row that leads is the current one.** -/
theorem current_raised {row : Hit} (h : Leads host pool hydrated row) :
    Current host pool hydrated (raised pool row) where
  active := by
    rintro ⟨other, hother, hactive⟩
    have hle := (h.precedes hother).le
    rw [active_raised, active_raised, hactive] at hle
    rw [active_raised]
    exact Bool.eq_true_of_true_le hle
  recent := by
    intro hrep other hother hactive hscore
    have hprecedes := h.precedes hother
    have htruth : isActiveLineageBacked (raised pool row) ≤
        isActiveLineageBacked (raised pool other) := by
      rw [hrep, active_raised, hactive]
    have hrest := (hprecedes.rest htruth).2
    exact (hrest.rest hscore).2.le

theorem ids_of_apart (hlocale : Std.TransCmp host.localeCompare)
    (h : LeadersApart host pool hydrated) :
    ((resolved host pool hydrated).representatives.map Hit.id).Nodup := by
  refine pairwise_map.mpr ((pairwise_map.mp (nodup_keys_representatives hlocale)).imp_of_mem ?_)
  intro a b ha hb hkeys
  obtain ⟨row, hrow, rfl⟩ := (mem_representatives hlocale).mp ha
  obtain ⟨other, hother, rfl⟩ := (mem_representatives hlocale).mp hb
  exact h.ids row other hrow hother hkeys

theorem roots_of_apart (hlocale : Std.TransCmp host.localeCompare)
    (h : LeadersApart host pool hydrated) :
    (resolved host pool hydrated).representatives.Pairwise fun a b => ∀ root,
      a.lineageRootId = some root → b.lineageRootId ≠ some root := by
  refine (pairwise_map.mp (nodup_keys_representatives hlocale)).imp_of_mem ?_
  intro a b ha hb hkeys
  obtain ⟨row, hrow, rfl⟩ := (mem_representatives hlocale).mp ha
  obtain ⟨other, hother, rfl⟩ := (mem_representatives hlocale).mp hb
  exact h.roots row other hrow hother hkeys

/-- A subject is a key, so no two rows of different keys share one. -/
theorem subjects_apart (hlocale : Std.TransCmp host.localeCompare) :
    (resolved host pool hydrated).representatives.Pairwise fun a b => ∀ subject,
      a.continuitySubjectKey = some subject → b.continuitySubjectKey ≠ some subject := by
  refine (pairwise_map.mp (nodup_keys_representatives hlocale)).imp ?_
  intro a b hkeys subject ha hb
  refine hkeys ?_
  rw [getLatestStateIdentityKey, getLatestStateIdentityKey, ha, hb]
  rfl

theorem exists_representative_of_seed (hlocale : Std.TransCmp host.localeCompare)
    (hydrated : List Hit) {seed : Hit} (hseed : seed ∈ pool) : ∃ row, Leads host pool hydrated row ∧
      getLatestStateIdentityKey row = getLatestStateIdentityKey seed := by
  have hne : ofKey pool (getLatestStateIdentityKey seed) ≠ [] :=
    ne_nil_of_mem (mem_ofKey.mpr ⟨hseed, rfl⟩)
  obtain ⟨row, hkey, hlead⟩ := exists_leads hlocale hne
  exact ⟨row, hlead, hkey⟩

theorem dropped_of_apart (hlocale : Std.TransCmp host.localeCompare)
    (h : LeadersApart host pool hydrated) (id : String) :
    id ∈ (resolved host pool hydrated).droppedSeedIds ↔
      id ∈ pool.map Hit.id ∧ id ∉ (resolved host pool hydrated).representatives.map Hit.id := by
  rw [mem_droppedSeedIds hlocale]
  constructor
  · rintro ⟨seed, hseed, rfl, row, hrow, hkey, hne⟩
    refine ⟨mem_map_of_mem hseed, fun hmem => ?_⟩
    obtain ⟨rep, hrep, hid⟩ := mem_map.mp hmem
    obtain ⟨other, hother, rfl⟩ := (mem_representatives hlocale).mp hrep
    by_cases hsame : getLatestStateIdentityKey seed = getLatestStateIdentityKey other
    · -- the row of its own key is not of its id
      rw [hrow.unique hother (hkey.trans hsame)] at hne
      exact hne hid.symm
    · exact h.seeds other hother seed hseed hsame hid.symm
  · rintro ⟨hmem, hnot⟩
    obtain ⟨seed, hseed, rfl⟩ := mem_map.mp hmem
    obtain ⟨row, hrow, hkey⟩ := exists_representative_of_seed hlocale hydrated hseed
    refine ⟨seed, hseed, rfl, row, hrow, hkey, fun hid => hnot ?_⟩
    exact mem_map.mpr ⟨raised pool row, (mem_representatives hlocale).mpr ⟨row, hrow, rfl⟩, hid.symm⟩

/-- Rows that are returned do not overlap where the result is sound. -/
theorem apart_of_oneRow (hlocale : Std.TransCmp host.localeCompare)
    (h : OneRowPerState host pool hydrated (resolved host pool hydrated)) :
    LeadersApart host pool hydrated := by
  have hreturned : ∀ row, Leads host pool hydrated row →
      raised pool row ∈ (resolved host pool hydrated).representatives := fun row hrow =>
    (mem_representatives hlocale).mpr ⟨row, hrow, rfl⟩
  have hids : ∀ row other, Leads host pool hydrated row → Leads host pool hydrated other →
      row.id = other.id → raised pool row = raised pool other := fun row other hrow hother hid =>
    inj_on_of_nodup_map h.ids (hreturned row hrow) (hreturned other hother) hid
  have hkeys : ∀ row other, raised pool row = raised pool other →
      getLatestStateIdentityKey row = getLatestStateIdentityKey other := by
    intro row other hsame
    have hkey := congrArg getLatestStateIdentityKey hsame
    rwa [key_raised, key_raised] at hkey
  refine ⟨?_, ?_, ?_⟩
  · intro row hrow seed hseed hne hid
    obtain ⟨own, hown, hkey⟩ := exists_representative_of_seed hlocale hydrated hseed
    have hother : own.id ≠ row.id := fun hsame =>
      hne (hkey.symm.trans (hkeys own row (hids own row hown hrow hsame)))
    -- the seed is dropped for its own group, and returned for the other
    have hdropped := (mem_droppedSeedIds hlocale).mpr ⟨seed, hseed, rfl, own, hown, hkey, fun hsame =>
      hother (hsame.symm.trans hid)⟩
    refine ((h.dropped seed.id).mp hdropped).2 ?_
    exact mem_map.mpr ⟨raised pool row, hreturned row hrow, hid.symm⟩
  · intro row other hrow hother hne hid
    exact hne (hkeys row other (hids row other hrow hother hid))
  · intro row other hrow hother hne
    have hsymm : Std.Symm fun a b : Hit => ∀ root,
        a.lineageRootId = some root → b.lineageRootId ≠ some root :=
      ⟨fun a b hab root hb ha => hab root ha hb⟩
    have happart : ∀ root, (raised pool row).lineageRootId = some root →
        (raised pool other).lineageRootId ≠ some root :=
      h.roots.forall (hreturned row hrow) (hreturned other hother)
        fun hsame => hne (hkeys row other hsame)
    exact happart

/-- **There is one current row per state exactly if the rows that lead do not overlap.** -/
theorem oneRowPerState_iff (hlocale : Std.TransCmp host.localeCompare) :
    OneRowPerState host pool hydrated (resolveLatestStateRepresentatives host
        (collapseLatestStateCandidates host pool) hydrated) ↔ LeadersApart host pool hydrated := by
  refine ⟨apart_of_oneRow hlocale, fun h => ⟨ids_of_apart hlocale h, subjects_apart hlocale,
    roots_of_apart hlocale h, ?_, ?_, dropped_of_apart hlocale h⟩⟩
  · intro seed hseed
    obtain ⟨row, hrow, hkey⟩ := exists_representative_of_seed hlocale hydrated hseed
    exact ⟨raised pool row, (mem_representatives hlocale).mpr ⟨row, hrow, rfl⟩, hkey⟩
  · intro rep hrep
    obtain ⟨row, hrow, rfl⟩ := (mem_representatives hlocale).mp hrep
    exact current_raised hrow

/-- Two rows of a lineage, the second of which has a subject. -/
def splitLineage : List Hit :=
  [{ id := "a", score := 9 / 10, lineageRootId := some "L" },
    { id := "b", score := 8 / 10, lineageRootId := some "L", continuitySubjectKey := some "S" }]

theorem oneRowPerState_iff_split : OneRowPerState .ascii splitLineage []
    (resolveLatestStateRepresentatives .ascii (collapseLatestStateCandidates .ascii splitLineage)
      []) ↔ LeadersApart .ascii splitLineage [] :=
  oneRowPerState_iff (inferInstanceAs (Std.TransCmp fun a b : String => compare a b))

/-- **Both rows of one lineage are returned.** -/
theorem lineage_returned_twice : ¬OneRowPerState .ascii splitLineage []
    (resolveLatestStateRepresentatives .ascii (collapseLatestStateCandidates .ascii splitLineage)
      []) := by
  intro h
  have hroots : (resolveLatestStateRepresentatives .ascii
      (collapseLatestStateCandidates .ascii splitLineage) []).representatives.map
        Hit.lineageRootId = [some "L", some "L"] := by decide +kernel
  have hpairs : [some "L", some "L"].Pairwise fun x y : Option String => ∀ root,
      x = some root → y ≠ some root := by
    rw [← hroots]
    exact pairwise_map.mpr h.roots
  exact (pairwise_cons.mp hpairs).1 (some "L") mem_cons_self "L" rfl rfl

end Runir.Recall.LatestState
