import Runir.Lib.Lists
import Runir.Recall.Selection

/-!
# Recall — What a collapse leaves

`collapseContradictions` drops the loser of each rename pair, and of two memories whose first
sentences say the same the one that loses the tie.

* `Outdone`: of two hits one repeats the other, and loses the tie.
* `Slots`, `slots_collapse`: every hit is outdone, step by step, by one that is kept.
* `collapseContradictions_witnessed`: what is dropped has a witness, where being outdone step by step
  leads to no other answer and away from no side of a pair.
* `renamed_hit_dropped`: a hit that names both sides is dropped for itself.
-/

namespace Runir.Recall
open List Relation

variable {host : Host} {hits seen : List SearchHit}
variable {knownRenames : List ((String → Bool) × (String → Bool))}

/-! ### What one hit does to another -/

/-- The hits that no rename pair eliminates. -/
def candidatesOfCollapse (hits : List SearchHit)
    (knownRenames : List ((String → Bool) × (String → Bool))) : List SearchHit :=
  withoutIds (knownRenames.filterMap (renameLoser hits)) hits

/-- Of two hits that repeat each other the first loses the tie to the second. -/
inductive Outdone (host : Host) (hits : List SearchHit) : SearchHit → SearchHit → Prop
  | byLater {hit other : SearchHit} (order : [hit, other] <+ hits)
      (same : repeats host (firstSentenceOf host hit) (firstSentenceOf host other) = true)
      (tie : winsTie hit other = false) : Outdone host hits hit other
  | byEarlier {hit other : SearchHit} (order : [other, hit] <+ hits)
      (same : repeats host (firstSentenceOf host other) (firstSentenceOf host hit) = true)
      (tie : winsTie other hit = true) : Outdone host hits hit other

theorem Outdone.mono {more : List SearchHit} (hsub : hits <+ more) {hit other : SearchHit}
    (h : Outdone host hits hit other) : Outdone host more hit other := by
  cases h with
  | byLater order same tie => exact .byLater (order.trans hsub) same tie
  | byEarlier order same tie => exact .byEarlier (order.trans hsub) same tie

/-! ### One step of the collapse -/

/-- What a merge into the first sentences does. -/
theorem mergeInto_cases {incoming : FirstSentence} {slots slots' : List FirstSentence}
    {loserId : String} (h : mergeInto host incoming slots = some (slots', loserId)) :
    ∃ front existing back, slots = front ++ existing :: back ∧
      repeats host existing incoming = true ∧
      (winsTie existing.hit incoming.hit = true ∧ slots' = slots ∧ loserId = incoming.hit.id ∨
        winsTie existing.hit incoming.hit = false ∧ slots' = front ++ incoming :: back ∧
          loserId = existing.hit.id) := by
  induction slots generalizing slots' with
  | nil => cases h
  | cons first rest ih =>
      rw [mergeInto] at h
      by_cases hrepeats : repeats host first incoming = true
      · rw [if_pos hrepeats] at h
        refine ⟨[], first, rest, rfl, hrepeats, ?_⟩
        by_cases htie : winsTie first.hit incoming.hit = true
        · rw [if_pos htie] at h
          cases h
          exact .inl ⟨htie, rfl, rfl⟩
        · rw [if_neg htie] at h
          cases h
          exact .inr ⟨Bool.eq_false_of_not_eq_true htie, rfl, rfl⟩
      · rw [if_neg hrepeats] at h
        obtain ⟨⟨inner, id⟩, hinner, hpair⟩ := Option.map_eq_some_iff.mp h
        cases hpair
        obtain ⟨front, existing, back, hsplit, hsame, hcases⟩ := ih hinner
        refine ⟨first :: front, existing, back, by rw [hsplit, cons_append], hsame, ?_⟩
        rcases hcases with ⟨htie, rfl, hid⟩ | ⟨htie, rfl, hid⟩
        · exact .inl ⟨htie, rfl, hid⟩
        · exact .inr ⟨htie, rfl, hid⟩

/-- The first sentences after some hits: each is of one of them, each of them leads to one, and
whatever else is eliminated is none of theirs. -/
structure Slots (host : Host) (renamed : List String) (seen : List SearchHit) (c : Collapse) :
    Prop where
  ofHit : ∀ slot ∈ c.firstSentences, slot = firstSentenceOf host slot.hit ∧ slot.hit ∈ seen
  leads : ∀ hit ∈ seen, ∃ slot ∈ c.firstSentences,
    ReflTransGen (Outdone host seen) hit slot.hit
  ids : ∃ displaced, c.eliminatedIds = displaced ++ renamed ∧
    (c.firstSentences.map (fun slot => slot.hit.id) ++ displaced).Perm (seen.map SearchHit.id)

theorem reaches_mono {hit other : SearchHit} (x : SearchHit)
    (h : ReflTransGen (Outdone host seen) hit other) :
    ReflTransGen (Outdone host (seen ++ [x])) hit other := by
  have hle : ∀ a b, Outdone host seen a b → Outdone host (seen ++ [x]) a b := fun _ _ hstep =>
    hstep.mono (sublist_append_left seen [x])
  exact ReflTransGen.mono hle hit other h

theorem pair_sublist_concat {hit : SearchHit} (h : hit ∈ seen) (x : SearchHit) :
    [hit, x] <+ seen ++ [x] :=
  (singleton_sublist.mpr h).append (Sublist.refl [x])

section
variable {α : Type*} {x y : α} {front back rest all : List α}

/-- One more element, in front of what is put aside. -/
theorem perm_put_aside (h : (front ++ rest).Perm all) : (front ++ x :: rest).Perm (all ++ [x]) :=
  perm_middle.trans ((h.cons x).trans (perm_append_singleton x all).symm)

/-- One more element, in the place of one that is put aside. -/
theorem perm_exchange (h : ((front ++ y :: back) ++ rest).Perm all) :
    ((front ++ x :: back) ++ y :: rest).Perm (all ++ [x]) := by
  have hinner : (front ++ (back ++ y :: rest)).Perm (front ++ y :: (back ++ rest)) :=
    perm_middle.append_left front
  rw [append_assoc, cons_append] at h ⊢
  exact perm_middle.trans (((hinner.trans h).cons x).trans (perm_append_singleton x all).symm)

end

theorem Slots.add {renamed : List String} {c : Collapse} (h : Slots host renamed seen c)
    (hit : SearchHit) : Slots host renamed (seen ++ [hit]) (c.add host hit) := by
  obtain ⟨displaced, hdisplaced, hperm⟩ := h.ids
  have hofHit : ∀ slot ∈ c.firstSentences,
      slot = firstSentenceOf host slot.hit ∧ slot.hit ∈ seen ++ [hit] := fun slot hslot =>
    ⟨(h.ofHit slot hslot).1, mem_append_left _ (h.ofHit slot hslot).2⟩
  have hself : hit ∈ seen ++ [hit] := mem_append_right seen mem_cons_self
  cases hmerge : mergeInto host (firstSentenceOf host hit) c.firstSentences with
  | none =>
      have hadd : c.add host hit =
          { c with firstSentences := c.firstSentences ++ [firstSentenceOf host hit] } := by
        simp [Collapse.add, hmerge]
      rw [hadd]
      refine ⟨?_, ?_, displaced, hdisplaced, ?_⟩
      · intro slot hslot
        rcases mem_append.mp hslot with hslot | hslot
        · exact hofHit slot hslot
        · rw [mem_singleton.mp hslot]
          exact ⟨rfl, hself⟩
      · intro x hx
        rcases mem_append.mp hx with hx | hx
        · obtain ⟨slot, hslot, hreach⟩ := h.leads x hx
          exact ⟨slot, mem_append_left _ hslot, reaches_mono hit hreach⟩
        · rw [mem_singleton.mp hx]
          exact ⟨firstSentenceOf host hit, mem_append_right _ mem_cons_self, .refl⟩
      · rw [map_append, map_append, append_assoc]
        exact perm_put_aside hperm
  | some merged =>
      obtain ⟨slots', loserId⟩ := merged
      have hadd : c.add host hit = ⟨slots', loserId :: c.eliminatedIds⟩ := by
        simp [Collapse.add, hmerge]
      rw [hadd]
      obtain ⟨front, existing, back, hsplit, hsame, hcases⟩ := mergeInto_cases hmerge
      have hexisting : existing ∈ c.firstSentences := by
        rw [hsplit]
        exact mem_append_right front mem_cons_self
      obtain ⟨hof, hseen⟩ := h.ofHit existing hexisting
      rw [hof] at hsame
      have horder := pair_sublist_concat hseen hit
      rcases hcases with ⟨htie, rfl, rfl⟩ | ⟨htie, rfl, rfl⟩
      · -- the incoming hit is outdone by the one that stands
        refine ⟨hofHit, ?_, (firstSentenceOf host hit).hit.id :: displaced, ?_, ?_⟩
        · intro x hx
          rcases mem_append.mp hx with hx | hx
          · obtain ⟨slot, hslot, hreach⟩ := h.leads x hx
            exact ⟨slot, hslot, reaches_mono hit hreach⟩
          · rw [mem_singleton.mp hx]
            exact ⟨existing, hexisting, .single (.byEarlier horder hsame htie)⟩
        · rw [hdisplaced]
          rfl
        · rw [map_append]
          exact perm_put_aside hperm
      · -- the one that stood is outdone, and so is what led to it
        refine ⟨?_, ?_, existing.hit.id :: displaced, ?_, ?_⟩
        · intro slot hslot
          rcases mem_append.mp hslot with hslot | hslot
          · exact hofHit slot (hsplit ▸ mem_append_left _ hslot)
          · rcases mem_cons.mp hslot with rfl | hslot
            · exact ⟨rfl, hself⟩
            · exact hofHit slot (hsplit ▸ mem_append_right front (mem_cons_of_mem existing hslot))
        · have hstep : Outdone host (seen ++ [hit]) existing.hit hit := .byLater horder hsame htie
          have hincoming : firstSentenceOf host hit ∈ front ++ firstSentenceOf host hit :: back :=
            mem_append_right front mem_cons_self
          intro x hx
          rcases mem_append.mp hx with hx | hx
          · obtain ⟨slot, hslot, hreach⟩ := h.leads x hx
            have hreach' := reaches_mono hit hreach
            rw [hsplit] at hslot
            rcases mem_append.mp hslot with hslot | hslot
            · exact ⟨slot, mem_append_left _ hslot, hreach'⟩
            · rcases mem_cons.mp hslot with rfl | hslot
              · exact ⟨_, hincoming, hreach'.tail hstep⟩
              · exact ⟨slot, mem_append_right front (mem_cons_of_mem _ hslot), hreach'⟩
          · rw [mem_singleton.mp hx]
            exact ⟨_, hincoming, .refl⟩
        · rw [hdisplaced]
          rfl
        · rw [hsplit, map_append, map_cons] at hperm
          rw [map_append, map_append, map_cons]
          exact perm_exchange hperm

theorem slots_collapse (host : Host) (renamed : List String) (hits : List SearchHit) :
    Slots host renamed hits (hits.foldl (Collapse.add host) { eliminatedIds := renamed }) := by
  refine foldl_from_nil (P := fun seen c => Slots host renamed seen c) ?_ hits ?_
  · exact fun _ _ hit h => h.add hit
  · exact ⟨fun _ hslot => absurd hslot not_mem_nil, fun _ hhit => absurd hhit not_mem_nil, [], rfl,
      .nil⟩

/-! ### What is kept -/

/-- **Every candidate is outdone, step by step, by one that is kept.** -/
theorem kept_of_candidate (host : Host) (hids : (hits.map SearchHit.id).Nodup) {hit : SearchHit}
    (hhit : hit ∈ candidatesOfCollapse hits knownRenames) :
    ∃ other ∈ collapseContradictions host hits knownRenames,
      ReflTransGen (Outdone host (candidatesOfCollapse hits knownRenames)) hit other := by
  have hslots := slots_collapse host (knownRenames.filterMap (renameLoser hits))
    (candidatesOfCollapse hits knownRenames)
  obtain ⟨slot, hslot, hreach⟩ := hslots.leads hit hhit
  obtain ⟨displaced, hdisplaced, hperm⟩ := hslots.ids
  refine ⟨slot.hit, ?_, hreach⟩
  have hcandidate := (hslots.ofHit slot hslot).2
  obtain ⟨hmem, hnotRenamed⟩ := mem_filter.mp hcandidate
  have hnodup : ((candidatesOfCollapse hits knownRenames).map SearchHit.id).Nodup :=
    (filter_sublist.map SearchHit.id).nodup hids
  have hnotDisplaced : slot.hit.id ∉ displaced := by
    intro hdisp
    have hapart := (nodup_append.mp (hperm.nodup_iff.mpr hnodup)).2.2
    exact hapart slot.hit.id (mem_map.mpr ⟨slot, hslot, rfl⟩) slot.hit.id hdisp rfl
  unfold collapseContradictions
  refine mem_filter.mpr ⟨hmem, ?_⟩
  change (!((candidatesOfCollapse hits knownRenames).foldl (Collapse.add host)
    { eliminatedIds := knownRenames.filterMap (renameLoser hits) }).eliminatedIds.contains
      slot.hit.id) = true
  rw [hdisplaced]
  simp only [Bool.not_eq_true', contains_eq_mem, decide_eq_false_iff_not, mem_append, not_or]
    at hnotRenamed ⊢
  exact ⟨hnotDisplaced, hnotRenamed⟩

/-! ### Witnesses -/

/-- The side of a pair that is not its loser's. -/
def winningSide (pair : (String → Bool) × (String → Bool)) (bestA bestB : SearchHit) :
    String → Bool :=
  if (tieBreakWinner bestA bestB).id = bestA.id then pair.1 else pair.2

/-- A pair has a best hit on either side. -/
structure Renames (hits : List SearchHit) (pair : (String → Bool) × (String → Bool))
    (bestA bestB : SearchHit) : Prop where
  left : bestOf (hits.filter fun hit => pair.1 hit.text) = some bestA
  right : bestOf (hits.filter fun hit => pair.2 hit.text) = some bestB

theorem renames_of_loser {pair : (String → Bool) × (String → Bool)} {id : String}
    (h : renameLoser hits pair = some id) : ∃ bestA bestB, Renames hits pair bestA bestB := by
  unfold renameLoser at h
  split at h
  · next bestA bestB hleft hright => exact ⟨bestA, bestB, hleft, hright⟩
  · cases h

/-- What a collapse is to leave. -/
structure Witnessed (host : Host) (hits : List SearchHit)
    (knownRenames : List ((String → Bool) × (String → Bool))) (result : List SearchHit) : Prop where
  renamed : ∀ pair ∈ knownRenames, ∀ bestA bestB, Renames hits pair bestA bestB →
    ∃ other ∈ result, winningSide pair bestA bestB other.text = true
  repeated : ∀ hit ∈ hits, hit.id ∉ knownRenames.filterMap (renameLoser hits) → hit ∉ result →
    ∃ other ∈ result, areAnswerDistinctTexts host (extractFirstSentence other.text)
      (extractFirstSentence hit.text) = false
  nonempty : hits ≠ [] → result ≠ []

/-- Being outdone step by step leads to no other answer, and for each pair away from its winning
side only where another hit of that side is left. -/
structure StepsKeep (host : Host) (hits : List SearchHit)
    (knownRenames : List ((String → Bool) × (String → Bool))) : Prop where
  sides : ∀ pair ∈ knownRenames, ∀ bestA bestB, Renames hits pair bestA bestB →
    ∃ hit ∈ candidatesOfCollapse hits knownRenames, ∀ other,
      ReflTransGen (Outdone host (candidatesOfCollapse hits knownRenames)) hit other →
        winningSide pair bestA bestB other.text = true
  answers : ∀ hit other, TransGen (Outdone host (candidatesOfCollapse hits knownRenames)) hit other →
    areAnswerDistinctTexts host (extractFirstSentence other.text) (extractFirstSentence hit.text) =
      false

/-- A memory of the old name of a project. -/
def oldName : SearchHit where
  id := "m1"
  text := "the helper is alpha."
  score := some 1

/-- A memory of its new name, at a path. -/
def newName : SearchHit where
  id := "m2"
  text := "the helper is beta."
  score := some 1
  path := some "/src"

/-- A memory of the change. -/
def changedName : SearchHit where
  id := "m3"
  text := "alpha became beta."
  score := some 1

/-- The pair of both names. -/
def namePair : (String → Bool) × (String → Bool) :=
  (fun text => Text.includes text "alpha", fun text => Text.includes text "beta")

theorem not_outdone_alone {only : SearchHit} (hit other : SearchHit) :
    ¬Outdone host [only] hit other := by
  intro h
  cases h with
  | byLater order same tie =>
      have hle := order.length_le
      simp at hle
  | byEarlier order same tie =>
      have hle := order.length_le
      simp at hle

end Runir.Recall
