import Mathlib.Data.List.Forall2

/-!
# Library — Leftmost

Finding again, from their keys alone, the places a list was read at: `leftmost keys start ks` looks
for each of `ks` the first place with that key after the place of the one before.

* `leftmost_of_places`: the keys of rising places are all found, at places that are no later.
* `leftmost_eq_iff`: they are found where they were read if and only if no place that was not read
  has the key of a later one that was, with none that was read between the two.
-/

namespace Runir.Leftmost
variable {κ : Type*} {keys ks : List κ} {start : Nat} {places : List Nat}

/-- The places are at `start` or after it, each after the one before. -/
def Rising : Nat → List Nat → Prop
  | _, [] => True
  | start, s :: ss => start ≤ s ∧ Rising (s + 1) ss

theorem Rising.le (h : Rising start places) {s : Nat} (hs : s ∈ places) : start ≤ s := by
  induction places generalizing start with
  | nil => simp at hs
  | cons p ps ih =>
      rcases List.mem_cons.mp hs with rfl | hs
      · exact h.1
      · exact Nat.le_trans (Nat.le_succ_of_le h.1) (ih h.2 hs)

theorem rising_iff : Rising start places ↔ (∀ s ∈ places, start ≤ s) ∧ places.Pairwise (· < ·) := by
  induction places generalizing start with
  | nil => simp [Rising]
  | cons p ps ih =>
      simp only [Rising, List.mem_cons, forall_eq_or_imp, List.pairwise_cons]
      constructor
      · rintro ⟨hp, hrest⟩
        refine ⟨⟨hp, fun s hs => ?_⟩, fun s hs => hrest.le hs, (ih.mp hrest).2⟩
        exact Nat.le_trans (Nat.le_succ_of_le hp) (hrest.le hs)
      · rintro ⟨⟨hp, -⟩, hlater, hps⟩
        exact ⟨hp, ih.mpr ⟨hlater, hps⟩⟩

/-- `places` are places of `keys` at which `ks` stand, in order. -/
def Places (keys : List κ) (places : List Nat) (ks : List κ) : Prop :=
  List.Forall₂ (fun s k => keys[s]? = some k) places ks

theorem places_filterMap (h : ∀ s ∈ places, s < keys.length) :
    Places keys places (places.filterMap fun s => keys[s]?) := by
  induction places with
  | nil => exact .nil
  | cons p ps ih =>
      have hp := List.getElem?_eq_getElem (h p List.mem_cons_self)
      rw [List.filterMap_cons_some hp]
      exact .cons hp (ih fun s hs => h s (List.mem_cons_of_mem p hs))

theorem Places.filterMap_eq (h : Places keys places ks) :
    places.filterMap (fun s => keys[s]?) = ks := by
  induction h with
  | nil => rfl
  | cons hk _ ih => rw [List.filterMap_cons_some hk, ih]

theorem Places.lt_length (h : Places keys places ks) {s : Nat} (hs : s ∈ places) :
    s < keys.length := by
  induction h with
  | nil => simp at hs
  | cons hk _ ih =>
      rcases List.mem_cons.mp hs with rfl | hs
      · exact (List.getElem?_eq_some_iff.mp hk).1
      · exact ih hs

/-- Keys, each with the place it stands at. -/
theorem Places.map_zip (h : Places keys places ks) :
    (ks.zip places).map Prod.snd = places ∧ (ks.zip places).map Prod.fst = ks ∧
      ∀ e ∈ ks.zip places, keys[e.2]? = some e.1 := by
  induction h with
  | nil => simp
  | cons hk _ ih =>
      obtain ⟨hsnd, hfst, hat⟩ := ih
      refine ⟨by simp [hsnd], by simp [hfst], fun e he => ?_⟩
      rcases List.mem_cons.mp he with rfl | he
      · exact hk
      · exact hat e he

variable [DecidableEq κ]

/-- The first place with the key `k` at `start` or after it. -/
def firstAt (keys : List κ) (start : Nat) (k : κ) : Option Nat :=
  (List.range keys.length).find? fun i => decide (start ≤ i) && decide (keys[i]? = some k)

/-- The first places of `ks`, each after the one before. -/
def leftmost (keys : List κ) : Nat → List κ → Option (List Nat)
  | _, [] => some []
  | start, k :: ks =>
      (firstAt keys start k).bind fun i => (leftmost keys (i + 1) ks).map (i :: ·)

theorem firstAt_eq_some {k : κ} {i : Nat} :
    firstAt keys start k = some i ↔
      (start ≤ i ∧ keys[i]? = some k) ∧ ∀ j, start ≤ j → j < i → keys[j]? ≠ some k := by
  rw [firstAt, List.find?_range_eq_some]
  simp only [Bool.and_eq_true, decide_eq_true_eq, List.mem_range, Bool.not_eq_true',
    Bool.and_eq_false_iff, decide_eq_false_iff_not]
  constructor
  · rintro ⟨hi, -, hfirst⟩
    refine ⟨hi, fun j hstart hj hkey => ?_⟩
    rcases hfirst j hj with h | h
    · exact h hstart
    · exact h hkey
  · rintro ⟨hi, hfirst⟩
    refine ⟨hi, (List.getElem?_eq_some_iff.mp hi.2).1, fun j hj => ?_⟩
    by_cases hstart : start ≤ j
    · exact Or.inr (hfirst j hstart hj)
    · exact Or.inl hstart

/-- A key that stands at a place is found, there or before. -/
theorem firstAt_of_place {k : κ} {s : Nat} (hstart : start ≤ s) (hs : keys[s]? = some k) :
    ∃ i, firstAt keys start k = some i ∧ i ≤ s := by
  have hlength := (List.getElem?_eq_some_iff.mp hs).1
  cases hfound : firstAt keys start k with
  | none =>
      have hnone := List.find?_eq_none.mp hfound s (List.mem_range.mpr hlength)
      simp [hstart, hs] at hnone
  | some i =>
      refine ⟨i, rfl, Nat.le_of_not_lt fun hlt => ?_⟩
      exact (firstAt_eq_some.mp hfound).2 s hstart hlt hs

/-- **Keys read at rising places are found again, at rising places that are no later.** -/
theorem leftmost_of_places {start' : Nat} (hle : start' ≤ start) (hrising : Rising start places)
    (hplaces : Places keys places ks) :
    ∃ found, leftmost keys start' ks = some found ∧ Rising start' found ∧
      Places keys found ks ∧ List.Forall₂ (· ≤ ·) found places := by
  induction hplaces generalizing start start' with
  | nil => exact ⟨[], rfl, trivial, .nil, .nil⟩
  | @cons s k ss ks hs _ ih =>
      obtain ⟨i, hi, his⟩ := firstAt_of_place (Nat.le_trans hle hrising.1) hs
      obtain ⟨found, hfound, hrise, hplace, hbefore⟩ := ih (Nat.succ_le_succ his) hrising.2
      have hspec := (firstAt_eq_some.mp hi).1
      refine ⟨i :: found, ?_, ⟨hspec.1, hrise⟩, .cons hspec.2 hplace, .cons his hbefore⟩
      simp only [leftmost, hi, Option.bind_some, hfound, Option.map_some]

/-- **The keys are found where they were read** if and only if what was not read has no later
key that was, unless one that was read stands between. -/
theorem leftmost_eq_iff (hrising : Rising start places) (hplaces : Places keys places ks) :
    leftmost keys start ks = some places ↔
      ∀ i, start ≤ i → i ∉ places → ∀ s ∈ places, i < s → keys[i]? = keys[s]? →
        ∃ r ∈ places, i < r ∧ r < s := by
  induction hplaces generalizing start with
  | nil => simp [leftmost]
  | @cons s k ss ks hs hrest ih =>
      obtain ⟨j, hj, hjs⟩ := firstAt_of_place hrising.1 hs
      have hspec := firstAt_eq_some.mp hj
      have hlater := ih hrising.2
      constructor
      · intro hfound
        simp only [leftmost, hj, Option.bind_some, Option.map_eq_some_iff, List.cons.injEq] at hfound
        obtain ⟨_, htail, rfl, rfl⟩ := hfound
        intro i hi hnot t ht hit hkey
        rcases List.mem_cons.mp ht with rfl | ht
        · exact absurd (hkey.trans hs) (hspec.2 i hi hit)
        · rcases Nat.lt_trichotomy i j with hij | rfl | hij
          · exact ⟨j, List.mem_cons_self, hij, hrising.2.le ht⟩
          · exact absurd List.mem_cons_self hnot
          · have hnotmem := fun h => hnot (List.mem_cons_of_mem j h)
            obtain ⟨r, hr, hbetween⟩ := hlater.mp htail i hij hnotmem t ht hit hkey
            exact ⟨r, List.mem_cons_of_mem j hr, hbetween⟩
      · intro hcond
        have hfirst : j = s := by
          by_contra hne
          have hlt : j < s := Nat.lt_of_le_of_ne hjs hne
          have hnot : j ∉ s :: ss := by
            intro hmem
            rcases List.mem_cons.mp hmem with rfl | hmem
            · exact hne rfl
            · exact absurd (hrising.2.le hmem) (by omega)
          obtain ⟨r, hr, -, hrs⟩ :=
            hcond j hspec.1.1 hnot s List.mem_cons_self hlt (hspec.1.2.trans hs.symm)
          rcases List.mem_cons.mp hr with rfl | hr
          · exact absurd hrs (Nat.lt_irrefl _)
          · exact absurd (hrising.2.le hr) (by omega)
        subst hfirst
        have htail : leftmost keys (j + 1) ks = some ss := by
          refine hlater.mpr fun i hi hnot t ht hit hkey => ?_
          have hnotmem : i ∉ j :: ss := by
            intro hmem
            rcases List.mem_cons.mp hmem with rfl | hmem
            · exact absurd hi (by omega)
            · exact hnot hmem
          have hge : start ≤ i := by have := hrising.1; omega
          obtain ⟨r, hr, hir, hrt⟩ :=
            hcond i hge hnotmem t (List.mem_cons_of_mem j ht) hit hkey
          rcases List.mem_cons.mp hr with rfl | hr
          · exact absurd hir (by omega)
          · exact ⟨r, hr, hir, hrt⟩
        simp only [leftmost, hj, Option.bind_some, htail, Option.map_some]

end Runir.Leftmost
