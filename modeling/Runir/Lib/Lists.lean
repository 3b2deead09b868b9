import Mathlib.Data.List.Sort

/-!
# Library — Lists

Folds and stable sorts of lists.

* `foldl_of_steps`, `foldlM_of_steps`: an invariant of a fold that speaks of the elements seen so far.
* `foldlM_perm`: folds of commuting steps over the same elements in another order.
* `forall₂_of_mapM`, `exists_mapM`: a map that may fail, element by element.
* `FirstTop`: the first of the elements of a list with the largest value.  There is one in every
  list with elements (`exists_firstTop`), and it comes first where the list is sorted by falling
  value (`FirstTop.head?_insertionSort`).
* `latest`: the last element with a property.  In a list kept in an order of expiry, dropping what
  has expired drops a beginning (`suffix_filter_of_sorted`).
-/

namespace Runir

variable {α β : Type*} {P : List α → β → Prop} {xs : List α} {ys : List β} {x : α}

/-- A fold keeps what each of its steps keeps, of the elements it has seen. -/
theorem foldl_of_steps {f : β → α → β}
    (hstep : ∀ seen b a, P seen b → P (seen ++ [a]) (f b a)) (xs : List α) {seen : List α} {b : β}
    (h : P seen b) : P (seen ++ xs) (xs.foldl f b) := by
  induction xs generalizing seen b with
  | nil => rwa [List.append_nil]
  | cons a xs ih =>
      have hnext := ih (hstep seen b a h)
      rwa [List.append_assoc] at hnext

theorem foldl_from_nil {f : β → α → β}
    (hstep : ∀ seen b a, P seen b → P (seen ++ [a]) (f b a)) (xs : List α) {b : β} (h : P [] b) :
    P xs (xs.foldl f b) :=
  foldl_of_steps hstep xs h

/-- As `foldl_of_steps`, for steps that may fail and do not. -/
theorem foldlM_of_steps {f : β → α → Option β}
    (hstep : ∀ seen b, ∀ a ∈ xs, P seen b → ∃ b', f b a = some b' ∧ P (seen ++ [a]) b')
    {seen : List α} {b : β} (h : P seen b) : ∃ b', xs.foldlM f b = some b' ∧ P (seen ++ xs) b' := by
  induction xs generalizing seen b with
  | nil => exact ⟨b, rfl, by rwa [List.append_nil]⟩
  | cons a xs ih =>
      obtain ⟨b₁, hb₁, h₁⟩ := hstep seen b a List.mem_cons_self h
      obtain ⟨b', hb', h'⟩ := ih (fun seen b x hx => hstep seen b x (List.mem_cons_of_mem a hx)) h₁
      refine ⟨b', ?_, ?_⟩
      · rw [List.foldlM_cons, hb₁]
        exact hb'
      · rwa [List.append_assoc] at h'

theorem foldlM_from_nil {f : β → α → Option β}
    (hstep : ∀ seen b, ∀ a ∈ xs, P seen b → ∃ b', f b a = some b' ∧ P (seen ++ [a]) b') {b : β}
    (h : P [] b) : ∃ b', xs.foldlM f b = some b' ∧ P xs b' :=
  foldlM_of_steps hstep h

/-- A fold of steps that commute does not depend on the order of the elements. -/
theorem foldlM_perm {m : Type* → Type*} [Monad m] [LawfulMonad m] {α β} {f : β → α → m β}
    (hcomm : ∀ b x y, (f b x >>= fun b' => f b' y) = f b y >>= fun b' => f b' x) {xs ys : List α}
    (h : xs.Perm ys) (b : β) : xs.foldlM f b = ys.foldlM f b := by
  induction h generalizing b with
  | nil => rfl
  | cons x _ ih =>
      rw [List.foldlM_cons, List.foldlM_cons]
      exact bind_congr ih
  | swap x y xs =>
      simp only [List.foldlM_cons, ← bind_assoc]
      rw [hcomm b y x]
  | trans _ _ ih₁ ih₂ => exact (ih₁ b).trans (ih₂ b)

/-! ### A map that may fail -/

section
variable {f : α → Option β}

theorem forall₂_of_mapM (h : xs.mapM f = some ys) :
    List.Forall₂ (fun x y => f x = some y) xs ys := by
  induction xs generalizing ys with
  | nil => exact Option.some.inj h ▸ .nil
  | cons x xs ih =>
      rw [List.mapM_cons] at h
      obtain ⟨y, hy, h⟩ := Option.bind_eq_some_iff.mp h
      obtain ⟨ys', hys', h⟩ := Option.bind_eq_some_iff.mp h
      exact Option.some.inj h ▸ .cons hy (ih hys')

theorem forall₂_of_mapM_ok {ε : Type*} {g : α → Except ε β}
    (h : xs.mapM g = .ok ys) : List.Forall₂ (fun x y => g x = .ok y) xs ys := by
  induction xs generalizing ys with
  | nil => exact Except.ok.inj h ▸ .nil
  | cons x xs ih =>
      rw [List.mapM_cons] at h
      cases hx : g x with
      | error e =>
          rw [hx] at h
          cases h
      | ok y =>
          rw [hx] at h
          cases hxs : xs.mapM g with
          | error e =>
              rw [hxs] at h
              cases h
          | ok ys' =>
              rw [hxs] at h
              exact Except.ok.inj h ▸ .cons hx (ih hxs)

/-- What stands opposite to an element. -/
theorem exists_of_forall₂ {R : α → β → Prop}
    (h : List.Forall₂ R xs ys) (hx : x ∈ xs) : ∃ y ∈ ys, R x y := by
  induction h with
  | nil => exact nomatch hx
  | cons hr _ ih =>
      rcases List.mem_cons.mp hx with rfl | hx
      · exact ⟨_, List.mem_cons_self, hr⟩
      · obtain ⟨y, hy, hr⟩ := ih hx
        exact ⟨y, List.mem_cons_of_mem _ hy, hr⟩

/-- Looked up in the pairs, it is found. -/
theorem lookup_zip_of_forall₂ [BEq α] [LawfulBEq α] {R : α → β → Prop}
    (h : List.Forall₂ R xs ys) (hx : x ∈ xs) :
    ∃ y ∈ ys, (xs.zip ys).lookup x = some y ∧ R x y := by
  induction h with
  | nil => exact nomatch hx
  | @cons a b xs ys hr _ ih =>
      rw [List.zip_cons_cons, List.lookup_cons]
      cases heq : x == a with
      | true =>
          obtain rfl := eq_of_beq heq
          exact ⟨b, List.mem_cons_self, rfl, hr⟩
      | false =>
          have hne : x ≠ a := by
            rintro rfl
            rw [beq_self_eq_true] at heq
            cases heq
          obtain ⟨y, hy, hlookup, hr⟩ := ih ((List.mem_cons.mp hx).resolve_left hne)
          exact ⟨y, List.mem_cons_of_mem _ hy, hlookup, hr⟩

theorem exists_mapM (h : ∀ x ∈ xs, (f x).isSome) : ∃ ys, xs.mapM f = some ys := by
  induction xs with
  | nil => exact ⟨[], rfl⟩
  | cons x xs ih =>
      obtain ⟨y, hy⟩ := Option.isSome_iff_exists.mp (h x List.mem_cons_self)
      obtain ⟨ys, hys⟩ := ih fun x' hx' => h x' (List.mem_cons_of_mem x hx')
      refine ⟨y :: ys, ?_⟩
      rw [List.mapM_cons, hy, hys]
      rfl

end

/-- Two such maps one after the other are one, element by element. -/
theorem mapM_map_mapM {α β γ δ : Type*} (f : α → Option β) (g : β → γ) (h : γ → Option δ)
    (xs : List α) :
    ((xs.mapM f).bind fun ys => (ys.map g).mapM h) = xs.mapM fun x => (f x).bind fun y => h (g y) := by
  induction xs with
  | nil => rfl
  | cons x xs ih =>
      rw [List.mapM_cons, List.mapM_cons, ← ih]
      cases hx : f x with
      | none => rfl
      | some y =>
          cases hxs : xs.mapM f with
          | none => cases hy : h (g y) <;> simp [hy]
          | some ys => simp [List.mapM_cons]

theorem mapM_eq_none_iff {f : α → Option β} :
    xs.mapM f = none ↔ ∃ x ∈ xs, f x = none := by
  constructor
  · intro h
    by_contra hno
    have hall : ∀ x ∈ xs, (f x).isSome := fun x hx =>
      Option.isSome_iff_ne_none.mpr fun hnone => hno ⟨x, hx, hnone⟩
    obtain ⟨ys, hys⟩ := exists_mapM hall
    rw [h] at hys
    cases hys
  · rintro ⟨x, hx, hnone⟩
    cases h : xs.mapM f with
    | none => rfl
    | some ys =>
        obtain ⟨y, -, hy⟩ := exists_of_forall₂ (forall₂_of_mapM h) hx
        rw [hnone] at hy
        cases hy

/-- What such a map answers with. -/
theorem mem_mapM_iff {f : α → Option β}
    (h : xs.mapM f = some ys) {y : β} : y ∈ ys ↔ ∃ x ∈ xs, f x = some y := by
  have hall := forall₂_of_mapM h
  constructor
  · exact fun hy => exists_of_forall₂ hall.flip hy
  · rintro ⟨x, hx, hxy⟩
    obtain ⟨y', hy', hxy'⟩ := exists_of_forall₂ hall hx
    rw [hxy] at hxy'
    exact Option.some.inj hxy' ▸ hy'

/-! ### The first top element -/

section
variable [LinearOrder β] {value : α → β}

/-- `x` is the first of the elements of `xs` whose value is largest. -/
def FirstTop (value : α → β) (xs : List α) (x : α) : Prop :=
  ∃ front back, xs = front ++ x :: back ∧ (∀ y ∈ front, value y < value x) ∧
    ∀ y ∈ back, value y ≤ value x

theorem FirstTop.mem (h : FirstTop value xs x) : x ∈ xs := by
  obtain ⟨front, back, rfl, -, -⟩ := h
  exact List.mem_append_right front (List.mem_cons_self ..)

theorem exists_firstTop (value : α → β) (hne : xs ≠ []) : ∃ x, FirstTop value xs x := by
  induction xs with
  | nil => exact absurd rfl hne
  | cons a xs ih =>
      by_cases hxs : xs = []
      · refine ⟨a, [], xs, rfl, fun y hy => (nomatch hy), fun y hy => ?_⟩
        rw [hxs] at hy
        exact nomatch hy
      · obtain ⟨x, front, back, hsplit, hfront, hback⟩ := ih hxs
        by_cases hlt : value a < value x
        · refine ⟨x, a :: front, back, by rw [hsplit]; rfl, fun y hy => ?_, hback⟩
          rcases List.mem_cons.mp hy with rfl | hy
          · exact hlt
          · exact hfront y hy
        · refine ⟨a, [], xs, rfl, fun y hy => (nomatch hy), fun y hy => ?_⟩
          have hle : value y ≤ value x := by
            rw [hsplit] at hy
            rcases List.mem_append.mp hy with hy | hy
            · exact (hfront y hy).le
            · rcases List.mem_cons.mp hy with rfl | hy
              · exact le_rfl
              · exact hback y hy
          exact hle.trans (not_lt.mp hlt)

/-- There is one first top element. -/
theorem FirstTop.unique {y : α} (hx : FirstTop value xs x) (hy : FirstTop value xs y) : x = y := by
  obtain ⟨front, back, hsplit, hfront, hback⟩ := hx
  obtain ⟨front', back', hsplit', hfront', hback'⟩ := hy
  have hle : ∀ z ∈ xs, value z ≤ value x := by
    intro z hz
    rw [hsplit] at hz
    rcases List.mem_append.mp hz with hz | hz
    · exact (hfront z hz).le
    · rcases List.mem_cons.mp hz with rfl | hz
      · exact le_rfl
      · exact hback z hz
  have hle' : ∀ z ∈ xs, value z ≤ value y := by
    intro z hz
    rw [hsplit'] at hz
    rcases List.mem_append.mp hz with hz | hz
    · exact (hfront' z hz).le
    · rcases List.mem_cons.mp hz with rfl | hz
      · exact le_rfl
      · exact hback' z hz
  have hxmem : x ∈ xs := hsplit ▸ List.mem_append_right front (List.mem_cons_self ..)
  have hymem : y ∈ xs := hsplit' ▸ List.mem_append_right front' (List.mem_cons_self ..)
  have hsame : value x = value y := le_antisymm (hle' x hxmem) (hle y hymem)
  -- neither stands in the part before the other
  have hnot : x ∉ front' := fun hmem => (hfront' x hmem).ne hsame
  have hnot' : y ∉ front := fun hmem => (hfront y hmem).ne hsame.symm
  rw [hsplit] at hsplit'
  rcases List.append_eq_append_iff.mp hsplit' with ⟨mid, hmid, hrest⟩ | ⟨mid, hmid, hrest⟩
  · cases mid with
    | nil => exact List.head_eq_of_cons_eq hrest
    | cons z mid =>
        have hz : z = x := (List.head_eq_of_cons_eq hrest).symm
        exact absurd (hmid ▸ List.mem_append_right front (hz ▸ List.mem_cons_self ..)) hnot
  · cases mid with
    | nil => exact (List.head_eq_of_cons_eq hrest).symm
    | cons z mid =>
        have hz : z = y := (List.head_eq_of_cons_eq hrest).symm
        exact absurd (hmid ▸ List.mem_append_right front' (hz ▸ List.mem_cons_self ..)) hnot'

/-- A stable sort by falling value puts the first top element first. -/
theorem FirstTop.head?_insertionSort (h : FirstTop value xs x) :
    (xs.insertionSort fun a b => value b ≤ value a).head? = some x := by
  obtain ⟨front, back, rfl, hfront, hback⟩ := h
  induction front with
  | nil =>
      rw [List.nil_append, List.insertionSort_cons]
      cases hsorted : back.insertionSort (fun a b => value b ≤ value a) with
      | nil => rfl
      | cons y ys =>
          have hy : y ∈ back := (List.mem_insertionSort _).mp (hsorted ▸ List.mem_cons_self ..)
          rw [List.orderedInsert_cons, if_pos (hback y hy)]
          rfl
  | cons a front ih =>
      have hrest := ih fun y hy => hfront y (List.mem_cons_of_mem a hy)
      have hlt := hfront a (List.mem_cons_self ..)
      rw [List.cons_append, List.insertionSort_cons]
      obtain ⟨ys, hys⟩ := List.head?_eq_some_iff.mp hrest
      rw [hys, List.orderedInsert_cons, if_neg (not_le.mpr hlt)]
      rfl

end

/-! ### The last element with a property -/

/-- The last element satisfying `p`. -/
def latest (p : α → Bool) (xs : List α) : Option α := (xs.filter p).getLast?

theorem latest_mem {p : α → Bool} (h : latest p xs = some x) :
    x ∈ xs ∧ p x = true :=
  List.mem_filter.mp (List.mem_of_getLast? h)

/-- What is found in an end of the list is what is found in the whole. -/
theorem latest_of_suffix {p : α → Bool} {xs ys : List α} (hs : ys <:+ xs)
    (h : latest p ys = some x) : latest p xs = some x := by
  obtain ⟨zs, rfl⟩ := hs
  rw [latest] at h
  rw [latest, List.filter_append, List.getLast?_append, h, Option.some_or]

theorem latest_append (p : α → Bool) (xs ys : List α) :
    latest p (xs ++ ys) = (latest p ys).or (latest p xs) := by
  rw [latest, List.filter_append, List.getLast?_append, latest, latest]

theorem latest_eq_none {p : α → Bool} (h : ∀ x ∈ xs, ¬ p x = true) :
    latest p xs = none := by
  rw [latest, List.filter_eq_nil_iff.mpr h, List.getLast?_nil]

theorem latest_of_split {p : α → Bool} (pre : List α) {post : List α} (hx : p x = true)
    (hpost : ∀ y ∈ post, ¬ p y = true) : latest p (pre ++ x :: post) = some x := by
  rw [latest, List.filter_append, List.filter_cons_of_pos hx, List.filter_eq_nil_iff.mpr hpost]
  simp

theorem latest_map (p : β → Bool) (f : α → β) (xs : List α) :
    latest p (xs.map f) = (latest (fun x => p (f x)) xs).map f := by
  rw [latest, List.filter_map, List.getLast?_map]
  rfl

theorem latest_concat (p : α → Bool) (xs : List α) (x : α) :
    latest p (xs ++ [x]) = if p x then some x else latest p xs := by
  by_cases hx : p x = true
  · rw [latest, List.filter_append, List.filter_cons_of_pos hx, if_pos hx]
    simp
  · rw [latest, List.filter_append, List.filter_cons_of_neg hx, if_neg hx]
    simp [latest]

/-- Leaving out elements without the property changes nothing. -/
theorem latest_filter {p q : α → Bool} (h : ∀ x ∈ xs, p x = true → q x = true) :
    latest p (xs.filter q) = latest p xs := by
  rw [latest, latest, List.filter_filter]
  refine congrArg List.getLast? (List.filter_congr fun x hx => ?_)
  cases hp : p x with
  | true => rw [h x hx hp, Bool.true_and]
  | false => rw [Bool.false_and]

/-- In a list sorted by expiry the unexpired elements are an end of the list. -/
theorem suffix_filter_of_sorted [LinearOrder β] {f : α → β}
    (hs : xs.Pairwise fun a b => f a ≤ f b) (t : β) :
    xs.filter (fun a => decide (t < f a)) <:+ xs := by
  induction xs with
  | nil => exact List.suffix_rfl
  | cons a xs ih =>
      obtain ⟨ha, hxs⟩ := List.pairwise_cons.mp hs
      by_cases hlt : t < f a
      · have hall : (a :: xs).filter (fun b => decide (t < f b)) = a :: xs := by
          refine List.filter_eq_self.mpr fun b hb => ?_
          rcases List.mem_cons.mp hb with rfl | hb
          · exact decide_eq_true hlt
          · exact decide_eq_true (hlt.trans_le (ha b hb))
        exact ⟨[], hall⟩
      · rw [List.filter_cons_of_neg (by simpa using hlt)]
        exact (ih hxs).trans (List.suffix_cons a xs)

end Runir
