import Runir.Capture.Redaction
import Runir.Lib.Language

/-!
# Capture — What redaction returns

* `Clean`: no secret pattern matches, of either set.
* `redactEntries_eq_iff`: a pass leaves a text as it is only where none of its patterns matches; a
  text that is changed differs from the old one first at a `[` (`Parted`), and later patterns
  cannot change it back.
* `withoutSource_redactFactText`: the markers bring no source section in.
* `redaction_accepts`: what the three functions return, and when.
-/

namespace Runir.Redaction
open Regex

/-! ### Markers -/

/-- A text that is put in for a match. -/
def IsMarker (token : List Char) : Prop := ∃ body, token = '[' :: body ∧ '\n' ∉ body

def Marked (s : Markers) : Prop := ∀ entry ∈ s.seen, IsMarker entry.2

theorem isMarker_markerToken (kind : MarkerKind) (n : Nat) : IsMarker (markerToken kind n) := by
  refine ⟨(kind.name ++ "_" ++ toString n ++ "]").toList, ?_, ?_⟩
  · simp only [markerToken, String.toList_append]
    rfl
  · have hname : '\n' ∉ kind.name.toList := by
      cases kind <;> decide
    have hdigits : '\n' ∉ (toString n).toList := by
      intro hmem
      have hdigit : '\n'.isDigit = true := by
        refine Nat.isDigit_of_mem_toDigits (b := 10) (by decide) (by decide) (n := n) ?_
        simpa using hmem
      exact absurd hdigit (by decide)
    simp only [String.toList_append, List.mem_append, not_or]
    exact ⟨⟨⟨hname, by decide⟩, hdigits⟩, by decide⟩

theorem isMarker_mark (kind : MarkerKind) (value : List Char) {s : Markers} (h : Marked s) :
    IsMarker (s.mark kind value).1 ∧ Marked (s.mark kind value).2 := by
  unfold Markers.mark
  split
  · rename_i token hseen
    obtain ⟨before, after, hsplit, _⟩ := List.lookup_eq_some_iff.mp hseen
    exact ⟨h ((kind, value), token) (by rw [hsplit]; simp), h⟩
  · have hnew := isMarker_markerToken kind (s.counts kind + 1)
    refine ⟨hnew, fun entry hentry => ?_⟩
    rcases List.mem_cons.mp hentry with rfl | hentry
    · exact hnew
    · exact h entry hentry

/-! ### A changed text -/

/-- `x` differs from `text` first where it has a `[`. -/
def Parted (text x : List Char) : Prop :=
  ∃ pre c rest rest', text = pre ++ c :: rest ∧ x = pre ++ '[' :: rest' ∧ c ≠ '['

theorem Parted.ne {text x : List Char} (h : Parted text x) : x ≠ text := by
  obtain ⟨pre, c, rest, rest', rfl, rfl, hc⟩ := h
  intro heq
  exact hc (List.cons.inj (List.append_cancel_left heq)).1.symm

/-- The matches of a pattern are not empty and do not begin with a `[`. -/
structure Opens (r : Regex) : Prop where
  nonempty : nullable r = false
  not_bracket : starts '[' r = false

variable {entry : MarkerKind × Regex} {text x : List Char} {s : Markers}

/-- The first match of a pattern, and the text with its matches replaced. -/
theorem redactEntry_first (hopens : Opens entry.2) (hs : Marked s)
    (hmatch : matchIn entry.2 x = true) :
    ∃ skipped c rest tail, x = skipped ++ c :: rest ∧ c ≠ '[' ∧
      (redactEntry entry x s).1 = skipped ++ '[' :: tail := by
  obtain ⟨m, hm⟩ := Option.isSome_iff_exists.mp hmatch
  have hleft := find_some hm
  obtain ⟨c, cs, htext, hstart⟩ := hleft.text_cons hopens.nonempty
  obtain ⟨tail, htail⟩ := replaceStep_of_some (f := fun m s => s.mark entry.1 m.text)
    hopens.nonempty hm s
  obtain ⟨⟨body, hbody, _⟩, _⟩ := isMarker_mark entry.1 m.text hs
  refine ⟨m.skipped, c, cs ++ m.rest, body ++ tail, ?_, ?_, ?_⟩
  · rw [← List.cons_append, ← htext]
    exact hleft.parts
  · rintro rfl
    rw [hopens.not_bracket] at hstart
    exact Bool.false_ne_true hstart
  · unfold redactEntry
    rw [htail, hbody, List.cons_append]

theorem redactEntry_of_not (hmatch : matchIn entry.2 x = false) : redactEntry entry x s = (x, s) :=
  replaceStep_of_none (matchIn_eq_false_iff.mp hmatch) s

theorem marked_redactEntry (hs : Marked s) : Marked (redactEntry entry x s).2 :=
  replaceStep_state (K := Marked) (fun m _ h => (isMarker_mark entry.1 m.text h).2) x hs

theorem Parted.redactEntry (h : Parted text x) (hopens : Opens entry.2) (hs : Marked s) :
    Parted text (redactEntry entry x s).1 := by
  cases hmatch : matchIn entry.2 x with
  | false =>
      rw [redactEntry_of_not hmatch]
      exact h
  | true =>
      obtain ⟨pre, c, rest, rest', htext, hx, hc⟩ := h
      obtain ⟨skipped, d, tail, tail', hx', hd, hy⟩ := redactEntry_first hopens hs hmatch
      rw [hx] at hx'
      rcases List.append_eq_append_iff.mp hx' with ⟨w, hskipped, hw⟩ | ⟨w, hpre, hw⟩
      · -- the match is behind the difference, which stays
        cases w with
        | nil => exact absurd (List.cons.inj hw).1.symm hd
        | cons y w =>
            obtain ⟨rfl, _⟩ := List.cons.inj hw
            refine ⟨pre, c, rest, w ++ '[' :: tail', htext, ?_, hc⟩
            rw [hy, hskipped, List.append_assoc, List.cons_append]
      · -- the match is before it, in what the texts have in common
        cases w with
        | nil => exact absurd (List.cons.inj hw).1 hd
        | cons y w =>
            obtain ⟨rfl, _⟩ := List.cons.inj hw
            refine ⟨skipped, d, w ++ c :: rest, tail', ?_, hy, hd⟩
            rw [htext, hpre, List.append_assoc, List.cons_append]

/-! ### A pass -/

variable {entries : List (MarkerKind × Regex)}

theorem redactEntries_of_parted
    (hopens : ∀ entry ∈ entries, Opens entry.2) (h : Parted text x) (hs : Marked s) :
    Parted text (redactEntries entries x s).1 := by
  induction entries generalizing x s with
  | nil => exact h
  | cons entry entries ih =>
      exact ih (fun other hother => hopens other (List.mem_cons_of_mem _ hother))
        (h.redactEntry (hopens entry List.mem_cons_self) hs) (marked_redactEntry hs)

theorem redactEntries_eq_iff (hopens : ∀ entry ∈ entries, Opens entry.2) (hs : Marked s) :
    (redactEntries entries text s).1 = text ↔ ∀ entry ∈ entries, matchIn entry.2 text = false := by
  induction entries generalizing s with
  | nil => exact ⟨fun _ _ hentry => (List.not_mem_nil hentry).elim, fun _ => rfl⟩
  | cons entry entries ih =>
      have hrest := fun other hother => hopens other (List.mem_cons_of_mem entry hother)
      have hunfold : redactEntries (entry :: entries) text s =
          redactEntries entries (redactEntry entry text s).1 (redactEntry entry text s).2 := rfl
      rw [List.forall_mem_cons, hunfold]
      cases hmatch : matchIn entry.2 text with
      | false =>
          rw [redactEntry_of_not hmatch, ih hrest hs]
          exact ⟨fun h => ⟨rfl, h⟩, fun h => h.2⟩
      | true =>
          -- the text is changed, and stays so
          refine ⟨fun h => ?_, fun h => absurd h.1 (by decide)⟩
          obtain ⟨skipped, c, rest, tail, htext, hc, hy⟩ :=
            redactEntry_first (hopens entry List.mem_cons_self) hs hmatch
          have hparted : Parted text (redactEntry entry text s).1 :=
            ⟨skipped, c, rest, tail, htext, hy, hc⟩
          exact absurd h (redactEntries_of_parted hrest hparted (marked_redactEntry hs)).ne

/-! ### The assertion -/

/-- The entries of the secret kinds. -/
def secretEntries : List (MarkerKind × Regex) :=
  patternEntries.filter fun entry => secretMarkerKinds.contains entry.1

theorem opens_secret : ∀ entry ∈ secretEntries, Opens entry.2 := by
  have hall : secretEntries.all (fun entry =>
      !nullable entry.2 && !starts '[' entry.2) = true := by decide +kernel
  intro entry hentry
  have h := List.all_eq_true.mp hall entry hentry
  rw [Bool.and_eq_true, Bool.not_eq_true', Bool.not_eq_true'] at h
  exact ⟨h.1, h.2⟩

/-- No secret is found in a text: no pattern of a secret kind matches, and none of the second
pass. -/
structure Clean (text : List Char) : Prop where
  kinds : ∀ entry ∈ secretEntries, matchIn entry.2 text = false
  secondPass : ∀ pattern ∈ secondPassSecretPatterns, matchIn pattern text = false

theorem marked_nil : Marked {} := fun _ hentry => nomatch hentry

theorem assertNoSecrets_iff : assertNoSecrets text = true ↔ Clean text := by
  have hfirst : redactSecrets text = text ↔ ∀ entry ∈ secretEntries, matchIn entry.2 text = false :=
    redactEntries_eq_iff opens_secret marked_nil
  unfold assertNoSecrets
  rw [Bool.and_eq_true, decide_eq_true_iff, hfirst, Bool.not_eq_true', List.any_eq_false]
  constructor
  · rintro ⟨h₁, h₂⟩
    exact ⟨h₁, fun pattern hpattern => Bool.eq_false_iff.mpr (h₂ pattern hpattern)⟩
  · rintro ⟨h₁, h₂⟩
    exact ⟨h₁, fun pattern hpattern => Bool.eq_false_iff.mp (h₂ pattern hpattern)⟩

theorem redactFactText_eq_some {text r : List Char} :
    redactFactText text = some r ↔ redactSecrets (withoutSource text) = r ∧ Clean r := by
  unfold redactFactText
  dsimp only
  rw [Option.ite_none_right_eq_some, Option.some.injEq, assertNoSecrets_iff]
  constructor
  · rintro ⟨h, rfl⟩
    exact ⟨rfl, h⟩
  · rintro ⟨rfl, h⟩
    exact ⟨h, rfl⟩

/-! ### The source section -/

/-- A source section, up to the end of the line that names it. -/
def sourceHead : Regex := seqs [chr '\n', spaces, liti "source:", spaces, chr '\n']

/-- The head of a source section begins with a line break and holds no bracket. -/
theorem consumes_sourceHead {u : List Char} (h : Consumes sourceHead u) :
    ∃ v, u = '\n' :: v ∧ '[' ∉ '\n' :: v := by
  have hbracket : '[' ∉ u := not_mem_of_consumes (by decide +kernel) h
  obtain ⟨_, w, rfl, ⟨c, rfl, hc⟩, _⟩ := h
  obtain rfl : c = '\n' := eq_of_beq hc
  exact ⟨w, rfl, hbracket⟩

theorem consumes_factSourceSection {u : List Char} :
    Consumes factSourceSection u ↔ ∃ v w, u = v ++ w ∧ Consumes sourceHead v := by
  constructor
  · rintro ⟨a, _, rfl, ha, b, _, rfl, hb, c, _, rfl, hc, d, _, rfl, hd, e, t, rfl, he, _⟩
    refine ⟨a ++ (b ++ (c ++ (d ++ e))), t, by simp only [List.append_assoc], ?_⟩
    exact ⟨a, _, rfl, ha, b, _, rfl, hb, c, _, rfl, hc, d, e, rfl, hd, he⟩
  · rintro ⟨_, w, rfl, a, _, rfl, ha, b, _, rfl, hb, c, _, rfl, hc, d, e, rfl, hd, he⟩
    exact ⟨a, _, by simp only [List.append_assoc], ha, b, _, rfl, hb, c, _, rfl, hc, d, _, rfl,
      hd, e, w, rfl, he, consumes_rest w⟩

theorem plain_factSourceSection : plain factSourceSection = true := by decide +kernel

/-- A text has a source section where it has the head of one. -/
theorem matchIn_factSourceSection {text : List Char} :
    matchIn factSourceSection text = true ↔ ∃ u, Consumes sourceHead u ∧ u <:+: text := by
  rw [matchIn_eq_true_iff plain_factSourceSection]
  constructor
  · rintro ⟨a, _, z, hv, rfl⟩
    obtain ⟨u, w, rfl, hu⟩ := consumes_factSourceSection.mp hv
    exact ⟨u, hu, a, w ++ z, by simp only [List.append_assoc]⟩
  · rintro ⟨u, hu, a, z, rfl⟩
    exact ⟨a, u ++ z, [], consumes_factSourceSection.mpr ⟨u, z, rfl, hu⟩, by
      simp only [List.append_assoc, List.append_nil]⟩

theorem drains_factSourceSection : Drains factSourceSection :=
  drains_rest.seq.seq.seq.seq.seq

/-- Nothing of a source section is left, and nothing that would be read as one. -/
theorem matchIn_withoutSource (text : List Char) :
    matchIn factSourceSection (withoutSource text) = false := by
  unfold withoutSource
  cases hfind : exec factSourceSection text with
  | none => exact matchIn_eq_false_iff.mpr hfind
  | some m =>
      have hleft := find_some hfind
      have hrest : m.rest = [] := drains_factSourceSection _ _ hleft.here
      dsimp only
      rw [hrest, List.append_nil]
      by_contra hmatch
      obtain ⟨u, hu, a, z, hskipped⟩ := matchIn_factSourceSection.mp (Bool.not_eq_false _ ▸ hmatch)
      obtain ⟨v, rfl, _⟩ := consumes_sourceHead hu
      -- the leftmost match would have been that one
      have hnone := hleft.none_before a ('\n' :: v ++ z)
        (by rw [← hskipped, List.append_assoc]) (by simp)
      obtain ⟨q, hq, _⟩ := mem_run_of_consumes plain_factSourceSection
        (consumes_factSourceSection.mpr ⟨'\n' :: v, z ++ (m.text ++ m.rest), rfl, hu⟩)
        (p := ⟨lastOf none a, '\n' :: v ++ z ++ (m.text ++ m.rest), []⟩) (z := [])
        (by simp only [List.append_assoc, List.append_nil])
      rw [hnone] at hq
      exact nomatch hq

theorem withoutSource_of_not {text : List Char} (h : matchIn factSourceSection text = false) :
    withoutSource text = text := by
  have hnone := matchIn_eq_false_iff.mp h
  unfold withoutSource exec
  rw [hnone]

/-- The markers bring no source section in. -/
theorem matchIn_redactEntries (hopens : ∀ entry ∈ entries, Opens entry.2) (hs : Marked s)
    (h : matchIn factSourceSection text = false) :
    matchIn factSourceSection (redactEntries entries text s).1 = false := by
  induction entries generalizing text s with
  | nil => exact h
  | cons entry entries ih =>
      refine @ih (redactEntry entry text s).1 _
        (fun other hother => hopens other (List.mem_cons_of_mem entry hother))
        (marked_redactEntry hs) ?_
      by_contra hmatch
      obtain ⟨u, hu, hin⟩ := matchIn_factSourceSection.mp (Bool.not_eq_false _ ▸ hmatch)
      obtain ⟨v, rfl, hbracket⟩ := consumes_sourceHead hu
      have hmark : ∀ (m : Match) s, Marked s →
          ∃ body, (s.mark entry.1 m.text).1 = '[' :: body ∧ '\n' ∉ body :=
        fun m _ hs => (isMarker_mark entry.1 m.text hs).1
      have hold : '\n' :: v <:+: text :=
        occurs_of_replaceStep (hopens entry List.mem_cons_self).nonempty (K := Marked)
          (fun m _ hs => (isMarker_mark entry.1 m.text hs).2) hmark hbracket hs hin
      rw [matchIn_factSourceSection.mpr ⟨_, hu, hold⟩] at h
      exact nomatch h

/-- What `redactFactText` returns it returns again. -/
theorem redactFactText_again {text r : List Char} (h : redactFactText text = some r) :
    redactFactText r = some r := by
  obtain ⟨rfl, hclean⟩ := redactFactText_eq_some.mp h
  have hsource : matchIn factSourceSection (redactSecrets (withoutSource text)) = false :=
    matchIn_redactEntries opens_secret marked_nil (matchIn_withoutSource text)
  have hpass : redactSecrets (redactSecrets (withoutSource text)) =
      redactSecrets (withoutSource text) :=
    (redactEntries_eq_iff opens_secret marked_nil).mpr hclean.kinds
  refine redactFactText_eq_some.mpr ⟨?_, hclean⟩
  rw [withoutSource_of_not hsource]
  exact hpass

/-! ### Facts -/

mutual

/-- A fact with the first pass made on each of its texts. -/
def redactLeaves : Json → Json
  | .null => .null
  | .bool b => .bool b
  | .int n => .int n
  | .str s => .str (String.ofList (redactSecrets (withoutSource s.toList)))
  | .arr xs => .arr (redactElements xs)
  | .obj ms => .obj (redactMembers ms)

def redactElements : Jsons → Jsons
  | .nil => .nil
  | .cons x xs => .cons (redactLeaves x) (redactElements xs)

def redactMembers : Members → Members
  | .nil => .nil
  | .cons k x ms =>
      if k = "raw_source_text" then redactMembers ms
      else .cons k (redactLeaves x) (redactMembers ms)

end

mutual

/-- No secret is found in any text of a value. -/
def CleanLeaves : Json → Prop
  | .null => True
  | .bool _ => True
  | .int _ => True
  | .str s => Clean s.toList
  | .arr xs => CleanElements xs
  | .obj ms => CleanMembers ms

def CleanElements : Jsons → Prop
  | .nil => True
  | .cons x xs => CleanLeaves x ∧ CleanElements xs

def CleanMembers : Members → Prop
  | .nil => True
  | .cons _ x ms => CleanLeaves x ∧ CleanMembers ms

end

mutual

theorem walk_eq_some : ∀ {fact r : Json},
    walk fact = some r ↔ redactLeaves fact = r ∧ CleanLeaves r
  | .null, r | .bool _, r | .int _, r => by
      rw [walk, redactLeaves, Option.some.injEq]
      refine ⟨?_, And.left⟩
      rintro rfl
      exact ⟨rfl, trivial⟩
  | .str s, r => by
      rw [walk, redactLeaves, Option.map_eq_some_iff]
      constructor
      · rintro ⟨cs, hcs, rfl⟩
        obtain ⟨rfl, hclean⟩ := redactFactText_eq_some.mp hcs
        refine ⟨rfl, ?_⟩
        rw [CleanLeaves, String.toList_ofList]
        exact hclean
      · rintro ⟨rfl, hclean⟩
        rw [CleanLeaves, String.toList_ofList] at hclean
        exact ⟨_, redactFactText_eq_some.mpr ⟨rfl, hclean⟩, rfl⟩
  | .arr xs, r => by
      rw [walk, redactLeaves, Option.map_eq_some_iff]
      constructor
      · rintro ⟨ys, hys, rfl⟩
        obtain ⟨rfl, hclean⟩ := walkElements_eq_some.mp hys
        exact ⟨rfl, hclean⟩
      · rintro ⟨rfl, hclean⟩
        exact ⟨_, walkElements_eq_some.mpr ⟨rfl, hclean⟩, rfl⟩
  | .obj ms, r => by
      rw [walk, redactLeaves, Option.map_eq_some_iff]
      constructor
      · rintro ⟨ns, hns, rfl⟩
        obtain ⟨rfl, hclean⟩ := walkMembers_eq_some.mp hns
        exact ⟨rfl, hclean⟩
      · rintro ⟨rfl, hclean⟩
        exact ⟨_, walkMembers_eq_some.mpr ⟨rfl, hclean⟩, rfl⟩

theorem walkElements_eq_some : ∀ {xs ys : Jsons},
    walkElements xs = some ys ↔ redactElements xs = ys ∧ CleanElements ys
  | .nil, ys => by
      rw [walkElements, redactElements, Option.some.injEq]
      refine ⟨?_, And.left⟩
      rintro rfl
      exact ⟨rfl, trivial⟩
  | .cons x xs, ys => by
      simp only [walkElements, redactElements, Option.bind_eq_bind, Option.bind_eq_some_iff,
        Option.some.injEq]
      constructor
      · rintro ⟨y, hy, zs, hzs, rfl⟩
        obtain ⟨rfl, hx⟩ := walk_eq_some.mp hy
        obtain ⟨rfl, hxs⟩ := walkElements_eq_some.mp hzs
        exact ⟨rfl, hx, hxs⟩
      · rintro ⟨rfl, hx, hxs⟩
        exact ⟨_, walk_eq_some.mpr ⟨rfl, hx⟩, _, walkElements_eq_some.mpr ⟨rfl, hxs⟩, rfl⟩

theorem walkMembers_eq_some : ∀ {ms ns : Members},
    walkMembers ms = some ns ↔ redactMembers ms = ns ∧ CleanMembers ns
  | .nil, ns => by
      rw [walkMembers, redactMembers, Option.some.injEq]
      refine ⟨?_, And.left⟩
      rintro rfl
      exact ⟨rfl, trivial⟩
  | .cons k x ms, ns => by
      rw [walkMembers, redactMembers]
      split
      · exact walkMembers_eq_some
      · simp only [Option.bind_eq_bind, Option.bind_eq_some_iff, Option.some.injEq]
        constructor
        · rintro ⟨y, hy, zs, hzs, rfl⟩
          obtain ⟨rfl, hx⟩ := walk_eq_some.mp hy
          obtain ⟨rfl, hms⟩ := walkMembers_eq_some.mp hzs
          exact ⟨rfl, hx, hms⟩
        · rintro ⟨rfl, hx, hms⟩
          exact ⟨_, walk_eq_some.mpr ⟨rfl, hx⟩, _, walkMembers_eq_some.mpr ⟨rfl, hms⟩, rfl⟩

end

mutual

/-- What `walk` returns it returns again. -/
theorem walk_again : ∀ {fact r : Json}, walk fact = some r → walk r = some r
  | .null, r | .bool _, r | .int _, r => by
      intro h
      rw [walk, Option.some.injEq] at h
      subst h
      rfl
  | .str s, r => by
      intro h
      rw [walk, Option.map_eq_some_iff] at h
      obtain ⟨cs, hcs, rfl⟩ := h
      rw [walk, String.toList_ofList, redactFactText_again hcs]
      rfl
  | .arr xs, r => by
      intro h
      rw [walk, Option.map_eq_some_iff] at h
      obtain ⟨ys, hys, rfl⟩ := h
      rw [walk, walkElements_again hys]
      rfl
  | .obj ms, r => by
      intro h
      rw [walk, Option.map_eq_some_iff] at h
      obtain ⟨ns, hns, rfl⟩ := h
      rw [walk, walkMembers_again hns]
      rfl

theorem walkElements_again : ∀ {xs ys : Jsons},
    walkElements xs = some ys → walkElements ys = some ys
  | .nil, ys => by
      intro h
      rw [walkElements, Option.some.injEq] at h
      subst h
      rfl
  | .cons x xs, ys => by
      intro h
      simp only [walkElements, Option.bind_eq_bind, Option.bind_eq_some_iff,
        Option.some.injEq] at h
      obtain ⟨y, hy, zs, hzs, rfl⟩ := h
      rw [walkElements, walk_again hy, walkElements_again hzs]
      rfl

theorem walkMembers_again : ∀ {ms ns : Members},
    walkMembers ms = some ns → walkMembers ns = some ns
  | .nil, ns => by
      intro h
      rw [walkMembers, Option.some.injEq] at h
      subst h
      rfl
  | .cons k x ms, ns => by
      intro h
      rw [walkMembers] at h
      split at h
      · exact walkMembers_again h
      · rename_i hk
        simp only [Option.bind_eq_bind, Option.bind_eq_some_iff, Option.some.injEq] at h
        obtain ⟨y, hy, zs, hzs, rfl⟩ := h
        rw [walkMembers, if_neg hk, walk_again hy, walkMembers_again hzs]
        rfl

end

theorem redactFact_eq_some {fact r : Json} :
    redactFact fact = some r ↔ walk fact = some r ∧ Clean r.stringify := by
  unfold redactFact
  simp only [Option.bind_eq_bind, Option.bind_eq_some_iff, Option.ite_none_right_eq_some,
    Option.some.injEq, assertNoSecrets_iff]
  constructor
  · rintro ⟨result, hwalk, hclean, rfl⟩
    exact ⟨hwalk, hclean⟩
  · rintro ⟨hwalk, hclean⟩
    exact ⟨r, hwalk, hclean, rfl⟩

/-! ### What is returned -/

theorem redactSourceTurn_eq_some (rh : RedactionHost) {text r : List Char} :
    redactSourceTurn rh text = some r ↔ redactSourcePass rh text = r ∧ Clean r := by
  unfold redactSourceTurn
  dsimp only
  rw [Option.ite_none_right_eq_some, Option.some.injEq, assertNoSecrets_iff]
  constructor
  · rintro ⟨h, rfl⟩
    exact ⟨rfl, h⟩
  · rintro ⟨rfl, h⟩
    exact ⟨h, rfl⟩

end Runir.Redaction
