import Mathlib.Data.List.TakeWhile
import Runir.Lib.Json
import Runir.Lib.Value

/-!
# Library — Lexemes of a JSON text

A JSON text as a scanner sees it: strings, and between them marks, blanks, numbers and three words.

* `scan`: the state after some characters, none where one cannot stand there.
* `Token u k`: the text `u` has a string that reads `k`, begun where the scanner is outside of all
  strings.
* `JsonReader`: a reader of JSON texts, of which only this is known: what it reads is scanned from
  outside to outside, and the keys of an object it reads are strings of the text.
* `opposite_scan`, `plain_of_token`: a text scanned from inside of a string, and from outside: what
  one scan takes for strings the other takes for what is between them.
* `Json.reader`: the reader of `Lib/Json` is one.
-/

namespace Runir

/-! ### The scanner -/

inductive Lex where
  | outside | inside | escaped
  deriving DecidableEq

variable {c : Char} {k : String} {cs : List Char}

namespace Lex
open Json (quote backslash isBlank)

/-- What may stand outside of strings: marks, blanks, the characters of numbers, and those of
`true`, `false` and `null`. -/
def isPlain (c : Char) : Bool :=
  isBlank c || c.isDigit || "{}[]:,+-.eEtrufalsn".toList.contains c

def next : Lex → Char → Option Lex
  | .outside, c => if c = quote then some .inside else if isPlain c then some .outside else none
  | .inside, c =>
      if c = quote then some .outside else if c = backslash then some .escaped else some .inside
  | .escaped, _ => some .inside

def scan : Lex → List Char → Option Lex
  | l, [] => some l
  | l, c :: cs => (l.next c).bind fun l' => scan l' cs

theorem scan_append (l : Lex) (cs ds : List Char) :
    l.scan (cs ++ ds) = (l.scan cs).bind fun l' => l'.scan ds := by
  induction cs generalizing l with
  | nil => rfl
  | cons c cs ih =>
      simp only [List.cons_append, scan]
      cases l.next c with
      | none => rfl
      | some l' => exact ih l'

/-- The scanner goes over a part, and on from there. -/
theorem scan_trans {l l' l'' : Lex} {cs ds : List Char} (h : l.scan cs = some l')
    (h' : l'.scan ds = some l'') : l.scan (cs ++ ds) = some l'' := by
  rw [scan_append, h]
  exact h'

theorem exists_scan_of_append {l l'' : Lex} {cs ds : List Char} (h : l.scan (cs ++ ds) = some l'') :
    ∃ l', l.scan cs = some l' ∧ l'.scan ds = some l'' :=
  Option.bind_eq_some_iff.mp ((scan_append l cs ds).symm.trans h)

theorem next_outside_of_plain (h : isPlain c = true) : next .outside c = some .outside := by
  have hquote : c ≠ quote := by
    rintro rfl
    exact absurd h (by decide)
  rw [next, if_neg hquote, if_pos h]

theorem scan_outside_of_plain (h : ∀ c ∈ cs, isPlain c = true) :
    scan .outside cs = some .outside := by
  induction cs with
  | nil => rfl
  | cons c cs ih =>
      obtain ⟨hc, hcs⟩ := List.forall_mem_cons.mp h
      rw [scan, next_outside_of_plain hc]
      exact ih hcs

/-! ### Strings -/

/-- What may stand between the quotes of a string. -/
inductive Body : List Char → Prop where
  | nil : Body []
  | char {c : Char} {cs : List Char} : c ≠ quote → c ≠ backslash → Body cs → Body (c :: cs)
  | escape {c : Char} {cs : List Char} : Body cs → Body (backslash :: c :: cs)

theorem Body.append {cs ds : List Char} (h : Body cs) (h' : Body ds) : Body (cs ++ ds) := by
  induction h with
  | nil => exact h'
  | char hquote hbackslash _ ih => exact .char hquote hbackslash ih
  | escape _ ih => exact .escape ih

theorem Body.scan (h : Body cs) : scan .inside cs = some .inside := by
  induction h with
  | nil => rfl
  | char hquote hbackslash _ ih =>
      rw [Lex.scan, next, if_neg hquote, if_neg hbackslash]
      exact ih
  | escape _ ih =>
      rw [Lex.scan, next, if_neg (by decide), if_pos rfl]
      exact ih

/-- The text has a string that reads `k`; one without escapes reads as it stands. -/
def Token (u : List Char) (k : String) : Prop :=
  ∃ pre raw post, u = pre ++ quote :: (raw ++ quote :: post) ∧ scan .outside pre = some .outside ∧
    Body raw ∧ (backslash ∉ raw → raw = k.toList)

variable {u : List Char}

theorem Token.append_right (h : Token u k) (v : List Char) :
    Token (u ++ v) k := by
  obtain ⟨pre, raw, post, rfl, hpre, hbody, hread⟩ := h
  exact ⟨pre, raw, post ++ v, by simp, hpre, hbody, hread⟩

theorem Token.append_left (h : Token u k) {v : List Char}
    (hv : scan .outside v = some .outside) : Token (v ++ u) k := by
  obtain ⟨pre, raw, post, rfl, hpre, hbody, hread⟩ := h
  exact ⟨v ++ pre, raw, post, by simp, scan_trans hv hpre, hbody, hread⟩

/-! ### Two scans of one text -/

/-- One scan is outside of strings, and the other inside. -/
inductive Opposite : Lex → Lex → Prop where
  | outside : Opposite .outside .inside
  | inside : Opposite .inside .outside

/-- **Two scans that are opposite stay so.** -/
theorem Opposite.scan {l m l' m' : Lex} (h : Opposite l m)
    (hl : l.scan cs = some l') (hm : m.scan cs = some m') : Opposite l' m' := by
  induction cs generalizing l m with
  | nil =>
      cases hl
      cases hm
      exact h
  | cons c cs ih =>
      obtain ⟨l₁, hl₁, hl⟩ := Option.bind_eq_some_iff.mp hl
      obtain ⟨m₁, hm₁, hm⟩ := Option.bind_eq_some_iff.mp hm
      have hplain : ∀ {x : Lex}, c ≠ quote → next .outside c = some x →
          x = .outside ∧ next .inside c = some .inside := by
        intro x hquote hx
        rw [next, if_neg hquote] at hx
        split at hx
        · next hc =>
            have hbackslash : c ≠ backslash := by
              rintro rfl
              exact absurd hc (by decide)
            exact ⟨(Option.some.inj hx).symm, by rw [next, if_neg hquote, if_neg hbackslash]⟩
        · cases hx
      refine ih ?_ hl hm
      by_cases hquote : c = quote
      · subst hquote
        cases h with
        | outside => cases hl₁; cases hm₁; exact .inside
        | inside => cases hl₁; cases hm₁; exact .outside
      · cases h with
        | outside =>
            obtain ⟨rfl, hinside⟩ := hplain hquote hl₁
            rw [hinside] at hm₁
            cases hm₁
            exact .outside
        | inside =>
            obtain ⟨rfl, hinside⟩ := hplain hquote hm₁
            rw [hinside] at hl₁
            cases hl₁
            exact .inside

/-- The body of a string, scanned from outside, is plain. -/
theorem Body.plain (h : Body cs) {l : Lex} (hl : Lex.scan .outside cs = some l) :
    ∀ c ∈ cs, isPlain c = true := by
  induction h with
  | nil => simp
  | @char c cs hquote _ _ ih =>
      obtain ⟨l₁, hl₁, hrest⟩ := Option.bind_eq_some_iff.mp hl
      rw [next, if_neg hquote] at hl₁
      split at hl₁
      · next hc =>
          cases hl₁
          exact List.forall_mem_cons.mpr ⟨hc, ih hrest⟩
      · cases hl₁
  | escape _ _ =>
      obtain ⟨l₁, hl₁, -⟩ := Option.bind_eq_some_iff.mp hl
      have hnone : next .outside backslash = none := by decide
      rw [hnone] at hl₁
      cases hl₁

/-- **What a text says inside of a string.**  The strings of a text that is also scanned from inside
of a string are plain. -/
theorem plain_of_token {l : Lex} (h : Token u k)
    (hu : scan .inside u = some l) : ∀ c ∈ k.toList, isPlain c = true := by
  obtain ⟨pre, raw, post, rfl, hpre, hbody, hread⟩ := h
  obtain ⟨l₁, hl₁, hrest⟩ := exists_scan_of_append hu
  cases Opposite.outside.scan hpre hl₁
  obtain ⟨l₂, hl₂, hrest⟩ := Option.bind_eq_some_iff.mp hrest
  cases (show some Lex.outside = some l₂ from hl₂)
  obtain ⟨l₃, hl₃, -⟩ := exists_scan_of_append hrest
  have hplain := hbody.plain hl₃
  have hbackslash : backslash ∉ raw := fun h => absurd (hplain _ h) (by decide)
  rw [← hread hbackslash]
  exact hplain

end Lex

/-! ### Readers -/

theorem Fields.mem_keys_of_get? {v : Value} :
    ∀ {fs : Fields}, fs.get? k = some v → k ∈ fs.keys
  | .nil, h => by cases h
  | .cons k' x fs, h => by
      rw [Fields.get?] at h
      rw [Fields.keys]
      by_cases hk : k' = k
      · rw [hk]
        exact List.mem_cons_self
      · rw [if_neg hk] at h
        exact List.mem_cons_of_mem k' (Fields.mem_keys_of_get? h)

/-- A reader of JSON texts. -/
structure JsonReader where
  parse : String → Option Value
  scans : ∀ u v, parse u = some v → Lex.scan .outside u.toList = some .outside
  tokens : ∀ u fs, parse u = some (.obj fs) → ∀ k ∈ fs.keys, Lex.Token u.toList k

/-! ### The reader of integers -/

variable {cs rest : List Char} {v : Json}

namespace Json
open Lex

/-- `cs` begins with a part that is scanned from outside to outside, and `rest` follows it. -/
def Lexed (cs rest : List Char) (P : List Char → Prop) : Prop :=
  ∃ used, cs = used ++ rest ∧ scan .outside used = some .outside ∧ P used

theorem Lexed.imp {P Q : List Char → Prop} (h : Lexed cs rest P)
    (himp : ∀ used, P used → Q used) : Lexed cs rest Q := by
  obtain ⟨used, hcs, hscan, hP⟩ := h
  exact ⟨used, hcs, hscan, himp used hP⟩

theorem Lexed.trans {cs mid rest : List Char} {P Q R : List Char → Prop} (h : Lexed cs mid P)
    (h' : Lexed mid rest Q) (hR : ∀ u v, scan .outside u = some .outside → P u → Q v → R (u ++ v)) :
    Lexed cs rest R := by
  obtain ⟨u, rfl, hu, hP⟩ := h
  obtain ⟨v, rfl, hv, hQ⟩ := h'
  exact ⟨u ++ v, by simp, scan_trans hu hv, hR u v hu hP hQ⟩

theorem Lexed.of_plain {u rest : List Char} (h : ∀ c ∈ u, isPlain c = true) :
    Lexed (u ++ rest) rest fun _ => True :=
  ⟨u, rfl, scan_outside_of_plain h, trivial⟩

theorem isPlain_of_isBlank (h : isBlank c = true) : isPlain c = true := by
  rw [isPlain, h]
  rfl

theorem blank_lexed (cs : List Char) : Lexed cs (blank cs) fun _ => True := by
  have hparts := List.takeWhile_append_dropWhile (p := isBlank) (l := cs)
  have hlexed : Lexed (cs.takeWhile isBlank ++ cs.dropWhile isBlank) (blank cs) fun _ => True :=
    Lexed.of_plain fun c hc => isPlain_of_isBlank (List.mem_takeWhile_imp hc)
  rwa [hparts] at hlexed

theorem eat_lexed (hc : isPlain c = true)
    (h : eat c cs = some rest) : Lexed cs rest fun _ => True := by
  unfold eat at h
  split at h
  · cases h
  next c' rest' hblank =>
    split at h
    · next heq =>
        cases h
        have hmark : Lexed ([c'] ++ rest) rest fun _ => True := by
          refine Lexed.of_plain fun x hx => ?_
          rw [List.mem_singleton.mp hx, heq]
          exact hc
        have hblanks := blank_lexed cs
        rw [hblank] at hblanks
        exact hblanks.trans hmark fun _ _ _ _ _ => trivial
    · cases h

/-- A digit of an escape is neither a quote nor a backslash. -/
theorem body_of_hexValue {n : Nat} (h : hexValue c = some n) (hcs : Body cs) : Body (c :: cs) := by
  have hquote : c ≠ quote := by
    rintro rfl
    exact absurd h (by simp [hexValue, quote])
  have hbackslash : c ≠ backslash := by
    rintro rfl
    exact absurd h (by simp [hexValue, backslash])
  exact .char hquote hbackslash hcs

theorem hex4_body {n : Nat} (h : hex4 cs = some (n, rest)) :
    ∃ used, cs = used ++ rest ∧ Body used := by
  unfold hex4 at h
  split at h
  · next a b c d tail =>
      split at h
      · next ha hb hc hd =>
          cases h
          exact ⟨[a, b, c, d], rfl, body_of_hexValue ha (body_of_hexValue hb
            (body_of_hexValue hc (body_of_hexValue hd .nil)))⟩
      · cases h
  · cases h

theorem surrogate_body {high : Nat}
    (h : surrogate high cs = some (c, rest)) : ∃ used, cs = used ++ rest ∧ Body used := by
  unfold surrogate at h
  split at h
  · next b u tail =>
      split at h
      · next hbu =>
          obtain ⟨rfl, rfl⟩ := hbu
          split at h
          · next low tail' hhex =>
              split at h
              · obtain ⟨-, rfl⟩ := Prod.mk.inj (Option.some.inj h)
                obtain ⟨used, rfl, hused⟩ := hex4_body hhex
                exact ⟨backslash :: 'u' :: used, rfl, .escape hused⟩
              · cases h
          · cases h
      · cases h
  · cases h

theorem escaped_body (h : escaped cs = some (c, rest)) :
    ∃ used, cs = used ++ rest ∧ Body (backslash :: used) := by
  unfold escaped at h
  split at h
  · cases h
  next x tail =>
    have hone : tail = rest → ∃ used, x :: tail = used ++ rest ∧ Body (backslash :: used) := by
      rintro rfl
      exact ⟨[x], rfl, .escape .nil⟩
    split at h
    · exact hone (Prod.mk.inj (Option.some.inj h)).2
    split at h
    · exact hone (Prod.mk.inj (Option.some.inj h)).2
    split at h
    · exact hone (Prod.mk.inj (Option.some.inj h)).2
    split at h
    · exact hone (Prod.mk.inj (Option.some.inj h)).2
    split at h
    · exact hone (Prod.mk.inj (Option.some.inj h)).2
    split at h
    · exact hone (Prod.mk.inj (Option.some.inj h)).2
    split at h
    · split at h
      · next n tail' hhex =>
          obtain ⟨used, rfl, hused⟩ := hex4_body hhex
          split at h
          · obtain ⟨used', rfl, hused'⟩ := surrogate_body h
            exact ⟨x :: (used ++ used'), by simp, .escape (hused.append hused')⟩
          split at h
          · cases h
          · cases h
            exact ⟨x :: used, rfl, .escape hused⟩
      · cases h
    · cases h

/-- A string up to the quote that ends it, and what it reads. -/
theorem chars_body {n : Nat} {cs s rest : List Char} (h : chars n cs = some (s, rest)) :
    ∃ raw, cs = raw ++ quote :: rest ∧ Body raw ∧ (backslash ∉ raw → raw = s) := by
  induction n generalizing cs s with
  | zero => cases h
  | succ n ih =>
      cases cs with
      | nil => cases h
      | cons c tail =>
          rw [chars] at h
          split at h
          · next hquote =>
              cases h
              exact ⟨[], by rw [hquote]; rfl, .nil, fun _ => rfl⟩
          next hquote =>
            split at h
            · next hbackslash =>
                split at h
                · next x tail' hescaped =>
                    obtain ⟨⟨s', rest'⟩, hchars, heq⟩ := Option.map_eq_some_iff.mp h
                    cases heq
                    obtain ⟨used, rfl, hused⟩ := escaped_body hescaped
                    obtain ⟨raw, rfl, hbody, -⟩ := ih hchars
                    refine ⟨backslash :: (used ++ raw), ?_, ?_, fun hno => ?_⟩
                    · rw [hbackslash]
                      simp
                    · exact hused.append hbody
                    · exact absurd List.mem_cons_self hno
                · cases h
            next hbackslash =>
              split at h
              · cases h
              · obtain ⟨⟨s', rest'⟩, hchars, heq⟩ := Option.map_eq_some_iff.mp h
                cases heq
                obtain ⟨raw, rfl, hbody, hread⟩ := ih hchars
                refine ⟨c :: raw, rfl, .char hquote hbackslash hbody, fun hno => ?_⟩
                rw [hread fun hmem => hno (List.mem_cons_of_mem c hmem)]

/-- A string, with its quotes. -/
theorem stringRest_lexed (h : stringRest cs = some (k, rest)) :
    Lexed (quote :: cs) rest fun used => Token used k := by
  obtain ⟨⟨s, rest'⟩, hchars, heq⟩ := Option.map_eq_some_iff.mp h
  cases heq
  obtain ⟨raw, rfl, hbody, hread⟩ := chars_body hchars
  have hscan : scan .outside (quote :: (raw ++ [quote])) = some .outside := by
    have hinside := scan_trans hbody.scan (show scan .inside [quote] = some .outside from rfl)
    exact hinside
  refine ⟨quote :: (raw ++ [quote]), by simp, hscan, [], raw, [], rfl, rfl, hbody, fun hno => ?_⟩
  rw [hread hno, String.toList_ofList]

theorem isPlain_of_isNumeric (h : isNumeric c = true) : isPlain c = true := by
  simp only [isNumeric, Bool.or_eq_true, decide_eq_true_eq] at h
  rcases h with ((((h | rfl) | rfl) | rfl) | rfl) | rfl
  · rw [isPlain, h, Bool.or_true]
    rfl
  all_goals decide

theorem number_lexed (h : number cs = some (v, rest)) :
    Lexed cs rest fun _ => True := by
  obtain ⟨n, -, heq⟩ := Option.map_eq_some_iff.mp h
  cases heq
  have htoken : ∀ ds : List Char, Lexed ds (ds.dropWhile isNumeric) fun _ => True := by
    intro ds
    have hlexed : Lexed (ds.takeWhile isNumeric ++ ds.dropWhile isNumeric)
        (ds.dropWhile isNumeric) fun _ => True :=
      Lexed.of_plain fun c hc => isPlain_of_isNumeric (List.mem_takeWhile_imp hc)
    rwa [List.takeWhile_append_dropWhile] at hlexed
  by_cases hnegative : cs.head? = some '-'
  · obtain ⟨tail, rfl⟩ := List.head?_eq_some_iff.mp hnegative
    have hsign : Lexed ('-' :: tail) tail fun _ => True :=
      Lexed.of_plain (u := ['-']) (List.forall_mem_singleton.mpr rfl)
    simpa using hsign.trans (htoken tail) fun _ _ _ _ _ => trivial
  · simpa [hnegative] using htoken cs

theorem literal_lexed {word : List Char} (hword : ∀ c ∈ word, isPlain c = true) {v x : Json}
    (h : literal word v cs = some (x, rest)) :
    Lexed cs rest fun _ => True := by
  unfold literal at h
  split at h
  · next hpre =>
      cases h
      obtain ⟨tail, rfl⟩ := List.isPrefixOf_iff_prefix.mp hpre
      rw [List.drop_left]
      exact Lexed.of_plain hword
  · cases h

end Json

/-- The names of the members. -/
def Members.keys : Members → List String
  | .nil => []
  | .cons k _ ms => k :: ms.keys

namespace Json
open Lex

/-- The names of the members of an object are strings of the text. -/
def KeyTokens (v : Json) (used : List Char) : Prop :=
  ∀ ms, v = .obj ms → ∀ k ∈ ms.keys, Token used k

theorem keyTokens_of_ne (h : ∀ ms, v ≠ .obj ms) (used : List Char) : KeyTokens v used :=
  fun ms hms => absurd hms (h ms)

/-- What each reader of a text reads is scanned from outside to outside. -/
structure ReadsLexemes (n : Nat) : Prop where
  value : ∀ {cs rest v}, Json.value n cs = some (v, rest) → Lexed cs rest (KeyTokens v)
  elements : ∀ {cs rest xs}, Json.elements n cs = some (xs, rest) → Lexed cs rest fun _ => True
  member : ∀ {cs rest k x}, Json.member n cs = some ((k, x), rest) →
    Lexed cs rest fun used => Token used k
  members : ∀ {cs rest ms}, Json.members n cs = some (ms, rest) →
    Lexed cs rest fun used => ∀ k ∈ ms.keys, Token used k

section
variable {n : Nat} (ih : ReadsLexemes n)
include ih

theorem value_lexed (h : value (n + 1) cs = some (v, rest)) :
    Lexed cs rest (KeyTokens v) := by
  have hblank := blank_lexed cs
  rw [value] at h
  split at h
  · cases h
  next c tail hcs =>
    rw [hcs] at hblank
    have hmark : isPlain c = true → Lexed cs tail fun _ => True := by
      intro hc
      have hone : Lexed ([c] ++ tail) tail fun _ => True :=
        Lexed.of_plain fun x hx => by rwa [List.mem_singleton.mp hx]
      exact hblank.trans hone fun _ _ _ _ _ => trivial
    have hscalar : (∀ ms, v ≠ .obj ms) → (Lexed (c :: tail) rest fun _ => True) →
        Lexed cs rest (KeyTokens v) := by
      intro hne hrest
      exact hblank.trans hrest fun u w _ _ _ => keyTokens_of_ne hne (u ++ w)
    split at h
    · next hquote =>
        obtain ⟨⟨k, rest'⟩, hstring, heq⟩ := Option.map_eq_some_iff.mp h
        cases heq
        rw [hquote] at hscalar
        exact hscalar (by simp) ((stringRest_lexed hstring).imp fun _ _ => trivial)
    split at h
    · next hbracket =>
        have hopen := hmark (by rw [hbracket]; decide)
        split at h
        · next rest' heat =>
            cases h
            exact hopen.trans (eat_lexed (by decide) heat) fun u w _ _ _ =>
              keyTokens_of_ne (by simp) (u ++ w)
        · split at h
          · next x mid hvalue =>
              obtain ⟨⟨xs, rest'⟩, helements, heq⟩ := Option.map_eq_some_iff.mp h
              cases heq
              have hlist := hopen.trans (R := fun _ => True) (ih.value hvalue)
                fun _ _ _ _ _ => trivial
              exact hlist.trans (ih.elements helements) fun u w _ _ _ =>
                keyTokens_of_ne (by simp) (u ++ w)
          · cases h
    split at h
    · next hbrace =>
        have hopen := hmark (by rw [hbrace]; decide)
        split at h
        · next rest' heat =>
            cases h
            refine hopen.trans (eat_lexed (by decide) heat) fun u w _ _ _ ms hms k hk => ?_
            cases hms
            cases hk
        · split at h
          · next k x mid hmember =>
              obtain ⟨⟨ms, rest'⟩, hmembers, heq⟩ := Option.map_eq_some_iff.mp h
              cases heq
              have hfirst := hopen.trans (R := fun used => Token used k) (ih.member hmember)
                fun u w hu _ htoken => htoken.append_left hu
              refine hfirst.trans (ih.members hmembers) fun u w hu hk htokens ms' hms k' hk' => ?_
              cases hms
              rcases List.mem_cons.mp hk' with rfl | hk'
              · exact hk.append_right w
              · exact (htokens k' hk').append_left hu
          · cases h
    split at h
    · exact hscalar (by rintro ms rfl; simp [literal] at h) (literal_lexed (List.all_eq_true.mp rfl) h)
    split at h
    · exact hscalar (by rintro ms rfl; simp [literal] at h) (literal_lexed (List.all_eq_true.mp rfl) h)
    split at h
    · exact hscalar (by rintro ms rfl; simp [literal] at h) (literal_lexed (List.all_eq_true.mp rfl) h)
    · refine hscalar ?_ (number_lexed h)
      rintro ms rfl
      obtain ⟨m, -, heq⟩ := Option.map_eq_some_iff.mp h
      cases heq

theorem elements_lexed {xs : Jsons}
    (h : elements (n + 1) cs = some (xs, rest)) : Lexed cs rest fun _ => True := by
  rw [elements] at h
  split at h
  · next rest' heat =>
      cases h
      exact eat_lexed (by decide) heat
  · split at h
    · next mid heat =>
        split at h
        · next x mid' hvalue =>
            obtain ⟨⟨xs', rest'⟩, helements, heq⟩ := Option.map_eq_some_iff.mp h
            cases heq
            have hfirst := (eat_lexed (by decide) heat).trans (R := fun _ => True)
              (ih.value hvalue) fun _ _ _ _ _ => trivial
            exact hfirst.trans (ih.elements helements) fun _ _ _ _ _ => trivial
        · cases h
    · cases h

theorem member_lexed {x : Json}
    (h : member (n + 1) cs = some ((k, x), rest)) : Lexed cs rest fun used => Token used k := by
  rw [member] at h
  split at h
  · next tail hquote =>
      split at h
      · next k' mid hstring =>
          split at h
          · next mid' hcolon =>
              obtain ⟨⟨v, rest'⟩, hvalue, heq⟩ := Option.map_eq_some_iff.mp h
              cases heq
              -- the blanks before the string, which `eat` skips with its quote
              have hblanks : Lexed cs (quote :: tail) fun _ => True := by
                have hblank := blank_lexed cs
                unfold eat at hquote
                split at hquote
                · cases hquote
                next c rest' hcs =>
                  split at hquote
                  · next heq =>
                      cases hquote
                      rwa [hcs, heq] at hblank
                  · cases hquote
              have hname := hblanks.trans (R := fun used => Token used k) (stringRest_lexed hstring)
                fun u w hu _ htoken => htoken.append_left hu
              have hmark := hname.trans (R := fun used => Token used k)
                (eat_lexed (by decide) hcolon) fun u w _ htoken _ => htoken.append_right w
              exact hmark.trans (ih.value hvalue) fun u w _ htoken _ => htoken.append_right w
          · cases h
      · cases h
  · cases h

theorem members_lexed {ms : Members} (h : members (n + 1) cs = some (ms, rest)) :
    Lexed cs rest fun used => ∀ k ∈ ms.keys, Token used k := by
  rw [members] at h
  split at h
  · next rest' heat =>
      cases h
      exact (eat_lexed (by decide) heat).imp fun _ _ k hk => by cases hk
  · split at h
    · next mid heat =>
        split at h
        · next k x mid' hmember =>
            obtain ⟨⟨ms', rest'⟩, hmembers, heq⟩ := Option.map_eq_some_iff.mp h
            cases heq
            have hfirst := (eat_lexed (by decide) heat).trans (R := fun used => Token used k)
              (ih.member hmember) fun u w hu _ htoken => htoken.append_left hu
            refine hfirst.trans (ih.members hmembers) fun u w hu hk htokens k' hk' => ?_
            rcases List.mem_cons.mp hk' with rfl | hk'
            · exact hk.append_right w
            · exact (htokens k' hk').append_left hu
        · cases h
    · cases h

end

theorem readsLexemes (n : Nat) : ReadsLexemes n := by
  induction n with
  | zero =>
      constructor
      · intro _ _ _ h
        cases h
      · intro _ _ _ h
        cases h
      · intro _ _ _ _ h
        cases h
      · intro _ _ _ h
        cases h
  | succ n ih => exact ⟨value_lexed ih, elements_lexed ih, member_lexed ih, members_lexed ih⟩

/-- **What `JSON.parse` reads is made of lexemes**, the names of an object's members among its
strings. -/
theorem parse_lexed (h : parse cs = some v) :
    scan .outside cs = some .outside ∧ KeyTokens v cs := by
  unfold parse at h
  split at h
  · next v' rest hvalue =>
      split at h
      · next hblank =>
          cases h
          have htail := blank_lexed rest
          rw [hblank] at htail
          obtain ⟨used, hcs, hscan, htokens⟩ := ((readsLexemes _).value hvalue).trans
            (R := KeyTokens v) htail
            fun u w _ htokens _ ms hms k hk => (htokens ms hms k hk).append_right w
          rw [List.append_nil] at hcs
          subst hcs
          exact ⟨hscan, htokens⟩
      · cases h
  · cases h

/-! ### Values -/

mutual

/-- The value a text says. -/
def toValue : Json → Value
  | .null => .null
  | .bool b => .bool b
  | .int n => .num n
  | .str s => .str s
  | .arr xs => .arr (toValues xs)
  | .obj ms => .obj (toFields ms)

def toValues : Jsons → Values
  | .nil => .nil
  | .cons x xs => .cons (toValue x) (toValues xs)

/-- Of members of one name the last. -/
def toFields : Members → Fields
  | .nil => .nil
  | .cons k x ms => if k ∈ (toFields ms).keys then toFields ms else .cons k (toValue x) (toFields ms)

end

theorem mem_keys_of_toFields : ∀ {ms : Members} {k : String}, k ∈ (toFields ms).keys → k ∈ ms.keys
  | .nil, _, hk => by cases hk
  | .cons k' x ms, k, hk => by
      rw [toFields] at hk
      split at hk
      · exact List.mem_cons_of_mem k' (mem_keys_of_toFields hk)
      · rcases List.mem_cons.mp hk with rfl | hk
        · exact List.mem_cons_self
        · exact List.mem_cons_of_mem k' (mem_keys_of_toFields hk)

/-- `JSON.parse` on texts whose numbers are integers. -/
def reader : JsonReader where
  parse s := (parse s.toList).map toValue
  scans u v h := by
    obtain ⟨x, hx, -⟩ := Option.map_eq_some_iff.mp h
    exact (parse_lexed hx).1
  tokens u fs h := by
    obtain ⟨x, hx, heq⟩ := Option.map_eq_some_iff.mp h
    intro k hk
    cases x with
    | obj ms =>
        cases heq
        exact (parse_lexed hx).2 ms rfl k (mem_keys_of_toFields hk)
    | _ => cases heq

end Json

end Runir
