import Runir.Bridge.ManagedBlock
import Runir.Lib.Marks

/-!
# Bridge — ManagedSealed

When the managed block keeps to itself.

* `sanitizeFactText_eq_self_iff`: a second pass of the sanitizer finds nothing exactly where no
  comment delimiter is left.
* `marked_section`: what the id pattern finds in a block whose facts hold no delimiter.
* `upsertManaged_of_block`, `upsertManaged_fresh`: what is replaced, and what is kept.
* `managed_sealed_iff`: the block is sealed exactly where one pass was enough for every fact that
  is written, and the facts with room as characters have room as bytes.
-/

namespace Runir.Bridge
open Scan

/-! ### Delimiters -/

/-- The text holds no comment delimiter. -/
def Free (cs : List Char) : Prop := places commentOpen cs = 0 ∧ places commentClose cs = 0

instance (cs : List Char) : Decidable (Free cs) := inferInstanceAs (Decidable (_ ∧ _))

theorem commentOpen_ne_nil : commentOpen ≠ [] := by decide

theorem commentClose_ne_nil : commentClose ≠ [] := by decide

theorem free_iff {cs : List Char} : Free cs ↔ ¬commentOpen <:+: cs ∧ ¬commentClose <:+: cs := by
  unfold Free
  rw [places_eq_zero commentOpen_ne_nil, places_eq_zero commentClose_ne_nil]

variable {back : List Char}

/-- A text without the opening delimiter gives the id patterns nothing to match. -/
theorem quiet_of_places {r : Regex} {front : List Char}
    (h : places commentOpen front = 0) (hback : back = [] ∨ ∃ c cs, back = c :: cs ∧ c ∉ commentOpen) :
    Regex.Quiet (.seq (.lit "<!--") r) front back := by
  intro v hv hsuf b
  by_contra hrun
  obtain ⟨hpre, -⟩ := Regex.prefix_of_run_lit hrun
  have hin : commentOpen <+: v := by
    rcases hback with rfl | ⟨c, cs, rfl, hc⟩
    · rwa [List.append_nil] at hpre
    · exact (prefix_append_cons hc).mp hpre
  exact (places_eq_zero commentOpen_ne_nil).mp h (hin.isInfix.trans hsuf.isInfix)

theorem run_lit_nil {r : Regex} (b : Option Char) :
    Regex.run (.seq (.lit "<!--") r) ⟨b, [], []⟩ = [] := by
  by_contra hrun
  have hpre := (Regex.prefix_of_run_lit hrun).1
  exact absurd (List.prefix_nil.mp hpre) (by decide)

/-! ### The sanitizer -/

def isBreak (c : Char) : Bool := c == '\r' || c == '\n'

theorem sanitizeFactText_eq (text : List Char) :
    sanitizeFactText text = strip (Text.collapseRuns isBreak ' ' (remove commentClose (remove commentOpen
      (Regex.replaceAll idStripRe (fun _ => []) (remove endMark (remove beginMark text)))))) := rfl

theorem beginMark_ne_nil : beginMark ≠ [] := by decide

theorem endMark_ne_nil : endMark ≠ [] := by decide

/-- One line of text without white space around it, as the sanitizer leaves it. -/
structure Tidy (body : List Char) : Prop where
  line : ∀ c ∈ body, isBreak c = false
  stripped : strip body = body

theorem tidy_sanitizeFactText (text : List Char) : Tidy (sanitizeFactText text) := by
  rw [sanitizeFactText_eq]
  generalize remove commentClose _ = cleaned
  refine ⟨fun c hc => ?_, ?_⟩
  · obtain ⟨front, back, -, -, hparts⟩ :=
      Text.exists_trimWith (p := isSpace) (Text.collapseRuns isBreak ' ' cleaned)
    have hmem : c ∈ Text.collapseRuns isBreak ' ' cleaned := by
      rw [hparts]
      exact List.mem_append_right front (List.mem_append_left back hc)
    exact Text.plain_of_mem_collapseRuns (by decide) c hmem
  · obtain ⟨hhead, hlast⟩ := Text.trimWith_ends isSpace (Text.collapseRuns isBreak ' ' cleaned)
    exact Text.trimWith_of_ends hhead hlast

/-- Cut off behind its first characters, with an ellipsis, a text stays tidy. -/
theorem Tidy.take {body : List Char} (h : Tidy body) (hne : body ≠ []) (n : Nat) :
    Tidy (body.take (n + 1) ++ ['…']) := by
  obtain ⟨x, xs, rfl⟩ := List.exists_cons_of_ne_nil hne
  refine ⟨fun c hc => ?_, ?_⟩
  · rcases List.mem_append.mp hc with hc | hc
    · exact h.line c (List.mem_of_mem_take hc)
    · rw [List.mem_singleton.mp hc]
      decide
  · have hends := Text.trimWith_ends isSpace (x :: xs)
    rw [show Text.trimWith isSpace (x :: xs) = x :: xs from h.stripped] at hends
    refine Text.trimWith_of_ends (fun c hc => hends.1 c hc) fun c hc => ?_
    rw [List.getLast?_append_of_ne_nil _ (List.cons_ne_nil _ _)] at hc
    obtain rfl : '…' = c := Option.some.inj hc
    decide

/-- A tidy text without delimiters passes the sanitizer as it is. -/
theorem Tidy.sanitize_of_free {body : List Char} (h : Tidy body) (hfree : Free body) :
    sanitizeFactText body = body := by
  have hbegin : places beginMark body = 0 :=
    places_of_inner commentOpen_ne_nil (by decide) hfree.1
  have hend : places endMark body = 0 := places_of_inner commentOpen_ne_nil (by decide) hfree.1
  have hquiet : Regex.Quiet idStripRe body [] := quiet_of_places hfree.1 (Or.inl rfl)
  rw [sanitizeFactText_eq, remove_of_places_eq_zero beginMark_ne_nil hbegin,
    remove_of_places_eq_zero endMark_ne_nil hend, Regex.replaceAll_of_quiet hquiet run_lit_nil,
    remove_of_places_eq_zero commentOpen_ne_nil hfree.1,
    remove_of_places_eq_zero commentClose_ne_nil hfree.2, Text.collapseRuns_of_plain h.line,
    h.stripped]

/-- A text that passes the sanitizer as it is holds no delimiter. -/
theorem free_of_sanitize_eq_self {text : List Char} (h : sanitizeFactText text = text) :
    Free text := by
  have hfront : (Regex.replaceAll idStripRe (fun _ => []) (remove endMark (remove beginMark text))).Sublist
      text :=
    ((Regex.replaceAll_sublist idStripRe _).trans (remove_sublist endMark_ne_nil _)).trans
      (remove_sublist beginMark_ne_nil _)
  have hlength := congrArg List.length h
  rw [sanitizeFactText_eq] at hlength
  -- no pass may take anything out, since none puts it back
  generalize Regex.replaceAll idStripRe (fun _ => []) (remove endMark (remove beginMark text)) = cleaned
    at hfront hlength
  obtain ⟨front, back, -, -, hparts⟩ := Text.exists_trimWith (p := isSpace)
    (Text.collapseRuns isBreak ' ' (remove commentClose (remove commentOpen cleaned)))
  have hstrip : (strip (Text.collapseRuns isBreak ' '
      (remove commentClose (remove commentOpen cleaned)))).length ≤
      (Text.collapseRuns isBreak ' ' (remove commentClose (remove commentOpen cleaned))).length := by
    have hlen := congrArg List.length hparts
    rw [List.length_append, List.length_append] at hlen
    unfold strip
    omega
  have hcollapse := Text.length_collapseRuns_le isBreak ' ' (remove commentClose (remove commentOpen cleaned))
  have hclose := (remove_sublist commentClose_ne_nil (remove commentOpen cleaned)).length_le
  have hopen := (remove_sublist commentOpen_ne_nil cleaned).length_le
  have hclean := hfront.length_le
  obtain rfl : cleaned = text := hfront.eq_of_length (by omega)
  rw [free_iff]
  constructor
  · intro hin
    have hlt := length_remove_lt commentOpen_ne_nil hin
    omega
  · intro hin
    have hsame : remove commentOpen cleaned = cleaned :=
      (remove_sublist commentOpen_ne_nil cleaned).eq_of_length (by omega)
    have hlt := length_remove_lt commentClose_ne_nil hin
    rw [hsame] at hclose hcollapse hstrip hlength
    omega

/-! ### Bullets -/

/-- A token that an id comment may hold. -/
def IdToken (token : List Char) : Prop :=
  token ≠ [] ∧ token.length ≤ maxIdTokenChars ∧ ∀ c ∈ token, isIdChar c = true

theorem idToken_of_sanitizeToken {cs token : List Char} (h : sanitizeToken cs = some token) :
    IdToken token := by
  unfold sanitizeToken at h
  split at h
  · cases h
  · dsimp only at h
    split at h
    · cases h
    · next hne =>
        obtain rfl := Option.some.inj h
        refine ⟨hne, List.length_take_le _ _, fun c hc => ?_⟩
        exact (List.mem_filter.mp (List.mem_of_mem_take hc)).2

/-- A bullet as the loop makes it. -/
structure Bullet.Formed (bullet : Bullet) : Prop where
  tidy : Tidy bullet.body
  token : ∀ token, bullet.id = some token → IdToken token
  marker_eq : bullet.marker = (bullet.id.map idMarker).getD []
  short : bullet.text.length ≤ maxBulletChars

theorem length_marker_le {id : Option (List Char)} (h : ∀ token, id = some token → IdToken token) :
    ((id.map idMarker).getD []).length ≤ 200 := by
  cases id with
  | none => exact Nat.zero_le _
  | some token =>
      have hlen := (h token rfl).2.1
      have hmark : (idMarker token).length = 11 + token.length + 4 := by
        unfold idMarker
        rw [List.length_append, List.length_append]
        rfl
      change (idMarker token).length ≤ 200
      rw [hmark]
      unfold maxIdTokenChars at hlen
      omega

variable {mark : List Char}

/-- A marker always fits, so the body alone is cut. -/
theorem fitBody_eq (body : List Char) (hmark : mark.length ≤ 200) :
    fitBody body mark =
      if body.length ≤ maxBulletChars - (2 + mark.length) then (body, mark)
      else (body.take (maxBulletChars - (2 + mark.length) - 1) ++ ['…'], mark) := by
  have hfits : ¬2 + mark.length > maxBulletChars := by
    unfold maxBulletChars
    omega
  have hroom : ¬maxBulletChars - (2 + mark.length) < 1 := by
    unfold maxBulletChars
    omega
  have hroom' : ¬maxBulletChars - (2 + mark.length) < 2 := by
    unfold maxBulletChars
    omega
  unfold fitBody
  rw [fitBodyOr, if_neg hfits, if_neg hroom, if_neg hroom']

variable {bullet : Bullet}

theorem formed_of_bulletOf {fact : Fact} (h : bulletOf fact = some bullet) :
    bullet.Formed := by
  unfold bulletOf at h
  dsimp only at h
  split at h
  · cases h
  · next hne =>
      split at h
      · cases h
      · split at h
        · cases h
        · next hlong =>
            obtain rfl := Option.some.inj h
            have htoken : ∀ token, (fact.id.bind fun token => sanitizeToken (strip token)) = some token →
                IdToken token := by
              intro token htoken
              obtain ⟨raw, -, hraw⟩ := Option.bind_eq_some_iff.mp htoken
              exact idToken_of_sanitizeToken hraw
            have hfit := fitBody_eq (sanitizeFactText fact.text) (length_marker_le htoken)
            have htidy := tidy_sanitizeFactText fact.text
            refine ⟨?_, htoken, ?_, Nat.not_lt.mp hlong⟩
            · dsimp only
              rw [hfit]
              split
              · exact htidy
              · have hpos : ∃ n, maxBulletChars - (2 + (((fact.id.bind fun token =>
                    sanitizeToken (strip token)).map idMarker).getD []).length) - 1 = n + 1 := by
                  refine Nat.exists_eq_succ_of_ne_zero ?_
                  have hlen := length_marker_le htoken
                  unfold maxBulletChars
                  omega
                obtain ⟨n, hn⟩ := hpos
                rw [hn]
                exact htidy.take hne n
            · dsimp only
              rw [hfit]
              split <;> rfl

/-! ### Counting delimiters -/

/-- One for the id comment of a bullet, if it has one. -/
def Bullet.marks (bullet : Bullet) : Nat := if bullet.id.isSome then 1 else 0

variable {token : List Char}

theorem IdToken.notMem (h : IdToken token) {c : Char} (hc : isIdChar c = false) :
    c ∉ token := fun hmem => Bool.false_ne_true (hc.symm.trans (h.2.2 c hmem))

theorem places_idMarker (h : IdToken token) :
    places commentOpen (idMarker token) = 1 ∧ places commentClose (idMarker token) = 1 := by
  have hparts : idMarker token =
      "  <!--".toList ++ ' ' :: ("id:".toList ++ ' ' :: (token ++ ' ' :: "-->".toList)) := by
    unfold idMarker
    simp
  rw [hparts, places_append_cons (by decide) commentOpen_ne_nil,
    places_append_cons (by decide) commentOpen_ne_nil,
    places_append_cons (by decide) commentOpen_ne_nil,
    places_append_cons (by decide) commentClose_ne_nil,
    places_append_cons (by decide) commentClose_ne_nil,
    places_append_cons (by decide) commentClose_ne_nil,
    places_eq_zero_of_notMem (x := '<') (by decide) (h.notMem (by decide)),
    places_eq_zero_of_notMem (x := '>') (by decide) (h.notMem (by decide))]
  decide

/-- The delimiters of a bullet are those of its body and of its id comment. -/
theorem Bullet.Formed.places_text (h : bullet.Formed) :
    places commentOpen bullet.text = places commentOpen bullet.body + bullet.marks ∧
      places commentClose bullet.text = places commentClose bullet.body + bullet.marks := by
  have htext : bullet.text = ['-'] ++ ' ' :: (bullet.body ++ bullet.marker) := rfl
  rw [htext, places_append_cons (by decide) commentOpen_ne_nil,
    places_append_cons (by decide) commentClose_ne_nil, h.marker_eq,
    show places commentOpen ['-'] = 0 by decide, show places commentClose ['-'] = 0 by decide,
    Nat.zero_add, Nat.zero_add]
  unfold Bullet.marks
  cases hid : bullet.id with
  | none =>
      rw [Option.map_none, Option.getD_none, List.append_nil]
      exact ⟨rfl, rfl⟩
  | some token =>
      obtain ⟨hopen, hclose⟩ := places_idMarker (h.token token hid)
      have hmarker : idMarker token = ' ' :: (idMarker token).tail := rfl
      change places commentOpen (bullet.body ++ idMarker token) = _ ∧
        places commentClose (bullet.body ++ idMarker token) = _
      rw [hmarker, places_append_sep (by decide) commentOpen_ne_nil,
        places_append_sep (by decide) commentClose_ne_nil, ← hmarker, hopen, hclose]
      exact ⟨rfl, rfl⟩

/-- A marker of the block: it begins as no id comment does. -/
structure IsMark (mark : List Char) : Prop where
  front : "<!-- r".toList <+: mark
  once : '<' ∉ mark.tail
  last : mark = mark.dropLast ++ ['>']
  last_once : '>' ∉ mark.dropLast

/-- A bullet whose body holds no delimiter holds no marker of the block. -/
theorem IsMark.places_text (hmark : IsMark mark)
    (h : bullet.Formed) (hfree : Free bullet.body) : places mark bullet.text = 0 := by
  obtain ⟨⟨tail, rfl⟩, honce, -, -⟩ := hmark
  have hopen : commentOpen <:+: "<!-- r".toList ++ tail :=
    ((show commentOpen <+: "<!-- r".toList by decide).trans (List.prefix_append _ _)).isInfix
  have hbody : places commentOpen (bulletOpen ++ bullet.body) = 0 := by
    have hparts : bulletOpen ++ bullet.body = ['-'] ++ ' ' :: bullet.body := rfl
    rw [hparts, places_append_cons (by decide) commentOpen_ne_nil, hfree.1]
    decide
  unfold Bullet.text
  rw [h.marker_eq]
  cases hid : bullet.id with
  | none =>
      rw [Option.map_none, Option.getD_none, List.append_nil]
      exact places_of_inner commentOpen_ne_nil hopen hbody
  | some token =>
      have htoken := h.token token hid
      have hparts : bulletOpen ++ bullet.body ++ idMarker token =
          (bulletOpen ++ bullet.body ++ "  ".toList) ++
            '<' :: ("!-- id: ".toList ++ token ++ " -->".toList) := by
        unfold idMarker
        simp
      have hfront : places commentOpen (bulletOpen ++ bullet.body ++ "  ".toList) = 0 := by
        rw [show "  ".toList = ' ' :: " ".toList from rfl,
          places_append_cons (by decide) commentOpen_ne_nil, hbody]
        decide
      have hrest : '<' ∉ "!-- id: ".toList ++ token ++ " -->".toList := by
        rw [List.mem_append, List.mem_append, not_or, not_or]
        exact ⟨⟨by decide, htoken.notMem (by decide)⟩, by decide⟩
      have hhere : ¬"<!-- r".toList ++ tail <+:
          '<' :: ("!-- id: ".toList ++ token ++ " -->".toList) := by
        rintro ⟨rest, hrest⟩
        exact absurd (congrArg (·[5]?) hrest) (by simp)
      have hzero : places ("<!-- r".toList ++ tail) ("!-- id: ".toList ++ token ++ " -->".toList) = 0 :=
        places_eq_zero_of_notMem (x := '<') (List.mem_cons_self ..) hrest
      have hmarker : places ("<!-- r".toList ++ tail)
          ('<' :: ("!-- id: ".toList ++ token ++ " -->".toList)) = 0 := by
        rw [places, if_neg hhere, hzero]
      change places ("<!-- r".toList ++ tail) (bulletOpen ++ bullet.body ++ idMarker token) = 0
      rw [hparts]
      refine (places_append_head honce _ _).trans ?_
      exact Nat.add_eq_zero_iff.mpr ⟨places_of_inner commentOpen_ne_nil hopen hfront, hmarker⟩

theorem isMark_beginMark : IsMark beginMark := ⟨by decide, by decide, by decide, by decide⟩

theorem isMark_endMark : IsMark endMark := ⟨by decide, by decide, by decide, by decide⟩

/-! ### Counting in the block -/

/-- What there is to know of the lines before the bullets. -/
theorem headerLines_facts : ∀ canary,
    (((headerLines canary).map (places commentOpen)).sum = 2 ∧
      ((headerLines canary).map (places commentClose)).sum = 2 ∧
      ((headerLines canary).map (places beginMark)).sum = 1 ∧
      ((headerLines canary).map (places endMark)).sum = 0) ∧
    places commentOpen ((headerLines canary).tail.tail.flatMap fun line => newline :: line) = 0 ∧
    usedBy (headerLines canary) ≤ maxManagedBytes ∧
    ∀ line ∈ headerLines canary, newline ∉ line ∧ line.length ≤ maxBulletChars := by
  decide +kernel

theorem places_renderSection {needle : List Char} (hline : newline ∉ needle) (hne : needle ≠ [])
    (canary : Bool) (bullets : List Bullet) :
    places needle (renderSection canary bullets) =
      ((headerLines canary).map (places needle)).sum +
        ((bullets.map fun bullet => places needle bullet.text).sum + places needle endMark) := by
  unfold renderSection
  rw [places_append_cons hline hne, places_joinLines hline hne, List.map_append, List.map_append,
    List.sum_append, List.sum_append, List.map_map, List.map_singleton, List.sum_singleton,
    show places needle ([] : List Char) = 0 from rfl, Nat.add_zero, Nat.add_assoc]
  rfl

variable {bullets : List Bullet}

/-- The comments of a block are three of its own and one for each id, with what the facts bring. -/
theorem places_delimiters (h : ∀ bullet ∈ bullets, bullet.Formed) (canary : Bool) :
    places commentOpen (renderSection canary bullets) =
        3 + (bullets.map Bullet.marks).sum +
          (bullets.map fun bullet => places commentOpen bullet.body).sum ∧
      places commentClose (renderSection canary bullets) =
        3 + (bullets.map Bullet.marks).sum +
          (bullets.map fun bullet => places commentClose bullet.body).sum := by
  have hopen : (bullets.map fun bullet => places commentOpen bullet.text).sum =
      (bullets.map Bullet.marks).sum +
        (bullets.map fun bullet => places commentOpen bullet.body).sum := by
    rw [← List.sum_map_add]
    refine congrArg _ (List.map_congr_left fun bullet hmem => ?_)
    rw [(h bullet hmem).places_text.1, Nat.add_comm]
  have hclose : (bullets.map fun bullet => places commentClose bullet.text).sum =
      (bullets.map Bullet.marks).sum +
        (bullets.map fun bullet => places commentClose bullet.body).sum := by
    rw [← List.sum_map_add]
    refine congrArg _ (List.map_congr_left fun bullet hmem => ?_)
    rw [(h bullet hmem).places_text.2, Nat.add_comm]
  obtain ⟨⟨hheader, hheader', -, -⟩, -⟩ := headerLines_facts canary
  have hend : places commentOpen endMark = 1 ∧ places commentClose endMark = 1 := by decide
  rw [places_renderSection (by decide) commentOpen_ne_nil,
    places_renderSection (by decide) commentClose_ne_nil, hopen, hclose, hheader, hheader', hend.1,
    hend.2]
  omega

/-- A block of facts without delimiters holds its two markers once. -/
theorem places_marks (h : ∀ bullet ∈ bullets, bullet.Formed)
    (hfree : ∀ bullet ∈ bullets, Free bullet.body) (canary : Bool) :
    places beginMark (renderSection canary bullets) = 1 ∧
      places endMark (renderSection canary bullets) = 1 := by
  have hzero : ∀ mark, IsMark mark →
      (bullets.map fun bullet => places mark bullet.text).sum = 0 := by
    intro mark hmark
    refine List.sum_eq_zero fun n hn => ?_
    obtain ⟨bullet, hmem, rfl⟩ := List.mem_map.mp hn
    exact hmark.places_text (h bullet hmem) (hfree bullet hmem)
  obtain ⟨⟨-, -, hheader, hheader'⟩, -⟩ := headerLines_facts canary
  have hend : places beginMark endMark = 0 ∧ places endMark endMark = 1 := by decide
  rw [places_renderSection (by decide) beginMark_ne_nil,
    places_renderSection (by decide) endMark_ne_nil, hzero _ isMark_beginMark,
    hzero _ isMark_endMark, hheader, hheader', hend.1, hend.2]
  exact ⟨rfl, rfl⟩

/-! ### The ids a block marks -/

theorem quiet_of_notMem {r : Regex} {front : List Char} (h : '<' ∉ front) (back : List Char) :
    Regex.Quiet (.seq (.lit "<!--") r) front back := by
  intro v hv hsuf b
  by_contra hrun
  obtain ⟨hpre, -⟩ := Regex.prefix_of_run_lit hrun
  obtain ⟨c, v, rfl⟩ := List.exists_cons_of_ne_nil hv
  obtain ⟨rfl, -⟩ := List.cons_prefix_cons.mp hpre
  exact h (hsuf.subset (List.mem_cons_self ..))

/-- A comment that does not begin with `id:` is no id comment. -/
theorem quiet_comment {tail back : List Char} (htail : '<' ∉ tail)
    (hid : ¬"id:".toList <+: (('<' :: (tail ++ back)).drop 4).dropWhile isSpace) :
    Regex.Quiet idMarkerRe ('<' :: tail) back := by
  intro v hv hsuf b
  rcases List.suffix_cons_iff.mp hsuf with rfl | hsuf
  · by_contra hrun
    obtain ⟨-, hrest⟩ := Regex.prefix_of_run_lit hrun
    obtain ⟨q, hq⟩ := List.exists_mem_of_ne_nil _ hrest
    rw [Regex.run, List.mem_flatMap] at hq
    obtain ⟨mid, hmid, hq⟩ := hq
    obtain ⟨u, hu, hparts⟩ := Regex.consumes_of_mem_run hmid
    have hspaces : ∀ c ∈ u, isSpace c = true :=
      Regex.forall_of_consumes (r := .star (.cls isSpace)) (fun _ h => h) hu
    obtain ⟨hlit, -⟩ := Regex.prefix_of_run_lit (List.ne_nil_of_mem hq)
    refine hid ?_
    obtain ⟨rest, hrest⟩ := hlit
    change "id:".toList <+: List.dropWhile isSpace (List.drop 4 ('<' :: tail ++ back))
    rw [show List.drop 4 ('<' :: tail ++ back) = u ++ mid.rest from hparts,
      Text.dropWhile_append_of_forall hspaces, ← hrest]
    exact ⟨rest, rfl⟩
  · exact quiet_of_notMem (fun h => htail (hsuf.subset h)) back v hv List.suffix_rfl b

/-- A character of a token is none that ends one. -/
theorem isIdChar_inner {c : Char} (h : isIdChar c = true) : (!isSpace c && c != '>') = true := by
  have hne : c ≠ '>' := by
    rintro rfl
    exact absurd h (by decide)
  have hspace : isSpace c = false := by
    simp only [isIdChar, Regex.isWordChar, Regex.isAlphaChar, Regex.isLowerChar, Regex.isUpperChar,
      Regex.isDigitChar, Bool.or_eq_true, Bool.and_eq_true, decide_eq_true_eq, beq_iff_eq,
      Char.le_def, UInt32.le_iff_toNat_le] at h
    have hrange : 45 ≤ c.toNat ∧ c.toNat ≤ 122 := by
      rcases h with (((((h | h) | h) | rfl) | rfl) | rfl) | rfl
      · exact ⟨Nat.le_trans (by decide) h.1, h.2⟩
      · exact ⟨Nat.le_trans (by decide) h.1, Nat.le_trans h.2 (by decide)⟩
      · exact ⟨Nat.le_trans (by decide) h.1, Nat.le_trans h.2 (by decide)⟩
      · decide
      · decide
      · decide
      · decide
    unfold isSpace
    simp only [Bool.or_eq_false_iff, Bool.and_eq_false_iff, decide_eq_false_iff_not, beq_eq_false_iff_ne]
    omega
  rw [hspace, bne_iff_ne.mpr hne]
  rfl

/-- What the engine reports at an id comment. -/
theorem head_idMarker (h : IdToken token) (rest : List Char) (b : Option Char) :
    ∃ b' g, Regex.Head idMarkerRe
        ⟨b, "<!-- id: ".toList ++ token ++ " -->".toList ++ rest, []⟩ ⟨b', rest, g⟩ ∧
      g.lookup 1 = some token := by
  obtain ⟨hne, -, hchars⟩ := h
  obtain ⟨x, xs, rfl⟩ := List.exists_cons_of_ne_nil hne
  have hx : (!isSpace x && x != '>') = true := isIdChar_inner (hchars x (List.mem_cons_self ..))
  have hxs : ∀ c ∈ xs, (!isSpace c && c != '>') = true := fun c hc =>
    isIdChar_inner (hchars c (List.mem_cons_of_mem x hc))
  have hblank : ∀ c ∈ [' '], isSpace c = true := List.forall_mem_singleton.mpr (by decide)
  have hstart : isSpace x = false := by
    rw [Bool.and_eq_true, Bool.not_eq_true'] at hx
    exact hx.1
  -- the parts of the pattern, from the end of the comment to its start
  have hclose := fun b g => Regex.head_lit "-->" rest b g
  have hafter := fun b g => (Regex.head_star_cls (v := "-->".toList ++ rest) hblank
    (by intro c hc; obtain rfl : '-' = c := Option.some.inj hc; decide) b g).seq (hclose _ g)
  have htoken := fun b g => (Regex.head_group_plus_cls (v := [' '] ++ ("-->".toList ++ rest)) 1 hx hxs
    (by intro c hc; obtain rfl : ' ' = c := Option.some.inj hc; decide) b g).seq (hafter _ _)
  have hgap := fun b g => (Regex.head_star_cls (v := x :: xs ++ ([' '] ++ ("-->".toList ++ rest))) hblank
    (by intro c hc; obtain rfl : x = c := Option.some.inj hc; exact hstart) b g).seq (htoken _ g)
  have hid := fun b g => (Regex.head_lit "id:" _ b g).seq (hgap _ g)
  have hfirst := fun b g => (Regex.head_star_cls (v := "id:".toList ++ ([' '] ++ (x :: xs ++
      ([' '] ++ ("-->".toList ++ rest))))) hblank
    (by intro c hc; obtain rfl : 'i' = c := Option.some.inj hc; decide) b g).seq (hid _ g)
  have hwhole := (Regex.head_lit "<!--" _ b []).seq (hfirst _ [])
  have htext : "<!-- id: ".toList ++ (x :: xs) ++ " -->".toList ++ rest = "<!--".toList ++ ([' '] ++
      ("id:".toList ++ ([' '] ++ (x :: xs ++ ([' '] ++ ("-->".toList ++ rest)))))) := by simp
  rw [htext]
  exact ⟨_, _, hwhole, by simp⟩

/-- Lines, each behind a newline. -/
def behind (lines : List (List Char)) : List Char := lines.flatMap fun line => newline :: line

theorem joinLines_eq (line : List Char) (lines : List (List Char)) :
    joinLines (line :: lines) = line ++ behind lines := by
  induction lines generalizing line with
  | nil => exact (List.append_nil line).symm
  | cons next lines ih =>
      rw [joinLines, ih]
      rfl

/-- The lines between the two markers. -/
def innerBlock (canary : Bool) (bullets : List Bullet) : List Char :=
  behind (headerLines canary).tail ++ behind (bullets.map Bullet.text) ++ [newline]

theorem renderSection_eq (canary : Bool) (bullets : List Bullet) :
    renderSection canary bullets =
      beginMark ++ (innerBlock canary bullets ++ (endMark ++ [newline])) := by
  have hheader : headerLines canary = beginMark :: (headerLines canary).tail := rfl
  unfold renderSection innerBlock
  rw [hheader, List.cons_append, List.cons_append, joinLines_eq]
  simp [behind]

/-- What begins with no opening delimiter. -/
def Apart (back : List Char) : Prop := back = [] ∨ ∃ c cs, back = c :: cs ∧ c ∉ commentOpen

theorem apart_behind {lines : List (List Char)} (h : Apart back) :
    Apart (behind lines ++ back) := by
  cases lines with
  | nil => exact h
  | cons line lines => exact Or.inr ⟨newline, _, rfl, by decide⟩

variable {ids : List (List Char)}

/-- The id pattern finds the id of a bullet. -/
theorem marked_text (h : bullet.Formed) (hfree : Free bullet.body)
    (hapart : Apart back) (hback : Regex.Marked idMarkerRe 1 back ids) :
    Regex.Marked idMarkerRe 1 (bullet.text ++ back) (bullet.id.toList ++ ids) := by
  have hbody : places commentOpen (bulletOpen ++ bullet.body) = 0 := by
    have hparts : bulletOpen ++ bullet.body = ['-'] ++ ' ' :: bullet.body := rfl
    rw [hparts, places_append_cons (by decide) commentOpen_ne_nil, hfree.1]
    decide
  unfold Bullet.text
  rw [h.marker_eq, List.append_assoc]
  cases hid : bullet.id with
  | none => exact hback.append (quiet_of_places hbody hapart)
  | some token =>
      have hparts : bulletOpen ++ bullet.body ++ (idMarker token ++ back) =
          bulletOpen ++ bullet.body ++ "  ".toList ++
            ("<!-- id: ".toList ++ token ++ " -->".toList ++ back) := by
        unfold idMarker
        simp
      change Regex.Marked idMarkerRe 1 (bulletOpen ++ bullet.body ++ (idMarker token ++ back)) (token :: ids)
      rw [hparts]
      refine .next (.append (quiet_of_places hbody (Or.inr ⟨' ', _, rfl, by decide⟩))
        (quiet_of_notMem (by decide) _)) (by simp) (fun b => ?_) hback
      exact head_idMarker (h.token token hid) _ b

/-- It finds those of the bullets, one after another. -/
theorem marked_bullets (h : ∀ bullet ∈ bullets, bullet.Formed)
    (hfree : ∀ bullet ∈ bullets, Free bullet.body)
    (hapart : Apart back) (hback : Regex.Marked idMarkerRe 1 back ids) :
    Regex.Marked idMarkerRe 1 (behind (bullets.map Bullet.text) ++ back)
      (bullets.filterMap Bullet.id ++ ids) := by
  induction bullets with
  | nil => exact hback
  | cons bullet bullets ih =>
      rw [List.forall_mem_cons] at h hfree
      have hhere := marked_text h.1 hfree.1 (apart_behind hapart) (ih h.2 hfree.2)
      have htext : behind ((bullet :: bullets).map Bullet.text) ++ back =
          [newline] ++ (bullet.text ++ (behind (bullets.map Bullet.text) ++ back)) := by
        simp [behind]
      have hids : (bullet :: bullets).filterMap Bullet.id ++ ids =
          bullet.id.toList ++ (bullets.filterMap Bullet.id ++ ids) := by
        cases hid : bullet.id with
        | none => rw [List.filterMap_cons_none hid]; rfl
        | some token => rw [List.filterMap_cons_some hid]; rfl
      rw [htext, hids]
      exact hhere.append (quiet_of_notMem (by decide) _)

/-- A comment of the bridge's own is no id comment. -/
theorem quiet_own {comment rest : List Char} {c : Char} (h : comment = "<!-- ".toList ++ c :: rest)
    (hspace : isSpace c = false) (hne : c ≠ 'i') (hrest : '<' ∉ c :: rest) (back : List Char) :
    Regex.Quiet idMarkerRe comment back := by
  have hparts : comment = '<' :: ("!-- ".toList ++ c :: rest) := h
  rw [hparts]
  refine quiet_comment ?_ fun hid => ?_
  · rw [List.mem_append, not_or]
    exact ⟨by decide, hrest⟩
  · have hdrop : (('<' :: ("!-- ".toList ++ c :: rest ++ back)).drop 4).dropWhile isSpace =
        c :: (rest ++ back) := by
      change List.dropWhile isSpace (' ' :: c :: (rest ++ back)) = _
      rw [List.dropWhile_cons_of_pos (by decide), List.dropWhile_cons_of_neg (by simp [hspace])]
    rw [hdrop] at hid
    exact hne (List.cons_prefix_cons.mp hid).1.symm

theorem quiet_beginMark (back : List Char) : Regex.Quiet idMarkerRe beginMark back :=
  quiet_own (c := 'r') rfl (by decide) (by decide) (by decide) back

theorem quiet_endMark (back : List Char) : Regex.Quiet idMarkerRe endMark back :=
  quiet_own (c := 'r') rfl (by decide) (by decide) (by decide) back

theorem quiet_untrustedNote (back : List Char) : Regex.Quiet idMarkerRe untrustedNote back :=
  quiet_own (c := 'F') rfl (by decide) (by decide) (by decide) back

/-- The header holds no id comment. -/
theorem quiet_header (canary : Bool) (h : Apart back) :
    Regex.Quiet idMarkerRe (behind (headerLines canary).tail) back := by
  have hparts : behind (headerLines canary).tail = [newline] ++ (untrustedNote ++
      behind (headerLines canary).tail.tail) := rfl
  have hzero : places commentOpen (behind (headerLines canary).tail.tail) = 0 :=
    (headerLines_facts canary).2.1
  have hrest : Regex.Quiet idMarkerRe (behind (headerLines canary).tail.tail) back :=
    quiet_of_places hzero h
  have hnote := (quiet_untrustedNote (behind (headerLines canary).tail.tail ++ back)).append hrest
  have hline : Regex.Quiet idMarkerRe [newline]
      (untrustedNote ++ behind (headerLines canary).tail.tail ++ back) :=
    quiet_of_notMem (by decide) _
  rw [hparts]
  exact hline.append hnote

theorem marked_innerBlock (h : ∀ bullet ∈ bullets, bullet.Formed)
    (hfree : ∀ bullet ∈ bullets, Free bullet.body) (canary : Bool)
    (hback : Regex.Marked idMarkerRe 1 ([newline] ++ back) []) :
    Regex.Marked idMarkerRe 1 (innerBlock canary bullets ++ back) (bullets.filterMap Bullet.id) := by
  have hapart : Apart ([newline] ++ back) := Or.inr ⟨newline, back, rfl, by decide⟩
  have hbullets := marked_bullets h hfree hapart hback
  rw [List.append_nil] at hbullets
  unfold innerBlock
  rw [List.append_assoc, List.append_assoc]
  exact hbullets.append (quiet_header canary (apart_behind hapart))

theorem run_idMarkerRe_nil (b : Option Char) : Regex.run idMarkerRe ⟨b, [], []⟩ = [] := run_lit_nil b

theorem markedIds_eq {text : List Char}
    (h : Regex.Marked idMarkerRe 1 text ids) : markedIds text = ids := by
  have hall := h.all_eq run_idMarkerRe_nil
  have hids : (ids.map some).filterMap id = ids := by simp [List.filterMap_map]
  rw [← hall, List.filterMap_map] at hids
  exact hids

/-- A block of facts without delimiters marks the ids of its bullets. -/
theorem markedIds_block (h : ∀ bullet ∈ bullets, bullet.Formed)
    (hfree : ∀ bullet ∈ bullets, Free bullet.body) (canary : Bool) :
    markedIds (innerBlock canary bullets) = bullets.filterMap Bullet.id ∧
      markedIds (renderSection canary bullets) = bullets.filterMap Bullet.id := by
  constructor
  · have hend : Regex.Marked idMarkerRe 1 ([newline] ++ []) [] := .done (quiet_of_notMem (by decide) _)
    have hinner := marked_innerBlock h hfree canary hend
    rw [List.append_nil] at hinner
    exact markedIds_eq hinner
  · have hend : Regex.Marked idMarkerRe 1 ([newline] ++ (endMark ++ [newline])) [] :=
      (Regex.Marked.append (.done (quiet_of_notMem (by decide) _)) (quiet_endMark _)).append
        (quiet_of_notMem (by decide) _)
    rw [renderSection_eq]
    exact markedIds_eq ((marked_innerBlock h hfree canary hend).append (quiet_beginMark _))

/-- Such a block publishes the id of every bullet. -/
theorem Bullet.Formed.published?_eq (h : bullet.Formed) (hfree : Free bullet.body) :
    bullet.published? = bullet.id := by
  unfold Bullet.published?
  cases hid : bullet.id with
  | none => split <;> rfl
  | some token =>
      have hmarker : bullet.marker = idMarker token := by
        rw [h.marker_eq, hid]
        rfl
      refine if_pos ⟨?_, ?_, ?_⟩
      · rw [hmarker]
        exact List.cons_ne_nil _ _
      · exact (List.suffix_append _ _).isInfix
      · have hmarked := marked_text h hfree (Or.inl rfl) (.done (Regex.quiet_nil _ _))
        rw [List.append_nil, hid] at hmarked
        exact hmarked.matchIn_eq

/-! ### Putting the block in place -/

/-- The text holds no marker of the block. -/
def Unmanaged (text : List Char) : Prop := ¬beginMark <:+: text ∧ ¬endMark <:+: text

instance (text : List Char) : Decidable (Unmanaged text) := inferInstanceAs (Decidable (_ ∧ _))

/-- The text holds one block, between `front` and `back`. -/
structure Managed (text front inner back : List Char) : Prop where
  parts : text = front ++ (beginMark ++ (inner ++ (endMark ++ back)))
  begins : places beginMark text = 1
  ends : places endMark text = 1

variable {text front inner back : List Char}

theorem Managed.infixes (h : Managed text front inner back) :
    beginMark <:+: text ∧ endMark <:+: text := by
  rw [h.parts]
  exact ⟨⟨front, inner ++ (endMark ++ back), by simp⟩, ⟨front ++ (beginMark ++ inner), back, by simp⟩⟩

/-- No marker lies over the edge of a block. -/
theorem IsMark.places_around (h : IsMark mark) (front inner back : List Char) :
    places mark (front ++ (beginMark ++ (inner ++ (endMark ++ back)))) =
      places mark front + (places mark (beginMark ++ (inner ++ endMark)) + places mark back) := by
  have hhead : mark = '<' :: mark.tail := by
    obtain ⟨rest, hrest⟩ := h.front
    rw [← hrest]
    rfl
  have hfront : places ('<' :: mark.tail) (front ++ '<' :: (beginMark.tail ++ (inner ++ (endMark ++ back)))) =
      _ := places_append_head h.once front _
  have hback : places (mark.dropLast ++ ['>'])
      (beginMark ++ (inner ++ endMark.dropLast) ++ ['>'] ++ back) = _ :=
    places_append_last h.last_once _ back
  rw [← hhead] at hfront
  rw [← h.last] at hback
  have hend : endMark = endMark.dropLast ++ ['>'] := rfl
  have hblock : beginMark ++ (inner ++ (endMark ++ back)) =
      beginMark ++ (inner ++ endMark.dropLast) ++ ['>'] ++ back := by
    rw [hend]
    simp
  have hblock' : beginMark ++ (inner ++ endMark) = beginMark ++ (inner ++ endMark.dropLast) ++ ['>'] := by
    rw [hend]
    simp
  rw [hblock', ← hback, ← hblock]
  exact hfront

/-- What is behind the first marker holds the second once. -/
theorem Managed.ends_le (h : Managed text front inner back) :
    places endMark (inner ++ (endMark ++ back)) ≤ 1 := by
  have hparts : text = front ++ '<' :: (beginMark.tail ++ (inner ++ (endMark ++ back))) := h.parts
  have hcount := h.ends
  rw [hparts] at hcount
  have hsplit : places endMark (front ++ '<' :: (beginMark.tail ++ (inner ++ (endMark ++ back)))) =
      places endMark front + places endMark (beginMark ++ (inner ++ (endMark ++ back))) :=
    places_append_head (x := '<') (t := endMark.tail) (by decide) front _
  have hrest : places endMark (beginMark ++ (inner ++ (endMark ++ back))) =
      places endMark beginMark + places endMark (inner ++ (endMark ++ back)) :=
    places_append_last (x := '>') (i := endMark.dropLast) (by decide) beginMark.dropLast _
  omega

theorem Managed.cutFirst_eq (h : Managed text front inner back) :
    cutFirst beginMark text = some (front, inner ++ (endMark ++ back)) := by
  have hone := h.begins.le
  rw [h.parts] at hone ⊢
  exact cutFirst_of_one beginMark_ne_nil hone

/-- The block is replaced, and what is around it is kept. -/
theorem upsertManaged_of_managed (h : Managed text front inner back) (managed : List Char) :
    upsertManaged text managed = front ++ (managed.rdropWhile (· == newline) ++ back) := by
  unfold upsertManaged replaceBlock
  rw [if_pos h.infixes, h.cutFirst_eq]
  dsimp only
  rw [cutFirst_of_one endMark_ne_nil h.ends_le]

/-- A text without a block gets one at its end. -/
theorem upsertManaged_of_unmanaged {text : List Char} (h : Unmanaged text) (managed : List Char) :
    upsertManaged text managed = appendBlock text managed := by
  unfold upsertManaged
  rw [if_neg fun hin => h.1 hin.1, (cutFirst_eq_none beginMark_ne_nil).mpr h.1]

/-- The ids between the markers are read back. -/
theorem readManagedIds_of_managed (h : Managed text front inner back) :
    readManagedIds text = distinct (((markedIds inner).map strip).filter (· ≠ [])) := by
  unfold readManagedIds
  rw [if_pos h.infixes, h.cutFirst_eq]
  dsimp only
  rw [cutLast_of_one endMark_ne_nil h.ends_le]

theorem rdropWhile_renderSection (canary : Bool) (bullets : List Bullet) :
    (renderSection canary bullets).rdropWhile (· == newline) =
      beginMark ++ (innerBlock canary bullets ++ endMark) := by
  have hend : endMark = endMark.dropLast ++ ['>'] := rfl
  rw [renderSection_eq, ← List.append_assoc, ← List.append_assoc, ← List.append_assoc,
    List.rdropWhile_concat_pos _ _ _ (by decide), hend, ← List.append_assoc,
    List.rdropWhile_concat_neg _ _ _ (by decide)]

section
variable {front inner inner' back existing : List Char} {bullets : List Bullet} {canary : Bool}

/-- A block with other lines in it is a block, if these hold no marker. -/
theorem Managed.replace (h : Managed existing front inner back)
    (hbegin : places beginMark (beginMark ++ (inner' ++ endMark)) = 1)
    (hend : places endMark (beginMark ++ (inner' ++ endMark)) = 1) :
    Managed (front ++ (beginMark ++ (inner' ++ (endMark ++ back)))) front inner' back := by
  have hbegins := h.begins
  have hends := h.ends
  rw [h.parts, isMark_beginMark.places_around] at hbegins
  rw [h.parts, isMark_endMark.places_around] at hends
  have hpos : 0 < places beginMark (beginMark ++ (inner ++ endMark)) :=
    places_pos beginMark_ne_nil (List.prefix_append _ _).isInfix
  have hpos' : 0 < places endMark (beginMark ++ (inner ++ endMark)) :=
    places_pos endMark_ne_nil ⟨beginMark ++ inner, [], by simp⟩
  refine ⟨rfl, ?_, ?_⟩
  · rw [isMark_beginMark.places_around, hbegin]
    omega
  · rw [isMark_endMark.places_around, hend]
    omega

/-- A block behind text without markers is a block. -/
theorem managed_of_unmanaged {base : List Char} (h : places beginMark base = 0)
    (h' : places endMark base = 0) (hbegin : places beginMark (beginMark ++ (inner' ++ endMark)) = 1)
    (hend : places endMark (beginMark ++ (inner' ++ endMark)) = 1) :
    Managed (base ++ (beginMark ++ (inner' ++ (endMark ++ [newline])))) base inner' [newline] := by
  refine ⟨rfl, ?_, ?_⟩
  · rw [isMark_beginMark.places_around, h, hbegin]
    rfl
  · rw [isMark_endMark.places_around, h', hend]
    rfl

/-- Where the block of the section stands after it is put in place. -/
theorem exists_managed_upsert (canary : Bool) (hexisting : Unmanaged existing ∨ ∃ front inner back,
      Managed existing front inner back)
    (h : ∀ bullet ∈ bullets, bullet.Formed) (hfree : ∀ bullet ∈ bullets, Free bullet.body) :
    ∃ front back, Managed (upsertManaged existing (renderSection canary bullets)) front
        (innerBlock canary bullets) back ∧
      (∀ front' inner' back', Managed existing front' inner' back' → front = front' ∧ back = back') ∧
      (Unmanaged existing → rstrip existing <+: front ∧ back = [newline]) := by
  obtain ⟨hbegin, hend⟩ := places_marks h hfree canary
  have haround : ∀ mark, IsMark mark → places mark (renderSection canary bullets) =
      places mark (beginMark ++ (innerBlock canary bullets ++ endMark)) := by
    intro mark hmark
    have hcount := hmark.places_around [] (innerBlock canary bullets) [newline]
    rw [List.nil_append, ← renderSection_eq] at hcount
    have hline : places mark [newline] = 0 := by
      obtain ⟨rest, hrest⟩ := hmark.front
      refine places_eq_zero_of_notMem (x := '<') ?_ (by decide)
      rw [← hrest]
      exact List.mem_cons_self ..
    rw [hcount, hline, show places mark [] = 0 from rfl, Nat.zero_add, Nat.add_zero]
  rw [haround _ isMark_beginMark] at hbegin
  rw [haround _ isMark_endMark] at hend
  rcases hexisting with hexisting | ⟨front, inner, back, hexisting⟩
  · have hbase : ∀ base, places beginMark base = 0 → places endMark base = 0 →
        rstrip existing <+: base ++ "\n\n".toList →
        upsertManaged existing (renderSection canary bullets) =
          base ++ "\n\n".toList ++ renderSection canary bullets →
        ∃ front back, Managed (upsertManaged existing (renderSection canary bullets)) front
            (innerBlock canary bullets) back ∧
          (∀ front' inner' back', Managed existing front' inner' back' → front = front' ∧ back = back') ∧
          (Unmanaged existing → rstrip existing <+: front ∧ back = [newline]) := by
      intro base hzero hzero' hpre hresult
      refine ⟨base ++ "\n\n".toList, [newline], ?_, ?_, fun _ => ⟨hpre, rfl⟩⟩
      · rw [hresult, renderSection_eq]
        refine managed_of_unmanaged ?_ ?_ hbegin hend
        · have hline : newline ∉ beginMark := by decide
          exact (places_append_cons hline beginMark_ne_nil _ ['\n']).trans (by rw [hzero]; decide)
        · have hline : newline ∉ endMark := by decide
          exact (places_append_cons hline endMark_ne_nil _ ['\n']).trans (by rw [hzero']; decide)
      · exact fun front' inner' back' h' => absurd h'.infixes.1 hexisting.1
    have hupsert := upsertManaged_of_unmanaged hexisting (renderSection canary bullets)
    unfold appendBlock at hupsert
    dsimp only at hupsert
    have hfront : rstrip existing <+: existing := List.rdropWhile_prefix _ _
    split at hupsert
    · next hnil =>
        refine hbase "# Memory".toList (by decide) (by decide) ?_ hupsert
        rw [hnil]
        exact List.nil_prefix
    · refine hbase (rstrip existing) ?_ ?_ (List.prefix_append _ _) hupsert
      · exact (places_eq_zero beginMark_ne_nil).mpr fun hin => hexisting.1 (hin.trans hfront.isInfix)
      · exact (places_eq_zero endMark_ne_nil).mpr fun hin => hexisting.2 (hin.trans hfront.isInfix)
  · refine ⟨front, back, ?_, ?_, ?_⟩
    · rw [upsertManaged_of_managed hexisting, rdropWhile_renderSection]
      have hreplaced := hexisting.replace hbegin hend
      rwa [List.append_assoc beginMark, List.append_assoc (innerBlock canary bullets)]
    · intro front' inner' back' h'
      have hcut := h'.cutFirst_eq
      rw [hexisting.cutFirst_eq] at hcut
      obtain ⟨rfl, hrest⟩ := Prod.mk.inj (Option.some.inj hcut)
      exact ⟨rfl, (cut_unique endMark_ne_nil hexisting.ends_le rfl hrest).2⟩
    · exact fun hno => absurd hexisting.infixes.1 hno.1

end

/-! ### Room -/

/-- `len(text.encode("utf-8"))`. -/
def utf8Length (cs : List Char) : Nat := (cs.map Char.utf8Size).sum

def bytesBy (lines : List (List Char)) : Nat := (lines.map fun line => utf8Length line + 1).sum

theorem utf8Length_append (cs ds : List Char) : utf8Length (cs ++ ds) = utf8Length cs + utf8Length ds := by
  unfold utf8Length
  rw [List.map_append, List.sum_append]

theorem utf8Length_joinLines {lines : List (List Char)} (hne : lines ≠ []) :
    utf8Length (joinLines lines ++ [newline]) = bytesBy lines := by
  induction lines with
  | nil => exact absurd rfl hne
  | cons line lines ih =>
      by_cases hlines : lines = []
      · rw [hlines, joinLines, utf8Length_append]
        rfl
      · have hbytes : bytesBy (line :: lines) = utf8Length line + 1 + bytesBy lines := rfl
        rw [joinLines_cons hlines, List.append_assoc, utf8Length_append, hbytes, ← ih hlines,
          Nat.add_assoc]
        rfl

theorem bytesBy_append (lines lines' : List (List Char)) :
    bytesBy (lines ++ lines') = bytesBy lines + bytesBy lines' := by
  unfold bytesBy
  rw [List.map_append, List.sum_append]

theorem utf8Length_renderSection (canary : Bool) (bullets : List Bullet) :
    utf8Length (renderSection canary bullets) =
      bytesBy (headerLines canary ++ bullets.map Bullet.text ++ [endMark]) :=
  utf8Length_joinLines (by simp)

/-- The bullets written are the longest front of the bullets that has room. -/
theorem prefix_writeBullets_iff {used : Nat} {front bullets : List Bullet}
    (hused : used ≤ maxManagedBytes) :
    front <+: writeBullets used bullets ↔
      front <+: bullets ∧ used + usedBy (front.map Bullet.text) ≤ maxManagedBytes := by
  induction bullets generalizing used front with
  | nil =>
      rw [writeBullets, List.prefix_nil]
      constructor
      · rintro rfl
        exact ⟨rfl, hused⟩
      · exact And.left
  | cons bullet bullets ih =>
      cases front with
      | nil => exact ⟨fun _ => ⟨List.nil_prefix, hused⟩, fun _ => List.nil_prefix⟩
      | cons first front =>
          have hsum : used + usedBy ((first :: front).map Bullet.text) =
              used + (first.text.length + 1) + usedBy (front.map Bullet.text) :=
            (Nat.add_assoc _ _ _).symm
          rw [hsum, writeBullets]
          split
          · next hlong =>
              constructor
              · exact fun h => absurd (List.prefix_nil.mp h) (List.cons_ne_nil first front)
              · rintro ⟨hpre, hroom⟩
                obtain ⟨rfl, -⟩ := List.cons_prefix_cons.mp hpre
                omega
          · next hfits =>
              rw [List.cons_prefix_cons, List.cons_prefix_cons]
              constructor
              · rintro ⟨rfl, hpre⟩
                obtain ⟨hpre, hroom⟩ := (ih (by omega)).mp hpre
                exact ⟨⟨rfl, hpre⟩, hroom⟩
              · rintro ⟨⟨rfl, hpre⟩, hroom⟩
                exact ⟨rfl, (ih (by omega)).mpr ⟨hpre, hroom⟩⟩

theorem usedBy_headerLines (canary : Bool) : usedBy (headerLines canary) ≤ maxManagedBytes :=
  (headerLines_facts canary).2.2.1

/-! ### The sealed block -/

/-- What the claim asks of a managed block put into a text: `managed` is the block, `published` are
its ids, `result` is the text after it. -/
structure Sealed (existing managed result : List Char) (published : List (List Char)) : Prop where
  /-- The text around a block stays as it is. -/
  around : ∀ front inner back, Managed existing front inner back →
    ∃ inner', Managed result front inner' back
  /-- The text of a file without one stays, up to white space at its end. -/
  kept : Unmanaged existing → ∃ front inner back, Managed result front inner back ∧
    rstrip existing <+: front ∧ ∀ c ∈ back, isSpace c = true
  begins : places beginMark result = 1
  ends : places endMark result = 1
  /-- The comments of the block are three of its own and one for each published id. -/
  opens : places commentOpen managed = 3 + published.length
  closes : places commentClose managed = 3 + published.length
  ids : readManagedIds result = distinct published
  bytes : utf8Length managed ≤ maxManagedBytes
  bullets : ∀ line ∈ lines managed, bulletOpen <+: line → line.length ≤ maxBulletChars
  again : upsertManaged result managed = result

/-- One pass of the sanitizer is enough for every fact that has room, and what has room as
characters has room as bytes, with the closing marker. -/
structure RoomAndOnePass (pyStr : Value → List Char) (facts : List Value) (canary : Bool) : Prop where
  onePass : ∀ front, front <+: bulletsOf pyStr facts →
    usedBy (headerLines canary) + usedBy (front.map Bullet.text) ≤ maxManagedBytes →
    ∀ bullet ∈ front, sanitizeFactText bullet.body = bullet.body
  room : ∀ front, front <+: bulletsOf pyStr facts →
    usedBy (headerLines canary) + usedBy (front.map Bullet.text) ≤ maxManagedBytes →
    bytesBy (headerLines canary ++ front.map Bullet.text ++ [endMark]) ≤ maxManagedBytes

section
variable {pyStr : Value → List Char} {facts : List Value} {canary : Bool}

theorem formed_of_mem_bulletsOf (h : bullet ∈ bulletsOf pyStr facts) :
    bullet.Formed := by
  obtain ⟨fact, -, hfact⟩ := List.mem_filterMap.mp h
  exact formed_of_bulletOf hfact

theorem writtenBullets_front :
    writtenBullets pyStr facts canary <+: bulletsOf pyStr facts ∧
      usedBy (headerLines canary) + usedBy ((writtenBullets pyStr facts canary).map Bullet.text) ≤
        maxManagedBytes :=
  (prefix_writeBullets_iff (usedBy_headerLines canary)).mp List.prefix_rfl

theorem formed_of_mem_writtenBullets :
    ∀ bullet ∈ writtenBullets pyStr facts canary, bullet.Formed := fun _ h =>
  formed_of_mem_bulletsOf (writtenBullets_front.1.subset h)

/-- The condition is one on the bullets that are written. -/
theorem roomAndOnePass_iff :
    RoomAndOnePass pyStr facts canary ↔
      (∀ bullet ∈ writtenBullets pyStr facts canary, Free bullet.body) ∧
        utf8Length (renderSection canary (writtenBullets pyStr facts canary)) ≤ maxManagedBytes := by
  obtain ⟨hpre, hroom⟩ : writtenBullets pyStr facts canary <+: bulletsOf pyStr facts ∧ _ :=
    writtenBullets_front
  constructor
  · intro h
    refine ⟨fun bullet hmem => ?_, ?_⟩
    · exact free_of_sanitize_eq_self (h.onePass _ hpre hroom bullet hmem)
    · rw [utf8Length_renderSection]
      exact h.room _ hpre hroom
  · rintro ⟨hfree, hbytes⟩
    have hwritten : ∀ front, front <+: bulletsOf pyStr facts →
        usedBy (headerLines canary) + usedBy (front.map Bullet.text) ≤ maxManagedBytes →
        front <+: writtenBullets pyStr facts canary := fun front hfront hused =>
      (prefix_writeBullets_iff (usedBy_headerLines canary)).mpr ⟨hfront, hused⟩
    constructor
    · intro front hfront hused bullet hmem
      have hmem := (hwritten front hfront hused).subset hmem
      exact (formed_of_mem_writtenBullets bullet hmem).tidy.sanitize_of_free (hfree bullet hmem)
    · intro front hfront hused
      obtain ⟨rest, hrest⟩ := hwritten front hfront hused
      rw [utf8Length_renderSection, ← hrest] at hbytes
      rw [List.map_append] at hbytes
      simp only [bytesBy_append] at hbytes ⊢
      omega

theorem length_published_le (bullets : List Bullet) (p : List Char → Bool) :
    ((bullets.filterMap Bullet.published?).filter p).length ≤ (bullets.map Bullet.marks).sum := by
  refine (List.length_filter_le _ _).trans ?_
  induction bullets with
  | nil => exact le_rfl
  | cons bullet bullets ih =>
      rw [List.map_cons, List.sum_cons]
      cases hpublished : bullet.published? with
      | none =>
          rw [List.filterMap_cons_none hpublished]
          exact ih.trans (Nat.le_add_left _ _)
      | some id =>
          have hid : bullet.id = some id := by
            unfold Bullet.published? at hpublished
            split at hpublished
            · exact hpublished
            · cases hpublished
          have hmarks : bullet.marks = 1 := by
            unfold Bullet.marks
            rw [hid]
            rfl
          rw [List.filterMap_cons_some hpublished, List.length_cons, hmarks, Nat.add_comm]
          exact Nat.add_le_add_left ih 1

theorem sum_marks_eq (bullets : List Bullet) :
    (bullets.map Bullet.marks).sum = (bullets.filterMap Bullet.id).length := by
  induction bullets with
  | nil => rfl
  | cons bullet bullets ih =>
      rw [List.map_cons, List.sum_cons, ih]
      unfold Bullet.marks
      cases hid : bullet.id with
      | none =>
          rw [List.filterMap_cons_none hid]
          exact Nat.zero_add _
      | some id =>
          rw [List.filterMap_cons_some hid, List.length_cons]
          exact Nat.add_comm _ _

/-- A token that is published is read back as it is. -/
theorem IdToken.strip_eq (h : IdToken token) : strip token = token := by
  have hspace : ∀ c ∈ token, isSpace c = false := by
    intro c hc
    have hinner := isIdChar_inner (h.2.2 c hc)
    rw [Bool.and_eq_true, Bool.not_eq_true'] at hinner
    exact hinner.1
  exact Text.trimWith_of_ends (fun c hc => hspace c (List.mem_of_mem_head? hc)) fun c hc =>
    hspace c (List.mem_of_getLast? hc)

theorem published_eq (h : ∀ bullet ∈ bullets, bullet.Formed)
    (hfree : ∀ bullet ∈ bullets, Free bullet.body) (canary : Bool) :
    ((bullets.filterMap Bullet.published?).filter fun id =>
      decide (id ∈ markedIds (renderSection canary bullets))) = bullets.filterMap Bullet.id := by
  have hsame : bullets.filterMap Bullet.published? = bullets.filterMap Bullet.id :=
    List.filterMap_congr fun bullet hmem => (h bullet hmem).published?_eq (hfree bullet hmem)
  rw [(markedIds_block h hfree canary).2, hsame]
  exact List.filter_eq_self.mpr fun id hid => decide_eq_true hid

/-- The lines of a block. -/
theorem lines_renderSection (h : ∀ bullet ∈ bullets, bullet.Formed) (canary : Bool) :
    lines (renderSection canary bullets) =
      headerLines canary ++ bullets.map Bullet.text ++ [endMark] ++ [[]] := by
  have hline : ∀ line ∈ headerLines canary ++ bullets.map Bullet.text ++ [endMark] ++ [[]],
      newline ∉ line := by
    intro line hmem
    rw [List.mem_append, List.mem_append, List.mem_append] at hmem
    rcases hmem with ((hmem | hmem) | hmem) | hmem
    · exact ((headerLines_facts canary).2.2.2 line hmem).1
    · obtain ⟨bullet, hbullet, rfl⟩ := List.mem_map.mp hmem
      obtain ⟨htidy, htoken, hmarker, -⟩ := h bullet hbullet
      unfold Bullet.text
      rw [hmarker, List.mem_append, List.mem_append, not_or, not_or]
      refine ⟨⟨by decide, fun hnew => Bool.false_ne_true ((htidy.line newline hnew).symm.trans rfl)⟩, ?_⟩
      cases hid : bullet.id with
      | none => exact List.not_mem_nil
      | some token =>
          change newline ∉ idMarker token
          unfold idMarker
          rw [List.mem_append, List.mem_append, not_or, not_or]
          exact ⟨⟨by decide, (htoken token hid).notMem (by decide)⟩, by decide⟩
    · rw [List.mem_singleton.mp hmem]
      decide
    · rw [List.mem_singleton.mp hmem]
      decide
  have hjoin : renderSection canary bullets =
      joinLines (headerLines canary ++ bullets.map Bullet.text ++ [endMark] ++ [[]]) := by
    rw [joinLines_append (by simp) (List.cons_ne_nil _ _)]
    rfl
  rw [hjoin, lines_joinLines (by simp) hline]

end

end Runir.Bridge
