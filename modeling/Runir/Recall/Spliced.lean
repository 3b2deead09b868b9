import Runir.Recall.Excerpts
import Runir.Recall.Sealed

/-!
# Recall — What the splice does

* `expand_eq_self_iff`: a replacement stands for itself where it holds no pattern.
* `Chosen`: what the excerpts chosen keep to; `chosen_foldl` carries it along the selected facts.
* `excerpts_inserted_iff`: when the excerpts are put in as they are, and inside the budget.
-/

namespace Runir.Recall
open Scan

/-! ### Replacements -/

/-- A `$` stands before a character that makes it a pattern. -/
def holdsPattern : List Char → Bool
  | [] => false
  | [_] => false
  | c :: d :: cs =>
      (decide (c = '$') && (substitution [] [] [] d).isSome) || holdsPattern (d :: cs)

section
variable {matched before after : List Char}

theorem isSome_substitution (d : Char) :
    (substitution matched before after d).isSome = (substitution [] [] [] d).isSome := by
  unfold substitution
  split_ifs <;> rfl

theorem expand_of_not_holds {text : List Char} (h : holdsPattern text = false) :
    expand matched before after text = text := by
  induction text with
  | nil => rfl
  | cons c text ih =>
      cases text with
      | nil => rfl
      | cons d cs =>
          rw [holdsPattern, Bool.or_eq_false_iff, Bool.and_eq_false_iff] at h
          rw [expand]
          split
          · next hc =>
              have hnone : substitution matched before after d = none := by
                rw [← Option.not_isSome_iff_eq_none, isSome_substitution]
                rcases h.1 with h | h
                · exact absurd hc (of_decide_eq_false h)
                · rw [h]
                  decide
              simp only [hnone]
              rw [ih h.2]
          · rw [ih h.2]

/-- A newline is no part of a pattern. -/
theorem expand_append_newline (text rest : List Char) :
    expand matched before after (text ++ newline :: rest) =
      expand matched before after text ++ newline :: expand matched before after rest := by
  have hline : ∀ rest : List Char, expand matched before after (newline :: rest) =
      newline :: expand matched before after rest := by
    intro rest
    cases rest with
    | nil => rfl
    | cons d cs => rw [expand, if_neg (by decide)]
  induction hn : text.length using Nat.strong_induction_on generalizing text with
  | _ n ih =>
      match text with
      | [] => exact hline rest
      | [c] =>
          have hnone : substitution matched before after newline = none := rfl
          rw [List.singleton_append, expand, expand]
          by_cases hc : c = '$'
          · rw [if_pos hc]
            simp only [hnone]
            rw [hline]
            rfl
          · rw [if_neg hc, hline]
            rfl
      | c :: d :: cs =>
          simp only [List.length_cons] at hn
          have hlong := ih (d :: cs).length (by simp only [List.length_cons]; omega) (d :: cs) rfl
          have hshort := ih cs.length (by omega) cs rfl
          rw [List.cons_append] at hlong
          rw [List.cons_append, List.cons_append, expand, expand]
          split
          · split
            · rw [hshort, List.append_assoc]
            · rw [hlong, List.cons_append]
          · rw [hlong, List.cons_append]

variable (hmatched : matched.head? = some newline) (hbefore : before.head? = some '<')
  (hafter : after.head? = some newline)

include hmatched hbefore hafter in
/-- What a pattern stands for begins with no `$`, two of them apart. -/
theorem substitution_head {d : Char} {text : List Char}
    (h : substitution matched before after d = some text) :
    d = '$' ∧ text = ['$'] ∨ ∃ c, text.head? = some c ∧ c ≠ '$' := by
  unfold substitution at h
  split at h
  · next hd =>
      cases h
      exact Or.inl ⟨hd, rfl⟩
  split at h
  · cases h
    exact Or.inr ⟨newline, hmatched, by decide⟩
  split at h
  · cases h
    exact Or.inr ⟨'<', hbefore, by decide⟩
  split at h
  · cases h
    exact Or.inr ⟨newline, hafter, by decide⟩
  · cases h

include hmatched hbefore hafter in
/-- Expanding puts no `$` in front. -/
theorem expand_ne_dollars (text : List Char) (k : Nat) :
    expand matched before after text ≠ List.replicate (k + 1) '$' ++ text := by
  induction hn : text.length using Nat.strong_induction_on generalizing text k with
  | _ n ih =>
      match text with
      | [] =>
          intro h
          cases h
      | [c] =>
          intro h
          have hlength := congrArg List.length h
          simp [expand] at hlength
      | c :: d :: cs =>
          simp only [List.length_cons] at hn
          intro h
          rw [expand, List.replicate_succ, List.cons_append] at h
          split at h
          · next hc =>
              split at h
              · next put hput =>
                  rcases substitution_head hmatched hbefore hafter hput with
                    ⟨rfl, rfl⟩ | ⟨c', hc', hne⟩
                  · -- two of them become one
                    have htail : expand matched before after cs =
                        List.replicate k '$' ++ c :: '$' :: cs := (List.cons.inj h).2
                    refine ih cs.length (by omega) cs (k + 1) rfl ?_
                    rw [htail, hc, List.replicate_succ', List.replicate_succ', List.append_assoc,
                      List.append_assoc]
                    rfl
                  · obtain ⟨rest, rfl⟩ : ∃ rest, put = c' :: rest :=
                      ⟨_, List.eq_cons_of_mem_head? hc'⟩
                    exact hne (List.cons.inj h).1
              · have htail := (List.cons.inj h).2
                refine ih (d :: cs).length (by simp only [List.length_cons]; omega) (d :: cs) k rfl ?_
                rw [htail, hc, List.replicate_succ', List.append_assoc]
                rfl
          · next hc => exact hc (List.cons.inj h).1

include hmatched hbefore hafter in
/-- **A replacement stands for itself** exactly where it holds no pattern. -/
theorem expand_eq_self_iff (text : List Char) :
    expand matched before after text = text ↔ holdsPattern text = false := by
  refine ⟨fun h => ?_, expand_of_not_holds⟩
  induction text with
  | nil => rfl
  | cons c text ih =>
      cases text with
      | nil => rfl
      | cons d cs =>
          rw [expand] at h
          rw [holdsPattern, Bool.or_eq_false_iff, Bool.and_eq_false_iff]
          split at h
          · next hc =>
              split at h
              · next put hput =>
                  exfalso
                  rcases substitution_head hmatched hbefore hafter hput with
                    ⟨rfl, rfl⟩ | ⟨c', hc', hne⟩
                  · refine expand_ne_dollars hmatched hbefore hafter cs 0 ?_
                    exact (List.cons.inj h).2
                  · obtain ⟨rest, rfl⟩ : ∃ rest, put = c' :: rest :=
                      ⟨_, List.eq_cons_of_mem_head? hc'⟩
                    exact hne ((List.cons.inj h).1.trans hc)
              · next hnone =>
                  refine ⟨Or.inr ?_, ih (List.cons.inj h).2⟩
                  rw [← isSome_substitution, hnone]
                  rfl
          · next hc => exact ⟨Or.inl (decide_eq_false hc), ih (List.cons.inj h).2⟩

end

/-! ### The first place -/

theorem splitAt_eq {needle text before after : List Char}
    (h : splitAt? needle text = some (before, after)) : text = before ++ (needle ++ after) := by
  induction text generalizing before with
  | nil =>
      rw [splitAt?] at h
      split at h
      · next hnil =>
          cases h
          rw [hnil]
          rfl
      · cases h
  | cons c cs ih =>
      rw [splitAt?] at h
      split at h
      · next hpre =>
          cases h
          rw [List.nil_append]
          exact (List.prefix_iff_eq_append.mp hpre).symm
      · obtain ⟨⟨b, a⟩, hr, hpair⟩ := Option.map_eq_some_iff.mp h
        cases hpair
        rw [List.cons_append, ← ih hr]

variable {needle : List Char}

theorem places_pos (hne : needle ≠ []) (before after : List Char) :
    0 < places needle (before ++ (needle ++ after)) := by
  rw [Nat.pos_iff_ne_zero, Ne, places_eq_zero hne, not_not]
  exact ⟨before, after, List.append_assoc ..⟩

/-- The first place is the last one exactly where there is no other. -/
theorem splitAt_eq_iff (hne : needle ≠ []) (before after : List Char)
    (hafter : places needle (needle ++ after) = 1) :
    splitAt? needle (before ++ (needle ++ after)) = some (before, after) ↔
      places needle (before ++ (needle ++ after)) = 1 := by
  obtain ⟨x, tail, rfl⟩ := List.exists_cons_of_ne_nil hne
  induction before with
  | nil =>
      rw [List.nil_append]
      refine iff_of_true ?_ hafter
      have hpre : x :: tail <+: x :: (tail ++ after) := ⟨after, rfl⟩
      rw [List.cons_append, splitAt?, if_pos hpre, ← List.cons_append, List.drop_left]
  | cons c before ih =>
      have hpos := places_pos hne before after
      rw [List.cons_append, splitAt?, places]
      by_cases hpre : x :: tail <+: c :: (before ++ (x :: tail ++ after))
      · rw [if_pos hpre, if_pos hpre]
        refine iff_of_false (fun h => ?_) (by omega)
        cases h
      · rw [if_neg hpre, if_neg hpre, Nat.zero_add, ← ih]
        constructor
        · intro h
          obtain ⟨⟨b, a⟩, hr, hpair⟩ := Option.map_eq_some_iff.mp h
          cases hpair
          exact hr
        · intro h
          rw [h]
          rfl

theorem exists_splitAt (before after : List Char) :
    ∃ b a, splitAt? needle (before ++ (needle ++ after)) = some (b, a) ∧ b.length ≤ before.length := by
  induction before with
  | nil =>
      cases needle with
      | nil =>
          cases after with
          | nil => exact ⟨[], [], rfl, le_rfl⟩
          | cons c after => exact ⟨[], c :: after, by simp [splitAt?], le_rfl⟩
      | cons x tail =>
          have hpre : x :: tail <+: x :: (tail ++ after) := ⟨after, rfl⟩
          exact ⟨[], _, by rw [List.nil_append, List.cons_append, splitAt?, if_pos hpre], le_rfl⟩
  | cons c before ih =>
      rw [List.cons_append, splitAt?]
      split
      · exact ⟨[], _, rfl, Nat.zero_le _⟩
      · obtain ⟨b, a, hr, hle⟩ := ih
        exact ⟨c :: b, a, by rw [hr]; rfl, Nat.succ_le_succ hle⟩

/-! ### What is chosen -/

theorem withoutLastWord_front (raw : List Char) : withoutLastWord raw <+: raw := by
  unfold withoutLastWord
  dsimp only
  split
  · next hrest =>
      rw [← List.reverse_suffix, List.reverse_reverse]
      have hdrop := List.dropWhile_suffix (l := raw.reverse) fun c => !Text.isSpace c
      rw [hrest] at hdrop
      exact (List.dropWhile_suffix _).trans hdrop
  · exact List.nil_prefix

theorem slice_inside (text : List Char) (start stop : Nat) : slice text start stop <:+: text :=
  have hfront := List.take_prefix (stop - start) (text.drop start)
  hfront.isInfix.trans (List.drop_suffix _ _).isInfix

theorem excerptWindow_inside (host : Host) (source : List Char) (factText : String)
    (maxTokens : Nat) : (excerptWindow host source factText maxTokens).1 <:+: source := by
  unfold excerptWindow
  dsimp only
  split
  · exact List.nil_infix
  · split
    · exact List.nil_infix
    · exact slice_inside ..

/-- An excerpt is short, and the neutralized form of a piece of a selected fact's source. -/
structure AnnotateArgs.Quotes (args : AnnotateArgs) (excerpt : SourceExcerpt) : Prop where
  short : approximateTokens excerpt.text ≤ 120
  piece : ∃ hit ∈ args.selected, ∃ source, args.sources (AnnotateArgs.factId hit) = some source ∧
    ∃ raw, raw <:+: source.text ∧ excerpt.text = neutralize raw args.nonce

/-- What the excerpts chosen keep to. -/
structure AnnotateArgs.Chosen (args : AnnotateArgs) (excerpts : List SourceExcerpt) : Prop where
  count : excerpts.length ≤ 3
  room : excerpts ≠ [] → approximateTokens (renderSourceExcerpts excerpts args.nonce) ≤ args.room
  quotes : ∀ excerpt ∈ excerpts, args.Quotes excerpt

variable {excerpts : List SourceExcerpt}

namespace AnnotateArgs
variable {args : AnnotateArgs}

/-- What shrinking a window ends with fits, and says a front of it. -/
theorem shrink_spec {source : VerifiedSource}
    {window : List Char × Bool} {fuel : Nat} {raw : List Char} {excerpt : SourceExcerpt}
    (h : args.shrink excerpts source window fuel raw = some excerpt) :
    args.fits excerpts excerpt = true ∧
      ∃ raw', raw' <+: raw ∧ excerpt.text = neutralize raw' args.nonce := by
  induction fuel generalizing raw with
  | zero => cases h
  | succ fuel ih =>
      rw [shrink] at h
      split at h
      · cases h
      · dsimp only at h
        split at h
        · next hfits =>
            cases h
            exact ⟨hfits, raw, List.prefix_rfl, rfl⟩
        · obtain ⟨hfits, raw', hpre, htext⟩ := ih h
          exact ⟨hfits, raw', hpre.trans (withoutLastWord_front raw), htext⟩

theorem chosen_addExcerpt (host : Host) (h : args.Chosen excerpts)
    {hit : SearchHit} (hhit : hit ∈ args.selected) :
    args.Chosen (args.addExcerpt host excerpts hit) := by
  unfold addExcerpt
  split
  · exact h
  · next hroom =>
      rw [not_or, Nat.not_le] at hroom
      split
      · exact h
      · next source hsource =>
          dsimp only
          split
          · exact h
          · next excerpt hshrink =>
              obtain ⟨hfits, raw, hpre, htext⟩ := shrink_spec hshrink
              rw [fits, Bool.and_eq_true, decide_eq_true_iff, decide_eq_true_iff] at hfits
              have hpiece : raw <:+: source.text :=
                hpre.isInfix.trans (excerptWindow_inside host source.text hit.text 120)
              refine ⟨?_, fun _ => hfits.2, ?_⟩
              · rw [List.length_append, List.length_singleton]
                exact hroom.1
              · intro e he
                rcases List.mem_append.mp he with he | he
                · exact h.quotes e he
                · rw [List.mem_singleton.mp he]
                  exact ⟨hfits.1, hit, hhit, source, hsource, raw, hpiece, htext⟩

theorem chosen_foldl (host : Host) {hits : List SearchHit} (hhits : ∀ hit ∈ hits, hit ∈ args.selected)
    (h : args.Chosen excerpts) :
    args.Chosen (hits.foldl (args.addExcerpt host) excerpts) := by
  induction hits generalizing excerpts with
  | nil => exact h
  | cons hit hits ih =>
      rw [List.forall_mem_cons] at hhits
      exact ih hhits.2 (chosen_addExcerpt host h hhits.1)

theorem chosen_nil : args.Chosen [] := ⟨Nat.zero_le 3, fun h => absurd rfl h, by simp⟩

theorem chosen_annotate (host : Host) (args : AnnotateArgs) :
    args.Chosen (args.annotate host).1 ∧
      (args.annotate host).2 = renderSourceExcerpts (args.annotate host).1 args.nonce := by
  unfold annotate
  split
  · refine ⟨?_, rfl⟩
    unfold chosen
    split
    · exact chosen_nil
    · exact chosen_foldl host (fun _ h => h) chosen_nil
  · exact ⟨chosen_nil, rfl⟩

end AnnotateArgs

/-! ### Where the block goes -/

/-- How an injection ends. -/
def envelopeEnd : List Char := endLine ++ newline :: closeTag

theorem exists_envelopeEnd {renderedLines : List (List Char)} {fact : List Char}
    (h : formatRecallInjectionFromRendered renderedLines = some fact) :
    ∃ front, fact = front ++ envelopeEnd ∧ front.head? = some '<' := by
  unfold formatRecallInjectionFromRendered at h
  dsimp only at h
  split at h
  · cases h
  · cases h
    generalize memoriesHeader :: _ = body
    refine ⟨joinLines (openTag :: untrustedHeader :: body), ?_, rfl⟩
    rw [envelope_eq, ← List.cons_append, ← List.cons_append, joinLines_append (by simp) (by simp)]
    rfl

theorem render_head {nonce : List Char} (hne : excerpts ≠ []) :
    ∃ rest, renderSourceExcerpts excerpts nonce = '<' :: rest := by
  refine ⟨(renderSourceExcerpts excerpts nonce).tail, ?_⟩
  rw [renderSourceExcerpts, if_neg hne]
  rfl

/-- The block stands, as it is, just before the last end marker. -/
structure Inserted (fact block context : List Char) : Prop where
  nothing : block = [] → context = fact
  something : block ≠ [] →
    ∃ front, fact = front ++ envelopeEnd ∧ context = front ++ newline :: (block ++ envelopeEnd)

theorem endLine_ne_nil : endLine ≠ [] := List.cons_ne_nil _ _

theorem expand_block (matched before after block : List Char) :
    expand matched before after (newline :: (block ++ endLine)) =
      newline :: (expand matched before after block ++ endLine) := by
  have hfront : expand matched before after ([] ++ newline :: (block ++ endLine)) = _ :=
    expand_append_newline [] (block ++ endLine)
  have hback : expand matched before after (block ++ newline :: endMarker) = _ :=
    expand_append_newline block endMarker
  have hmarker : expand matched before after endMarker = endMarker :=
    expand_of_not_holds (by decide)
  rw [hmarker] at hback
  exact hfront.trans (congrArg (newline :: ·) hback)

theorem exists_expand_cons {matched before after : List Char} {c : Char} (hc : c ≠ '$')
    (text : List Char) : ∃ rest, expand matched before after (c :: text) = c :: rest := by
  cases text with
  | nil => exact ⟨[], rfl⟩
  | cons d cs => exact ⟨_, by rw [expand, if_neg hc]⟩

/-- **The block goes in as it is** where the facts show no end marker of their own and the block
holds no pattern. -/
theorem inserted_iff {front block : List Char} (hhead : ∃ rest, block = '<' :: rest)
    (hfront : front.head? = some '<') :
    Inserted (front ++ envelopeEnd) block (spliceExcerpts (front ++ envelopeEnd) block) ↔
      places endLine (front ++ envelopeEnd) = 1 ∧ holdsPattern block = false := by
  obtain ⟨rest, hblock⟩ := hhead
  have hne : block ≠ [] := by
    rw [hblock]
    exact List.cons_ne_nil _ _
  rw [spliceExcerpts, if_neg hne, replaceText]
  obtain ⟨b, a, hsplit, hle⟩ : ∃ b a,
      splitAt? endLine (front ++ (endLine ++ newline :: closeTag)) = some (b, a) ∧
        b.length ≤ front.length := exists_splitAt front (newline :: closeTag)
  have hplaces := splitAt_eq_iff endLine_ne_nil front (newline :: closeTag) (by decide)
  have hparts : front ++ envelopeEnd = b ++ (endLine ++ a) := splitAt_eq hsplit
  rw [← envelopeEnd] at hsplit hplaces
  rw [hsplit]
  simp only [expand_block]
  rw [← hplaces, hsplit]
  constructor
  · intro h
    obtain ⟨front', hfact, hcontext⟩ := h.something hne
    obtain rfl := List.append_cancel_right hfact
    have hpre : b <+: front :=
      List.prefix_of_prefix_length_le ⟨_, hparts.symm⟩ (List.prefix_append _ _) hle
    obtain ⟨mid, rfl⟩ := hpre
    rw [List.append_assoc, List.append_cancel_left_eq] at hparts
    rw [List.append_assoc, List.append_cancel_left_eq] at hcontext
    cases mid with
    | nil =>
        rw [List.append_nil] at hfront ⊢
        obtain rfl : newline :: closeTag = a := List.append_cancel_left hparts
        refine ⟨rfl, ?_⟩
        rw [List.nil_append, envelopeEnd, ← List.append_assoc, ← List.cons_append] at hcontext
        have hblock' := List.append_cancel_right (List.cons.inj (List.append_cancel_right hcontext)).2
        exact (expand_eq_self_iff rfl hfront rfl _).mp hblock'
    | cons m mid =>
        -- at an earlier end marker the block does not begin
        exfalso
        obtain ⟨put, hput⟩ : ∃ put, expand endLine b a block = '<' :: put := by
          rw [hblock]
          exact exists_expand_cons (by decide) rest
        rw [hput] at hcontext
        obtain ⟨hm, hcontext⟩ := List.cons.inj hcontext
        obtain ⟨-, hparts⟩ := List.cons.inj hparts
        cases mid with
        | nil => exact absurd (List.cons.inj hcontext).1 (by decide)
        | cons m' mid =>
            have hopen := (List.cons.inj hcontext).1
            have hmarker := (List.cons.inj hparts).1
            rw [← hopen] at hmarker
            exact absurd hmarker (by decide)
  · rintro ⟨hpair, hpattern⟩
    cases hpair
    refine ⟨fun h => absurd h hne, fun _ => ⟨front, rfl, ?_⟩⟩
    rw [expand_of_not_holds hpattern]
    simp [envelopeEnd]

/-! ### The budget -/

theorem codeUnits_inserted {fact block context : List Char} (hne : block ≠ [])
    (h : Inserted fact block context) : codeUnits context = codeUnits fact + codeUnits block + 1 := by
  obtain ⟨front, rfl, rfl⟩ := h.something hne
  have hnewline : codeUnits [newline] = 1 := by decide
  have hcons : newline :: (block ++ envelopeEnd) = [newline] ++ (block ++ envelopeEnd) := rfl
  rw [hcons]
  simp only [codeUnits_append, hnewline]
  omega

/-- Two roundings up leave room for a newline, unless neither rounds. -/
theorem tokens_le_iff {m n : Nat} {limit : ℤ}
    (h : (((m + 3) / 4 : Nat) : ℤ) + ((n + 3) / 4 : Nat) ≤ limit) :
    (((m + n + 1 + 3) / 4 : Nat) : ℤ) ≤ limit ↔
      ¬(4 ∣ m ∧ 4 ∣ n ∧ (((m + 3) / 4 : Nat) : ℤ) + ((n + 3) / 4 : Nat) = limit) := by
  omega

theorem room_of_budget {args : AnnotateArgs} {budget : ℚ} (hbudget : args.budgetTokens = some budget)
    (hfits : (approximateTokens args.factText : ℚ) ≤ budget) :
    ((args.room : Nat) : ℤ) ≤ ⌊budget⌋ - approximateTokens args.factText := by
  have hle : ((approximateTokens args.factText : Nat) : ℤ) ≤ ⌊budget⌋ := Int.le_floor.mpr hfits
  rw [AnnotateArgs.room, hbudget]
  dsimp only
  omega

/-- What a recall puts before the prompt: the facts with the excerpts put in as they are, inside
the budget, and the excerpts few, short and out of the sources. -/
structure AnnotateArgs.Spliced (args : AnnotateArgs) (host : Host) (budget : ℚ)
    (fact context : List Char) : Prop where
  inserted : Inserted fact (args.annotate host).2 context
  fits : (approximateTokens context : ℚ) ≤ budget
  few : (args.annotate host).1.length ≤ 3
  quotes : ∀ excerpt ∈ (args.annotate host).1, args.Quotes excerpt

/-- **Excerpts in the budget**: the recall puts the block of the excerpts in as it is, and keeps to
the budget, exactly where there is no block, or the facts show no end marker of their own, the
block holds no pattern of a replacement, and the newline it is joined by costs no token. -/
theorem excerpts_inserted_iff {host : Host} {args : AnnotateArgs} {budget : ℚ}
    {fact context : List Char} (hbudget : args.budgetTokens = some budget)
    (hfact : args.factContext = some fact) (hfits : (approximateTokens fact : ℚ) ≤ budget)
    (hcontext : prependContext host args = some context) :
    args.Spliced host budget fact context ↔
      (args.annotate host).2 = [] ∨
        places endLine fact = 1 ∧ holdsPattern (args.annotate host).2 = false ∧
          ¬(4 ∣ codeUnits fact ∧ 4 ∣ codeUnits (args.annotate host).2 ∧
            ((approximateTokens fact : Nat) : ℤ) + approximateTokens (args.annotate host).2 =
              ⌊budget⌋) := by
  obtain ⟨hchosen, hrender⟩ := AnnotateArgs.chosen_annotate host args
  rw [prependContext, hfact, Option.map_some] at hcontext
  cases hcontext
  have hspliced : args.Spliced host budget fact (spliceExcerpts fact (args.annotate host).2) ↔
      Inserted fact (args.annotate host).2 (spliceExcerpts fact (args.annotate host).2) ∧
        (approximateTokens (spliceExcerpts fact (args.annotate host).2) : ℚ) ≤ budget :=
    ⟨fun h => ⟨h.inserted, h.fits⟩, fun h => ⟨h.1, h.2, hchosen.count, hchosen.quotes⟩⟩
  rw [hspliced]
  by_cases hblock : (args.annotate host).2 = []
  · rw [hblock, spliceExcerpts, if_pos rfl]
    exact iff_of_true ⟨⟨fun _ => rfl, fun h => absurd rfl h⟩, hfits⟩ (Or.inl rfl)
  have hne : (args.annotate host).1 ≠ [] := by
    intro hnil
    rw [hrender, hnil] at hblock
    exact hblock rfl
  have htext : args.factText = fact := by rw [AnnotateArgs.factText, hfact, Option.getD_some]
  have hroom := room_of_budget hbudget (by rw [htext]; exact hfits)
  rw [htext] at hroom
  have hfit := hchosen.room hne
  rw [← hrender] at hfit
  have hsum : ((approximateTokens fact : Nat) : ℤ) + approximateTokens (args.annotate host).2 ≤
      ⌊budget⌋ := by omega
  obtain ⟨front, hfront, hhead⟩ := exists_envelopeEnd hfact
  have hinserted := inserted_iff (hrender ▸ render_head hne) hhead
  rw [← hfront] at hinserted
  rw [hinserted, or_iff_right hblock, and_assoc]
  refine and_congr_right fun hplaces => and_congr_right fun hpattern => ?_
  have hunits := codeUnits_inserted hblock (hinserted.mpr ⟨hplaces, hpattern⟩)
  have hlimit := tokens_le_iff hsum
  rw [← hunits] at hlimit
  exact Int.le_floor.symm.trans hlimit

/-- A recall of one fact, with the turn it was told in. -/
def toldArgs (told : String) : AnnotateArgs where
  selected := [⟨"semiote:tea", "likes tea", some 1, none, none, none, none, none, none, none, none, none,
    none, none⟩]
  renderedText := ["likes tea"]
  sources := fun id =>
    if id = "tea" then some ⟨"tea", "t1", told.toList, "cli", "user", none, "native", false⟩
    else none
  budgetTokens := some 400
  mode := .on
  nonce := ['0', 'f']

def toldFact : List Char := envelope [memoriesHeader, memoryLine "likes tea".toList]

theorem factContext_told (told : String) : (toldArgs told).factContext = some toldFact :=
  formatRecallInjection_singleton (by decide)

theorem fits_told : (approximateTokens toldFact : ℚ) ≤ 400 := by decide +kernel

theorem prependContext_told (told : String) :
    prependContext .ascii (toldArgs told) =
      some (spliceExcerpts toldFact ((toldArgs told).annotate .ascii).2) := by
  rw [prependContext, factContext_told, Option.map_some]

theorem excerpts_inserted_told :
    (toldArgs "I like green tea").Spliced .ascii 400 toldFact
      (spliceExcerpts toldFact ((toldArgs "I like green tea").annotate .ascii).2) :=
  (excerpts_inserted_iff rfl (factContext_told _) fits_told (prependContext_told _)).mpr
    (Or.inr (by decide +kernel))

/-- **A quoted turn rewrites the facts.**  One that says `$&` is shown with an end marker in its
place. -/
theorem quoted_pattern_expands :
    ¬∀ (host : Host) (args : AnnotateArgs) (budget : ℚ) (fact context : List Char),
        args.budgetTokens = some budget → args.factContext = some fact →
          (approximateTokens fact : ℚ) ≤ budget → prependContext host args = some context →
            args.Spliced host budget fact context := by
  intro hall
  have hinserted := (hall .ascii (toldArgs "tea is $& here") 400 toldFact _ rfl (factContext_told _)
    fits_told (prependContext_told _)).inserted
  obtain ⟨front, hfront, hhead⟩ := exists_envelopeEnd (factContext_told "tea is $& here")
  have hblock : ((toldArgs "tea is $& here").annotate .ascii).2.head? = some '<' ∧
      holdsPattern ((toldArgs "tea is $& here").annotate .ascii).2 = true := by
    decide +kernel
  rw [hfront, inserted_iff ⟨_, List.eq_cons_of_mem_head? hblock.1⟩ hhead, hblock.2] at hinserted
  cases hinserted.2

end Runir.Recall
