import Runir.Lib.Matches

/-!
# Library — Languages

The texts a pattern consumes, whatever surrounds them.

* `Consumes`: the texts a match of a pattern may be.
* `consumes_of_mem_run`, `mem_run_of_consumes`: a match consumes such a text, and a pattern without
  conditions on the place (`plain`) matches wherever one stands.
* `not_mem_of_consumes`: characters no match holds.
* `occurs_of_replaceStep`: what stands in a text after a replacement stood there before, if it holds
  no `[` and does not begin inside of what was put in.
-/

namespace Runir.Regex

/-- Some texts of a language, none of them empty, one after another. -/
inductive Repeats (L : List Char → Prop) : List Char → Prop where
  | nil : Repeats L []
  | cons {u v : List Char} : u ≠ [] → L u → Repeats L v → Repeats L (u ++ v)

def Consumes : Regex → List Char → Prop
  | .empty, u => u = []
  | .cls c, u => ∃ x, u = [x] ∧ c x = true
  | .seq r s, u => ∃ v w, u = v ++ w ∧ Consumes r v ∧ Consumes s w
  | .alt r s, u => Consumes r u ∨ Consumes s u
  | .star r, u => Repeats (Consumes r) u
  | .group _ r, u => Consumes r u
  | .test _, u => u = []
  | .look _ _, u => u = []

/-- A pattern without conditions on the place it matches at. -/
def plain : Regex → Bool
  | .empty => true
  | .cls _ => true
  | .seq r s => plain r && plain s
  | .alt r s => plain r && plain s
  | .star r => plain r
  | .group _ r => plain r
  | .test _ => false
  | .look _ _ => false

theorem consumes_of_mem_run {r : Regex} {p q : Place} (h : q ∈ run r p) :
    ∃ u, Consumes r u ∧ p.rest = u ++ q.rest := by
  induction r generalizing p q with
  | empty =>
      rw [List.mem_singleton.mp h]
      exact ⟨[], rfl, rfl⟩
  | cls c =>
      unfold run at h
      split at h
      · exact nomatch h
      · rename_i x xs hrest
        split at h
        · rename_i hx
          rw [List.mem_singleton.mp h]
          exact ⟨[x], ⟨x, rfl, hx⟩, hrest⟩
        · exact nomatch h
  | seq r s ihr ihs =>
      obtain ⟨mid, hmid, hq⟩ := List.mem_flatMap.mp h
      obtain ⟨u, hu, hp⟩ := ihr hmid
      obtain ⟨v, hv, hm⟩ := ihs hq
      exact ⟨u ++ v, ⟨u, v, rfl, hu, hv⟩, by rw [hp, hm, List.append_assoc]⟩
  | alt r s ihr ihs =>
      rcases List.mem_append.mp h with h | h
      · obtain ⟨u, hu, hp⟩ := ihr h
        exact ⟨u, .inl hu, hp⟩
      · obtain ⟨u, hu, hp⟩ := ihs h
        exact ⟨u, .inr hu, hp⟩
  | star r ih =>
      have hrounds : ∀ (fuel : Nat) (p : Place), q ∈ rounds (run r) fuel p →
          ∃ u, Repeats (Consumes r) u ∧ p.rest = u ++ q.rest := by
        intro fuel
        induction fuel with
        | zero =>
            intro p hq
            rw [List.mem_singleton.mp hq]
            exact ⟨[], .nil, rfl⟩
        | succ fuel ihfuel =>
            intro p hq
            rcases List.mem_append.mp hq with hq | hq
            · obtain ⟨mid, hmid, hq⟩ := List.mem_flatMap.mp hq
              obtain ⟨hmid, hshorter⟩ := List.mem_filter.mp hmid
              obtain ⟨u, hu, hp⟩ := ih hmid
              obtain ⟨v, hv, hm⟩ := ihfuel mid hq
              have hne : u ≠ [] := by
                intro hnil
                rw [hp, hnil] at hshorter
                exact Nat.lt_irrefl _ (of_decide_eq_true hshorter)
              exact ⟨u ++ v, .cons hne hu hv, by rw [hp, hm, List.append_assoc]⟩
            · rw [List.mem_singleton.mp hq]
              exact ⟨[], .nil, rfl⟩
      exact hrounds _ p h
  | group n r ih =>
      obtain ⟨mid, hmid, rfl⟩ := List.mem_map.mp h
      obtain ⟨u, hu, hp⟩ := ih hmid
      exact ⟨u, hu, hp⟩
  | test c =>
      unfold run at h
      split at h
      · rw [List.mem_singleton.mp h]
        exact ⟨[], rfl, rfl⟩
      · exact nomatch h
  | look negated r _ =>
      unfold run at h
      split at h
      · rw [List.mem_singleton.mp h]
        exact ⟨[], rfl, rfl⟩
      · exact nomatch h

theorem mem_run_of_consumes {r : Regex} (hplain : plain r = true) {u z : List Char}
    (h : Consumes r u) {p : Place} (hp : p.rest = u ++ z) : ∃ q ∈ run r p, q.rest = z := by
  induction r generalizing u z p with
  | empty =>
      obtain rfl : u = [] := h
      exact ⟨p, List.mem_singleton_self p, hp⟩
  | cls c =>
      obtain ⟨x, rfl, hx⟩ := h
      refine ⟨⟨some x, z, p.groups⟩, ?_, rfl⟩
      unfold run
      rw [hp]
      simp only [List.cons_append, List.nil_append, hx, if_true, List.mem_singleton]
  | seq r s ihr ihs =>
      obtain ⟨hr, hs⟩ := Bool.and_eq_true _ _ ▸ hplain
      obtain ⟨v, w, rfl, hv, hw⟩ := h
      obtain ⟨mid, hmid, hrest⟩ := ihr hr hv (hp.trans (List.append_assoc v w z))
      obtain ⟨q, hq, hz⟩ := ihs hs hw hrest
      exact ⟨q, List.mem_flatMap.mpr ⟨mid, hmid, hq⟩, hz⟩
  | alt r s ihr ihs =>
      obtain ⟨hr, hs⟩ := Bool.and_eq_true _ _ ▸ hplain
      rcases h with h | h
      · obtain ⟨q, hq, hz⟩ := ihr hr h hp
        exact ⟨q, List.mem_append_left _ hq, hz⟩
      · obtain ⟨q, hq, hz⟩ := ihs hs h hp
        exact ⟨q, List.mem_append_right _ hq, hz⟩
  | star r ih =>
      have hrounds : ∀ (u : List Char), Repeats (Consumes r) u → ∀ (fuel : Nat) (p : Place),
          u.length ≤ fuel → p.rest = u ++ z → ∃ q ∈ rounds (run r) fuel p, q.rest = z := by
        intro u hu
        induction hu with
        | nil =>
            intro fuel p _ hp
            refine ⟨p, ?_, hp⟩
            cases fuel with
            | zero => exact List.mem_singleton_self p
            | succ fuel => exact List.mem_append_right _ (List.mem_singleton_self p)
        | @cons u v hne hu _ ihv =>
            intro fuel p hfuel hp
            have hpos := List.length_pos_iff.mpr hne
            rw [List.length_append] at hfuel
            cases fuel with
            | zero => omega
            | succ fuel =>
                obtain ⟨mid, hmid, hrest⟩ := ih hplain hu (hp.trans (List.append_assoc u v z))
                have hshorter : mid.rest.length < p.rest.length := by
                  rw [hrest, hp]
                  simp only [List.length_append]
                  omega
                obtain ⟨q, hq, hz⟩ := ihv fuel mid (by omega) hrest
                refine ⟨q, List.mem_append_left _ (List.mem_flatMap.mpr ⟨mid, ?_, hq⟩), hz⟩
                exact List.mem_filter.mpr ⟨hmid, decide_eq_true hshorter⟩
      refine hrounds u h _ p ?_ hp
      rw [hp, List.length_append]
      exact Nat.le_add_right _ _
  | group n r ih =>
      obtain ⟨q, hq, hz⟩ := ih hplain h hp
      exact ⟨_, List.mem_map.mpr ⟨q, hq, rfl⟩, hz⟩
  | test c => cases hplain
  | look negated r => cases hplain

theorem matchIn_eq_true_iff {r : Regex} (hplain : plain r = true) {text : List Char} :
    matchIn r text = true ↔ ∃ u v z, Consumes r v ∧ text = u ++ (v ++ z) := by
  constructor
  · intro h
    obtain ⟨m, hm⟩ := Option.isSome_iff_exists.mp h
    have hleft := find_some hm
    obtain ⟨v, hv, hrest⟩ := consumes_of_mem_run hleft.mem
    exact ⟨m.skipped, v, m.rest, hv, hleft.parts.trans (congrArg _ hrest)⟩
  · rintro ⟨u, v, z, hv, rfl⟩
    by_contra hnot
    have hnone := find_eq_none_iff.mp (matchIn_eq_false_iff.mp (Bool.eq_false_iff.mpr hnot))
    obtain ⟨q, hq, _⟩ := mem_run_of_consumes hplain hv
      (p := ⟨lastOf none u, v ++ z, []⟩) rfl
    rw [hnone u (v ++ z) rfl] at hq
    exact nomatch hq

/-- A character that no match of the pattern holds. -/
def avoids (x : Char) : Regex → Bool
  | .empty => true
  | .cls c => !c x
  | .seq r s => avoids x r && avoids x s
  | .alt r s => avoids x r && avoids x s
  | .star r => avoids x r
  | .group _ r => avoids x r
  | .test _ => true
  | .look _ _ => true

theorem not_mem_of_consumes {x : Char} {r : Regex} (havoids : avoids x r = true) {u : List Char}
    (h : Consumes r u) : x ∉ u := by
  induction r generalizing u with
  | empty | test | look =>
      rw [show u = [] from h]
      exact List.not_mem_nil
  | cls c =>
      obtain ⟨y, rfl, hy⟩ := h
      rintro hmem
      rw [List.mem_singleton.mp hmem, avoids, hy] at havoids
      exact nomatch havoids
  | seq r s ihr ihs =>
      obtain ⟨hr, hs⟩ := Bool.and_eq_true _ _ ▸ havoids
      obtain ⟨v, w, rfl, hv, hw⟩ := h
      exact fun hmem => (List.mem_append.mp hmem).elim (ihr hr hv) (ihs hs hw)
  | alt r s ihr ihs =>
      obtain ⟨hr, hs⟩ := Bool.and_eq_true _ _ ▸ havoids
      exact h.elim (ihr hr) (ihs hs)
  | star r ih =>
      have hrepeats : Repeats (Consumes r) u := h
      induction hrepeats with
      | nil => exact List.not_mem_nil
      | cons _ hu htail ihtail =>
          exact fun hmem => (List.mem_append.mp hmem).elim (ih havoids hu) (ihtail htail)
  | group n r ih => exact ih havoids h

/-- `[\s\S]*` consumes every text, and its first match all that is left. -/
def rest : Regex := .star (.cls fun _ => true)

theorem consumes_rest (u : List Char) : Consumes rest u := by
  induction u with
  | nil => exact .nil
  | cons x u ih => exact Repeats.cons (List.cons_ne_nil x []) ⟨x, rfl, rfl⟩ ih

/-- The first match of the pattern goes to the end of the text. -/
def Drains (r : Regex) : Prop := ∀ p q, (run r p).head? = some q → q.rest = []

theorem drains_rest : Drains rest := by
  have hrounds : ∀ (fuel : Nat) (p q : Place), p.rest.length ≤ fuel →
      (rounds (run (.cls fun _ => true)) fuel p).head? = some q → q.rest = [] := by
    intro fuel
    induction fuel with
    | zero =>
        intro p q hfuel hq
        obtain rfl : p = q := Option.some.inj hq
        exact List.length_eq_zero_iff.mp (Nat.le_zero.mp hfuel)
    | succ fuel ih =>
        intro p q hfuel hq
        obtain ⟨before, text, groups⟩ := p
        cases text with
        | nil =>
            obtain rfl : (⟨before, [], groups⟩ : Place) = q := Option.some.inj hq
            rfl
        | cons x xs =>
            refine ih ⟨some x, xs, groups⟩ q (Nat.le_of_succ_le_succ hfuel) ?_
            have hne : (rounds (run (.cls fun _ => true)) fuel ⟨some x, xs, groups⟩) ≠ [] := by
              cases fuel <;> simp [rounds]
            obtain ⟨y, ys, hys⟩ := List.exists_cons_of_ne_nil hne
            rw [rounds, run] at hq
            simp only [if_true, List.filter_cons, List.length_cons, Nat.lt_succ_self, decide_true,
              List.filter_nil, List.flatMap_cons, List.flatMap_nil, List.append_nil] at hq
            rw [hys] at hq ⊢
            exact hq
  intro p q hq
  exact hrounds p.rest.length p q le_rfl hq

theorem Drains.seq {r s : Regex} (h : Drains s) : Drains (.seq r s) := by
  intro p q hq
  obtain ⟨mid, _, hmid⟩ : ∃ mid ∈ run r p, (run s mid).head? = some q := by
    rw [run] at hq
    generalize run r p = places at hq ⊢
    induction places with
    | nil => exact nomatch hq
    | cons mid mids ih =>
        rw [List.flatMap_cons] at hq
        cases hrun : run s mid with
        | nil =>
            rw [hrun, List.nil_append] at hq
            obtain ⟨mid', hmid', h'⟩ := ih hq
            exact ⟨mid', List.mem_cons_of_mem _ hmid', h'⟩
        | cons y ys =>
            rw [hrun] at hq
            exact ⟨mid, List.mem_cons_self, by rw [hrun]; exact hq⟩
  exact h mid q hmid

/-! ### What stands in a replaced text -/

/-- A stretch without `b` lies on one side of it. -/
theorem infix_of_barrier {h a c : List Char} {b : Char} (hb : b ∉ h)
    (hin : h <:+: a ++ b :: c) : h <:+: a ∨ h <:+: c := by
  obtain ⟨u, v, huv⟩ := hin
  rw [List.append_assoc] at huv
  rcases List.append_eq_append_iff.mp huv with ⟨w, rfl, hw⟩ | ⟨w, rfl, hw⟩
  · -- the stretch begins in `a`
    rcases List.append_eq_append_iff.mp hw with ⟨w', rfl, _⟩ | ⟨w', hh, hw'⟩
    · exact .inl ⟨u, w', (List.append_assoc u h w')⟩
    · cases w' with
      | nil =>
          rw [List.append_nil] at hh
          exact .inl ⟨u, [], by rw [hh, List.append_nil]⟩
      | cons x w' =>
          obtain ⟨rfl, _⟩ := List.cons.inj hw'
          exact absurd (hh ▸ List.mem_append_right _ List.mem_cons_self) hb
  · -- the stretch begins at `b` or behind it
    cases w with
    | nil =>
        cases h with
        | nil => exact .inl (List.nil_infix)
        | cons x h =>
            obtain ⟨rfl, _⟩ := List.cons.inj hw
            exact absurd List.mem_cons_self hb
    | cons x w =>
        obtain ⟨_, rfl⟩ := List.cons.inj hw
        exact .inr ⟨w, v, (List.append_assoc w h v)⟩

/-- A stretch that does not begin in `a` lies behind it. -/
theorem infix_of_head {x : Char} {h a c : List Char} (hx : x ∉ a) (hin : x :: h <:+: a ++ c) :
    x :: h <:+: c := by
  obtain ⟨u, v, huv⟩ := hin
  rw [List.append_assoc] at huv
  rcases List.append_eq_append_iff.mp huv with ⟨w, rfl, hw⟩ | ⟨w, rfl, hw⟩
  · cases w with
    | nil => exact ⟨[], v, hw⟩
    | cons y w =>
        obtain ⟨rfl, _⟩ := List.cons.inj hw
        exact absurd (List.mem_append_right _ List.mem_cons_self) hx
  · exact ⟨w, v, (List.append_assoc _ _ _).trans hw.symm⟩

section
variable {σ : Type} {r : Regex} {f : Match → σ → List Char × σ} {x : Char} {h : List Char}

theorem occurs_of_replaceStep (hnull : nullable r = false) {K : σ → Prop} (hK : ∀ m s, K s → K (f m s).2)
    (hnew : ∀ m s, K s → ∃ body, (f m s).1 = '[' :: body ∧ x ∉ body) (hbar : '[' ∉ x :: h)
    {text : List Char} {s : σ} (hs : K s) (hin : x :: h <:+: (replaceStep r f text s).1) :
    x :: h <:+: text := by
  have hfrom : ∀ (fuel : Nat) (before : Option Char) (rest : List Char) (s : σ), K s →
      x :: h <:+: (replaceStepFrom r f fuel before rest s).1 → x :: h <:+: rest := by
    intro fuel
    induction fuel with
    | zero =>
        intro before rest s _ hin
        exact hin
    | succ fuel ih =>
        intro before rest s hs hin
        unfold replaceStepFrom at hin
        cases hfind : find r before rest with
        | none =>
            rw [hfind] at hin
            exact hin
        | some m =>
            rw [hfind] at hin
            have hparts := (find_some hfind).parts
            obtain ⟨body, hbody, hx⟩ := hnew m s hs
            have hnext : K (f m s).2 := hK m s hs
            -- what the replacement leaves of the stretch: it is in the skipped part or in the rest
            have hsplit : ∀ tail, x :: h <:+: m.skipped ++ ((f m s).1 ++ tail) →
                x :: h <:+: m.skipped ∨ x :: h <:+: tail := by
              intro tail hin
              rw [hbody] at hin
              rcases infix_of_barrier hbar hin with hin | hin
              · exact .inl hin
              · exact .inr (infix_of_head hx hin)
            have hskip : x :: h <:+: m.skipped → x :: h <:+: rest := fun hin =>
              hin.trans ⟨[], m.text ++ m.rest, hparts.symm⟩
            have hrest : x :: h <:+: m.rest → x :: h <:+: rest := fun hin =>
              hin.trans ⟨m.skipped ++ m.text, [], by
                rw [List.append_nil, hparts, List.append_assoc]⟩
            obtain ⟨y, ys, htext, _⟩ := (find_some hfind).text_cons hnull
            dsimp only at hin
            rw [htext] at hin
            dsimp only at hin
            rw [List.append_assoc] at hin
            rcases hsplit _ hin with hin | hin
            · exact hskip hin
            · exact hrest (ih _ _ _ hnext hin)
  exact hfrom _ _ _ _ hs hin

end

end Runir.Regex
