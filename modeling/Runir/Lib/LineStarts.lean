import Runir.Lib.Anchored
import Runir.Lib.Occurs

/-!
# Library — Line starts

The lines of a text, with the place each begins at.

* `linesFrom`: the pieces between single separators.
* `occursAt_of_mem_linesFrom`, `linesFrom_pairwise`: a line stands where it is said to begin, and
  ends before the next begins.
* `filterMap_split_eq`: a split at runs of separators differs by empty pieces.
-/

namespace Runir

/-- The lines of a text that begins at `n`. -/
def linesFrom (sep : Char) (n : Nat) : List Char → List (Nat × List Char)
  | [] => [(n, [])]
  | c :: cs =>
      if c = sep then (n, []) :: linesFrom sep (n + 1) cs
      else
        match linesFrom sep (n + 1) cs with
        | [] => [(n, [c])]
        | line :: lines => (n, c :: line.2) :: lines

section
variable {sep : Char} {n : Nat} {u v cs : List Char}

theorem linesFrom_of_plain (hu : sep ∉ u) : linesFrom sep n u = [(n, u)] := by
  induction u generalizing n with
  | nil => rfl
  | cons c u ih =>
      rw [List.mem_cons, not_or] at hu
      rw [linesFrom, if_neg (Ne.symm hu.1), ih hu.2]

theorem linesFrom_append_cons (hu : sep ∉ u) :
    linesFrom sep n (u ++ sep :: v) = (n, u) :: linesFrom sep (n + u.length + 1) v := by
  induction u generalizing n with
  | nil => rw [List.nil_append, linesFrom, if_pos rfl]; rfl
  | cons c u ih =>
      rw [List.mem_cons, not_or] at hu
      rw [List.cons_append, linesFrom, if_neg (Ne.symm hu.1), ih hu.2]
      simp only [List.length_cons]
      rw [show n + 1 + u.length + 1 = n + (u.length + 1) + 1 by omega]

/-- A text is one line, or a line and what follows its end. -/
theorem line_cases (sep : Char) (cs : List Char) :
    sep ∉ cs ∨ ∃ u v, sep ∉ u ∧ cs = u ++ sep :: v := by
  by_cases h : sep ∈ cs
  · obtain ⟨u, v, rfl, hu⟩ := List.eq_append_cons_of_mem h
    exact Or.inr ⟨u, v, hu, rfl⟩
  · exact Or.inl h

/-- A line stands where it is said to begin. -/
theorem exists_of_mem_linesFrom {e : Nat × List Char} (h : e ∈ linesFrom sep n cs) :
    ∃ front back, cs = front ++ (e.2 ++ back) ∧ e.1 = n + front.length := by
  induction hlength : cs.length using Nat.strongRecOn generalizing cs n with
  | _ k ih =>
    rcases line_cases sep cs with hplain | ⟨u, v, hu, rfl⟩
    · rw [linesFrom_of_plain hplain, List.mem_singleton] at h
      exact ⟨[], [], by simp [h], by simp [h]⟩
    · rw [linesFrom_append_cons hu, List.mem_cons] at h
      rcases h with rfl | h
      · exact ⟨[], sep :: v, rfl, rfl⟩
      · have hshorter : v.length < k := by
          rw [← hlength, List.length_append, List.length_cons]
          omega
        obtain ⟨front, back, rfl, hstart⟩ := ih v.length hshorter h rfl
        refine ⟨u ++ sep :: front, back, by simp, ?_⟩
        rw [hstart, List.length_append, List.length_cons]
        omega

/-- A line ends before the next begins. -/
theorem linesFrom_pairwise (sep : Char) (n : Nat) (cs : List Char) :
    (linesFrom sep n cs).Pairwise fun e e' => e.1 + e.2.length < e'.1 := by
  induction hlength : cs.length using Nat.strongRecOn generalizing cs n with
  | _ k ih =>
    rcases line_cases sep cs with hplain | ⟨u, v, hu, rfl⟩
    · rw [linesFrom_of_plain hplain]
      exact List.pairwise_singleton _ _
    · have hshorter : v.length < k := by
        rw [← hlength, List.length_append, List.length_cons]
        omega
      rw [linesFrom_append_cons hu]
      refine List.pairwise_cons.mpr ⟨fun e he => ?_, ih v.length hshorter _ v rfl⟩
      obtain ⟨front, -, -, hstart⟩ := exists_of_mem_linesFrom he
      have hle : n + u.length + 1 ≤ e.1 := Nat.le.intro hstart.symm
      exact hle

/-! ### Splits at runs of separators -/

variable {β : Type*} {f : List Char → Option β}

/-- Separators at the beginning give empty lines only. -/
theorem filterMap_linesFrom_seps (hf : f [] = none) {run : List Char} (hrun : ∀ c ∈ run, c = sep) :
    ∃ m, (linesFrom sep n (run ++ cs)).filterMap (fun e => f e.2) =
      (linesFrom sep m cs).filterMap fun e => f e.2 := by
  induction run generalizing n with
  | nil => exact ⟨n, rfl⟩
  | cons c run ih =>
      obtain ⟨rfl, hrun⟩ := List.forall_mem_cons.mp hrun
      obtain ⟨m, hm⟩ := ih (n := n + 1) hrun
      refine ⟨m, ?_⟩
      rw [List.cons_append, linesFrom, if_pos rfl, List.filterMap_cons_none]
      · exact hm
      · exact hf

/-- Where the pattern is found: at the first separators. -/
theorem find_run_of_seps {run : List Char} (hu : sep ∉ u) (hrun : ∀ c ∈ run, c = sep)
    (hne : run ≠ []) (hv : ∀ c, v.head? = some c → c ≠ sep) (before : Option Char) :
    ∃ after, Regex.find (Regex.plus (Regex.chr sep)) before (u ++ (run ++ v)) =
      some ⟨u, run, [], after, v⟩ := by
  have hquiet : Regex.Quiet (Regex.plus (Regex.chr sep)) u (run ++ v) := by
    intro w hw hsuffix b
    refine Regex.run_seq_of_nil (Regex.run_cls_of_not fun x hx => ?_)
    obtain ⟨y, ys, rfl⟩ := List.exists_cons_of_ne_nil hw
    have hxy : y = x := Option.some.inj hx
    have hmem : x ∈ u := hsuffix.subset (hxy ▸ List.mem_cons_self)
    refine beq_eq_false_iff_ne.mpr ?_
    rintro rfl
    exact hu hmem
  obtain ⟨c, run, rfl⟩ := List.exists_cons_of_ne_nil hne
  obtain ⟨rfl, hrun⟩ := List.forall_mem_cons.mp hrun
  have hhead : Regex.Head (Regex.plus (Regex.chr c))
      ⟨Regex.lastOf before u, c :: run ++ v, []⟩ ⟨Regex.lastOf (some c) run, v, []⟩ := by
    refine (Regex.head_cls (beq_self_eq_true c)).seq (Regex.head_star_cls ?_ ?_ (some c) [])
    · intro x hx
      exact beq_iff_eq.mpr (hrun x hx)
    · intro x hx
      exact beq_eq_false_iff_ne.mpr (hv x hx)
  have htaken : (c :: run ++ v).take ((c :: run ++ v).length - v.length) = c :: run := by
    rw [List.length_append, Nat.add_sub_cancel, List.take_left]
  refine ⟨Regex.lastOf (some c) run, ?_⟩
  rw [Regex.find_append hquiet, Regex.find_of_head hhead (by simp), Option.map_some]
  simp only [htaken, List.append_nil]

/-- **A split at runs of separators**: the lines that are not empty. -/
theorem filterMap_split_eq (hf : f [] = none) (cs : List Char) :
    (Regex.split (Regex.plus (Regex.chr sep)) cs).filterMap f =
      (linesFrom sep n cs).filterMap fun e => f e.2 := by
  have hsplit : ∀ (fuel : Nat) (before : Option Char) (cs : List Char) (n : Nat),
      cs.length < fuel → (Regex.splitFrom (Regex.plus (Regex.chr sep)) fuel before cs).filterMap f =
        (linesFrom sep n cs).filterMap fun e => f e.2 := by
    intro fuel
    induction fuel with
    | zero => exact fun _ cs _ hlength => absurd hlength (Nat.not_lt_zero cs.length)
    | succ fuel ih =>
        intro before cs n hlength
        rcases line_cases sep cs with hplain | ⟨u, v, hu, rfl⟩
        · have hnone : Regex.find (Regex.plus (Regex.chr sep)) before cs = none := by
            refine Regex.find_of_quiet (fun w hw hsuffix b => ?_) (fun b => rfl) before
            refine Regex.run_seq_of_nil (Regex.run_cls_of_not fun x hx => ?_)
            obtain ⟨y, ys, rfl⟩ := List.exists_cons_of_ne_nil hw
            have hxy : y = x := Option.some.inj hx
            refine beq_eq_false_iff_ne.mpr ?_
            rintro rfl
            exact hplain (hsuffix.subset (hxy ▸ List.mem_cons_self))
          rw [Regex.splitFrom, hnone, linesFrom_of_plain hplain]
          rfl
        · -- all separators that stand together are taken at once
          have hparts : v = v.takeWhile (· == sep) ++ v.dropWhile (· == sep) :=
            List.takeWhile_append_dropWhile.symm
          have hrun : ∀ c ∈ v.takeWhile (· == sep), c = sep :=
            fun c hc => by simpa using List.mem_takeWhile_imp hc
          have hrest : ∀ c, (v.dropWhile (· == sep)).head? = some c → c ≠ sep := by
            intro c hc heq
            have hnot := List.head?_dropWhile_not (· == sep) v
            rw [hc, heq] at hnot
            simp at hnot
          obtain ⟨after, hfind⟩ := find_run_of_seps hu
            (List.forall_mem_cons.mpr ⟨rfl, hrun⟩) (List.cons_ne_nil _ _) hrest before
          rw [List.cons_append, ← hparts] at hfind
          have hshorter : (v.dropWhile (· == sep)).length < fuel := by
            have hle := (List.dropWhile_suffix (l := v) (· == sep)).length_le
            rw [List.length_append, List.length_cons] at hlength
            omega
          have hseps : ∃ m, (linesFrom sep (n + u.length + 1) (v.takeWhile (· == sep) ++
              v.dropWhile (· == sep))).filterMap (fun e => f e.2) =
              (linesFrom sep m (v.dropWhile (· == sep))).filterMap fun e => f e.2 :=
            filterMap_linesFrom_seps hf hrun
          obtain ⟨m, hm⟩ := hseps
          rw [← hparts] at hm
          rw [Regex.splitFrom, hfind, linesFrom_append_cons hu]
          simp only [List.filterMap_cons, hm, ih after _ m hshorter]
  exact hsplit (cs.length + 1) none cs n (Nat.lt_succ_self _)

end

end Runir
