import Mathlib.Data.List.DropRight
import Runir.Lib.LowerCase
import Runir.Lib.Words

/-!
# Domain — Git remotes

`normalizeGitRemoteUrl` and `projectKeyFromGitRemote` of `src/identity/canonical-context.ts`.

* `Repository`, `Spelling`: a host and a path, and the ways of writing them.
* `normalized_text_iff`: a spelling is normalized to host and path in lower case exactly if it is
  `WellSpelled`.
* `normalized_normalized_iff`: normalizing again changes nothing exactly if the remote is `Settled`.
* `projectKeys_iff`: both, and that the keys of well-spelled remotes are those of their
  repositories.

`fingerprint` and the character database are parameters.
-/

namespace Runir.GitRemotes
open Regex (foldCase isAlphaChar)
open Text (isSpace trimChars)

/-! ### The rules -/

/-- `.replace(/^ssh:\/\//i, "")`. -/
def dropSsh (cs : List Char) : List Char :=
  if (cs.take 6).map foldCase = "ssh://".toList then cs.drop 6 else cs

/-- `.replace(/^[a-z]+:\/\//i, "")`. -/
def dropScheme (cs : List Char) : List Char :=
  match cs.takeWhile isAlphaChar, cs.dropWhile isAlphaChar with
  | _ :: _, ':' :: '/' :: '/' :: rest => rest
  | _, _ => cs

/-- `.replace(/^[^@]+@/, "")`. -/
def dropUser (cs : List Char) : List Char :=
  match cs.takeWhile (· ≠ '@'), cs.dropWhile (· ≠ '@') with
  | _ :: _, _ :: rest => rest
  | _, _ => cs

def isSeparator (c : Char) : Bool := c = ':' || c = '/'

/-- `.replace(/^([^:/]+):/, "$1/")`. -/
def slashColon (cs : List Char) : List Char :=
  match cs.takeWhile (!isSeparator ·), cs.dropWhile (!isSeparator ·) with
  | c :: host, ':' :: rest => c :: host ++ '/' :: rest
  | _, _ => cs

/-- `/\.git$/i`. -/
def endsGit (cs : List Char) : Bool := ".git".toList.isSuffixOf (cs.map foldCase)

/-- `.replace(/\.git$/i, "")`. -/
def dropGit (cs : List Char) : List Char := if endsGit cs then cs.take (cs.length - 4) else cs

/-- `.replace(/\/+$/, "")`. -/
def dropSlashes (cs : List Char) : List Char := cs.rdropWhile (· = '/')

/-- The remote without white space around it, its schemes and its user. -/
def withoutUser (cs : List Char) : List Char := dropUser (dropScheme (dropSsh (trimChars cs)))

def rewritten (cs : List Char) : List Char :=
  dropSlashes (dropGit (slashColon (withoutUser cs)))

def normalizeGitRemoteUrl (u : Unicode) (remoteUrl : String) : String :=
  u.toLowerCase (String.ofList (rewritten remoteUrl.toList))

def projectKeyFromGitRemote (u : Unicode) (fingerprint : String → String) (remoteUrl : String) :
    String :=
  "git:" ++ fingerprint (normalizeGitRemoteUrl u remoteUrl)

/-! ### Remotes -/

/-- A host, which may have a port, and a path without the suffix of a remote. -/
structure Repository where
  host : List Char
  path : List Char
  host_ne : host ≠ []
  host_plain : ∀ c ∈ host, c ≠ '/' ∧ c ≠ '@' ∧ isSpace c = false
  host_head : host.head? ≠ some ':'
  path_ne : path ≠ []
  path_head : path.head? ≠ some '/'
  path_last : ∀ c, path.getLast? = some c → c ≠ '/' ∧ isSpace c = false

inductive RemoteForm where
  | https (credentials : Option (List Char))
  | ssh (user : Option (List Char))
  | scp (user : List Char)
  | bare

namespace RemoteForm

def scheme : RemoteForm → List Char
  | https _ => "https://".toList
  | ssh _ => "ssh://".toList
  | scp _ => []
  | bare => []

def userinfo : RemoteForm → Option (List Char)
  | https credentials => credentials
  | ssh user => user
  | scp user => some user
  | bare => none

def separator : RemoteForm → Char
  | scp _ => ':'
  | _ => '/'

end RemoteForm

structure Spelling where
  form : RemoteForm
  dotGit : Bool
  slashes : Nat
  userinfo_plain : ∀ user ∈ form.userinfo, ∀ c ∈ user, c ≠ '/' ∧ isSpace c = false

def Spelling.suffix (sp : Spelling) : List Char :=
  (if sp.dotGit then ".git".toList else []) ++ List.replicate sp.slashes '/'

/-- The remote without its scheme. -/
def Spelling.authority (sp : Spelling) (r : Repository) : List Char :=
  (match sp.form.userinfo with
    | some user => user ++ ['@']
    | none => []) ++ (r.host ++ sp.form.separator :: (r.path ++ sp.suffix))

def Spelling.text (sp : Spelling) (r : Repository) : List Char :=
  sp.form.scheme ++ sp.authority r

/-- Host and path. -/
def Repository.name (r : Repository) : List Char := r.host ++ '/' :: r.path

/-- What is taken for a user is one. -/
def AtSound (sp : Spelling) (r : Repository) : Prop :=
  match sp.form.userinfo with
  | some user => user ≠ [] ∧ '@' ∉ user
  | none => '@' ∉ r.path

/-- The host has no port, what is taken for a user is one, and the `.git` that is taken off is the
suffix. -/
structure WellSpelled (sp : Spelling) (r : Repository) : Prop where
  colon : ':' ∉ r.host
  user : AtSound sp r
  suffix : if sp.slashes = 0 then sp.dotGit = true ∨ endsGit r.path = false else sp.dotGit = false

/-- `/^\.git$/i`. -/
def IsGit (cs : List Char) : Prop := cs.map foldCase = ".git".toList

/-- What is left without schemes and user, its colon read as a slash, neither starts with white
space nor has a user again, and what its closing `.git` and slashes follow is neither white space
nor another `.git`. -/
structure Settled (cs : List Char) : Prop where
  start : ∀ c, (slashColon (withoutUser cs)).head? = some c → isSpace c = false
  user : '@' ∈ slashColon (withoutUser cs) → (slashColon (withoutUser cs)).head? = some '@'
  closing : ∀ front mark k git,
    slashColon (withoutUser cs) = front ++ (mark ++ (List.replicate k '/' ++ git)) →
    (git = [] ∨ IsGit git) → (0 < k ∨ git ≠ []) →
    ¬IsGit mark ∧ ∀ c, mark = [c] → isSpace c = false

/-! ### What the rules do -/

variable {git : List Char}

section
variable {cs ds front rest : List Char}

theorem endsGit_iff : endsGit cs = true ↔ ∃ front git, cs = front ++ git ∧ IsGit git := by
  rw [endsGit, List.isSuffixOf_iff_suffix]
  constructor
  · rintro ⟨mapped, hmapped⟩
    obtain ⟨front, git, rfl, -, hgit⟩ := List.map_eq_append_iff.mp hmapped.symm
    exact ⟨front, git, rfl, hgit⟩
  · rintro ⟨front, git, rfl, hgit⟩
    exact ⟨front.map foldCase, by rw [List.map_append, hgit]⟩

theorem IsGit.length_eq (h : IsGit git) : git.length = 4 := by
  have hlength := congrArg List.length h
  rwa [List.length_map] at hlength

theorem dropGit_append (h : IsGit git) : dropGit (cs ++ git) = cs := by
  rw [dropGit, if_pos (endsGit_iff.mpr ⟨cs, git, rfl, h⟩), List.length_append, h.length_eq,
    Nat.add_sub_cancel, List.take_left]

theorem dropGit_of_not (h : endsGit cs = false) : dropGit cs = cs := by
  rw [dropGit, h]
  rfl

theorem dropSlashes_append (h : cs.getLast? ≠ some '/') (k : Nat) :
    dropSlashes (cs ++ List.replicate k '/') = cs := by
  induction k with
  | zero =>
      rw [List.replicate_zero, List.append_nil, dropSlashes, List.rdropWhile_eq_self_iff]
      intro hne hlast
      exact h (by rw [List.getLast?_eq_some_getLast hne, of_decide_eq_true hlast])
  | succ k ih =>
      rw [List.replicate_succ', ← List.append_assoc, dropSlashes, List.rdropWhile_concat_pos]
      · exact ih
      · rfl

theorem getLast?_dropSlashes (cs : List Char) : (dropSlashes cs).getLast? ≠ some '/' := by
  intro hlast
  have hne : dropSlashes cs ≠ [] := by
    intro hnil
    rw [hnil] at hlast
    exact nomatch hlast
  have hnot := List.rdropWhile_last_not (fun c => decide (c = '/')) cs hne
  rw [List.getLast?_eq_some_getLast hne] at hlast
  exact hnot (decide_eq_true (Option.some.inj hlast))

/-- What the last two rules take away. -/
theorem exists_closing (cs : List Char) : ∃ k git,
    cs = dropSlashes (dropGit cs) ++ (List.replicate k '/' ++ git) ∧
      ((git = [] ∧ endsGit cs = false) ∨ IsGit git) := by
  have hslashes : ∀ ds : List Char, ∃ k, ds = dropSlashes ds ++ List.replicate k '/' := by
    intro ds
    induction ds using List.reverseRecOn with
    | nil => exact ⟨0, rfl⟩
    | append_singleton ds d ih =>
        by_cases hd : d = '/'
        · obtain ⟨k, hk⟩ := ih
          subst hd
          have hdrop : dropSlashes (ds ++ ['/']) = dropSlashes ds := List.rdropWhile_concat_pos _ _ _ rfl
          refine ⟨k + 1, ?_⟩
          rw [hdrop, List.replicate_succ', ← List.append_assoc]
          exact congrArg (· ++ ['/']) hk
        · have hkeep : dropSlashes (ds ++ [d]) = ds ++ [d] :=
            List.rdropWhile_concat_neg _ _ _ (by simpa using hd)
          exact ⟨0, by rw [hkeep, List.replicate_zero, List.append_nil]⟩
  cases hgit : endsGit cs with
  | true =>
      obtain ⟨front, git, rfl, hisGit⟩ := endsGit_iff.mp hgit
      obtain ⟨k, hk⟩ := hslashes front
      refine ⟨k, git, ?_, Or.inr hisGit⟩
      rw [dropGit_append hisGit, ← List.append_assoc, ← hk]
  | false =>
      obtain ⟨k, hk⟩ := hslashes cs
      refine ⟨k, [], ?_, Or.inl ⟨rfl, rfl⟩⟩
      rw [dropGit_of_not hgit, List.append_nil]
      exact hk

/-! ### The user -/

theorem takeWhile_of_head {p : Char → Bool} (h : ∀ c ∈ front, p c = true)
    (hrest : ∀ c, rest.head? = some c → p c = false) :
    (front ++ rest).takeWhile p = front ∧ (front ++ rest).dropWhile p = rest := by
  constructor
  · rw [List.takeWhile_append_of_pos h]
    cases rest with
    | nil => simp
    | cons c rest => simp [hrest c rfl]
  · rw [List.dropWhile_append_of_pos h]
    cases rest with
    | nil => rfl
    | cons c rest => simp [hrest c rfl]

theorem dropUser_append (hne : front ≠ []) (h : '@' ∉ front) : dropUser (front ++ '@' :: rest) = rest := by
  have hplain : ∀ c ∈ front, decide (c ≠ '@') = true := by
    intro c hc
    refine decide_eq_true ?_
    rintro rfl
    exact h hc
  obtain ⟨htake, hdrop⟩ := @takeWhile_of_head front ('@' :: rest) _ hplain
    fun c hc => by rw [← Option.some.inj hc]; rfl
  obtain ⟨c, cs, rfl⟩ := List.exists_cons_of_ne_nil hne
  rw [dropUser, htake, hdrop]

theorem dropUser_of_notMem (h : '@' ∉ cs) : dropUser cs = cs := by
  have hplain : ∀ c ∈ cs, decide (c ≠ '@') = true := by
    intro c hc
    refine decide_eq_true ?_
    rintro rfl
    exact h hc
  rw [dropUser, List.dropWhile_eq_nil_iff.mpr hplain]
  split
  · next heq => exact nomatch heq
  · rfl

/-- What the user rule does, by where the first at sign stands. -/
theorem dropUser_cases (cs : List Char) :
    ('@' ∉ cs ∧ dropUser cs = cs) ∨ (cs.head? = some '@' ∧ dropUser cs = cs) ∨
      ∃ front rest, cs = front ++ '@' :: rest ∧ front ≠ [] ∧ '@' ∉ front ∧ dropUser cs = rest := by
  by_cases hat : '@' ∈ cs
  · obtain ⟨front, rest, rfl, hfront⟩ := List.eq_append_cons_of_mem hat
    by_cases hne : front = []
    · subst hne
      exact Or.inr (Or.inl ⟨rfl, rfl⟩)
    · exact Or.inr (Or.inr ⟨front, rest, rfl, hne, hfront, dropUser_append hne hfront⟩)
  · exact Or.inl ⟨hat, dropUser_of_notMem hat⟩

theorem dropUser_suffix (cs : List Char) : dropUser cs <:+ cs := by
  rcases dropUser_cases cs with ⟨-, heq⟩ | ⟨-, heq⟩ | ⟨front, rest, rfl, -, -, heq⟩
  · rw [heq]
  · rw [heq]
  · rw [heq]
    exact ⟨front ++ ['@'], by simp⟩

/-- Nothing is taken for a user exactly if there is no at sign, or one at the beginning. -/
theorem dropUser_eq_self_iff : dropUser cs = cs ↔ ('@' ∈ cs → cs.head? = some '@') := by
  rcases dropUser_cases cs with ⟨hnot, heq⟩ | ⟨hhead, heq⟩ | ⟨front, rest, rfl, hne, hfront, heq⟩
  · exact ⟨fun _ hmem => absurd hmem hnot, fun _ => heq⟩
  · exact ⟨fun _ _ => hhead, fun _ => heq⟩
  · constructor
    · intro hself
      have hlength := congrArg List.length (heq.symm.trans hself)
      rw [List.length_append, List.length_cons] at hlength
      omega
    · intro hhead
      have hat := hhead (List.mem_append_right front List.mem_cons_self)
      rw [List.head?_append_of_ne_nil _ hne] at hat
      exact absurd (List.mem_of_head? hat) hfront

/-- The at signs that are left. -/
theorem count_dropUser (cs : List Char) : (dropUser cs).count '@' =
    if cs.head? = some '@' then cs.count '@' else cs.count '@' - 1 := by
  rcases dropUser_cases cs with ⟨hnot, heq⟩ | ⟨hhead, heq⟩ | ⟨front, rest, rfl, hne, hfront, heq⟩
  · rw [heq, List.count_eq_zero_of_not_mem hnot]
    simp
  · rw [heq, if_pos hhead]
  · have hhead : (front ++ '@' :: rest).head? ≠ some '@' := by
      rw [List.head?_append_of_ne_nil _ hne]
      exact fun hhead => hfront (List.mem_of_head? hhead)
    rw [heq, if_neg hhead, List.count_append, List.count_cons_self,
      List.count_eq_zero_of_not_mem hfront, Nat.zero_add, Nat.add_sub_cancel]

/-! ### The colon -/

theorem slashColon_append (hne : front ≠ []) (h : ∀ c ∈ front, isSeparator c = false) :
    slashColon (front ++ ':' :: rest) = front ++ '/' :: rest := by
  obtain ⟨htake, hdrop⟩ := @takeWhile_of_head front (':' :: rest) (fun c => !isSeparator c)
    (fun c hc => by rw [h c hc]; rfl) fun c hc => by rw [← Option.some.inj hc]; rfl
  obtain ⟨c, cs, rfl⟩ := List.exists_cons_of_ne_nil hne
  rw [slashColon, htake, hdrop]
  rfl

/-- What the colon rule does, by what separates first. -/
theorem slashColon_cases (cs : List Char) :
    (((cs.filter isSeparator).head? = some ':' → cs.head? = some ':') ∧ slashColon cs = cs) ∨
      ∃ front rest, cs = front ++ ':' :: rest ∧ front ≠ [] ∧ (∀ c ∈ front, isSeparator c = false) ∧
        slashColon cs = front ++ '/' :: rest := by
  have hfront : ∀ c ∈ cs.takeWhile (!isSeparator ·), isSeparator c = false :=
    fun c hc => by simpa using List.mem_takeWhile_imp hc
  have hsplit : cs.takeWhile (!isSeparator ·) ++ cs.dropWhile (!isSeparator ·) = cs :=
    List.takeWhile_append_dropWhile
  have hfilter : cs.filter isSeparator = (cs.dropWhile (!isSeparator ·)).filter isSeparator := by
    have hnone : (cs.takeWhile (!isSeparator ·)).filter isSeparator = [] :=
      List.filter_eq_nil_iff.mpr fun c hc => Bool.eq_false_iff.mp (hfront c hc)
    conv_lhs => rw [← hsplit, List.filter_append, hnone, List.nil_append]
  cases hdrop : cs.dropWhile (!isSeparator ·) with
  | nil =>
      refine Or.inl ⟨fun hhead => ?_, ?_⟩
      · rw [hfilter, hdrop] at hhead
        exact nomatch hhead
      · rw [slashColon, hdrop]
        split
        · next heq => exact nomatch heq
        · rfl
  | cons d rest =>
      have hd : isSeparator d = true := by
        have hnot := List.head?_dropWhile_not (!isSeparator ·) cs
        rw [hdrop] at hnot
        simpa using hnot
      rw [hdrop] at hsplit
      by_cases hcolon : d = ':'
      · subst hcolon
        by_cases hne : cs.takeWhile (!isSeparator ·) = []
        · rw [hne] at hsplit
          refine Or.inl ⟨fun _ => by rw [← hsplit]; rfl, ?_⟩
          rw [slashColon, hne]
        · refine Or.inr ⟨_, rest, hsplit.symm, hne, hfront, ?_⟩
          conv_lhs => rw [← hsplit]
          exact slashColon_append hne hfront
      · refine Or.inl ⟨fun hhead => ?_, ?_⟩
        · rw [hfilter, hdrop, List.filter_cons_of_pos hd] at hhead
          exact absurd (Option.some.inj hhead) hcolon
        · rw [slashColon, hdrop]
          split
          · next heq => exact absurd (List.cons.inj heq).1 hcolon
          · rfl

theorem length_slashColon (cs : List Char) : (slashColon cs).length = cs.length := by
  rcases slashColon_cases cs with ⟨-, heq⟩ | ⟨front, rest, rfl, -, -, heq⟩
  · rw [heq]
  · rw [heq, List.length_append, List.length_append]
    rfl

theorem count_slashColon {d : Char} (hcolon : d ≠ ':') (hslash : d ≠ '/') (cs : List Char) :
    (slashColon cs).count d = cs.count d := by
  rcases slashColon_cases cs with ⟨-, heq⟩ | ⟨front, rest, rfl, -, -, heq⟩
  · rw [heq]
  · rw [heq, List.count_append, List.count_append, List.count_cons_of_ne hslash.symm,
      List.count_cons_of_ne hcolon.symm]

/-- The colon rule changes nothing exactly if the first separator is no colon, or stands first. -/
theorem slashColon_eq_self_iff :
    slashColon cs = cs ↔ ((cs.filter isSeparator).head? = some ':' → cs.head? = some ':') := by
  rcases slashColon_cases cs with ⟨hhead, heq⟩ | ⟨front, rest, rfl, hne, hfront, heq⟩
  · exact ⟨fun _ => hhead, fun _ => heq⟩
  · constructor
    · intro hself
      have hcons := List.append_cancel_left (heq.symm.trans hself)
      exact absurd (List.cons.inj hcons).1 (by decide)
    · intro hhead
      have hnone : front.filter isSeparator = [] :=
        List.filter_eq_nil_iff.mpr fun c hc => Bool.eq_false_iff.mp (hfront c hc)
      have hcolon := hhead (by rw [List.filter_append, hnone]; rfl)
      rw [List.head?_append_of_ne_nil _ hne] at hcolon
      exact absurd (hfront ':' (List.mem_of_head? hcolon)) (by decide)

/-- What the rule leaves, it leaves again, and so with what begins it. -/
theorem slashColon_of_prefix (h : ds <+: slashColon cs) : slashColon ds = ds := by
  refine slashColon_eq_self_iff.mpr fun hhead => ?_
  have hne : ds ≠ [] := by
    rintro rfl
    exact nomatch hhead
  obtain ⟨rest, hrest⟩ := h
  have hfirst : ((slashColon cs).filter isSeparator).head? = some ':' := by
    rw [← hrest, List.filter_append, List.head?_append, hhead]
    rfl
  have hstart : (slashColon cs).head? = ds.head? := by
    rw [← hrest, List.head?_append_of_ne_nil _ hne]
  rw [← hstart]
  rcases slashColon_cases cs with ⟨hquiet, heq⟩ | ⟨front, tail, rfl, -, hfront, heq⟩
  · rw [heq] at hfirst ⊢
    exact hquiet hfirst
  · have hnone : front.filter isSeparator = [] :=
      List.filter_eq_nil_iff.mpr fun c hc => Bool.eq_false_iff.mp (hfront c hc)
    rw [heq, List.filter_append, hnone] at hfirst
    exact absurd hfirst (by simp [isSeparator])

/-! ### The schemes -/

theorem dropScheme_cases (cs : List Char) : dropScheme cs = cs ∨
    ∃ scheme, scheme ≠ [] ∧ (∀ c ∈ scheme, isAlphaChar c = true) ∧
      cs = scheme ++ ':' :: '/' :: '/' :: dropScheme cs := by
  rw [dropScheme]
  split
  · next c scheme rest htake hdrop =>
      refine Or.inr ⟨c :: scheme, List.cons_ne_nil _ _, fun x hx => ?_, ?_⟩
      · rw [← htake] at hx
        exact List.mem_takeWhile_imp hx
      · rw [← hdrop, ← htake, List.takeWhile_append_dropWhile]
  · exact Or.inl rfl

theorem foldCase_cases (c : Char) :
    foldCase c = c ∨ (isAlphaChar c = true ∧ Regex.isLowerChar (foldCase c) = true) := by
  by_cases hupper : 'A' ≤ c ∧ c ≤ 'Z'
  · have hletters : ∀ k : Fin 26, Regex.isLowerChar (Char.ofNat (65 + k.val + 32)) = true := by decide
    have hlow : 65 ≤ c.toNat := hupper.1
    have hhigh : c.toNat ≤ 90 := hupper.2
    have hletter := hletters ⟨c.toNat - 65, by omega⟩
    rw [show 65 + (c.toNat - 65) = c.toNat by omega] at hletter
    refine Or.inr ⟨?_, ?_⟩
    · simp [isAlphaChar, Regex.isUpperChar, hupper]
    · rw [foldCase, if_pos hupper]
      exact hletter
  · exact Or.inl (if_neg hupper)

theorem eq_of_foldCase {c d : Char} (hd : isAlphaChar d = false) (h : foldCase c = d) : c = d := by
  rcases foldCase_cases c with heq | ⟨-, hlower⟩
  · exact heq.symm.trans h
  · rw [isAlphaChar, ← h, hlower] at hd
    exact nomatch hd

theorem isAlphaChar_of_foldCase {c d : Char} (hd : isAlphaChar d = true) (h : foldCase c = d) :
    isAlphaChar c = true := by
  rcases foldCase_cases c with heq | ⟨halpha, -⟩
  · rw [← heq, h]
    exact hd
  · exact halpha

theorem dropSsh_cases (cs : List Char) : dropSsh cs = cs ∨
    ∃ scheme, scheme ≠ [] ∧ (∀ c ∈ scheme, isAlphaChar c = true) ∧
      cs = scheme ++ ':' :: '/' :: '/' :: dropSsh cs := by
  rw [dropSsh]
  split
  · next hssh =>
      right
      have hsplit := List.take_append_drop 6 cs
      generalize cs.take 6 = start at hssh hsplit
      rw [show "ssh://".toList = ['s', 's', 'h', ':', '/', '/'] from rfl] at hssh
      simp only [List.map_eq_cons_iff, List.map_eq_nil_iff] at hssh
      obtain ⟨c₁, _, rfl, h₁, c₂, _, rfl, h₂, c₃, _, rfl, h₃, c₄, _, rfl, h₄, c₅, _, rfl, h₅,
        c₆, _, rfl, h₆, rfl⟩ := hssh
      obtain rfl := eq_of_foldCase rfl h₄
      obtain rfl := eq_of_foldCase rfl h₅
      obtain rfl := eq_of_foldCase rfl h₆
      refine ⟨[c₁, c₂, c₃], List.cons_ne_nil _ _, fun c hc => ?_, hsplit.symm⟩
      simp only [List.mem_cons, List.not_mem_nil, or_false] at hc
      rcases hc with rfl | rfl | rfl
      · exact isAlphaChar_of_foldCase rfl h₁
      · exact isAlphaChar_of_foldCase rfl h₂
      · exact isAlphaChar_of_foldCase rfl h₃
  · exact Or.inl rfl

/-- No scheme stands before an at sign or before a single slash. -/
theorem no_scheme {scheme : List Char} (hscheme : ∀ c ∈ scheme, isAlphaChar c = true)
    (hfront : '/' ∉ front)
    (h : cs = front ++ '@' :: rest ∨ (cs = front ++ '/' :: rest ∧ rest.head? ≠ some '/')) :
    cs ≠ scheme ++ ':' :: '/' :: '/' :: ds := by
  rintro rfl
  have hslash : '/' ∉ scheme ++ [':'] := by
    intro hmem
    rcases List.mem_append.mp hmem with hmem | hmem
    · exact absurd (hscheme '/' hmem) (by decide)
    · exact absurd (List.mem_singleton.mp hmem) (by decide)
  rcases h with h | ⟨h, hrest⟩
  · have hsplit : (scheme ++ [':', '/']) ++ '/' :: ds = (front ++ ['@']) ++ rest := by
      simpa using h
    rcases List.append_eq_append_iff.mp hsplit with ⟨tail, htail, -⟩ | ⟨tail, htail, -⟩
    · have hmem : '/' ∈ front ++ ['@'] := by
        rw [htail]
        simp
      exact hfront (by simpa using hmem)
    · have hmem : '@' ∈ scheme ++ [':', '/'] := by
        rw [htail]
        simp
      exact absurd (hscheme '@' (by simpa using hmem)) (by decide)
  · rw [← List.singleton_append, ← List.append_assoc] at h
    obtain ⟨-, rfl⟩ := Text.append_sep_inj hslash hfront h
    exact hrest rfl

end

/-! ### Spellings -/

section
variable {sp : Spelling} {r : Repository}

theorem suffix_plain : ∀ c ∈ sp.suffix, isSpace c = false ∧ c ≠ '@' := by
  intro c hc
  rcases List.mem_append.mp hc with hc | hc
  · have hgit : ∀ c ∈ ".git".toList, isSpace c = false ∧ c ≠ '@' :=
      List.forall_mem_iff_forall_getElem.mpr (by decide)
    split at hc
    · exact hgit c hc
    · exact nomatch hc
  · rw [(List.mem_replicate.mp hc).2]
    decide

theorem authority_cases (sp : Spelling) (r : Repository) :
    (∃ user, sp.form.userinfo = some user ∧
      sp.authority r = user ++ '@' :: (r.host ++ sp.form.separator :: (r.path ++ sp.suffix))) ∨
    (sp.form.userinfo = none ∧ sp.form.separator = '/' ∧
      sp.authority r = r.host ++ '/' :: (r.path ++ sp.suffix)) := by
  rw [Spelling.authority]
  cases hform : sp.form with
  | https credentials =>
      cases credentials with
      | some user => exact Or.inl ⟨user, rfl, by simp [RemoteForm.userinfo]⟩
      | none => exact Or.inr ⟨rfl, rfl, rfl⟩
  | ssh user =>
      cases user with
      | some user => exact Or.inl ⟨user, rfl, by simp [RemoteForm.userinfo]⟩
      | none => exact Or.inr ⟨rfl, rfl, rfl⟩
  | scp user => exact Or.inl ⟨user, rfl, by simp [RemoteForm.userinfo]⟩
  | bare => exact Or.inr ⟨rfl, rfl, rfl⟩

theorem head?_path_suffix : (r.path ++ sp.suffix).head? ≠ some '/' := by
  rw [List.head?_append_of_ne_nil _ r.path_ne]
  exact r.path_head

theorem dropScheme_authority : dropScheme (sp.authority r) = sp.authority r ∧
    dropSsh (sp.authority r) = sp.authority r := by
  have hnone : ∀ scheme rest : List Char, (∀ c ∈ scheme, isAlphaChar c = true) →
      sp.authority r ≠ scheme ++ ':' :: '/' :: '/' :: rest := by
    intro scheme rest hscheme
    rcases authority_cases sp r with ⟨user, huser, heq⟩ | ⟨-, -, heq⟩
    · refine no_scheme hscheme (fun hmem => ?_) (Or.inl heq)
      exact (sp.userinfo_plain user huser '/' hmem).1 rfl
    · refine no_scheme hscheme (fun hmem => ?_) (Or.inr ⟨heq, head?_path_suffix⟩)
      exact (r.host_plain '/' hmem).1 rfl
  constructor
  · rcases dropScheme_cases (sp.authority r) with heq | ⟨scheme, -, hscheme, heq⟩
    · exact heq
    · exact absurd heq (hnone scheme _ hscheme)
  · rcases dropSsh_cases (sp.authority r) with heq | ⟨scheme, -, hscheme, heq⟩
    · exact heq
    · exact absurd heq (hnone scheme _ hscheme)

theorem trimChars_text : trimChars (sp.text r) = sp.text r := by
  have hhost : ∀ c, r.host.head? = some c → isSpace c = false :=
    fun c hc => (r.host_plain c (List.mem_of_head? hc)).2.2
  refine Text.trimWith_of_ends (fun c hc => ?_) fun c hc => ?_
  · have hauthority : ∀ c, (sp.authority r).head? = some c → isSpace c = false := by
      intro c hc
      rcases authority_cases sp r with ⟨user, huser, heq⟩ | ⟨-, -, heq⟩
      · rw [heq] at hc
        cases user with
        | nil =>
            obtain rfl := Option.some.inj hc
            rfl
        | cons x user =>
            obtain rfl := Option.some.inj hc
            exact (sp.userinfo_plain _ huser x List.mem_cons_self).2
      · rw [heq, List.head?_append_of_ne_nil _ r.host_ne] at hc
        exact hhost c hc
    rw [Spelling.text] at hc
    cases hform : sp.form with
    | https credentials =>
        rw [hform] at hc
        obtain rfl := Option.some.inj hc
        rfl
    | ssh user =>
        rw [hform] at hc
        obtain rfl := Option.some.inj hc
        rfl
    | scp user =>
        rw [hform] at hc
        exact hauthority c hc
    | bare =>
        rw [hform] at hc
        exact hauthority c hc
  · have hend : ∃ front, sp.text r = front ++ (r.path ++ sp.suffix) := by
      rw [Spelling.text]
      rcases authority_cases sp r with ⟨user, -, heq⟩ | ⟨-, -, heq⟩
      · exact ⟨sp.form.scheme ++ (user ++ '@' :: (r.host ++ [sp.form.separator])), by simp [heq]⟩
      · exact ⟨sp.form.scheme ++ (r.host ++ ['/']), by simp [heq]⟩
    obtain ⟨front, hfront⟩ := hend
    have hne : r.path ++ sp.suffix ≠ [] := List.append_ne_nil_of_left_ne_nil r.path_ne _
    rw [hfront, List.getLast?_append_of_ne_nil _ hne] at hc
    by_cases hsuffix : sp.suffix = []
    · rw [hsuffix, List.append_nil] at hc
      exact (r.path_last c hc).2
    · rw [List.getLast?_append_of_ne_nil _ hsuffix] at hc
      exact (suffix_plain c (List.mem_of_getLast? hc)).1

theorem dropSsh_https (cs : List Char) :
    dropSsh ("https://".toList ++ cs) = "https://".toList ++ cs := rfl

theorem dropScheme_https (cs : List Char) : dropScheme ("https://".toList ++ cs) = cs := rfl

theorem dropSsh_ssh (cs : List Char) : dropSsh ("ssh://".toList ++ cs) = cs := rfl

theorem withoutUser_text : withoutUser (sp.text r) = dropUser (sp.authority r) := by
  have htrim := @trimChars_text sp r
  obtain ⟨hscheme, hssh⟩ := @dropScheme_authority sp r
  rw [withoutUser, htrim, Spelling.text]
  generalize sp.authority r = cs at hscheme hssh ⊢
  refine congrArg dropUser ?_
  generalize hform : sp.form = form
  cases form with
  | https credentials => exact (congrArg dropScheme (dropSsh_https cs)).trans (dropScheme_https cs)
  | ssh user => exact (congrArg dropScheme (dropSsh_ssh cs)).trans hscheme
  | scp user => exact (congrArg dropScheme hssh).trans hscheme
  | bare => exact (congrArg dropScheme hssh).trans hscheme

/-- What is left of a spelling with a sound user. -/
theorem dropUser_authority (h : AtSound sp r) :
    dropUser (sp.authority r) = r.host ++ sp.form.separator :: (r.path ++ sp.suffix) := by
  rw [AtSound] at h
  rcases authority_cases sp r with ⟨user, huser, heq⟩ | ⟨hnone, hslash, heq⟩
  · rw [huser] at h
    rw [heq]
    exact dropUser_append h.1 h.2
  · rw [hnone] at h
    rw [heq, hslash]
    refine dropUser_of_notMem fun hmem => ?_
    rcases List.mem_append.mp hmem with hmem | hmem
    · exact (r.host_plain '@' hmem).2.1 rfl
    · rcases List.mem_cons.mp hmem with heq | hmem
      · exact absurd heq (by decide)
      · rcases List.mem_append.mp hmem with hmem | hmem
        · exact h hmem
        · exact (suffix_plain '@' hmem).2 rfl

/-- The at signs of what is left are those of the path exactly if the user is sound. -/
theorem count_dropUser_authority :
    (dropUser (sp.authority r)).count '@' = r.path.count '@' ↔ AtSound sp r := by
  have hhost : r.host.count '@' = 0 :=
    List.count_eq_zero_of_not_mem fun hmem => (r.host_plain '@' hmem).2.1 rfl
  have hsuffix : sp.suffix.count '@' = 0 :=
    List.count_eq_zero_of_not_mem fun hmem => (suffix_plain '@' hmem).2 rfl
  have hseparator : (sp.form.separator == '@') = false := by
    cases sp.form with
    | https credentials => rfl
    | ssh user => rfl
    | scp user => rfl
    | bare => rfl
  rw [count_dropUser, AtSound]
  rcases authority_cases sp r with ⟨user, huser, heq⟩ | ⟨hnone, hslash, heq⟩
  · rw [huser, heq]
    have hcount : (user ++ '@' :: (r.host ++ sp.form.separator :: (r.path ++ sp.suffix))).count '@' =
        user.count '@' + r.path.count '@' + 1 := by
      simp [List.count_append, List.count_cons, hhost, hsuffix, hseparator]
      omega
    rw [hcount]
    cases user with
    | nil => simp
    | cons x user =>
        by_cases hx : x = '@'
        · subst hx
          simp
          omega
        · rw [List.cons_append, List.head?_cons, if_neg (by simpa using hx)]
          simp [List.count_eq_zero, Ne.symm hx]
  · have hhead : (r.host ++ '/' :: (r.path ++ sp.suffix)).head? ≠ some '@' := by
      rw [List.head?_append_of_ne_nil _ r.host_ne]
      exact fun hhead => (r.host_plain '@' (List.mem_of_head? hhead)).2.1 rfl
    rw [hnone, heq, if_neg hhead]
    simp [List.count_append, hhost, hsuffix, ← List.count_eq_zero]
    omega

end

theorem IsGit.letters (h : IsGit git) : ∃ c₁ c₂ c₃ c₄, git = [c₁, c₂, c₃, c₄] ∧
    foldCase c₁ = '.' ∧ foldCase c₂ = 'g' ∧ foldCase c₃ = 'i' ∧ foldCase c₄ = 't' := by
  rw [IsGit, show ".git".toList = ['.', 'g', 'i', 't'] from rfl] at h
  simp only [List.map_eq_cons_iff, List.map_eq_nil_iff] at h
  obtain ⟨c₁, _, rfl, h₁, c₂, _, rfl, h₂, c₃, _, rfl, h₃, c₄, _, rfl, h₄, rfl⟩ := h
  exact ⟨c₁, c₂, c₃, c₄, rfl, h₁, h₂, h₃, h₄⟩

/-- A dot and three letters. -/
theorem IsGit.cases (h : IsGit git) :
    ∃ letters, git = '.' :: letters ∧ ∀ c ∈ letters, isAlphaChar c = true := by
  obtain ⟨c₁, c₂, c₃, c₄, rfl, h₁, h₂, h₃, h₄⟩ := h.letters
  obtain rfl := eq_of_foldCase rfl h₁
  refine ⟨[c₂, c₃, c₄], rfl, fun c hc => ?_⟩
  simp only [List.mem_cons, List.not_mem_nil, or_false] at hc
  rcases hc with rfl | rfl | rfl
  · exact isAlphaChar_of_foldCase rfl h₂
  · exact isAlphaChar_of_foldCase rfl h₃
  · exact isAlphaChar_of_foldCase rfl h₄

variable {c : Char}

theorem isAlphaChar_plain (h : isAlphaChar c = true) :
    isSpace c = false ∧ c ≠ '@' ∧ c ≠ '/' ∧ c ≠ '.' := by
  have hne : ∀ d, isAlphaChar d = false → c ≠ d := by
    rintro d hd rfl
    exact Bool.false_ne_true (hd.symm.trans h)
  refine ⟨?_, hne '@' rfl, hne '/' rfl, hne '.' rfl⟩
  have hrange : (97 ≤ c.toNat ∧ c.toNat ≤ 122) ∨ (65 ≤ c.toNat ∧ c.toNat ≤ 90) := by
    simp only [isAlphaChar, Regex.isLowerChar, Regex.isUpperChar, Bool.or_eq_true, Bool.and_eq_true,
      decide_eq_true_eq] at h
    exact h
  simp only [isSpace, Bool.or_eq_false_iff, decide_eq_false_iff_not, beq_eq_false_iff_ne]
  omega

theorem IsGit.plain (h : IsGit git) :
    ∀ c ∈ git, isSpace c = false ∧ c ≠ '@' ∧ c ≠ '/' := by
  obtain ⟨letters, rfl, hletters⟩ := h.cases
  intro c hc
  rcases List.mem_cons.mp hc with rfl | hc
  · decide
  · obtain ⟨hspace, hat, hslash, -⟩ := isAlphaChar_plain (hletters c hc)
    exact ⟨hspace, hat, hslash⟩

theorem IsGit.count_dot (h : IsGit git) : git.count '.' = 1 := by
  obtain ⟨letters, rfl, hletters⟩ := h.cases
  rw [List.count_cons_self, List.count_eq_zero_of_not_mem]
  exact fun hmem => (isAlphaChar_plain (hletters '.' hmem)).2.2.2 rfl

theorem endsGit_of_slash {cs : List Char} (h : cs.getLast? = some '/') : endsGit cs = false := by
  refine Bool.eq_false_iff.mpr fun hgit => ?_
  obtain ⟨front, git, rfl, hisGit⟩ := endsGit_iff.mp hgit
  have hne : git ≠ [] := by
    rintro rfl
    exact nomatch hisGit.length_eq
  rw [List.getLast?_append_of_ne_nil _ hne] at h
  exact (hisGit.plain '/' (List.mem_of_getLast? h)).2.2 rfl

section
variable {sp : Spelling} {r : Repository}

theorem endsGit_name (r : Repository) : endsGit r.name = endsGit r.path := by
  refine Bool.eq_iff_iff.mpr ⟨fun h => ?_, fun h => ?_⟩
  · obtain ⟨front, git, heq, hisGit⟩ := endsGit_iff.mp h
    have hslash : '/' ∉ git := fun hmem => (hisGit.plain '/' hmem).2.2 rfl
    rw [Repository.name, ← List.singleton_append, ← List.append_assoc] at heq
    rcases List.append_eq_append_iff.mp heq with ⟨tail, -, htail⟩ | ⟨tail, htail, hgit⟩
    · exact endsGit_iff.mpr ⟨tail, git, htail, hisGit⟩
    · cases htail' : tail using List.reverseRecOn with
      | nil =>
          rw [htail', List.nil_append] at hgit
          exact endsGit_iff.mpr ⟨[], git, hgit.symm, hisGit⟩
      | append_singleton tail' c =>
          rw [htail', ← List.append_assoc] at htail
          obtain ⟨-, hlast⟩ := List.append_inj' htail rfl
          obtain rfl := (List.cons.inj hlast).1
          rw [hgit, htail'] at hslash
          exact absurd (by simp) hslash
  · obtain ⟨front, git, heq, hisGit⟩ := endsGit_iff.mp h
    exact endsGit_iff.mpr ⟨r.host ++ '/' :: front, git, by simp [Repository.name, heq], hisGit⟩

theorem getLast?_name (r : Repository) : r.name.getLast? ≠ some '/' := by
  rw [Repository.name, List.getLast?_append_of_ne_nil _ (List.cons_ne_nil _ _),
    ← List.singleton_append, List.getLast?_append_of_ne_nil _ r.path_ne]
  exact fun hlast => (r.path_last '/' hlast).1 rfl

theorem slashColon_host (h : ':' ∉ r.host) (rest : List Char) :
    slashColon (r.host ++ sp.form.separator :: rest) = r.host ++ '/' :: rest := by
  have hplain : ∀ c ∈ r.host, isSeparator c = false := by
    intro c hc
    have hcolon : c ≠ ':' := fun heq => h (heq ▸ hc)
    simp [isSeparator, hcolon, (r.host_plain c hc).1]
  have hslash : slashColon (r.host ++ '/' :: rest) = r.host ++ '/' :: rest := by
    refine slashColon_eq_self_iff.mpr fun hhead => ?_
    have hnone : r.host.filter isSeparator = [] :=
      List.filter_eq_nil_iff.mpr fun c hc => Bool.eq_false_iff.mp (hplain c hc)
    rw [List.filter_append, hnone] at hhead
    exact absurd hhead (by simp [isSeparator])
  cases sp.form with
  | https credentials => exact hslash
  | ssh user => exact hslash
  | scp user => exact slashColon_append r.host_ne hplain
  | bare => exact hslash

/-- **A well-spelled remote is rewritten to host and path.** -/
theorem rewritten_text (h : WellSpelled sp r) : rewritten (sp.text r) = r.name := by
  have hbody : slashColon (withoutUser (sp.text r)) = r.name ++ sp.suffix := by
    rw [withoutUser_text, dropUser_authority h.user, slashColon_host h.colon]
    simp [Repository.name]
  have hlast := getLast?_name r
  have hsuffix := h.suffix
  rw [rewritten, hbody, Spelling.suffix]
  split at hsuffix
  · next hzero =>
      have hself : dropSlashes r.name = r.name := by
        have hdrop := dropSlashes_append hlast 0
        rwa [List.replicate_zero, List.append_nil] at hdrop
      rw [hzero, List.replicate_zero, List.append_nil]
      cases hdot : sp.dotGit with
      | true => rw [if_pos rfl, dropGit_append (show IsGit ".git".toList from rfl), hself]
      | false =>
          have hnot : endsGit r.name = false := by
            rw [endsGit_name]
            exact hsuffix.resolve_left (by simp [hdot])
          rw [if_neg Bool.false_ne_true, List.append_nil, dropGit_of_not hnot, hself]
  · next hpos =>
      obtain ⟨k, hk⟩ := Nat.exists_eq_succ_of_ne_zero hpos
      have hend : endsGit (r.name ++ List.replicate sp.slashes '/') = false := by
        refine endsGit_of_slash ?_
        rw [hk, List.replicate_succ', ← List.append_assoc, List.getLast?_concat]
      rw [hsuffix, if_neg Bool.false_ne_true, List.nil_append, dropGit_of_not hend]
      exact dropSlashes_append hlast _

/-- Characters that the rules look for, and white space. -/
def isMark (c : Char) : Bool := c = '.' || c = '/' || c = ':' || c = '@' || isSpace c

/-- What is rewritten to the marks of host and path is well spelled. -/
theorem wellSpelled_of_filter
    (h : (rewritten (sp.text r)).filter isMark = r.name.filter isMark) : WellSpelled sp r := by
  have hcount : ∀ c, isMark c = true → (rewritten (sp.text r)).count c = r.name.count c := by
    intro c hc
    rw [← List.count_filter hc, h, List.count_filter hc]
  obtain ⟨k, git, hclosing, hgit⟩ := exists_closing (slashColon (withoutUser (sp.text r)))
  have hrewritten : slashColon (withoutUser (sp.text r)) =
      rewritten (sp.text r) ++ (List.replicate k '/' ++ git) := hclosing
  have hplain : ∀ c ∈ List.replicate k '/' ++ git, c ≠ '@' := by
    intro c hc
    rcases List.mem_append.mp hc with hc | hc
    · rw [(List.mem_replicate.mp hc).2]
      decide
    · rcases hgit with ⟨rfl, -⟩ | hgit
      · exact nomatch hc
      · exact (hgit.plain c hc).2.1
  have huser : AtSound sp r := by
    have hat := hcount '@' rfl
    have hnone : (List.replicate k '/' ++ git).count '@' = 0 :=
      List.count_eq_zero_of_not_mem fun hmem => hplain '@' hmem rfl
    have hhost : r.host.count '@' = 0 :=
      List.count_eq_zero_of_not_mem fun hmem => (r.host_plain '@' hmem).2.1 rfl
    have hbody := congrArg (List.count '@') hrewritten
    rw [count_slashColon (by decide) (by decide), List.count_append, hnone, hat, withoutUser_text,
      Repository.name, List.count_append, List.count_cons_of_ne (by decide), hhost] at hbody
    exact count_dropUser_authority.mp (by simpa using hbody)
  rw [withoutUser_text, dropUser_authority huser] at hrewritten
  have hcolon : ':' ∉ r.host := by
    intro hmem
    obtain ⟨front, rest, hhost, hfront⟩ := List.eq_append_cons_of_mem hmem
    have hne : front ≠ [] := by
      rintro rfl
      exact r.host_head (by rw [hhost]; rfl)
    have hfront_plain : ∀ c ∈ front, isSeparator c = false := by
      intro c hc
      have hslash := (r.host_plain c (by rw [hhost]; exact List.mem_append_left _ hc)).1
      have hnot : c ≠ ':' := fun heq => hfront (heq ▸ hc)
      simp [isSeparator, hslash, hnot]
    -- the marks of what is left go on with a slash where those of the host go on with a colon
    rw [hhost, List.append_assoc, List.cons_append, slashColon_append hne hfront_plain] at hrewritten
    have hmarks := congrArg (List.filter isMark) hrewritten
    rw [List.filter_append, List.filter_append, h, Repository.name, hhost, List.filter_append,
      List.filter_append, List.append_assoc, List.append_assoc] at hmarks
    have hnext := List.append_cancel_left hmarks
    rw [List.filter_cons_of_pos (by decide), List.filter_cons_of_pos (by decide)] at hnext
    exact absurd (List.cons.inj hnext).1 (by decide)
  rw [slashColon_host hcolon] at hrewritten
  have hname : r.name ++ sp.suffix = rewritten (sp.text r) ++ (List.replicate k '/' ++ git) := by
    rw [← hrewritten, Repository.name, List.append_assoc]
    rfl
  have hdots : sp.suffix.count '.' = git.count '.' := by
    have hdot := congrArg (List.count '.') hname
    rw [List.count_append, List.count_append, List.count_append, hcount '.' rfl] at hdot
    simpa [List.count_replicate] using hdot
  refine ⟨hcolon, huser, ?_⟩
  have hends : endsGit (slashColon (withoutUser (sp.text r))) = endsGit (r.name ++ sp.suffix) := by
    rw [withoutUser_text, dropUser_authority huser, slashColon_host hcolon, Repository.name,
      List.append_assoc]
    rfl
  split
  · next hzero =>
      cases hdot : sp.dotGit with
      | true => exact Or.inl rfl
      | false =>
          have hnil : sp.suffix = [] := by simp [Spelling.suffix, hdot, hzero]
          rcases hgit with ⟨-, hnot⟩ | hgit
          · rw [hends, hnil, List.append_nil, endsGit_name] at hnot
            exact Or.inr hnot
          · rw [hnil, hgit.count_dot] at hdots
            exact absurd hdots (by decide)
  · next hpos =>
      refine Bool.eq_false_iff.mpr fun hdot => ?_
      have hone : sp.suffix.count '.' = 1 := by simp [Spelling.suffix, hdot, List.count_replicate]
      rcases hgit with ⟨rfl, -⟩ | hgit
      · rw [hone] at hdots
        exact absurd hdots (by decide)
      · obtain ⟨n, hn⟩ := Nat.exists_eq_succ_of_ne_zero hpos
        have hslash : (r.name ++ sp.suffix).getLast? = some '/' := by
          rw [Spelling.suffix, hn, List.replicate_succ', ← List.append_assoc, ← List.append_assoc,
            List.getLast?_concat]
        have hend := endsGit_iff.mpr ⟨_, git, hname.trans (List.append_assoc ..).symm, hgit⟩
        rw [endsGit_of_slash hslash] at hend
        exact nomatch hend

end

/-! ### Lower case -/

/-- What the rules look for is lower-cased as it should be, and lower case is left as it is. -/
structure PlainCase (u : Unicode) : Prop where
  marks : u.Marks isMark
  letters : ∀ x ∈ ".git".toList, u.Ends x
  stable : u.Stable
  cased : u.cased '/' = false
  caseIgnorable : u.caseIgnorable '/' = false

/-- A text in lower case. -/
def lowered (u : Unicode) (cs : List Char) : List Char := u.lowerFrom [] cs

/-- Two repositories that differ at most in the case of letters. -/
def SameRepository (u : Unicode) (r r' : Repository) : Prop :=
  lowered u r.host = lowered u r'.host ∧ lowered u r.path = lowered u r'.path

variable {r r' : Repository}

section
variable {u : Unicode}

theorem normalizeGitRemoteUrl_eq (u : Unicode) (cs : List Char) :
    normalizeGitRemoteUrl u (String.ofList cs) = String.ofList (lowered u (rewritten cs)) := by
  rw [normalizeGitRemoteUrl, Unicode.toLowerCase, String.toList_ofList, String.toList_ofList]
  rfl

/-- Host and path are lower-cased apart. -/
theorem lowered_name (hu : PlainCase u) (r : Repository) :
    lowered u r.name = lowered u r.host ++ '/' :: lowered u r.path := by
  have hslash : ∀ cs, u.casedNext ('/' :: cs) = false := by
    intro cs
    rw [Unicode.casedNext, hu.caseIgnorable, hu.cased]
    rfl
  have hhost := @Unicode.lowerFrom_append u [] _ rfl (hslash r.path) [] r.host
  have hpath := Unicode.lowerFrom_append (u := u) (hslash r.host.reverse) (show u.casedNext [] = false from rfl)
    [] r.path
  rw [List.append_nil, List.append_nil] at hhost
  rw [List.append_nil, Unicode.lowerFrom, List.append_nil, List.nil_append] at hpath
  rw [lowered, Repository.name, hhost, Unicode.lowerFrom, hpath, hu.marks.own '/' rfl]
  rfl

theorem lowered_name_inj (hu : PlainCase u) :
    lowered u r.name = lowered u r'.name ↔ SameRepository u r r' := by
  have hslash : ∀ r : Repository, '/' ∉ lowered u r.host := by
    intro r hmem
    exact (r.host_plain '/' ((hu.marks.mem_iff Unicode.lowers_lowerFrom rfl).mp hmem)).1 rfl
  rw [lowered_name hu, lowered_name hu]
  constructor
  · exact fun h => Text.append_sep_inj (hslash r) (hslash r') h
  · rintro ⟨hhost, hpath⟩
    rw [hhost, hpath]

/-- **A spelling is normalized to host and path exactly if it is well spelled.** -/
theorem normalized_text_iff (hu : PlainCase u) {sp : Spelling} {r : Repository} :
    normalizeGitRemoteUrl u (String.ofList (sp.text r)) = String.ofList (lowered u r.name) ↔
      WellSpelled sp r := by
  rw [normalizeGitRemoteUrl_eq, String.ofList_inj]
  constructor
  · intro h
    have hleft := hu.marks.filter_eq (@Unicode.lowers_lowerFrom u (rewritten (sp.text r)) [])
    have hright := hu.marks.filter_eq (@Unicode.lowers_lowerFrom u r.name [])
    refine wellSpelled_of_filter (hleft.symm.trans (Eq.trans ?_ hright))
    exact congrArg (List.filter isMark) h
  · intro h
    rw [rewritten_text h]

end

/-! ### Normalizing again -/

section
variable {cs w : List Char} {u : Unicode}

theorem dropScheme_suffix (cs : List Char) : dropScheme cs <:+ cs := by
  rcases dropScheme_cases cs with heq | ⟨scheme, -, -, heq⟩
  · rw [heq]
  · refine ⟨scheme ++ [':', '/', '/'], ?_⟩
    rw [List.append_assoc]
    exact heq.symm

theorem dropSsh_suffix (cs : List Char) : dropSsh cs <:+ cs := by
  rcases dropSsh_cases cs with heq | ⟨scheme, -, -, heq⟩
  · rw [heq]
  · refine ⟨scheme ++ [':', '/', '/'], ?_⟩
    rw [List.append_assoc]
    exact heq.symm

theorem withoutUser_suffix (cs : List Char) : withoutUser cs <:+ trimChars cs :=
  (dropUser_suffix _).trans ((dropScheme_suffix _).trans (dropSsh_suffix _))

theorem isPrefix_rewritten (cs : List Char) : rewritten cs <+: slashColon (withoutUser cs) := by
  obtain ⟨k, git, hclosing, -⟩ := exists_closing (slashColon (withoutUser cs))
  exact ⟨_, hclosing.symm⟩

/-- A scheme ends in a colon that would be read as a slash. -/
theorem slashColon_scheme {scheme rest : List Char} (hne : scheme ≠ [])
    (hscheme : ∀ c ∈ scheme, isAlphaChar c = true) :
    slashColon (scheme ++ ':' :: rest) ≠ scheme ++ ':' :: rest := by
  have hplain : ∀ c ∈ scheme, isSeparator c = false := by
    intro c hc
    have hcolon : c ≠ ':' := by
      rintro rfl
      exact absurd (hscheme ':' hc) (by decide)
    simp [isSeparator, hcolon, (isAlphaChar_plain (hscheme c hc)).2.2.1]
  rw [slashColon_append hne hplain]
  intro heq
  exact absurd (List.cons.inj (List.append_cancel_left heq)).1 (by decide)

/-- What the rules leave as it is. -/
theorem rewritten_eq_self_iff : rewritten cs = cs ↔
    (∀ c, cs.head? = some c → isSpace c = false) ∧ (∀ c, cs.getLast? = some c → isSpace c = false) ∧
      ('@' ∈ cs → cs.head? = some '@') ∧ slashColon cs = cs ∧ endsGit cs = false ∧
      cs.getLast? ≠ some '/' := by
  constructor
  · intro h
    -- no rule makes the text longer, so that none makes it shorter
    have hfront := isPrefix_rewritten cs
    have hlength := hfront.length_le
    rw [h, length_slashColon] at hlength
    obtain ⟨front, back, -, -, htrim⟩ := Text.exists_trimWith (p := isSpace) cs
    have htotal := congrArg List.length htrim
    rw [List.length_append, List.length_append] at htotal
    have hsuffix := (withoutUser_suffix cs).length_le
    have hsame : trimChars cs = cs := by
      have hfront : front = [] := List.eq_nil_of_length_eq_zero (by rw [Text.trimChars_eq] at hsuffix; omega)
      have hback : back = [] := List.eq_nil_of_length_eq_zero (by rw [Text.trimChars_eq] at hsuffix; omega)
      rw [hfront, hback, List.nil_append, List.append_nil] at htrim
      exact htrim.symm
    have hends := Text.trimWith_ends isSpace cs
    rw [← Text.trimChars_eq, hsame] at hends
    have hssh : dropSsh cs = cs := by
      refine (dropSsh_suffix cs).eq_of_length_le ?_
      have hle := ((dropUser_suffix _).trans (dropScheme_suffix (dropSsh cs))).length_le
      rw [withoutUser, hsame] at hlength
      omega
    have hscheme : dropScheme cs = cs := by
      refine (dropScheme_suffix cs).eq_of_length_le ?_
      have hle := (dropUser_suffix (dropScheme cs)).length_le
      rw [withoutUser, hsame, hssh] at hlength
      omega
    have huser : dropUser cs = cs := by
      refine (dropUser_suffix cs).eq_of_length_le ?_
      rw [withoutUser, hsame, hssh, hscheme] at hlength
      exact hlength
    have hwithout : withoutUser cs = cs := by rw [withoutUser, hsame, hssh, hscheme, huser]
    have hcolon : slashColon cs = cs := by
      rw [hwithout, h] at hfront
      exact (hfront.eq_of_length (length_slashColon cs).symm).symm
    obtain ⟨k, git, hclosing, hgit⟩ := exists_closing (slashColon (withoutUser cs))
    have hlast : cs.getLast? ≠ some '/' := by
      rw [← h]
      exact getLast?_dropSlashes _
    refine ⟨hends.1, hends.2, dropUser_eq_self_iff.mp huser, hcolon, ?_, hlast⟩
    rw [show dropSlashes (dropGit (slashColon (withoutUser cs))) = cs from h, hwithout, hcolon] at hclosing
    obtain ⟨-, hnil⟩ := List.append_eq_nil_iff.mp (List.self_eq_append_right.mp hclosing)
    rcases hgit with ⟨-, hnot⟩ | hgit
    · rwa [hwithout, hcolon] at hnot
    · exact absurd hgit.count_dot (by rw [hnil]; decide)
  · rintro ⟨hhead, hlast, hat, hcolon, hgit, hslash⟩
    have htrim : trimChars cs = cs := Text.trimWith_of_ends hhead hlast
    have hssh : dropSsh cs = cs := by
      rcases dropSsh_cases cs with heq | ⟨scheme, hne, hscheme, heq⟩
      · exact heq
      · rw [heq] at hcolon
        exact absurd hcolon (slashColon_scheme hne hscheme)
    have hscheme : dropScheme cs = cs := by
      rcases dropScheme_cases cs with heq | ⟨scheme, hne, hscheme, heq⟩
      · exact heq
      · rw [heq] at hcolon
        exact absurd hcolon (slashColon_scheme hne hscheme)
    have hself := dropSlashes_append hslash 0
    rw [List.replicate_zero, List.append_nil] at hself
    rw [rewritten, withoutUser, htrim, hssh, hscheme, dropUser_eq_self_iff.mpr hat, hcolon,
      dropGit_of_not hgit, hself]

/-- Lower case ends in `.git` exactly if the text does, in either case. -/
theorem endsGit_lowers (hu : PlainCase u) (hw : u.Lowers cs w) : endsGit w = endsGit cs := by
  have hne : ∀ c, u.lower c ≠ [] := by
    intro c hnil
    cases hc : isMark c with
    | true =>
        rw [hu.marks.own c hc] at hnil
        exact nomatch hnil
    | false => exact (hu.marks.others c hc).1 hnil
  have hdot := hu.letters '.' (by decide)
  have hg := hu.letters 'g' (by decide)
  have hi := hu.letters 'i' (by decide)
  have ht := hu.letters 't' (by decide)
  have hlower : endsGit w = true ↔ ∃ front, w = front ++ ['.'] ++ ['g'] ++ ['i'] ++ ['t'] := by
    constructor
    · intro h
      obtain ⟨front, git, rfl, hgit⟩ := endsGit_iff.mp h
      have hown : ∀ {c x}, c ∈ git → u.Ends x → foldCase c = x → c = x := by
        intro c x hc hx hfold
        have hstable := (hu.stable.of_mem hw (List.mem_append_right _ hc)).2
        rw [hx.own c hfold] at hstable
        exact (List.cons.inj hstable).1.symm
      obtain ⟨c₁, c₂, c₃, c₄, rfl, h₁, h₂, h₃, h₄⟩ := hgit.letters
      refine ⟨front, ?_⟩
      rw [hown (by simp) hdot h₁, hown (by simp) hg h₂, hown (by simp) hi h₃, hown (by simp) ht h₄]
      simp
    · rintro ⟨front, rfl⟩
      exact endsGit_iff.mpr ⟨front, ".git".toList, by simp, rfl⟩
  refine Bool.eq_iff_iff.mpr (hlower.trans ?_)
  constructor
  · rintro ⟨front, rfl⟩
    obtain ⟨cs₄, c₄, rfl, h₄, hw⟩ := (ht.lowers_concat_iff hne).mp hw
    obtain ⟨cs₃, c₃, rfl, h₃, hw⟩ := (hi.lowers_concat_iff hne).mp hw
    obtain ⟨cs₂, c₂, rfl, h₂, hw⟩ := (hg.lowers_concat_iff hne).mp hw
    obtain ⟨cs₁, c₁, rfl, h₁, -⟩ := (hdot.lowers_concat_iff hne).mp hw
    refine endsGit_iff.mpr ⟨cs₁, [c₁, c₂, c₃, c₄], by simp, ?_⟩
    simp [IsGit, h₁, h₂, h₃, h₄]
  · intro h
    obtain ⟨front, git, rfl, hgit⟩ := endsGit_iff.mp h
    obtain ⟨c₁, c₂, c₃, c₄, rfl, h₁, h₂, h₃, h₄⟩ := hgit.letters
    have hsplit : front ++ [c₁, c₂, c₃, c₄] = front ++ [c₁] ++ [c₂] ++ [c₃] ++ [c₄] := by simp
    rw [hsplit] at hw
    obtain ⟨w₃, rfl, hw₃⟩ := ht.exists_of_concat h₄ hw
    obtain ⟨w₂, rfl, hw₂⟩ := hi.exists_of_concat h₃ hw₃
    obtain ⟨w₁, rfl, hw₁⟩ := hg.exists_of_concat h₂ hw₂
    obtain ⟨w₀, rfl, -⟩ := hdot.exists_of_concat h₁ hw₁
    exact ⟨w₀, rfl⟩

/-- The rules leave a text as it is exactly if they leave its lower case. -/
theorem rewritten_lowers (hu : PlainCase u) (hw : u.Lowers cs w) :
    rewritten w = w ↔ rewritten cs = cs := by
  have hspace : ∀ {c}, isSpace c = true → isMark c = true := by
    intro c hc
    simp [isMark, hc]
  have hseparator : w.filter isSeparator = cs.filter isSeparator := by
    have hmarks : ∀ xs : List Char, (xs.filter isMark).filter isSeparator = xs.filter isSeparator := by
      intro xs
      rw [List.filter_filter]
      refine List.filter_congr fun c _ => ?_
      cases hc : isSeparator c with
      | true =>
          have hmark : isMark c = true := by
            simp only [isSeparator, Bool.or_eq_true, decide_eq_true_eq] at hc
            rcases hc with rfl | rfl
            · rfl
            · rfl
          rw [hmark]
          rfl
      | false => rfl
    rw [← hmarks w, hu.marks.filter_eq hw, hmarks]
  rw [rewritten_eq_self_iff, rewritten_eq_self_iff]
  refine and_congr ?_ (and_congr ?_ (and_congr ?_ (and_congr ?_ (and_congr ?_ ?_))))
  · refine forall_congr' fun c => ?_
    cases hc : isSpace c with
    | true => rw [hu.marks.head?_iff hw (hspace hc)]
    | false => simp
  · refine forall_congr' fun c => ?_
    cases hc : isSpace c with
    | true => rw [hu.marks.getLast?_iff hw (hspace hc)]
    | false => simp
  · rw [hu.marks.mem_iff hw rfl, hu.marks.head?_iff hw rfl]
  · rw [slashColon_eq_self_iff, slashColon_eq_self_iff, hseparator, hu.marks.head?_iff hw rfl]
  · rw [endsGit_lowers hu hw]
  · rw [ne_eq, ne_eq, hu.marks.getLast?_iff hw rfl]

/-- The rules bring no character but a slash. -/
theorem mem_of_mem_rewritten (h : c ∈ rewritten cs) : c ∈ cs ∨ c = '/' := by
  have hcolon := (isPrefix_rewritten cs).subset h
  have hwithout : ∀ c ∈ withoutUser cs, c ∈ cs := by
    intro c hc
    obtain ⟨front, back, -, -, htrim⟩ := Text.exists_trimWith (p := isSpace) cs
    rw [htrim]
    refine List.mem_append_right _ (List.mem_append_left _ ?_)
    exact (withoutUser_suffix cs).subset hc
  rcases slashColon_cases (withoutUser cs) with ⟨-, heq⟩ | ⟨front, rest, hsplit, -, -, heq⟩
  · rw [heq] at hcolon
    exact Or.inl (hwithout c hcolon)
  · rw [heq] at hcolon
    rcases List.mem_append.mp hcolon with hc | hc
    · exact Or.inl (hwithout c (by rw [hsplit]; exact List.mem_append_left _ hc))
    · rcases List.mem_cons.mp hc with rfl | hc
      · exact Or.inr rfl
      · refine Or.inl (hwithout c ?_)
        rw [hsplit]
        exact List.mem_append_right _ (List.mem_cons_of_mem _ hc)

theorem getLast?_slashColon_withoutUser
    (h : (slashColon (withoutUser cs)).getLast? = some c) : isSpace c = false := by
  have hlast : ∀ c, (withoutUser cs).getLast? = some c → isSpace c = false := by
    intro c hc
    obtain ⟨front, hfront⟩ := withoutUser_suffix cs
    have hne : withoutUser cs ≠ [] := by
      intro hnil
      rw [hnil] at hc
      exact nomatch hc
    refine (Text.trimWith_ends isSpace cs).2 c ?_
    rw [← Text.trimChars_eq, ← hfront, List.getLast?_append_of_ne_nil _ hne]
    exact hc
  rcases slashColon_cases (withoutUser cs) with ⟨-, heq⟩ | ⟨front, rest, hsplit, -, -, heq⟩
  · rw [heq] at h
    exact hlast c h
  · rw [heq, List.getLast?_append_of_ne_nil _ (List.cons_ne_nil _ _)] at h
    rw [hsplit] at hlast
    cases rest with
    | nil =>
        obtain rfl := Option.some.inj h
        rfl
    | cons d rest =>
        refine hlast c ?_
        rw [List.getLast?_append_of_ne_nil _ (List.cons_ne_nil _ _), List.getLast?_cons_cons]
        rwa [List.getLast?_cons_cons] at h

/-- What the rules leave, they leave again exactly if it is settled. -/
theorem rewritten_rewritten_iff : rewritten (rewritten cs) = rewritten cs ↔ Settled cs := by
  obtain ⟨k, git, hsplit, hgit⟩ := exists_closing (slashColon (withoutUser cs))
  have hclosing : slashColon (withoutUser cs) = rewritten cs ++ (List.replicate k '/' ++ git) := hsplit
  have hplain : ∀ c ∈ List.replicate k '/' ++ git, isSpace c = false ∧ c ≠ '@' := by
    intro c hc
    rcases List.mem_append.mp hc with hc | hc
    · rw [(List.mem_replicate.mp hc).2]
      decide
    · rcases hgit with ⟨rfl, -⟩ | hgit
      · exact nomatch hc
      · exact ⟨(hgit.plain c hc).1, (hgit.plain c hc).2.1⟩
  have hhead : ∀ c, (rewritten cs).head? = some c → (slashColon (withoutUser cs)).head? = some c := by
    intro c hc
    rw [hclosing, List.head?_append, hc]
    rfl
  rw [rewritten_eq_self_iff]
  constructor
  · rintro ⟨hstart, hlast, hat, -, hnot, -⟩
    refine ⟨fun c hc => ?_, fun hmem => ?_, fun front mark k' git' heq hgit' hne => ?_⟩
    · rw [hclosing, List.head?_append] at hc
      cases hx : (rewritten cs).head? with
      | none =>
          rw [hx] at hc
          exact (hplain c (List.mem_of_head? hc)).1
      | some d =>
          rw [hx] at hc
          obtain rfl := Option.some.inj hc
          exact hstart d hx
    · rw [hclosing] at hmem
      rcases List.mem_append.mp hmem with hmem | hmem
      · exact hhead '@' (hat hmem)
      · exact absurd rfl (hplain '@' hmem).2
    · -- what the closing follows is what the rules leave
      have hleft : mark ≠ [] → mark.getLast? ≠ some '/' → rewritten cs = front ++ mark := by
        intro hmark hslash
        have hend : (front ++ mark).getLast? ≠ some '/' := by
          rwa [List.getLast?_append_of_ne_nil _ hmark]
        rw [rewritten, heq]
        rcases hgit' with rfl | hgit'
        · obtain ⟨n, hn⟩ := Nat.exists_eq_succ_of_ne_zero (hne.resolve_right (· rfl)).ne'
          have hlast' : (front ++ (mark ++ (List.replicate k' '/' ++ []))).getLast? = some '/' := by
            rw [hn, List.replicate_succ', List.append_nil, ← List.append_assoc, ← List.append_assoc,
              List.getLast?_concat]
          rw [dropGit_of_not (endsGit_of_slash hlast'), List.append_nil, ← List.append_assoc]
          exact dropSlashes_append hend k'
        · rw [← List.append_assoc, ← List.append_assoc, dropGit_append hgit']
          exact dropSlashes_append hend k'
      constructor
      · intro hmark
        have hne_nil : mark ≠ [] := by
          rintro rfl
          exact nomatch hmark.length_eq
        have hrest := hleft hne_nil fun hslash => (hmark.plain '/' (List.mem_of_getLast? hslash)).2.2 rfl
        rw [endsGit_iff.mpr ⟨front, mark, hrest, hmark⟩] at hnot
        exact nomatch hnot
      · rintro c rfl
        by_contra hspace
        have hrest := hleft (List.cons_ne_nil _ _) fun hslash => by
          obtain rfl : c = '/' := Option.some.inj hslash
          exact hspace rfl
        exact hspace (hlast c (by rw [hrest, List.getLast?_concat]))
  · intro h
    have hshorter : ∀ front mark, rewritten cs = front ++ mark → (0 < k ∨ git ≠ []) →
        ¬IsGit mark ∧ ∀ c, mark = [c] → isSpace c = false := by
      intro front mark heq hne
      refine h.closing front mark k git ?_ (hgit.imp And.left id) hne
      rw [hclosing, heq, List.append_assoc]
    have hwhole : ¬(0 < k ∨ git ≠ []) → slashColon (withoutUser cs) = rewritten cs ∧ git = [] := by
      intro hnone
      have hk : k = 0 := Nat.eq_zero_of_not_pos fun hpos => hnone (Or.inl hpos)
      have hnil : git = [] := not_not.mp fun hne => hnone (Or.inr hne)
      rw [hk, hnil] at hclosing
      exact ⟨hclosing.trans (List.append_nil _), hnil⟩
    refine ⟨fun c hc => h.start c (hhead c hc), fun c hc => ?_, fun hmem => ?_,
      slashColon_of_prefix (isPrefix_rewritten cs), ?_, getLast?_dropSlashes _⟩
    · by_cases hne : 0 < k ∨ git ≠ []
      · obtain ⟨front, hfront⟩ := List.getLast?_eq_some_iff.mp hc
        exact (hshorter front [c] hfront hne).2 c rfl
      · exact getLast?_slashColon_withoutUser (by rw [(hwhole hne).1, hc])
    · have hat := h.user (by rw [hclosing]; exact List.mem_append_left _ hmem)
      rw [hclosing, List.head?_append_of_ne_nil _ (List.ne_nil_of_mem hmem)] at hat
      exact hat
    · refine Bool.eq_false_iff.mpr fun hends => ?_
      obtain ⟨front, mark, heq, hmark⟩ := endsGit_iff.mp hends
      by_cases hne : 0 < k ∨ git ≠ []
      · exact (hshorter front mark heq hne).1 hmark
      · obtain ⟨hsame, hnil⟩ := hwhole hne
        rcases hgit with ⟨-, hnot⟩ | hgit
        · rw [hsame, hends] at hnot
          exact nomatch hnot
        · rw [hnil] at hgit
          exact nomatch hgit.length_eq

/-- **Normalizing again changes nothing exactly if the remote is settled.** -/
theorem normalized_normalized_iff (hu : PlainCase u) (s : String) :
    normalizeGitRemoteUrl u (normalizeGitRemoteUrl u s) = normalizeGitRemoteUrl u s ↔
      Settled s.toList := by
  have hw : u.Lowers (rewritten s.toList) (lowered u (rewritten s.toList)) :=
    Unicode.lowers_lowerFrom
  have hs : normalizeGitRemoteUrl u s = String.ofList (lowered u (rewritten s.toList)) := by
    rw [← normalizeGitRemoteUrl_eq, String.ofList_toList]
  have hstable : lowered u (rewritten (lowered u (rewritten s.toList))) =
      rewritten (lowered u (rewritten s.toList)) := by
    refine Unicode.lowerFrom_eq_self fun d hd => ?_
    rcases mem_of_mem_rewritten hd with hd | rfl
    · exact hu.stable.of_mem hw hd
    · exact ⟨by decide, hu.marks.own '/' rfl⟩
  rw [hs, normalizeGitRemoteUrl_eq, String.ofList_inj, hstable, rewritten_lowers hu hw]
  exact rewritten_rewritten_iff

end

/-! ### Project keys -/

section
variable {u : Unicode} {fingerprint : String → String}

/-- The key of a spelling. -/
def keyOf (u : Unicode) (fingerprint : String → String) (sp : Spelling) (r : Repository) : String :=
  projectKeyFromGitRemote u fingerprint (String.ofList (sp.text r))

theorem keyOf_inj (hfp : Function.Injective fingerprint) {sp sp' : Spelling} :
    keyOf u fingerprint sp r = keyOf u fingerprint sp' r' ↔
      normalizeGitRemoteUrl u (String.ofList (sp.text r)) =
        normalizeGitRemoteUrl u (String.ofList (sp'.text r')) := by
  rw [keyOf, keyOf, projectKeyFromGitRemote, projectKeyFromGitRemote]
  constructor
  · intro h
    have hlist := congrArg String.toList h
    rw [String.toList_append, String.toList_append] at hlist
    exact hfp (String.toList_inj.mp (List.append_cancel_left hlist))
  · intro h
    rw [h]

/-- Without a user, a path with an at sign hides the host. -/
theorem dropUser_hidden {sp : Spelling} (hnone : sp.form.userinfo = none)
    (hat : '@' ∈ r.path) (hpath : r'.path = r.path) :
    dropUser (sp.authority r) = dropUser (sp.authority r') := by
  obtain ⟨front, rest, hfirst, hfront⟩ := List.eq_append_cons_of_mem hat
  have hrest : ∀ r : Repository, r.path = front ++ '@' :: rest →
      dropUser (sp.authority r) = rest ++ sp.suffix := by
    intro r hr
    have hplain : '@' ∉ r.host ++ '/' :: front := by
      intro hmem
      rcases List.mem_append.mp hmem with hmem | hmem
      · exact (r.host_plain '@' hmem).2.1 rfl
      · rcases List.mem_cons.mp hmem with heq | hmem
        · exact absurd heq (by decide)
        · exact hfront hmem
    rcases authority_cases sp r with ⟨user, huser, -⟩ | ⟨-, -, heq⟩
    · rw [hnone] at huser
      exact nomatch huser
    · have hsplit : sp.authority r = (r.host ++ '/' :: front) ++ '@' :: (rest ++ sp.suffix) := by
        rw [heq, hr]
        simp
      rw [hsplit]
      exact dropUser_append (List.append_ne_nil_of_left_ne_nil r.host_ne _) hplain
  rw [hrest r hfirst, hrest r' (hpath.trans hfirst)]

/-- **When a repository has one key.**  A spelling is normalized to host and path exactly if it is
well spelled, and normalizing again changes nothing exactly if a remote is settled.  Well-spelled
remotes have the same key exactly if their repositories are the same, and the same repository has
the key in another spelling exactly if that is well spelled.  Where a path with an at sign has no
user before it, any two hosts have the same key. -/
theorem projectKeys_iff (hu : PlainCase u) (hfp : Function.Injective fingerprint) :
    (∀ sp r, normalizeGitRemoteUrl u (String.ofList (sp.text r)) = String.ofList (lowered u r.name) ↔
      WellSpelled sp r) ∧
    (∀ s, normalizeGitRemoteUrl u (normalizeGitRemoteUrl u s) = normalizeGitRemoteUrl u s ↔
      Settled s.toList) ∧
    (∀ sp sp' r r', WellSpelled sp r → WellSpelled sp' r' →
      (keyOf u fingerprint sp r = keyOf u fingerprint sp' r' ↔ SameRepository u r r')) ∧
    (∀ sp sp' r r', WellSpelled sp r → SameRepository u r r' →
      (keyOf u fingerprint sp r = keyOf u fingerprint sp' r' ↔ WellSpelled sp' r')) ∧
    ∀ sp r r', sp.form.userinfo = none → '@' ∈ r.path → r'.path = r.path →
      keyOf u fingerprint sp r = keyOf u fingerprint sp r' := by
  refine ⟨fun sp r => normalized_text_iff hu, normalized_normalized_iff hu, ?_, ?_, ?_⟩
  · intro sp sp' r r' h h'
    rw [keyOf_inj hfp, (normalized_text_iff hu).mpr h, (normalized_text_iff hu).mpr h',
      String.ofList_inj, lowered_name_inj hu]
  · intro sp sp' r r' h hsame
    rw [keyOf_inj hfp, (normalized_text_iff hu).mpr h, (lowered_name_inj hu).mpr hsame, eq_comm,
      normalized_text_iff hu]
  · intro sp r r' hnone hat hpath
    rw [keyOf_inj hfp, normalizeGitRemoteUrl_eq, normalizeGitRemoteUrl_eq, rewritten, rewritten,
      withoutUser_text, withoutUser_text, dropUser_hidden hnone hat hpath]

end

/-- The character database cut down to ASCII and the sigma. -/
def plainUnicode : Unicode :=
  { Unicode.ascii with lower := fun c => if c = 'Σ' then ['σ'] else [foldCase c] }

theorem isMark_plain (h : isAlphaChar c = true) : isMark c = false := by
  obtain ⟨hspace, hat, hslash, hdot⟩ := isAlphaChar_plain h
  have hcolon : c ≠ ':' := by
    rintro rfl
    exact absurd h (by decide)
  simp [isMark, hspace, hat, hslash, hdot, hcolon]

theorem foldCase_foldCase (c : Char) : foldCase (foldCase c) = foldCase c := by
  rcases foldCase_cases c with heq | ⟨-, hlower⟩
  · rw [heq, heq]
  · refine if_neg fun hupper => ?_
    have hle : 'a' ≤ foldCase c := by
      simp only [Regex.isLowerChar, Bool.and_eq_true, decide_eq_true_eq] at hlower
      exact hlower.1
    exact absurd (Char.le_trans hle hupper.2) (by decide)

theorem plainCase_plainUnicode : PlainCase plainUnicode := by
  have hlower : ∀ c, c ≠ 'Σ' → plainUnicode.lower c = [foldCase c] := fun c hc => if_neg hc
  have hsigma : plainUnicode.lower 'Σ' = ['σ'] := rfl
  have hkeep : ∀ c, isMark (foldCase c) = isMark c := by
    intro c
    rcases foldCase_cases c with heq | ⟨halpha, hletter⟩
    · rw [heq]
    · rw [isMark_plain halpha, isMark_plain (by rw [isAlphaChar, hletter]; rfl)]
  have hletters : ∀ x ∈ ".git".toList, x ≠ 'ς' ∧ x ≠ 'σ' ∧ foldCase 'Σ' ≠ x :=
    List.forall_mem_iff_forall_getElem.mpr (by decide)
  refine ⟨⟨?_, ?_, ⟨rfl, rfl⟩⟩, ?_, ⟨?_, rfl⟩, rfl, rfl⟩
  · intro c hc
    have hne : c ≠ 'Σ' := by
      rintro rfl
      exact nomatch hc
    rw [hlower c hne]
    rcases foldCase_cases c with heq | ⟨halpha, -⟩
    · rw [heq]
    · rw [isMark_plain halpha] at hc
      exact nomatch hc
  · intro c hc
    by_cases hne : c = 'Σ'
    · subst hne
      rw [hsigma]
      exact ⟨List.cons_ne_nil _ _, fun d hd => by rw [List.mem_singleton.mp hd]; rfl⟩
    · rw [hlower c hne]
      refine ⟨List.cons_ne_nil _ _, fun d hd => ?_⟩
      rw [List.mem_singleton.mp hd, hkeep, hc]
  · intro x hx
    obtain ⟨hfinal, hsmall, hcapital⟩ := hletters x hx
    refine ⟨fun c hc => ?_, fun c hc => ?_, hfinal, hcapital⟩
    · have hne : c ≠ 'Σ' := by
        rintro rfl
        exact hcapital hc
      rw [hlower c hne, hc]
    · by_cases hne : c = 'Σ'
      · subst hne
        exact absurd (Option.some.inj hc).symm hsmall
      · rw [hlower c hne] at hc
        exact Option.some.inj hc
  · intro c d hd
    by_cases hne : c = 'Σ'
    · subst hne
      rw [List.mem_singleton.mp hd]
      decide
    · rw [hlower c hne] at hd
      obtain rfl := List.mem_singleton.mp hd
      have hfold : foldCase c ≠ 'Σ' := fun heq => hne (eq_of_foldCase rfl heq)
      exact ⟨hfold, by rw [hlower _ hfold, foldCase_foldCase]⟩

def runirRepository : Repository where
  host := "GitHub.com".toList
  path := "AlphaComposite/runir".toList
  host_ne := by decide
  host_plain := List.forall_mem_iff_forall_getElem.mpr (by decide)
  host_head := by decide
  path_ne := by decide
  path_head := by decide
  path_last := by
    intro c hc
    obtain rfl := Option.some.inj hc
    decide

/-- `git@GitHub.com:AlphaComposite/runir.git`. -/
def scpSpelling : Spelling where
  form := .scp "git".toList
  dotGit := true
  slashes := 0
  userinfo_plain := by
    intro user h
    obtain rfl := Option.some.inj h
    exact List.forall_mem_iff_forall_getElem.mpr (by decide)

theorem projectKeys_runir :
    normalizeGitRemoteUrl plainUnicode (String.ofList (scpSpelling.text runirRepository)) =
      String.ofList (lowered plainUnicode runirRepository.name) :=
  ((projectKeys_iff plainCase_plainUnicode Function.injective_id).1 scpSpelling runirRepository).mpr
    ⟨by decide, show "git".toList ≠ [] ∧ '@' ∉ "git".toList by decide, by decide⟩

/-- A slash after `.git` keeps it. -/
theorem slash_after_git :
    normalizeGitRemoteUrl plainUnicode "https://github.com/AlphaComposite/runir.git/" ≠
      normalizeGitRemoteUrl plainUnicode "https://github.com/AlphaComposite/runir.git" := by
  decide +kernel

end Runir.GitRemotes
