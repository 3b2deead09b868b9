import Runir.Lib.Utf16

/-!
# Capture — Chunks

`chunkSourceTurn` of `src/capture/source-turn-identity.ts`, on every string of code units and for
every limit.

* `chunkSourceTurn`: the loop, with a bound on its rounds; none where they are used up.
* `chunkSourceTurn_lossless`: the loop ends, its pieces are the text, and each keeps to the limit.
-/

namespace Runir.Units
open Utf16

/-! ### The loop -/

/-- The code points at the front that fit into so many bytes. -/
def fitting : Nat → List (List UInt16) → List (List UInt16)
  | _, [] => []
  | room, p :: ps =>
      if room < pointBytes p then [] else p :: fitting (room - pointBytes p) ps

/-- `chars.slice(0, n).join("")`. -/
def front (maxBytes : Nat) (rest : List UInt16) : List UInt16 :=
  (fitting maxBytes (points rest)).flatten

def newline : UInt16 := 10

def backquote : UInt16 := 96

/-- `Math.max(prefix.lastIndexOf("\n\n"), prefix.lastIndexOf("\n```"))`. -/
def boundary (front : List UInt16) : Option Nat :=
  (lastUnitsOf [newline, newline] front).merge max
    (lastUnitsOf [newline, backquote, backquote, backquote] front)

/-- Where the front is cut: after its last boundary, where that is in its second half. -/
def splitPoint (front : List UInt16) : Nat :=
  match boundary front with
  | some i => if front.length < 2 * i then i + 2 else front.length
  | none => front.length

def chunkSourceTurn (maxBytes : Nat) : Nat → List UInt16 → Option (List (List UInt16))
  | 0, _ => none
  | rounds + 1, rest =>
      if maxBytes < byteLength rest then
        let split := splitPoint (front maxBytes rest)
        (chunkSourceTurn maxBytes rounds (rest.drop split)).map fun chunks =>
          rest.take split :: chunks
      else some (if rest = [] then [] else [rest])

/-! ### The front -/

theorem fitting_eq_take (room : Nat) (ps : List (List UInt16)) :
    ∃ n, fitting room ps = ps.take n := by
  induction ps generalizing room with
  | nil => exact ⟨0, rfl⟩
  | cons p ps ih =>
      simp only [fitting]
      split
      · exact ⟨0, rfl⟩
      · obtain ⟨n, hn⟩ := ih (room - pointBytes p)
        exact ⟨n + 1, by simp [hn]⟩

theorem sum_fitting_le (room : Nat) (ps : List (List UInt16)) :
    ((fitting room ps).map pointBytes).sum ≤ room := by
  induction ps generalizing room with
  | nil => simp [fitting]
  | cons p ps ih =>
      simp only [fitting]
      split
      · simp
      · next hfits =>
          have hrest := ih (room - pointBytes p)
          simp only [List.map_cons, List.sum_cons]
          omega

theorem front_isPrefix (maxBytes : Nat) (rest : List UInt16) : front maxBytes rest <+: rest := by
  obtain ⟨n, hn⟩ := fitting_eq_take maxBytes (points rest)
  refine ⟨((points rest).drop n).flatten, ?_⟩
  rw [front, hn, ← List.flatten_append, List.take_append_drop, flatten_points]

/-- The front fits, read as a text of its own. -/
theorem byteLength_front (maxBytes : Nat) (rest : List UInt16) :
    byteLength (front maxBytes rest) ≤ maxBytes := by
  have hsum := sum_fitting_le maxBytes (points rest)
  obtain ⟨n, hn⟩ := fitting_eq_take maxBytes (points rest)
  rw [hn] at hsum
  rw [byteLength, front, hn, points_take]
  exact hsum

/-- Any one code point fits. -/
theorem front_ne_nil {maxBytes : Nat} (hmax : 4 ≤ maxBytes) {rest : List UInt16}
    (hrest : rest ≠ []) : front maxBytes rest ≠ [] := by
  rw [front]
  cases hpoints : points rest with
  | nil =>
      have hflat := flatten_points rest
      rw [hpoints] at hflat
      exact absurd hflat.symm hrest
  | cons p ps =>
      have hp : p ≠ [] := ne_nil_of_mem_points (hpoints ▸ List.mem_cons_self)
      have hfits : ¬maxBytes < pointBytes p := by
        have := pointBytes_le p
        omega
      simp [fitting, hfits, hp]

/-! ### The cut -/

/-- A boundary is two units of the front, neither of which is a surrogate. -/
theorem boundary_spec {front : List UInt16} {i : Nat} (h : boundary front = some i) :
    ∃ a u b, front = a ++ u :: b ∧ isHigh u = false ∧ a.length = i + 1 := by
  have hlast : ∀ {u : UInt16} {more : List UInt16}, isHigh u = false →
      lastUnitsOf (newline :: u :: more) front = some i →
        ∃ a u b, front = a ++ u :: b ∧ isHigh u = false ∧ a.length = i + 1 := by
    intro u more hu hindex
    obtain ⟨b, hb⟩ := prefix_drop_of_lastUnitsOf hindex
    have hlt : i < front.length := by
      by_contra hge
      rw [List.drop_eq_nil_of_le (Nat.le_of_not_lt hge)] at hb
      cases hb
    refine ⟨front.take i ++ [newline], u, more ++ b, ?_, hu, ?_⟩
    · calc front = front.take i ++ front.drop i := (List.take_append_drop i front).symm
        _ = front.take i ++ [newline] ++ u :: (more ++ b) := by simp [← hb]
    · simp [Nat.min_eq_left (Nat.le_of_lt hlt)]
  have hsome : lastUnitsOf [newline, newline] front = some i ∨
      lastUnitsOf [newline, backquote, backquote, backquote] front = some i := by
    unfold boundary at h
    cases hblank : lastUnitsOf [newline, newline] front with
    | none =>
        rw [hblank, Option.merge_none_left] at h
        exact .inr h
    | some j =>
        cases hfence : lastUnitsOf [newline, backquote, backquote, backquote] front with
        | none =>
            rw [hblank, hfence, Option.merge_none_right] at h
            exact .inl h
        | some k =>
            rw [hblank, hfence] at h
            have hmax : max j k = i := Option.some.inj h
            rcases Nat.le_total j k with hle | hle
            · exact .inr (congrArg some ((Nat.max_eq_right hle).symm.trans hmax))
            · exact .inl (congrArg some ((Nat.max_eq_left hle).symm.trans hmax))
  rcases hsome with hblank | hfence
  · exact hlast (by decide) hblank
  · exact hlast (by decide) hfence

/-- The cut is inside the front, takes at least a unit, and what it takes fits where the front does. -/
theorem splitPoint_spec {front : List UInt16} (hne : front ≠ []) :
    0 < splitPoint front ∧ splitPoint front ≤ front.length ∧
      byteLength (front.take (splitPoint front)) ≤ byteLength front := by
  have hwhole : 0 < front.length ∧ front.length ≤ front.length ∧
      byteLength (front.take front.length) ≤ byteLength front := by
    refine ⟨List.length_pos_iff.mpr hne, Nat.le_refl _, Nat.le_of_eq ?_⟩
    rw [List.take_length]
  unfold splitPoint
  split
  · next i hi =>
      split
      · obtain ⟨a, u, b, rfl, hu, hlength⟩ := boundary_spec hi
        have hcut : (a ++ u :: b).take (i + 2) = a ++ [u] := by
          rw [List.take_append, hlength]
          have htake : a.take (i + 2) = a := List.take_of_length_le (by omega)
          have hone : i + 2 - (i + 1) = 1 := by omega
          rw [htake, hone, List.take_succ_cons, List.take_zero]
        refine ⟨Nat.succ_pos _, ?_, ?_⟩
        · simp only [List.length_append, List.length_cons]
          omega
        · rw [hcut]
          exact byteLength_append_le hu a b
      · exact hwhole
  · exact hwhole

/-! ### The pieces -/

/-- A piece is not empty, and keeps to the limit. -/
structure IsChunk (maxBytes : Nat) (chunk : List UInt16) : Prop where
  nonempty : chunk ≠ []
  bytes : byteLength chunk ≤ maxBytes

/-- What a round cuts off. -/
theorem isChunk_cut {maxBytes : Nat} (hmax : 4 ≤ maxBytes) {rest : List UInt16}
    (hrest : rest ≠ []) :
    0 < splitPoint (front maxBytes rest) ∧
      IsChunk maxBytes (rest.take (splitPoint (front maxBytes rest))) := by
  obtain ⟨hpos, hle, hbytes⟩ := splitPoint_spec (front_ne_nil hmax hrest)
  have hcut : rest.take (splitPoint (front maxBytes rest)) =
      (front maxBytes rest).take (splitPoint (front maxBytes rest)) := by
    have hfront := List.prefix_iff_eq_take.mp (front_isPrefix maxBytes rest)
    have htake := congrArg (List.take (splitPoint (front maxBytes rest))) hfront
    rw [htake, List.take_take, Nat.min_eq_left hle]
  refine ⟨hpos, ?_, ?_⟩
  · have hlength := List.length_pos_iff.mpr hrest
    intro hnil
    have := congrArg List.length hnil
    simp only [List.length_take, List.length_nil] at this
    omega
  · rw [hcut]
    exact Nat.le_trans hbytes (byteLength_front maxBytes rest)

/-- **The split is lossless and bounded.**  As many rounds as the text has units, and one more, are
enough; the pieces are the text, none is empty, and none has more bytes than it may. -/
theorem chunkSourceTurn_lossless {maxBytes : Nat} (hmax : 4 ≤ maxBytes) (content : List UInt16) :
    ∃ chunks, (∀ rounds, content.length < rounds →
        chunkSourceTurn maxBytes rounds content = some chunks) ∧
      chunks.flatten = content ∧ ∀ chunk ∈ chunks, IsChunk maxBytes chunk := by
  induction hlength : content.length using Nat.strongRecOn generalizing content with
  | _ n ih =>
    by_cases hlong : maxBytes < byteLength content
    · have hne : content ≠ [] := by
        rintro rfl
        exact Nat.not_lt_zero _ hlong
      obtain ⟨hpos, hcut⟩ := isChunk_cut hmax hne
      have hshorter : (content.drop (splitPoint (front maxBytes content))).length < n := by
        have := List.length_pos_iff.mpr hne
        rw [List.length_drop]
        omega
      obtain ⟨chunks, hends, hflat, hchunks⟩ := ih _ hshorter _ rfl
      refine ⟨content.take (splitPoint (front maxBytes content)) :: chunks,
        fun rounds hrounds => ?_, ?_, ?_⟩
      · cases rounds with
        | zero => exact absurd hrounds (Nat.not_lt_zero _)
        | succ rounds =>
            simp only [chunkSourceTurn, if_pos hlong]
            rw [hends rounds (by omega), Option.map_some]
      · rw [List.flatten_cons, hflat, List.take_append_drop]
      · intro chunk hchunk
        rcases List.mem_cons.mp hchunk with rfl | hchunk
        · exact hcut
        · exact hchunks chunk hchunk
    · refine ⟨if content = [] then [] else [content], fun rounds hrounds => ?_, ?_, ?_⟩
      · cases rounds with
        | zero => exact absurd hrounds (Nat.not_lt_zero _)
        | succ rounds => simp only [chunkSourceTurn, if_neg hlong]
      · split
        · next hnil => exact hnil.symm
        · exact List.flatten_singleton
      · intro chunk hchunk
        split at hchunk
        · cases hchunk
        · next hne =>
            rw [List.mem_singleton.mp hchunk]
            exact ⟨hne, Nat.le_of_not_lt hlong⟩

/-- A lone high surrogate before a pair, in pieces of at most four bytes. -/
theorem chunkSourceTurn_lossless_surrogates :
    4 ≤ 4 ∧ ∃ chunks, (∀ rounds, [0xD83D, 0xD83D, 0xDE00, 10].length < rounds →
        chunkSourceTurn 4 rounds [0xD83D, 0xD83D, 0xDE00, 10] = some chunks) ∧
      chunks.flatten = [0xD83D, 0xD83D, 0xDE00, 10] ∧ ∀ chunk ∈ chunks, IsChunk 4 chunk :=
  ⟨by decide, chunkSourceTurn_lossless (by decide) [0xD83D, 0xD83D, 0xDE00, 10]⟩

end Runir.Units
