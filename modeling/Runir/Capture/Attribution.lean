import Runir.Capture.Request

/-!
# Capture — Attribution

Which message a fact is written for.

* `settledFacts`: the facts of a reply, each with the source the extraction settles on.
* `Attributed`: each of them reaches the writes with its message, unless that was extracted before.
* `rawFacts_attributed`: none does, since `normalizeExtractedFact` leaves the index out.
-/

namespace Runir

/-! ### The index is left out -/

@[simp] theorem canonicalizeFactKey_sourceTurnIndex (fact : FactObject) :
    (canonicalizeFactKey fact).sourceTurnIndex = fact.sourceTurnIndex := by
  unfold canonicalizeFactKey
  split
  · rfl
  · split <;> rfl

@[simp] theorem normalizeExtractedFact_sourceTurnIndex (ex : ExtractionHost) (raw : FactObject) :
    (normalizeExtractedFact ex raw).sourceTurnIndex = none :=
  canonicalizeFactKey_sourceTurnIndex _

/-! ### The source a fact is settled on -/

/-- The facts of a reply that are kept, each with the index its source is settled on. -/
def settledFacts (ex : ExtractionHost) (messages : List CaptureMessage)
    (elements : List FactElement) : List (FactObject × Option ℚ) :=
  ((elements.filterMap FactElement.raw?).map fun raw =>
    (repairListShapedFact (resolveTemporal ex (stampSource messages raw)),
      chosenIndex messages raw)).filter fun p => isConfident ex p.1

theorem map_fst_settledFacts (ex : ExtractionHost) (messages : List CaptureMessage)
    (elements : List FactElement) :
    (settledFacts ex messages elements).map (·.1) = stampedFacts ex messages elements := by
  unfold settledFacts stampedFacts
  rw [List.filter_map, List.map_map, List.filter_map]
  rfl

/-- There is a message at an index that is settled on. -/
theorem messageAt_of_chosenIndex {messages : List CaptureMessage} {raw : FactObject} {idx : ℚ}
    (h : chosenIndex messages raw = some idx) : (messageAt messages idx).isSome := by
  have hshows : ∀ i : ℚ, showsCode messages i = true → (messageAt messages i).isSome := by
    intro i hi
    unfold showsCode at hi
    cases hmessage : messageAt messages i with
    | none =>
        rw [hmessage] at hi
        exact nomatch hi
    | some message => rfl
  unfold chosenIndex at h
  split at h
  · exact nomatch h
  · split at h
    · exact nomatch h
    · rename_i own _ _ picked hpicked
      have hown : (messageAt messages own).isSome := by rw [hpicked]; rfl
      split at h
      · exact Option.some.inj h ▸ hown
      · split at h
        · exact hshows idx (List.find?_some h)
        · exact Option.some.inj h ▸ hown

namespace CaptureEnv
variable (env : CaptureEnv)

/-- What the redactor leaves of a fact. -/
def redactedFact (raw : FactObject) : Option FactObject :=
  (env.redactFact (normalizeExtractedFact env.ex raw)).map (normalizeExtractedFact env.ex)

/-- A fact reaches the writes as what the redactor leaves of it, for the message of its source, and
its memory is linked to the turn of that message. -/
structure Carries (settled entry : FactObject × Option ℚ) : Prop where
  fact : env.redactedFact settled.1 = some entry.1
  message : env.messageOf entry = settled.2.bind env.originalIndex
  link : env.linkOf entry = (settled.2.bind env.originalIndex).bind fun place =>
    env.sourceTurnsByMessage.reverse.lookup place

/-- Every fact whose source was not extracted before reaches the writes, with its message. -/
def Attributed : Prop :=
  ∀ elements writes, env.reply.facts? env.reader = some elements → env.rawFacts = some writes →
    List.Forall₂ env.Carries
      ((settledFacts env.ex env.compressed elements).filter fun p => !env.isOldSource p.2) writes

/-- Every fact of a reply can be redacted. -/
def Redacts (elements : List FactElement) : Prop :=
  ∀ p ∈ settledFacts env.ex env.compressed elements, (env.redactedFact p.1).isSome

variable {env} {elements : List FactElement}

theorem rawFacts_eq (h : env.reply.facts? env.reader = some elements) :
    env.rawFacts = (settledFacts env.ex env.compressed elements).mapM fun p =>
      (env.redactedFact p.1).map fun fact => (fact, none) := by
  have hfacts : env.extractedRawFacts = (settledFacts env.ex env.compressed elements).map
      fun p => normalizeExtractedFact env.ex p.1 := by
    unfold extractedRawFacts extractMemories
    rw [h]
    simp only
    rw [← map_fst_settledFacts, List.map_map]
    rfl
  have hkept : (env.extractedRawFacts.filter fun fact => !env.isOldSource fact.sourceTurnIndex) =
      env.extractedRawFacts := by
    refine List.filter_eq_self.mpr fun fact hfact => ?_
    rw [hfacts] at hfact
    obtain ⟨p, -, rfl⟩ := List.mem_map.mp hfact
    rw [normalizeExtractedFact_sourceTurnIndex]
    rfl
  unfold rawFacts
  rw [hkept, hfacts, List.mapM_map]
  congr 1
  funext p
  unfold redactedFact
  rw [Option.map_map]
  simp only [Function.comp_def, normalizeExtractedFact_sourceTurnIndex]

variable {p : FactObject × Option ℚ}

/-- An index that is settled on is of a message of the request. -/
theorem isSome_originalIndex {idx : ℚ}
    (hp : p ∈ settledFacts env.ex env.compressed elements) (hidx : p.2 = some idx) :
    (env.originalIndex idx).isSome := by
  obtain ⟨raw, -, rfl⟩ := List.mem_map.mp (List.mem_of_mem_filter hp)
  have hmessage := messageAt_of_chosenIndex (show chosenIndex env.compressed raw = some idx from hidx)
  unfold messageAt at hmessage
  unfold originalIndex
  split at hmessage
  · rename_i hnat
    rw [if_pos hnat]
    rw [isSome_getElem?] at hmessage ⊢
    exact Nat.lt_of_lt_of_le hmessage (List.length_filterMap_le _ _)
  · exact nomatch hmessage

/-- What reaches the writes has no source. -/
theorem forall₂_of_rawFacts {writes : List (FactObject × Option ℚ)}
    (h : env.reply.facts? env.reader = some elements) (hwrites : env.rawFacts = some writes) :
    List.Forall₂ (fun p entry => env.redactedFact p.1 = some entry.1 ∧ entry.2 = none)
      (settledFacts env.ex env.compressed elements) writes := by
  rw [rawFacts_eq h] at hwrites
  refine (forall₂_of_mapM hwrites).imp fun p entry hentry => ?_
  obtain ⟨fact, hfact, rfl⟩ := Option.map_eq_some_iff.mp hentry
  exact ⟨hfact, rfl⟩

theorem settled_none_of_attributed (hattributed : env.Attributed)
    (h : env.reply.facts? env.reader = some elements) (hredacts : env.Redacts elements)
    (hp : p ∈ settledFacts env.ex env.compressed elements) :
    p.2 = none := by
  obtain ⟨writes, hwrites⟩ : ∃ writes, env.rawFacts = some writes := by
    rw [rawFacts_eq h]
    refine exists_mapM fun p hp => ?_
    rw [Option.isSome_map]
    exact hredacts p hp
  have hreached := forall₂_of_rawFacts h hwrites
  have hcarried := hattributed elements writes h hwrites
  -- as many facts reach the writes as there are, so none was left out
  have hlength : ((settledFacts env.ex env.compressed elements).filter
      fun p => !env.isOldSource p.2).length = (settledFacts env.ex env.compressed elements).length :=
    hcarried.length_eq.trans hreached.length_eq.symm
  have hkept := List.length_filter_eq_length_iff.mp hlength
  obtain ⟨entry, hentry, hcarries⟩ := exists_of_forall₂ hcarried (List.mem_filter.mpr ⟨hp, hkept p hp⟩)
  obtain ⟨_, _, -, hsource⟩ := exists_of_forall₂ hreached.flip hentry
  cases hidx : p.2 with
  | none => rfl
  | some idx =>
      have hmessage := hcarries.message
      unfold messageOf at hmessage
      rw [hsource, hidx] at hmessage
      have hplace := isSome_originalIndex hp hidx
      rw [← show none = env.originalIndex idx from hmessage] at hplace
      exact nomatch hplace

theorem rawFacts_attributed (env : CaptureEnv) :
    env.Attributed ↔ ∀ elements, env.reply.facts? env.reader = some elements →
      env.Redacts elements → ∀ p ∈ settledFacts env.ex env.compressed elements, p.2 = none := by
  constructor
  · intro hattributed elements helements hredacts p hp
    exact settled_none_of_attributed hattributed helements hredacts hp
  · intro hnone elements writes helements hwrites
    have hreached := forall₂_of_rawFacts helements hwrites
    have hredacts : env.Redacts elements := fun p hp => by
      obtain ⟨entry, -, hfact, -⟩ := exists_of_forall₂ hreached hp
      rw [hfact]
      rfl
    have hnone := hnone elements helements hredacts
    have hkept : ((settledFacts env.ex env.compressed elements).filter
        fun p => !env.isOldSource p.2) = settledFacts env.ex env.compressed elements :=
      List.filter_eq_self.mpr fun p hp => by
        rw [hnone p hp]
        rfl
    rw [hkept]
    refine List.forall₂_iff_get.mpr ⟨hreached.length_eq, fun i hi hi' => ?_⟩
    obtain ⟨hfact, hsource⟩ := (List.forall₂_iff_get.mp hreached).2 i hi hi'
    have hp := hnone _ (List.get_mem _ ⟨i, hi⟩)
    refine ⟨hfact, ?_, ?_⟩
    · unfold messageOf
      rw [hsource, hp]
    · unfold linkOf messageOf
      rw [hsource, hp]

end CaptureEnv

/-! ### One fact of one message -/

def factOfOne : FactObject where
  l2 := "The user moved to Oslo"
  confidence := 1
  sourceTurnIndex := some 0

/-- A reply of one fact, which names the message it was taken from. -/
def readerOfOne : ReplyReader where
  parse _ := some (some [.fact factOfOne])
  repair := some

/-- The fact is written, and linked to no message. -/
theorem rawFacts_unattributed :
    ¬(requestOfOne readerOfOne (.content (some ""))).Attributed := by
  intro hattributed
  have hsettled : (settledFacts .ascii (requestOfOne readerOfOne (.content (some ""))).compressed
      [.fact factOfOne]).any (fun p => p.2.isSome) = true := by decide +kernel
  obtain ⟨p, hp, hsome⟩ := List.any_eq_true.mp hsettled
  have hnone := CaptureEnv.settled_none_of_attributed hattributed rfl (fun _ _ => rfl) hp
  rw [hnone] at hsome
  exact nomatch hsome

end Runir
