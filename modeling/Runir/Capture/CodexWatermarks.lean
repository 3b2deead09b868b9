import Runir.Lib.OrdMap
import Runir.Lib.Runs

/-!
# Capture — Codex watermarks

`plugins/runir-codex/hooks/watermark.py` and `runir_stop_capture.py`: a Stop hook posts the messages
of a transcript that are past the count its session has in a file that all sessions share.

A hook runs in steps, and hooks of different sessions run between each other's: it loads the count;
when the transcript is shorter, it reads the file, reads the epoch, and writes the file; it posts; and
when the post is accepted it reads the file again and writes it.  The world also remembers how often
the file was written, what accepted posts contained, what the bootstrap limit cut off, and for each
session the transcript its count is that of.  The parsing of transcripts is left out.
-/

namespace Runir.CodexWatermarks

/-! ### The file -/

structure Entry where
  messageCount : Nat := 0
  sessionEpoch : Nat := 0
  lastFallbackHash : Option String := none
  deriving DecidableEq

/-- `capture-watermarks.json`. -/
abbrev File := OrdMap String Entry

def loadEntry (data : File) (sessionId : String) : Entry := (data.get? sessionId).getD {}

def loadWatermark (data : File) (sessionId : String) : Nat := (loadEntry data sessionId).messageCount

def loadEpoch (data : File) (sessionId : String) : Nat := (loadEntry data sessionId).sessionEpoch

def loadFallbackHash (data : File) (sessionId : String) : Option String :=
  (loadEntry data sessionId).lastFallbackHash.filter fun value => value ≠ ""

/-- What `bump_epoch` writes. -/
def bumpEpoch (data : File) (sessionId : String) (epoch : Nat) : File :=
  data.set sessionId { loadEntry data sessionId with messageCount := 0, sessionEpoch := epoch }

/-- What `save_watermark` writes. -/
def saveWatermark (data : File) (sessionId : String) (messageCount : Nat) : File :=
  data.set sessionId { loadEntry data sessionId with messageCount := messageCount }

/-- What `save_fallback_hash` writes. -/
def saveFallbackHash (data : File) (sessionId : String) (fallbackHash : String) : File :=
  data.set sessionId { loadEntry data sessionId with lastFallbackHash := some fallbackHash }

/-! ### Messages and posts -/

inductive Role where
  | user | assistant
  deriving DecidableEq

structure Message where
  role : Role
  content : String
  turnIndex : Option Nat := none
  timestamp : Option String := none
  deriving DecidableEq

structure Post where
  messages : List Message
  sessionEpoch : Option String
  deriving DecidableEq

structure Config where
  /-- `MAX_BOOTSTRAP_MESSAGES`. -/
  maxBootstrap : Nat := 8
  /-- `_fallback_hash`. -/
  fallbackHash : String → String

variable (config : Config)

def overBootstrap (messages : List Message) (watermark : Nat) : Bool :=
  watermark = 0 && 0 < config.maxBootstrap && config.maxBootstrap < messages.length

def selectNewMessages (allMessages : List Message) (watermark : Nat) : List Message :=
  let newMessages := allMessages.drop watermark
  if overBootstrap config newMessages watermark then
    newMessages.drop (newMessages.length - config.maxBootstrap)
  else newMessages

/-- What `select_new_messages` leaves out for the bootstrap limit. -/
def cutMessages (allMessages : List Message) (watermark : Nat) : List Message :=
  let newMessages := allMessages.drop watermark
  if overBootstrap config newMessages watermark then
    newMessages.take (newMessages.length - config.maxBootstrap)
  else []

structure Response where
  statusCode : Nat
  hasError : Bool := false
  skipped : Bool := false
  reason : String := ""
  deriving DecidableEq

/-- `KNOWN_TERMINAL_SKIP_REASONS`. -/
def knownTerminalSkipReasons : List String :=
  ["no messages", "no normalizable messages", "noise-bank", "already captured"]

/-- `_is_successful_response`. -/
def isSuccessfulResponse (response : Response) : Bool :=
  if response.statusCode < 200 || 300 ≤ response.statusCode then false
  else if response.hasError then false
  else if response.skipped then knownTerminalSkipReasons.contains response.reason
  else true

/-! ### Stop hooks -/

/-- How far a hook has come.  What was read of the file comes with how often it had been written. -/
inductive Phase where
  | loading
  | resetting
  | resettingEpoch (data : File) (seen : Nat)
  | resettingWrite (data : File) (seen : Nat) (epoch : Nat)
  | selecting (watermark : Nat)
  | waiting (post : Post) (cut : List Message)
  | saving
  | savingWrite (data : File) (seen : Nat)
  deriving DecidableEq

/-- A hook; the assistant's last message stands in for a transcript without messages. -/
structure Stop where
  transcript : List Message
  fallback : Option String
  phase : Phase
  deriving DecidableEq

structure World where
  file : File := .empty
  running : OrdMap String Stop := .empty
  written : Nat := 0
  posts : List (String × Post) := []
  cut : List (String × Message) := []
  lastRead : String → List Message := fun _ => []

/-- A response is absent where the request fails or its body is no JSON. -/
inductive Event where
  | start (sessionId : String) (transcript : List Message) (lastAssistant : Option String)
  | advance (sessionId : String)
  | respond (sessionId : String) (response : Option Response)
  | abandon (sessionId : String)

def Event.session : Event → String
  | start sessionId _ _ | advance sessionId | respond sessionId _ | abandon sessionId => sessionId

def enter (w : World) (sessionId : String) (stop : Stop) (phase : Phase) : World :=
  { w with running := w.running.set sessionId { stop with phase := phase } }

def finish (w : World) (sessionId : String) : World :=
  { w with running := w.running.erase sessionId }

def write (w : World) (file : File) : World := { w with file := file, written := w.written + 1 }

/-- The post has been accepted. -/
def accept (w : World) (sessionId : String) (post : Post) (cut : List Message) : World :=
  { w with
    posts := w.posts ++ [(sessionId, post)]
    cut := w.cut ++ cut.map fun m => (sessionId, m) }

/-- The session's count is now that of the transcript. -/
def remember (w : World) (sessionId : String) (transcript : List Message) : World :=
  { w with lastRead := fun other => if other = sessionId then transcript else w.lastRead other }

/-- The next step of `main` that needs no answer. -/
def advance (w : World) (sessionId : String) (stop : Stop) : Option World :=
  match stop.phase with
  | .loading =>
      match stop.fallback with
      | some text =>
          if loadFallbackHash w.file sessionId = some (config.fallbackHash text) then
            some (finish w sessionId)
          else
            some (enter w sessionId stop (.waiting ⟨[⟨.assistant, text, none, none⟩], none⟩ []))
      | none =>
          let watermark := loadWatermark w.file sessionId
          if stop.transcript.length < watermark then some (enter w sessionId stop .resetting)
          else some (enter w sessionId stop (.selecting watermark))
  | .resetting => some (enter w sessionId stop (.resettingEpoch w.file w.written))
  | .resettingEpoch data seen =>
      some (enter w sessionId stop (.resettingWrite data seen (loadEpoch w.file sessionId + 1)))
  | .resettingWrite data _ epoch =>
      some (enter (remember (write w (bumpEpoch data sessionId epoch)) sessionId []) sessionId stop
        (.selecting 0))
  | .selecting watermark =>
      let newMessages := selectNewMessages config stop.transcript watermark
      if newMessages.isEmpty then some (finish w sessionId)
      else
        some (enter w sessionId stop (.waiting
          ⟨newMessages, some ("epoch:" ++ toString (loadEpoch w.file sessionId))⟩
          (cutMessages config stop.transcript watermark)))
  | .waiting _ _ => none
  | .saving => some (enter w sessionId stop (.savingWrite w.file w.written))
  | .savingWrite data _ =>
      match stop.fallback with
      | some text =>
          some (finish (write w (saveFallbackHash data sessionId (config.fallbackHash text)))
            sessionId)
      | none =>
          some (finish (remember (write w (saveWatermark data sessionId stop.transcript.length))
            sessionId stop.transcript) sessionId)

/-- A session has one hook at a time. -/
def step (w : World) (event : Event) : Option World :=
  match event with
  | .start sessionId transcript lastAssistant =>
      match w.running.get? sessionId with
      | some _ => none
      | none =>
          if transcript.isEmpty then
            match lastAssistant.filter fun text => text ≠ "" with
            | none => some w
            | some text =>
                some { w with running := w.running.set sessionId ⟨transcript, some text, .loading⟩ }
          else some { w with running := w.running.set sessionId ⟨transcript, none, .loading⟩ }
  | .advance sessionId => (w.running.get? sessionId).bind (advance config w sessionId)
  | .respond sessionId response =>
      match w.running.get? sessionId with
      | none => none
      | some stop =>
          match stop.phase with
          | .waiting post cut =>
              if response.any isSuccessfulResponse then
                some (enter (accept w sessionId post cut) sessionId stop .saving)
              else some (finish w sessionId)
          | _ => none
  | .abandon sessionId => some (finish w sessionId)

/-! ### What a step is to keep -/

/-- The message has been in an accepted post of the session. -/
def Posted (w : World) (sessionId : String) (m : Message) : Prop :=
  ∃ post, (sessionId, post) ∈ w.posts ∧ m ∈ post.messages

def CutOff (w : World) (sessionId : String) (m : Message) : Prop := (sessionId, m) ∈ w.cut

def Covered (w : World) (sessionId : String) (m : Message) : Prop :=
  Posted w sessionId m ∨ CutOff w sessionId m

/-- Epochs do not decrease, a watermark is changed by hooks of its session only, an accepted post
leaves nothing of the transcript uncovered, and messages are cut off only where the session has no
saved count, at first or after a reset. -/
structure Keeps (w : World) (event : Event) (w' : World) : Prop where
  epoch : ∀ s, loadEpoch w.file s ≤ loadEpoch w'.file s
  watermark : ∀ s, loadWatermark w'.file s ≠ loadWatermark w.file s → event.session = s
  covered : ∀ s response stop, event = .respond s (some response) →
    isSuccessfulResponse response = true → w.running.get? s = some stop →
      ∀ m ∈ stop.transcript, Covered w' s m
  fresh : ∀ s m, CutOff w' s m → CutOff w s m ∨ w.lastRead s = []

def StepKeeps (w : World) (event : Event) : Prop :=
  ∀ w', step config w event = some w' → Keeps w event w'

/-- The transcript goes on from the one that the session's count is that of, or is shorter. -/
def Continues (w : World) (sessionId : String) (transcript : List Message) : Prop :=
  w.lastRead sessionId <+: transcript ∨ transcript.length < (w.lastRead sessionId).length

/-- How often the file had been written when a hook that is about to write read it. -/
def Phase.seenAtWrite : Phase → Option Nat
  | .resettingWrite _ seen _ => some seen
  | .savingWrite _ seen => some seen
  | _ => none

/-- Transcripts continue, and the file is written as it was read. -/
def InOrder (w : World) (event : Event) : Prop :=
  match event with
  | .start sessionId transcript _ => Continues w sessionId transcript
  | .advance sessionId => ∀ stop, w.running.get? sessionId = some stop →
      ∀ seen, stop.phase.seenAtWrite = some seen → seen = w.written
  | .respond _ _ => True
  | .abandon _ => True

/-! ### The file's entries -/

section
variable {data : File} {s t : String} {n epoch : Nat} {fallbackHash : String}

theorem loadEntry_set {entry : Entry} :
    loadEntry (data.set s entry) t = if t = s then entry else loadEntry data t := by
  rw [loadEntry, OrdMap.get?_set]
  split
  · rfl
  · rfl

theorem loadWatermark_bumpEpoch :
    loadWatermark (bumpEpoch data s epoch) t = if t = s then 0 else loadWatermark data t := by
  rw [loadWatermark, bumpEpoch, loadEntry_set]
  split
  · rfl
  · rfl

theorem loadEpoch_bumpEpoch :
    loadEpoch (bumpEpoch data s epoch) t = if t = s then epoch else loadEpoch data t := by
  rw [loadEpoch, bumpEpoch, loadEntry_set]
  split
  · rfl
  · rfl

theorem loadWatermark_saveWatermark :
    loadWatermark (saveWatermark data s n) t = if t = s then n else loadWatermark data t := by
  rw [loadWatermark, saveWatermark, loadEntry_set]
  split
  · rfl
  · rfl

theorem loadEpoch_saveWatermark : loadEpoch (saveWatermark data s n) t = loadEpoch data t := by
  rw [loadEpoch, saveWatermark, loadEntry_set]
  split
  · next h => rw [h, loadEpoch]
  · rfl

theorem loadWatermark_saveFallbackHash :
    loadWatermark (saveFallbackHash data s fallbackHash) t = loadWatermark data t := by
  rw [loadWatermark, saveFallbackHash, loadEntry_set]
  split
  · next h => rw [h, loadWatermark]
  · rfl

theorem loadEpoch_saveFallbackHash :
    loadEpoch (saveFallbackHash data s fallbackHash) t = loadEpoch data t := by
  rw [loadEpoch, saveFallbackHash, loadEntry_set]
  split
  · next h => rw [h, loadEpoch]
  · rfl

end

/-! ### What is selected -/

variable {config : Config} {w w' : World} {s t : String} {stop : Stop}

/-- Past the count, a message is selected or cut off. -/
theorem mem_selected_or_cut {messages : List Message} {watermark : Nat} {m : Message}
    (h : m ∈ messages.drop watermark) :
    m ∈ selectNewMessages config messages watermark ∨ m ∈ cutMessages config messages watermark := by
  rw [selectNewMessages, cutMessages]
  split
  · rw [← List.take_append_drop ((messages.drop watermark).length - config.maxBootstrap)
      (messages.drop watermark)] at h
    exact (List.mem_append.mp h).symm
  · exact .inl h

theorem cutMessages_of_pos {messages : List Message} {watermark : Nat} (h : watermark ≠ 0) :
    cutMessages config messages watermark = [] := by
  rw [cutMessages, overBootstrap]
  simp [h]

/-! ### What holds in every state -/

/-- What was read is what is there, as long as nothing has been written. -/
def ReadAt (w : World) (data : File) (seen : Nat) : Prop :=
  seen ≤ w.written ∧ (seen = w.written → data = w.file)

/-- What a hook has made sure of, as far as it has come. -/
def Reached (w : World) (s : String) (stop : Stop) : Phase → Prop
  | .loading => stop.fallback = none → Continues w s stop.transcript
  | .resetting => True
  | .resettingEpoch data seen => ReadAt w data seen
  | .resettingWrite data seen epoch =>
      ReadAt w data seen ∧ (seen = w.written → loadEpoch w.file s ≤ epoch)
  | .selecting watermark =>
      watermark = (w.lastRead s).length ∧ w.lastRead s <+: stop.transcript
  | .waiting post cut => (∀ m ∈ stop.transcript, Covered w s m ∨ m ∈ post.messages ∨ m ∈ cut) ∧
      (cut ≠ [] → w.lastRead s = [])
  | .saving => ∀ m ∈ stop.transcript, Covered w s m
  | .savingWrite data seen => (∀ m ∈ stop.transcript, Covered w s m) ∧ ReadAt w data seen

structure Held (w : World) : Prop where
  count : ∀ s, loadWatermark w.file s = (w.lastRead s).length
  read : ∀ s, ∀ m ∈ w.lastRead s, Covered w s m
  fallback : ∀ s stop, w.running.get? s = some stop → stop.fallback ≠ none → stop.transcript = []
  reached : ∀ s stop, w.running.get? s = some stop → Reached w s stop stop.phase

theorem held_start : Held {} where
  count := fun _ => rfl
  read := fun _ _ hm => nomatch hm
  fallback := fun _ _ h => nomatch h
  reached := fun _ _ h => nomatch h

/-- A world that another session's hook has gone on in. -/
structure Later (w w' : World) (s : String) : Prop where
  written : w.written ≤ w'.written
  file : w.written = w'.written → w'.file = w.file
  lastRead : w'.lastRead s = w.lastRead s
  posts : ∀ m, Covered w s m → Covered w' s m

theorem ReadAt.later {data : File} {seen : Nat} (h : ReadAt w data seen) (hlater : Later w w' s) :
    ReadAt w' data seen := by
  refine ⟨h.1.trans hlater.written, fun hseen => ?_⟩
  have hsame : w.written = w'.written := le_antisymm hlater.written (hseen ▸ h.1)
  rw [hlater.file hsame]
  exact h.2 (hseen.trans hsame.symm)

theorem Reached.later {phase : Phase} (h : Reached w s stop phase) (hlater : Later w w' s) :
    Reached w' s stop phase := by
  cases phase with
  | loading =>
      intro hnone
      rw [Continues, hlater.lastRead]
      exact h hnone
  | resetting => trivial
  | resettingEpoch data seen => exact ReadAt.later h hlater
  | resettingWrite data seen epoch =>
      refine ⟨h.1.later hlater, fun hseen => ?_⟩
      have hsame : w.written = w'.written := le_antisymm hlater.written (hseen ▸ h.1.1)
      rw [hlater.file hsame]
      exact h.2 (hseen.trans hsame.symm)
  | selecting watermark =>
      rw [Reached, hlater.lastRead]
      exact h
  | waiting post cut =>
      rw [Reached, hlater.lastRead]
      exact ⟨fun m hm => (h.1 m hm).imp_left (hlater.posts m), h.2⟩
  | saving => exact fun m hm => hlater.posts m (h m hm)
  | savingWrite data seen => exact ⟨fun m hm => hlater.posts m (h.1 m hm), h.2.later hlater⟩

/-- A hook goes on, and the world is later for all others. -/
theorem held_enter (h : Held w) (hcount : ∀ s, loadWatermark w'.file s = (w'.lastRead s).length)
    (hread : ∀ s, ∀ m ∈ w'.lastRead s, Covered w' s m)
    (hothers : ∀ t, t ≠ s → Later w w' t) (hrunning : w'.running = w.running) {phase : Phase}
    (hfallback : stop.fallback ≠ none → stop.transcript = [])
    (hphase : Reached w' s stop phase) : Held (enter w' s stop phase) where
  count := hcount
  read := hread
  fallback := by
    intro t other hother
    rw [enter, hrunning, OrdMap.get?_set] at hother
    split at hother
    · obtain rfl := Option.some.inj hother
      exact hfallback
    · exact h.fallback t other hother
  reached := by
    intro t other hother
    rw [enter, hrunning, OrdMap.get?_set] at hother
    split at hother
    · next hsame =>
        obtain rfl := Option.some.inj hother
        rw [hsame]
        -- what is reached does not speak of the hooks that run
        cases phase with
        | loading | resetting | resettingEpoch | resettingWrite | selecting | waiting | saving
        | savingWrite => exact hphase
    · next hother' =>
        have hreached := (h.reached t other hother).later (hothers t hother')
        cases hphase : other.phase with
        | loading | resetting | resettingEpoch | resettingWrite | selecting | waiting | saving
        | savingWrite =>
            rw [hphase] at hreached
            exact hreached

theorem held_finish (h : Held w) (hcount : ∀ s, loadWatermark w'.file s = (w'.lastRead s).length)
    (hread : ∀ s, ∀ m ∈ w'.lastRead s, Covered w' s m)
    (hothers : ∀ t, t ≠ s → Later w w' t) (hrunning : w'.running = w.running) :
    Held (finish w' s) where
  count := hcount
  read := hread
  fallback := by
    intro t other hother
    rw [finish, hrunning, OrdMap.get?_erase] at hother
    split at hother
    · cases hother
    · exact h.fallback t other hother
  reached := by
    intro t other hother
    rw [finish, hrunning, OrdMap.get?_erase] at hother
    split at hother
    · cases hother
    · next hother' =>
        have hreached := (h.reached t other hother).later (hothers t hother')
        cases hphase : other.phase with
        | loading | resetting | resettingEpoch | resettingWrite | selecting | waiting | saving
        | savingWrite =>
            rw [hphase] at hreached
            exact hreached

theorem Later.refl : Later w w t := ⟨le_rfl, fun _ => rfl, rfl, fun _ h => h⟩

theorem held_enter_same (h : Held w) {phase : Phase}
    (hfallback : stop.fallback ≠ none → stop.transcript = []) (hphase : Reached w s stop phase) :
    Held (enter w s stop phase) :=
  held_enter h h.count h.read (fun _ _ => .refl) rfl hfallback hphase

theorem held_finish_same (h : Held w) : Held (finish w s) :=
  held_finish h h.count h.read (fun _ _ => .refl) rfl

variable {transcript : List Message}

theorem later_write {file : File} (hne : t ≠ s) :
    Later w (remember (write w file) s transcript) t where
  written := Nat.le_succ _
  file := fun h => absurd h (Nat.lt_succ_self _).ne
  lastRead := if_neg hne
  posts := fun _ h => h

/-- The file is written, and the session's count is that of a transcript that is covered. -/
theorem held_remember (h : Held w) {file : File} (hcovered : ∀ m ∈ transcript, Covered w s m)
    (hfile : ∀ t, loadWatermark file t =
      if t = s then transcript.length else loadWatermark w.file t) :
    (∀ t, loadWatermark (remember (write w file) s transcript).file t =
        ((remember (write w file) s transcript).lastRead t).length) ∧
      ∀ t, ∀ m ∈ (remember (write w file) s transcript).lastRead t,
        Covered (remember (write w file) s transcript) t m := by
  refine ⟨fun t => ?_, fun t m hm => ?_⟩
  · refine (hfile t).trans ?_
    rw [remember]
    dsimp only
    split
    · rfl
    · exact h.count t
  · rw [remember] at hm
    dsimp only at hm
    split at hm
    · next hsame => exact hsame ▸ hcovered m hm
    · exact h.read t m hm

/-- A hook's own step. -/
theorem held_advance (h : Held w) (hstop : w.running.get? s = some stop)
    (horder : ∀ seen, stop.phase.seenAtWrite = some seen → seen = w.written)
    (hstep : advance config w s stop = some w') : Held w' := by
  have hfallback := h.fallback s stop hstop
  have hreached := h.reached s stop hstop
  rw [advance] at hstep
  cases hphase : stop.phase with
  | loading =>
      rw [hphase] at hstep hreached
      dsimp only at hstep
      cases hfall : stop.fallback with
      | some text =>
          rw [hfall] at hstep
          have hempty := hfallback (by rw [hfall]; exact Option.some_ne_none text)
          dsimp only at hstep
          split at hstep
          · obtain rfl := Option.some.inj hstep
            exact held_finish_same h
          · obtain rfl := Option.some.inj hstep
            refine held_enter_same h hfallback ⟨fun m hm => ?_, fun hcut => absurd rfl hcut⟩
            rw [hempty] at hm
            cases hm
      | none =>
          rw [hfall] at hstep
          dsimp only at hstep
          split at hstep
          · obtain rfl := Option.some.inj hstep
            exact held_enter_same h hfallback trivial
          · next hlong =>
              obtain rfl := Option.some.inj hstep
              refine held_enter_same h hfallback ⟨h.count s, ?_⟩
              rw [h.count s] at hlong
              exact (hreached hfall).resolve_right hlong
  | resetting =>
      rw [hphase] at hstep
      obtain rfl := Option.some.inj hstep
      exact held_enter_same h hfallback ⟨le_rfl, fun _ => rfl⟩
  | resettingEpoch data seen =>
      rw [hphase] at hstep hreached
      obtain rfl := Option.some.inj hstep
      exact held_enter_same h hfallback ⟨hreached, fun _ => Nat.le_succ _⟩
  | resettingWrite data seen epoch =>
      rw [hphase] at hstep hreached horder
      obtain rfl := Option.some.inj hstep
      obtain rfl := hreached.1.2 (horder seen rfl)
      obtain ⟨hcount, hread⟩ := held_remember h (List.forall_mem_nil _)
        (fun t => @loadWatermark_bumpEpoch w.file s t epoch)
      refine held_enter h hcount hread (fun t ht => later_write ht) rfl hfallback ?_
      refine ⟨?_, ?_⟩
      · rw [remember]
        dsimp only
        rw [if_pos rfl]
        rfl
      · rw [remember]
        dsimp only
        rw [if_pos rfl]
        exact List.nil_prefix
  | selecting watermark =>
      rw [hphase] at hstep hreached
      obtain ⟨rfl, hprefix⟩ := hreached
      dsimp only at hstep
      split at hstep
      · obtain rfl := Option.some.inj hstep
        exact held_finish_same h
      · obtain rfl := Option.some.inj hstep
        refine held_enter_same h hfallback ⟨fun m hm => ?_, fun hcut => ?_⟩
        · obtain ⟨rest, hrest⟩ := hprefix
          have hdrop : stop.transcript.drop (w.lastRead s).length = rest := by
            rw [← hrest, List.drop_left]
          rw [← hrest] at hm
          rcases List.mem_append.mp hm with hm | hm
          · exact .inl (h.read s m hm)
          · rw [← hdrop] at hm
            exact .inr (mem_selected_or_cut hm)
        · by_contra hne
          exact hcut (cutMessages_of_pos fun hzero => hne (List.length_eq_zero_iff.mp hzero))
  | waiting post cut =>
      rw [hphase] at hstep
      cases hstep
  | saving =>
      rw [hphase] at hstep hreached
      obtain rfl := Option.some.inj hstep
      exact held_enter_same h hfallback ⟨hreached, le_rfl, fun _ => rfl⟩
  | savingWrite data seen =>
      rw [hphase] at hstep hreached horder
      obtain rfl := hreached.2.2 (horder seen rfl)
      dsimp only at hstep
      cases hfall : stop.fallback with
      | some text =>
          rw [hfall] at hstep
          obtain rfl := Option.some.inj hstep
          refine held_finish h (fun t => ?_) h.read (fun t ht => ?_) rfl
          · exact loadWatermark_saveFallbackHash.trans (h.count t)
          · exact ⟨Nat.le_succ _, fun hsame => absurd hsame (Nat.lt_succ_self _).ne, rfl, fun _ h => h⟩
      | none =>
          rw [hfall] at hstep
          obtain rfl := Option.some.inj hstep
          obtain ⟨hcount, hread⟩ := held_remember h hreached.1
            (fun t => @loadWatermark_saveWatermark w.file s t stop.transcript.length)
          exact held_finish h hcount hread (fun t ht => later_write ht) rfl

/-- A hook starts. -/
theorem held_start_stop (h : Held w) {fallback : Option String}
    (hcontinues : Continues w s transcript) (hfallback : fallback ≠ none → transcript = []) :
    Held { w with running := w.running.set s ⟨transcript, fallback, .loading⟩ } :=
  @held_enter_same w s ⟨transcript, fallback, .loading⟩ h .loading hfallback fun _ => hcontinues

theorem held_step {event : Event} (h : Held w) (horder : InOrder w event)
    (hstep : step config w event = some w') : Held w' := by
  cases event with
  | start sessionId transcript lastAssistant =>
      rw [step] at hstep
      split at hstep
      · cases hstep
      · split at hstep
        · next hempty =>
            split at hstep
            · obtain rfl := Option.some.inj hstep
              exact h
            · obtain rfl := Option.some.inj hstep
              exact held_start_stop h horder fun _ => List.isEmpty_iff.mp hempty
        · obtain rfl := Option.some.inj hstep
          exact held_start_stop h horder fun hne => absurd rfl hne
  | advance sessionId =>
      obtain ⟨stop, hstop, hadvance⟩ := Option.bind_eq_some_iff.mp hstep
      exact held_advance h hstop (horder stop hstop) hadvance
  | respond sessionId response =>
      rw [step] at hstep
      split at hstep
      · cases hstep
      · next stop hstop =>
          split at hstep
          · next post cut hphase =>
              have hreached := h.reached sessionId stop hstop
              rw [hphase] at hreached
              split at hstep
              · obtain rfl := Option.some.inj hstep
                have hlater : ∀ t, Later w (accept w sessionId post cut) t := by
                  intro t
                  refine ⟨le_rfl, fun _ => rfl, rfl, fun m hm => ?_⟩
                  rcases hm with ⟨old, hold, hm⟩ | hcut
                  · exact .inl ⟨old, List.mem_append_left _ hold, hm⟩
                  · exact .inr (List.mem_append_left _ hcut)
                refine @held_enter w (accept w sessionId post cut) sessionId stop h h.count
                  (fun t m hm => (hlater t).posts m (h.read t m hm)) (fun t _ => hlater t) rfl .saving
                  (h.fallback sessionId stop hstop) fun m hm => ?_
                rcases hreached.1 m hm with hcovered | hposted | hcut
                · exact (hlater sessionId).posts m hcovered
                · exact .inl ⟨post, List.mem_append_right _ (List.mem_singleton_self _), hposted⟩
                · exact .inr (List.mem_append_right _ (List.mem_map.mpr ⟨m, hcut, rfl⟩))
              · obtain rfl := Option.some.inj hstep
                exact held_finish_same h
          · cases hstep
  | abandon sessionId =>
      obtain rfl := Option.some.inj hstep
      exact held_finish_same h

/-! ### What a step keeps -/

/-- A step that leaves the file and what was cut off alone. -/
theorem Keeps.of_same {event : Event} (hfile : w'.file = w.file) (hcut : w'.cut = w.cut)
    (hresponse : ∀ s response, event = .respond s (some response) →
      isSuccessfulResponse response = true → w.running.get? s = none) : Keeps w event w' where
  epoch := fun s => (congrArg (loadEpoch · s) hfile).ge
  watermark := fun s hne => absurd (congrArg (loadWatermark · s) hfile) hne
  covered := by
    intro s response stop hevent hsuccess hstop
    rw [hresponse s response hevent hsuccess] at hstop
    cases hstop
  fresh := by
    intro s m hm
    rw [CutOff, hcut] at hm
    exact .inl hm

theorem keeps_advance (h : Held w) (hstop : w.running.get? s = some stop)
    (horder : ∀ seen, stop.phase.seenAtWrite = some seen → seen = w.written)
    (hstep : advance config w s stop = some w') : Keeps w (.advance s) w' := by
  have hsame : w'.file = w.file → w'.cut = w.cut → Keeps w (.advance s) w' :=
    fun hfile hcut => .of_same hfile hcut fun t response hevent => nomatch hevent
  have hreached := h.reached s stop hstop
  rw [advance] at hstep
  cases hphase : stop.phase with
  | loading =>
      rw [hphase] at hstep
      dsimp only at hstep
      split at hstep
      · split at hstep
        · obtain rfl := Option.some.inj hstep
          exact hsame rfl rfl
        · obtain rfl := Option.some.inj hstep
          exact hsame rfl rfl
      · split at hstep
        · obtain rfl := Option.some.inj hstep
          exact hsame rfl rfl
        · obtain rfl := Option.some.inj hstep
          exact hsame rfl rfl
  | resetting | resettingEpoch | saving =>
      rw [hphase] at hstep
      obtain rfl := Option.some.inj hstep
      exact hsame rfl rfl
  | resettingWrite data seen epoch =>
      rw [hphase] at hstep hreached horder
      obtain rfl := Option.some.inj hstep
      obtain rfl := hreached.1.2 (horder seen rfl)
      refine
        { epoch := fun t => ?_
          watermark := fun t hne => ?_
          covered := fun t response stop hevent => nomatch hevent
          fresh := fun t m hm => .inl hm }
      · refine le_of_le_of_eq ?_ loadEpoch_bumpEpoch.symm
        split
        · next hts =>
            rw [hts]
            exact hreached.2 (horder seen rfl)
        · exact le_rfl
      · by_contra hother
        exact hne (loadWatermark_bumpEpoch.trans (if_neg (Ne.symm hother)))
  | selecting watermark =>
      rw [hphase] at hstep
      dsimp only at hstep
      split at hstep
      · obtain rfl := Option.some.inj hstep
        exact hsame rfl rfl
      · obtain rfl := Option.some.inj hstep
        exact hsame rfl rfl
  | waiting post cut =>
      rw [hphase] at hstep
      cases hstep
  | savingWrite data seen =>
      rw [hphase] at hstep hreached horder
      obtain rfl := hreached.2.2 (horder seen rfl)
      dsimp only at hstep
      split at hstep
      · obtain rfl := Option.some.inj hstep
        refine
          { epoch := fun t => loadEpoch_saveFallbackHash.ge
            watermark := fun t hne => absurd loadWatermark_saveFallbackHash hne
            covered := fun t response stop hevent => nomatch hevent
            fresh := fun t m hm => .inl hm }
      · obtain rfl := Option.some.inj hstep
        refine
          { epoch := fun t => loadEpoch_saveWatermark.ge
            watermark := fun t hne => ?_
            covered := fun t response stop hevent => nomatch hevent
            fresh := fun t m hm => .inl hm }
        by_contra hother
        exact hne (loadWatermark_saveWatermark.trans (if_neg (Ne.symm hother)))

theorem stepKeeps {event : Event} (h : Held w) (horder : InOrder w event) :
    StepKeeps config w event := by
  intro w' hstep
  have hheld := held_step h horder hstep
  cases event with
  | start sessionId transcript lastAssistant =>
      have hresponse : ∀ s response, Event.start sessionId transcript lastAssistant =
          .respond s (some response) → isSuccessfulResponse response = true →
            w.running.get? s = none := fun s response hevent => nomatch hevent
      rw [step] at hstep
      split at hstep
      · cases hstep
      · split at hstep
        · split at hstep
          · obtain rfl := Option.some.inj hstep
            exact .of_same rfl rfl hresponse
          · obtain rfl := Option.some.inj hstep
            exact .of_same rfl rfl hresponse
        · obtain rfl := Option.some.inj hstep
          exact .of_same rfl rfl hresponse
  | advance sessionId =>
      obtain ⟨stop, hstop, hadvance⟩ := Option.bind_eq_some_iff.mp hstep
      exact keeps_advance h hstop (horder stop hstop) hadvance
  | respond sessionId response =>
      rw [step] at hstep
      split at hstep
      · cases hstep
      · next stop hstop =>
          split at hstep
          · next post cut hphase =>
              have hreached := h.reached sessionId stop hstop
              rw [hphase] at hreached
              split at hstep
              · next hsuccess =>
                  obtain rfl := Option.some.inj hstep
                  refine
                    { epoch := fun t => le_rfl
                      watermark := fun t hne => absurd rfl hne
                      covered := fun t other stop' hevent _ hstop' m hm => ?_
                      fresh := fun t m hm => ?_ }
                  · obtain ⟨rfl, -⟩ := Event.respond.inj hevent
                    obtain rfl := Option.some.inj (hstop.symm.trans hstop')
                    exact hheld.reached sessionId _ (OrdMap.get?_set_self _ _ _) m hm
                  · rcases List.mem_append.mp hm with hm | hm
                    · exact .inl hm
                    · obtain ⟨m', hm', heq⟩ := List.mem_map.mp hm
                      obtain ⟨rfl, rfl⟩ := Prod.mk.inj heq
                      exact .inr (hreached.2 (List.ne_nil_of_mem hm'))
              · next hfailed =>
                  obtain rfl := Option.some.inj hstep
                  refine
                    { epoch := fun t => le_rfl
                      watermark := fun t hne => absurd rfl hne
                      covered := fun t other stop' hevent hsuccess => ?_
                      fresh := fun t m hm => .inl hm }
                  obtain ⟨-, rfl⟩ := Event.respond.inj hevent
                  exact absurd hsuccess hfailed
          · cases hstep
  | abandon sessionId =>
      obtain rfl := Option.some.inj hstep
      exact .of_same rfl rfl fun s response hevent => nomatch hevent

/-- **In a run in order watermarks neither skip nor run back.** -/
theorem watermarks_keep {events : List Event}
    (horder : Runs.Along (step config) InOrder {} events) :
    Runs.Along (step config) (StepKeeps config) {} events :=
  Runs.Along.imp_guarded (fun _ _ _ h horder hstep => held_step h horder hstep)
    (fun _ _ h horder => stepKeeps h horder) held_start horder

instance (w : World) (sessionId : String) (transcript : List Message) :
    Decidable (Continues w sessionId transcript) := inferInstanceAs (Decidable (_ ∨ _))

instance (w : World) : (event : Event) → Decidable (InOrder w event)
  | .start sessionId transcript _ => inferInstanceAs (Decidable (Continues w sessionId transcript))
  | .advance sessionId => inferInstanceAs (Decidable (∀ stop ∈ w.running.get? sessionId,
      ∀ seen ∈ stop.phase.seenAtWrite, seen = w.written))
  | .respond _ _ | .abandon _ => isTrue trivial

/-- A hook that starts, and is accepted, up to its last two steps. -/
def posting (sessionId : String) (transcript : List Message) : List Event :=
  [.start sessionId transcript none, .advance sessionId, .advance sessionId,
    .respond sessionId (some ⟨200, false, false, ""⟩)]

def question : Message := ⟨.user, "Which port?", some 0, none⟩

def answer : Message := ⟨.assistant, "7700.", some 1, none⟩

def summary : Message := ⟨.user, "The port is 7700.", some 0, none⟩

/-- A transcript grows, another session begins, and the first is compacted. -/
def growingRun : List Event :=
  posting "a" [question] ++ [.advance "a", .advance "a"] ++
    posting "a" [question, answer] ++ [.advance "a", .advance "a"] ++
    posting "b" [question] ++ [.advance "b", .advance "b"] ++
    [.start "a" [summary] none, .advance "a", .advance "a", .advance "a", .advance "a", .advance "a",
      .respond "a" (some ⟨200, false, false, ""⟩), .advance "a", .advance "a"]

theorem watermarks_growingRun :
    (Runs.exec (step ⟨8, id⟩) {} growingRun).map (fun w =>
        (loadWatermark w.file "a", loadEpoch w.file "a", loadWatermark w.file "b")) =
      some (1, 1, 1) ∧ Runs.Along (step ⟨8, id⟩) (StepKeeps ⟨8, id⟩) {} growingRun :=
  ⟨by decide +kernel, watermarks_keep (by decide +kernel)⟩

/-- One hook writes what it read before the other wrote. -/
def staleWrite : List Event :=
  posting "a" [question] ++ [.advance "a"] ++ posting "b" [question] ++ [.advance "b", .advance "b"]

/-- A transcript is rewritten, no shorter than before. -/
def rewritten : List Event :=
  posting "a" [question] ++ [.advance "a", .advance "a"] ++
    [.start "a" [summary, answer] none, .advance "a", .advance "a"]

/-- The stale write takes the other session's watermark back, and what was rewritten is skipped. -/
theorem watermarks_lost :
    ¬(∀ config events, Runs.Along (step config) (StepKeeps config) {} events) ∧
      ¬Runs.Along (step ⟨8, id⟩) (StepKeeps ⟨8, id⟩) {}
        (rewritten ++ [.respond "a" (some ⟨200, false, false, ""⟩)]) := by
  constructor
  · intro hall
    obtain ⟨w, hrun⟩ : ∃ w, Runs.exec (step ⟨8, id⟩) {} staleWrite = some w := ⟨_, rfl⟩
    have hback : loadWatermark w.file "b" = 1 ∧
        (step ⟨8, id⟩ w (.advance "a")).map (fun w' => loadWatermark w'.file "b") = some 0 := by
      obtain rfl := Option.some.inj hrun
      decide +kernel
    obtain ⟨w', hstep, hzero⟩ := Option.map_eq_some_iff.mp hback.2
    have hkeeps := (hall ⟨8, id⟩ (staleWrite ++ [.advance "a"])).at hrun w' hstep
    have hsession := hkeeps.watermark "b" (by rw [hback.1, hzero]; decide)
    exact absurd hsession (by decide)
  · intro hall
    obtain ⟨w, hrun⟩ : ∃ w, Runs.exec (step ⟨8, id⟩) {} rewritten = some w := ⟨_, rfl⟩
    have hskipped : (w.running.get? "a").map Stop.transcript = some [summary, answer] ∧
        (step ⟨8, id⟩ w (.respond "a" (some ⟨200, false, false, ""⟩))).map (fun w' =>
          (w'.posts.all fun post => !post.2.messages.contains summary) && w'.cut.isEmpty) =
            some true := by
      obtain rfl := Option.some.inj hrun
      decide +kernel
    obtain ⟨stop, hstop, htranscript⟩ := Option.map_eq_some_iff.mp hskipped.1
    obtain ⟨w', hstep, hnone⟩ := Option.map_eq_some_iff.mp hskipped.2
    rw [Bool.and_eq_true, List.all_eq_true] at hnone
    have hcovered := (hall.at hrun w' hstep).covered "a" _ stop rfl (by decide) hstop summary
      (htranscript ▸ List.mem_cons_self)
    rcases hcovered with ⟨post, hpost, hm⟩ | hcut
    · have := hnone.1 _ hpost
      simp [hm] at this
    · rw [CutOff, List.isEmpty_iff.mp hnone.2] at hcut
      cases hcut

end Runir.CodexWatermarks
