import Odooctl.InterleavedPrograms
import Odooctl.RunnerFiles

/-!
# The event stream of an operation

`GET /operations/{op_id}/events` of `api/routes_operations.py`: each poll reads the events and
then the status, and the runner writes both in between.
-/
namespace EventStream

open EffectPrograms InterleavedPrograms RunnerWorker RunnerFiles
open CapabilityTokens (isAscii_signature)
open NonceStore (Map)

/-! ## The stream -/

inductive SseCall where
  | load_events (op_id : String)
  | yield_event (event : Event)
  | load (op_id : String)
  | sleep

abbrev SseCall.Answer : SseCall → Type
  | .load_events _ => List Event
  | .load _ => Except LoadFailure Operation
  | _ => Unit

abbrev Sse : Interface := ⟨SseCall, SseCall.Answer⟩

/-- Why a stream ends: the status is terminal, or there are no polls left. -/
inductive StreamEnd where
  | terminal
  | max_polls
  deriving DecidableEq, Repr

abbrev SseM := Prog Sse LoadFailure

def ask (o : SseCall) : SseM o.Answer := .perform (F := Sse) o .ok

def MAX_POLLS_CEILING : ℤ := 600

def clamp_max_polls (value : ℤ) : ℕ := (max 1 (min value MAX_POLLS_CEILING)).toNat

def yield_all : List Event → SseM Unit
  | [] => .pure ()
  | event :: rest => do
    ask (.yield_event event)
    yield_all rest

/-- `_generate`, with the number of polls that are left. -/
def generate (op_id : String) (seen : ℕ) : ℕ → SseM StreamEnd
  | 0 => .pure .max_polls
  | left + 1 => do
    let events ← ask (.load_events op_id)
    yield_all (events.drop seen)
    let current_op ← .perform (F := Sse) (.load op_id) id
    if current_op.status.terminal then .pure .terminal
    else if left = 0 then .pure .max_polls
    else do
      ask .sleep
      generate op_id (seen + (events.drop seen).length) left

def stream_events (op_id : String) (max_polls : ℤ) : SseM StreamEnd :=
  generate op_id 0 (clamp_max_polls max_polls)

/-! ## The store between the stream and the writers -/

/-- `saved_at` counts the events an operation had when its record was last saved, `read_at` those
that there were when the stream last read them; `loaded_at` is the count of `saved_at` for the
record that the stream last loaded. -/
structure Feed where
  files : Files
  events : String → List Event
  saved_at : String → ℕ
  read_at : ℕ
  loaded_at : ℕ
  yielded : List Event

def Feed.append (s : Feed) (event : Event) : Feed :=
  { s with events := Function.update s.events event.op_id (s.events event.op_id ++ [event]) }

def Feed.save (s : Feed) (op_id : String) : Feed :=
  { s with saved_at := Function.update s.saved_at op_id (s.events op_id).length }

def sseWorld : World Sse Feed
  | .load_events op_id, s, r, t =>
      r = s.events op_id ∧ t = { s with read_at := (s.events op_id).length }
  | .yield_event event, s, _, t => t = { s with yielded := s.yielded ++ [event] }
  | .load op_id, s, r, t => r = stored s.files op_id ∧ t = { s with loaded_at := s.saved_at op_id }
  | .sleep, s, _, t => t = s

/-- What a writer does; a service may append events of its own. -/
def writerWorld {C : Type} : World (Runner C) Feed := fun o s r t =>
  files o s.files r t.files ∧ match o with
    | .append_event event => t = { s.append event with files := t.files }
    | .save op => t = { s.save op.id with files := t.files }
    | .service _ => (∀ op_id, s.events op_id <+: t.events op_id) ∧
        t = { s with files := t.files, events := t.events }
    | _ => t = { s with files := t.files }

section Pool

variable {J C : Type}

/-- The stream is `none`, the writers are the others. -/
abbrev calls (C : Type) : Option J → Interface
  | none => Sse
  | some _ => Runner C

abbrev failures : Option J → Type
  | none => LoadFailure
  | some _ => RunnerFailure

abbrev results : Option J → Type
  | none => StreamEnd
  | some _ => Bool

abbrev Programs (J C : Type) := Pool (calls (J := J) C) failures results

def programs (stream : SseM StreamEnd) (writers : J → RunnerM C Bool) : Programs J C
  | none => stream
  | some j => writers j

def world : (i : Option J) → World (calls C i) Feed
  | none => sseWorld
  | some _ => writerWorld

end Pool

/-! ## What the stream may rely on -/

/-- The events saved before a record are among those of the operation. -/
def Counted (s : Feed) : Prop := ∀ op_id, s.saved_at op_id ≤ (s.events op_id).length

structure Around (s t : Feed) : Prop where
  events : ∀ op_id, s.events op_id <+: t.events op_id
  read_at : t.read_at = s.read_at
  loaded_at : t.loaded_at = s.loaded_at
  yielded : t.yielded = s.yielded

theorem Around.refl (s : Feed) : Around s s := ⟨fun _ => List.prefix_refl _, rfl, rfl, rfl⟩

theorem Around.trans {s t u : Feed} (h : Around s t) (k : Around t u) : Around s u where
  events op_id := (h.events op_id).trans (k.events op_id)
  read_at := k.read_at.trans h.read_at
  loaded_at := k.loaded_at.trans h.loaded_at
  yielded := k.yielded.trans h.yielded

theorem Counted.append {s : Feed} (h : Counted s) (event : Event) : Counted (s.append event) := by
  intro op_id
  by_cases hid : op_id = event.op_id
  · subst hid
    have hs := h event.op_id
    simp only [Feed.append, Function.update_self, List.length_append]
    omega
  · simpa [Feed.append, hid] using h op_id

theorem around_append (s : Feed) (event : Event) : Around s (s.append event) := by
  refine ⟨?_, rfl, rfl, rfl⟩
  intro op_id
  by_cases hid : op_id = event.op_id
  · subst hid
    simp [Feed.append]
  · simp [Feed.append, hid]

theorem Counted.save {s : Feed} (h : Counted s) (op_id : String) : Counted (s.save op_id) := by
  intro other
  by_cases hid : other = op_id
  · subst hid
    simp [Feed.save]
  · simpa [Feed.save, hid] using h other

section Writers

variable {C : Type} {o : RunnerCall C} {r : o.Answer} {s t : Feed}

theorem writer_step (hs : Counted s) (hw : writerWorld o s r t) : Counted t ∧ Around s t := by
  obtain ⟨-, hw⟩ := hw
  have hsame : t = { s with files := t.files } → Counted t ∧ Around s t := by
    intro h
    rw [h]
    exact ⟨hs, fun _ => List.prefix_refl _, rfl, rfl, rfl⟩
  cases o with
  | append_event event =>
    have heq : t = { s.append event with files := t.files } := hw
    rw [heq]
    obtain ⟨hevents, hread, hloaded, hyielded⟩ := around_append s event
    exact ⟨hs.append event, hevents, hread, hloaded, hyielded⟩
  | save op =>
    have heq : t = { s.save op.id with files := t.files } := hw
    rw [heq]
    exact ⟨hs.save op.id, fun _ => List.prefix_refl _, rfl, rfl, rfl⟩
  | service call =>
    obtain ⟨hgrow, heq⟩ := hw
    have hsaved : t.saved_at = s.saved_at := by rw [heq]
    refine ⟨?_, hgrow, by rw [heq], by rw [heq], by rw [heq]⟩
    intro op_id
    rw [hsaved]
    exact Nat.le_trans (hs op_id) (hgrow op_id).length_le
  | list_pending | claim | read_running | mark_corrupt | load | complete | fail | now | consume
  | lock_enter | lock_exit | audit_append => exact hsame hw

end Writers

section Contract

variable {J C : Type}

def feed : Contract (calls (J := J) C) Feed where
  invariant := Counted
  rely := fun i => match i with
    | none => Around
    | some _ => fun _ _ => True
  guard := fun _ _ _ => True
  rely_refl := by
    intro i s
    cases i with
    | none => exact Around.refl s
    | some _ => trivial
  rely_trans := by
    intro i s t u h k
    cases i with
    | none => exact Around.trans h k
    | some _ => trivial

theorem pool_honours : (feed (J := J) (C := C)).Honoured world := by
  intro i o s r t hs _ hw
  cases i with
  | none =>
    refine ⟨?_, ?_⟩
    · cases o with
      | load_events op_id | load op_id =>
        obtain ⟨-, rfl⟩ := (hw : _ ∧ _)
        exact hs
      | yield_event event =>
        obtain rfl : t = { s with yielded := s.yielded ++ [event] } := hw
        exact hs
      | sleep =>
        obtain rfl : t = s := hw
        exact hs
    · intro j hj
      cases j with
      | none => exact absurd rfl hj
      | some _ => trivial
  | some i =>
    obtain ⟨hcounted, haround⟩ := writer_step hs hw
    refine ⟨hcounted, ?_⟩
    intro j _
    cases j with
    | none => exact haround
    | some _ => trivial

/-! ## The polls -/

abbrev met : World Sse Feed := (feed (J := J) (C := C)).around world none

abbrev unguarded : SseCall → Feed → Prop := (feed (J := J) (C := C)).guard none

variable {op_id : String} {s t : Feed} {α : Type}

/-- One operation of the stream, and then what the writers do. -/
theorem wp_sse {o : SseCall} {reply : o.Answer → Except LoadFailure α}
    {R : Except LoadFailure α → Feed → Prop}
    (h : ∀ r u, sseWorld o s r u → ∀ t, Around u t → Counted t → R (reply r) t) :
    wp (met (J := J) (C := C)) (unguarded (J := J) (C := C)) (.perform (F := Sse) o reply) R s := by
  apply wp_perform.mpr
  refine ⟨trivial, ?_⟩
  intro r t ht
  obtain ⟨u, hw, hrely, hinv⟩ := ht
  exact h r u hw t hrely hinv

/-- The first `n` events have been yielded, and they were there when the events were read. -/
structure Yielded (op_id : String) (n : ℕ) (s : Feed) : Prop where
  yielded : s.yielded = (s.events op_id).take n
  there : n ≤ (s.events op_id).length

theorem Yielded.around {n : ℕ} (h : Yielded op_id n s) (k : Around s t) : Yielded op_id n t := by
  obtain ⟨rest, hrest⟩ := k.events op_id
  refine ⟨?_, ?_⟩
  · rw [k.yielded, h.yielded, ← hrest, List.take_append_of_le_length h.there]
  · exact Nat.le_trans h.there (k.events op_id).length_le

/-- Yielding the events that follow. -/
theorem wp_yield_all {more : List Event} {n : ℕ} (hs : Counted s) (h : Yielded op_id n s)
    (hmore : more <+: (s.events op_id).drop n) :
    wp (met (J := J) (C := C)) (unguarded (J := J) (C := C)) (yield_all more)
      (fun r t => r = .ok () ∧ Yielded op_id (n + more.length) t ∧ t.read_at = s.read_at ∧
        Counted t) s := by
  induction more generalizing n s with
  | nil => exact ⟨rfl, h, rfl, hs⟩
  | cons event rest ih =>
    rw [yield_all]
    apply wp_bind'.mpr
    apply wp_sse
    intro _ u hu t haround hcounted
    obtain rfl : u = { s with yielded := s.yielded ++ [event] } := hu
    obtain ⟨after, hafter⟩ := hmore
    have hlt : n < (s.events op_id).length := by
      have hlen := congrArg List.length hafter
      rw [List.length_drop, List.length_append, List.length_cons] at hlen
      omega
    have hnext : Yielded op_id (n + 1) { s with yielded := s.yielded ++ [event] } := by
      refine ⟨?_, hlt⟩
      have hget : (s.events op_id)[n]? = some event := by
        rw [← Nat.add_zero n, ← List.getElem?_drop, ← hafter]
        rfl
      change s.yielded ++ [event] = (s.events op_id).take (n + 1)
      rw [h.yielded, List.take_add_one, hget]
      rfl
    have hrest : rest <+: (t.events op_id).drop (n + 1) := by
      have hdrop : (s.events op_id).drop (n + 1) = rest ++ after := by
        rw [← List.drop_drop, ← hafter]
        rfl
      obtain ⟨new, hnew⟩ := haround.events op_id
      rw [← hnew]
      change rest <+: (s.events op_id ++ new).drop (n + 1)
      rw [List.drop_append_of_le_length hlt, hdrop, List.append_assoc]
      exact List.prefix_append _ _
    apply wp_post (ih hcounted (hnext.around haround) hrest)
    rintro r v ⟨hr, hyielded, hread, hcounted'⟩
    rw [Nat.add_right_comm, Nat.add_assoc] at hyielded
    exact ⟨hr, hyielded, hread.trans haround.read_at, hcounted'⟩

/-- A stream that ends at a terminal status has yielded what it read last. -/
theorem wp_generate (left : ℕ) {seen : ℕ} (h : Yielded op_id seen s) :
    wp (met (J := J) (C := C)) (unguarded (J := J) (C := C)) (generate op_id seen left)
      (fun r t => r = .ok .terminal →
        Yielded op_id t.read_at t ∧ t.loaded_at ≤ (t.events op_id).length) s := by
  induction left generalizing seen s with
  | zero => exact fun h => nomatch h
  | succ left ih =>
    rw [generate]
    apply wp_bind'.mpr
    apply wp_sse
    intro events u hu t₁ h₁ hcounted
    obtain ⟨rfl, rfl⟩ := (hu : events = _ ∧ u = _)
    dsimp only
    have hthere : Yielded op_id seen t₁ :=
      Yielded.around (s := { s with read_at := (s.events op_id).length }) ⟨h.yielded, h.there⟩ h₁
    have hmore : (s.events op_id).drop seen <+: (t₁.events op_id).drop seen := by
      obtain ⟨new, hnew⟩ := h₁.events op_id
      rw [← hnew, List.drop_append_of_le_length h.there]
      exact List.prefix_append _ _
    apply wp_bind'.mpr
    apply wp_post (wp_yield_all hcounted hthere hmore)
    rintro r t₂ ⟨rfl, hyielded, hread, hcounted'⟩
    have hall : seen + ((s.events op_id).drop seen).length = t₂.read_at := by
      have hlen : t₁.read_at = (s.events op_id).length := h₁.read_at
      have hle := h.there
      rw [hread, hlen, List.length_drop]
      omega
    dsimp only
    apply wp_bind'.mpr
    apply wp_sse
    intro loaded v hv t₃ h₃ _
    obtain ⟨-, rfl⟩ := (hv : _ ∧ v = _)
    have hend : Yielded op_id t₃.read_at t₃ := by
      rw [hall] at hyielded
      rw [h₃.read_at]
      exact Yielded.around (s := { t₂ with loaded_at := t₂.saved_at op_id })
        ⟨hyielded.yielded, hyielded.there⟩ h₃
    have hloaded : t₃.loaded_at ≤ (t₃.events op_id).length := by
      rw [h₃.loaded_at]
      exact Nat.le_trans (hcounted' op_id) (h₃.events op_id).length_le
    cases loaded with
    | error e => exact fun h => nomatch h
    | ok current_op =>
      change wp _ _ (if current_op.status.terminal then _ else _) _ _
      split
      · exact fun _ => ⟨hend, hloaded⟩
      split
      · exact fun h => nomatch h
      apply wp_bind'.mpr
      apply wp_sse
      intro _ w hw t₄ h₄ _
      obtain rfl : w = t₃ := hw
      have hseen : w.read_at = seen + ((s.events op_id).drop seen).length :=
        h₃.read_at.trans hall.symm
      rw [hseen] at hend
      exact ih (hend.around h₄)

end Contract

section Delivery

variable {J C : Type} [DecidableEq J]

structure Begun (s : Feed) : Prop where
  counted : Counted s
  yielded : s.yielded = []

/-- Every event appended before the status was saved is yielded once and in the order of the
file, and nothing else is yielded than what follows them. -/
structure Complete (op_id : String) (s : Feed) : Prop where
  before : (s.events op_id).take s.loaded_at <+: s.yielded
  once : s.yielded <+: s.events op_id

/-- A stream that ends at a terminal status is complete just in case no event was appended
between its last reading of the events and the saving of that status. -/
theorem complete_iff_read_after_last_append (op_id : String) (max_polls : ℤ)
    (writers : J → RunnerM C Bool) {s t : Feed} (hs : Begun s) {qs : Programs J C}
    (hrun : Interleaved world s (programs (stream_events op_id max_polls) writers) t qs)
    (hend : qs none = .pure .terminal) : Complete op_id t ↔ t.loaded_at ≤ t.read_at := by
  have hstart : (feed (J := J) (C := C)).Holds world
      (fun i => match i with
        | none => fun r t => r = .ok .terminal →
            Yielded op_id t.read_at t ∧ t.loaded_at ≤ (t.events op_id).length
        | some _ => fun _ _ => True) s (programs (stream_events op_id max_polls) writers) := by
    refine ⟨hs.counted, ?_⟩
    intro i
    cases i with
    | none =>
      intro u hu _
      apply wp_generate
      have hnone : u.yielded = [] := hu.yielded.trans hs.yielded
      exact ⟨by rw [hnone, List.take_zero], Nat.zero_le _⟩
    | some j =>
      intro u _ _
      exact wp_true _ _
  have hall := (hstart.run pool_honours hrun).ended (i := none) (r := .ok StreamEnd.terminal) hend
  obtain ⟨⟨hyielded, hread⟩, hloaded⟩ := hall rfl
  constructor
  · intro h
    have hle := h.before.length_le
    rw [hyielded, List.length_take, List.length_take] at hle
    omega
  · intro hle
    refine ⟨?_, ?_⟩
    · rw [hyielded]
      exact List.take_prefix_take_left hle
    · rw [hyielded]
      exact List.take_prefix _ _

end Delivery

/-! ## The end of a backup -/

def exampleContext : Context Unit where
  key := ⟨fun _ => [115], fun _ => none, isAscii_signature⟩
  kind_protected := fun _ _ => some false
  resolve := fun _ => .ok ()
  redact := id

def exampleEntry : QueueEntry :=
  ⟨"op1", "backup", "acme", "production", "alice", .dict [], []⟩

def queuedFeed : Feed where
  files :=
    { pending := ∅
      running := ∅
      records := (∅ : Map StoredRecord).insert "op1"
        (.record ⟨"op1", "backup", "acme", "production", .queued, "alice", [], none, none⟩) }
  events := fun _ => []
  saved_at := fun _ => 0
  read_at := 0
  loaded_at := 0
  yielded := []

theorem queuedFeed_begun : Begun queuedFeed := ⟨fun _ => Nat.le_refl _, rfl⟩

def serveSse (o : Sse.Op) (s : Feed) : Sse.Reply o × Feed :=
  match o with
  | .load_events op_id => (s.events op_id, { s with read_at := (s.events op_id).length })
  | .yield_event event => ((), { s with yielded := s.yielded ++ [event] })
  | .load op_id => (stored s.files op_id, { s with loaded_at := s.saved_at op_id })
  | .sleep => ((), s)

theorem sseWorld_serve (o : Sse.Op) (s : Feed) :
    sseWorld o s (serveSse o s).1 (serveSse o s).2 := by
  cases o with
  | load_events | load => exact ⟨rfl, rfl⟩
  | yield_event | sleep => rfl

def serveWriter (o : (Runner Unit).Op) (s : Feed) : (Runner Unit).Reply o × Feed :=
  ((RunnerFiles.serve o s.files).1, match o with
    | .append_event event => s.append event
    | .save op => { s.save op.id with files := (RunnerFiles.serve o s.files).2 }
    | _ => { s with files := (RunnerFiles.serve o s.files).2 })

theorem writerWorld_serve (o : (Runner Unit).Op) (s : Feed) :
    writerWorld o s (serveWriter o s).1 (serveWriter o s).2 := by
  have hfiles := RunnerFiles.files_serve o s.files
  cases o with
  | service => exact ⟨hfiles, fun _ => List.prefix_refl _, rfl⟩
  | append_event | save | list_pending | claim | read_running | mark_corrupt | load | complete
  | fail | now | consume | lock_enter | lock_exit | audit_append => exact ⟨hfiles, rfl⟩

def serve : (i : Option Unit) → (o : (calls Unit i).Op) → Feed → (calls Unit i).Reply o × Feed
  | none => serveSse
  | some _ => serveWriter

theorem world_serve (i : Option Unit) (o : (calls Unit i).Op) (s : Feed) :
    world i o s (serve i o s).1 (serve i o s).2 := by
  cases i with
  | none => exact sseWorld_serve o s
  | some _ => exact writerWorld_serve o s

def examplePrograms : Programs Unit Unit :=
  programs (stream_events "op1" 120) fun _ => run_accepted exampleContext exampleEntry

def exampleRun (turns : List (Option Unit)) : Programs Unit Unit × Feed :=
  Pool.turns serve turns examplePrograms queuedFeed

theorem exampleRun_interleaved {turns : List (Option Unit)}
    (h : Pool.every serve (fun _ _ _ => true) turns examplePrograms queuedFeed = true) :
    Interleaved world queuedFeed examplePrograms (exampleRun turns).2 (exampleRun turns).1 :=
  interleaved_turns (fun s => s) (fun i o s _ => world_serve i o s) h

def ended : SseM StreamEnd → Option StreamEnd
  | .pure x => some x
  | _ => none

theorem eq_pure_of_ended {p : SseM StreamEnd} {x : StreamEnd} (h : ended p = some x) :
    p = .pure x := by
  cases p with
  | pure a => exact congrArg Prog.pure (Option.some.inj h)
  | raise e => cases h
  | call o k => cases h

/-- The stream reads the start event, the runner appends the end event and saves the status, and
the stream loads the status. -/
def lastEventLate : List (Option Unit) :=
  List.replicate 7 (some ()) ++ [none, none] ++ List.replicate 3 (some ()) ++ [none]

/-- The stream begins after the status was saved. -/
def lastEventRead : List (Option Unit) := List.replicate 10 (some ()) ++ List.replicate 4 none

def startEvent : Event := ⟨"op1", 0, "info", "start", "operation started: backup on production"⟩

def endEvent : Event := ⟨"op1", 1, "info", "end", "operation completed"⟩

theorem late_facts :
    Pool.every serve (fun _ _ _ => true) lastEventLate examplePrograms queuedFeed = true ∧
    ended ((exampleRun lastEventLate).1 none) = some .terminal ∧
    ((exampleRun lastEventLate).2.events "op1").take (exampleRun lastEventLate).2.loaded_at =
      [startEvent, endEvent] ∧
    (exampleRun lastEventLate).2.yielded = [startEvent] := by
  decide +kernel

/-- The runner's last event is not on the stream that ends with its status. -/
theorem last_event_missing : Begun queuedFeed ∧ ∃ (t : Feed) (qs : Programs Unit Unit),
    Interleaved world queuedFeed examplePrograms t qs ∧ qs none = .pure .terminal ∧
    endEvent ∈ (t.events "op1").take t.loaded_at ∧ endEvent ∉ t.yielded ∧
    ¬ Complete "op1" t := by
  obtain ⟨hturns, hended, hevents, hyielded⟩ := late_facts
  refine ⟨queuedFeed_begun, (exampleRun lastEventLate).2, (exampleRun lastEventLate).1,
    exampleRun_interleaved hturns, eq_pure_of_ended hended, ?_, ?_, ?_⟩
  · rw [hevents]
    decide
  · rw [hyielded]
    decide
  · intro h
    have hbefore := h.before
    rw [hevents, hyielded] at hbefore
    exact absurd hbefore.length_le (by decide)

theorem read_facts :
    Pool.every serve (fun _ _ _ => true) lastEventRead examplePrograms queuedFeed = true ∧
    ended ((exampleRun lastEventRead).1 none) = some .terminal ∧
    (exampleRun lastEventRead).2.loaded_at ≤ (exampleRun lastEventRead).2.read_at := by
  decide +kernel

theorem late_stream_complete : Complete "op1" (exampleRun lastEventRead).2 := by
  obtain ⟨hturns, hended, hread⟩ := read_facts
  exact (complete_iff_read_after_last_append "op1" 120
    (fun _ => run_accepted exampleContext exampleEntry) queuedFeed_begun
    (exampleRun_interleaved hturns) (eq_pure_of_ended hended)).mpr hread

end EventStream
