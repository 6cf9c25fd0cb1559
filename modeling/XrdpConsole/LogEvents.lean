import XrdpConsole.Library.Utf8Decoder

/-!
# Events counted in a log

`LogDelta` of `xrdp_console_episode_sampler.py`: each sample reads what has been appended to the
log since the last one, at most 1 MiB of it, and counts five markers in the text. Over all
samples a marker is counted once for every place it has in what was appended, unless a sample
ends inside of it.
-/

namespace XrdpConsole.LogEvents

open XrdpConsole.Library

set_option autoImplicit false

abbrev Bytes := List UInt8

/-! ## The source class -/

/-- The keys of the values of a sample. -/
inductive Counter where
  | xrdpResizeErrorsNew
  | xrdpResizeQueueNew
  | xrdpGfxDepthNew
  | xrdpErrorNew
  | xrdpWarningNew
  deriving DecidableEq

/-- What is counted under a key. -/
def Counter.marker : Counter → List Char
  | .xrdpResizeErrorsNew => "resize_server_to_client_layout".toList
  | .xrdpResizeQueueNew => "dynamic_monitor_process_queue".toList
  | .xrdpGfxDepthNew => "client requested gfx protocol with insufficient color depth".toList
  | .xrdpErrorNew => "[ERROR]".toList
  | .xrdpWarningNew => "[WARN ]".toList

abbrev Values := Counter → Nat

structure LogDelta where
  offset : Nat

/-- The constructor, on the file as it is, if there is one. -/
def LogDelta.init (file : Option Bytes) : LogDelta where
  offset := match file with
    | some content => content.length
    | none => 0

/-- How a sample gets at the file: `stat` or `open` can fail. -/
inductive Access where
  | statFails
  | openFails
  | opened

def countMarkers (text : List Char) : Values := fun counter => countApart counter.marker 0 text

def LogDelta.sample (access : Access) (file : Option Bytes) (self : LogDelta) : Values × LogDelta :=
  match file, access with
  | none, _ | _, .statFails => (fun _ => 0, self)
  | some content, .openFails =>
      (fun _ => 0, { offset := if content.length < self.offset then 0 else self.offset })
  | some content, .opened =>
      -- log rotation or truncation
      let offset := if content.length < self.offset then 0 else self.offset
      let data := (content.drop offset).take (1024 * 1024)
      (countMarkers (decodeReplacing data), { offset := offset + data.length })

/-! ## Appends and samples -/

inductive Event where
  | append (bytes : Bytes)
  | sample (access : Access)

structure Session where
  file : Option Bytes
  reader : LogDelta
  samples : List Values

def Session.content (self : Session) : Bytes := self.file.getD []

def Session.step (self : Session) : Event → Session
  | .append bytes => { self with file := some (self.content ++ bytes) }
  | .sample access =>
      let (values, reader) := LogDelta.sample access self.file self.reader
      { self with reader, samples := self.samples ++ [values] }

def session (file : Option Bytes) (events : List Event) : Session :=
  events.foldl Session.step { file, reader := LogDelta.init file, samples := [] }

/-- The sum of a counter over all samples. -/
def total (samples : List Values) (counter : Counter) : Nat :=
  (samples.map fun values => values counter).sum

def Event.bytes : Event → Bytes
  | .append bytes => bytes
  | .sample _ => []

def appended (events : List Event) : Bytes := events.flatMap Event.bytes

def CaughtUp (self : Session) : Prop := self.reader.offset = self.content.length

/-- Every counter gives the number of the places of its marker in the appended text. -/
def CountsOnce (file : Option Bytes) (events : List Event) : Prop :=
  ∀ counter : Counter, total (session file events).samples counter =
    occurrences counter.marker (decodeReplacing (appended events))

/-- Where in the appended bytes the samples end, of which `size` are there and `offset` have been
read. -/
def stopsFrom : Nat → Nat → List Event → List Nat
  | _, _, [] => []
  | size, offset, .append bytes :: rest => stopsFrom (size + bytes.length) offset rest
  | size, offset, .sample .opened :: rest =>
      let stop := min (offset + 1024 * 1024) size
      stop :: stopsFrom size stop rest
  | size, offset, .sample .statFails :: rest | size, offset, .sample .openFails :: rest =>
      stopsFrom size offset rest

def stops (events : List Event) : List Nat := stopsFrom 0 0 events

/-! ## What the samples read -/

/-- The pieces of the appended bytes that the samples read, with `known` appended before. -/
def readsFrom : Bytes → Nat → List Event → List Bytes
  | _, _, [] => []
  | known, offset, .append bytes :: rest => readsFrom (known ++ bytes) offset rest
  | known, offset, .sample .opened :: rest =>
      let data := (known.drop offset).take (1024 * 1024)
      data :: readsFrom known (offset + data.length) rest
  | known, offset, .sample .statFails :: rest | known, offset, .sample .openFails :: rest =>
      readsFrom known offset rest

theorem data_length {known : Bytes} {offset : Nat} (read : offset ≤ known.length) :
    offset + ((known.drop offset).take (1024 * 1024)).length =
      min (offset + 1024 * 1024) known.length := by
  rw [List.length_take, List.length_drop]
  omega

theorem reads_stops (known : Bytes) (offset : Nat) (read : offset ≤ known.length)
    (events : List Event) :
    pieceEnds offset (readsFrom known offset events) = stopsFrom known.length offset events := by
  induction events generalizing known offset with
  | nil => rfl
  | cons event rest ih =>
      cases event with
      | append bytes =>
          have later := ih (known ++ bytes) offset (by rw [List.length_append]; omega)
          rw [readsFrom, stopsFrom, later, List.length_append]
      | sample access =>
          cases access with
          | statFails => exact ih known offset read
          | openFails => exact ih known offset read
          | opened =>
              have stop := data_length read
              rw [readsFrom, stopsFrom, pieceEnds, stop, ih _ _ (by omega)]

/-- The pieces follow each other in the appended bytes. -/
theorem reads_joined (known : Bytes) (offset : Nat) (read : offset ≤ known.length)
    (events : List Event) :
    known.take offset ++ (readsFrom known offset events).flatten <+: known ++ appended events := by
  induction events generalizing known offset with
  | nil => simpa [readsFrom, appended] using List.take_prefix offset known
  | cons event rest ih =>
      rw [appended, List.flatMap_cons, ← List.append_assoc]
      cases event with
      | append bytes =>
          have later := ih (known ++ bytes) offset (by rw [List.length_append]; omega)
          rwa [List.take_append_of_le_length read] at later
      | sample access =>
          rw [Event.bytes, List.append_nil]
          cases access with
          | statFails => exact ih known offset read
          | openFails => exact ih known offset read
          | opened =>
              have stop := data_length read
              have within : offset + ((known.drop offset).take (1024 * 1024)).length ≤
                  known.length := by omega
              have later := ih known _ within
              rw [readsFrom, List.flatten_cons, ← List.append_assoc]
              have joined : known.take offset ++ (known.drop offset).take (1024 * 1024) =
                  known.take (offset + ((known.drop offset).take (1024 * 1024)).length) := by
                rw [← List.take_add, stop, ← List.take_eq_take_min]
              rw [joined]
              exact later

theorem marker_ascii (counter : Counter) : ∀ c ∈ counter.marker, Ascii c := by
  have all : counter.marker.all (fun c => c.toNat < 128) = true := by
    cases counter <;> decide +kernel
  intro c member
  have small := List.all_eq_true.mp all c member
  rw [Ascii]
  exact of_decide_eq_true small

theorem marker_some (counter : Counter) : counter.marker ≠ [] := by
  cases counter <;> decide +kernel

theorem marker_borderless (counter : Counter) : Borderless counter.marker := by
  cases counter <;> decide +kernel

/-- A sample counts the places of the marker in the bytes it reads. -/
theorem counted_bytes (data : Bytes) (counter : Counter) :
    countMarkers (decodeReplacing data) counter = occurrences (utf8 counter.marker) data := by
  rw [countMarkers, count_apart_all (marker_borderless counter), decodeReplacing,
    occurrences_decode (marker_ascii counter) (marker_some counter)]

/-! ## Runs -/

/-- A session that has counted `counted` and read the first `offset` of the bytes appended to
`old`. -/
structure Follows (old known : Bytes) (offset : Nat) (counted : Counter → Nat)
    (current : Session) : Prop where
  content : current.content = old ++ known
  reader : current.reader.offset = old.length + offset
  read : offset ≤ known.length
  samples : ∀ counter, total current.samples counter = counted counter

section Step

variable {old known : Bytes} {offset : Nat} {counted : Counter → Nat} {current : Session}

theorem total_append (samples : List Values) (values : Values) (counter : Counter) :
    total (samples ++ [values]) counter = total samples counter + values counter := by
  simp [total]

theorem follows_append (follows : Follows old known offset counted current) (bytes : Bytes) :
    Follows old (known ++ bytes) offset counted (current.step (.append bytes)) where
  content := by
    rw [← List.append_assoc, ← follows.content]
    rfl
  reader := follows.reader
  read := by
    have read := follows.read
    rw [List.length_append]
    omega
  samples := follows.samples

/-- The file is never shorter than what has been read. -/
theorem follows_not_truncated (follows : Follows old known offset counted current) :
    ¬current.content.length < current.reader.offset := by
  have read := follows.read
  rw [follows.content, follows.reader, List.length_append]
  omega

/-- A sample that does not get at the file counts nothing. -/
theorem follows_failed (follows : Follows old known offset counted current) {access : Access}
    (failed : current.file = none ∨ access = .statFails ∨ access = .openFails) :
    Follows old known offset counted (current.step (.sample access)) := by
  have kept := follows_not_truncated follows
  have values : LogDelta.sample access current.file current.reader =
      (fun _ => 0, current.reader) := by
    cases file : current.file with
    | none => rfl
    | some content =>
        rw [Session.content, file, Option.getD_some] at kept
        simp only [file, reduceCtorEq, false_or] at failed
        rcases failed with rfl | rfl
        · rfl
        · simp [LogDelta.sample, kept]
  constructor
  · exact follows.content
  · simp only [Session.step, values]
    exact follows.reader
  · exact follows.read
  · intro counter
    simp only [Session.step, values, total_append, Nat.add_zero]
    exact follows.samples counter

theorem follows_opened (follows : Follows old known offset counted current) :
    Follows old known (offset + ((known.drop offset).take (1024 * 1024)).length)
      (fun counter => counted counter +
        occurrences (utf8 counter.marker) ((known.drop offset).take (1024 * 1024)))
      (current.step (.sample .opened)) := by
  cases file : current.file with
  | none =>
      have empty : known = [] := by
        have content := follows.content
        rw [Session.content, file, Option.getD_none] at content
        exact (List.append_eq_nil_iff.mp content.symm).2
      have failed := @follows_failed old known offset counted current follows .opened (Or.inl file)
      simpa [empty, occurrences] using failed
  | some content =>
      have kept := follows_not_truncated follows
      have same := follows.content
      rw [Session.content, file, Option.getD_some] at kept same
      rw [follows.reader] at kept
      have data : content.drop (old.length + offset) = known.drop offset := by
        rw [same, List.drop_length_add_append]
      have values : LogDelta.sample .opened current.file current.reader =
          (countMarkers (decodeReplacing ((known.drop offset).take (1024 * 1024))),
            ⟨old.length + offset + ((known.drop offset).take (1024 * 1024)).length⟩) := by
        simp only [LogDelta.sample, file, if_neg kept, follows.reader, data]
      have stop := data_length follows.read
      constructor
      · exact follows.content
      · simp only [Session.step, values, Nat.add_assoc]
      · omega
      · intro counter
        simp only [Session.step, values, total_append, counted_bytes, follows.samples]

end Step

/-- What a run counts and how far it reads, from the pieces that its samples read. -/
theorem follows_run {old known : Bytes} {offset : Nat} {counted : Counter → Nat}
    {current : Session} (follows : Follows old known offset counted current)
    (events : List Event) :
    Follows old (known ++ appended events)
      (offset + (readsFrom known offset events).flatten.length)
      (fun counter => counted counter +
        ((readsFrom known offset events).map (occurrences (utf8 counter.marker))).sum)
      (events.foldl Session.step current) := by
  induction events generalizing known offset counted current with
  | nil => simpa [readsFrom, appended] using follows
  | cons event rest ih =>
      rw [appended, List.flatMap_cons, ← List.append_assoc, List.foldl_cons]
      cases event with
      | append bytes => exact ih (follows_append follows bytes)
      | sample access =>
          rw [Event.bytes, List.append_nil]
          cases access with
          | statFails => exact ih (follows_failed follows (by simp))
          | openFails => exact ih (follows_failed follows (by simp))
          | opened =>
              have later := ih (follows_opened follows)
              simpa [readsFrom, appended, Nat.add_assoc] using later

theorem follows_start (file : Option Bytes) :
    Follows (file.getD []) [] 0 (fun _ => 0)
      { file, reader := LogDelta.init file, samples := [] } where
  content := by simp [Session.content]
  reader := by cases file <;> rfl
  read := Nat.le_refl 0
  samples := by simp [total]

/-- When the reader has caught up, every counter gives the number of the places of its marker in
the appended text exactly when no place of a marker goes across the end of a sample. -/
theorem counts_once_iff (file : Option Bytes) (events : List Event)
    (caughtUp : CaughtUp (session file events)) :
    CountsOnce file events ↔
      ∀ counter : Counter, ∀ stop ∈ stops events,
        ¬Crosses (utf8 counter.marker) (appended events) stop := by
  have follows := follows_run (follows_start file) events
  have joined := reads_joined [] 0 (Nat.le_refl 0) events
  have ends := reads_stops [] 0 (Nat.le_refl 0) events
  rw [← session] at follows
  rw [CaughtUp, follows.reader, follows.content] at caughtUp
  simp only [List.nil_append, List.length_append, Nat.zero_add, List.take_nil] at caughtUp joined
  have whole : (readsFrom [] 0 events).flatten = appended events :=
    joined.eq_of_length (by omega)
  apply forall_congr'
  intro counter
  have pieces := (occurrences_pieces (utf8 counter.marker) (readsFrom [] 0 events)).2
  rw [ends, whole] at pieces
  rw [follows.samples, decodeReplacing, occurrences_decode (marker_ascii counter)
    (marker_some counter), Nat.zero_add, pieces]
  rfl

/-- `[ERROR]` as bytes, and the same in two appends with a sample between them. -/
def errorMarker : Bytes := [91, 69, 82, 82, 79, 82, 93]

def wholeMarker : List Event := [.append errorMarker, .sample .opened]

def splitMarker : List Event :=
  [.append (errorMarker.take 3), .sample .opened, .append (errorMarker.drop 3), .sample .opened]

theorem counts_once_whole : CountsOnce none wholeMarker := by
  apply (counts_once_iff none wholeMarker rfl).mpr
  intro counter stop listed across
  have at_end : stops wholeMarker = [(appended wholeMarker).length] := rfl
  rw [at_end, List.mem_singleton] at listed
  rw [listed] at across
  exact Nat.lt_irrefl _ (crosses_inside across)

theorem marker_split_lost : CaughtUp (session none splitMarker) ∧ ¬CountsOnce none splitMarker := by
  constructor
  · rfl
  · intro once
    exact absurd (once .xrdpErrorNew) (by decide +kernel)

end XrdpConsole.LogEvents
