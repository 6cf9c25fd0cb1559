import XrdpConsole.BenchReader

/-!
# Waiting for a marker

`marker_rgb_matches`, `wait_marker` and `parse_physical_marker`. A wait that finds a marker
gives the time of a look of its own at the very frame, provided that every earlier answer of
the probe has been read when the wait begins and that no look finds another picture in the
colours of the marker.
-/

namespace XrdpConsole.BenchMarker

open XrdpConsole.Library
open XrdpConsole.Library.Program
open XrdpConsole.BenchHelpers
open XrdpConsole.BenchPipes
open XrdpConsole.BenchReader

set_option autoImplicit false

/-! ## The source functions -/

def markerRgbMatches (parts : List Text) (state : Int) : Bool :=
  match parts with
  | _ :: red :: green :: blue :: _ =>
      match integer red, integer green, integer blue with
      | some red, some green, some blue => markerColour red green blue state
      | _, _, _ => false
  | _ => false

/-- The time of a look that shows the marker. -/
def markerTime (parts : List Text) (state : Int) : Option Int :=
  if markerRgbMatches parts state then parts.head?.bind integer else none

/-- One turn of the loop of `wait_marker`. -/
def waitTurn (state visibleNs deadline pollInterval : Int) : BenchM (Option (Option Int)) := do
  if deadline ≤ (← monotonic) then
    pure (some none)
  else do
    write .probe
    let remaining := deadline - (← monotonic)
    let line ← readline .probe (min 500000000 (max 20000000 remaining))
    match if line.isEmpty then none else markerTime (fields line) state with
    | some time => pure (some (some (time - visibleNs)))
    | none => do
        sleep pollInterval
        pure none

/-- `wait_marker`, with the latency in nanoseconds. -/
def waitMarker (state visibleNs timeout pollInterval : Int) : BenchM (Option Int) := do
  perform .await
  let deadline := (← monotonic) + timeout
  loop .outOfTime (waitTurn state visibleNs deadline pollInterval) (timeout.toNat + 1)

def int (text : Text) : BenchM Int :=
  match integer text with
  | some value => pure value
  | none => stop (.invalidLiteral text)

/-- The event, the end of the drawing and the state; older helpers print no end. -/
def parsePhysicalMarker (line : Text) : BenchM (Int × Int × Int) :=
  match fields line with
  | event :: drawDone :: state :: _ => do
      let eventNs ← int event
      let drawDoneNs ← int drawDone
      pure (eventNs, drawDoneNs, ← int state)
  | [event, state] => do
      let eventNs ← int event
      pure (eventNs, eventNs, ← int state)
  | _ => stop (.invalidMarker line)

/-! ## The condition -/

/-- Every look that the probe has taken has been read. -/
def Quiet (mm : World) : Prop := (mm.process .probe).begun.length = mm.dealings.taken .probe

/-- What is on display is the frame itself, or it does not look like its marker: a frame with
the other marker, or a picture from before the first frame in other colours. -/
def Unmistakable (mode : Mode) (pixel : Pixel) (frame : Nat) : Option Nat → Prop
  | some other => other = frame ∨ markerState mode other ≠ markerState mode frame
  | none => pixel.matches (markerState mode frame) = false

/-- When a wait begins no look is unread, and no look during a wait can be mistaken. -/
def Timely (mm : World) : Step → Prop
  | .await => Quiet mm
  | .event (.begin .probe) => CanBegin mm .probe → ∀ wait ∈ mm.dealings.awaited,
      Unmistakable mm.mode mm.pixel wait.frame mm.shown
  | _ => True

instance (mm : World) : Decidable (Quiet mm) := inferInstanceAs (Decidable (_ = _))

instance (mode : Mode) (pixel : Pixel) (frame : Nat) :
    ∀ shown, Decidable (Unmistakable mode pixel frame shown)
  | some _ => inferInstanceAs (Decidable (_ ∨ _))
  | none => inferInstanceAs (Decidable (_ = _))

instance (mm : World) : ∀ label, Decidable (Timely mm label)
  | .await => inferInstanceAs (Decidable (Quiet mm))
  | .event (.begin .probe) => inferInstanceAs (Decidable (_ → _))
  | .event (.begin .injector) => .isTrue trivial
  | .event (.begin .stimulus) => .isTrue trivial
  | .event (.pass _) => .isTrue trivial
  | .event .imageFails => .isTrue trivial
  | .event (.finish _ _) => .isTrue trivial
  | .event (.print _) => .isTrue trivial
  | .event (.exit _) => .isTrue trivial
  | .event (.show _ _) => .isTrue trivial
  | .write _ => .isTrue trivial
  | .read _ => .isTrue trivial
  | .cut _ => .isTrue trivial

/-! ## The looks of a wait -/

/-- The look was taken in the wait, and it shows the frame of the wait if it looks like it. -/
structure Watched (mm : World) (wait : Wait) (request : Nat) : Prop where
  later : wait.since ≤ mm.begunAt .probe request
  shows : ∀ pixel ∈ (mm.lookAt request).image,
    pixel.matches (markerState mm.mode wait.frame) = true →
      (mm.lookAt request).frame = some wait.frame

/-- All looks of the wait that has begun last are watched. -/
structure Watching (mm : World) (wait : Wait) : Prop where
  begun : wait.since ≤ mm.now
  looks : ∀ request, wait.earlier ≤ request → request < mm.looks.length → Watched mm wait request

variable {before after : World}

theorem marker_state_other {mode : Mode} {left right : Nat}
    (different : markerState mode left ≠ markerState mode right) :
    markerState mode right = 1 - markerState mode left := by
  cases mode <;> simp only [markerState] at different ⊢ <;> omega

/-- A pixel in the colours of the marker shows the frame itself. -/
theorem unmistakable_shown {mm : World} {frame : Nat} (law : Lawful mm)
    (clear : Unmistakable mm.mode mm.pixel frame mm.shown)
    (looksAlike : mm.pixel.matches (markerState mm.mode frame) = true) :
    mm.shown = some frame := by
  generalize showing : mm.shown = shown at clear
  cases shown with
  | none =>
      rw [Unmistakable, looksAlike] at clear
      contradiction
  | some other =>
      rcases clear with rfl | different
      · rfl
      · have noOther := law.shown other showing mm.pixel rfl
        rw [← marker_state_other different, looksAlike] at noOther
        contradiction

theorem watched_extends {wait : Wait} {request : Nat} (law : Lawful before)
    (grown : Extends before after) (old : request < before.looks.length)
    (watched : Watched before wait request) : Watched after wait request := by
  have same_look := look_at_extends grown old
  have same_begun := begun_at_extends grown (by rw [← law.histories.looks_begun]; exact old)
  constructor
  · rw [same_begun]
    exact watched.later
  · rw [same_look, grown.mode]
    exact watched.shows

theorem watching_idle {wait : Wait} (law : Lawful before) (grown : Extends before after)
    (looks : after.looks = before.looks) (watching : Watching before wait) :
    Watching after wait where
  begun := watching.begun.trans grown.now
  looks request began inside := by
    rw [looks] at inside
    exact watched_extends law grown inside (watching.looks request began inside)

theorem watching_look {wait : Wait} {image : Option Pixel} (law : Lawful before)
    (shows : ∀ pixel ∈ image, pixel.matches (markerState before.mode wait.frame) = true →
      before.shown = some wait.frame)
    (watching : Watching before wait) : Watching (takeUp before .probe image) wait where
  begun := watching.begun
  looks request began inside := by
    have grown := take_up_extends before .probe image
    by_cases old : request < before.looks.length
    · exact watched_extends law grown old (watching.looks request began old)
    · have count : (takeUp before .probe image).looks.length = before.looks.length + 1 := by
        simp [takeUp, World.changeProcess]
      obtain rfl : request = before.looks.length := by omega
      have look : (takeUp before .probe image).lookAt before.looks.length =
          { frame := before.shown, image } := by
        simp [takeUp, World.changeProcess, World.lookAt]
      have time : (takeUp before .probe image).begunAt .probe before.looks.length = before.now := by
        rw [law.histories.looks_begun]
        simp [takeUp, World.begunAt]
      constructor
      · rw [time]
        exact watching.begun
      · rw [look]
        exact shows

/-- Every wait that has begun is watched. -/
def Attentive (mm : World) : Prop := ∀ wait ∈ mm.dealings.awaited, Watching mm wait

theorem happen_attentive (law : Lawful before) (event : Event)
    (met : Timely before (.event event)) (attentive : Attentive before) :
    Attentive (happen before event) := by
  intro wait awaited
  rw [happen_dealings] at awaited
  have grown := happen_extends before event
  have watching := attentive wait awaited
  cases event with
  | begin helper =>
      simp only [happen] at grown ⊢
      split at grown
      · rename_i able
        rw [if_pos able]
        cases helper with
        | probe =>
            refine watching_look law ?_ watching
            intro pixel same looksAlike
            obtain rfl := Option.some.inj same
            exact unmistakable_shown law (met able wait awaited) looksAlike
        | injector => exact watching_idle law grown rfl watching
        | stimulus => exact watching_idle law grown rfl watching
      · rename_i unable
        rw [if_neg unable]
        exact watching
  | imageFails =>
      simp only [happen]
      split
      · exact watching_look law (fun pixel image => absurd image (by simp)) watching
      · exact watching
  | pass duration => exact watching_idle law grown rfl watching
  | exit helper => exact watching_idle law grown rfl watching
  | finish helper render =>
      refine watching_idle law grown ?_ watching
      simp only [happen]
      split <;> rfl
  | print helper =>
      refine watching_idle law grown ?_ watching
      simp only [happen]
      split <;> rfl
  | «show» frame pixel =>
      refine watching_idle law grown ?_ watching
      simp only [happen]
      split <;> rfl

theorem take_attentive (law : Lawful before) (label : Step) (met : Timely before label)
    (attentive : Attentive before) : Attentive (take before label) := by
  have grown := take_extends before label
  cases label with
  | event event => exact happen_attentive law event met attentive
  | write helper =>
      exact fun wait awaited => watching_idle law grown rfl (attentive wait awaited)
  | read helper =>
      exact fun wait awaited => watching_idle law grown rfl (attentive wait awaited)
  | cut helper =>
      simp only [take] at grown ⊢
      split
      · exact attentive
      · rename_i cut
        rw [cut] at grown
        exact fun wait awaited => watching_idle law grown rfl (attentive wait awaited)
  | await =>
      intro wait awaited
      obtain rfl := Option.some.inj awaited
      refine ⟨le_rfl, fun request began inside => ?_⟩
      have count := law.histories.looks_begun
      simp only [take, World.wait] at began inside
      omega

section Waits

variable {guard : World → Step → Prop} {origin : World} {fact : Fact} {dealings : Dealings}
  {bench : Bench}

theorem at_attentive (law : Lawful origin) (start : Attentive origin)
    (timely : ∀ mm label, guard mm label → Timely mm label)
    (here : At guard origin fact dealings bench)
    (met : System.AllMeet take guard origin bench.steps) : Attentive bench.world := by
  have steps : ∀ mm label, guard mm label →
      ((helpers .graphics).restrict guard).step mm label (take mm label) :=
    fun _ _ guarded => ⟨guarded, rfl⟩
  have ran := System.run_guarded steps met
  rw [here.reached] at ran
  have kept : Lawful bench.world ∧ Attentive bench.world := by
    refine System.run_preserves (fun mm => Lawful mm ∧ Attentive mm) ?_ ran ⟨law, start⟩
    rintro middle label _ ⟨lawful, attentive⟩ ⟨guarded, rfl⟩
    exact ⟨take_lawful lawful label, take_attentive lawful label (timely _ _ guarded) attentive⟩
  exact kept.2

/-! ## What a wait ensures -/

/-- The line that has been read last tells when the frame was visible, and its state. -/
def Marked (frame : Nat) (state visibleNs : Int) (mm : World) : Prop :=
  frame < (mm.process .stimulus).ended.length ∧
    visibleNs = (mm.endedAt .stimulus frame).time ∧ state = markerState mm.mode frame

/-- A look that the probe has taken and reported. -/
structure Reported (mm : World) (look : Nat) : Prop where
  seen : look < mm.looks.length
  begun : look < (mm.process .probe).begun.length
  ended : look < (mm.process .probe).ended.length

/-- The latency is that of a look at the frame on the remote display, taken after the frame
was visible. -/
structure Genuine (mm : World) (frame : Nat) (latency : Int) : Prop where
  visible : frame < (mm.process .stimulus).ended.length
  sampled : ∃ look, Reported mm look ∧ (mm.lookAt look).frame = some frame ∧
    (mm.endedAt .stimulus frame).time ≤ mm.begunAt .probe look ∧
    mm.begunAt .probe look ≤ (mm.endedAt .probe look).time ∧
    latency = (mm.endedAt .probe look).time - (mm.endedAt .stimulus frame).time

theorem genuine_nonneg {mm : World} {frame : Nat} {latency : Int}
    (genuine : Genuine mm frame latency) : 0 ≤ latency := by
  obtain ⟨look, -, -, visible, stamped, rfl⟩ := genuine.sampled
  omega

theorem marked_extends {frame : Nat} {state visibleNs : Int} (grown : Extends before after)
    (marked : Marked frame state visibleNs before) : Marked frame state visibleNs after := by
  have longer := (grown.process .stimulus).ended.length_le
  refine ⟨lt_of_lt_of_le marked.1 longer, ?_, ?_⟩
  · rw [ended_at_extends grown marked.1]
    exact marked.2.1
  · rw [grown.mode]
    exact marked.2.2

theorem genuine_extends {frame : Nat} {latency : Int} (grown : Extends before after)
    (genuine : Genuine before frame latency) : Genuine after frame latency := by
  obtain ⟨look, reported, sampled⟩ := genuine.sampled
  have longer := grown.process .probe
  refine ⟨lt_of_lt_of_le genuine.visible (grown.process .stimulus).ended.length_le, look, ?_, ?_⟩
  · exact ⟨lt_of_lt_of_le reported.seen grown.looks.length_le,
      lt_of_lt_of_le reported.begun longer.begun.length_le,
      lt_of_lt_of_le reported.ended longer.ended.length_le⟩
  · rw [look_at_extends grown reported.seen, begun_at_extends grown reported.begun,
      ended_at_extends grown reported.ended, ended_at_extends grown genuine.visible]
    exact sampled

theorem marker_time_answer {mm : World} {request : Nat} {state time : Int}
    (found : markerTime (fields (record (mm.answer .probe request))) state = some time) :
    ∃ pixel ∈ (mm.lookAt request).image, pixel.matches state = true ∧
      time = (mm.endedAt .probe request).time := by
  rw [fields_record _ (answer_words mm .probe request)] at found
  simp only [World.answer] at found
  cases image : (mm.lookAt request).image with
  | none =>
      rw [image] at found
      simp [markerTime, markerRgbMatches] at found
  | some pixel =>
      rw [image] at found
      simp only [markerTime, markerRgbMatches, integer_decimal, List.head?_cons, Option.bind_some,
        Option.ite_none_right_eq_some, Option.some.injEq] at found
      exact ⟨pixel, rfl, found.1, found.2.symm⟩

/-- Waiting deals with the probe only. -/
def Agrees (left right : Dealings) : Prop :=
  ∀ helper, helper ≠ .probe →
    right.requests helper = left.requests helper ∧ right.taken helper = left.taken helper

theorem agrees_count {left right : Dealings} (agrees : Agrees left right) :
    Agrees left (right.count .probe) := by
  intro helper other
  simp only [Dealings.count, Function.update_of_ne other]
  exact agrees helper other

theorem agrees_take {left right : Dealings} (agrees : Agrees left right) :
    Agrees left (right.take .probe) := by
  intro helper other
  simp only [Dealings.take, Function.update_of_ne other]
  exact agrees helper other

/-- The benchmark waits for the frame: the wait began when the frame was visible, with no look
unread. -/
structure Waiting (dealings : Dealings) (frame : Nat) (visibleNs : Int) (wait : Wait)
    (current : Dealings) : Prop where
  agrees : Agrees dealings current
  awaited : current.awaited = some wait
  frame : wait.frame = frame
  visible : visibleNs ≤ wait.since

def unread (fact : Fact) (wait : Wait) (current : Dealings) : Fact :=
  also (given fun _ => wait.earlier ≤ current.taken .probe) fact

theorem lasting_unread (lasting : Lasting fact) (wait : Wait) (current : Dealings) :
    Lasting (unread fact wait current) :=
  lasting_also (lasting_known _) lasting

/-- A wait has ended: a latency is genuine. -/
def Waited (guard : World → Step → Prop) (origin : World) (fact : Fact) (dealings : Dealings)
    (frame : Nat) (found : Option Int) (bench : Bench) : Prop :=
  ∃ current, Agrees dealings current ∧
    At guard origin (also (given fun mm => ∀ latency ∈ found, Genuine mm frame latency) fact)
      current bench

/-- The latency of a line that shows the marker is genuine. -/
theorem genuine_read {frame : Nat} {state visibleNs time : Int} {wait : Wait}
    {current : Dealings} (law : Lawful origin) (start : Attentive origin)
    (timely : ∀ mm label, guard mm label → Timely mm label)
    (marked : ∀ met mm, fact met mm → Marked frame state visibleNs mm)
    (waiting : Waiting dealings frame visibleNs wait current)
    (inside : current.taken .probe < (bench.world.process .probe).written.length)
    (found : markerTime (fields (record (bench.world.answer .probe (current.taken .probe)))) state =
      some time)
    (here : At guard origin (unread fact wait current) (current.take .probe) bench)
    (met : System.AllMeet take guard origin bench.steps) :
    Genuine bench.world frame (time - visibleNs) := by
  have lawful := at_lawful here law
  have histories := lawful.histories
  have written := histories.written_ended .probe
  have ended := histories.ended_begun .probe
  have looks := histories.looks_begun
  obtain ⟨visible, rfl, rfl⟩ := marked _ _ here.fact.2
  obtain ⟨pixel, image, looksAlike, rfl⟩ := marker_time_answer found
  have awaited : wait ∈ bench.world.dealings.awaited := by
    rw [here.dealings]
    exact waiting.awaited
  have watching := at_attentive law start timely here met wait awaited
  have watched := watching.looks _ (here.fact.1 met) (by omega)
  have began : (bench.world.endedAt .stimulus frame).time ≤ wait.since :=
    Int.ofNat_le.mp waiting.visible
  rw [← waiting.frame] at looksAlike
  have shows := watched.shows pixel image looksAlike
  rw [waiting.frame] at shows
  refine ⟨visible, current.taken .probe, ⟨by omega, by omega, by omega⟩, shows, ?_, ?_, rfl⟩
  · exact began.trans watched.later
  · exact histories.begun_ended .probe _ (by omega)

/-- The head of the loop of `wait_marker`. -/
def WaitLoop (guard : World → Step → Prop) (origin : World) (fact : Fact) (dealings : Dealings)
    (frame : Nat) (visibleNs deadline : Int) (wait : Wait) (fuel : Nat) (bench : Bench) : Prop :=
  ∃ current, Waiting dealings frame visibleNs wait current ∧
    InTime guard origin (unread fact wait current) current deadline fuel bench

theorem waiting_count {frame : Nat} {visibleNs : Int} {wait : Wait} {current : Dealings}
    (waiting : Waiting dealings frame visibleNs wait current) :
    Waiting dealings frame visibleNs wait (current.count .probe) :=
  ⟨agrees_count waiting.agrees, waiting.awaited, waiting.frame, waiting.visible⟩

theorem waiting_take {frame : Nat} {visibleNs : Int} {wait : Wait} {current : Dealings}
    (waiting : Waiting dealings frame visibleNs wait current) :
    Waiting dealings frame visibleNs wait (current.take .probe) :=
  ⟨agrees_take waiting.agrees, waiting.awaited, waiting.frame, waiting.visible⟩

theorem unread_take {wait : Wait} {current : Dealings}
    (here : At guard origin (unread fact wait current) (current.take .probe) bench) :
    At guard origin (unread fact wait (current.take .probe)) (current.take .probe) bench := by
  refine at_weaken here fun met mm holds => ⟨fun all => ?_, holds.2⟩
  have earlier : wait.earlier ≤ current.taken .probe := holds.1 all
  simp only [Dealings.take, Function.update_self]
  omega

/-- What is left of a turn after a line without the marker. -/
theorem ensures_wait_pause {frame : Nat} {visibleNs deadline now : Int} {wait : Wait}
    {fuel : Nat} (lasting : Lasting fact) (some_fuel : 0 < fuel) (bound : deadline < now + fuel)
    (pollInterval : Int) (goal : Option Int → Bench → Prop) :
    Ensures (fun bench => ∃ current, Waiting dealings frame visibleNs wait current ∧
        At guard origin (also (since now) (unread fact wait current)) current bench)
      (do sleep pollInterval; pure none)
      (fun result bench => result.elim
        (WaitLoop guard origin fact dealings frame visibleNs deadline wait fuel bench)
        fun found => goal found bench) Raises := by
  refine ensures_exists fun current => ensures_given fun waiting => ?_
  have known := lasting_unread lasting wait current
  have calm : Undisturbed (At guard origin (also (since now) (unread fact wait current)) current) :=
    at_undisturbed (lasting_also (lasting_since now) known)
  refine ensures_bind (ensures_sleep calm pollInterval) fun _ => ensures_pure fun bench here => ?_
  have passed : now ≤ bench.world.now := here.fact.1
  exact ⟨current, waiting, some_fuel, by omega, at_known here⟩

theorem ensures_wait_turn {frame : Nat} {state visibleNs : Int} (law : Lawful origin) (start : Attentive origin)
    (timely : ∀ mm label, guard mm label → Timely mm label) (lasting : Lasting fact)
    (marked : ∀ met mm, fact met mm → Marked frame state visibleNs mm)
    (wait : Wait) (deadline pollInterval : Int) (fuel : Nat) :
    Ensures (WaitLoop guard origin fact dealings frame visibleNs deadline wait (fuel + 1))
      (waitTurn state visibleNs deadline pollInterval)
      (fun result bench => result.elim
        (WaitLoop guard origin fact dealings frame visibleNs deadline wait fuel bench)
        fun found => Waited guard origin fact dealings frame found bench) Raises := by
  refine ensures_exists fun current => ensures_given fun waiting => ?_
  have known := lasting_unread lasting wait current
  have calm : Undisturbed (At guard origin (unread fact wait current) current) :=
    at_undisturbed known
  refine ensures_bind (ensures_begin ?_ (ensures_monotonic calm (deadline - fuel))) fun now => ?_
  · intro bench ⟨_, bound, here⟩
    exact ⟨by omega, here⟩
  refine ensures_given fun later => ensures_ite (fun _ => ?_) fun early => ?_
  · refine ensures_pure fun bench ⟨_, here⟩ => ⟨current, waiting.agrees, ?_⟩
    exact at_weaken here fun _ _ holds => ⟨fun _ latency none => absurd none (by simp), holds.2⟩
  · have timed := lasting_also (lasting_since now) known
    refine ensures_bind (ensures_begin (fun _ holds => at_since holds.2 holds.1)
      (ensures_write_plain timed .probe)) fun _ => ?_
    have written : Undisturbed (At guard origin (also (since now) (unread fact wait current))
        (current.count .probe)) := at_undisturbed timed
    refine ensures_bind (ensures_begin ?_ (ensures_monotonic written 0)) fun again => ?_
    · exact fun bench here => ⟨by omega, here⟩
    refine ensures_bind (ensures_begin (fun _ holds => holds.2.2)
      (ensures_readline law timed .probe _)) fun line => ?_
    split
    · rename_i time found
      refine ensures_pure fun bench read => ?_
      rcases read with ⟨rfl, -⟩ | ⟨rfl, inside, here⟩
      · simp at found
      · have stands := at_known here
        have taken := (waiting_take (waiting_count waiting)).agrees
        refine ⟨_, taken, stands.reached, stands.dealings, fun met latency same => ?_, stands.fact.2⟩
        obtain rfl := Option.some.inj same
        have some_text := ended_nonempty (record_ended _ (answer_words bench.world .probe
          ((current.count .probe).taken .probe)))
        rw [if_neg (by simpa using some_text)] at found
        exact genuine_read law start timely marked (waiting_count waiting) inside found stands met
    · have some_fuel : 0 < fuel := by omega
      have bound : deadline < now + fuel := by omega
      refine ensures_begin ?_ (ensures_wait_pause lasting some_fuel bound pollInterval _)
      intro bench read
      rcases read with ⟨-, here⟩ | ⟨-, -, here⟩
      · exact ⟨_, waiting_count waiting, here⟩
      · refine ⟨_, waiting_take (waiting_count waiting), ?_⟩
        exact at_since (unread_take (at_known here)) here.fact.1

theorem ensures_wait_marker {frame : Nat} {state visibleNs : Int} (law : Lawful origin)
    (start : Attentive origin) (timely : ∀ mm label, guard mm label → Timely mm label)
    (lasting : Lasting fact) (marked : ∀ met mm, fact met mm → Marked frame state visibleNs mm)
    (last : dealings.taken .stimulus = frame + 1) (timeout pollInterval : Int) :
    Ensures (At guard origin fact dealings) (waitMarker state visibleNs timeout pollInterval)
      (fun found bench => Waited guard origin fact dealings frame found bench) Raises := by
  refine ensures_through (fun _ bench => ∃ wait current,
    Waiting dealings frame visibleNs wait current ∧
      At guard origin (unread fact wait current) current bench) (ensures_update ?_) fun _ => ?_
  · intro bench here
    have lawful := at_lawful here law
    have same := here.dealings
    refine ⟨bench.world.wait, bench.world.dealings.await bench.world.wait, ⟨?_, rfl, ?_, ?_⟩, ?_⟩
    · intro helper _
      rw [← same]
      exact ⟨rfl, rfl⟩
    · change bench.world.dealings.taken .stimulus - 1 = frame
      rw [same]
      omega
    · obtain ⟨visible, rfl, -⟩ := marked _ _ here.fact
      rw [World.endedAt, List.getD_eq_getElem _ _ visible]
      exact_mod_cast lawful.histories.ended_now .stimulus _ (List.getElem_mem visible)
    · refine at_perform lasting here .await fun met _ _ guarded => ?_
      exact (timely _ _ guarded : Quiet bench.world).le
  · refine ensures_exists fun wait => ensures_exists fun current => ensures_given fun waiting => ?_
    have calm : Undisturbed (At guard origin (unread fact wait current) current) :=
      at_undisturbed (lasting_unread lasting wait current)
    refine ensures_bind (ensures_begin ?_ (ensures_monotonic calm 0)) fun now => ?_
    · exact fun bench here => ⟨by omega, here⟩
    refine ensures_begin ?_ (ensures_loop ?_ (ensures_wait_turn law start timely lasting marked
      wait (now + timeout) pollInterval) _)
    · intro bench begun
      obtain ⟨_, passed, here⟩ := begun
      exact ⟨current, waiting, by omega, by omega, here⟩
    · intro bench turned
      obtain ⟨_, _, never, _⟩ := turned
      exact absurd never (by omega)

end Waits

end XrdpConsole.BenchMarker
