import XrdpConsole.BenchPipes
import XrdpConsole.Library.Program

/-!
# The line reader

The calls of `xrdp_vnc_bench.py` that take time, and `LineReader.readline`. What happens
around the benchmark during each call is the next part of a script; when the script is at its
end only time passes. Every call takes a nanosecond at least. `steps` is the history of all
that has happened.
-/

namespace XrdpConsole.BenchReader

open XrdpConsole.Library
open XrdpConsole.Library.Program
open XrdpConsole.BenchHelpers
open XrdpConsole.BenchPipes

set_option autoImplicit false

structure Bench where
  world : World
  script : List (List Event)
  steps : List Step

/-- The exceptions of the benchmark: `BrokenPipeError`, `IndexError`, and `RuntimeError` and
`ValueError` where they are raised. `outOfTime` is no exception of the source: a loop of the model that
has no turn left. -/
inductive BenchError where
  | brokenPipe
  | negativeSleep
  | warmUp (message : String)
  | invalidMarker (line : Text)
  | invalidLiteral (text : Text)
  | indexError
  | outOfTime
  deriving DecidableEq, Repr

abbrev BenchM := Program BenchError Bench

/-- A run starts with the helpers ready. -/
def launch (mode : Mode) (now : Nat) (pixel : Pixel) (script : List (List Event)) : Bench where
  world := start mode now pixel
  script := script
  steps := []

namespace Bench

def perform (self : Bench) (label : Step) : Bench :=
  { self with world := take self.world label, steps := self.steps ++ [label] }

def happen (self : Bench) (events : List Event) : Bench :=
  events.foldl (fun self event => self.perform (.event event)) self

def elapse (self : Bench) : Bench :=
  match self.script with
  | [] => self.perform (.event (.pass 1))
  | events :: script => ({ self with script }.happen events).perform (.event (.pass 1))

/-- What happens until `ready` holds or the time is `limit`. -/
def pauseOver (ready : World → Bool) (limit : Int) : List (List Event) → Bench → Bench
  | [], self =>
      if ready self.world || limit ≤ self.world.now then
        self
      else
        self.perform (.event (.pass (limit - self.world.now).toNat))
  | events :: script, self =>
      if ready self.world || limit ≤ self.world.now then
        { self with script := events :: script }
      else
        pauseOver ready limit script ({ self with script }.happen events)

def pause (ready : World → Bool) (limit : Int) (self : Bench) : Bench :=
  pauseOver ready limit self.script self

end Bench

/-! ## The calls -/

def perform (label : Step) : BenchM Unit := update fun self => self.perform label

def monotonic : BenchM Int := do
  update Bench.elapse
  read fun self => (self.world.now : Int)

def write (helper : Helper) : BenchM Unit := do
  update Bench.elapse
  if ← read fun self => (self.world.process helper).closed then
    stop .brokenPipe
  else
    perform (.write helper)

/-- There are bytes to read, or the helper has closed its output. -/
def readable (reader : Helper) (mm : World) : Bool :=
  !(mm.process reader).pipe.isEmpty || (mm.process reader).closed

def select (reader : Helper) (remaining : Int) : BenchM Bool := do
  let now ← read fun self => (self.world.now : Int)
  update (Bench.pause (readable reader) (now + remaining))
  read fun self => readable reader self.world

def sleep (duration : Int) : BenchM Unit := do
  if duration < 0 then
    stop .negativeSleep
  else
    let now ← read fun self => (self.world.now : Int)
    update (Bench.pause (fun _ => false) (now + duration))

/-- One turn of the loop of `readline`. -/
def readlineTurn (reader : Helper) (deadline : Int) : BenchM (Option Text) := do
  let buffer ← read fun self => self.world.buffer reader
  match cutLine '\n' buffer with
  | some (line, _) => do
      perform (.cut reader)
      pure (some line)
  | none => do
      let remaining := deadline - (← monotonic)
      if remaining ≤ 0 then
        pure (some [])
      else do
        let ready ← select reader remaining
        if !ready then
          pure (some [])
        else do
          let chunk ← read fun self => (self.world.process reader).pipe.take 4096
          if chunk.isEmpty then
            pure (some buffer)
          else do
            perform (.read reader)
            pure none

/-- `LineReader.readline`; no text stands for a line that has not come in time. -/
def readline (reader : Helper) (timeout : Int) : BenchM Text := do
  let deadline := (← monotonic) + timeout
  loop .outOfTime (readlineTurn reader deadline) (timeout.toNat + 1)

/-- The loop over the samples, which start at every period unless one takes longer. -/
def pacedSamples {Figures : Type} (period : Int) (measure : Figures → BenchM Figures) :
    Nat → Int → Figures → BenchM Figures
  | 0, _, figures => pure figures
  | samples + 1, tick, figures => do
      let nextTick := tick + period
      let figures ← measure figures
      let delay := nextTick - (← monotonic)
      onlyIf (0 < delay) (sleep delay)
      pacedSamples period measure samples nextTick figures

/-! ## Where a run stands -/

/-- What is known of the world, given whether all steps so far have met the guard. -/
abbrev Fact := Prop → World → Prop

/-- The state of a run from `origin`: its steps so far lead to the world it is in, the
benchmark's own dealings are `dealings`, and `fact` is known. -/
structure At (guard : World → Step → Prop) (origin : World) (fact : Fact) (dealings : Dealings)
    (bench : Bench) : Prop where
  reached : bench.steps.foldl take origin = bench.world
  dealings : bench.world.dealings = dealings
  fact : fact (System.AllMeet take guard origin bench.steps) bench.world

/-- Facts that no step ends. -/
def Lasting (fact : Fact) : Prop :=
  ∀ met met' before after, (met' → met) → Extends before after → fact met before → fact met' after

def since (time : Int) : Fact := fun _ mm => time ≤ mm.now

def given (known : World → Prop) : Fact := fun met mm => met → known mm

def also (left right : Fact) : Fact := fun met mm => left met mm ∧ right met mm

/-- What the benchmark may stop with: a helper that has gone, `--poll-ms` below zero, and a
warm-up that does not come through. -/
def Raises : BenchError → Prop
  | .brokenPipe => True
  | .negativeSleep => True
  | .warmUp _ => True
  | _ => False

theorem lasting_also {left right : Fact} (first : Lasting left) (second : Lasting right) :
    Lasting (also left right) :=
  fun met met' before after weaker grown holds =>
    ⟨first met met' before after weaker grown holds.1,
      second met met' before after weaker grown holds.2⟩

theorem lasting_since (time : Int) : Lasting (since time) := by
  intro _ _ before after _ grown holds
  have later := grown.now
  unfold since at holds ⊢
  omega

theorem lasting_given {known : World → Prop}
    (lasting : ∀ before after, Extends before after → known before → known after) :
    Lasting (given known) :=
  fun _ _ before after weaker grown holds met => lasting before after grown (holds (weaker met))

theorem lasting_known (known : Prop) : Lasting (given fun _ => known) :=
  lasting_given fun _ _ _ holds => holds

/-- What happens around the benchmark leads from one state to the other. -/
def Moved (before after : Bench) : Prop :=
  ∃ events : List Event, after.world = events.foldl BenchHelpers.happen before.world ∧
    after.steps = before.steps ++ events.map .event

theorem moved_refl (bench : Bench) : Moved bench bench := ⟨[], rfl, by simp⟩

theorem moved_trans {first second third : Bench} (left : Moved first second)
    (right : Moved second third) : Moved first third := by
  obtain ⟨events, world, steps⟩ := left
  obtain ⟨later, world', steps'⟩ := right
  refine ⟨events ++ later, ?_, ?_⟩
  · rw [List.foldl_append, ← world, world']
  · rw [List.map_append, ← List.append_assoc, ← steps, steps']

theorem perform_moved (bench : Bench) (event : Event) : Moved bench (bench.perform (.event event)) :=
  ⟨[event], rfl, rfl⟩

theorem happen_moved (bench : Bench) (events : List Event) : Moved bench (bench.happen events) := by
  induction events generalizing bench with
  | nil => exact moved_refl bench
  | cons event events ih => exact moved_trans (perform_moved bench event) (ih _)

theorem script_moved {before after : Bench} {script : List (List Event)}
    (moved : Moved { before with script } after) : Moved before after := moved

theorem moved_extends {before after : Bench} (moved : Moved before after) :
    Extends before.world after.world := by
  obtain ⟨events, world, -⟩ := moved
  rw [world]
  clear world
  generalize before.world = mm
  induction events generalizing mm with
  | nil => exact extends_refl mm
  | cons event events ih => exact extends_trans (happen_extends mm event) (ih _)

theorem happen_dealings (mm : World) (event : Event) :
    (BenchHelpers.happen mm event).dealings = mm.dealings := by
  cases event <;> simp only [BenchHelpers.happen] <;> try rfl
  all_goals split <;> rfl

theorem moved_dealings {before after : Bench} (moved : Moved before after) :
    after.world.dealings = before.world.dealings := by
  obtain ⟨events, world, -⟩ := moved
  rw [world]
  clear world
  generalize before.world = mm
  induction events generalizing mm with
  | nil => rfl
  | cons event events ih => exact (ih _).trans (happen_dealings mm event)

theorem elapse_moved (bench : Bench) : Moved bench bench.elapse := by
  unfold Bench.elapse
  split
  · exact perform_moved ..
  · exact moved_trans (script_moved (happen_moved _ _)) (perform_moved ..)

/-- Every call takes time. -/
theorem elapse_now (bench : Bench) : bench.world.now < bench.elapse.world.now := by
  unfold Bench.elapse
  split
  · exact Nat.lt_succ_self _
  · rename_i events script _
    have grown := moved_extends (happen_moved { bench with script } events)
    exact Nat.lt_succ_of_le grown.now

theorem pause_over_moved (ready : World → Bool) (limit : Int) (script : List (List Event))
    (bench : Bench) : Moved bench (Bench.pauseOver ready limit script bench) := by
  induction script generalizing bench with
  | nil =>
      simp only [Bench.pauseOver]
      split
      · exact moved_refl bench
      · exact perform_moved ..
  | cons events script ih =>
      simp only [Bench.pauseOver]
      split
      · exact moved_refl bench
      · exact moved_trans (script_moved (happen_moved _ events)) (ih _)

section Standing

variable {guard : World → Step → Prop} {origin : World} {fact : Fact} {dealings : Dealings}
  {before after bench : Bench} {time : Int}

theorem at_moved (lasting : Lasting fact) (here : At guard origin fact dealings before)
    (moved : Moved before after) : At guard origin fact dealings after := by
  have grown := moved_extends moved
  have same := moved_dealings moved
  obtain ⟨events, world, steps⟩ := moved
  refine ⟨?_, same.trans here.dealings, ?_⟩
  · rw [steps, List.foldl_append, here.reached, List.foldl_map, world]
    rfl
  · apply lasting _ _ _ _ _ grown here.fact
    rw [steps]
    exact fun met => (System.all_meet_append.mp met).1

/-- The next step meets the guard if all steps do. -/
theorem at_perform (lasting : Lasting fact) (here : At guard origin fact dealings bench)
    (label : Step) {known : Prop}
    (learn : ∀ met : Prop, met → fact met bench.world → guard bench.world label → known) :
    At guard origin (also (given fun _ => known) fact) (take bench.world label).dealings
      (bench.perform label) := by
  refine ⟨?_, rfl, fun met => ?_, ?_⟩
  · rw [Bench.perform, List.foldl_append, here.reached]
    rfl
  · obtain ⟨earlier, now, -⟩ := System.all_meet_append.mp met
    rw [here.reached] at now
    exact learn _ earlier here.fact now
  · apply lasting _ _ _ _ _ (take_extends bench.world label) here.fact
    exact fun met => (System.all_meet_append.mp met).1

theorem at_weaken {weaker : Fact} (here : At guard origin fact dealings bench)
    (weaken : ∀ met mm, fact met mm → weaker met mm) : At guard origin weaker dealings bench :=
  ⟨here.reached, here.dealings, weaken _ _ here.fact⟩

theorem at_step (lasting : Lasting fact) (here : At guard origin fact dealings bench)
    (label : Step) :
    At guard origin fact (take bench.world label).dealings (bench.perform label) :=
  at_weaken (at_perform lasting here label fun _ _ _ _ => trivial) fun _ _ holds => holds.2

theorem at_run (here : At guard origin fact dealings bench) (mode : Mode) :
    System.Run (helpers mode) origin bench.steps bench.world := by
  rw [← here.reached]
  exact System.run_computed (fun _ _ _ => rfl) origin

theorem at_lawful (here : At guard origin fact dealings bench) (law : Lawful origin) :
    Lawful bench.world :=
  run_lawful (at_run here .graphics) law

theorem at_since (here : At guard origin fact dealings bench) {time : Int}
    (passed : time ≤ bench.world.now) : At guard origin (also (since time) fact) dealings bench :=
  ⟨here.reached, here.dealings, passed, here.fact⟩

theorem at_known (here : At guard origin (also (since time) fact) dealings bench) :
    At guard origin fact dealings bench :=
  at_weaken here fun _ _ holds => holds.2

/-! ## What the calls ensure -/

/-- What happens around the benchmark does not end it. -/
def Undisturbed (holds : Bench → Prop) : Prop :=
  ∀ before after, Moved before after → holds before → holds after

theorem at_undisturbed (lasting : Lasting fact) : Undisturbed (At guard origin fact dealings) :=
  fun _ _ moved here => at_moved lasting here moved

theorem since_undisturbed {holds : Bench → Prop} (calm : Undisturbed holds) (time : Int) :
    Undisturbed fun bench => time ≤ bench.world.now ∧ holds bench := by
  intro before after moved ⟨passed, here⟩
  have later := (moved_extends moved).now
  exact ⟨by omega, calm before after moved here⟩

theorem ensures_monotonic {holds : Bench → Prop} (calm : Undisturbed holds) (time : Int) :
    Ensures (fun bench => time ≤ bench.world.now ∧ holds bench) monotonic
      (fun now bench => time < now ∧ now ≤ bench.world.now ∧ holds bench) Raises := by
  refine ensures_through (fun _ bench => time < bench.world.now ∧ holds bench) ?_ fun _ => ?_
  · refine ensures_update fun bench here => ?_
    have passed := elapse_now bench
    exact ⟨by omega, calm _ _ (elapse_moved bench) here.2⟩
  · exact ensures_read fun bench here => ⟨here.1, le_rfl, here.2⟩

theorem ensures_write (lasting : Lasting fact) (helper : Helper) {known : Prop}
    (learn : ∀ mm : World, mm.dealings = dealings → guard mm (.write helper) → known) :
    Ensures (At guard origin fact dealings) (write helper)
      (fun _ => At guard origin (also (given fun _ => known) fact) (dealings.count helper))
      Raises := by
  refine ensures_through (fun _ => At guard origin fact dealings) ?_ fun _ => ?_
  · exact ensures_update fun bench here => at_moved lasting here (elapse_moved bench)
  refine ensures_read_bind fun bench here => ?_
  split
  · exact ensures_stop trivial
  · refine ensures_update ?_
    rintro _ rfl
    rw [← here.dealings]
    exact at_perform lasting here (.write helper) fun _ _ _ => learn _ here.dealings

/-- A request is written while the dealings are as the condition on such requests wants them. -/
theorem ensures_write_known (lasting : Lasting fact) (helper : Helper) (known : Dealings → Prop)
    (learn : ∀ mm, guard mm (.write helper) → known mm.dealings) :
    Ensures (At guard origin fact dealings) (write helper)
      (fun _ => At guard origin (also (given fun _ => known dealings) fact)
        (dealings.count helper)) Raises := by
  apply ensures_write lasting helper
  rintro mm rfl
  exact learn mm

theorem ensures_write_plain (lasting : Lasting fact) (helper : Helper) :
    Ensures (At guard origin fact dealings) (write helper)
      (fun _ => At guard origin fact (dealings.count helper)) Raises := by
  apply ensures_conclude (ensures_write lasting helper fun _ _ _ => trivial)
  intro _ bench here
  exact at_weaken here fun _ _ holds => holds.2

theorem ensures_pause {holds : Bench → Prop} (calm : Undisturbed holds) (ready : World → Bool)
    (limit : Int) :
    Ensures holds (update (Bench.pause ready limit) : BenchM Unit) (fun _ => holds) Raises :=
  ensures_update fun bench here => calm _ _ (pause_over_moved ready limit _ bench) here

theorem ensures_select {holds : Bench → Prop} (calm : Undisturbed holds) (reader : Helper)
    (remaining : Int) :
    Ensures holds (select reader remaining) (fun _ => holds) Raises := by
  refine ensures_read_bind fun start here => ?_
  refine ensures_through (fun _ => holds) ?_ fun _ => ensures_read fun _ here => here
  refine ensures_begin ?_ (ensures_pause calm _ _)
  rintro _ rfl
  exact here

theorem ensures_sleep {holds : Bench → Prop} (calm : Undisturbed holds) (duration : Int) :
    Ensures holds (sleep duration) (fun _ => holds) Raises := by
  refine ensures_ite (fun _ => ensures_stop trivial) fun _ => ?_
  refine ensures_read_bind fun start here => ensures_begin ?_ (ensures_pause calm _ _)
  rintro _ rfl
  exact here

theorem ensures_samples {Figures : Type} {holds : Figures → Bench → Prop} {period : Int}
    {measure : Figures → BenchM Figures} (calm : ∀ figures, Undisturbed (holds figures))
    (measured : ∀ figures, Ensures (holds figures) (measure figures) holds Raises)
    (samples : Nat) (tick : Int) (figures : Figures) :
    Ensures (holds figures) (pacedSamples period measure samples tick figures) holds Raises := by
  induction samples generalizing tick figures with
  | zero => exact ensures_pure fun _ here => here
  | succ samples ih =>
      refine ensures_bind (measured figures) fun figures => ?_
      refine ensures_bind (ensures_begin ?_ (ensures_monotonic (calm figures) 0)) fun now => ?_
      · exact fun bench here => ⟨by omega, here⟩
      refine ensures_through (fun _ => holds figures) ?_ fun _ => ih _ figures
      refine ensures_begin (fun _ here => here.2.2) (ensures_only_if (fun _ => ?_) ?_)
      · exact ensures_sleep (calm figures) _
      · exact fun _ _ here => here

/-! ## Reading a line -/

/-- A line has not come in time, or it is the answer to the first request whose answer had not
been read. -/
def HasRead (guard : World → Step → Prop) (origin : World) (fact : Fact) (dealings : Dealings)
    (reader : Helper) (line : Text) (bench : Bench) : Prop :=
  line = [] ∧ At guard origin fact dealings bench ∨
    line = record (bench.world.answer reader (dealings.taken reader)) ∧
      dealings.taken reader < (bench.world.process reader).written.length ∧
      At guard origin fact (dealings.take reader) bench

theorem moved_buffer (moved : Moved before after) : after.world.buffer = before.world.buffer := by
  obtain ⟨events, world, -⟩ := moved
  rw [world]
  clear world
  generalize before.world = mm
  induction events generalizing mm with
  | nil => rfl
  | cons event events ih =>
      refine (ih _).trans ?_
      cases event <;> simp only [BenchHelpers.happen] <;> try rfl
      all_goals split <;> rfl

theorem ensures_cut (law : Lawful origin) (lasting : Lasting fact) (reader : Helper)
    (line left : Text) :
    Ensures (fun bench => At guard origin fact dealings bench ∧
        cutLine '\n' (bench.world.buffer reader) = some (line, left))
      (perform (.cut reader)) (fun _ => HasRead guard origin fact dealings reader line) Raises := by
  refine ensures_update fun bench ⟨here, cut⟩ => .inr ?_
  have lawful := at_lawful here law
  obtain ⟨inside, answer, -⟩ := cut_next lawful.histories (lawful.streams reader) cut
  have stands := at_step lasting here (.cut reader)
  have unchanged := answer_extends lawful.histories (take_extends bench.world (.cut reader))
    (lt_of_lt_of_le inside (lawful.histories.written_ended reader))
  rw [here.dealings] at inside answer unchanged
  refine ⟨answer.trans (congrArg record unchanged.symm), ?_, ?_⟩
  · simpa only [Bench.perform, take, cut] using inside
  · simpa only [take, cut, here.dealings] using stands

/-- The head of a loop that still has `fuel` turns before its deadline. -/
def InTime (guard : World → Step → Prop) (origin : World) (fact : Fact) (dealings : Dealings)
    (deadline : Int) (fuel : Nat) (bench : Bench) : Prop :=
  0 < fuel ∧ deadline < bench.world.now + fuel ∧ At guard origin fact dealings bench

theorem buffer_undisturbed (lasting : Lasting fact) (reader : Helper) (buffer : Text) :
    Undisturbed fun bench => bench.world.buffer reader = buffer ∧
      At guard origin fact dealings bench := by
  intro before after moved ⟨same, here⟩
  refine ⟨?_, at_moved lasting here moved⟩
  rw [moved_buffer moved]
  exact same

/-- A turn that finds no line in the buffer ends with a line, or later with time left. -/
theorem ensures_readline_turn (law : Lawful origin) (lasting : Lasting fact) (reader : Helper)
    (deadline : Int) (fuel : Nat) :
    Ensures (InTime guard origin fact dealings deadline (fuel + 1)) (readlineTurn reader deadline)
      (fun result bench => result.elim (InTime guard origin fact dealings deadline fuel bench)
        fun line => HasRead guard origin fact dealings reader line bench) Raises := by
  refine ensures_read_bind fun start here => ?_
  obtain ⟨-, bound, here⟩ := here
  split
  · rename_i line left cut
    refine ensures_bind (ensures_begin ?_ (ensures_cut law lasting reader line left))
      fun _ => ensures_pure fun _ read => read
    rintro _ rfl
    exact ⟨here, cut⟩
  · rename_i uncut
    have calm : Undisturbed fun bench => bench.world.buffer reader = start.world.buffer reader ∧
        At guard origin fact dealings bench := buffer_undisturbed lasting reader _
    refine ensures_bind (ensures_begin ?_ (ensures_monotonic calm start.world.now)) fun now => ?_
    · rintro _ rfl
      exact ⟨le_rfl, rfl, here⟩
    refine ensures_given fun later => ?_
    refine ensures_ite (fun _ => ensures_pure fun _ holds => .inl ⟨rfl, holds.2.2⟩) fun early => ?_
    refine ensures_bind (ensures_select (since_undisturbed calm now) reader _) fun ready => ?_
    refine ensures_ite (fun _ => ensures_pure fun _ holds => .inl ⟨rfl, holds.2.2⟩) fun _ => ?_
    refine ensures_read_bind fun bench holds => ?_
    obtain ⟨passed, same, here⟩ := holds
    refine ensures_ite (fun ended => ensures_pure ?_) fun _ => ?_
    · rintro bench rfl
      have lawful := at_lawful here law
      have closed : (bench.world.process reader).pipe = [] := by
        simpa [List.isEmpty_iff] using ended
      refine .inl ⟨?_, here⟩
      rw [← same] at uncut ⊢
      exact uncut_end lawful.histories (lawful.streams reader) closed uncut
    · refine ensures_through (fun _ => InTime guard origin fact dealings deadline fuel)
        (ensures_update ?_) fun _ => ensures_pure fun _ holds => holds
      rintro bench rfl
      have unchanged : (bench.perform (.read reader)).world.now = bench.world.now := rfl
      have stands := at_step lasting here (.read reader)
      have kept : (take bench.world (.read reader)).dealings = bench.world.dealings := rfl
      rw [kept, here.dealings] at stands
      refine ⟨by omega, ?_, stands⟩
      rw [unchanged]
      omega

theorem ensures_readline (law : Lawful origin) (lasting : Lasting fact) (reader : Helper)
    (timeout : Int) :
    Ensures (At guard origin fact dealings) (readline reader timeout)
      (fun line bench => HasRead guard origin fact dealings reader line bench) Raises := by
  have calm : Undisturbed (At guard origin fact dealings) := at_undisturbed lasting
  refine ensures_bind (ensures_begin ?_ (ensures_monotonic calm 0)) fun now => ?_
  · exact fun bench here => ⟨by omega, here⟩
  refine ensures_begin ?_ (ensures_loop ?_ (ensures_readline_turn law lasting reader _) _)
  · intro bench ⟨_, passed, here⟩
    exact ⟨by omega, by omega, here⟩
  · exact fun bench here => absurd here.1 (by omega)

theorem has_read_at {reader : Helper} {line : Text} {bench : Bench}
    (has_read : HasRead guard origin fact dealings reader line bench) :
    ∃ current, At guard origin fact current bench := by
  rcases has_read with ⟨-, here⟩ | ⟨-, -, here⟩
  · exact ⟨dealings, here⟩
  · exact ⟨dealings.take reader, here⟩

end Standing

end XrdpConsole.BenchReader
