import XrdpConsole.BenchMarker

/-!
# The input round trip

`run_input_roundtrip`: the warm-up and the loop over the samples. Each figure is kept with
the number of the pulse of its turn and those of the requests whose lines it was computed
from, which the source does not know. Latencies are in nanoseconds.
-/

namespace XrdpConsole.BenchInput

open XrdpConsole.Library
open XrdpConsole.Library.Program
open XrdpConsole.BenchHelpers
open XrdpConsole.BenchPipes
open XrdpConsole.BenchReader
open XrdpConsole.BenchMarker

set_option autoImplicit false

/-! ## The source functions -/

/-- The arguments in nanoseconds: `--timeout`, `--poll-ms`, and the time between samples. -/
structure Arguments where
  timeout : Int
  pollInterval : Int
  period : Int
  deriving DecidableEq, Repr

/-- A latency of the turn of `pulse`, computed from the line that answers the injector's
request `injected` and from the one for the frame `marker`. -/
structure Figure where
  pulse : Nat
  injected : Nat
  marker : Nat
  value : Int
  deriving DecidableEq, Repr

structure InputFigures where
  inputDeliveryMs : List Figure
  localDrawMs : List Figure
  returnGraphicsMs : List Figure
  roundtripMs : List Figure
  deliveryMisses : Nat
  returnMisses : Nat
  deriving DecidableEq, Repr

def InputFigures.none : InputFigures where
  inputDeliveryMs := []
  localDrawMs := []
  returnGraphicsMs := []
  roundtripMs := []
  deliveryMisses := 0
  returnMisses := 0

def InputFigures.missDelivery (self : InputFigures) : InputFigures :=
  { self with deliveryMisses := self.deliveryMisses + 1 }

def InputFigures.missReturn (self : InputFigures) : InputFigures :=
  { self with returnMisses := self.returnMisses + 1 }

/-- The two figures of a pulse that has been drawn. -/
def InputFigures.deliver (self : InputFigures) (figure : Int → Figure) (inputMs localMs : Int) :
    InputFigures :=
  { self with
    inputDeliveryMs := self.inputDeliveryMs ++ [figure inputMs]
    localDrawMs := self.localDrawMs ++ [figure localMs] }

/-- The two figures of a marker that has come back. -/
def InputFigures.bringBack (self : InputFigures) (figure : Int → Figure) (returnMs total : Int) :
    InputFigures :=
  { self with
    returnGraphicsMs := self.returnGraphicsMs ++ [figure returnMs]
    roundtripMs := self.roundtripMs ++ [figure total] }

/-- The body of the loop, up to the delay. -/
def measureInput (args : Arguments) (figures : InputFigures) : BenchM InputFigures := do
  let pulse ← read fun self => self.world.dealings.requests .injector
  let injected ← read fun self => self.world.dealings.taken .injector
  let marker ← read fun self => self.world.dealings.taken .stimulus
  write .injector
  let injectedLine ← readline .injector args.timeout
  if injectedLine.isEmpty then
    pure figures.missDelivery
  else do
    let t0Ns ← int (strip injectedLine)
    let physicalLine ← readline .stimulus args.timeout
    if physicalLine.isEmpty then
      pure figures.missDelivery
    else do
      let (t1EventNs, t1DrawDoneNs, physicalState) ← parsePhysicalMarker physicalLine
      let inputMs := t1EventNs - t0Ns
      let localMs := t1DrawDoneNs - t1EventNs
      let figure := Figure.mk pulse injected marker
      let figures := figures.deliver figure inputMs localMs
      match ← waitMarker (1 - physicalState) t1DrawDoneNs args.timeout args.pollInterval with
      | none => pure figures.missReturn
      | some returnMs => pure (figures.bringBack figure returnMs (inputMs + localMs + returnMs))

def runInputRoundtrip (args : Arguments) (samples : Nat) : BenchM InputFigures := do
  write .injector
  let injectedLine ← readline .injector 5000000000
  let physicalLine ← readline .stimulus 5000000000
  if injectedLine.isEmpty || physicalLine.isEmpty then
    stop (.warmUp "input warm-up did not traverse the RDP/VNC path")
  else do
    let (_, t1DrawDoneNs, physicalState) ← parsePhysicalMarker physicalLine
    match ← waitMarker (1 - physicalState) t1DrawDoneNs args.timeout args.pollInterval with
    | none => stop (.warmUp "input warm-up marker did not return over RDP")
    | some _ => do
        let wallStart ← monotonic
        pacedSamples args.period (measureInput args) samples wallStart .none

/-! ## The lines that are read -/

variable {before after : World}

theorem parse_physical (event drawDone state : Nat) :
    parsePhysicalMarker (record [decimal event, decimal drawDone, decimal state]) =
      pure ((event : Int), (drawDone : Int), (state : Int)) := by
  have words : fields (record [decimal event, decimal drawDone, decimal state]) =
      [decimal event, decimal drawDone, decimal state] := by
    apply fields_record
    intro word member
    simp only [List.mem_cons, List.not_mem_nil, or_false] at member
    rcases member with rfl | rfl | rfl <;> exact decimal_word _
  simp only [parsePhysicalMarker, words, int, integer_decimal]
  rfl

theorem int_record (value : Nat) : int (strip (record [decimal value])) = pure (value : Int) := by
  simp only [record, strip_newline (decimal_word value).2, int, integer_decimal]

def begins (helper : Helper) (request : Nat) (time : Int) : Fact := fun _ mm =>
  request < (mm.process helper).begun.length ∧ time = mm.begunAt helper request

def marks (frame : Nat) (state visibleNs : Int) : Fact := fun _ mm =>
  Marked frame state visibleNs mm

def inMode (mode : Mode) : Fact := fun _ mm => mm.mode = mode

theorem lasting_begins (helper : Helper) (request : Nat) (time : Int) :
    Lasting (begins helper request time) := by
  intro _ _ before after _ grown ⟨old, same⟩
  refine ⟨lt_of_lt_of_le old (grown.process helper).begun.length_le, ?_⟩
  rw [begun_at_extends grown old]
  exact same

theorem lasting_marks (frame : Nat) (state visibleNs : Int) :
    Lasting (marks frame state visibleNs) :=
  fun _ _ _ _ _ grown marked => marked_extends grown marked

theorem lasting_mode (mode : Mode) : Lasting (inMode mode) :=
  fun _ _ _ _ _ grown same => grown.mode.trans same

section Lines

variable {guard : World → Step → Prop} {origin : World} {fact : Fact} {dealings : Dealings}

theorem ensures_int_injected {line : Text} (law : Lawful origin) (some_line : ¬line.isEmpty) :
    Ensures (HasRead guard origin fact dealings .injector line) (int (strip line))
      (fun t0Ns => At guard origin (also (begins .injector (dealings.taken .injector) t0Ns) fact)
        (dealings.take .injector)) Raises := by
  intro bench read
  rcases read with ⟨rfl, -⟩ | ⟨rfl, inside, here⟩
  · simp at some_line
  · have histories := (at_lawful here law).histories
    have ended := histories.ended_begun .injector
    have written := histories.written_ended .injector
    have value : int (strip (record (bench.world.answer .injector (dealings.taken .injector)))) =
        pure (bench.world.begunAt .injector (dealings.taken .injector) : Int) := int_record _
    rw [value]
    exact ⟨here.reached, here.dealings, ⟨by omega, rfl⟩, here.fact⟩

theorem ensures_parse_physical {line : Text} (law : Lawful origin) (some_line : ¬line.isEmpty)
    (mode : ∀ met mm, fact met mm → mm.mode = .inputRoundtrip) :
    Ensures (HasRead guard origin fact dealings .stimulus line) (parsePhysicalMarker line)
      (fun marker => At guard origin (also (begins .stimulus (dealings.taken .stimulus) marker.1)
        (also (marks (dealings.taken .stimulus) (1 - marker.2.2) marker.2.1) fact))
        (dealings.take .stimulus)) Raises := by
  intro bench read
  rcases read with ⟨rfl, -⟩ | ⟨rfl, inside, here⟩
  · simp at some_line
  · have histories := (at_lawful here law).histories
    have ended := histories.ended_begun .stimulus
    have written := histories.written_ended .stimulus
    have keys := mode _ _ here.fact
    have words : bench.world.answer .stimulus (dealings.taken .stimulus) =
        [decimal (bench.world.begunAt .stimulus (dealings.taken .stimulus)),
          decimal (bench.world.endedAt .stimulus (dealings.taken .stimulus)).time,
          decimal (dealings.taken .stimulus % 2)] := by
      simp only [World.answer, keys]
    rw [words, parse_physical]
    refine ⟨here.reached, here.dealings, ⟨by omega, rfl⟩, ⟨by omega, rfl, ?_⟩, here.fact⟩
    rw [keys]
    rfl

end Lines

/-! ## The figures -/

/-- The lines of a figure have been written, for its own pulse if the reading is tied to the
pulses. -/
structure Lines (tied : Prop) (mm : World) (figure : Figure) : Prop where
  injected : figure.injected < (mm.process .injector).begun.length
  event : figure.marker < (mm.process .stimulus).begun.length
  drawn : figure.marker < (mm.process .stimulus).ended.length
  own : tied → figure.injected = figure.pulse ∧ figure.marker = figure.pulse

def inputNs (mm : World) (figure : Figure) : Int :=
  mm.begunAt .stimulus figure.marker - mm.begunAt .injector figure.injected

def localNs (mm : World) (figure : Figure) : Int :=
  (mm.endedAt .stimulus figure.marker).time - mm.begunAt .stimulus figure.marker

structure InputSound (tied : Prop) (mm : World) (figures : InputFigures) : Prop where
  input : ∀ figure ∈ figures.inputDeliveryMs,
    Lines tied mm figure ∧ figure.value = inputNs mm figure
  drawn : ∀ figure ∈ figures.localDrawMs,
    Lines tied mm figure ∧ figure.value = localNs mm figure
  returned : ∀ figure ∈ figures.returnGraphicsMs,
    Lines tied mm figure ∧ Genuine mm figure.marker figure.value
  roundtrip : ∀ figure ∈ figures.roundtripMs, Lines tied mm figure ∧
    ∃ returnNs, Genuine mm figure.marker returnNs ∧
      figure.value = inputNs mm figure + localNs mm figure + returnNs

theorem lines_extends {tied : Prop} {figure : Figure} (grown : Extends before after)
    (lines : Lines tied before figure) :
    Lines tied after figure ∧ inputNs after figure = inputNs before figure ∧
      localNs after figure = localNs before figure := by
  have stimulus := grown.process .stimulus
  refine ⟨⟨lt_of_lt_of_le lines.injected (grown.process .injector).begun.length_le,
    lt_of_lt_of_le lines.event stimulus.begun.length_le,
    lt_of_lt_of_le lines.drawn stimulus.ended.length_le, lines.own⟩, ?_, ?_⟩
  · simp only [inputNs, begun_at_extends grown lines.injected, begun_at_extends grown lines.event]
  · simp only [localNs, begun_at_extends grown lines.event, ended_at_extends grown lines.drawn]

theorem input_sound_extends {tied : Prop} {figures : InputFigures} (grown : Extends before after)
    (sound : InputSound tied before figures) : InputSound tied after figures where
  input figure member := by
    obtain ⟨lines, value⟩ := sound.input figure member
    obtain ⟨lines', same, -⟩ := lines_extends grown lines
    exact ⟨lines', value.trans same.symm⟩
  drawn figure member := by
    obtain ⟨lines, value⟩ := sound.drawn figure member
    obtain ⟨lines', -, same⟩ := lines_extends grown lines
    exact ⟨lines', value.trans same.symm⟩
  returned figure member := by
    obtain ⟨lines, genuine⟩ := sound.returned figure member
    exact ⟨(lines_extends grown lines).1, genuine_extends grown genuine⟩
  roundtrip figure member := by
    obtain ⟨lines, returnNs, genuine, value⟩ := sound.roundtrip figure member
    obtain ⟨lines', same_input, same_local⟩ := lines_extends grown lines
    exact ⟨lines', returnNs, genuine_extends grown genuine, by rw [same_input, same_local, value]⟩

theorem input_sound_deliver {tied : Prop} {mm : World} {figures : InputFigures}
    {figure : Int → Figure} {inputMs localMs : Int} (sound : InputSound tied mm figures)
    (input : Lines tied mm (figure inputMs) ∧ (figure inputMs).value = inputNs mm (figure inputMs))
    (drawn : Lines tied mm (figure localMs) ∧ (figure localMs).value = localNs mm (figure localMs)) :
    InputSound tied mm (figures.deliver figure inputMs localMs) where
  input other member := by
    rcases List.mem_append.mp member with old | new
    · exact sound.input other old
    · rw [List.mem_singleton.mp new]
      exact input
  drawn other member := by
    rcases List.mem_append.mp member with old | new
    · exact sound.drawn other old
    · rw [List.mem_singleton.mp new]
      exact drawn
  returned := sound.returned
  roundtrip := sound.roundtrip

theorem input_sound_bring {tied : Prop} {mm : World} {figures : InputFigures}
    {figure : Int → Figure} {returnMs total : Int} (sound : InputSound tied mm figures)
    (returned : Lines tied mm (figure returnMs) ∧
      Genuine mm (figure returnMs).marker (figure returnMs).value)
    (roundtrip : Lines tied mm (figure total) ∧
      ∃ returnNs, Genuine mm (figure total).marker returnNs ∧ (figure total).value =
        inputNs mm (figure total) + localNs mm (figure total) + returnNs) :
    InputSound tied mm (figures.bringBack figure returnMs total) where
  input := sound.input
  drawn := sound.drawn
  returned other member := by
    rcases List.mem_append.mp member with old | new
    · exact sound.returned other old
    · rw [List.mem_singleton.mp new]
      exact returned
  roundtrip other member := by
    rcases List.mem_append.mp member with old | new
    · exact sound.roundtrip other old
    · rw [List.mem_singleton.mp new]
      exact roundtrip

/-! ## One sample -/

/-- The lines of all pulses so far have been read. -/
def Drained (dealings : Dealings) : Prop :=
  dealings.taken .injector = dealings.requests .injector ∧
    dealings.taken .stimulus = dealings.requests .injector

instance (dealings : Dealings) : Decidable (Drained dealings) :=
  inferInstanceAs (Decidable (_ ∧ _))

def soundInput (tied : Prop) (figures : InputFigures) : Fact :=
  also (inMode .inputRoundtrip) (given fun mm => InputSound tied mm figures)

theorem lasting_sound (tied : Prop) (figures : InputFigures) : Lasting (soundInput tied figures) :=
  lasting_also (lasting_mode _) (lasting_given fun _ _ grown sound => input_sound_extends grown sound)

theorem miss_delivery_sound {tied : Prop} {mm : World} {figures : InputFigures}
    (sound : InputSound tied mm figures) : InputSound tied mm figures.missDelivery :=
  ⟨sound.input, sound.drawn, sound.returned, sound.roundtrip⟩

theorem miss_return_sound {tied : Prop} {mm : World} {figures : InputFigures}
    (sound : InputSound tied mm figures) : InputSound tied mm figures.missReturn :=
  ⟨sound.input, sound.drawn, sound.returned, sound.roundtrip⟩

section Samples

variable {guard : World → Step → Prop} {origin : World} {dealings : Dealings} {tied : Prop}

/-- The samples so far are sound, whatever the benchmark has dealt. -/
def Sampled (guard : World → Step → Prop) (origin : World) (tied : Prop) (figures : InputFigures)
    (bench : Bench) : Prop :=
  ∃ dealings, At guard origin (soundInput tied figures) dealings bench

theorem sampled_missed {fact : Fact} {figures : InputFigures} {reader : Helper} {line : Text}
    {bench : Bench} (has_read : HasRead guard origin fact dealings reader line bench)
    (sound : ∀ met mm, fact met mm → soundInput tied figures met mm) :
    Sampled guard origin tied figures.missDelivery bench := by
  obtain ⟨current, stands⟩ := has_read_at has_read
  refine ⟨current, at_weaken stands fun met mm holds => ?_⟩
  exact ⟨(sound met mm holds).1, fun all => miss_delivery_sound ((sound met mm holds).2 all)⟩

/-- What the two lines of a sample have told, over the figures so far. -/
def toldLines (tied : Prop) (figures : InputFigures) (dealings : Dealings)
    (t0Ns event drawDone state : Int) : Fact :=
  also (begins .stimulus (dealings.taken .stimulus) event)
    (also (marks (dealings.taken .stimulus) (1 - state) drawDone)
      (also (begins .injector (dealings.taken .injector) t0Ns)
        (also (given fun _ => tied → Drained dealings) (soundInput tied figures))))

theorem told_lines_figure {figures : InputFigures} {t0Ns event drawDone state : Int} {met : Prop}
    {mm : World} (told : toldLines tied figures dealings t0Ns event drawDone state met mm)
    (all : met) (value : Int) :
    let figure := Figure.mk (dealings.requests .injector) (dealings.taken .injector)
      (dealings.taken .stimulus) value
    Lines tied mm figure ∧ event - t0Ns = inputNs mm figure ∧
      drawDone - event = localNs mm figure := by
  obtain ⟨⟨began, rfl⟩, ⟨ended, rfl, -⟩, ⟨submitted, rfl⟩, drained, -⟩ := told
  exact ⟨⟨submitted, began, ended, drained all⟩, rfl, rfl⟩

theorem told_lines_deliver {figures : InputFigures} {t0Ns event drawDone state : Int} {met : Prop}
    {mm : World} (told : toldLines tied figures dealings t0Ns event drawDone state met mm)
    (all : met) :
    InputSound tied mm (figures.deliver (Figure.mk (dealings.requests .injector)
      (dealings.taken .injector) (dealings.taken .stimulus)) (event - t0Ns) (drawDone - event)) := by
  have input := told_lines_figure told all (event - t0Ns)
  have drawn := told_lines_figure told all (drawDone - event)
  exact input_sound_deliver (told.2.2.2.2.2 all) ⟨input.1, input.2.1⟩ ⟨drawn.1, drawn.2.2⟩

theorem ensures_measure_input (law : Lawful origin) (start : Attentive origin)
    (timely : ∀ mm label, guard mm label → Timely mm label)
    (own : ∀ mm, guard mm (.write .injector) → tied → Drained mm.dealings) (args : Arguments)
    (figures : InputFigures) :
    Ensures (At guard origin (soundInput tied figures) dealings) (measureInput args figures)
      (Sampled guard origin tied) Raises := by
  have base := lasting_sound tied figures
  refine ensures_read_bind fun _ here => ensures_read_bind fun _ same => ?_
  refine ensures_read_bind fun bench same' => ?_
  subst same' same
  rw [here.dealings]
  have current : ∀ now, now = bench → At guard origin (soundInput tied figures) dealings now := by
    rintro _ rfl
    exact here
  refine ensures_bind (ensures_begin current
    (ensures_write_known base .injector (tied → Drained ·) own)) fun _ => ?_
  -- the injector's line: what it tells is the start of the pulse
  have pulsed := lasting_also (lasting_known (tied → Drained dealings)) base
  refine ensures_bind (ensures_readline law pulsed .injector _) fun injectedLine => ?_
  refine ensures_ite (fun _ => ensures_pure ?_) fun some_line => ?_
  · exact fun final has_read => sampled_missed has_read fun _ _ holds => holds.2
  refine ensures_bind (ensures_int_injected law some_line) fun t0Ns => ?_
  -- the marker's line: the event, the end of the drawing and the state that was drawn
  have injected := lasting_also (lasting_begins .injector
    ((dealings.count .injector).taken .injector) t0Ns) pulsed
  refine ensures_bind (ensures_readline law injected .stimulus _) fun physicalLine => ?_
  refine ensures_ite (fun _ => ensures_pure ?_) fun some_marker => ?_
  · exact fun final has_read => sampled_missed has_read fun _ _ holds => holds.2.2
  refine ensures_bind (ensures_parse_physical law some_marker fun _ _ holds => holds.2.2.1)
    fun marker => ?_
  obtain ⟨event, drawDone, state⟩ := marker
  have marked := lasting_also (lasting_begins .stimulus (dealings.taken .stimulus) event)
    (lasting_also (lasting_marks (dealings.taken .stimulus) (1 - state) drawDone) injected)
  refine ensures_bind (ensures_wait_marker law start timely marked (fun _ _ holds => holds.2.1)
    rfl _ _) fun found => ?_
  cases found with
  | none =>
      refine ensures_pure fun final ⟨current, _, stands⟩ => ⟨current, at_weaken stands ?_⟩
      intro met mm ⟨_, told⟩
      exact ⟨told.2.2.2.2.1, fun all => miss_return_sound (told_lines_deliver told all)⟩
  | some returnMs =>
      refine ensures_pure fun final ⟨current, _, stands⟩ => ⟨current, at_weaken stands ?_⟩
      intro met mm ⟨genuine, told⟩
      refine ⟨told.2.2.2.2.1, fun all => ?_⟩
      obtain ⟨lines, input, drawn⟩ :=
        told_lines_figure told all (event - t0Ns + (drawDone - event) + returnMs)
      have returned := (told_lines_figure told all returnMs).1
      refine input_sound_bring (told_lines_deliver told all)
        ⟨returned, genuine all returnMs rfl⟩ ⟨lines, returnMs, genuine all returnMs rfl, ?_⟩
      rw [← input, ← drawn]

theorem sampled_undisturbed (figures : InputFigures) :
    Undisturbed (Sampled guard origin tied figures) :=
  fun _ _ moved ⟨dealings, here⟩ => ⟨dealings, at_moved (lasting_sound tied figures) here moved⟩

/-- A run from the ready helpers ends with sound figures, or with an exception that the source
raises itself. -/
theorem ensures_run_input (law : Lawful origin) (start : Attentive origin)
    (timely : ∀ mm label, guard mm label → Timely mm label)
    (own : ∀ mm, guard mm (.write .injector) → tied → Drained mm.dealings) (args : Arguments)
    (samples : Nat) :
    Ensures (Sampled guard origin tied .none) (runInputRoundtrip args samples)
      (Sampled guard origin tied) Raises := by
  have base := lasting_sound tied .none
  refine ensures_exists fun dealings => ?_
  refine ensures_bind (ensures_write_plain base .injector) fun _ => ?_
  refine ensures_through (fun _ => Sampled guard origin tied .none)
    (ensures_conclude (ensures_readline law base .injector _) ?_) fun injectedLine => ?_
  · exact fun line bench has_read => has_read_at has_read
  refine ensures_exists fun dealings => ?_
  refine ensures_bind (ensures_readline law base .stimulus _) fun physicalLine => ?_
  refine ensures_ite (fun _ => ensures_stop trivial) fun some_lines => ?_
  have some_marker : ¬physicalLine.isEmpty := by
    rw [Bool.or_eq_true, not_or] at some_lines
    exact some_lines.2
  refine ensures_bind (ensures_parse_physical law some_marker fun _ _ holds => holds.1)
    fun marker => ?_
  obtain ⟨event, drawDone, state⟩ := marker
  have marked := lasting_also (lasting_begins .stimulus (dealings.taken .stimulus) event)
    (lasting_also (lasting_marks (dealings.taken .stimulus) (1 - state) drawDone) base)
  refine ensures_bind (ensures_wait_marker law start timely marked (fun _ _ holds => holds.2.1)
    rfl _ _) fun found => ?_
  cases found with
  | none => exact ensures_stop trivial
  | some latency =>
      refine ensures_exists fun current => ensures_given fun _ => ?_
      have calm : Undisturbed (At guard origin (soundInput tied .none) current) :=
        at_undisturbed base
      refine ensures_bind (ensures_begin ?_ (ensures_monotonic calm 0)) fun now => ?_
      · exact fun bench here => ⟨by omega, at_weaken here fun _ _ holds => holds.2.2.2⟩
      · exact ensures_begin (fun _ holds => ⟨current, holds.2.2⟩)
          (ensures_samples sampled_undisturbed (fun figures => ensures_exists fun dealings =>
            ensures_measure_input law start timely own args figures) samples _ _)

end Samples

end XrdpConsole.BenchInput
