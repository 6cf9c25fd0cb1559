import XrdpConsole.BenchInput

/-!
# Samples of one pulse

In a run of the input benchmark in which no pulse is written before all lines of the earlier
pulses have been read, every figure combines the lines and the returned marker of the pulse
of its own turn. A delivery miss before the last pulse leaves a line behind, which is then
taken for the answer to a later pulse.
-/

namespace XrdpConsole.BenchPulses

open XrdpConsole.Library
open XrdpConsole.Library.Program
open XrdpConsole.BenchHelpers
open XrdpConsole.BenchPipes
open XrdpConsole.BenchReader
open XrdpConsole.BenchMarker
open XrdpConsole.BenchInput

set_option autoImplicit false

/-- The condition on waits, and no line of an earlier pulse to be read at a pulse. -/
def OnePulse (mm : World) (label : Step) : Prop :=
  Timely mm label ∧ (label = .write .injector → Drained mm.dealings)

instance (mm : World) (label : Step) : Decidable (OnePulse mm label) :=
  inferInstanceAs (Decidable (_ ∧ _))

def allFigures (figures : InputFigures) : List Figure :=
  figures.inputDeliveryMs ++ figures.localDrawMs ++ figures.returnGraphicsMs ++ figures.roundtripMs

/-- The marker of the pulse has come back at a look taken after it was drawn. -/
def Returned (mm : World) (pulse look : Nat) : Prop :=
  Reported mm look ∧ (mm.lookAt look).frame = some pulse ∧
    (mm.endedAt .stimulus pulse).time ≤ mm.begunAt .probe look

/-- Every figure is one of its own pulse: it uses the lines that answer this pulse, and its
value is the time between what they report and what the probe reports of its marker. -/
structure PulseFigures (mm : World) (figures : InputFigures) : Prop where
  own : ∀ figure ∈ allFigures figures,
    figure.injected = figure.pulse ∧ figure.marker = figure.pulse
  input : ∀ figure ∈ figures.inputDeliveryMs,
    figure.value = mm.begunAt .stimulus figure.pulse - mm.begunAt .injector figure.pulse
  drawn : ∀ figure ∈ figures.localDrawMs,
    figure.value = (mm.endedAt .stimulus figure.pulse).time - mm.begunAt .stimulus figure.pulse
  returned : ∀ figure ∈ figures.returnGraphicsMs, ∃ look, Returned mm figure.pulse look ∧
    figure.value = (mm.endedAt .probe look).time - (mm.endedAt .stimulus figure.pulse).time
  roundtrip : ∀ figure ∈ figures.roundtripMs, ∃ look, Returned mm figure.pulse look ∧
    figure.value = (mm.endedAt .probe look).time - mm.begunAt .injector figure.pulse

theorem returned_of_genuine {mm : World} {frame : Nat} {latency : Int}
    (genuine : Genuine mm frame latency) : ∃ look, Returned mm frame look ∧
      latency = (mm.endedAt .probe look).time - (mm.endedAt .stimulus frame).time := by
  obtain ⟨look, reported, shows, later, -, value⟩ := genuine.sampled
  exact ⟨look, ⟨reported, shows, later⟩, value⟩

theorem pulse_figures_of_sound {mm : World} {figures : InputFigures}
    (sound : InputSound True mm figures) : PulseFigures mm figures where
  own figure member := by
    simp only [allFigures, List.append_assoc, List.mem_append] at member
    rcases member with here | here | here | here
    · exact (sound.input figure here).1.own trivial
    · exact (sound.drawn figure here).1.own trivial
    · exact (sound.returned figure here).1.own trivial
    · exact (sound.roundtrip figure here).1.own trivial
  input figure member := by
    obtain ⟨lines, value⟩ := sound.input figure member
    rw [inputNs, (lines.own trivial).1, (lines.own trivial).2] at value
    exact value
  drawn figure member := by
    obtain ⟨lines, value⟩ := sound.drawn figure member
    rw [localNs, (lines.own trivial).2] at value
    exact value
  returned figure member := by
    obtain ⟨lines, genuine⟩ := sound.returned figure member
    rw [(lines.own trivial).2] at genuine
    exact returned_of_genuine genuine
  roundtrip figure member := by
    obtain ⟨lines, returnNs, genuine, value⟩ := sound.roundtrip figure member
    rw [inputNs, localNs, (lines.own trivial).1, (lines.own trivial).2] at value
    rw [(lines.own trivial).2] at genuine
    obtain ⟨look, returned, rfl⟩ := returned_of_genuine genuine
    exact ⟨look, returned, by omega⟩

theorem start_attentive (mode : Mode) (now : Nat) (pixel : Pixel) :
    Attentive (start mode now pixel) :=
  fun _ awaited => absurd awaited (by simp [start])

/-- What a run of the input benchmark that starts with the helpers ready ends with. -/
theorem input_run_sampled (guard : World → Step → Prop) (tied : Prop)
    (timely : ∀ mm label, guard mm label → Timely mm label)
    (own : ∀ mm, guard mm (.write .injector) → tied → Drained mm.dealings) (args : Arguments)
    (samples now : Nat) (pixel : Pixel) (script : List (List Event)) :
    Ensures (fun bench => bench = launch .inputRoundtrip now pixel script)
      (runInputRoundtrip args samples)
      (Sampled guard (start .inputRoundtrip now pixel) tied) Raises := by
  refine ensures_begin ?_ (ensures_run_input (start_lawful _ now pixel) (start_attentive _ now pixel)
    timely own args samples)
  rintro _ rfl
  refine ⟨_, rfl, rfl, rfl, fun _ => ?_⟩
  constructor <;> simp [InputFigures.none]

/-- Where every pulse is written with the lines of all earlier ones read, and the waits are
timely, every figure is one of its own pulse. -/
theorem figures_of_one_pulse (args : Arguments) (samples now : Nat) (pixel : Pixel)
    (script : List (List Event)) (figures : InputFigures) (final : Bench)
    (ran : Returns (runInputRoundtrip args samples) (launch .inputRoundtrip now pixel script)
      figures final)
    (met : System.AllMeet take OnePulse (start .inputRoundtrip now pixel) final.steps) :
    PulseFigures final.world figures := by
  have sampled := input_run_sampled OnePulse True (fun _ _ met => met.1)
    (fun _ met _ => met.2 rfl) args samples now pixel script
  obtain ⟨dealings, here⟩ := ensures_returns sampled rfl ran
  exact pulse_figures_of_sound (here.fact.2 met)

/-! ## Two runs -/

/-- `--timeout` and `--poll-ms` by default, and samples as fast as they are measured. -/
def defaults : Arguments where
  timeout := 2000000000
  pollInterval := 3000000
  period := 0

def black : Pixel := { red := 0, green := 0, blue := 0 }

def red : Pixel := { red := 255, green := 0, blue := 0 }

def blue : Pixel := { red := 0, green := 0, blue := 255 }

/-- A helper answers its next request at once. -/
def answers (helper : Helper) : List Event := [.begin helper, .finish helper 0, .print helper]

/-- The warm-up: the pulse, its two lines, and its marker in the first look. -/
def warmUp : List (List Event) :=
  [[], answers .injector ++ answers .stimulus ++ [.show 0 red], [], [], [],
    [], [], [], [], answers .probe, [], []]

/-- One pulse whose lines and marker come in time. -/
def pulseInTime : List (List Event) :=
  warmUp ++ [[], answers .injector ++ [.pass 500] ++ answers .stimulus ++ [.show 1 blue], [], [],
    [], [], [], [], [], answers .probe]

theorem pulse_in_time_returns :
    Returns (runInputRoundtrip defaults 1) (launch .inputRoundtrip 1000 black pulseInTime)
      { inputDeliveryMs := [{ pulse := 1, injected := 1, marker := 1, value := 500 }]
        localDrawMs := [{ pulse := 1, injected := 1, marker := 1, value := 0 }]
        returnGraphicsMs := [{ pulse := 1, injected := 1, marker := 1, value := 8 }]
        roundtripMs := [{ pulse := 1, injected := 1, marker := 1, value := 508 }]
        deliveryMisses := 0
        returnMisses := 0 }
      (runInputRoundtrip defaults 1 (launch .inputRoundtrip 1000 black pulseInTime)).2 :=
  returns_of_option (by decide +kernel)

theorem figures_of_one_pulse_in_time :
    ∃ figures final,
      Returns (runInputRoundtrip defaults 1) (launch .inputRoundtrip 1000 black pulseInTime)
        figures final ∧
      figures.roundtripMs = [{ pulse := 1, injected := 1, marker := 1, value := 508 }] ∧
      PulseFigures final.world figures := by
  exact ⟨_, _, pulse_in_time_returns, rfl, figures_of_one_pulse defaults 1 1000 black pulseInTime
    _ _ pulse_in_time_returns (by decide +kernel)⟩

/-- The line of the first pulse from the key stimulus comes after the timeout. -/
def lateMarkerLine : List (List Event) :=
  warmUp ++ [[], answers .injector ++ [.pass 500, .begin .stimulus, .finish .stimulus 0], [], [],
    [], [.pass 2000000000], [], [.print .stimulus], answers .injector, [], [], []]

/-- The first pulse is counted as a miss. Its line is read as the answer to the second pulse,
which has then been delivered before it was injected. -/
theorem late_line_of_another_pulse :
    ¬∀ (args : Arguments) (samples now : Nat) (pixel : Pixel) (script : List (List Event))
      (figures : InputFigures) (final : Bench),
      Returns (runInputRoundtrip args samples) (launch .inputRoundtrip now pixel script)
        figures final → PulseFigures final.world figures := by
  intro holds
  have ran : Returns (runInputRoundtrip defaults 2)
      (launch .inputRoundtrip 1000 black lateMarkerLine)
      { inputDeliveryMs := [{ pulse := 2, injected := 2, marker := 1, value := -2000000006 }]
        localDrawMs := [{ pulse := 2, injected := 2, marker := 1, value := 0 }]
        returnGraphicsMs := []
        roundtripMs := []
        deliveryMisses := 1
        returnMisses := 1 } _ := returns_of_option (by decide +kernel)
  have own := (holds _ _ _ _ _ _ _ ran).own _ (List.mem_cons_self ..)
  exact absurd own.2 (by decide)

end XrdpConsole.BenchPulses
