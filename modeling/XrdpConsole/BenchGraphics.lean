import XrdpConsole.BenchPulses

/-!
# The graphics latencies

The graphics loop of `run_case`. In a run whose waits are timely every latency is that of a
look at the very frame on the remote display, taken after the frame was visible; the same
holds of the return leg of the input benchmark. An answer of the probe that comes after its
wait has ended is taken for one of the next wait, and after a missed frame the frame before
it has the colour that is awaited.
-/

namespace XrdpConsole.BenchGraphics

open XrdpConsole.Library
open XrdpConsole.Library.Program
open XrdpConsole.BenchHelpers
open XrdpConsole.BenchPipes
open XrdpConsole.BenchReader
open XrdpConsole.BenchMarker
open XrdpConsole.BenchInput
open XrdpConsole.BenchPulses

set_option autoImplicit false

/-! ## The source functions -/

/-- A latency of the turn that requested the frame `requested`, computed from the line for the
frame `marker`. -/
structure FrameFigure where
  requested : Nat
  marker : Nat
  value : Int
  deriving DecidableEq, Repr

structure GraphicsFigures where
  latencies : List FrameFigure
  renderNs : List Int
  misses : Nat
  deriving DecidableEq, Repr

def GraphicsFigures.none : GraphicsFigures := { latencies := [], renderNs := [], misses := 0 }

def GraphicsFigures.miss (self : GraphicsFigures) : GraphicsFigures :=
  { self with misses := self.misses + 1 }

def GraphicsFigures.rendered (self : GraphicsFigures) (renderNs : Int) : GraphicsFigures :=
  { self with renderNs := self.renderNs ++ [renderNs] }

def GraphicsFigures.add (self : GraphicsFigures) (figure : FrameFigure) : GraphicsFigures :=
  { self with latencies := self.latencies ++ [figure] }

/-- The body of the loop, up to the delay. -/
def measureFrame (args : Arguments) (figures : GraphicsFigures) : BenchM GraphicsFigures := do
  let requested ← read fun self => self.world.dealings.requests .stimulus
  let marker ← read fun self => self.world.dealings.taken .stimulus
  write .stimulus
  let line ← readline .stimulus 5000000000
  match fields line with
  | visible :: state :: render :: _ => do
      let visibleNs ← int visible
      let state ← int state
      let figures := figures.rendered (← int render)
      match ← waitMarker state visibleNs args.timeout args.pollInterval with
      | none => pure figures.miss
      | some latency => pure (figures.add { requested, marker, value := latency })
  | _ => pure figures.miss

/-- The part of `run_case` from the warm-up frame on. -/
def runGraphics (args : Arguments) (samples : Nat) : BenchM GraphicsFigures := do
  write .stimulus
  let warmup ← readline .stimulus 5000000000
  if warmup.isEmpty then
    stop (.warmUp "stimulus warm-up failed")
  else
    match fields warmup with
    | visible :: state :: _ => do
        let state ← int state
        let visibleNs ← int visible
        match ← waitMarker state visibleNs args.timeout args.pollInterval with
        | none => stop (.warmUp "remote marker did not arrive during warm-up")
        | some _ => do
            let wallStart ← monotonic
            pacedSamples args.period (measureFrame args) samples wallStart .none
    | _ => stop .indexError

/-! ## The lines that are read -/

variable {guard : World → Step → Prop} {origin : World} {fact : Fact} {dealings : Dealings}
  {tied : Prop}

/-- What a frame stimulus's line says of its frame. -/
theorem frame_words (mm : World) (frame : Nat) (graphics : mm.mode = .graphics) :
    fields (record (mm.answer .stimulus frame)) =
      [decimal (mm.endedAt .stimulus frame).time, decimal (frame % 2),
        decimal (mm.endedAt .stimulus frame).render] := by
  rw [fields_record _ (answer_words mm .stimulus frame)]
  simp only [World.answer, graphics]

theorem ensures_int {holds : Bench → Prop} (value : Nat) :
    Ensures holds (int (decimal value)) (fun read bench => read = value ∧ holds bench) Raises := by
  simp only [int, integer_decimal]
  exact ensures_pure fun _ here => ⟨rfl, here⟩

/-- A line of the stimulus, if there is one, marks the frame whose turn it is. -/
def FrameRead (guard : World → Step → Prop) (origin : World) (fact : Fact) (dealings : Dealings)
    (words : List Text) (bench : Bench) : Prop :=
  words = [] ∧ At guard origin fact dealings bench ∨
    ∃ visible state render : Nat, words = [decimal visible, decimal state, decimal render] ∧
      At guard origin (also (marks (dealings.taken .stimulus) state visible) fact)
        (dealings.take .stimulus) bench

theorem frame_read (law : Lawful origin) (graphics : ∀ met mm, fact met mm → mm.mode = .graphics)
    {line : Text} {bench : Bench} (read : HasRead guard origin fact dealings .stimulus line bench) :
    FrameRead guard origin fact dealings (fields line) bench := by
  rcases read with ⟨rfl, here⟩ | ⟨rfl, inside, here⟩
  · exact .inl ⟨rfl, here⟩
  · have mode := graphics _ _ here.fact
    have written := (at_lawful here law).histories.written_ended .stimulus
    refine .inr ⟨_, _, _, frame_words bench.world _ mode, here.reached, here.dealings, ?_, here.fact⟩
    refine ⟨lt_of_lt_of_le inside written, rfl, ?_⟩
    rw [mode]
    rfl

/-! ## One sample -/

/-- Latencies are genuine, and of the frame of their turn if the reading is tied to the
requests. -/
def GraphicsSound (tied : Prop) (mm : World) (figures : GraphicsFigures) : Prop :=
  ∀ figure ∈ figures.latencies,
    Genuine mm figure.marker figure.value ∧ (tied → figure.marker = figure.requested)

def soundGraphics (tied : Prop) (figures : GraphicsFigures) : Fact :=
  also (inMode .graphics) (given fun mm => GraphicsSound tied mm figures)

theorem lasting_graphics (tied : Prop) (figures : GraphicsFigures) :
    Lasting (soundGraphics tied figures) := by
  apply lasting_also (lasting_mode _) (lasting_given _)
  intro before after grown sound figure member
  exact ⟨genuine_extends grown (sound figure member).1, (sound figure member).2⟩

theorem graphics_sound_add {mm : World} {figures : GraphicsFigures} {figure : FrameFigure}
    (sound : GraphicsSound tied mm figures)
    (added : Genuine mm figure.marker figure.value ∧ (tied → figure.marker = figure.requested)) :
    GraphicsSound tied mm (figures.add figure) := by
  intro other member
  rcases List.mem_append.mp member with old | new
  · exact sound other old
  · rw [List.mem_singleton.mp new]
    exact added

def FramesSampled (guard : World → Step → Prop) (origin : World) (tied : Prop)
    (figures : GraphicsFigures) (bench : Bench) : Prop :=
  ∃ dealings, At guard origin (soundGraphics tied figures) dealings bench

/-- The lines of all frames requested so far have been read. -/
def FramesDrained (dealings : Dealings) : Prop :=
  dealings.taken .stimulus = dealings.requests .stimulus

instance (dealings : Dealings) : Decidable (FramesDrained dealings) :=
  inferInstanceAs (Decidable (_ = _))

theorem ensures_measure_frame (law : Lawful origin) (start : Attentive origin)
    (timely : ∀ mm label, guard mm label → Timely mm label)
    (own : ∀ mm, guard mm (.write .stimulus) → tied → FramesDrained mm.dealings)
    (args : Arguments) (figures : GraphicsFigures) :
    Ensures (At guard origin (soundGraphics tied figures) dealings) (measureFrame args figures)
      (FramesSampled guard origin tied) Raises := by
  have base := lasting_graphics tied figures
  refine ensures_read_bind fun _ here => ensures_read_bind fun bench same => ?_
  subst same
  rw [here.dealings]
  have current : ∀ now, now = bench → At guard origin (soundGraphics tied figures) dealings now := by
    rintro _ rfl
    exact here
  refine ensures_bind (ensures_begin current
    (ensures_write_known base .stimulus (tied → FramesDrained ·) own)) fun _ => ?_
  have requested := lasting_also (lasting_known (tied → FramesDrained dealings)) base
  refine ensures_bind (ensures_readline law requested .stimulus _) fun line => ?_
  refine ensures_begin (fun _ read => frame_read law (fun _ _ holds => holds.2.1) read) ?_
  generalize fields line = words
  refine ensures_or (ensures_given fun nothing => ?_) (ensures_exists fun visible =>
    ensures_exists fun state => ensures_exists fun render => ensures_given fun same => ?_)
  · subst nothing
    exact ensures_pure fun _ stands => ⟨_, at_weaken stands fun _ _ holds => holds.2⟩
  · subst same
    refine ensures_bind (ensures_int visible) fun visibleNs => ensures_given fun same => ?_
    subst same
    refine ensures_bind (ensures_int state) fun stateRead => ensures_given fun same => ?_
    subst same
    refine ensures_bind (ensures_int render) fun renderNs => ensures_given fun _ => ?_
    have marked := lasting_also (lasting_marks (dealings.taken .stimulus) state visible) requested
    refine ensures_bind (ensures_wait_marker law start timely marked (fun _ _ holds => holds.1)
      rfl _ _) fun found => ?_
    cases found with
    | none =>
        refine ensures_pure fun final ⟨current, _, stands⟩ => ⟨current, ?_⟩
        exact at_weaken stands fun _ _ holds => holds.2.2.2
    | some latency =>
        refine ensures_pure fun final ⟨current, _, stands⟩ => ⟨current, at_weaken stands ?_⟩
        intro met mm holds
        refine ⟨holds.2.2.2.1, fun all => graphics_sound_add (holds.2.2.2.2 all) ?_⟩
        exact ⟨holds.1 all latency rfl, holds.2.2.1 all⟩

theorem frames_undisturbed (figures : GraphicsFigures) :
    Undisturbed (FramesSampled guard origin tied figures) :=
  fun _ _ moved ⟨dealings, here⟩ => ⟨dealings, at_moved (lasting_graphics tied figures) here moved⟩

/-- A run from the ready helpers ends with sound figures, or with an exception that the source
raises itself. -/
theorem ensures_run_graphics (law : Lawful origin) (start : Attentive origin)
    (timely : ∀ mm label, guard mm label → Timely mm label)
    (own : ∀ mm, guard mm (.write .stimulus) → tied → FramesDrained mm.dealings)
    (args : Arguments) (samples : Nat) :
    Ensures (FramesSampled guard origin tied .none) (runGraphics args samples)
      (FramesSampled guard origin tied) Raises := by
  have base := lasting_graphics tied .none
  refine ensures_exists fun dealings => ?_
  refine ensures_bind (ensures_write_plain base .stimulus) fun _ => ?_
  refine ensures_bind (ensures_readline law base .stimulus _) fun warmup => ?_
  refine ensures_ite (fun _ => ensures_stop trivial) fun some_line => ?_
  have words : ∀ bench, HasRead guard origin (soundGraphics tied .none) (dealings.count .stimulus)
      .stimulus warmup bench → ∃ visible state render : Nat,
        fields warmup = [decimal visible, decimal state, decimal render] ∧
          At guard origin (also (marks (dealings.taken .stimulus) state visible)
            (soundGraphics tied .none)) ((dealings.count .stimulus).take .stimulus) bench := by
    intro bench read
    rcases read with ⟨rfl, -⟩ | some_answer
    · simp at some_line
    · rcases frame_read law (fun _ _ holds => holds.1) (.inr some_answer) with ⟨nothing, -⟩ | found
      · obtain ⟨rfl, -, here⟩ := some_answer
        rw [frame_words bench.world _ here.fact.1] at nothing
        contradiction
      · exact found
  refine ensures_begin words ?_
  generalize fields warmup = words
  refine ensures_exists fun visible => ensures_exists fun state => ensures_exists fun render =>
    ensures_given fun same => ?_
  subst same
  refine ensures_bind (ensures_int state) fun stateRead => ensures_given fun same => ?_
  subst same
  refine ensures_bind (ensures_int visible) fun visibleNs => ensures_given fun same => ?_
  subst same
  have marked := lasting_also (lasting_marks (dealings.taken .stimulus) state visible) base
  refine ensures_bind (ensures_wait_marker law start timely marked (fun _ _ holds => holds.1)
    rfl _ _) fun found => ?_
  cases found with
  | none => exact ensures_stop trivial
  | some latency =>
      refine ensures_exists fun current => ensures_given fun _ => ?_
      have calm : Undisturbed (At guard origin (soundGraphics tied .none) current) :=
        at_undisturbed base
      refine ensures_bind (ensures_begin ?_ (ensures_monotonic calm 0)) fun now => ?_
      · exact fun bench here => ⟨by omega, at_weaken here fun _ _ holds => holds.2.2⟩
      · exact ensures_begin (fun _ holds => ⟨current, holds.2.2⟩)
          (ensures_samples frames_undisturbed (fun figures => ensures_exists fun dealings =>
            ensures_measure_frame law start timely own args figures) samples _ _)

/-! ## Every latency -/

/-- The condition on waits, and no line of an earlier frame to be read at a request. -/
def OneFrame (mm : World) (label : Step) : Prop :=
  Timely mm label ∧ (label = .write .stimulus → FramesDrained mm.dealings)

theorem graphics_run_sampled (guard : World → Step → Prop) (tied : Prop)
    (timely : ∀ mm label, guard mm label → Timely mm label)
    (own : ∀ mm, guard mm (.write .stimulus) → tied → FramesDrained mm.dealings)
    (args : Arguments) (samples now : Nat) (pixel : Pixel) (script : List (List Event)) :
    Ensures (fun bench => bench = launch .graphics now pixel script) (runGraphics args samples)
      (FramesSampled guard (start .graphics now pixel) tied) Raises := by
  refine ensures_begin ?_ (ensures_run_graphics (start_lawful _ now pixel)
    (start_attentive _ now pixel) timely own args samples)
  rintro _ rfl
  exact ⟨_, rfl, rfl, rfl, fun _ figure none => absurd none (by simp [GraphicsFigures.none])⟩

/-- Where the waits of a run are timely, every latency of the graphics loop and of the return
leg of the input loop is genuine, and so never negative. The frame is that of the turn if
every line of an earlier frame has been read when it is requested. -/
theorem latencies_genuine (args : Arguments) (samples now : Nat) (pixel : Pixel)
    (script : List (List Event)) (final : Bench) :
    (∀ figures, Returns (runGraphics args samples) (launch .graphics now pixel script) figures
        final →
      System.AllMeet take Timely (start .graphics now pixel) final.steps →
      ∀ figure ∈ figures.latencies,
        Genuine final.world figure.marker figure.value ∧ 0 ≤ figure.value ∧
          (System.AllMeet take OneFrame (start .graphics now pixel) final.steps →
            figure.marker = figure.requested)) ∧
    (∀ figures, Returns (runInputRoundtrip args samples)
        (launch .inputRoundtrip now pixel script) figures final →
      System.AllMeet take Timely (start .inputRoundtrip now pixel) final.steps →
      ∀ figure ∈ figures.returnGraphicsMs,
        Genuine final.world figure.marker figure.value ∧ 0 ≤ figure.value) := by
  constructor
  · intro figures ran met figure member
    have sampled := graphics_run_sampled Timely False (fun _ _ met => met)
      (fun _ _ never => never.elim) args samples now pixel script
    obtain ⟨dealings, here⟩ := ensures_returns sampled rfl ran
    have genuine := (here.fact.2 met figure member).1
    refine ⟨genuine, genuine_nonneg genuine, fun drained => ?_⟩
    have tied := graphics_run_sampled OneFrame True (fun _ _ met => met.1)
      (fun _ met _ => met.2 rfl) args samples now pixel script
    obtain ⟨dealings, here⟩ := ensures_returns tied rfl ran
    exact (here.fact.2 drained figure member).2 trivial
  · intro figures ran met figure member
    have sampled := input_run_sampled Timely False (fun _ _ met => met)
      (fun _ _ never => never.elim) args samples now pixel script
    obtain ⟨dealings, here⟩ := ensures_returns sampled rfl ran
    have genuine := ((here.fact.2 met).returned figure member).2
    exact ⟨genuine, genuine_nonneg genuine⟩

/-! ## Three runs -/

/-- The warm-up frame, with its marker in the first look. -/
def frameWarmUp : List (List Event) :=
  [[], answers .stimulus ++ [.show 0 blue], [], [], [], [], [], answers .probe, [], []]

/-- One frame whose marker comes in time. -/
def frameInTime : List (List Event) :=
  frameWarmUp ++ [[], answers .stimulus ++ [.pass 700, .show 1 red], [], [], [], [], [],
    answers .probe]

theorem latencies_genuine_in_time :
    (∃ figures final,
      Returns (runGraphics defaults 1) (launch .graphics 1000 black frameInTime) figures final ∧
      figures.latencies = [{ requested := 1, marker := 1, value := 706 }] ∧
      ∀ figure ∈ figures.latencies,
        Genuine final.world figure.marker figure.value ∧ 0 ≤ figure.value) ∧
    ∃ figures final,
      Returns (runInputRoundtrip defaults 1) (launch .inputRoundtrip 1000 black pulseInTime)
        figures final ∧
      figures.returnGraphicsMs = [{ pulse := 1, injected := 1, marker := 1, value := 8 }] ∧
      ∀ figure ∈ figures.returnGraphicsMs,
        Genuine final.world figure.marker figure.value ∧ 0 ≤ figure.value := by
  constructor
  · have ran : Returns (runGraphics defaults 1) (launch .graphics 1000 black frameInTime)
        { latencies := [{ requested := 1, marker := 1, value := 706 }]
          renderNs := [0]
          misses := 0 } _ := returns_of_option (by decide +kernel)
    refine ⟨_, _, ran, rfl, fun figure member => ?_⟩
    have genuine := (latencies_genuine defaults 1 1000 black frameInTime _).1 _ ran
      (by decide +kernel) figure member
    exact ⟨genuine.1, genuine.2.1⟩
  · refine ⟨_, _, pulse_in_time_returns, rfl, ?_⟩
    exact (latencies_genuine defaults 1 1000 black pulseInTime _).2 _ pulse_in_time_returns
      (by decide +kernel)

/-- The answer of the probe to the only request for the first frame comes after the wait. -/
def lateAnswer : List (List Event) :=
  frameWarmUp ++ [[], answers .stimulus, [], [], [], [], [], [.begin .probe, .finish .probe 0], [],
    [.pass 2000000000], [.pass 3000000], [], [], [], answers .stimulus, [], [.print .probe]]

/-- The first frame does not reach the remote display in time. -/
def missedFrame : List (List Event) :=
  frameWarmUp ++ [[], answers .stimulus, [], [], [], [], [], answers .probe, [],
    [.pass 2000000000], [], [], [], answers .stimulus, [], [], [], [], [], answers .probe]

/-- A late answer gives a latency below zero: the look was taken before the frame was drawn.
After a missed frame, a look at the frame before it gives the latency of the next one. -/
theorem stale_latencies :
    (¬∀ (args : Arguments) (samples now : Nat) (pixel : Pixel) (script : List (List Event))
      (figures : GraphicsFigures) (final : Bench),
      Returns (runGraphics args samples) (launch .graphics now pixel script) figures final →
        ∀ figure ∈ figures.latencies, 0 ≤ figure.value) ∧
    ¬∀ (args : Arguments) (samples now : Nat) (pixel : Pixel) (script : List (List Event))
      (figures : GraphicsFigures) (final : Bench),
      Returns (runGraphics args samples) (launch .graphics now pixel script) figures final →
        ∀ figure ∈ figures.latencies, Genuine final.world figure.marker figure.value := by
  constructor
  · intro holds
    have ran : Returns (runGraphics defaults 2) (launch .graphics 1000 black lateAnswer)
        { latencies := [{ requested := 2, marker := 2, value := -2003000005 }]
          renderNs := [0, 0]
          misses := 1 } _ := returns_of_option (by decide +kernel)
    exact absurd (holds _ _ _ _ _ _ _ ran _ (List.mem_cons_self ..)) (by decide)
  · intro holds
    have ran : Returns (runGraphics defaults 2) (launch .graphics 1000 black missedFrame)
        { latencies := [{ requested := 2, marker := 2, value := 6 }]
          renderNs := [0, 0]
          misses := 1 } _ := returns_of_option (by decide +kernel)
    have genuine := holds _ _ _ _ _ _ _ ran _ (List.mem_cons_self ..)
    obtain ⟨look, reported, shows, -⟩ := genuine.sampled
    have older : ∀ look ∈
        (runGraphics defaults 2 (launch .graphics 1000 black missedFrame)).2.world.looks,
        look.frame ≠ some 2 := by decide +kernel
    have seen := older _ (List.getElem_mem reported.seen)
    rw [World.lookAt, List.getD_eq_getElem _ _ reported.seen] at shows
    exact seen shows

end XrdpConsole.BenchGraphics
