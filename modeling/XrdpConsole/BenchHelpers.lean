import XrdpConsole.Library.LineText
import XrdpConsole.Library.Transition
import Mathlib.Logic.Function.Basic

/-!
# The helpers of the benchmark

`xrdp_vnc_bench.py` measures through helper programs that it talks to over pipes: the key
injector (`x11_xtest_key.c`), the stimulus (`x11vnc_latency_stimulus.c` for keys,
`x11vnc_gpu_stimulus.c` for frames) and the pixel probe (`x11_pixel_probe.c`) at the remote
display. Each helper answers every request with one line, after any delay, and the marker of
a frame reaches the remote display after any delay. Times are whole nanoseconds of the one
monotonic clock. The pipes carry ASCII text.
-/

namespace XrdpConsole.BenchHelpers

open XrdpConsole.Library

set_option autoImplicit false

abbrev Text := List Char

inductive Helper where
  | injector
  | stimulus
  | probe
  deriving DecidableEq, Repr

/-- The choices of `--mode`. -/
inductive Mode where
  | graphics
  | inputRoundtrip
  deriving DecidableEq, Repr

structure Pixel where
  red : Nat
  green : Nat
  blue : Nat
  deriving DecidableEq, Repr

/-- What the probe has seen at one request: the frame on display, which it cannot tell, and
the pixel, if `XGetImage` has not failed. -/
structure Look where
  frame : Option Nat
  image : Option Pixel
  deriving DecidableEq, Repr

/-- The clock after the work on a request, and for a frame the time its rendering took. -/
structure Completion where
  time : Nat
  render : Nat
  deriving DecidableEq, Repr

/-- The histories of a helper, one entry for each request, and its standard output. `begun`
has the clock when the request was taken up. -/
structure Process where
  begun : List Nat
  ended : List Completion
  written : List Text
  pipe : Text
  closed : Bool

/-- The wait for the marker of a frame: the requests that the probe had taken up when it
began, and the clock then. -/
structure Wait where
  frame : Nat
  earlier : Nat
  since : Nat
  deriving DecidableEq, Repr

/-- What the benchmark itself has done: the requests written to each helper, the lines read
from it, and the wait it has begun last. -/
structure Dealings where
  requests : Helper → Nat
  taken : Helper → Nat
  awaited : Option Wait

structure World where
  mode : Mode
  now : Nat
  process : Helper → Process
  looks : List Look
  shown : Option Nat
  pixel : Pixel
  buffer : Helper → Text
  dealings : Dealings

/-! ## Lines and markers -/

/-- The test of `marker_rgb_matches`. -/
def markerColour (red green blue state : Int) : Bool :=
  if state ≠ 0 then
    red > 200 && green < 80 && blue < 80
  else
    blue > 200 && red < 80 && green < 80

def Pixel.matches (pixel : Pixel) (state : Int) : Bool :=
  markerColour pixel.red pixel.green pixel.blue state

/-- The state of a frame's marker as `wait_marker` counts it: the key stimulus draws its
state 0 in red, the frame stimulus its state 1. -/
def markerState (mode : Mode) (frame : Nat) : Int :=
  match mode with
  | .graphics => (frame % 2 : Nat)
  | .inputRoundtrip => 1 - (frame % 2 : Nat)

def imageFailed : Text := ['I', 'M', 'A', 'G', 'E', '_', 'F', 'A', 'I', 'L', 'E', 'D']

namespace World

def begunAt (mm : World) (helper : Helper) (request : Nat) : Nat :=
  (mm.process helper).begun.getD request 0

def endedAt (mm : World) (helper : Helper) (request : Nat) : Completion :=
  (mm.process helper).ended.getD request { time := 0, render := 0 }

def lookAt (mm : World) (request : Nat) : Look :=
  mm.looks.getD request { frame := none, image := none }

/-- The words of the line that answers a request. -/
def answer (mm : World) : Helper → Nat → List Text
  | .injector, request => [decimal (mm.begunAt .injector request)]
  | .stimulus, request =>
      match mm.mode with
      | .graphics =>
          [decimal (mm.endedAt .stimulus request).time, decimal (request % 2),
            decimal (mm.endedAt .stimulus request).render]
      | .inputRoundtrip =>
          [decimal (mm.begunAt .stimulus request), decimal (mm.endedAt .stimulus request).time,
            decimal (request % 2)]
  | .probe, request =>
      match (mm.lookAt request).image with
      | none => [imageFailed]
      | some pixel =>
          [decimal (mm.endedAt .probe request).time, decimal pixel.red, decimal pixel.green,
            decimal pixel.blue]

/-- The requests that have reached a helper. A key reaches the key stimulus when the injector
has submitted it. -/
def arrived (mm : World) : Helper → Nat
  | .stimulus =>
      match mm.mode with
      | .graphics => mm.dealings.requests .stimulus
      | .inputRoundtrip => (mm.process .injector).ended.length
  | helper => mm.dealings.requests helper

def changeProcess (mm : World) (helper : Helper) (change : Process → Process) : World :=
  { mm with process := Function.update mm.process helper (change (mm.process helper)) }

end World

/-! ## Steps -/

/-- What happens around the benchmark. A helper takes up a request, finishes the work on it
and writes its line; `imageFails` is the probe taking up a request when `XGetImage` fails. -/
inductive Event where
  | pass (duration : Nat)
  | begin (helper : Helper)
  | imageFails
  | finish (helper : Helper) (render : Nat)
  | print (helper : Helper)
  | exit (helper : Helper)
  | show (frame : Nat) (pixel : Pixel)
  deriving DecidableEq, Repr

/-- A helper that has answered its last request has another one. -/
def CanBegin (mm : World) (helper : Helper) : Prop :=
  (mm.process helper).closed = false ∧
    (mm.process helper).begun.length = (mm.process helper).written.length ∧
    (mm.process helper).begun.length < mm.arrived helper

def CanFinish (mm : World) (helper : Helper) : Prop :=
  (mm.process helper).closed = false ∧
    (mm.process helper).ended.length < (mm.process helper).begun.length

def CanPrint (mm : World) (helper : Helper) : Prop :=
  (mm.process helper).closed = false ∧
    (mm.process helper).written.length < (mm.process helper).ended.length

/-- The frame has been submitted, and its marker does not look like the other one. -/
def CanShow (mm : World) (frame : Nat) (pixel : Pixel) : Prop :=
  frame < (mm.process .stimulus).begun.length ∧
    pixel.matches (1 - markerState mm.mode frame) = false

instance (mm : World) (helper : Helper) : Decidable (CanBegin mm helper) :=
  inferInstanceAs (Decidable (_ ∧ _))

instance (mm : World) (helper : Helper) : Decidable (CanFinish mm helper) :=
  inferInstanceAs (Decidable (_ ∧ _))

instance (mm : World) (helper : Helper) : Decidable (CanPrint mm helper) :=
  inferInstanceAs (Decidable (_ ∧ _))

instance (mm : World) (frame : Nat) (pixel : Pixel) : Decidable (CanShow mm frame pixel) :=
  inferInstanceAs (Decidable (_ ∧ _))

def takeUp (mm : World) (helper : Helper) (image : Option Pixel) : World :=
  let mm : World := { mm with
    looks := if helper = .probe then mm.looks ++ [{ frame := mm.shown, image }] else mm.looks }
  mm.changeProcess helper fun process => { process with begun := process.begun ++ [mm.now] }

def happen (mm : World) : Event → World
  | .pass duration => { mm with now := mm.now + duration }
  | .begin helper => if CanBegin mm helper then takeUp mm helper (some mm.pixel) else mm
  | .imageFails => if CanBegin mm .probe then takeUp mm .probe none else mm
  | .finish helper render =>
      if CanFinish mm helper then
        mm.changeProcess helper fun process =>
          { process with ended := process.ended ++ [{ time := mm.now, render }] }
      else
        mm
  | .print helper =>
      if CanPrint mm helper then
        let text := record (mm.answer helper (mm.process helper).written.length)
        mm.changeProcess helper fun process =>
          { process with written := process.written ++ [text], pipe := process.pipe ++ text }
      else
        mm
  | .exit helper => mm.changeProcess helper fun process => { process with closed := true }
  | .show frame pixel =>
      if CanShow mm frame pixel then { mm with shown := some frame, pixel } else mm

/-- The steps of the benchmark beside the events: a line written to the standard input of a
helper, `os.read` into the buffer of its `LineReader`, a line cut off the buffer, and the
beginning of a wait. -/
inductive Step where
  | event (event : Event)
  | write (helper : Helper)
  | read (helper : Helper)
  | cut (helper : Helper)
  | await
  deriving DecidableEq, Repr

def Dealings.count (self : Dealings) (helper : Helper) : Dealings :=
  { self with requests := Function.update self.requests helper (self.requests helper + 1) }

def Dealings.take (self : Dealings) (helper : Helper) : Dealings :=
  { self with taken := Function.update self.taken helper (self.taken helper + 1) }

def Dealings.await (self : Dealings) (wait : Wait) : Dealings := { self with awaited := some wait }

/-- The wait that begins now is for the frame of the last line read from the stimulus. -/
def World.wait (mm : World) : Wait where
  frame := mm.dealings.taken .stimulus - 1
  earlier := (mm.process .probe).begun.length
  since := mm.now

def take (mm : World) : Step → World
  | .event event => happen mm event
  | .write helper => { mm with dealings := mm.dealings.count helper }
  | .read helper =>
      let chunk := (mm.process helper).pipe.take 4096
      let mm := { mm with buffer := Function.update mm.buffer helper (mm.buffer helper ++ chunk) }
      mm.changeProcess helper fun process => { process with pipe := process.pipe.drop 4096 }
  | .cut helper =>
      match cutLine '\n' (mm.buffer helper) with
      | none => mm
      | some (_, left) =>
          { mm with
            buffer := Function.update mm.buffer helper left
            dealings := mm.dealings.take helper }
  | .await => { mm with dealings := mm.dealings.await mm.wait }

/-- The helpers have reported that they are ready; the remote display shows any picture. -/
def start (mode : Mode) (now : Nat) (pixel : Pixel) : World where
  mode := mode
  now := now
  process _ := { begun := [], ended := [], written := [], pipe := [], closed := false }
  looks := []
  shown := none
  pixel := pixel
  buffer _ := []
  dealings := { requests _ := 0, taken _ := 0, awaited := none }

def helpers (mode : Mode) : System World Step where
  initial mm := ∃ now pixel, mm = start mode now pixel
  step before label after := take before label = after

end XrdpConsole.BenchHelpers
