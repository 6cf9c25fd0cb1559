import XrdpConsole.VncSession

/-!
# The invariant of the incremental parser

`Callback` says once what one run of `lib_data_in` may do to the parser. From it
follow the invariant of every state a session reaches, that the checks of the
parser on its own state never fail, and the number of callbacks that a RAW
rectangle takes.
-/

namespace XrdpConsole.VncParserInvariant

open XrdpConsole.Library
open XrdpConsole.Library.Program
open XrdpConsole.VncState
open XrdpConsole.VncLayout
open XrdpConsole.VncFramebuffer
open XrdpConsole.VncIncremental
open XrdpConsole.VncModule
open XrdpConsole.VncSession

set_option autoImplicit false

/-! ## The parser as an automaton -/

namespace View

def await (p : ParserView) (state : VncFramebufferParseState) (headerSize : Nat) : ParserView :=
  { p with
    state := state
    headerSize := headerSize }

def stripRows (p : ParserView) : Nat := rowsPerRead p.quantum p.rowBytes (p.cy - p.rowsDone)

def scheduleRaw (p : ParserView) : ParserView := await p .waitRawData (stripRows p * p.rowBytes)

def finishUpdate (p : ParserView) : ParserView :=
  await { p with openUpdates := p.openUpdates - 1 } .waitMessageType 1

def finishRect (p : ParserView) : ParserView :=
  if p.rectsRemaining - 1 > 0 then
    await { p with rectsRemaining := p.rectsRemaining - 1 } .waitRectHeader 12
  else
    finishUpdate { p with rectsRemaining := p.rectsRemaining - 1 }

def beginUpdate (p : ParserView) (rects : Nat) : ParserView :=
  { p with
    rectsRemaining := rects
    openUpdates := p.openUpdates + 1 }

def setRect (p : ParserView) (x y cx cy : Nat) : ParserView :=
  { p with
    x := x
    y := y
    cx := cx
    cy := cy }

def startRaw (p : ParserView) : ParserView :=
  { p with
    rowBytes := p.cx * getBytesPerPixel p.serverBpp
    rowsDone := 0 }

def paintRows (p : ParserView) (rows : Nat) : ParserView :=
  { p with rowsDone := p.rowsDone + rows }

def counted (p : ParserView) : ParserView := { p with dataCallbacks := p.dataCallbacks + 1 }

end View

open View

/-- What one callback does to the parser when it does not stop with an error. -/
inductive Callback (p : ParserView) : ParserView → Prop where
  | message : p.state = .waitMessageType → Callback p p
  | beginMessage : p.state = .waitMessageType → Callback p (await p .waitUpdateHeader 3)
  | emptyUpdate : p.state = .waitUpdateHeader → Callback p (finishUpdate (View.beginUpdate p 0))
  | updateHeader (rects : Nat) : p.state = .waitUpdateHeader → 0 < rects →
      Callback p (await (View.beginUpdate p rects) .waitRectHeader 12)
  | rect (x y cx cy : Nat) : p.state = .waitRectHeader →
      Callback p (finishRect (setRect p x y cx cy))
  | emptyRaw (x y cx cy : Nat) : p.state = .waitRectHeader →
      Callback p (finishRect (startRaw (setRect p x y cx cy)))
  | rawRect (x y cx cy : Nat) : p.state = .waitRectHeader → 0 < cx → 0 < cy →
      (scheduleRaw (startRaw (setRect p x y cx cy))).headerSize ≤ p.inSize →
      Callback p (scheduleRaw (startRaw (setRect p x y cx cy)))
  | strip (rows : Nat) : p.state = .waitRawData → rows * p.rowBytes = p.headerSize →
      p.rowsDone + rows < p.cy → (scheduleRaw (paintRows p rows)).headerSize ≤ p.inSize →
      Callback p (scheduleRaw (paintRows p rows))
  | lastStrip (rows : Nat) : p.state = .waitRawData → rows * p.rowBytes = p.headerSize →
      p.cy ≤ p.rowsDone + rows → Callback p (finishRect (paintRows p rows))

/-- What the parser waits for in each of its states, and how many updates are
open there. -/
def Waits (p : ParserView) : Prop :=
  match p.state with
  | .waitMessageType => p.headerSize = 1 ∧ p.openUpdates = 0
  | .waitUpdateHeader => p.headerSize = 3 ∧ p.openUpdates = 0
  | .waitRectHeader => p.headerSize = 12 ∧ 0 < p.rectsRemaining ∧ p.openUpdates = 1
  | .waitRawData =>
      0 < p.rectsRemaining ∧ p.openUpdates = 1 ∧
        p.rowBytes = p.cx * getBytesPerPixel p.serverBpp ∧ 0 < p.rowBytes ∧
        (∃ k, 1 ≤ k ∧ k ≤ p.cy - p.rowsDone ∧ p.headerSize = k * p.rowBytes) ∧
        p.headerSize ≤ min (max p.quantum p.rowBytes) p.inSize

structure ParserInvariant (p : ParserView) : Prop where
  incremental : p.incrementalFramebuffer = true
  serverBpp : p.serverBpp ∈ [8, 15, 16, 24, 32]
  waits : Waits p

/-! ## The programs follow the automaton -/

def At (p : ParserView) (v : Vnc) : Prop := parserView v = p

theorem at_untouched {Value : Type} {program : VncM Value} (untouched : Untouched program)
    (p : ParserView) : Ensures (At p) program (fun _ => At p) Expected :=
  ensures_of_keeps (fun view => view = p) untouched

theorem at_await (p : ParserView) (state : VncFramebufferParseState) (headerSize : Nat) :
    Ensures (At p) (VncIncremental.await state headerSize)
      (fun _ => At (View.await p state headerSize)) Expected := by
  refine ensures_update fun v here => ?_
  subst here
  rfl

theorem at_set_rects (p : ParserView) (remaining : Int) :
    Ensures (At p) (setRectsRemaining remaining)
      (fun _ => At { p with rectsRemaining := remaining }) Expected := by
  refine ensures_update fun v here => ?_
  subst here
  rfl

theorem at_bracket (p : ParserView) (made : ServerCall) :
    Ensures (At p) (call made)
      (fun _ => At { p with openUpdates := p.openUpdates + bracketChange made }) Expected := by
  refine ensures_update fun v here => ?_
  subst here
  simp [At, parserView, openUpdates]

theorem at_schedule_raw (p : ParserView) (rowsLeft : 0 < p.cy - p.rowsDone)
    (rowBytes : 0 < p.rowBytes) :
    Ensures (At p) VncIncremental.scheduleRaw
      (fun _ v => At (View.scheduleRaw p) v ∧ (View.scheduleRaw p).headerSize ≤ p.inSize)
      Expected := by
  refine ensures_read_bind fun v here => ?_
  subst here
  refine ensures_ite (fun stuck => ?_) fun _ => ?_
  · simp only [parserView, id] at rowsLeft rowBytes stuck
    omega
  · refine ensures_ite (fun _ => ensures_stop (by decide)) fun fits => ?_
    refine ensures_update fun state here => ?_
    subst here
    exact ⟨rfl, not_lt.mp fits⟩

theorem at_finish_update (answers : ServerAnswers) (p : ParserView) :
    Ensures (At p) (VncIncremental.finishUpdate answers) (fun _ => At (View.finishUpdate p))
      Expected := by
  refine ensures_bind (at_bracket p .endUpdate) fun _ => ?_
  exact ensures_bind (at_untouched (untouched_request_next answers) _) fun _ => at_await _ _ _

theorem at_finish_rect (answers : ServerAnswers) (p : ParserView) :
    Ensures (At p) (VncIncremental.finishRect answers) (fun _ => At (View.finishRect p))
      Expected := by
  refine ensures_read_bind fun v here => ?_
  have start : ∀ state, state = v → At p state := fun _ same => same ▸ here
  refine ensures_begin start ?_
  have remaining : v.framebufferRectsRemaining = p.rectsRemaining := by rw [← here]; rfl
  simp only [id, remaining]
  refine ensures_bind (at_set_rects p _) fun _ => ?_
  unfold View.finishRect
  split
  · exact at_await _ _ _
  · exact at_finish_update answers _

theorem at_update_header (answers : ServerAnswers) (data : List Byte) (p : ParserView)
    (state : p.state = .waitUpdateHeader) :
    Ensures (At p) (updateHeaderData answers data) (fun _ v => Callback p (parserView v))
      Expected := by
  refine ensures_bind (at_set_rects p _) fun _ => ?_
  refine ensures_bind (at_bracket _ .beginUpdate) fun _ => ensures_ite (fun empty => ?_) fun some => ?_
  · refine ensures_conclude (at_finish_update answers _) fun _ v here => ?_
    rw [here, empty]
    exact .emptyUpdate state
  · refine ensures_conclude (at_await _ .waitRectHeader 12) fun _ v here => ?_
    rw [here]
    exact .updateHeader _ state (Nat.pos_of_ne_zero some)

/-- A rectangle of an encoding other than RAW is read and finished at once. -/
theorem at_whole_rect (answers : ServerAnswers) {Value : Type} {program : VncM Value}
    (untouched : Untouched program) (p : ParserView) (x y cx cy : Nat)
    (state : p.state = .waitRectHeader) :
    Ensures (At (View.setRect p x y cx cy))
      (do
        let _ ← program
        VncIncremental.finishRect answers)
      (fun _ v => Callback p (parserView v)) Expected := by
  refine ensures_bind (at_untouched untouched _) fun _ => ?_
  refine ensures_conclude (at_finish_rect answers _) fun _ v here => ?_
  rw [here]
  exact .rect x y cx cy state

theorem at_set_rect (p : ParserView) (x y cx cy : Nat) :
    Ensures (At p) (VncIncremental.setRect x y cx cy) (fun _ => At (View.setRect p x y cx cy))
      Expected := by
  refine ensures_update fun v here => ?_
  subst here
  rfl

theorem at_start_raw (p : ParserView) (x y cx cy : Nat) :
    Ensures (At (View.setRect p x y cx cy)) (VncIncremental.startRaw cx)
      (fun _ => At (View.startRaw (View.setRect p x y cx cy))) Expected := by
  refine ensures_update fun v here => ?_
  have width : v.framebufferCx = cx := congrArg ParserView.cx here
  unfold At at here ⊢
  rw [← here, ← width]
  rfl

theorem bytes_per_pixel_pos {bpp : Nat} (known : bpp ∈ [8, 15, 16, 24, 32]) :
    0 < getBytesPerPixel bpp := by
  simp only [List.mem_cons, List.not_mem_nil, or_false] at known
  obtain rfl | rfl | rfl | rfl | rfl := known <;> decide

theorem at_rect_header (answers : ServerAnswers) (data : List Byte) (p : ParserView)
    (state : p.state = .waitRectHeader) (known : p.serverBpp ∈ [8, 15, 16, 24, 32]) :
    Ensures (At p) (rectHeaderData answers data) (fun _ v => Callback p (parserView v))
      Expected := by
  refine ensures_bind (at_set_rect p _ _ _ _) fun _ => ?_
  refine ensures_ite (fun _ => ensures_stop (by decide)) fun _ => ?_
  refine ensures_ite (fun _ => ?_) fun _ => ?_
  · refine ensures_bind (at_start_raw p _ _ _ _) fun _ => ensures_ite (fun _ => ?_) fun area => ?_
    · refine ensures_conclude (at_finish_rect answers _) fun _ v here => ?_
      rw [here]
      exact .emptyRaw _ _ _ _ state
    · have cx : 0 < inUint16Be data 4 := by omega
      have cy : 0 < inUint16Be data 6 := by omega
      refine ensures_conclude (at_schedule_raw _ (by simpa [View.startRaw, View.setRect] using cy)
        (Nat.mul_pos cx (bytes_per_pixel_pos known))) fun _ v ⟨here, fits⟩ => ?_
      rw [here]
      exact .rawRect _ _ _ _ state cx cy fits
  refine ensures_ite (fun _ => ?_) fun _ => ensures_ite (fun _ => ?_) fun _ => ?_
  · exact at_whole_rect answers (untouched_copy_rect _ _ _ _) p _ _ _ _ state
  · exact at_whole_rect answers (untouched_cursor_payload _ _ _ _) p _ _ _ _ state
  refine ensures_ite (fun _ => ?_) fun _ => ensures_ite (fun _ => ?_) fun _ => ?_
  · exact at_whole_rect answers (untouched_desktop_size answers _ _) p _ _ _ _ state
  · exact at_whole_rect answers (untouched_extended_size answers _ _ _) p _ _ _ _ state
  · exact ensures_bind (at_untouched (untouched_call rfl) _) fun _ => ensures_stop (by decide)

theorem at_paint_rows (v : Vnc) (rows : Nat) :
    Ensures (At (parserView v)) (setRowsDone (v.framebufferRawRowsDone + rows))
      (fun _ => At (View.paintRows (parserView v) rows)) Expected := by
  refine ensures_update fun state here => ?_
  unfold At at here ⊢
  have done : v.framebufferRawRowsDone = state.framebufferRawRowsDone :=
    congrArg ParserView.rowsDone here.symm
  rw [← here, done]
  rfl

theorem at_raw_data (answers : ServerAnswers) (data : List Byte) (p : ParserView)
    (state : p.state = .waitRawData) (rowBytes : 0 < p.rowBytes)
    (whole : p.rowBytes ∣ p.headerSize) (arrived : data.length = p.headerSize) :
    Ensures (At p) (rawData answers data) (fun _ v => Callback p (parserView v)) Expected := by
  refine ensures_read_bind fun v here => ?_
  subst here
  rw [← arrived] at whole
  refine ensures_ite (fun invalid => ?_) fun _ => ?_
  · exact absurd (Nat.mod_eq_zero_of_dvd whole) (invalid.resolve_left rowBytes.ne')
  · have rows : data.length / (parserView v).rowBytes * (parserView v).rowBytes =
        (parserView v).headerSize := by
      rw [Nat.div_mul_cancel whole, arrived]
    have start : ∀ state, state = v → At (parserView v) state :=
      fun _ same => congrArg parserView same
    refine ensures_begin start ?_
    refine ensures_bind (at_untouched (untouched_call rfl) _) fun _ => ?_
    refine ensures_bind (at_paint_rows _ _) fun _ => ensures_ite (fun more => ?_) fun done => ?_
    · refine ensures_conclude (at_schedule_raw _ (Nat.sub_pos_of_lt more) rowBytes)
        fun _ after ⟨here, fits⟩ => ?_
      rw [here]
      exact .strip _ state rows more fits
    · refine ensures_conclude (at_finish_rect answers _) fun _ after here => ?_
      rw [here]
      exact .lastStrip _ state rows (not_lt.mp done)

theorem at_message (answers : ServerAnswers) (data : List Byte) (p : ParserView)
    (state : p.state = .waitMessageType) :
    Ensures (fun v => At p v ∧ ¬(v.resizeStatus = .done ∧ inUint8 data 0 = rfbS2cFramebufferUpdate))
      (libModProcessMessage answers data) (fun _ v => Callback p (parserView v)) Expected := by
  have followed : ∀ {program : VncM Unit}, Untouched program → ∀ {v : Vnc}, At p v →
      Ensures (fun start => start = v) program (fun _ after => Callback p (parserView after))
        Expected := by
    intro program untouched v here
    have start : ∀ other, other = v → At p other := fun _ same => same ▸ here
    refine ensures_begin start (ensures_conclude (at_untouched untouched p) fun _ after reached => ?_)
    rw [reached]
    exact .message state
  refine ensures_read_bind fun v ⟨here, notSteady⟩ => ?_
  refine ensures_ite (fun update => ?_) fun _ => ?_
  · cases status : v.resizeStatus with
    | waitingForFirstUpdate => exact followed (untouched_first_update answers) here
    | waitingForResizeConfirm => exact followed (untouched_resize_confirm answers) here
    | done => exact absurd ⟨status, update⟩ notSteady
  refine ensures_ite (fun _ => followed untouched_palette_update here) fun _ => ?_
  refine ensures_ite (fun _ => followed (untouched_call rfl) here) fun _ => ?_
  refine ensures_ite (fun _ => followed (untouched_clip_data answers) here) fun _ => ?_
  exact followed (untouched_call rfl) here

theorem waits_at {p : ParserView} {state : VncFramebufferParseState} (waits : Waits p)
    (here : p.state = state) : Waits { p with state := state } := by
  subst here
  exact waits

theorem at_incremental_data (answers : ServerAnswers) (data : List Byte) (p : ParserView)
    (holds : ParserInvariant p) (busy : p.state ≠ .waitMessageType)
    (arrived : data.length = p.headerSize) :
    Ensures (At p) (libFramebufferIncrementalData answers data)
      (fun _ v => Callback p (parserView v)) Expected := by
  refine ensures_read_bind fun v here => ?_
  have start : ∀ state, state = v → At p state := fun _ same => same ▸ here
  have state : p.state = v.framebufferParseState := by rw [← here]; rfl
  cases parse : v.framebufferParseState with
  | waitMessageType => exact absurd (state.trans parse) busy
  | waitUpdateHeader =>
      exact ensures_begin start (at_update_header answers data p (state.trans parse))
  | waitRectHeader =>
      exact ensures_begin start
        (at_rect_header answers data p (state.trans parse) holds.serverBpp)
  | waitRawData =>
      obtain ⟨-, -, -, rowBytes, ⟨k, -, -, strip⟩, -⟩ :=
        waits_at holds.waits (state.trans parse)
      have whole : p.rowBytes ∣ p.headerSize := ⟨k, by rw [strip, Nat.mul_comm]⟩
      exact ensures_begin start
        (at_raw_data answers data p (state.trans parse) rowBytes whole arrived)

/-- One run of `lib_data_in` on the bytes the parser waited for is a callback of
the automaton, and it never finds the parser in a state it checks against. -/
theorem at_data_in (answers : ServerAnswers) (p : ParserView) (holds : ParserInvariant p) :
    Ensures (fun v => At p v ∧ v.trans.inData.length = v.trans.headerSize) (libDataIn answers)
      (fun _ v => Callback (counted p) (parserView v)) Expected := by
  refine ensures_through
    (fun _ v => At (counted p) v ∧ v.trans.inData.length = v.trans.headerSize) ?_ fun _ => ?_
  · refine ensures_update fun v ⟨here, arrived⟩ => ⟨?_, arrived⟩
    subst here
    rfl
  refine ensures_read_bind fun v ⟨here, arrived⟩ => ?_
  refine ensures_through (fun _ v => Callback (counted p) (parserView v)) ?_
    fun _ => ensures_update fun _ reached => reached
  have counts : ParserInvariant (counted p) := ⟨holds.incremental, holds.serverBpp, holds.waits⟩
  have start : ∀ state, state = v → At (counted p) state := fun _ same => same ▸ here
  have state : (counted p).state = v.framebufferParseState := by rw [← here]; rfl
  have incremental : v.incrementalFramebuffer = true := by
    rw [← holds.incremental, show p.incrementalFramebuffer = (counted p).incrementalFramebuffer
      from rfl, ← here]
    rfl
  have size : v.trans.inData.length = (counted p).headerSize := by
    rw [arrived, ← here]
    rfl
  refine ensures_ite (fun busy => ?_) fun idle => ?_
  · exact ensures_begin start
      (at_incremental_data answers _ _ counts (by rw [state]; exact busy.2) size)
  have waiting : (counted p).state = .waitMessageType := by
    rw [state]
    by_contra busy
    exact idle ⟨incremental, busy⟩
  have one : v.trans.inData.length = 1 := size.trans (waits_at counts.waits waiting).1
  refine ensures_ite (fun _ => ?_) fun blocking => ?_
  · refine ensures_begin start (ensures_conclude (at_await _ .waitUpdateHeader 3) ?_)
    intro _ after reached
    rw [reached]
    exact .beginMessage waiting
  · refine ensures_begin (fun other same => ⟨start other same, ?_⟩) (at_message answers _ _ waiting)
    rintro ⟨status, update⟩
    exact blocking ⟨incremental, same ▸ status, one, update⟩

/-! ## The invariant of a session -/

theorem rows_per_read_bounds {rowsRemaining : Nat} (rows : 0 < rowsRemaining)
    (quantum rowBytes : Nat) :
    1 ≤ rowsPerRead quantum rowBytes rowsRemaining ∧
      rowsPerRead quantum rowBytes rowsRemaining ≤ rowsRemaining ∧
      rowsPerRead quantum rowBytes rowsRemaining * rowBytes ≤ max quantum rowBytes := by
  refine ⟨by simp only [rowsPerRead]; omega, by simp only [rowsPerRead]; omega, ?_⟩
  have capped : rowsPerRead quantum rowBytes rowsRemaining ≤ max 1 (quantum / rowBytes) :=
    min_le_left _ _
  have quotient : quantum / rowBytes * rowBytes ≤ quantum := Nat.div_mul_le_self _ _
  calc rowsPerRead quantum rowBytes rowsRemaining * rowBytes
      ≤ max 1 (quantum / rowBytes) * rowBytes := Nat.mul_le_mul_right _ capped
    _ ≤ max quantum rowBytes := by
        rcases Nat.le_total 1 (quantum / rowBytes) with h | h
        · rw [max_eq_right h]; omega
        · rw [max_eq_left h]; omega

theorem waits_scheduled {p : ParserView} (rects : 0 < p.rectsRemaining) (opened : p.openUpdates = 1)
    (bytes : p.rowBytes = p.cx * getBytesPerPixel p.serverBpp) (rowBytes : 0 < p.rowBytes)
    (rowsLeft : 0 < p.cy - p.rowsDone) (fits : (scheduleRaw p).headerSize ≤ p.inSize) :
    Waits (scheduleRaw p) := by
  obtain ⟨one, left, quantum⟩ := rows_per_read_bounds rowsLeft (p.quantum) p.rowBytes
  exact ⟨rects, opened, bytes, rowBytes, ⟨_, one, left, rfl⟩, le_min quantum fits⟩

theorem waits_finished {p : ParserView} (opened : p.openUpdates = 1) :
    Waits (View.finishRect p) := by
  unfold View.finishRect
  split
  · rename_i more
    exact ⟨rfl, more, opened⟩
  · exact ⟨rfl, show p.openUpdates - 1 = 0 by omega⟩

theorem finish_rect_static (p : ParserView) :
    (View.finishRect p).incrementalFramebuffer = p.incrementalFramebuffer ∧
      (View.finishRect p).serverBpp = p.serverBpp ∧
      (View.finishRect p).dataCallbacks = p.dataCallbacks := by
  unfold View.finishRect
  split <;> exact ⟨rfl, rfl, rfl⟩

theorem finish_rect_finishes (p : ParserView) :
    (View.finishRect p).state ≠ .waitRawData ∧
      (View.finishRect p).rectsRemaining = p.rectsRemaining - 1 := by
  unfold View.finishRect
  split
  · exact ⟨show VncFramebufferParseState.waitRectHeader ≠ .waitRawData by decide, rfl⟩
  · exact ⟨show VncFramebufferParseState.waitMessageType ≠ .waitRawData by decide, rfl⟩

theorem callback_preserves {p q : ParserView} (holds : ParserInvariant p)
    (called : Callback p q) : ParserInvariant q := by
  obtain ⟨incremental, serverBpp, waits⟩ := holds
  have finished : ∀ {middle : ParserView}, middle.incrementalFramebuffer = true →
      middle.serverBpp = p.serverBpp → middle.openUpdates = 1 →
      ParserInvariant (View.finishRect middle) := by
    intro middle on bpp opened
    obtain ⟨sameOn, sameBpp, -⟩ := finish_rect_static middle
    exact ⟨sameOn.trans on, by rw [sameBpp, bpp]; exact serverBpp, waits_finished opened⟩
  cases called with
  | message => exact ⟨incremental, serverBpp, waits⟩
  | beginMessage state =>
      obtain ⟨-, opened⟩ := waits_at waits state
      exact ⟨incremental, serverBpp, rfl, opened⟩
  | emptyUpdate state =>
      obtain ⟨-, opened⟩ := waits_at waits state
      exact ⟨incremental, serverBpp, rfl, show p.openUpdates + 1 - 1 = 0 by simp_all⟩
  | updateHeader rects state some =>
      obtain ⟨-, opened⟩ := waits_at waits state
      exact ⟨incremental, serverBpp, rfl, Int.natCast_pos.mpr some,
        show p.openUpdates + 1 = 1 by simp_all⟩
  | rect x y cx cy state =>
      obtain ⟨-, -, opened⟩ := waits_at waits state
      exact finished incremental rfl opened
  | emptyRaw x y cx cy state =>
      obtain ⟨-, -, opened⟩ := waits_at waits state
      exact finished incremental rfl opened
  | rawRect x y cx cy state width height fits =>
      obtain ⟨-, rects, opened⟩ := waits_at waits state
      exact ⟨incremental, serverBpp, waits_scheduled rects opened rfl
        (Nat.mul_pos width (bytes_per_pixel_pos serverBpp)) height fits⟩
  | strip rows state size more fits =>
      obtain ⟨rects, opened, bytes, rowBytes, -⟩ := waits_at waits state
      exact ⟨incremental, serverBpp,
        waits_scheduled rects opened bytes rowBytes (Nat.sub_pos_of_lt more) fits⟩
  | lastStrip rows state =>
      obtain ⟨-, opened, -⟩ := waits_at waits state
      exact finished incremental rfl opened

/-! ## Sessions -/

/-- A poll either leaves the parser where it is or runs one callback. -/
def Stepped (p q : ParserView) : Prop := q = p ∨ Callback (counted p) q

theorem at_receive (answers : ServerAnswers) (p : ParserView) (holds : ParserInvariant p) :
    Ensures (At p) (transReceive answers) (fun _ v => Stepped p (parserView v)) Expected := by
  refine ensures_read_bind fun v here => ?_
  have still : ∀ {program : VncM Unit}, Untouched program →
      Ensures (fun start => start = v) program (fun _ state => At p state ∧
        state.trans.headerSize = v.trans.headerSize) Expected := by
    intro program untouched
    have start : ∀ other, other = v → At p other := fun _ same => same ▸ here
    refine ensures_begin start (ensures_conclude (at_untouched untouched p) fun _ after reached => ?_)
    refine ⟨reached, ?_⟩
    exact congrArg ParserView.headerSize (reached.trans here.symm)
  refine ensures_ite (fun _ => ?_) fun _ => ?_
  · exact ensures_bind (still untouched_set_trans_down) fun _ => ensures_stop (by decide)
  refine ensures_bind (still (keeps_only_if ?_)) fun _ => ?_
  · refine keeps_bind (keeps_read _) fun sock => keeps_ite ?_ (keeps_update fun _ => rfl)
    exact keeps_bind untouched_set_trans_down fun _ => keeps_stop (by decide)
  refine ensures_read_bind fun state ⟨reached, size⟩ => ?_
  refine ensures_only_if (fun arrived => ?_) fun _ other same => ?_
  · refine ensures_always (ensures_begin ?_ (ensures_conclude (at_data_in answers p holds) ?_))
    · rintro _ rfl
      exact ⟨reached, arrived.trans size.symm⟩
    · exact fun _ after called => .inr called
  · rw [same]
    exact .inl reached

theorem at_poll (answers : ServerAnswers) (p : ParserView) (holds : ParserInvariant p) :
    Ensures (At p) (transCheckWaitObjs answers) (fun _ v => Stepped p (parserView v)) Expected := by
  refine ensures_read_bind fun v here => ensures_ite (fun _ => ensures_stop (by decide)) fun _ => ?_
  have start : ∀ state, state = v → At p state := fun _ same => same ▸ here
  refine ensures_through (fun _ v => Stepped p (parserView v)) (ensures_ite (fun _ => ?_)
    fun _ => ?_) fun _ => ensures_only_if (fun _ => ?_) fun _ _ stepped => stepped
  · exact ensures_begin start (at_receive answers p holds)
  · exact ensures_update fun other same => .inl (start other same)
  · exact ensures_through (fun _ _ => True) (ensures_update fun _ _ => trivial) fun _ =>
      ensures_stop (by decide)

theorem at_event (answers : ServerAnswers) (event : Event) (p : ParserView)
    (holds : ParserInvariant p) :
    Ensures (At p) (runEvent answers event) (fun _ v => Stepped p (parserView v)) Expected := by
  by_cases poll : event = .poll
  · subst poll
    exact at_poll answers p holds
  · exact ensures_conclude (at_untouched (untouched_unless_poll answers poll) p)
      fun _ _ reached => .inl reached

theorem stepped_preserves {p q : ParserView} (holds : ParserInvariant p) (stepped : Stepped p q) :
    ParserInvariant q := by
  cases stepped with
  | inl same => exact same ▸ holds
  | inr called =>
      have counts : ParserInvariant (counted p) := ⟨holds.incremental, holds.serverBpp, holds.waits⟩
      exact callback_preserves counts called

theorem session_step {before after : Vnc} {label : Event × ServerAnswers}
    (holds : ParserInvariant (parserView before)) (stepped : session.step before label after) :
    Stepped (parserView before) (parserView after) :=
  ensures_returns (at_event label.2 label.1 _ holds) rfl stepped

theorem session_invariant {v : Vnc} (reachable : session.Reachable v) :
    ParserInvariant (parserView v) := by
  refine System.reachable_invariant (fun v => ParserInvariant (parserView v)) ?_ ?_ reachable
  · intro start ⟨connected, incremental⟩
    refine ⟨incremental, connected.serverBpp, ?_⟩
    exact waits_at (p := { parserView start with state := .waitMessageType })
      ⟨connected.headerSize, connected.noneOpen⟩ connected.parseState.symm
  · intro before label after holds stepped
    exact stepped_preserves holds (session_step holds stepped)

/-! ## The callbacks of a RAW rectangle -/

def stripHeight (p : ParserView) : Nat := max 1 (p.quantum / p.rowBytes)

/-- The strips of a RAW rectangle: its rows over the rows of a strip, rounded up. -/
def stripCount (p : ParserView) : Nat := (p.cy + (stripHeight p - 1)) / stripHeight p

/-- The parser after `strips` strips of the RAW rectangle admitted at `a`. -/
def afterStrips (a : ParserView) (strips : Nat) : ParserView :=
  { a with
    rowsDone := strips * stripHeight a
    headerSize :=
      rowsPerRead a.quantum a.rowBytes (a.cy - strips * stripHeight a) * a.rowBytes
    dataCallbacks := a.dataCallbacks + strips }

/-- How far the RAW rectangle admitted at `a` has come at `p`. -/
inductive Progress (a p : ParserView) : Prop where
  | painting (strips : Nat) : p = afterStrips a strips → strips * stripHeight a < a.cy →
      Progress a p
  | finished : p.dataCallbacks = a.dataCallbacks + stripCount a → p.state ≠ .waitRawData →
      p.rectsRemaining = a.rectsRemaining - 1 → Progress a p
  | later : a.dataCallbacks + stripCount a < p.dataCallbacks → Progress a p

theorem strip_height_pos (p : ParserView) : 0 < stripHeight p := by
  simp only [stripHeight]
  omega

theorem strip_count_eq {p : ParserView} {strips : Nat} (before : strips * stripHeight p < p.cy)
    (after : p.cy ≤ (strips + 1) * stripHeight p) : stripCount p = strips + 1 := by
  have height := strip_height_pos p
  refine Nat.div_eq_of_lt_le ?_ ?_
  · rw [Nat.add_mul, Nat.one_mul] at after ⊢
    omega
  · rw [Nat.add_mul, Nat.add_mul, Nat.one_mul] at *
    omega

theorem strip_count_gt {p : ParserView} {strips : Nat} (before : strips * stripHeight p < p.cy) :
    strips < stripCount p := by
  refine (Nat.le_div_iff_mul_le (strip_height_pos p)).mpr ?_
  rw [Nat.succ_mul]
  have height := strip_height_pos p
  omega

theorem callback_count {p q : ParserView} (called : Callback p q) :
    q.dataCallbacks = p.dataCallbacks := by
  cases called <;> first | rfl | exact (finish_rect_static _).2.2

/-- One strip: its rows are those of a full strip, or all that are left. -/
theorem painting_step {a p q : ParserView} {strips : Nat} (state : a.state = .waitRawData)
    (rowBytes : 0 < a.rowBytes) (here : p = afterStrips a strips)
    (before : strips * stripHeight a < a.cy) (called : Callback (counted p) q) : Progress a q := by
  subst here
  have raw : (counted (afterStrips a strips)).state = .waitRawData := state
  have rows_eq : ∀ rows, rows * (counted (afterStrips a strips)).rowBytes =
      (counted (afterStrips a strips)).headerSize →
      rows = min (stripHeight a) (a.cy - strips * stripHeight a) :=
    fun rows size => Nat.eq_of_mul_eq_mul_right rowBytes size
  have next : (strips + 1) * stripHeight a = strips * stripHeight a + stripHeight a :=
    Nat.succ_mul _ _
  cases called with
  | message other | beginMessage other | emptyUpdate other | updateHeader _ other
  | rect _ _ _ _ other | emptyRaw _ _ _ _ other | rawRect _ _ _ _ other =>
      exact absurd (raw.symm.trans other) (by decide)
  | strip rows _ size more =>
      have full : strips * stripHeight a + rows = (strips + 1) * stripHeight a := by
        have left : strips * stripHeight a + rows < a.cy := more
        have counts := rows_eq rows size
        omega
      have scheduled : View.scheduleRaw (paintRows (counted (afterStrips a strips)) rows) =
          { a with
            state := .waitRawData
            rowsDone := strips * stripHeight a + rows
            headerSize := rowsPerRead a.quantum a.rowBytes
              (a.cy - (strips * stripHeight a + rows)) * a.rowBytes
            dataCallbacks := a.dataCallbacks + strips + 1 } := rfl
      refine .painting (strips + 1) ?_ (full ▸ more)
      rw [scheduled, full, ← state]
      rfl
  | lastStrip rows _ size last =>
      have counts := rows_eq rows size
      have after : a.cy ≤ strips * stripHeight a + rows := last
      have count : stripCount a = strips + 1 := strip_count_eq before (by omega)
      obtain ⟨left, rects⟩ := finish_rect_finishes (paintRows (counted (afterStrips a strips)) rows)
      refine .finished ?_ left rects
      rw [(finish_rect_static _).2.2, count]
      rfl

theorem progress_step {a p q : ParserView} (state : a.state = .waitRawData)
    (rowBytes : 0 < a.rowBytes) (progress : Progress a p) (stepped : Stepped p q) :
    Progress a q := by
  cases stepped with
  | inl same => exact same ▸ progress
  | inr called =>
      have count : q.dataCallbacks = p.dataCallbacks + 1 := callback_count called
      cases progress with
      | painting strips here before => exact painting_step state rowBytes here before called
      | finished total => exact .later (by omega)
      | later more => exact .later (by omega)

/-- A RAW rectangle is admitted with its first strip scheduled and no row painted. -/
theorem admitted_start {p a : ParserView} (header : p.state = .waitRectHeader)
    (raw : a.state = .waitRawData) (stepped : Stepped p a) : a = afterStrips a 0 ∧ 0 < a.cy := by
  cases stepped with
  | inl same =>
      rw [same, header] at raw
      contradiction
  | inr called =>
      have here : (counted p).state = .waitRectHeader := header
      cases called with
      | message other | beginMessage other | emptyUpdate other | updateHeader _ other
      | strip _ other | lastStrip _ other => exact absurd (here.symm.trans other) (by decide)
      | rect => exact absurd raw (finish_rect_finishes _).1
      | emptyRaw => exact absurd raw (finish_rect_finishes _).1
      | rawRect x y cx cy _ _ height =>
          refine ⟨?_, height⟩
          unfold afterStrips
          rw [Nat.zero_mul]
          rfl

/-- In every state of a session with the incremental parser on: the parser
waits as `Waits` says, no event finds it in a state its own checks refuse, and
once the first strip of a RAW rectangle is scheduled the rectangle takes exactly
`stripCount` callbacks, whatever else happens in between. -/
theorem incremental_parser_session {v : Vnc} (reachable : session.Reachable v) :
    Waits (parserView v) ∧
      (∀ event answers error after, runEvent answers event v = (.error error, after) →
        error ≠ .invalidRawStrip ∧ error ≠ .invalidParserState) ∧
      ∀ label admitted, session.step v label admitted →
        v.framebufferParseState = .waitRectHeader →
        admitted.framebufferParseState = .waitRawData →
        ∀ labels after, session.Run admitted labels after →
          (after.dataCallbacks < admitted.dataCallbacks + stripCount (parserView admitted) →
            after.framebufferParseState = .waitRawData ∧
              after.framebufferRectsRemaining = admitted.framebufferRectsRemaining) ∧
          (after.dataCallbacks = admitted.dataCallbacks + stripCount (parserView admitted) →
            after.framebufferParseState ≠ .waitRawData ∧
              after.framebufferRectsRemaining = admitted.framebufferRectsRemaining - 1) := by
  have holds := session_invariant reachable
  refine ⟨holds.waits, ?_, ?_⟩
  · intro event answers error after stopped
    have expected := ensures_stops (at_event answers event _ holds) rfl stopped
    exact ⟨expected.1, expected.2.1⟩
  · intro label admitted stepped header raw labels after ran
    have first := session_step holds stepped
    have admittedHolds := stepped_preserves holds first
    obtain ⟨-, -, -, rowBytes, -⟩ := waits_at admittedHolds.waits raw
    obtain ⟨start, height⟩ := admitted_start header raw first
    have progress : ParserInvariant (parserView after) ∧
        Progress (parserView admitted) (parserView after) := by
      refine System.run_preserves
        (fun w => ParserInvariant (parserView w) ∧ Progress (parserView admitted) (parserView w))
        ?_ ran ⟨admittedHolds, .painting 0 start (by omega)⟩
      intro before next final ⟨invariant, progress⟩ taken
      have moved := session_step invariant taken
      exact ⟨stepped_preserves invariant moved, progress_step raw rowBytes progress moved⟩
    cases progress.2 with
    | painting strips here before =>
        have count : after.dataCallbacks = admitted.dataCallbacks + strips :=
          congrArg ParserView.dataCallbacks here
        have short := strip_count_gt before
        refine ⟨fun _ => ⟨?_, congrArg ParserView.rectsRemaining here⟩, fun total => by omega⟩
        exact (congrArg ParserView.state here).trans raw
    | finished total left rects =>
        have count : after.dataCallbacks =
          admitted.dataCallbacks + stripCount (parserView admitted) := total
        exact ⟨fun short => by omega, fun _ => ⟨left, rects⟩⟩
    | later more =>
        have count : admitted.dataCallbacks + stripCount (parserView admitted) <
          after.dataCallbacks := more
        exact ⟨fun short => by omega, fun total => by omega⟩

/-- A host that agrees to everything. -/
def willing : ServerAnswers where
  clientMonitorResize _ _ _ := true
  serverMonitorResizeDone := true
  chansrvInUse := false
  clipChannelData _ _ _ _ := true
  transSendWaiting := true
  transSend _ := true

/-- A module connected at 32 bits per pixel with the given bytes to come. -/
def connected (sock : List (List Byte)) : Vnc where
  serverBpp := 32
  palette := []
  suppressOutput := 0
  shiftState := false
  modMouseState := 0
  multimonConfigured := false
  clipChanid := -1
  clientLayout := initSingleScreenLayout 4 4
  serverLayout := initSingleScreenLayout 4 4
  resizeSupported := .supported
  resizeStatus := .done
  incrementalFramebuffer := true
  framebufferReadQuantum := 1024
  framebufferParseState := .waitMessageType
  framebufferRectsRemaining := 0
  framebufferX := 0
  framebufferY := 0
  framebufferCx := 0
  framebufferCy := 0
  framebufferRawRowBytes := 0
  framebufferRawRowsDone := 0
  trans :=
    { up := true
      headerSize := 1
      inSize := 8 * 8192
      inData := []
      sock := sock }
  calls := []
  dataCallbacks := 0

/-- A FramebufferUpdate of one RAW pixel, before the pixel has come. -/
def onePixelSock : List (List Byte) :=
  [[0], [0, 0, 1], [0, 0, 0, 0, 0, 1, 0, 1, 0, 0, 0, 0]]

/-- The module after the three callbacks of `onePixelSock`. -/
def onePixelAwaited : Vnc :=
  { connected [] with
    framebufferParseState := .waitRawData
    framebufferRectsRemaining := 1
    framebufferCx := 1
    framebufferCy := 1
    framebufferRawRowBytes := 4
    trans :=
      { up := true
        headerSize := 4
        inSize := 8 * 8192
        inData := []
        sock := [] }
    calls := [.beginUpdate]
    dataCallbacks := 3 }

theorem one_pixel_run :
    runSession (List.replicate 3 (.poll, willing)) (connected onePixelSock) =
      some onePixelAwaited := rfl

theorem incremental_parser_session_one_pixel : Waits (parserView onePixelAwaited) :=
  (incremental_parser_session
    ⟨connected onePixelSock, List.replicate 3 (.poll, willing),
      ⟨⟨rfl, rfl, rfl, rfl, by decide, by decide, rfl, rfl⟩, rfl⟩,
      run_of_run_session one_pixel_run⟩).1

end XrdpConsole.VncParserInvariant
