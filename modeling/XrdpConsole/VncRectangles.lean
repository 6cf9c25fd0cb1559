import XrdpConsole.VncParserInvariant
import XrdpConsole.VncPolling

/-!
# One rectangle in either parser

A rectangle that both parsers read in the same way keeps their agreement. A RAW
rectangle is painted at once by the one parser and in strips by the other;
between two strips the states agree once the blocking one is given the paint of
the rows that have come.
-/

namespace XrdpConsole.VncRectangles

open XrdpConsole.Library
open XrdpConsole.Library.Program
open XrdpConsole.VncState
open XrdpConsole.VncFramebuffer
open XrdpConsole.VncIncremental
open XrdpConsole.VncModule
open XrdpConsole.VncDisplay
open XrdpConsole.VncAgreement
open XrdpConsole.VncPolling

set_option autoImplicit false

/-! ## One rectangle -/

section Rectangles

variable (answers : ServerAnswers) (bytes : Nat) (finished : Vnc)

/-- What the incremental parser needs of a state beside its place in the update:
the mode is on and a strip within the quantum fits the buffer. -/
structure Parsing (v : Vnc) : Prop where
  on : v.incrementalFramebuffer = true
  quantum : v.framebufferReadQuantum ≤ 8 * 8192
  inSize : v.trans.inSize = 8 * 8192

structure Waiting (state : VncFramebufferParseState) (headerSize : Nat) (rects : Int)
    (v : Vnc) : Prop where
  parsing : Parsing v
  fresh : v.trans.inData = []
  state : v.framebufferParseState = state
  headerSize : v.trans.headerSize = headerSize
  rects : v.framebufferRectsRemaining = rects

/-- Polls bring the incremental parser from `v` to the end of the update, in
agreement with the blocking parser's `finished`. -/
def Follows (v : Vnc) : Prop :=
  ∃ final, Relation.ReflTransGen (Polled answers) v final ∧ Agree bytes finished final ∧
    final.framebufferParseState = .waitMessageType ∧ final.trans.headerSize = 1

def awaited (v : Vnc) (state : VncFramebufferParseState) (headerSize : Nat) : Vnc :=
  { v with
    framebufferParseState := state
    trans := { v.trans with headerSize := headerSize } }

def endOfUpdate : VncM Unit := do
  call .endUpdate
  requestNextUpdate answers

variable {answers bytes finished}

theorem agree_of_settled {left right other : Vnc} (agree : Agree bytes left right)
    (state : settled other = settled right) (calls : other.calls = right.calls) :
    Agree bytes left other :=
  ⟨agree.state.trans state.symm, calls ▸ agree.effect, agree.depth⟩

theorem parsing_of_view {v w : Vnc} (parsing : Parsing v)
    (same : VncSession.parserView w = VncSession.parserView v) : Parsing w where
  on := (congrArg VncSession.ParserView.incrementalFramebuffer same).trans parsing.on
  quantum := (congrArg VncSession.ParserView.quantum same).trans_le parsing.quantum
  inSize := (congrArg VncSession.ParserView.inSize same).trans parsing.inSize

theorem waits_for_rect {v : Vnc} {rects : Int} (parsing : Parsing v)
    (counted : v.framebufferRectsRemaining = rects) :
    Waiting .waitRectHeader 12 rects (clearInData (awaited v .waitRectHeader 12)) where
  parsing := ⟨parsing.on, parsing.quantum, parsing.inSize⟩
  fresh := rfl
  state := rfl
  headerSize := rfl
  rects := counted

theorem view_of_untouched {Value : Type} {program : VncM Value} {before after : Vnc}
    {value : Value} (untouched : VncSession.Untouched program)
    (ran : Returns program before value after) :
    VncSession.parserView after = VncSession.parserView before := by
  have kept := (untouched before).1
  rw [show program before = (.ok value, after) from ran] at kept
  exact kept

theorem finish_update_follows {left right : Vnc} (agree : Agree bytes left right)
    (ended : Returns (endOfUpdate answers) left () finished) :
    ∃ after, Returns (finishUpdate answers) right () after ∧
      Follows answers bytes finished (clearInData after) := by
  have simulated : Simulates (Agree bytes) (endOfUpdate answers) (endOfUpdate answers) :=
    simulates_bind (simulates_call _) fun _ => simulates_request_next answers
  obtain ⟨requested, ran, reached⟩ := simulated _ _ _ _ agree ended
  obtain ⟨_, closed, ranClose, ranRequest⟩ := (returns_bind _ _ _ _ _).mp ran
  refine ⟨awaited requested .waitMessageType 1, ?_, _, .refl, agree_of_settled reached rfl rfl,
    rfl, rfl⟩
  unfold finishUpdate
  simp only [returns_bind]
  exact ⟨(), closed, ranClose, (), requested, ranRequest, rfl⟩

/-- The end of a rectangle: the next one, or the end of the update. -/
theorem finish_rect_follows {left right : Vnc} {rects : Nat} (agree : Agree bytes left right)
    (parsing : Parsing right) (remaining : right.framebufferRectsRemaining = rects + 1)
    (last : rects = 0 → Returns (endOfUpdate answers) left () finished)
    (next : 0 < rects → ∀ v, Agree bytes left v → Waiting .waitRectHeader 12 rects v →
      Follows answers bytes finished v) :
    ∃ after, Returns (finishRect answers) right () after ∧
      Follows answers bytes finished (clearInData after) := by
  have counted : right.framebufferRectsRemaining - 1 = rects := by omega
  let counter : Vnc := { right with
    framebufferRectsRemaining := right.framebufferRectsRemaining - 1 }
  have reaches : Agree bytes left counter := agree_of_settled agree rfl rfl
  have runs : ∀ after, Returns (if right.framebufferRectsRemaining - 1 > 0 then
      await .waitRectHeader 12 else finishUpdate answers) counter () after →
      Returns (finishRect answers) right () after := by
    intro after ran
    unfold finishRect
    simp only [returns_bind]
    exact ⟨right, right, rfl, (), counter, rfl, ran⟩
  cases rects with
  | zero =>
      obtain ⟨after, ran, follows⟩ := finish_update_follows reaches (last rfl)
      refine ⟨after, runs after ?_, follows⟩
      rw [if_neg (by omega)]
      exact ran
  | succ rects =>
      refine ⟨awaited counter .waitRectHeader 12, runs _ ?_, next (Nat.succ_pos _) _ ?_ ?_⟩
      · rw [if_pos (by omega)]
        rfl
      · exact agree_of_settled agree rfl rfl
      · exact waits_for_rect ⟨parsing.on, parsing.quantum, parsing.inSize⟩ counted

/-- A rectangle both parsers read in the same way. -/
theorem shared_rect_follows {left right leftAfter : Vnc} {rects : Nat} {program : VncM Unit}
    (simulated : Simulates (Agree bytes) program program)
    (untouched : VncSession.Untouched program) (agree : Agree bytes left right)
    (parsing : Parsing right) (remaining : right.framebufferRectsRemaining = rects + 1)
    (ran : Returns program left () leftAfter)
    (last : rects = 0 → Returns (endOfUpdate answers) leftAfter () finished)
    (next : 0 < rects → ∀ v, Agree bytes leftAfter v → Waiting .waitRectHeader 12 rects v →
      Follows answers bytes finished v) :
    ∃ after, Returns (program >>= fun _ => finishRect answers) right () after ∧
      Follows answers bytes finished (clearInData after) := by
  obtain ⟨middle, ranRight, reached⟩ := simulated _ _ _ _ agree ran
  have view := view_of_untouched untouched ranRight
  have counted : middle.framebufferRectsRemaining = rects + 1 :=
    (congrArg VncSession.ParserView.rectsRemaining view).trans remaining
  obtain ⟨after, ranFinish, follows⟩ :=
    finish_rect_follows reached (parsing_of_view parsing view) counted last next
  exact ⟨after, (returns_bind _ _ _ _ _).mpr ⟨(), middle, ranRight, ranFinish⟩, follows⟩

/-! ## RAW rectangles -/

/-- The blocking parser's state once it has painted `rows` rows of `data`. -/
def painted (v : Vnc) (x y cx rows : Nat) (data : List Byte) : Vnc :=
  { v with calls := v.calls ++ [paintRows x y cx rows data] }

theorem agree_empty_paint {left right : Vnc} (agree : Agree bytes left right) (x y cx rows : Nat)
    (data : List Byte) (empty : cx = 0 ∨ rows = 0) :
    Agree bytes (painted left x y cx rows data) right where
  state := agree.state
  effect :=
    { shown := fun respond display => by
        rw [← agree.effect.shown]
        simp only [painted, replay_append]
        exact paint_nothing data respond _ empty
      made := fun respond display => by
        rw [← agree.effect.made]
        exact shown_at_paint left.calls x y cx rows data display }
  depth := agree.depth

theorem agree_next_strip {left right : Vnc} {x y cx done rows : Nat} {data : List Byte}
    (agree : Agree bytes (painted left x y cx done (data.take (done * (cx * bytes)))) right) :
    Agree bytes (painted left x y cx (done + rows) (data.take ((done + rows) * (cx * bytes))))
      (painted right x (y + done) cx rows
        ((data.drop (done * (cx * bytes))).take (rows * (cx * bytes)))) where
  state := agree.state
  effect :=
    { shown := fun respond display => by
        have shown := agree.effect.shown respond display
        simp only [painted, replay_append] at shown ⊢
        rw [← shown]
        exact (replay_strip bytes x y cx done rows data respond _).symm
      made := fun respond display => by
        have made := agree.effect.made respond display
        simp only [painted, shown_at_paint] at made ⊢
        exact made }
  depth := agree.depth

/-- The incremental parser inside the RAW rectangle `(x, y, cx, cy)`. -/
structure InRaw (bytes x y cx cy done : Nat) (v : Vnc) : Prop where
  left : v.framebufferX = x
  top : v.framebufferY = y
  width : v.framebufferCx = cx
  height : v.framebufferCy = cy
  rowBytes : v.framebufferRawRowBytes = cx * bytes
  rowsDone : v.framebufferRawRowsDone = done

def nextStrip (bytes cx cy done : Nat) (v : Vnc) : Nat :=
  rowsPerRead v.framebufferReadQuantum (cx * bytes) (cy - done)

theorem next_strip_bounds (bytes cx : Nat) {cy done : Nat} (inside : done < cy) (v : Vnc) :
    0 < nextStrip bytes cx cy done v ∧ done + nextStrip bytes cx cy done v ≤ cy ∧
      nextStrip bytes cx cy done v * (cx * bytes) ≤ max v.framebufferReadQuantum (cx * bytes) := by
  obtain ⟨one, most, fits⟩ := VncParserInvariant.rows_per_read_bounds
    (Nat.sub_pos_of_lt inside) v.framebufferReadQuantum (cx * bytes)
  exact ⟨one, Nat.add_le_of_le_sub' inside.le most, fits⟩

theorem schedule_returns {x y cx cy done : Nat} {v : Vnc} (raw : InRaw bytes x y cx cy done v)
    (parsing : Parsing v) (rowBytes : 0 < cx * bytes) (wide : cx * bytes ≤ 8 * 8192)
    (inside : done < cy) :
    Returns scheduleRaw v ()
      (awaited v .waitRawData (nextStrip bytes cx cy done v * (cx * bytes))) := by
  have fits : nextStrip bytes cx cy done v * (cx * bytes) ≤ v.trans.inSize := by
    have bounds := next_strip_bounds bytes cx inside v
    have quantum := parsing.quantum
    rw [parsing.inSize]
    omega
  unfold scheduleRaw
  simp only [returns_bind]
  refine ⟨v, v, rfl, ?_⟩
  simp only [raw.height, raw.rowsDone, raw.rowBytes]
  rw [if_neg (by omega), show rowsPerRead _ _ _ = nextStrip bytes cx cy done v from rfl,
    if_neg (not_lt.mpr fits)]
  rfl

/-- The callback of one strip: its paint, and then the next strip or the end of
the rectangle. -/
theorem raw_data_returns {x y cx cy done rows : Nat} {need : List Byte} {v after : Vnc}
    (raw : InRaw bytes x y cx cy done v) (rowBytes : 0 < cx * bytes)
    (size : need.length = rows * (cx * bytes))
    (rest : Returns (if done + rows < cy then scheduleRaw else finishRect answers)
      { painted v x (y + done) cx rows need with framebufferRawRowsDone := done + rows } () after) :
    Returns (rawData answers need) v () after := by
  have rows_eq : need.length / (cx * bytes) = rows := by rw [size, Nat.mul_div_cancel _ rowBytes]
  have whole : need.length % (cx * bytes) = 0 := by rw [size, Nat.mul_mod_left]
  unfold rawData
  simp only [returns_bind]
  refine ⟨v, v, rfl, ?_⟩
  simp only [raw.left, raw.top, raw.width, raw.height, raw.rowsDone, raw.rowBytes, rows_eq]
  rw [if_neg (by omega)]
  simp only [returns_bind]
  exact ⟨(), painted v x (y + done) cx rows need, rfl, (), _, rfl, rest⟩

theorem incremental_data_returns {v after : Vnc} {state : VncFramebufferParseState}
    {data : List Byte} (here : v.framebufferParseState = state)
    (ran : Returns (match state with
      | .waitUpdateHeader => updateHeaderData answers data
      | .waitRectHeader => rectHeaderData answers data
      | .waitRawData => rawData answers data
      | .waitMessageType => stop .invalidParserState) v () after) :
    Returns (libFramebufferIncrementalData answers data) v () after := by
  subst here
  unfold libFramebufferIncrementalData
  simp only [returns_bind]
  exact ⟨_, v, rfl, ran⟩

/-- Only the bytes to come, not their pieces, matter for agreement. -/
theorem agree_with_rest {left right : Vnc} {rest : List Byte}
    (agree : Agree bytes left (withSock right [rest])) (content : right.trans.sock.flatten = rest) :
    Agree bytes left right := by
  refine agree_of_settled agree ?_ rfl
  simp [settled, withSock, content]

/-- The incremental parser with its strips painted down to row `done` and the
bytes of the rows below still to come. -/
structure Painting (bytes x y cx cy rects done : Nat) (data rest : List Byte) (left right : Vnc) :
    Prop where
  agree : Agree bytes (painted left x y cx done (data.take (done * (cx * bytes))))
    (withSock right [rest])
  content : right.trans.sock.flatten = data.drop (done * (cx * bytes)) ++ rest
  raw : InRaw bytes x y cx cy done right
  parsing : Parsing right
  up : right.trans.up = true
  rects : right.framebufferRectsRemaining = rects + 1

theorem strip_painted {left arrived : Vnc} {x y cx cy rects done rows : Nat}
    {data rest : List Byte}
    (agree : Agree bytes (painted left x y cx done (data.take (done * (cx * bytes))))
      (withSock arrived [rest]))
    (content : arrived.trans.sock.flatten = data.drop ((done + rows) * (cx * bytes)) ++ rest)
    (raw : InRaw bytes x y cx cy done arrived) (parsing : Parsing arrived)
    (up : arrived.trans.up = true) (counted : arrived.framebufferRectsRemaining = rects + 1) :
    Painting bytes x y cx cy rects (done + rows) data rest left
      { painted arrived x (y + done) cx rows
          ((data.drop (done * (cx * bytes))).take (rows * (cx * bytes))) with
        framebufferRawRowsDone := done + rows } where
  agree := agree_of_settled (agree_next_strip agree) rfl rfl
  content := content
  raw := ⟨raw.left, raw.top, raw.width, raw.height, raw.rowBytes, rfl⟩
  parsing := ⟨parsing.on, parsing.quantum, parsing.inSize⟩
  up := up
  rects := counted

/-- The bytes of the next strip arrive and are painted. -/
theorem strip_arrives (sending : answers.transSendWaiting = true) {left right : Vnc}
    {x y cx cy rects done rows : Nat} {data rest : List Byte}
    (painting : Painting bytes x y cx cy rects done data rest left right)
    (whole : data.length = cy * (cx * bytes)) (rowBytes : 0 < cx * bytes) (some : 0 < rows)
    (most : done + rows ≤ cy) (state : right.framebufferParseState = .waitRawData)
    (fresh : right.trans.inData = []) (size : right.trans.headerSize = rows * (cx * bytes))
    (fits : rows * (cx * bytes) ≤ 8 * 8192) :
    ∃ stripped, Painting bytes x y cx cy rects (done + rows) data rest left stripped ∧
      ∀ after, Returns (if done + rows < cy then scheduleRaw else finishRect answers)
          stripped () after → Relation.ReflTransGen (Polled answers) right (clearInData after) := by
  let need := (data.drop (done * (cx * bytes))).take (rows * (cx * bytes))
  have needSize : need.length = rows * (cx * bytes) := by
    have enough : (done + rows) * (cx * bytes) ≤ cy * (cx * bytes) := Nat.mul_le_mul_right _ most
    rw [Nat.add_mul] at enough
    rw [List.length_take, List.length_drop, whole]
    omega
  have content : right.trans.sock.flatten =
      need ++ (data.drop ((done + rows) * (cx * bytes)) ++ rest) := by
    rw [painting.content, Nat.add_mul, ← List.drop_drop, ← List.append_assoc,
      List.take_append_drop]
  have busy : right.framebufferParseState ≠ .waitMessageType := by rw [state]; decide
  have buffer := painting.parsing.inSize
  obtain ⟨sock, left', delivered⟩ := callback_delivered sending busy painting.parsing.on
    painting.up (by omega) (by omega) fresh (by omega)
    (by rw [needSize]; exact Nat.mul_pos some rowBytes) content
  have raw := painting.raw
  let arrived := countCallback (withInput right need sock)
  have inRaw : InRaw bytes x y cx cy done arrived :=
    ⟨raw.left, raw.top, raw.width, raw.height, raw.rowBytes, raw.rowsDone⟩
  have parsing : Parsing arrived :=
    ⟨painting.parsing.on, painting.parsing.quantum, painting.parsing.inSize⟩
  have agree : Agree bytes (painted left x y cx done (data.take (done * (cx * bytes))))
      (withSock arrived [rest]) := agree_of_settled painting.agree rfl rfl
  exact ⟨_, strip_painted agree left' inRaw parsing painting.up painting.rects,
    fun after ran => delivered after (incremental_data_returns state
      (raw_data_returns inRaw rowBytes needSize ran))⟩

theorem painting_awaited {left right : Vnc} {x y cx cy rects done : Nat} {data rest : List Byte}
    (painting : Painting bytes x y cx cy rects done data rest left right) (size : Nat) :
    Painting bytes x y cx cy rects done data rest left
      (clearInData (awaited right .waitRawData size)) where
  agree := agree_of_settled painting.agree rfl rfl
  content := painting.content
  raw :=
    { left := painting.raw.left
      top := painting.raw.top
      width := painting.raw.width
      height := painting.raw.height
      rowBytes := painting.raw.rowBytes
      rowsDone := painting.raw.rowsDone }
  parsing := ⟨painting.parsing.on, painting.parsing.quantum, painting.parsing.inSize⟩
  up := painting.up
  rects := painting.rects

/-- From any strip on, the strips left paint the rest of the rectangle. -/
theorem strips_follow (sending : answers.transSendWaiting = true) {left right : Vnc}
    {x y cx cy rects done : Nat} {data rest : List Byte}
    (painting : Painting bytes x y cx cy rects done data rest left right)
    (whole : data.length = cy * (cx * bytes)) (rowBytes : 0 < cx * bytes)
    (wide : cx * bytes ≤ 8 * 8192) (inside : done < cy)
    (state : right.framebufferParseState = .waitRawData) (fresh : right.trans.inData = [])
    (size : right.trans.headerSize = nextStrip bytes cx cy done right * (cx * bytes))
    (last : rects = 0 → Returns (endOfUpdate answers) (painted left x y cx cy data) () finished)
    (next : 0 < rects → ∀ v, Agree bytes (painted left x y cx cy data) v →
      Waiting .waitRectHeader 12 rects v → Follows answers bytes finished v) :
    Follows answers bytes finished right := by
  induction remaining : cy - done using Nat.strong_induction_on generalizing done right with
  | h remaining ih =>
  have quantum := painting.parsing.quantum
  obtain ⟨some, most, fits⟩ := next_strip_bounds bytes cx inside right
  generalize nextStrip bytes cx cy done right = rows at size some most fits
  obtain ⟨stripped, strip, delivered⟩ := strip_arrives sending painting whole rowBytes some most
    state fresh size (by omega)
  by_cases more : done + rows < cy
  · have scheduled := schedule_returns strip.raw strip.parsing rowBytes wide more
    have polled := delivered _ (by rw [if_pos more]; exact scheduled)
    have waits := painting_awaited strip
      (nextStrip bytes cx cy (done + rows) stripped * (cx * bytes))
    obtain ⟨final, polledOn, reached⟩ := ih _ (by omega) waits more rfl rfl rfl rfl
    exact ⟨final, polled.trans polledOn, reached⟩
  · have all : done + rows = cy := by omega
    rw [if_neg more] at delivered
    rw [all] at strip
    have content := strip.content
    have agree := strip.agree
    rw [← whole, List.drop_length, List.nil_append] at content
    rw [← whole, List.take_length] at agree
    obtain ⟨after, ran, final, polledOn, reached⟩ :=
      finish_rect_follows (agree_with_rest agree content) strip.parsing strip.rects last next
    exact ⟨final, (delivered after ran).trans polledOn, reached⟩

end Rectangles

end XrdpConsole.VncRectangles
