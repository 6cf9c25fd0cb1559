import XrdpConsole.VncRectangles

/-!
# The incremental parser refines the blocking one

For every update that `lib_framebuffer_update` accepts, made of rectangles of the
five encodings the module asks for, the incremental parser reads the same bytes,
shows the same, makes the same other calls and ends where it began, whatever the
pieces in which the socket delivers the bytes.
-/

namespace XrdpConsole.VncRefinement

open XrdpConsole.Library
open XrdpConsole.Library.Program
open XrdpConsole.VncState
open XrdpConsole.VncLayout
open XrdpConsole.VncFramebuffer
open XrdpConsole.VncIncremental
open XrdpConsole.VncModule
open XrdpConsole.VncDisplay
open XrdpConsole.VncAgreement
open XrdpConsole.VncPolling
open XrdpConsole.VncRectangles

set_option autoImplicit false

/-! ## Supported updates -/

def rectHeader (v : Vnc) : List Byte := v.trans.sock.flatten.take 12

/-- The rectangle to come has one of the encodings the module asks for, and a
RAW one has scanlines that fit the transport buffer. -/
def SupportedRect (v : Vnc) : Prop :=
  let encoding := inUint32Be (rectHeader v) 8
  encoding ∈
      [rfbEncRaw, rfbEncCopyRect, rfbEncCursor, rfbEncDesktopSize, rfbEncExtendedDesktopSize] ∧
    (encoding = rfbEncRaw →
      inUint16Be (rectHeader v) 4 * getBytesPerPixel v.serverBpp ≤ 64 * 1024)

/-- So has each of the next rectangles, as the blocking parser comes to them. -/
def SupportedRects (answers : ServerAnswers) : Nat → Vnc → Prop
  | 0, _ => True
  | remaining + 1, v =>
      SupportedRect v ∧ SupportedRects answers remaining (libFramebufferRect answers v).2

def SupportedUpdate (answers : ServerAnswers) (v : Vnc) : Prop :=
  SupportedRects answers (inUint16Be (v.trans.sock.flatten.take 3) 1)
    (((transForceReadS 3 >>= fun _ => call .beginUpdate) : VncM Unit) v).2

section Update

variable {answers : ServerAnswers} {bytes : Nat} {finished : Vnc}

theorem rect_header_of_read {before after : Vnc} {header : List Byte}
    (ran : Returns (transForceReadS 12) before header after) : rectHeader before = header := by
  obtain ⟨-, -, sock, complete, -⟩ := returns_force_read.mp ran
  obtain ⟨content, size⟩ := read_exact_flatten _ _ _ _ complete
  rw [rectHeader, content]
  exact List.take_left' size

/-- The incremental parser at a rectangle whose header it has read. -/
structure AtRect (x y cx cy rects : Nat) (v : Vnc) : Prop where
  parsing : Parsing v
  up : v.trans.up = true
  left : v.framebufferX = x
  top : v.framebufferY = y
  width : v.framebufferCx = cx
  height : v.framebufferCy = cy
  rects : v.framebufferRectsRemaining = rects + 1

def rawStarted (v : Vnc) (cx : Nat) : Vnc :=
  { v with
    framebufferRawRowBytes := cx * getBytesPerPixel v.serverBpp
    framebufferRawRowsDone := 0 }

/-- A RAW rectangle with pixels: its first strip is scheduled. -/
theorem raw_pixels_follow (sending : answers.transSendWaiting = true) {left right : Vnc}
    {x y cx cy rects : Nat} {data rest : List Byte} (atRect : AtRect x y cx cy rects right)
    (agree : Agree bytes left (withSock right [rest]))
    (content : right.trans.sock.flatten = data ++ rest) (whole : data.length = cy * (cx * bytes))
    (rowBytes : 0 < cx * bytes) (wide : cx * bytes ≤ 8 * 8192) (height : 0 < cy)
    (last : rects = 0 → Returns (endOfUpdate answers) (painted left x y cx cy data) () finished)
    (next : 0 < rects → ∀ v, Agree bytes (painted left x y cx cy data) v →
      Waiting .waitRectHeader 12 rects v → Follows answers bytes finished v) :
    ∃ after, Returns scheduleRaw (rawStarted right cx) () after ∧
      Follows answers bytes finished (clearInData after) := by
  have depth : getBytesPerPixel right.serverBpp = bytes := by
    rw [← agree.depth, agree_part Vnc.serverBpp (fun _ => rfl) agree]
    rfl
  have started : Agree bytes left (withSock (rawStarted right cx) [rest]) :=
    agree_of_settled agree rfl rfl
  have painting : Painting bytes x y cx cy rects 0 data rest left (rawStarted right cx) :=
    { agree := agree_empty_paint started _ _ _ _ _ (.inr rfl)
      content := by
        rw [Nat.zero_mul, List.drop_zero]
        exact content
      raw := ⟨atRect.left, atRect.top, atRect.width, atRect.height, by rw [← depth]; rfl, rfl⟩
      parsing := ⟨atRect.parsing.on, atRect.parsing.quantum, atRect.parsing.inSize⟩
      up := atRect.up
      rects := atRect.rects }
  refine ⟨_, schedule_returns painting.raw painting.parsing rowBytes wide height, ?_⟩
  exact strips_follow sending (painting_awaited painting _) whole rowBytes wide height rfl rfl rfl
    last next

theorem raw_rect_reads {left leftAfter : Vnc} {x y cx cy : Nat}
    (ran : Returns (rawRect x y cx cy) left () leftAfter) :
    ∃ data sock, left.trans.sock.flatten = data ++ sock.flatten ∧
      data.length = cy * (cx * getBytesPerPixel left.serverBpp) ∧
      leftAfter = painted (withSock left sock) x y cx cy data := by
  unfold rawRect at ran
  simp only [returns_bind, returns_read, returns_force_read] at ran
  obtain ⟨_, _, ⟨rfl, rfl⟩, data, _, ⟨-, -, sock, complete, rfl⟩, called⟩ := ran
  obtain ⟨content, size⟩ := read_exact_flatten _ _ _ _ complete
  refine ⟨data, sock, content, ?_, ((returns_update _ _ _ _).mp called).symm⟩
  rw [size, Int.toNat_natCast, Nat.mul_comm cx cy, Nat.mul_assoc]

theorem raw_rect_follows (sending : answers.transSendWaiting = true) {left right leftAfter : Vnc}
    {x y cx cy rects : Nat} (atRect : AtRect x y cx cy rects right)
    (agree : Agree bytes left right) (positive : 0 < bytes) (wide : cx * bytes ≤ 8 * 8192)
    (ran : Returns (rawRect x y cx cy) left () leftAfter)
    (last : rects = 0 → Returns (endOfUpdate answers) leftAfter () finished)
    (next : 0 < rects → ∀ v, Agree bytes leftAfter v → Waiting .waitRectHeader 12 rects v →
      Follows answers bytes finished v) :
    ∃ after, Returns (if cx = 0 ∨ cy = 0 then finishRect answers else scheduleRaw)
        (rawStarted right cx) () after ∧
      Follows answers bytes finished (clearInData after) := by
  obtain ⟨data, sock, content, size, rfl⟩ := raw_rect_reads ran
  rw [agree.depth] at size
  have shared := agree_sock agree
  by_cases empty : cx = 0 ∨ cy = 0
  · rw [if_pos empty]
    have none : data = [] := by
      refine List.length_eq_zero_iff.mp (size.trans ?_)
      obtain rfl | rfl := empty <;> simp
    rw [none, List.nil_append] at content
    have read : Agree bytes (withSock left sock) (withSock right right.trans.sock) :=
      agree_read agree (content.symm.trans shared)
    have started : Agree bytes (withSock left sock) (rawStarted right cx) :=
      agree_of_settled read rfl rfl
    exact finish_rect_follows (agree_empty_paint started _ _ _ _ _ empty)
      ⟨atRect.parsing.on, atRect.parsing.quantum, atRect.parsing.inSize⟩ atRect.rects last next
  · rw [if_neg empty]
    have width : 0 < cx := by omega
    have read : Agree bytes (withSock left sock) (withSock right [sock.flatten]) :=
      agree_read agree (by simp)
    exact raw_pixels_follow sending atRect read (shared.symm.trans content) size
      (Nat.mul_pos width positive) wide (by omega) last next

theorem rect_body_follows (sending : answers.transSendWaiting = true) {left right leftAfter : Vnc}
    {x y cx cy encoding rects : Nat} (atRect : AtRect x y cx cy rects right)
    (agree : Agree bytes left right) (positive : 0 < bytes)
    (known : encoding ∈
      [rfbEncRaw, rfbEncCopyRect, rfbEncCursor, rfbEncDesktopSize, rfbEncExtendedDesktopSize])
    (wide : encoding = rfbEncRaw → cx * bytes ≤ 8 * 8192)
    (ran : Returns (framebufferRect answers x y cx cy encoding) left () leftAfter)
    (last : rects = 0 → Returns (endOfUpdate answers) leftAfter () finished)
    (next : 0 < rects → ∀ v, Agree bytes leftAfter v → Waiting .waitRectHeader 12 rects v →
      Follows answers bytes finished v) :
    ∃ after, Returns (incrementalRect answers x y cx cy encoding) right () after ∧
      Follows answers bytes finished (clearInData after) := by
  unfold framebufferRect at ran
  unfold incrementalRect
  by_cases size : framebufferUpdateSizeOk cx cy = false
  · rw [if_pos size] at ran
    exact absurd ran (returns_stop _ _ _ _)
  rw [if_neg size] at ran ⊢
  by_cases raw : encoding = rfbEncRaw
  · rw [if_pos raw] at ran ⊢
    obtain ⟨after, ranRaw, follows⟩ :=
      raw_rect_follows sending atRect agree positive (wide raw) ran last next
    exact ⟨after, (returns_bind _ _ _ _ _).mpr ⟨(), _, rfl, ranRaw⟩, follows⟩
  rw [if_neg raw] at ran ⊢
  by_cases copy : encoding = rfbEncCopyRect
  · rw [if_pos copy] at ran ⊢
    exact shared_rect_follows (simulates_copy_rect _ _ _ _)
      (VncSession.untouched_copy_rect _ _ _ _) agree atRect.parsing atRect.rects ran last next
  rw [if_neg copy] at ran ⊢
  by_cases cursor : encoding = rfbEncCursor
  · rw [if_pos cursor] at ran ⊢
    exact shared_rect_follows (simulates_cursor _ _ _ _)
      (VncSession.untouched_cursor_payload _ _ _ _) agree atRect.parsing atRect.rects ran last next
  rw [if_neg cursor] at ran ⊢
  by_cases desktop : encoding = rfbEncDesktopSize
  · rw [if_pos desktop] at ran ⊢
    exact shared_rect_follows (simulates_desktop_size answers _ _)
      (VncSession.untouched_desktop_size answers _ _) agree atRect.parsing atRect.rects ran last next
  have extended : encoding = rfbEncExtendedDesktopSize := by
    simpa [raw, copy, cursor, desktop] using known
  rw [if_neg desktop, if_pos extended] at ran ⊢
  exact shared_rect_follows (simulates_extended_size answers _ _ _)
    (VncSession.untouched_extended_size answers _ _ _) agree atRect.parsing atRect.rects ran last
    next

theorem rect_follows (sending : answers.transSendWaiting = true) {left right leftAfter : Vnc}
    {rects : Nat} (agree : Agree bytes left right) (positive : 0 < bytes)
    (waiting : Waiting .waitRectHeader 12 (rects + 1) right) (supported : SupportedRect left)
    (ran : Returns (libFramebufferRect answers) left () leftAfter)
    (last : rects = 0 → Returns (endOfUpdate answers) leftAfter () finished)
    (next : 0 < rects → ∀ v, Agree bytes leftAfter v → Waiting .waitRectHeader 12 rects v →
      Follows answers bytes finished v) :
    Follows answers bytes finished right := by
  obtain ⟨header, read, ranHeader, ranBody⟩ := (returns_bind _ _ _ _ _).mp ran
  obtain ⟨known, wide⟩ := supported
  rw [rect_header_of_read ranHeader] at known wide
  rw [agree.depth] at wide
  obtain ⟨up, -, sock, complete, rfl⟩ := returns_force_read.mp ranHeader
  obtain ⟨content, size⟩ := read_exact_flatten _ _ _ _ complete
  have rightUp : right.trans.up = true :=
    (agree_part (·.trans.up) (fun _ => rfl) agree).symm.trans up
  have buffer := waiting.parsing.inSize
  have waits := waiting.headerSize
  have twelve : header.length = 12 := size
  obtain ⟨sock', left', delivered⟩ := callback_delivered sending
    (by rw [waiting.state]; decide) waiting.parsing.on rightUp (by omega) (by omega)
    waiting.fresh (by omega) (by omega) ((agree_sock agree).symm.trans content)
  have arrived : Agree bytes (withSock left sock) (withSock right sock') :=
    agree_read agree left'.symm
  let atHeader : Vnc := { countCallback (withInput right header sock') with
    framebufferX := inUint16Be header 0
    framebufferY := inUint16Be header 2
    framebufferCx := inUint16Be header 4
    framebufferCy := inUint16Be header 6 }
  have atRect : AtRect (inUint16Be header 0) (inUint16Be header 2) (inUint16Be header 4)
      (inUint16Be header 6) rects atHeader :=
    ⟨⟨waiting.parsing.on, waiting.parsing.quantum, waiting.parsing.inSize⟩, rightUp, rfl, rfl, rfl,
      rfl, waiting.rects⟩
  obtain ⟨after, ranRect, final, polled, reached⟩ := rect_body_follows sending atRect
    (agree_of_settled arrived rfl rfl) positive known wide ranBody last next
  have called : Returns (rectHeaderData answers header)
      (countCallback (withInput right header sock')) () after :=
    (returns_bind _ _ _ _ _).mpr ⟨(), atHeader, rfl, ranRect⟩
  have ranData := incremental_data_returns (v := countCallback (withInput right header sock'))
    waiting.state called
  exact ⟨final, (delivered after ranData).trans polled, reached⟩

/-- Induction on the rectangles left. -/
theorem rects_follow (sending : answers.transSendWaiting = true) (positive : 0 < bytes)
    {left right leftEnd : Vnc} {rects : Nat} (agree : Agree bytes left right)
    (waiting : Waiting .waitRectHeader 12 (rects + 1) right)
    (supported : SupportedRects answers (rects + 1) left)
    (ran : Returns (libFramebufferRects answers (rects + 1)) left () leftEnd)
    (ended : Returns (endOfUpdate answers) leftEnd () finished) :
    Follows answers bytes finished right := by
  induction rects generalizing left right with
  | zero =>
      obtain ⟨_, middle, ranRect, ranRest⟩ := (returns_bind _ _ _ _ _).mp ran
      obtain ⟨-, rfl⟩ := (returns_pure _ _ _ _).mp ranRest
      exact rect_follows sending agree positive waiting supported.1 ranRect (fun _ => ended)
        fun some => absurd some (by decide)
  | succ rects ih =>
      obtain ⟨_, middle, ranRect, ranRest⟩ := (returns_bind _ _ _ _ _).mp ran
      have supportedRest := supported.2
      rw [show libFramebufferRect answers left = (.ok (), middle) from ranRect] at supportedRest
      exact rect_follows sending agree positive waiting supported.1 ranRect
        (fun none => absurd none (by omega))
        fun _ v reached waits => ih reached waits supportedRest ranRest

/-- The header of the update, its rectangles and its end. -/
theorem update_follows (sending : answers.transSendWaiting = true) (positive : 0 < bytes)
    {left right : Vnc} (agree : Agree bytes left right) (parsing : Parsing right)
    (fresh : right.trans.inData = []) (state : right.framebufferParseState = .waitUpdateHeader)
    (three : right.trans.headerSize = 3) (supported : SupportedUpdate answers left)
    (accepted : Returns (libFramebufferUpdate answers) left () finished) :
    Follows answers bytes finished right := by
  unfold libFramebufferUpdate at accepted
  obtain ⟨header, read, ranHeader, accepted⟩ := (returns_bind _ _ _ _ _).mp accepted
  obtain ⟨_, opened, ranBegin, accepted⟩ := (returns_bind _ _ _ _ _).mp accepted
  obtain ⟨_, leftEnd, ranRects, ended⟩ := (returns_bind _ _ _ _ _).mp accepted
  have began : Returns (transForceReadS 3 >>= fun _ => call .beginUpdate) left () opened :=
    (returns_bind _ _ _ _ _).mpr ⟨header, read, ranHeader, ranBegin⟩
  unfold SupportedUpdate at supported
  rw [show ((transForceReadS 3 >>= fun _ => call .beginUpdate : VncM Unit) left) =
    (.ok (), opened) from began] at supported
  obtain ⟨up, -, sock, complete, rfl⟩ := returns_force_read.mp ranHeader
  obtain ⟨content, size⟩ := read_exact_flatten _ _ _ _ complete
  have whole : left.trans.sock.flatten.take 3 = header := by
    rw [content]
    exact List.take_left' size
  rw [whole] at supported
  obtain rfl := (returns_update _ _ _ _).mp ranBegin
  have rightUp : right.trans.up = true :=
    (agree_part (·.trans.up) (fun _ => rfl) agree).symm.trans up
  have buffer := parsing.inSize
  have headerSize : header.length = 3 := size
  obtain ⟨sock', left', delivered⟩ := callback_delivered sending
    (by rw [state]; decide) parsing.on rightUp (by omega) (by omega) fresh (by omega) (by omega)
    ((agree_sock agree).symm.trans content)
  obtain ⟨called, ranCall, agreeOpened⟩ := simulates_call .beginUpdate _ _ _ _
    (agree_read agree left'.symm) ranBegin
  obtain rfl := (returns_update _ _ _ _).mp ranCall
  let atHeader := countCallback (withInput right header sock')
  let counted : Vnc := { atHeader with
    framebufferRectsRemaining := inUint16Be header 1
    calls := right.calls ++ [.beginUpdate] }
  have runs : ∀ after, Returns (if inUint16Be header 1 = 0 then finishUpdate answers
      else await .waitRectHeader 12) counted () after →
      Returns (updateHeaderData answers header) atHeader () after := by
    intro after ran
    unfold updateHeaderData
    simp only [returns_bind]
    exact ⟨(), { atHeader with framebufferRectsRemaining := inUint16Be header 1 }, rfl,
      (), counted, rfl, ran⟩
  have started : Agree bytes _ counted := agree_of_settled agreeOpened rfl rfl
  suffices continued : ∃ after, Returns (if inUint16Be header 1 = 0 then finishUpdate answers
      else await .waitRectHeader 12) counted () after ∧
      Follows answers bytes finished (clearInData after) by
    obtain ⟨after, ran, final, polled, reached⟩ := continued
    have ranData := incremental_data_returns (v := atHeader) state (runs after ran)
    exact ⟨final, (delivered after ranData).trans polled, reached⟩
  cases rects : inUint16Be header 1 with
  | zero =>
      rw [rects] at ranRects
      obtain ⟨-, rfl⟩ := (returns_pure _ _ _ _).mp ranRects
      rw [if_pos rfl]
      exact finish_update_follows started ended
  | succ rects' =>
      rw [rects] at ranRects supported
      rw [if_neg (Nat.succ_ne_zero _)]
      refine ⟨awaited counted .waitRectHeader 12, rfl, ?_⟩
      refine rects_follow sending positive (agree_of_settled started rfl rfl) ?_ supported ranRects
        ended
      have parsingHeader : Parsing atHeader := ⟨parsing.on, parsing.quantum, parsing.inSize⟩
      have parsingCounted : Parsing counted :=
        ⟨parsingHeader.on, parsingHeader.quantum, parsingHeader.inSize⟩
      apply waits_for_rect parsingCounted
      change ((inUint16Be header 1 : Nat) : Int) = rects' + 1
      rw [rects]
      rfl

end Update

/-- The incremental parser refines the blocking one. Both start after the message
type with the same bytes to come, cut into pieces in any two ways. If the
blocking parser accepts the update and it is made of the encodings asked for,
polls bring the incremental parser to its end: it has consumed the same bytes,
shows the same on every display, whatever the connection manager makes of the
other calls, and has shown the same whenever it made one of these: an update
bracket, a blit, a cursor, a resize, the request that follows. It has the same
layouts and waits for the next message type. -/
theorem incremental_refines_blocking (answers : ServerAnswers) (v finished : Vnc)
    (sock pieces : List (List Byte)) (same : sock.flatten = pieces.flatten)
    (on : v.incrementalFramebuffer = true) (bpp : v.serverBpp ∈ [8, 15, 16, 24, 32])
    (quantum : 1024 ≤ v.framebufferReadQuantum ∧ v.framebufferReadQuantum ≤ 65536)
    (buffer : v.trans.inSize = 8 * 8192) (fresh : v.trans.inData = [])
    (sending : answers.transSendWaiting = true)
    (accepted : Returns (libFramebufferUpdate answers) (withSock v sock) () finished)
    (supported : SupportedUpdate answers (withSock v sock)) :
    ∃ begun final, Returns libFramebufferIncrementalBegin (withSock v pieces) () begun ∧
      Relation.ReflTransGen (Polled answers) begun final ∧
      final.trans.sock.flatten = finished.trans.sock.flatten ∧
      (∀ respond display, replay (getBytesPerPixel v.serverBpp) respond final.calls display =
          replay (getBytesPerPixel v.serverBpp) respond finished.calls display ∧
        shownAt (getBytesPerPixel v.serverBpp) respond final.calls display =
          shownAt (getBytesPerPixel v.serverBpp) respond finished.calls display) ∧
      final.serverLayout = finished.serverLayout ∧ final.clientLayout = finished.clientLayout ∧
      otherCalls final.calls = otherCalls finished.calls ∧
      final.framebufferParseState = .waitMessageType ∧ final.trans.headerSize = 1 := by
  have agree : Agree (getBytesPerPixel v.serverBpp) (withSock v sock)
      (awaited (withSock v pieces) .waitUpdateHeader 3) := by
    refine ⟨?_, ⟨fun _ _ => rfl, fun _ _ => rfl⟩, rfl⟩
    simp [settled, withSock, awaited, same]
  obtain ⟨final, polled, reached, idle, one⟩ := update_follows sending
    (VncParserInvariant.bytes_per_pixel_pos bpp) agree ⟨on, quantum.2, buffer⟩ fresh rfl rfl
    supported accepted
  have effect := reached.effect
  refine ⟨_, final, rfl, polled, (agree_sock reached).symm, fun respond display => ⟨?_, ?_⟩, ?_, ?_,
    ?_, idle, one⟩
  · exact (effect.shown respond display).symm
  · exact (effect.made respond display).symm
  · exact (agree_part Vnc.serverLayout (fun _ => rfl) reached).symm
  · exact (agree_part Vnc.clientLayout (fun _ => rfl) reached).symm
  · exact (same_effect_calls effect).symm

/-- One RAW pixel and a copy of it. -/
def rawAndCopy : List Byte :=
  [0, 0, 2, 0, 0, 0, 0, 0, 1, 0, 1, 0, 0, 0, 0, 1, 2, 3, 4,
    0, 1, 0, 0, 0, 1, 0, 1, 0, 0, 0, 1, 0, 0, 0, 0]

set_option maxRecDepth 4000 in
theorem incremental_refines_blocking_raw_and_copy :
    ∃ begun final, Returns libFramebufferIncrementalBegin
        (withSock (VncParserInvariant.connected []) (rawAndCopy.map fun byte => [byte])) () begun ∧
      Relation.ReflTransGen (Polled VncParserInvariant.willing) begun final ∧
      final.trans.sock.flatten = [] := by
  have refines := incremental_refines_blocking VncParserInvariant.willing
    (VncParserInvariant.connected [])
    (libFramebufferUpdate VncParserInvariant.willing
      (withSock (VncParserInvariant.connected []) [rawAndCopy])).2
    [rawAndCopy] (rawAndCopy.map fun byte => [byte]) (by decide) rfl (by decide) (by decide) rfl rfl
    rfl rfl ⟨⟨by decide, fun _ => by decide⟩, ⟨by decide, fun _ => by decide⟩, trivial⟩
  obtain ⟨begun, final, began, polled, rest, -⟩ := refines
  exact ⟨begun, final, began, polled, rest⟩

end XrdpConsole.VncRefinement
