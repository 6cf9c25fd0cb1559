import XrdpConsole.VncFramebuffer

/-!
# The incremental FramebufferUpdate parser

The opt-in parser of `vnc/vnc.c` that handles one piece of a steady-state update
for each callback. Between callbacks the object remembers where it is in
`framebufferParseState` and how much it waits for in the transport's
`headerSize`; a RAW rectangle is painted in strips of whole scanlines.
-/

namespace XrdpConsole.VncIncremental

open XrdpConsole.Library
open XrdpConsole.VncState
open XrdpConsole.VncLayout
open XrdpConsole.VncFramebuffer

set_option autoImplicit false

/-- Waits for `headerSize` more bytes in the parser state `state`. -/
def await (state : VncFramebufferParseState) (headerSize : Nat) : VncM Unit :=
  Program.update fun v =>
    { v with
      framebufferParseState := state
      trans := { v.trans with headerSize := headerSize } }

/-- The rows of the next strip: what the quantum holds, at least one, and no
more than are left. -/
def rowsPerRead (quantum rowBytes rowsRemaining : Nat) : Nat :=
  min (max 1 (quantum / rowBytes)) rowsRemaining

def scheduleRaw : VncM Unit := do
  let v ← Program.read id
  let rowsRemaining := v.framebufferCy - v.framebufferRawRowsDone
  if rowsRemaining = 0 ∨ v.framebufferRawRowBytes = 0 then
    Program.stop .nothingToSchedule
  else
    let readBytes := rowsPerRead v.framebufferReadQuantum v.framebufferRawRowBytes rowsRemaining *
      v.framebufferRawRowBytes
    if readBytes > v.trans.inSize then
      Program.stop .rawStripExceedsTransportBuffer
    else
      await .waitRawData readBytes

def finishUpdate (answers : ServerAnswers) : VncM Unit := do
  call .endUpdate
  requestNextUpdate answers
  await .waitMessageType 1

def setRectsRemaining (remaining : Int) : VncM Unit :=
  Program.update fun v => { v with framebufferRectsRemaining := remaining }

def finishRect (answers : ServerAnswers) : VncM Unit := do
  let v ← Program.read id
  setRectsRemaining (v.framebufferRectsRemaining - 1)
  if v.framebufferRectsRemaining - 1 > 0 then
    await .waitRectHeader 12
  else
    finishUpdate answers

def updateHeaderData (answers : ServerAnswers) (data : List Byte) : VncM Unit := do
  setRectsRemaining (inUint16Be data 1)
  call .beginUpdate
  if inUint16Be data 1 = 0 then
    finishUpdate answers
  else
    await .waitRectHeader 12

def setRect (x y cx cy : Nat) : VncM Unit :=
  Program.update fun v =>
    { v with
      framebufferX := x
      framebufferY := y
      framebufferCx := cx
      framebufferCy := cy }

def startRaw (cx : Nat) : VncM Unit :=
  Program.update fun v =>
    { v with
      framebufferRawRowBytes := cx * getBytesPerPixel v.serverBpp
      framebufferRawRowsDone := 0 }

/-- A rectangle of the incremental parser after its header: all but the pixels of
a RAW one are read at once. -/
def incrementalRect (answers : ServerAnswers) (x y cx cy encoding : Nat) : VncM Unit :=
  if framebufferUpdateSizeOk cx cy = false then
    Program.stop .frameBufferTooLarge
  else if encoding = rfbEncRaw then do
    startRaw cx
    -- a zero-area RAW rectangle has no payload
    if cx = 0 ∨ cy = 0 then
      finishRect answers
    else
      scheduleRaw
  else if encoding = rfbEncCopyRect then do
    copyRect x y cx cy
    finishRect answers
  else if encoding = rfbEncCursor then do
    cursorPayload x y cx cy
    finishRect answers
  else if encoding = rfbEncDesktopSize then do
    desktopSizeRect answers cx cy
    finishRect answers
  else if encoding = rfbEncExtendedDesktopSize then do
    extendedDesktopSizeRect answers x cx cy
    finishRect answers
  else do
    call (.msg ("VNC error in incremental framebuffer encoding = " ++ hexDigits encoding) 1)
    Program.stop .unsupportedIncrementalEncoding

def rectHeaderData (answers : ServerAnswers) (data : List Byte) : VncM Unit := do
  setRect (inUint16Be data 0) (inUint16Be data 2) (inUint16Be data 4) (inUint16Be data 6)
  incrementalRect answers (inUint16Be data 0) (inUint16Be data 2) (inUint16Be data 4)
    (inUint16Be data 6) (inUint32Be data 8)

def setRowsDone (rows : Nat) : VncM Unit :=
  Program.update fun v => { v with framebufferRawRowsDone := rows }

def rawData (answers : ServerAnswers) (data : List Byte) : VncM Unit := do
  let v ← Program.read id
  if v.framebufferRawRowBytes = 0 ∨ data.length % v.framebufferRawRowBytes ≠ 0 then
    Program.stop .invalidRawStrip
  else
    let rows := data.length / v.framebufferRawRowBytes
    call (.paintRect v.framebufferX (v.framebufferY + v.framebufferRawRowsDone) v.framebufferCx
      rows data v.framebufferCx rows 0 0)
    setRowsDone (v.framebufferRawRowsDone + rows)
    if v.framebufferRawRowsDone + rows < v.framebufferCy then
      scheduleRaw
    else
      finishRect answers

def libFramebufferIncrementalData (answers : ServerAnswers) (data : List Byte) : VncM Unit := do
  let state ← Program.read Vnc.framebufferParseState
  match state with
  | .waitUpdateHeader => updateHeaderData answers data
  | .waitRectHeader => rectHeaderData answers data
  | .waitRawData => rawData answers data
  | .waitMessageType => Program.stop .invalidParserState

def libFramebufferIncrementalBegin : VncM Unit := await .waitUpdateHeader 3

end XrdpConsole.VncIncremental
