import XrdpConsole.VncLayout

/-!
# The blocking FramebufferUpdate parsers

`lib_framebuffer_update` and the two parsers used while a resize is negotiated,
`lib_framebuffer_first_update` and `lib_framebuffer_waiting_for_resize_confirm`,
with the pixel functions that convert a cursor. Each reads one whole message
from the socket before it returns.
-/

namespace XrdpConsole.VncFramebuffer

open XrdpConsole.Library
open XrdpConsole.VncState
open XrdpConsole.VncLayout

set_option autoImplicit false

/-! ## Cursor conversion -/

def getPixelSafe (data : List Byte) (x y width height : Int) (bpp : Nat) : Nat :=
  if x < 0 ∨ y < 0 ∨ x ≥ width ∨ y ≥ height then
    0
  else
    let pixel := (y * width + x).toNat
    match bpp with
    | 1 =>
        let start := (y * ((width + 7) / 8) + x / 8).toNat
        if inUint8 data start &&& (0x80 >>> (x % 8).toNat) ≠ 0 then 1 else 0
    | 4 =>
        let start := (y * ((width + 1) / 2) + x / 2).toNat
        if x % 2 = 0 then
          (inUint8 data start &&& 0xf0) >>> 4
        else
          inUint8 data start &&& 0x0f
    | 8 => inUint8 data pixel
    | 15 | 16 => inUint8 data (2 * pixel) + inUint8 data (2 * pixel + 1) * 2 ^ 8
    | 24 | 32 =>
        inUint8 data (4 * pixel) + inUint8 data (4 * pixel + 1) * 2 ^ 8 +
          inUint8 data (4 * pixel + 2) * 2 ^ 16 + inUint8 data (4 * pixel + 3) * 2 ^ 24
    | _ => 0

/-- Red, green and blue of a pixel. A depth the source does not know leaves its
variables as they are; the module refuses such a depth when it connects. -/
def splitColor (pixel bpp : Nat) (palette : List Nat) : Nat × Nat × Nat :=
  match bpp with
  | 8 =>
      let entry := palette.getD pixel 0
      ((entry >>> 16) &&& 0xff, (entry >>> 8) &&& 0xff, entry &&& 0xff)
  | 15 =>
      (((pixel >>> 7) &&& 0xf8) ||| ((pixel >>> 12) &&& 0x7),
        ((pixel >>> 2) &&& 0xf8) ||| ((pixel >>> 8) &&& 0x7),
        ((pixel <<< 3) &&& 0xf8) ||| ((pixel >>> 2) &&& 0x7))
  | 16 =>
      (((pixel >>> 8) &&& 0xf8) ||| ((pixel >>> 13) &&& 0x7),
        ((pixel >>> 3) &&& 0xfc) ||| ((pixel >>> 9) &&& 0x3),
        ((pixel <<< 3) &&& 0xf8) ||| ((pixel >>> 2) &&& 0x7))
  | 24 | 32 => ((pixel >>> 16) &&& 0xff, (pixel >>> 8) &&& 0xff, pixel &&& 0xff)
  | _ => (0, 0, 0)

/-- The 24-bit cursor image: three bytes for each of the 32 × 32 pixels, taken
bottom row first from the payload and left zero outside the mask. -/
def cursorData (bpp : Nat) (palette : List Nat) (d1 d2 : List Byte) (cx cy : Nat) : List Byte :=
  (List.range 32).flatMap fun row => (List.range 32).flatMap fun column =>
    if getPixelSafe d2 column (31 - row) cx cy 1 = 0 then
      [0, 0, 0]
    else
      let pixel := getPixelSafe d1 column (31 - row) cx cy bpp
      let (r, g, b) := splitColor pixel bpp palette
      [UInt8.ofNat b, UInt8.ofNat g, UInt8.ofNat r]

/-- The cursor mask, one bit for each pixel, set where the payload's mask is not. -/
def cursorMask (d2 : List Byte) (cx cy : Nat) : List Byte :=
  (List.range 32).flatMap fun row => (List.range 4).map fun column =>
    UInt8.ofNat ((List.range 8).map fun (bit : Nat) =>
      if getPixelSafe d2 (8 * column + bit) (31 - row) cx cy 1 = 0 then 0x80 >>> bit else 0).sum

/-- Reads a cursor payload and hands the converted cursor to the host. The
buffer holds the pixels and then the mask. -/
def cursorPayload (x y cx cy : Nat) : VncM Unit := do
  let bpp ← Program.read Vnc.serverBpp
  let palette ← Program.read Vnc.palette
  let cursorBytes := cx * cy * getBytesPerPixel bpp
  let maskBytes := (cx + 7) / 8 * cy
  let payload ← transForceReadS (toInt32 (cursorBytes + maskBytes))
  let d1 := payload.take cursorBytes
  let d2 := payload.drop cursorBytes
  call (.setCursor (min x 31) (min y 31) (cursorData bpp palette d1 d2 cx cy)
    (cursorMask d2 cx cy))

/-! ## The steady-state parser -/

def framebufferUpdateSizeOk (cx cy : Nat) : Bool :=
  cx ≤ clientMonitorDataMaximumVirtualDesktopWidth &&
    cy ≤ clientMonitorDataMaximumVirtualDesktopHeight && (cx * cy : Int) ≤ intMax / 4

def hexDigits (value : Nat) : String :=
  String.ofList ((List.range 8).map fun i => Nat.digitChar (value / 16 ^ (7 - i) % 16))

def rawRect (x y cx cy : Nat) : VncM Unit := do
  let bpp ← Program.read Vnc.serverBpp
  let data ← transForceReadS (cx * cy * getBytesPerPixel bpp : Nat)
  call (.paintRect x y cx cy data cx cy 0 0)

def copyRect (x y cx cy : Nat) : VncM Unit := do
  let source ← transForceReadS 4
  call (.screenBlt x y cx cy (inUint16Be source 0) (inUint16Be source 2))

/-- The server end has resized. -/
def desktopSizeRect (answers : ServerAnswers) (cx cy : Nat) : VncM Unit := do
  setServerLayout (initSingleScreenLayout cx cy)
  resizeClientToServer answers true

/-- A reply to a request of the module has `x = 1` and changes nothing here. -/
def extendedDesktopSizeRect (answers : ServerAnswers) (x cx cy : Nat) : VncM Unit := do
  let screens ← readExtendedDesktopSizeRect
  let layout : VncScreenLayout := { totalWidth := cx, totalHeight := cy, s := screens }
  let current ← Program.read Vnc.serverLayout
  Program.onlyIf (x ≠ 1 ∧ vncScreenLayoutsEqual current layout = false) do
    setServerLayout layout
    resizeClientToServer answers true

/-- A rectangle of `lib_framebuffer_update` after its header. -/
def framebufferRect (answers : ServerAnswers) (x y cx cy encoding : Nat) : VncM Unit :=
  if framebufferUpdateSizeOk cx cy = false then
    Program.stop .frameBufferTooLarge
  else if encoding = rfbEncRaw then
    rawRect x y cx cy
  else if encoding = rfbEncCopyRect then
    copyRect x y cx cy
  else if encoding = rfbEncCursor then
    cursorPayload x y cx cy
  else if encoding = rfbEncDesktopSize then
    desktopSizeRect answers cx cy
  else if encoding = rfbEncExtendedDesktopSize then
    extendedDesktopSizeRect answers x cx cy
  else
    call (.msg ("VNC error in lib_framebuffer_update encoding = " ++ hexDigits encoding) 1)

def libFramebufferRect (answers : ServerAnswers) : VncM Unit := do
  let header ← transForceReadS 12
  framebufferRect answers (inUint16Be header 0) (inUint16Be header 2) (inUint16Be header 4)
    (inUint16Be header 6) (inUint32Be header 8)

def libFramebufferRects (answers : ServerAnswers) : Nat → VncM Unit
  | 0 => pure ()
  | remaining + 1 => do
      libFramebufferRect answers
      libFramebufferRects answers remaining

/-- The request for the changes after an update, unless output is suppressed. -/
def requestNextUpdate (answers : ServerAnswers) : VncM Unit := do
  let suppressOutput ← Program.read Vnc.suppressOutput
  let layout ← Program.read Vnc.serverLayout
  Program.onlyIf (suppressOutput = 0)
    (libSendCopy answers (framebufferUpdateRequest 1 0 0 layout.totalWidth layout.totalHeight))

def libFramebufferUpdate (answers : ServerAnswers) : VncM Unit := do
  let header ← transForceReadS 3
  call .beginUpdate
  libFramebufferRects answers (inUint16Be header 1)
  call .endUpdate
  requestNextUpdate answers

/-! ## The parsers of the resize negotiation -/

/-- `skip_trans_bytes`: whole buffers of 32768 bytes and the rest. The count is
an `unsigned int` but each piece is read as an `int`. -/
def skipTransPieces : Nat → Nat → VncM Unit
  | 0, _ => pure ()
  | pieces + 1, bytes =>
      Program.onlyIf (0 < bytes) do
        let _ ← transForceReadS (min 32768 bytes : Nat)
        skipTransPieces pieces (bytes - min 32768 bytes)

def skipTransBytes (bytes : Nat) : VncM Unit := skipTransPieces (bytes / 32768 + 1) bytes

def skipEncoding (cx cy encoding : Nat) : VncM Unit := do
  let bpp ← Program.read Vnc.serverBpp
  if encoding = rfbEncRaw then
    skipTransBytes (cx * cy * getBytesPerPixel bpp)
  else if encoding = rfbEncCopyRect then
    skipTransBytes 4
  else if encoding = rfbEncCursor then
    skipTransBytes ((cx * cy * getBytesPerPixel bpp + (cx + 7) / 8 * cy) % 2 ^ 32)
  else if encoding = rfbEncDesktopSize then
    pure ()
  else if encoding = rfbEncExtendedDesktopSize then
    let _ ← readExtendedDesktopSizeRect
    pure ()
  else
    call (.msg ("VNC error in skip_encoding encoding = " ++ hexDigits encoding) 1)

/-- What `find_matching_extended_rect` has found: the `x` and `y` of the
rectangle and its layout. -/
structure MatchingRect where
  x : Nat
  y : Nat
  layout : VncScreenLayout

def findMatchingRects (isMatch : Nat → Bool) : Nat → Option MatchingRect →
    VncM (Option MatchingRect)
  | 0, found => pure found
  | remaining + 1, found => do
      let header ← transForceReadS 12
      let x := inUint16Be header 0
      let y := inUint16Be header 2
      let cx := inUint16Be header 4
      let cy := inUint16Be header 6
      let encoding := inUint32Be header 8
      if framebufferUpdateSizeOk cx cy = false then
        Program.stop .frameBufferTooLarge
      else if encoding = rfbEncExtendedDesktopSize ∧ found.isNone ∧ isMatch x then
        let screens ← readExtendedDesktopSizeRect
        let layout : VncScreenLayout := { totalWidth := cx, totalHeight := cy, s := screens }
        findMatchingRects isMatch remaining (some { x := x, y := y, layout := layout })
      else
        skipEncoding cx cy encoding
        findMatchingRects isMatch remaining found

def findMatchingExtendedRect (isMatch : Nat → Bool) : VncM (Option MatchingRect) := do
  let header ← transForceReadS 3
  findMatchingRects isMatch (inUint16Be header 1) none

def rectIsInitialGeometry (x : Nat) : Bool := x ≠ 1 && x ≠ 2

def rectIsReplyToUs (x : Nat) : Bool := x = 1

def setResizeSupported (support : VncResizeSupportStatus) : VncM Unit :=
  Program.update fun v => { v with resizeSupported := support }

/-- The outcome of the resize request is not looked at here. -/
def libFramebufferFirstUpdate (answers : ServerAnswers) : VncM Unit := do
  match ← findMatchingExtendedRect rectIsInitialGeometry with
  | some found =>
      setResizeSupported .supported
      setServerLayout found.layout
      let client ← Program.read Vnc.clientLayout
      setClientLayout (adoptScreenId client found.layout)
      let _ ← Program.attempt (resizeServerToClientLayout answers)
      sendUpdateRequestForResizeStatus answers
  | none =>
      setResizeSupported .notSupported
      Program.always (resizeClientToServer answers false) (setResizeStatus .done)
      sendUpdateRequestForResizeStatus answers

def serverMonitorResizeDone (answers : ServerAnswers) : VncM Unit := do
  call .serverMonitorResizeDone
  Program.onlyIf (answers.serverMonitorResizeDone = false) (Program.stop .resizeDoneRefused)

def resizeConfirmed (answers : ServerAnswers) (found : MatchingRect) : VncM Unit := do
  if found.y = 0 then
    setServerLayout found.layout
    serverMonitorResizeDone answers
  else
    resizeClientToServer answers false
    serverMonitorResizeDone answers

def libFramebufferWaitingForResizeConfirm (answers : ServerAnswers) : VncM Unit := do
  match ← findMatchingExtendedRect rectIsReplyToUs with
  | some found =>
      Program.always (resizeConfirmed answers found) (setResizeStatus .done)
      sendUpdateRequestForResizeStatus answers
  | none => sendUpdateRequestForResizeStatus answers

end XrdpConsole.VncFramebuffer
