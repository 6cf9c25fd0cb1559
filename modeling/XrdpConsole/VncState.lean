import Mathlib.Algebra.GroupWithZero.Nat
import Mathlib.Algebra.Ring.Int.Defs
import XrdpConsole.Library.ChunkedStream
import XrdpConsole.Library.Program

/-!
# State of the VNC module

The fields of `struct vnc` and of its transport that the message parsers of
`vnc/vnc.c` read and write, the calls the module makes on its host
(`xrdp/xrdp_mm.c`) and on the VNC socket, and the two ways it reads that
socket: `trans_force_read_s`, and `trans_check_wait_objs` in `VncModule`.

`calls` and `dataCallbacks` are not fields of the source: the first is the
history of the calls made, the second counts the runs of `lib_data_in`.
-/

namespace XrdpConsole.VncState

open XrdpConsole.Library

set_option autoImplicit false

abbrev Byte := UInt8

structure VncScreen where
  id : Int
  x : Int
  y : Int
  width : Int
  height : Int
  flags : Int
  deriving DecidableEq, Repr

/-- `struct vnc_screen_layout`: `count` is the length of `s`, whose entries from
`count` on are never read. -/
structure VncScreenLayout where
  totalWidth : Int
  totalHeight : Int
  s : List VncScreen
  deriving DecidableEq, Repr

/-- The fields of `struct monitor_info` that the module fills in or reads. -/
structure MonitorInfo where
  left : Int
  top : Int
  right : Int
  bottom : Int
  deriving DecidableEq, Repr

inductive VncResizeStatus where
  | waitingForFirstUpdate
  | waitingForResizeConfirm
  | done
  deriving DecidableEq, Repr

inductive VncResizeSupportStatus where
  | notSupported
  | supported
  | unknown
  deriving DecidableEq, Repr

inductive VncFramebufferParseState where
  | waitMessageType
  | waitUpdateHeader
  | waitRectHeader
  | waitRawData
  deriving DecidableEq, Repr

/-- What the module asks of its host and of the VNC server. -/
inductive ServerCall where
  | beginUpdate
  | endUpdate
  | paintRect (x y cx cy : Int) (data : List Byte) (width height srcx srcy : Int)
  | screenBlt (x y cx cy srcx srcy : Int)
  | setCursor (x y : Int) (data mask : List Byte)
  | palette (colors : List Nat)
  | msg (text : String) (code : Int)
  | bellTrigger
  | clientMonitorResize (width height : Int) (monitors : List MonitorInfo)
  | serverMonitorResizeDone
  | rfbClipData (data : List Byte)
  | channelData (chanid size totalSize flags : Int) (data : List Byte)
  | sendCopy (message : List Byte)
  deriving DecidableEq, Repr

/-- The socket is the list of pieces the peer will deliver: an empty piece makes
one read find nothing, and after the last one the connection is closed. -/
structure Trans where
  up : Bool
  headerSize : Nat
  inSize : Nat
  inData : List Byte
  sock : List (List Byte)
  deriving DecidableEq, Repr

structure Vnc where
  serverBpp : Nat
  palette : List Nat
  suppressOutput : Int
  shiftState : Bool
  modMouseState : Nat
  multimonConfigured : Bool
  clipChanid : Int
  clientLayout : VncScreenLayout
  serverLayout : VncScreenLayout
  resizeSupported : VncResizeSupportStatus
  resizeStatus : VncResizeStatus
  incrementalFramebuffer : Bool
  framebufferReadQuantum : Nat
  framebufferParseState : VncFramebufferParseState
  framebufferRectsRemaining : Int
  framebufferX : Nat
  framebufferY : Nat
  framebufferCx : Nat
  framebufferCy : Nat
  framebufferRawRowBytes : Nat
  framebufferRawRowsDone : Nat
  trans : Trans
  calls : List ServerCall
  dataCallbacks : Nat
  deriving DecidableEq, Repr

/-- One constructor for each place where the module gives up on a message. -/
inductive VncError where
  | transDown
  | readBeyondBuffer
  | connectionClosed
  | negativeReadSize
  | sendFailed
  | badMonitorCount
  | programmingErrorBadMonitors
  | clientResizeRefused
  | resizeDoneRefused
  | resizeNotPossible
  | frameBufferTooLarge
  | nothingToSchedule
  | rawStripExceedsTransportBuffer
  | invalidRawStrip
  | invalidParserState
  | unsupportedIncrementalEncoding
  | paletteOverflow
  | unexpectedClipSize
  | badChannelData
  | clipChannelFailed
  deriving DecidableEq, Repr

/-- The answers the module may get from its host and from the socket. The host
functions that always return 0 (`server_begin_update`, `server_end_update`,
`server_paint_rect`, `server_screen_blt`, `server_set_pointer`,
`server_palette`, `server_bell_trigger`) have no answer here. -/
structure ServerAnswers where
  clientMonitorResize : Int → Int → List MonitorInfo → Bool
  serverMonitorResizeDone : Bool
  chansrvInUse : Bool
  clipChannelData : Int → Int → Int → List Byte → Bool
  transSendWaiting : Bool
  transSend : List Byte → Bool

abbrev VncM := Program VncError Vnc

def rfbS2cFramebufferUpdate : Nat := 0
def rfbS2cSetColourMapEntries : Nat := 1
def rfbS2cBell : Nat := 2
def rfbS2cServerCutText : Nat := 3

def rfbC2sFramebufferUpdateRequest : Nat := 3
def rfbC2sKeyEvent : Nat := 4
def rfbC2sPointerEvent : Nat := 5

def rfbEncRaw : Nat := 0
def rfbEncCopyRect : Nat := 1
def rfbEncCursor : Nat := 2 ^ 32 - 239
def rfbEncDesktopSize : Nat := 2 ^ 32 - 223
def rfbEncExtendedDesktopSize : Nat := 2 ^ 32 - 308

def clientMonitorDataMaximumMonitors : Nat := 16
def clientMonitorDataMaximumVirtualDesktopWidth : Nat := 0x7FFE
def clientMonitorDataMaximumVirtualDesktopHeight : Nat := 0x7FFE

def intMax : Int := 2 ^ 31 - 1

/-- The value of a C `int` that a computation leaves with these low 32 bits. -/
def toInt32 (value : Int) : Int := (value + 2 ^ 31) % 2 ^ 32 - 2 ^ 31

/-! ## Reading and writing stream fields -/

def inUint8 (data : List Byte) (offset : Nat) : Nat := (data.getD offset 0).toNat

def inUint16Be (data : List Byte) (offset : Nat) : Nat :=
  inUint8 data offset * 2 ^ 8 + inUint8 data (offset + 1)

def inUint32Be (data : List Byte) (offset : Nat) : Nat :=
  inUint16Be data offset * 2 ^ 16 + inUint16Be data (offset + 2)

def outUint8 (value : Int) : List Byte := [UInt8.ofNat (value % 2 ^ 8).toNat]

def outUint16Be (value : Int) : List Byte := outUint8 (value / 2 ^ 8) ++ outUint8 value

def outUint32Be (value : Int) : List Byte := outUint16Be (value / 2 ^ 16) ++ outUint16Be value

/-! ## Calls and reads -/

def call (made : ServerCall) : VncM Unit :=
  Program.update fun v => { v with calls := v.calls ++ [made] }

def setTransDown : VncM Unit :=
  Program.update fun v => { v with trans := { v.trans with up := false } }

/-- `trans_force_read_s`: the reader waits for the pieces it needs, so only the
end of the connection stops it. -/
def transForceReadS (size : Int) : VncM (List Byte) := do
  let up ← Program.read (·.trans.up)
  let stream ← Program.read (·.trans.sock)
  if up = false then
    Program.stop .transDown
  else if size < 0 then
    Program.stop .negativeReadSize
  else
    match readExact size.toNat stream with
    | some (data, sock) =>
        Program.update fun v => { v with trans := { v.trans with sock := sock } }
        pure data
    | none =>
        setTransDown
        Program.stop .connectionClosed

/-- `trans_write_copy_s` on the transport of the module. -/
def libSendCopy (answers : ServerAnswers) (message : List Byte) : VncM Unit := do
  let up ← Program.read (·.trans.up)
  if up = false then
    Program.stop .transDown
  else if answers.transSendWaiting = false then
    setTransDown
    Program.stop .sendFailed
  else if answers.transSend message = false then
    Program.stop .sendFailed
  else
    call (.sendCopy message)

/-- A FramebufferUpdateRequest for the rectangle `(x, y, cx, cy)`. -/
def framebufferUpdateRequest (incremental x y cx cy : Int) : List Byte :=
  outUint8 rfbC2sFramebufferUpdateRequest ++ outUint8 incremental ++ outUint16Be x ++
    outUint16Be y ++ outUint16Be cx ++ outUint16Be cy

def getBytesPerPixel (bpp : Nat) : Nat :=
  let result := (bpp + 7) / 8
  if result = 3 then 4 else result

end XrdpConsole.VncState
