import XrdpConsole.VncIncremental

/-!
# The VNC module as its host drives it

`trans_check_wait_objs` receives what the socket holds and runs `lib_data_in`
when the bytes waited for have arrived; between two such polls the host may
pass on input, toggle the suppression of output or ask for a resize.
-/

namespace XrdpConsole.VncModule

open XrdpConsole.Library
open XrdpConsole.VncState
open XrdpConsole.VncLayout
open XrdpConsole.VncFramebuffer
open XrdpConsole.VncIncremental

set_option autoImplicit false

/-! ## Messages of the server -/

def vncPaletteSize : Nat := 256

def paletteEntry (data : List Byte) (offset : Nat) : Nat :=
  ((inUint16Be data offset >>> 8) <<< 16) ||| ((inUint16Be data (offset + 2) >>> 8) <<< 8) |||
    (inUint16Be data (offset + 4) >>> 8)

def updatedPalette (palette : List Nat) (firstColor numColors : Nat) (data : List Byte) :
    List Nat :=
  palette.take firstColor ++ (List.range numColors).map (fun i => paletteEntry data (6 * i)) ++
    palette.drop (firstColor + numColors)

def libPaletteUpdate : VncM Unit := do
  let header ← transForceReadS 5
  let firstColor := inUint16Be header 1
  let numColors := inUint16Be header 3
  if firstColor + numColors > vncPaletteSize then
    Program.stop .paletteOverflow
  else
    let body ← transForceReadS (numColors * 6 : Nat)
    Program.update fun v =>
      { v with palette := updatedPalette v.palette firstColor numColors body }
    call .beginUpdate
    let v ← Program.read id
    call (.palette v.palette)
    call .endUpdate

/-- Cut text of the server: skipped when the clipboard is not the module's own,
else read and handed to the clipboard code. -/
def vncClipProcessRfbData (answers : ServerAnswers) : VncM Unit := do
  let header ← transForceReadS 7
  let size := toInt32 (inUint32Be header 3)
  let clipChanid ← Program.read Vnc.clipChanid
  if clipChanid < 0 ∨ answers.chansrvInUse then
    skipTransBytes (inUint32Be header 3)
  else if size < 0 then
    Program.stop .unexpectedClipSize
  else
    let data ← transForceReadS size
    call (.rfbClipData data)

/-- The number a C `char` with this bit pattern prints as. -/
def signedChar (value : Nat) : Int := if value < 2 ^ 7 then value else value - 2 ^ 8

def libModProcessMessage (answers : ServerAnswers) (data : List Byte) : VncM Unit := do
  let type := inUint8 data 0
  let status ← Program.read Vnc.resizeStatus
  if type = rfbS2cFramebufferUpdate then
    match status with
    | .waitingForFirstUpdate => libFramebufferFirstUpdate answers
    | .waitingForResizeConfirm => libFramebufferWaitingForResizeConfirm answers
    | .done => libFramebufferUpdate answers
  else if type = rfbS2cSetColourMapEntries then
    libPaletteUpdate
  else if type = rfbS2cBell then
    call .bellTrigger
  else if type = rfbS2cServerCutText then
    vncClipProcessRfbData answers
  else
    call (.msg ("VNC unknown in lib_mod_process_message " ++ toString (signedChar type)) 1)

def clearInData (v : Vnc) : Vnc := { v with trans := { v.trans with inData := [] } }

def countCallback (v : Vnc) : Vnc := { v with dataCallbacks := v.dataCallbacks + 1 }

/-- The parser that takes the bytes received: the incremental one when it is in
the middle of an update or one begins, else the blocking ones. -/
def processData (answers : ServerAnswers) (v : Vnc) (data : List Byte) : VncM Unit :=
  if v.incrementalFramebuffer ∧ v.framebufferParseState ≠ .waitMessageType then
    libFramebufferIncrementalData answers data
  else if v.incrementalFramebuffer ∧ v.resizeStatus = .done ∧ data.length = 1 ∧
      inUint8 data 0 = rfbS2cFramebufferUpdate then
    libFramebufferIncrementalBegin
  else
    libModProcessMessage answers data

def libDataIn (answers : ServerAnswers) : VncM Unit := do
  Program.update countCallback
  let v ← Program.read id
  processData answers v v.trans.inData
  Program.update clearInData

/-! ## The transport -/

def transRecv (toRead : Nat) : VncM Unit := do
  let sock ← Program.read (·.trans.sock)
  if sock = [] then
    setTransDown
    Program.stop .connectionClosed
  else
    Program.update fun v =>
      { v with trans :=
        { v.trans with
          inData := v.trans.inData ++ (takeChunk toRead sock).1
          sock := (takeChunk toRead sock).2 } }

/-- The subtraction is that of the `unsigned int` variables of the source. -/
def transReceive (answers : ServerAnswers) : VncM Unit := do
  let trans ← Program.read Vnc.trans
  let toRead := (trans.headerSize + 2 ^ 32 - trans.inData.length) % 2 ^ 32
  if trans.headerSize > trans.inSize then
    setTransDown
    Program.stop .readBeyondBuffer
  else
    Program.onlyIf (toRead > 0) (transRecv toRead)
    let inData ← Program.read (·.trans.inData)
    Program.onlyIf (inData.length = trans.headerSize)
      (Program.always (libDataIn answers) clearInData)

/-- Whether the socket has something to receive; the end of the stream counts. -/
def transCanRecv (sock : List (List Byte)) : Bool := sock.head? != some []

def dropPiece : VncM Unit :=
  Program.update fun v => { v with trans := { v.trans with sock := v.trans.sock.tail } }

def transReadable (answers : ServerAnswers) (sock : List (List Byte)) : VncM Unit :=
  if transCanRecv sock then transReceive answers else dropPiece

def transCheckWaitObjs (answers : ServerAnswers) : VncM Unit := do
  let trans ← Program.read Vnc.trans
  if trans.up = false then
    Program.stop .transDown
  else
    transReadable answers trans.sock
    Program.onlyIf (answers.transSendWaiting = false) do
      setTransDown
      Program.stop .sendFailed

/-! ## Calls of the host -/

def wmButton8Down : Int := 116
def wmMouseMove : Int := 100
def wmInvalidate : Int := 200
def wmChannelData : Int := 201

/-- The button mask bit of a mouse message: left, right and middle button are
bits 0, 2 and 1. -/
def mouseButton (msg : Int) : Nat :=
  if msg ≤ 102 then 1 else if msg ≤ 104 then 4 else if msg ≤ 106 then 2
  else 8 <<< ((msg - 107) / 2).toNat

/-- Odd message numbers release a button and even ones press it. -/
def mouseState (msg : Int) (state : Nat) : Nat :=
  if msg = wmMouseMove then
    state
  else if msg % 2 = 1 then
    state - (state &&& mouseButton msg)
  else
    state ||| mouseButton msg

def keyEventMessage (down : Bool) (key : Int) : List Byte :=
  outUint8 rfbC2sKeyEvent ++ outUint8 (if down then 1 else 0) ++ [0, 0] ++ outUint32Be key

def keyAltGr : Int := 65027
def keyLeftControl : Int := 65507

/-- A key press or release, with a release of the left control key before AltGr. -/
def keyEvent (answers : ServerAnswers) (down : Bool) (key : Int) : VncM Unit := do
  let v ← Program.read id
  Program.onlyIf (key = keyAltGr ∧ v.shiftState) do
    let _ ← Program.attempt (libSendCopy answers (keyEventMessage false keyLeftControl))
  Program.always (libSendCopy answers (keyEventMessage down key)) fun v =>
    if key = keyLeftControl then { v with shiftState := down } else v

def mouseEvent (answers : ServerAnswers) (msg param1 param2 : Int) : VncM Unit := do
  Program.update fun v => { v with modMouseState := mouseState msg v.modMouseState }
  let v ← Program.read id
  libSendCopy answers
    (outUint8 rfbC2sPointerEvent ++ outUint8 v.modMouseState ++ outUint16Be param1 ++
      outUint16Be param2)

def channelEvent (answers : ServerAnswers) (param1 param2 : Int) (param3 : Option (List Byte))
    (param4 : Int) : VncM Unit := do
  let chanid := param1 % 2 ^ 16
  let flags := param1 / 2 ^ 16 % 2 ^ 16
  let size := toInt32 param2
  let clipChanid ← Program.read Vnc.clipChanid
  match param3 with
  | none => Program.stop .badChannelData
  | some data =>
      if size < 0 ∨ size > 32 * 1024 then
        Program.stop .badChannelData
      else
        Program.onlyIf (chanid = clipChanid) do
          call (.channelData chanid size param4 flags data)
          Program.onlyIf (answers.clipChannelData size param4 flags data = false)
            (Program.stop .clipChannelFailed)

/-- `lib_mod_event`; the third parameter is a pointer or null. -/
def libModEvent (answers : ServerAnswers) (msg param1 param2 : Int) (param3 : Option (List Byte))
    (param4 : Int) : VncM Unit := do
  let v ← Program.read id
  if msg = wmChannelData then
    channelEvent answers param1 param2 param3 param4
  else if 15 ≤ msg ∧ msg ≤ 16 then
    Program.onlyIf (0 < toInt32 param2) (keyEvent answers (msg = 15) (toInt32 param2))
  else if wmMouseMove ≤ msg ∧ msg ≤ wmButton8Down then
    mouseEvent answers msg param1 param2
  else
    Program.onlyIf (msg = wmInvalidate ∧ v.suppressOutput = 0)
      (libSendCopy answers
        (framebufferUpdateRequest 0 (param1 / 2 ^ 16 % 2 ^ 16) (param1 % 2 ^ 16)
          (param2 / 2 ^ 16 % 2 ^ 16) (param2 % 2 ^ 16)))

def libModSuppressOutput (answers : ServerAnswers) (suppress : Int) : VncM Unit := do
  Program.update fun v => { v with suppressOutput := suppress }
  let v ← Program.read id
  Program.onlyIf (suppress = 0)
    (libSendCopy answers
      (framebufferUpdateRequest 0 0 0 v.serverLayout.totalWidth v.serverLayout.totalHeight))

/-- Returns whether the resize is in progress when it returns. -/
def libModServerMonitorResize (answers : ServerAnswers) (width height : Int)
    (monitors : List MonitorInfo) : VncM Bool := do
  initClientLayout width height monitors
  resizeServerToClientLayout answers
  let status ← Program.read Vnc.resizeStatus
  if status = .waitingForResizeConfirm then
    sendUpdateRequestForResizeStatus answers
    pure true
  else
    pure false

end XrdpConsole.VncModule
