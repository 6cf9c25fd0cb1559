import Mathlib.Data.List.Sort
import XrdpConsole.VncState

/-!
# Screen layouts of the VNC module

Reading, comparing and sending ExtendedDesktopSize layouts, and the two resize
directions of `vnc/vnc.c`: the client follows the server
(`resize_client_to_server`) or the server is asked to follow the client
(`resize_server_to_client_layout`).
-/

namespace XrdpConsole.VncLayout

open XrdpConsole.Library
open XrdpConsole.VncState

set_option autoImplicit false

def cmpVncScreen (a b : VncScreen) : Int :=
  if a.x ≠ b.x then
    a.x - b.x
  else if a.y ≠ b.y then
    a.y - b.y
  else if a.width ≠ b.width then
    a.width - b.width
  else if a.height ≠ b.height then
    a.height - b.height
  else
    0

def vncScreenLayoutsEqual (a b : VncScreenLayout) : Bool :=
  a.totalWidth == b.totalWidth && a.totalHeight == b.totalHeight && a.s.length == b.s.length &&
    (a.s.zip b.s).all fun pair => cmpVncScreen pair.1 pair.2 == 0

def screenAt (data : List Byte) (offset : Nat) : VncScreen :=
  { id := toInt32 (inUint32Be data offset)
    x := inUint16Be data (offset + 4)
    y := inUint16Be data (offset + 6)
    width := inUint16Be data (offset + 8)
    height := inUint16Be data (offset + 10)
    flags := toInt32 (inUint32Be data (offset + 12)) }

/-- The screens of an ExtendedDesktopSize rectangle, sorted. -/
def readExtendedDesktopSizeRect : VncM (List VncScreen) := do
  let header ← transForceReadS 4
  let count := inUint8 header 0
  if count = 0 ∨ count > clientMonitorDataMaximumMonitors then
    Program.stop .badMonitorCount
  else
    let body ← transForceReadS (16 * count)
    let screens := (List.range count).map fun i => screenAt body (16 * i)
    pure (screens.insertionSort fun a b => cmpVncScreen a b ≤ 0)

def outScreen (screen : VncScreen) : List Byte :=
  outUint32Be screen.id ++ outUint16Be screen.x ++ outUint16Be screen.y ++
    outUint16Be screen.width ++ outUint16Be screen.height ++ outUint32Be screen.flags

def sendSetDesktopSize (answers : ServerAnswers) (layout : VncScreenLayout) : VncM Unit :=
  libSendCopy answers
    (outUint8 251 ++ outUint8 0 ++ outUint16Be layout.totalWidth ++
      outUint16Be layout.totalHeight ++ outUint8 layout.s.length ++ outUint8 0 ++
      layout.s.flatMap outScreen)

def initSingleScreenLayout (width height : Int) : VncScreenLayout :=
  { totalWidth := width
    totalHeight := height
    s := [{ id := 0
            x := 0
            y := 0
            width := width
            height := height
            flags := 0 }] }

def clientMons (layout : VncScreenLayout) : List MonitorInfo :=
  layout.s.map fun screen =>
    { left := screen.x
      top := screen.y
      right := screen.x + screen.width - 1
      bottom := screen.y + screen.height - 1 }

def setClientLayout (layout : VncScreenLayout) : VncM Unit :=
  Program.update fun v => { v with clientLayout := layout }

def setServerLayout (layout : VncScreenLayout) : VncM Unit :=
  Program.update fun v => { v with serverLayout := layout }

/-- The update bracket is closed around the resize and opened again even when
the host refuses it. -/
def resizeClientToServer (answers : ServerAnswers) (updateInProgress : Bool) : VncM Unit := do
  let sl ← Program.read Vnc.serverLayout
  if sl.s.length = 0 ∨ sl.s.length > clientMonitorDataMaximumMonitors then
    Program.stop .programmingErrorBadMonitors
  else
    let accepted := answers.clientMonitorResize sl.totalWidth sl.totalHeight (clientMons sl)
    Program.onlyIf updateInProgress (call .endUpdate)
    call (.clientMonitorResize sl.totalWidth sl.totalHeight (clientMons sl))
    Program.onlyIf accepted (setClientLayout sl)
    Program.onlyIf updateInProgress (call .beginUpdate)
    Program.onlyIf (accepted = false) (Program.stop .clientResizeRefused)

def setResizeStatus (status : VncResizeStatus) (v : Vnc) : Vnc := { v with resizeStatus := status }

/-- With one screen on either side the client takes over the id and the flags of
the server's screen. -/
def adoptScreenId (client server : VncScreenLayout) : VncScreenLayout :=
  match client.s, server.s with
  | [screen], [other] => { client with s := [{ screen with id := other.id, flags := other.flags }] }
  | _, _ => client

def resizeServerToClientLayout (answers : ServerAnswers) : VncM Unit := do
  let server ← Program.read Vnc.serverLayout
  let client ← Program.read Vnc.clientLayout
  let support ← Program.read Vnc.resizeSupported
  if vncScreenLayoutsEqual server client then
    Program.update (setResizeStatus .done)
  else if support ≠ .supported then
    Program.stop .resizeNotPossible
  else
    let wanted := adoptScreenId client server
    setClientLayout wanted
    Program.always (sendSetDesktopSize answers wanted) (setResizeStatus .waitingForResizeConfirm)

/-- While the resize is being negotiated one pixel is asked for, afterwards
everything. -/
def sendUpdateRequestForResizeStatus (answers : ServerAnswers) : VncM Unit := do
  let v ← Program.read id
  if v.resizeStatus ≠ .done then
    libSendCopy answers (framebufferUpdateRequest 0 0 0 1 1)
  else
    Program.onlyIf (v.suppressOutput = 0)
      (libSendCopy answers
        (framebufferUpdateRequest 0 0 0 v.serverLayout.totalWidth v.serverLayout.totalHeight))

def initClientLayout (width height : Int) (monitors : List MonitorInfo) : VncM Unit :=
  Program.update fun v =>
    if v.multimonConfigured = false ∨ monitors.length < 1 then
      { v with clientLayout := initSingleScreenLayout width height }
    else
      { v with clientLayout :=
          { totalWidth := width
            totalHeight := height
            s := monitors.zipIdx.map fun (monitor, i) =>
              { id := i
                x := monitor.left
                y := monitor.top
                width := monitor.right - monitor.left + 1
                height := monitor.bottom - monitor.top + 1
                flags := 0 } } }

end XrdpConsole.VncLayout
