import XrdpConsole.PlanarCompress
import XrdpConsole.Region

/-!
# State of the connection manager

The fields of `struct xrdp_mm`, of its window manager, graphics channel and
encoder that the planar drawing path of a VNC session and the resize machine
read and write (`xrdp/xrdp_types.h`, `xrdp/xrdp_encoder.h`).

`sent`, `freed` and `nextAddress` are not fields of the source: the first is the
history of the graphics channel, the other two stand for the heap. `sendResults`
and `allocResults` hold the outcomes of the sends and allocations to come; after
the last one listed they succeed.
-/

namespace XrdpConsole.MmState

open XrdpConsole.Library
open XrdpConsole.Region
open XrdpConsole.VncState

set_option autoImplicit false

/-- `data` is indexed by the offset in bytes; a 32 bit bitmap has
`lineSize * height` of them. -/
structure Bitmap where
  width : Int
  height : Int
  lineSize : Int
  data : Int → Byte

inductive GfxPdu where
  | capsConfirm (version flags : Int)
  | resetGraphics (width height : Int) (monitors : List MonitorInfo)
  | createSurface (surfaceId width height pixelFormat : Int)
  | mapSurface (surfaceId left top : Int)
  | deleteSurface (surfaceId : Int)
  | startFrame (frameId timestamp : Int)
  | wireToSurface1 (surfaceId codecId pixelFormat : Int) (rect : Rect) (data : List Byte)
  | endFrame (frameId : Int)
  deriving DecidableEq, Repr

def codecidPlanar : Int := 0x000A

def pixelFormatXrgb8888 : Int := 0x20

structure Egfx where
  surfaceId : Int
  sent : List GfxPdu
  sendResults : List Bool
  deriving DecidableEq, Repr

/-! ## The encoder -/

structure EncVncPlanarRect where
  left : Int
  top : Int
  width : Int
  height : Int
  dataOffset : Int
  deriving DecidableEq, Repr

/-- `struct xrdp_enc_vnc_planar` in its `XRDP_ENC_DATA`, which `address` names. -/
structure EncVncPlanar where
  address : Nat
  rects : List EncVncPlanarRect
  pixels : List Byte
  pixelsBytes : Int
  surfaceId : Int
  originX : Int
  originY : Int
  frameId : Int
  profile : Bool
  deriving DecidableEq, Repr

/-- `XRDP_ENC_DATA_DONE`; `comp_bytes` is the length of `compPadData`. -/
structure EncDone where
  compPadData : List Byte
  enc : EncVncPlanar
  last : Bool
  continuation : Bool
  x : Int
  y : Int
  cx : Int
  cy : Int
  frameId : Int
  deriving DecidableEq, Repr

inductive JobBlock where
  | enc
  | rects
  | pixels
  deriving DecidableEq, Repr

/-- What other threads can see of the encoder thread. -/
inductive WorkerAction where
  | read (address : Nat) (block : JobBlock)
  | complete (done : EncDone)
  deriving DecidableEq, Repr

/-- `worker` is what the encoder thread has left to do for the job it took. -/
structure Encoder where
  fifoToProc : List EncVncPlanar
  fifoProcessed : List EncDone
  worker : List WorkerAction
  frameIdClient : Int
  frameIdServer : Int
  frameIdServerSent : Int
  framesInFlight : Int
  gfxAckOff : Bool
  deriving DecidableEq, Repr

/-! ## Desktop sizes and resizes -/

/-- `monitorCount` is the length of `minfoWm`; of `minfo` only as many entries are
kept. -/
structure DisplaySizeDescription where
  minfo : List MonitorInfo
  minfoWm : List MonitorInfo
  sessionWidth : Int
  sessionHeight : Int
  deriving DecidableEq, Repr

def DisplaySizeDescription.monitorCount (self : DisplaySizeDescription) : Nat :=
  self.minfoWm.length

inductive ResizeQueueSource where
  | ignoreMarker
  | fromServer
  | fromClient
  deriving DecidableEq, Repr

structure ResizeQueueItem where
  src : ResizeQueueSource
  description : DisplaySizeDescription
  deriving DecidableEq, Repr

inductive DisplayResizeState where
  | encoderDelete
  | egfxResetGraphics
  | serverMonitorResize
  | serverMonitorMessageProcessing
  | serverMonitorMessageProcessed
  | xrdpCoreReset
  | xrdpCoreResetProcessing
  | xrdpCoreResetProcessed
  | encoderCreate
  | serverInvalidate
  | complete
  | error
  deriving DecidableEq, Repr

structure DisplayControlMonitorLayoutData where
  description : DisplaySizeDescription
  state : DisplayResizeState
  deriving DecidableEq, Repr

inductive SuppressOutputReason where
  | clientRequest
  | deactivateReactivate
  | dynamicResize
  deriving DecidableEq, Repr

/-! ## The connection manager -/

structure ClientInfo where
  gfx : Bool
  displaySizes : DisplaySizeDescription
  suppressOutputMask : SuppressOutputReason → Bool

structure Wm (R : Type) where
  clientInfo : ClientInfo
  screen : Bitmap
  screenDirtyRegion : Option R
  lastScreenDrawTime : Int

/-- `painter` is the dirty region of the painter between `server_begin_update`
and `server_end_update`. The limit on dirty rectangles is clamped to 0..32 where
it is read from the environment. -/
structure Mm (R : Type) where
  wm : Wm R
  isVnc : Bool
  modHandle : Bool
  modUsesWmScreenForGfx : Bool
  painter : Option R
  encoder : Option Encoder
  egfx : Egfx
  egfxUp : Bool
  vncGfxProfile : Bool
  vncGfxBackpressure : Bool
  vncGfxMaxDirtyRects : Fin 33
  vncGfxAsyncPlanar : Bool
  vncGfxAsyncPending : Bool
  resizeData : Option DisplayControlMonitorLayoutData
  resizeQueue : List ResizeQueueItem
  resizeReady : Bool
  nextAddress : Nat
  freed : List Nat
  allocResults : List Bool

variable {R : Type}

/-- Sends one message; the result is true where the source function returns 0. -/
def xrdpEgfxSend (self : Mm R) (pdu : GfxPdu) : Bool × Mm R :=
  let sent := self.egfx.sendResults.headD true
  let egfx := { self.egfx with sendResults := self.egfx.sendResults.tail }
  (sent, { self with egfx := if sent then { egfx with sent := egfx.sent ++ [pdu] } else egfx })

def sendAll (self : Mm R) : List GfxPdu → Bool × Mm R
  | [] => (true, self)
  | pdu :: rest =>
      let sending := xrdpEgfxSend self pdu
      if sending.1 then sendAll sending.2 rest else (false, sending.2)

/-- Sends whose results are not looked at. -/
def sendEach (self : Mm R) (pdus : List GfxPdu) : Mm R :=
  pdus.foldl (fun self pdu => (xrdpEgfxSend self pdu).2) self

def gNew (self : Mm R) : Bool × Mm R :=
  (self.allocResults.headD true, { self with allocResults := self.allocResults.tail })

/-! ## A small session -/

def pixelMonitors (count : Nat) : List MonitorInfo :=
  (List.range count).map fun index : Nat => { left := index, top := 0, right := index, bottom := 0 }

def pixelSizes (count : Nat) : DisplaySizeDescription where
  minfo := pixelMonitors count
  minfoWm := pixelMonitors count
  sessionWidth := count
  sessionHeight := 1

def idleEncoder : Encoder where
  fifoToProc := []
  fifoProcessed := []
  worker := []
  frameIdClient := 0
  frameIdServer := 0
  frameIdServerSent := 0
  framesInFlight := 2
  gfxAckOff := false

/-- A VNC session with graphics on a screen one pixel high, with one monitor for each
pixel and nothing drawn yet. -/
def pixelSession (count : Nat) (asyncPlanar : Bool) : Mm BoxList where
  wm :=
    { clientInfo :=
        { gfx := true, displaySizes := pixelSizes count, suppressOutputMask := fun _ => false }
      screen := { width := count, height := 1, lineSize := count * 4, data := fun _ => 0 }
      screenDirtyRegion := none
      lastScreenDrawTime := 0 }
  isVnc := true
  modHandle := true
  modUsesWmScreenForGfx := true
  painter := none
  encoder := some idleEncoder
  egfx := { surfaceId := 0, sent := [], sendResults := [] }
  egfxUp := true
  vncGfxProfile := false
  vncGfxBackpressure := false
  vncGfxMaxDirtyRects := 0
  vncGfxAsyncPlanar := asyncPlanar
  vncGfxAsyncPending := false
  resizeData := none
  resizeQueue := []
  resizeReady := false
  nextAddress := 0
  freed := []
  allocResults := []

def pixelRow (count : Nat) : Rect where
  left := 0
  top := 0
  right := count
  bottom := 1

end XrdpConsole.MmState
