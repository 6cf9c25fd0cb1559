import XrdpConsole.MmState

/-!
# The resize machine

The queue of resize requests and the states a resize goes through
(`xrdp/xrdp_mm.c`). What the module, the core and the encoder answer on the way is
part of the environment.
-/

namespace XrdpConsole.ResizeMachine

open XrdpConsole.Region
open XrdpConsole.Library
open XrdpConsole.MmState
open XrdpConsole.VncState

set_option autoImplicit false

variable {R : Type}

/-! ## Surfaces and encoders -/

def createSurfacePdus (surfaceId left top width height : Int) : List GfxPdu :=
  [.createSurface surfaceId width height pixelFormatXrgb8888, .mapSurface surfaceId left top]

def createSurfacesPdus (self : Mm R) : List GfxPdu :=
  if self.wm.clientInfo.displaySizes.monitorCount < 1 then
    createSurfacePdus self.egfx.surfaceId 0 0 self.wm.screen.width self.wm.screen.height
  else
    self.wm.clientInfo.displaySizes.minfoWm.zipIdx.flatMap fun (mi, index) =>
      createSurfacePdus index mi.left mi.top (mi.right - mi.left + 1) (mi.bottom - mi.top + 1)

def xrdpMmEgfxCreateSurfaces (self : Mm R) : Mm R := sendEach self (createSurfacesPdus self)

def deleteSurfacesPdus (self : Mm R) : List GfxPdu :=
  if self.wm.clientInfo.displaySizes.monitorCount < 1 then
    [.deleteSurface self.egfx.surfaceId]
  else
    (List.range self.wm.clientInfo.displaySizes.monitorCount).map fun index : Nat =>
      .deleteSurface index

def xrdpMmEgfxDeleteSurfaces (self : Mm R) : Mm R := sendEach self (deleteSurfacesPdus self)

/-- An encoder as `xrdp_encoder_create` makes it; none where the client cannot have
one. -/
def xrdpEncoderCreate (framesInFlight : Option Int) : Option Encoder :=
  framesInFlight.map fun framesInFlight =>
    { fifoToProc := [], fifoProcessed := [], worker := [], frameIdClient := 0, frameIdServer := 0,
      frameIdServerSent := 0, framesInFlight := max framesInFlight 1, gfxAckOff := false }

/-- `xrdp_encoder_delete` waits for the thread and frees both queues. -/
def xrdpEncoderDelete (self : Mm R) : Mm R := { self with encoder := none }

/-! ## Requests -/

/-- A request of the client takes the place of one it has made before. -/
def addResizeRequestToQueue (self : Mm R) (src : ResizeQueueSource)
    (description : DisplaySizeDescription) : Mm R :=
  let replaced := src = .fromClient ∧ (self.resizeQueue.getLast?.map (·.src)) = some .fromClient
  { self with
    resizeQueue := (if replaced then self.resizeQueue.dropLast else self.resizeQueue) ++
      [{ src, description }]
    resizeReady := true }

def advanceResizeStateMachine (self : Mm R) (newState : DisplayResizeState) : Mm R :=
  { self with
    resizeData := self.resizeData.map ({ · with state := newState })
    resizeReady := true }

def xrdpRdpSuppressOutput (self : Mm R) (suppress : Bool) (reason : SuppressOutputReason) : Mm R :=
  { self with
    wm.clientInfo.suppressOutputMask :=
      Function.update self.wm.clientInfo.suppressOutputMask reason suppress }

def syncDynamicMonitorData (self : Mm R) (description : DisplaySizeDescription) : Mm R :=
  { self with wm.clientInfo.displaySizes := description }

/-- `xrdp_bitmap_resize`; `moved` says whether `realloc` gave another block. -/
def xrdpBitmapResize (self : Bitmap) (width height : Int) (moved : Bool) : Bitmap :=
  if width = self.width ∧ height = self.height then
    self
  else
    { width, height, lineSize := width * 4
      data := fun offset =>
        if moved ∨ self.width * self.height * 4 ≤ offset then 0 else self.data offset }

/-- What `mod_server_monitor_resize` answers. -/
inductive ModuleResize where
  | failed
  | inProgress
  | done
  deriving DecidableEq, Repr

structure ResizeAnswers where
  canResize : Bool
  moduleResize : ModuleResize
  coreReset : Bool
  cacheReset : Bool
  staticColors : Bool
  staticPointers : Bool
  framesInFlight : Option Int
  bitmapResize : Bool
  bitmapMoved : Bool
  deriving DecidableEq, Repr

def advanceError (self : Mm R) : Mm R := advanceResizeStateMachine self .error

/-! ## One definition for each state -/

def encoderDelete (self : Mm R) : Mm R :=
  let self := xrdpEncoderDelete (xrdpRdpSuppressOutput self true .dynamicResize)
  advanceResizeStateMachine self (if self.egfxUp then .egfxResetGraphics else .serverMonitorResize)

def egfxResetGraphics (self : Mm R) (description : DisplaySizeDescription) : Mm R :=
  let reset := xrdpEgfxSend (xrdpMmEgfxDeleteSurfaces self)
    (.resetGraphics description.sessionWidth description.sessionHeight description.minfo)
  if reset.1 then advanceResizeStateMachine reset.2 .serverMonitorResize else advanceError reset.2

def serverMonitorResize (self : Mm R) : ModuleResize → Mm R
  | .failed => advanceError self
  | .inProgress => advanceResizeStateMachine self .serverMonitorMessageProcessing
  | .done => advanceResizeStateMachine self .serverMonitorMessageProcessed

def serverMonitorMessageProcessed (self : Mm R) (description : DisplaySizeDescription) : Mm R :=
  let self := syncDynamicMonitorData self description
  advanceResizeStateMachine self (if self.egfxUp then .encoderCreate else .xrdpCoreReset)

def xrdpCoreReset (self : Mm R) (answers : ResizeAnswers) : Mm R :=
  if answers.coreReset && answers.cacheReset then
    advanceResizeStateMachine self .xrdpCoreResetProcessing
  else
    advanceError self

def xrdpCoreResetProcessed (self : Mm R) (answers : ResizeAnswers) : Mm R :=
  if answers.staticColors && answers.staticPointers then
    advanceResizeStateMachine self .encoderCreate
  else
    advanceError self

def recreateOutput (self : Mm R) (framesInFlight : Option Int) : Mm R :=
  let self := if self.egfxUp then xrdpMmEgfxCreateSurfaces self else self
  { self with encoder := xrdpEncoderCreate framesInFlight }

def resizeScreen (self : Mm R) (description : DisplaySizeDescription) (moved : Bool) : Mm R :=
  { self with
    wm.screen := xrdpBitmapResize self.wm.screen description.sessionWidth
      description.sessionHeight moved }

/-- Invalidating the screen asks the module for all of it again, which comes back
as paints. -/
def encoderCreate (self : Mm R) (description : DisplaySizeDescription) (answers : ResizeAnswers) :
    Mm R :=
  let self := recreateOutput self answers.framesInFlight
  if answers.bitmapResize then
    let self := resizeScreen self description answers.bitmapMoved
    advanceResizeStateMachine (xrdpRdpSuppressOutput self false .dynamicResize) .complete
  else
    advanceError self

/-- Without a module, or in a state that waits for somebody else, nothing is done. -/
def processDisplayControlMonitorLayoutData (self : Mm R)
    (resize : DisplayControlMonitorLayoutData) (answers : ResizeAnswers) : Mm R :=
  if !self.modHandle then
    self
  else
    match resize.state with
    | .encoderDelete => encoderDelete self
    | .egfxResetGraphics => egfxResetGraphics self resize.description
    | .serverMonitorResize => serverMonitorResize self answers.moduleResize
    | .serverMonitorMessageProcessed => serverMonitorMessageProcessed self resize.description
    | .xrdpCoreReset => xrdpCoreReset self answers
    | .xrdpCoreResetProcessed => xrdpCoreResetProcessed self answers
    | .encoderCreate => encoderCreate self resize.description answers
    | _ => self

/-! ## The queue -/

/-- The head of the queue is dropped where it names no other size. -/
def startResize (self : Mm R) (head : ResizeQueueItem) (rest : List ResizeQueueItem) : Mm R :=
  let queuedSize := head.description
  let currentSize := self.wm.clientInfo.displaySizes
  let invalidDimensions := queuedSize.sessionWidth ≤ 0 ∨ queuedSize.sessionHeight ≤ 0
  let alreadyThisSize := queuedSize.sessionWidth = currentSize.sessionWidth ∧
    queuedSize.sessionHeight = currentSize.sessionHeight
  if ¬invalidDimensions ∧ ¬alreadyThisSize then
    { self with
      resizeData := some { description := queuedSize, state := .encoderDelete }
      resizeReady := true
      resizeQueue := rest }
  else
    { self with resizeReady := true, resizeQueue := rest }

def dynamicMonitorProcessQueue (self : Mm R) (answers : ResizeAnswers) : Mm R :=
  if !answers.canResize then
    self
  else
    match self.resizeData with
    | none =>
        match self.resizeQueue with
        | [] => self
        | head :: rest => startResize self head rest
    | some resize =>
        if resize.state = .complete ∨ resize.state = .error then
          { self with resizeReady := true, resizeData := none }
        else
          processDisplayControlMonitorLayoutData self resize answers

/-- The part of `xrdp_mm_check_wait_objs` that looks at the resize queue. -/
def checkResizeReady (self : Mm R) (answers : ResizeAnswers) : Mm R :=
  if self.resizeReady then
    dynamicMonitorProcessQueue { self with resizeReady := false } answers
  else
    self

/-- `server_monitor_resize_done`, called by the module. -/
def serverMonitorResizeDone (self : Mm R) : Mm R :=
  if self.resizeData.map (·.state) = some .serverMonitorMessageProcessing then
    advanceResizeStateMachine self .serverMonitorMessageProcessed
  else
    self

/-- `xrdp_mm_up_and_running`, called when the core has reset. -/
def xrdpMmUpAndRunning (self : Mm R) : Mm R :=
  if self.resizeData.map (·.state) = some .xrdpCoreResetProcessing then
    advanceResizeStateMachine self .xrdpCoreResetProcessed
  else
    self

end XrdpConsole.ResizeMachine
