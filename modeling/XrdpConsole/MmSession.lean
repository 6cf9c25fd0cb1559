import XrdpConsole.Library.Transition
import XrdpConsole.PlanarWorker
import XrdpConsole.ResizeMachine

/-!
# Sessions of the connection manager

The painter between the brackets of an update (`xrdp/xrdp_painter.c`), the two
messages of the graphics channel that come from the client, and the session: any
sequence of calls of the module, messages of the client, rounds of
`xrdp_mm_check_wait_objs` and steps of the encoder thread. A round of
`xrdp_mm_check_wait_objs` looks at the resize queue, then takes the completions
one by one, then draws; the session has these as separate events.
-/

namespace XrdpConsole.MmSession

open XrdpConsole.Library
open XrdpConsole.Region
open XrdpConsole.VncState
open XrdpConsole.PlanarCompress
open XrdpConsole.MmState
open XrdpConsole.PlanarSend
open XrdpConsole.PlanarWorker
open XrdpConsole.ResizeMachine

set_option autoImplicit false

variable {R : Type} [Pixman R]

/-! ## Painting -/

/-- A call that paints: `visible` is what the windows on the screen leave to see,
`pixels` what the painter writes. -/
structure Paint where
  x : Int
  y : Int
  cx : Int
  cy : Int
  visible : List Rect
  pixels : Int → Int → Pixel

def screenRect (screen : Bitmap) : Rect where
  left := 0
  top := 0
  right := screen.width
  bottom := screen.height

def Paint.area (paint : Paint) : Rect where
  left := paint.x
  top := paint.y
  right := paint.x + paint.cx
  bottom := paint.y + paint.cy

/-- The rectangles `xrdp_painter_copy` and `xrdp_painter_fill_rect` clip to. -/
def Paint.drawRects (paint : Paint) (screen : Bitmap) : List Rect :=
  paint.visible.map fun rect => (rect.inter (screenRect screen)).inter paint.area

def pixelByte (pixel : Pixel) (index : Int) : Byte :=
  if index = 0 then pixel.b
  else if index = 1 then pixel.g
  else if index = 2 then pixel.r
  else pixel.a

def paintRect (pixels : Int → Int → Pixel) (screen : Bitmap) (rect : Rect) : Bitmap :=
  { screen with
    data := fun offset =>
      let x := offset % screen.lineSize / 4
      let y := offset / screen.lineSize
      if rect.Covers x y then pixelByte (pixels x y) (offset % 4) else screen.data offset }

/-- `xrdp_painter_add_dirty_rect` after the clipping. -/
def xrdpPainterAddDirtyRect (dirtyRegion : R) (rect : Rect) : R :=
  if rect.right - rect.left < 1 ∨ rect.bottom - rect.top < 1 then
    dirtyRegion
  else
    xrdpRegionAddRect dirtyRegion rect

def serverBeginUpdate (self : Mm R) : Mm R := { self with painter := some xrdpRegionCreate }

/-- `server_paint_rect`, `server_screen_blt` and `server_fill_rect`. -/
def serverPaint (self : Mm R) (paint : Paint) : Mm R :=
  match self.painter with
  | none => self
  | some dirtyRegion =>
      let rects := paint.drawRects self.wm.screen
      { self with
        wm.screen := rects.foldl (paintRect paint.pixels) self.wm.screen
        painter := some (rects.foldl xrdpPainterAddDirtyRect dirtyRegion) }

def addDirtyRegionToPlanarList (self : Mm R) (dirtyRegion : R) : Mm R :=
  match Pixman.rectangles dirtyRegion with
  | [] => self
  | rect :: rest =>
      let region := self.wm.screenDirtyRegion.getD xrdpRegionCreate
      { self with
        wm.screenDirtyRegion := some (addRects region (rect :: rest))
        modUsesWmScreenForGfx := self.modUsesWmScreenForGfx || self.modHandle }

/-- Without graphics the painter sends bitmaps, which are not part of this model. -/
def serverEndUpdate (self : Mm R) : Mm R :=
  match self.painter with
  | none => self
  | some dirtyRegion =>
      let self := if self.wm.clientInfo.gfx then addDirtyRegionToPlanarList self dirtyRegion else self
      { self with painter := none }

/-! ## The graphics channel -/

def xrdpMmEgfxInvalidateWmScreen (self : Mm R) : Mm R :=
  if self.modUsesWmScreenForGfx || !self.modHandle then
    let region := self.wm.screenDirtyRegion.getD xrdpRegionCreate
    { self with
      wm.screenDirtyRegion := some (xrdpRegionAddRect region (screenRect self.wm.screen)) }
  else
    self

def confirmCaps (self : Mm R) (codec : Int × Int) (framesInFlight : Option Int) : Mm R :=
  let self := sendEach self
    [.capsConfirm codec.1 codec.2,
      .resetGraphics self.wm.screen.width self.wm.screen.height
        self.wm.clientInfo.displaySizes.minfo]
  let self := xrdpMmEgfxCreateSurfaces { self with egfxUp := true }
  { self with encoder := xrdpEncoderCreate framesInFlight }

/-- `xrdp_mm_egfx_caps_advertise`; `best` is the version and flags of the codec
search, none where no codec matches. -/
def xrdpMmEgfxCapsAdvertise (self : Mm R) (best : Option (Int × Int))
    (framesInFlight : Option Int) : Mm R :=
  match best with
  | some codec => xrdpMmEgfxInvalidateWmScreen (confirmCaps self codec framesInFlight)
  | none =>
      let self := xrdpEncoderDelete { self with wm.clientInfo.gfx := false }
      { self with encoder := xrdpEncoderCreate framesInFlight }

def xrdpMmUpdateModuleFrameAck (encoder : Encoder) : Encoder :=
  if encoder.frameIdClient + encoder.framesInFlight > encoder.frameIdServer ∧
      encoder.frameIdServer > encoder.frameIdServerSent then
    { encoder with frameIdServerSent := encoder.frameIdServer }
  else
    encoder

/-- `suspend` is the queue depth that turns acknowledgements off; they are off for
the first such message only. -/
def acknowledgeFrame (encoder : Encoder) (suspend : Bool) (frameId : Int) : Encoder :=
  let frameId := if suspend ∧ ¬encoder.gfxAckOff then -1 else frameId
  let frameIdClient :=
    if frameId < 0 ∨ frameId > encoder.frameIdServer then encoder.frameIdServer
    else max frameId encoder.frameIdClient
  { encoder with gfxAckOff := suspend, frameIdClient }

def xrdpMmEgfxFrameAck (self : Mm R) (suspend : Bool) (frameId : Int) : Mm R :=
  match self.encoder with
  | none => self
  | some encoder =>
      { self with
        encoder := some (xrdpMmUpdateModuleFrameAck (acknowledgeFrame encoder suspend frameId)) }

/-! ## The session -/

inductive Event where
  | beginUpdate
  | paint (paint : Paint)
  | endUpdate
  | clientSuppressOutput (suppress : Bool)
  | coreSuppressOutput (suppress : Bool)
  | capsAdvertise (best : Option (Int × Int)) (framesInFlight : Option Int)
  | frameAck (suspend : Bool) (frameId : Int)
  | resizeRequest (src : ResizeQueueSource) (description : DisplaySizeDescription)
  | resizeReady (answers : ResizeAnswers)
  | monitorResizeDone
  | upAndRunning
  | draw (now : Int)
  | encDone
  | workerTakes (allocs : List Bool)
  | workerStep

def runEvent (self : Mm R) : Event → Mm R
  | .beginUpdate => serverBeginUpdate self
  | .paint paint => serverPaint self paint
  | .endUpdate => serverEndUpdate self
  | .clientSuppressOutput suppress => xrdpRdpSuppressOutput self suppress .clientRequest
  | .coreSuppressOutput suppress => xrdpRdpSuppressOutput self suppress .deactivateReactivate
  | .capsAdvertise best framesInFlight => xrdpMmEgfxCapsAdvertise self best framesInFlight
  | .frameAck suspend frameId => xrdpMmEgfxFrameAck self suspend frameId
  | .resizeRequest src description => addResizeRequestToQueue self src description
  | .resizeReady answers => checkResizeReady self answers
  | .monitorResizeDone => serverMonitorResizeDone self
  | .upAndRunning => xrdpMmUpAndRunning self
  | .draw now => (checkScreenDirty self now).2
  | .encDone => xrdpMmProcessEncDone self
  | .workerTakes allocs =>
      { self with encoder := self.encoder.map (procEncMsg · allocs) }
  | .workerStep => { self with encoder := self.encoder.map PlanarWorker.workerStep }

/-- What `libxrdp_process_monitor_stream` and `libxrdp_init_display_size_description`
guarantee of a description: at least one monitor, all of them inside the session.
The marker of `xrdp_mm_drdynvc_up` has no size and is dropped from the queue. -/
def WellFormed (description : DisplaySizeDescription) : Prop :=
  description.minfoWm ≠ [] ∧ ∀ mi ∈ description.minfoWm, 0 ≤ mi.left ∧ 0 ≤ mi.top ∧
    mi.right < description.sessionWidth ∧ mi.bottom < description.sessionHeight

instance (description : DisplaySizeDescription) : Decidable (WellFormed description) :=
  inferInstanceAs (Decidable (_ ∧ _))

def HasSize (description : DisplaySizeDescription) : Prop :=
  0 < description.sessionWidth ∧ 0 < description.sessionHeight

instance (description : DisplaySizeDescription) : Decidable (HasSize description) :=
  inferInstanceAs (Decidable (_ ∧ _))

/-- What the callers of the connection manager keep to: descriptions are well formed
where they have a size, and update brackets are not nested. -/
def Permitted (self : Mm R) : Event → Prop
  | .resizeRequest _ description => HasSize description → WellFormed description
  | .beginUpdate => self.painter = none
  | _ => True

/-- Before the client has said what graphics it can do. -/
structure Started (start : Mm R) : Prop where
  screen : start.wm.screen.lineSize = start.wm.screen.width * 4
  clean : start.wm.screenDirtyRegion = none
  painter : start.painter = none
  encoder : ∀ encoder, start.encoder = some encoder →
    encoder.fifoToProc = [] ∧ encoder.fifoProcessed = [] ∧ encoder.worker = []
  sent : start.egfx.sent = []
  egfxUp : start.egfxUp = false
  asyncPending : start.vncGfxAsyncPending = false
  resizeData : start.resizeData = none
  resizeQueue : start.resizeQueue = []

def session : System (Mm R) Event where
  initial := Started
  step before event after := Permitted before event ∧ runEvent before event = after

def runEvents (self : Mm R) (events : List Event) : Mm R := events.foldl runEvent self

def AllMeet (guard : Mm R → Event → Prop) (self : Mm R) : List Event → Prop
  | [] => True
  | event :: rest => guard self event ∧ AllMeet guard (runEvent self event) rest

theorem run_of_events {self : Mm R} {events : List Event} (permitted : AllMeet Permitted self events) :
    session.Run self events (runEvents self events) := by
  induction events generalizing self with
  | nil => exact .stay self
  | cons event rest ih => exact System.run_after ⟨permitted.1, rfl⟩ (ih permitted.2)

theorem restricted_run_of_events {guard : Mm R → Event → Prop} {self : Mm R} {events : List Event}
    (permitted : AllMeet Permitted self events) (guarded : AllMeet guard self events) :
    (session.restrict guard).Run self events (runEvents self events) := by
  induction events generalizing self with
  | nil => exact .stay self
  | cons event rest ih =>
      exact System.run_after ⟨guarded.1, permitted.1, rfl⟩ (ih permitted.2 guarded.2)

/-! ## A small session from its start -/

def startedSession (count : Nat) (asyncPlanar : Bool) : Mm BoxList :=
  { pixelSession count asyncPlanar with egfxUp := false }

theorem started_session (count : Nat) (asyncPlanar : Bool) :
    Started (startedSession count asyncPlanar) where
  screen := rfl
  clean := rfl
  painter := rfl
  encoder encoder present := by
    obtain rfl : idleEncoder = encoder := by simpa [startedSession, pixelSession] using present
    exact ⟨rfl, rfl, rfl⟩
  sent := rfl
  egfxUp := rfl
  asyncPending := rfl
  resizeData := rfl
  resizeQueue := rfl

/-- With frames numbered and held back until the client acknowledges some. -/
def throttledSession (count : Nat) (asyncPlanar : Bool) : Mm BoxList :=
  { startedSession count asyncPlanar with vncGfxBackpressure := true }

theorem throttled_session (count : Nat) (asyncPlanar : Bool) :
    Started (throttledSession count asyncPlanar) := by
  obtain ⟨screen, clean, painter, encoder, sent, egfxUp, asyncPending, resizeData, resizeQueue⟩ :=
    started_session count asyncPlanar
  exact ⟨screen, clean, painter, encoder, sent, egfxUp, asyncPending, resizeData, resizeQueue⟩

def paintRow (count : Nat) : List Event :=
  [.beginUpdate,
    .paint { x := 0, y := 0, cx := count, cy := 1, visible := [pixelRow count]
             pixels := fun _ _ => { b := 1, g := 2, r := 3, a := 4 } },
    .endUpdate]

def resizeWorks : ResizeAnswers where
  canResize := true
  moduleResize := .done
  coreReset := true
  cacheReset := true
  staticColors := true
  staticPointers := true
  framesInFlight := some 2
  bitmapResize := true
  bitmapMoved := false

end XrdpConsole.MmSession
