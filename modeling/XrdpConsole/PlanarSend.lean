import XrdpConsole.MmState

/-!
# Sending dirty rectangles as planar tiles

The drawing path of `xrdp/xrdp_mm.c`: when a frame may be drawn, how a rectangle
is cut into tiles and compressed, the synchronous frame, the job that is queued
for the encoder thread instead, and the loop over the monitors.
-/

namespace XrdpConsole.PlanarSend

open XrdpConsole.Library
open XrdpConsole.Region
open XrdpConsole.VncState
open XrdpConsole.PlanarCompress
open XrdpConsole.MmState

set_option autoImplicit false

variable {R : Type}

def gfxPlanarBytes : Nat := 32 * 1024

def intMax : Int := 2147483647

def xrdpMmVncGfxFrameSlotAvailable (self : Mm R) : Bool :=
  if !self.isVnc || !self.wm.clientInfo.gfx then
    true
  else if self.vncGfxAsyncPlanar && self.vncGfxAsyncPending then
    -- newly dirtied pixels coalesce while the worker is busy
    false
  else if !self.vncGfxBackpressure then
    true
  else
    match self.encoder with
    | none => true
    | some encoder =>
        if encoder.gfxAckOff || encoder.framesInFlight ≤ 0 || encoder.frameIdClient ≤ 0 then
          true
        else
          encoder.frameIdServer - encoder.frameIdClient < encoder.framesInFlight

/-! ## Tiles -/

/-- The loop that makes a tile larger while it has less than 4096 pixels. -/
def growTile : Nat → Nat → Nat → Nat × Nat
  | 0, cx, cy => (cx, cy)
  | fuel + 1, cx, cy =>
      if cx * cy < 4096 then
        if cx < cy then
          growTile fuel (cx + 1) (4096 / (cx + 1))
        else
          growTile fuel (4096 / (cy + 1)) (cy + 1)
      else
        (cx, cy)

/-- The tile for a rectangle. The encoder thread computes it the same way. -/
def tileSize (bwidth bheight : Nat) : Nat × Nat :=
  if bwidth < 64 then
    growTile 64 bwidth (4096 / bwidth)
  else if bheight < 64 then
    growTile 64 (4096 / bheight) bheight
  else
    growTile 64 64 64

def readBytes (data : Int → Byte) (offset : Int) : Nat → List Byte
  | 0 => []
  | bytes + 1 => data offset :: readBytes data (offset + 1) bytes

/-- The rows a copy loop reads: `stride` bytes from one to the next. -/
def sourceRows (data : Int → Byte) (src8 stride : Int) (bytes : Nat) : Nat → List (List Byte)
  | 0 => []
  | rows + 1 => readBytes data src8 bytes :: sourceRows data (src8 + stride) stride bytes rows

/-- `dst8` starts at the last row and moves up. -/
def bottomUp (rows : List (List Byte)) : List Byte :=
  rows.foldl (fun pixels row => row ++ pixels) []

def compressTile (rows : List (List Byte)) (bwidth bheight : Nat) : Nat × List Byte :=
  xrdpBitmap32Compress (bottomUp rows) bwidth gfxPlanarBytes (bheight - 1) gfxPlanarBytes 0 0x10

/-- What `xrdp_mm_egfx_send_planar_rect_data` sends, in order. A tile that is not
compressed whole is left out. -/
def planarRectTiles (bitmap : Bitmap) (rect : Rect) (surfaceId x y : Int) : List GfxPdu :=
  let bwidth := rect.right - rect.left
  let bheight := rect.bottom - rect.top
  if bwidth < 1 ∨ bheight < 1 then
    []
  else
    let tile := tileSize bwidth.toNat bheight.toNat
    (forRange rect.top rect.bottom tile.2).flatMap fun yindex =>
      let bheight := min (rect.bottom - yindex) tile.2
      (forRange rect.left rect.right tile.1).flatMap fun xindex =>
        let bwidth := min (rect.right - xindex) tile.1
        let rows := sourceRows bitmap.data (bitmap.lineSize * yindex + xindex * 4) bitmap.lineSize
          (bwidth.toNat * 4) bheight.toNat
        let compressed := compressTile rows bwidth.toNat bheight.toNat
        if compressed.1 ≠ bheight.toNat then
          []
        else
          [.wireToSurface1 surfaceId codecidPlanar pixelFormatXrgb8888
            { left := xindex - x, top := yindex - y,
              right := xindex - x + bwidth, bottom := yindex - y + bheight } compressed.2]

def xrdpMmEgfxSendPlanarRectData (self : Mm R) (bitmap : Bitmap) (rect : Rect)
    (surfaceId x y : Int) : Bool × Mm R :=
  sendAll self (planarRectTiles bitmap rect surfaceId x y)

/-! ## Jobs for the encoder thread -/

/-- The size of the snapshot, or none where it grows past what an `int` holds. -/
def snapshotBytes : List Rect → Int → Option Int
  | [], totalBytes => some totalBytes
  | rect :: rest, totalBytes =>
      let width := rect.right - rect.left
      let height := rect.bottom - rect.top
      if width < 1 ∨ height < 1 then
        snapshotBytes rest totalBytes
      else if totalBytes + width * height * 4 > intMax then
        none
      else
        snapshotBytes rest (totalBytes + width * height * 4)

/-- The rectangles of the job and its pixels, packed from `dataOffset` on. -/
def snapshotRects (bitmap : Bitmap) : List Rect → Int → List EncVncPlanarRect × List Byte
  | [], _ => ([], [])
  | rect :: rest, dataOffset =>
      let width := rect.right - rect.left
      let height := rect.bottom - rect.top
      let entry : EncVncPlanarRect :=
        { left := rect.left, top := rect.top, width, height, dataOffset }
      if width < 1 ∨ height < 1 then
        let later := snapshotRects bitmap rest dataOffset
        (entry :: later.1, later.2)
      else
        let rows := sourceRows bitmap.data (bitmap.lineSize * rect.top + rect.left * 4)
          bitmap.lineSize (width.toNat * 4) height.toNat
        let later := snapshotRects bitmap rest (dataOffset + width * height * 4)
        (entry :: later.1, rows.flatten ++ later.2)

def planarJob (self : Mm R) (encoder : Encoder) (bitmap : Bitmap) (rects : List Rect)
    (surfaceId x y : Int) : EncVncPlanar :=
  let snapshot := snapshotRects bitmap rects 0
  { address := self.nextAddress
    rects := snapshot.1
    pixels := snapshot.2
    pixelsBytes := snapshot.2.length
    surfaceId := surfaceId
    originX := x
    originY := y
    frameId := if self.vncGfxBackpressure then encoder.frameIdServer + 1 else 1
    profile := self.vncGfxProfile }

def queueJob (self : Mm R) (encoder : Encoder) (job : EncVncPlanar) : Mm R :=
  { self with
    vncGfxAsyncPending := true
    nextAddress := self.nextAddress + 1
    encoder := some { encoder with fifoToProc := encoder.fifoToProc ++ [job] } }

def xrdpMmEgfxSchedulePlanarRects (self : Mm R) (bitmap : Bitmap) (rects : List Rect)
    (surfaceId x y : Int) : Bool × Mm R :=
  match self.encoder with
  | none => (self.vncGfxAsyncPending, self)
  | some encoder =>
      if rects.length < 1 ∨ self.vncGfxAsyncPending then
        (self.vncGfxAsyncPending, self)
      else
        match snapshotBytes rects 0 with
        | none => (false, self)
        | some totalBytes =>
            if totalBytes < 1 then
              (true, self)
            else
              let enc := gNew self
              if !enc.1 then
                (false, enc.2)
              else
                let jobRects := gNew enc.2
                let jobPixels := gNew jobRects.2
                if !jobRects.1 || !jobPixels.1 then
                  (false, jobPixels.2)
                else
                  (true, queueJob jobPixels.2 encoder
                    (planarJob self encoder bitmap rects surfaceId x y))

/-! ## Frames -/

def planarFrameId (self : Mm R) : Int :=
  match self.encoder with
  | none => 1
  | some encoder =>
      if self.isVnc && self.vncGfxBackpressure then encoder.frameIdServer + 1 else 1

/-- A frame id is committed only after its end was sent. -/
def commitFrameId (self : Mm R) (frameId : Int) : Mm R :=
  if self.isVnc && self.vncGfxBackpressure then
    { self with encoder := self.encoder.map ({ · with frameIdServer := frameId }) }
  else
    self

def sendPlanarRectList (self : Mm R) (bitmap : Bitmap) (surfaceId x y : Int) :
    List Rect → Bool × Mm R
  | [] => (true, self)
  | rect :: rest =>
      let drawn := xrdpMmEgfxSendPlanarRectData self bitmap rect surfaceId x y
      if drawn.1 then sendPlanarRectList drawn.2 bitmap surfaceId x y rest else drawn

/-- The synchronous path of `xrdp_mm_egfx_send_planar_rects`. -/
def sendPlanarFrame (self : Mm R) (bitmap : Bitmap) (rects : List Rect)
    (surfaceId x y : Int) : Bool × Mm R :=
  let frameId := planarFrameId self
  let started := xrdpEgfxSend self (.startFrame frameId 0)
  if !started.1 then
    started
  else
    let drawn := sendPlanarRectList started.2 bitmap surfaceId x y rects
    if !drawn.1 then
      drawn
    else
      let ended := xrdpEgfxSend drawn.2 (.endFrame frameId)
      if !ended.1 then ended else (true, commitFrameId ended.2 frameId)

def xrdpMmEgfxSendPlanarRects (self : Mm R) (bitmap : Bitmap) (rects : List Rect)
    (surfaceId x y : Int) : Bool × Mm R :=
  if rects.length < 1 then
    (true, self)
  else if self.vncGfxAsyncPlanar && self.isVnc && self.encoder.isSome then
    xrdpMmEgfxSchedulePlanarRects self bitmap rects surfaceId x y
  else
    sendPlanarFrame self bitmap rects surfaceId x y

/-! ## Regions -/

section Regions

variable [Pixman R]

/-- The loop that fills `rects`, of at most `left` more rectangles. -/
def collectRects (region : R) : Nat → Nat → List Rect
  | 0, _ => []
  | left + 1, index =>
      match xrdpRegionGetRect region index with
      | none => []
      | some rect => rect :: collectRects region left (index + 1)

/-- The rectangles `xrdp_mm_egfx_send_planar_region` passes on: those of the
region, or its bounds when there are more than the limit. -/
def planarRegionRects (region : R) (maxDirtyRects : Nat) : List Rect :=
  if maxDirtyRects < 1 then
    [xrdpRegionGetBounds region]
  else
    let rects := collectRects region maxDirtyRects 0
    if rects.length = 0 then
      []
    else if (xrdpRegionGetRect region rects.length).isSome then
      [xrdpRegionGetBounds region]
    else
      rects

def xrdpMmEgfxSendPlanarRegion (self : Mm R) (bitmap : Bitmap) (region : R)
    (surfaceId x y : Int) : Bool × Mm R :=
  xrdpMmEgfxSendPlanarRects self bitmap (planarRegionRects region self.vncGfxMaxDirtyRects)
    surfaceId x y

def monitorRect (mi : MonitorInfo) : Rect where
  left := mi.left
  top := mi.top
  right := mi.right + 1
  bottom := mi.bottom + 1

/-- The part of the dirty region on one monitor: a copy, intersected. -/
def monitorRegion (region : R) (mi : MonitorInfo) : R :=
  xrdpRegionIntersectRect (addRects xrdpRegionCreate (Pixman.rectangles region)) (monitorRect mi)

/-- The loop over the monitors, from `index` on; `rv` is the last result. -/
def drawMonitors (region : R) (rv : Bool) (self : Mm R) : Nat → List MonitorInfo → Bool × Mm R
  | _, [] => (rv, self)
  | index, mi :: rest =>
      let monReg := monitorRegion region mi
      if xrdpRegionNotEmpty monReg then
        let drawn := xrdpMmEgfxSendPlanarRegion self self.wm.screen monReg index mi.left mi.top
        drawMonitors region drawn.1 drawn.2 (index + 1) rest
      else
        drawMonitors region rv self (index + 1) rest

def xrdpMmDrawDirty (self : Mm R) (region : R) : Bool × Mm R :=
  if self.wm.clientInfo.displaySizes.monitorCount < 1 then
    xrdpMmEgfxSendPlanarRegion self self.wm.screen region self.egfx.surfaceId 0 0
  else
    drawMonitors region true self 0 self.wm.clientInfo.displaySizes.minfoWm

/-- The condition under which `xrdp_mm_check_wait_objs` draws at time `now`. -/
def DrawDue (self : Mm R) (region : R) (now : Int) : Prop :=
  xrdpRegionNotEmpty region = true ∧ xrdpMmVncGfxFrameSlotAvailable self = true ∧
    (now - self.wm.lastScreenDrawTime < 0 ∨ now - self.wm.lastScreenDrawTime ≥ 40) ∧
    self.egfxUp = true

instance (self : Mm R) (region : R) (now : Int) : Decidable (DrawDue self region now) :=
  inferInstanceAs (Decidable (_ ∧ _ ∧ _ ∧ _))

/-- The part of `xrdp_mm_check_wait_objs` that draws. -/
def checkScreenDirty (self : Mm R) (now : Int) : Bool × Mm R :=
  match self.wm.screenDirtyRegion with
  | none => (true, self)
  | some region =>
      if DrawDue self region now then
        let drawn := xrdpMmDrawDirty self region
        (drawn.1, { drawn.2 with
          wm.screenDirtyRegion := none
          wm.lastScreenDrawTime := now })
      else
        (true, self)

end Regions

end XrdpConsole.PlanarSend
