import XrdpConsole.EgfxDelivery
import XrdpConsole.PlanarConvergence
import XrdpConsole.PlanarScratch
import XrdpConsole.ScreenBounds

/-!
# The screen behind the packets

What a manager that draws synchronously sends fits the fields it is written to, so a client that only
has the packets of the static channel ends up with the pixels of the screen.
-/

namespace XrdpConsole.WireScreen

open XrdpConsole.Library
open XrdpConsole.Region
open XrdpConsole.VncState
open XrdpConsole.PlanarCompress
open XrdpConsole.MmState
open XrdpConsole.PlanarSend
open XrdpConsole.PlanarTiles
open XrdpConsole.PlanarScratch
open XrdpConsole.PlanarClient
open XrdpConsole.PlanarConvergence
open XrdpConsole.ResizeMachine
open XrdpConsole.DrawSteps
open XrdpConsole.DrawCalls
open XrdpConsole.DrawCoverage
open XrdpConsole.MmSession
open XrdpConsole.DirtyPixels
open XrdpConsole.ScreenBounds
open XrdpConsole.DynamicChannel
open XrdpConsole.ChannelDelivery
open XrdpConsole.EgfxWire
open XrdpConsole.EgfxRoundTrip
open XrdpConsole.EgfxDelivery

set_option autoImplicit false

/-! ## Messages of the manager -/

/-- What is built for a message; `primary` are the marks of the monitors. -/
def messageOf (primary : Nat → Int) : GfxPdu → EgfxMessage
  | .capsConfirm version flags => .capsConfirm version flags
  | .resetGraphics width height monitors =>
      .resetGraphics width height
        (monitors.mapIdx fun index mi => { toMonitorInfo := mi, isPrimary := primary index })
  | .createSurface surfaceId width height pixelFormat =>
      .createSurface surfaceId width height pixelFormat
  | .mapSurface surfaceId left top => .mapSurface surfaceId left top
  | .deleteSurface surfaceId => .deleteSurface surfaceId
  | .startFrame frameId timestamp => .frameStart frameId timestamp
  | .wireToSurface1 surfaceId codecId pixelFormat rect data =>
      .wireToSurface1 surfaceId codecId pixelFormat rect data
  | .endFrame frameId => .frameEnd frameId

/-- The tile in a message. -/
def tileOf : EgfxMessage → Option GfxPdu
  | .wireToSurface1 surfaceId codecId pixelFormat rect data =>
      some (.wireToSurface1 surfaceId codecId pixelFormat rect data)
  | _ => none

/-- The surfaces of a client that pastes the tiles in the messages it has read. -/
def surfacesOf (messages : List EgfxMessage) : Surfaces := clientSurfaces (messages.filterMap tileOf)

/-- Nothing else than tiles matters, and they are told as they are. -/
theorem surfaces_of_told (primary : Nat → Int) (pdus : List GfxPdu) :
    surfacesOf ((pdus.map (messageOf primary)).map told) = clientSurfaces pdus := by
  have tiles : ((pdus.map (messageOf primary)).map told).filterMap tileOf = pdus.filter isTile := by
    induction pdus with
    | nil => rfl
    | cons pdu rest ih =>
        cases pdu with
        | wireToSurface1 surfaceId codecId pixelFormat rect data =>
            simp only [List.map_cons, messageOf, told, List.filterMap_cons, tileOf, List.filter_cons,
              isTile, if_true, ih]
        | _ =>
            simp only [List.map_cons, messageOf, told, List.filterMap_cons, tileOf, List.filter_cons,
              isTile, Bool.false_eq_true, if_false, ih]
  rw [surfacesOf, tiles, clientSurfaces, paste_all_filter, clientSurfaces]

/-! ## What fits -/

variable {R : Type}

/-- The desktop is one the messages can describe. -/
structure Describable (mm : Mm R) : Prop where
  width : 0 ≤ mm.wm.screen.width ∧ mm.wm.screen.width < 2 ^ 16
  height : 0 ≤ mm.wm.screen.height ∧ mm.wm.screen.height < 2 ^ 16
  surface : 0 ≤ mm.egfx.surfaceId ∧ mm.egfx.surfaceId < 2 ^ 16
  listed : mm.wm.clientInfo.displaySizes.minfo.length ≤ 16 ∧
    mm.wm.clientInfo.displaySizes.minfoWm.length ≤ 16
  words : ∀ mi ∈ mm.wm.clientInfo.displaySizes.minfo,
    SignedFits mi.left ∧ SignedFits mi.top ∧ SignedFits mi.right ∧ SignedFits mi.bottom
  ordered : ∀ mi ∈ mm.wm.clientInfo.displaySizes.minfoWm, mi.left ≤ mi.right ∧ mi.top ≤ mi.bottom

/-- The message fits once frames are numbered up to `frames` only. -/
def Tells (primary : Nat → Int) (frames : Int) : GfxPdu → Prop
  | .startFrame frameId timestamp => (0 ≤ frameId ∧ frameId ≤ frames) ∧ timestamp = 0
  | .endFrame frameId => 0 ≤ frameId ∧ frameId ≤ frames
  | pdu => Fits (messageOf primary pdu)

theorem tells_more {primary : Nat → Int} {frames more : Int} {pdu : GfxPdu}
    (tells : Tells primary frames pdu) (grown : frames ≤ more) : Tells primary more pdu := by
  cases pdu with
  | startFrame frameId timestamp => exact ⟨⟨tells.1.1, le_trans tells.1.2 grown⟩, tells.2⟩
  | endFrame frameId => exact ⟨tells.1, le_trans tells.2 grown⟩
  | _ => exact tells

theorem tells_fits {primary : Nat → Int} {frames : Int} {pdu : GfxPdu}
    (tells : Tells primary frames pdu) (small : frames < 2 ^ 32) : Fits (messageOf primary pdu) := by
  cases pdu with
  | startFrame frameId timestamp =>
      obtain ⟨⟨low, high⟩, rfl⟩ := tells
      simp only [messageOf, Fits, AllFit, List.forall_mem_cons, u32_fits]
      exact ⟨⟨low, by omega⟩, ⟨by omega, by omega⟩, by simp⟩
  | endFrame frameId =>
      have low := tells.1
      have high := tells.2
      simp only [messageOf, Fits, AllFit, List.forall_mem_cons, u32_fits]
      exact ⟨⟨low, by omega⟩, by simp⟩
  | _ => exact tells

/-! ## Tiles -/

/-- A tile is never longer than its raw planes. -/
theorem tile_bytes_length (bitmap : Bitmap) {tile : Rect} (solid : tile.Solid)
    (area : (tile.right - tile.left).toNat * (tile.bottom - tile.top).toNat ≤ 4096) :
    (tileBytes bitmap tile).length ≤ 16386 := by
  simp only [Rect.Solid] at solid
  have rows := @source_tile_rows bitmap.data (bitmap.lineSize * tile.top + tile.left * 4)
    bitmap.lineSize (tile.right - tile.left).toNat (tile.bottom - tile.top).toNat (by omega)
    (by omega) area
  have chosen := tile_attempts_last (sourceRows bitmap.data
    (bitmap.lineSize * tile.top + tile.left * 4) bitmap.lineSize
    ((tile.right - tile.left).toNat * 4) (tile.bottom - tile.top).toNat)
    (tile.right - tile.left).toNat (tile.bottom - tile.top).toNat
  have raw := raw_tile_length rows
  rw [tileBytes, tileRows, chosen, tile_attempts_eq rows]
  split
  · simp only [List.getLastD_cons, List.getLastD_nil, raw]
    omega
  · simp only [List.getLastD_cons, List.getLastD_nil, List.length_cons]
    omega

/-- The call stays within 65535 pixels of the origin of its surface. -/
def CallFits (call : PlanarCall) : Prop :=
  (0 ≤ call.surfaceId ∧ call.surfaceId < 2 ^ 16) ∧ ∀ rect ∈ call.rects, rect.Solid ∧
    rect.Inside { left := call.x, top := call.y, right := call.x + 65535, bottom := call.y + 65535 }

theorem tile_pdu_fits {call : PlanarCall} (fits : CallFits call) (bitmap : Bitmap)
    (primary : Nat → Int) {rect tile : Rect} (member : rect ∈ call.rects) (cut : tile ∈ tileRects rect) :
    Fits (messageOf primary (tilePdu bitmap call.surfaceId call.x call.y tile)) := by
  obtain ⟨surface, each⟩ := fits
  obtain ⟨solid, inside⟩ := each rect member
  obtain ⟨tileSolid, within, area⟩ := tile_rects_bounds solid cut
  have short := tile_bytes_length bitmap tileSolid area
  simp only [Rect.Solid, Rect.Inside] at solid inside tileSolid within
  simp only [tilePdu, messageOf, Fits, AllFit, rectFields, List.forall_mem_cons, u16_fits, u8_fits,
    Rect.relativeTo, codecidPlanar, pixelFormatXrgb8888, DataFits]
  refine ⟨⟨surface, by decide, by decide, by simp⟩, ⟨?_, ?_, ?_, ?_, by simp⟩, by omega⟩
  · omega
  · omega
  · omega
  · omega

theorem frame_pdus_tell {self : Mm R} {call : PlanarCall} (fits : CallFits call) (bitmap : Bitmap)
    (primary : Nat → Int) {frames : Int}
    (number : 0 ≤ planarFrameId self ∧ planarFrameId self ≤ frames) :
    ∀ pdu ∈ planarFramePdus self bitmap call.rects call.surfaceId call.x call.y,
      Tells primary frames pdu := by
  intro pdu member
  rw [planarFramePdus, List.mem_append, List.mem_cons] at member
  rcases member with (rfl | tiles) | last
  · exact ⟨number, rfl⟩
  · obtain ⟨rect, rectMember, inRect⟩ := List.mem_flatMap.mp tiles
    rw [planar_rect_tiles (fits.2 rect rectMember).1] at inRect
    obtain ⟨tile, cut, rfl⟩ := List.mem_map.mp inRect
    exact tile_pdu_fits fits bitmap primary rectMember cut
  · rw [List.mem_singleton.mp last]
    exact number

/-- Frames are numbered up to the number of messages, and each message fits. -/
structure Telling (primary : Nat → Int) (mm : Mm R) : Prop where
  numbered : ∀ encoder, mm.encoder = some encoder →
    0 ≤ encoder.frameIdServer ∧ encoder.frameIdServer ≤ mm.egfx.sent.length
  told : ∀ pdu ∈ mm.egfx.sent, Tells primary mm.egfx.sent.length pdu

def withSent (self : Mm R) (pdus : List GfxPdu) : Mm R :=
  { self with egfx.sent := self.egfx.sent ++ pdus }

theorem with_sent_twice (self : Mm R) (pdus later : List GfxPdu) :
    withSent (withSent self pdus) later = withSent self (pdus ++ later) := by
  simp only [withSent, List.append_assoc]

theorem send_works {self : Mm R} (works : self.egfx.sendResults = []) (pdu : GfxPdu) :
    xrdpEgfxSend self pdu = (true, withSent self [pdu]) := send_succeeds works pdu

theorem rect_list_works {self : Mm R} (works : self.egfx.sendResults = []) (bitmap : Bitmap)
    (surfaceId x y : Int) (rects : List Rect) :
    sendPlanarRectList self bitmap surfaceId x y rects =
      (true, withSent self (rects.flatMap fun rect => planarRectTiles bitmap rect surfaceId x y)) := by
  obtain ⟨drawn, finished⟩ := sends_only_rect_list self bitmap surfaceId x y rects
  exact Prod.ext (finished works) (sends_only_works drawn works)

theorem frame_works {self : Mm R} (works : self.egfx.sendResults = []) (bitmap : Bitmap)
    (rects : List Rect) (surfaceId x y : Int) :
    sendPlanarFrame self bitmap rects surfaceId x y = (true, commitFrameId
      (withSent self (planarFramePdus self bitmap rects surfaceId x y)) (planarFrameId self)) := by
  have started := send_works works (.startFrame (planarFrameId self) 0)
  have drawn := @rect_list_works _ (withSent self [.startFrame (planarFrameId self) 0]) works bitmap
    surfaceId x y rects
  rw [with_sent_twice] at drawn
  have ended := fun pdus => @send_works _ (withSent self pdus) works (.endFrame (planarFrameId self))
  simp only [with_sent_twice] at ended
  simp only [sendPlanarFrame, started, drawn, ended, Bool.not_true, Bool.false_eq_true, if_false]
  rfl

theorem frame_id_telling {primary : Nat → Int} {self : Mm R} (telling : Telling primary self) :
    0 ≤ planarFrameId self ∧ planarFrameId self ≤ self.egfx.sent.length + 1 := by
  unfold planarFrameId
  cases present : self.encoder with
  | none => simp only; omega
  | some encoder =>
      have numbered := telling.numbered encoder present
      simp only
      split <;> omega

theorem call_telling {primary : Nat → Int} {self : Mm R} {call : PlanarCall}
    (telling : Telling primary self) (synchronous : ¬Asynchronous self)
    (works : self.egfx.sendResults = []) (some_rect : call.rects ≠ []) (fits : CallFits call) :
    Telling primary (sendCall self call) := by
  have number := frame_id_telling telling
  have grown : self.egfx.sent.length + 2 ≤ (self.egfx.sent ++ planarFramePdus self self.wm.screen
      call.rects call.surfaceId call.x call.y).length := by
    simp only [planarFramePdus, List.length_append, List.length_cons]
    omega
  have tells := @frame_pdus_tell R self call fits self.wm.screen primary
    (self.egfx.sent ++ planarFramePdus self self.wm.screen call.rects call.surfaceId call.x
      call.y).length ⟨number.1, by omega⟩
  rw [send_call_frame synchronous some_rect, frame_works works]
  generalize planarFramePdus self self.wm.screen call.rects call.surfaceId call.x call.y = pdus
    at grown tells
  have every : ∀ pdu ∈ self.egfx.sent ++ pdus, Tells primary (self.egfx.sent ++ pdus).length pdu := by
    intro pdu member
    rcases List.mem_append.mp member with earlier | new
    · exact tells_more (telling.told pdu earlier) (by omega)
    · exact tells pdu new
  unfold commitFrameId
  split
  · refine ⟨?_, every⟩
    intro encoder present
    obtain ⟨before, -, rfl⟩ := Option.map_eq_some_iff.mp present
    simp only [withSent]
    omega
  · refine ⟨?_, every⟩
    intro encoder present
    have numbered := telling.numbered encoder present
    simp only [withSent]
    omega

theorem calls_telling {primary : Nat → Int} {self : Mm R} {calls : List PlanarCall}
    (telling : Telling primary self) (synchronous : ¬Asynchronous self)
    (works : self.egfx.sendResults = [])
    (fit : ∀ call ∈ calls, call.rects ≠ [] ∧ CallFits call) :
    Telling primary (calls.foldl sendCall self) := by
  induction calls generalizing self with
  | nil => exact telling
  | cons call calls ih =>
      obtain ⟨some_rect, fits⟩ := fit call (List.mem_cons_self ..)
      obtain ⟨committed, sent⟩ := send_call_synchronous synchronous works some_rect
      apply ih (call_telling telling synchronous works some_rect fits)
      · rw [sent]
        simpa [Asynchronous, with_frame_id_present] using synchronous
      · rw [sent]
        exact works
      · exact fun other member => fit other (List.mem_cons_of_mem call member)

/-! ## Draws -/

section Screens

variable [Pixman R]

/-- What a draw passes on is within the surface it is meant for. -/
theorem draw_calls_fit {mm : Mm R} {region : R} (describable : Describable mm)
    (monitors : MonitorsInside mm) (bounded : Bounded mm)
    (dirty : mm.wm.screenDirtyRegion = some region) (some_pixel : xrdpRegionNotEmpty region = true) :
    ∀ call ∈ drawCalls mm region, call.rects ≠ [] ∧ CallFits call := by
  intro call member
  obtain ⟨some_rect, solid⟩ := draw_calls_solid some_pixel member
  refine ⟨some_rect, ?_⟩
  have width := describable.width
  have height := describable.height
  by_cases no_monitor : mm.wm.clientInfo.displaySizes.monitorCount < 1
  · rw [drawCalls, if_pos no_monitor, List.mem_singleton] at member
    subst member
    refine ⟨describable.surface, ?_⟩
    intro rect passed
    refine ⟨solid rect passed, ?_⟩
    apply planar_region_rects_inside some_pixel _ rect passed
    intro x y covered
    have none_listed : mm.wm.clientInfo.displaySizes.minfoWm = [] := by
      rwa [DisplaySizeDescription.monitorCount, Nat.lt_one_iff, List.length_eq_zero_iff] at no_monitor
    have on_screen := bounded.pending x y (.inl ⟨region, dirty, covered⟩) (.inl none_listed)
    simp only [Rect.Covers, screenRect] at on_screen ⊢
    omega
  · rw [drawCalls, if_neg no_monitor] at member
    obtain ⟨index, mi, found, touched, rfl⟩ := mem_monitor_calls.mp member
    obtain ⟨below, -⟩ := List.getElem?_eq_some_iff.mp found
    have few := describable.listed.2
    have inside := monitors mi (List.mem_of_getElem? found)
    refine ⟨⟨by simp only; omega, by simp only; omega⟩, ?_⟩
    intro rect passed
    refine ⟨solid rect passed, ?_⟩
    apply planar_region_rects_inside touched _ rect passed
    intro x y covered
    have on_monitor := ((covered_monitor_region region mi x y).mp covered).2
    simp only [Rect.Covers, Rect.Inside, screenRect, monitorRect] at on_monitor inside ⊢
    omega

/-! ## Runs -/

/-- All that is needed of a manager in the course of a run. -/
structure Showing (primary : Nat → Int) (mm : Mm R) : Prop where
  converging : Converging mm
  bounded : Bounded mm
  describable : Describable mm
  telling : Telling primary mm

omit [Pixman R] in
theorem describable_same {before after : Mm R} (describable : Describable before)
    (size : SameSize before.wm.screen after.wm.screen)
    (surface : after.egfx.surfaceId = before.egfx.surfaceId)
    (sizes : after.wm.clientInfo.displaySizes = before.wm.clientInfo.displaySizes) :
    Describable after := by
  constructor
  · rw [size.1]
    exact describable.width
  · rw [size.2.1]
    exact describable.height
  · rw [surface]
    exact describable.surface
  · rw [sizes]
    exact describable.listed
  · rw [sizes]
    exact describable.words
  · rw [sizes]
    exact describable.ordered

omit [Pixman R] in
theorem telling_same {primary : Nat → Int} {before after : Mm R} (telling : Telling primary before)
    (egfx : after.egfx = before.egfx)
    (numbers : after.encoder.map (·.frameIdServer) = before.encoder.map (·.frameIdServer)) :
    Telling primary after := by
  constructor
  · intro encoder present
    rw [present, Option.map_some] at numbers
    obtain ⟨earlier, there, same⟩ := Option.map_eq_some_iff.mp numbers.symm
    rw [egfx, ← same]
    exact telling.numbered earlier there
  · rw [egfx]
    exact telling.told

theorem end_update_same (self : Mm R) :
    (serverEndUpdate self).egfx = self.egfx ∧ (serverEndUpdate self).encoder = self.encoder ∧
      (serverEndUpdate self).wm.screen = self.wm.screen ∧
      (serverEndUpdate self).wm.clientInfo = self.wm.clientInfo := by
  unfold serverEndUpdate addDirtyRegionToPlanarList
  split
  · exact ⟨rfl, rfl, rfl, rfl⟩
  · split
    · split <;> exact ⟨rfl, rfl, rfl, rfl⟩
    · exact ⟨rfl, rfl, rfl, rfl⟩

theorem frame_ack_number (encoder : Encoder) (suspend : Bool) (frameId : Int) :
    (xrdpMmUpdateModuleFrameAck (acknowledgeFrame encoder suspend frameId)).frameIdServer =
      encoder.frameIdServer := by
  unfold xrdpMmUpdateModuleFrameAck
  split <;> rfl

theorem draw_showing {primary : Nat → Int} {before : Mm R} (showing : Showing primary before)
    (now : Int) : Telling primary (checkScreenDirty before now).2 ∧
      Describable (checkScreenDirty before now).2 := by
  have describable := showing.describable
  unfold checkScreenDirty
  split
  · exact ⟨showing.telling, describable⟩
  · rename_i region dirty
    split
    · rename_i due
      have synchronous : ¬Asynchronous before := by
        simp [Asynchronous, showing.converging.synchronous]
      have works := showing.converging.works
      have solid := fun call (member : call ∈ drawCalls before region) =>
        draw_calls_solid due.1 member
      have fit := draw_calls_fit describable showing.converging.inside showing.bounded dirty due.1
      have telling := calls_telling showing.telling synchronous works fit
      obtain ⟨sent, frameIds, drawn, -⟩ := send_calls_synchronous synchronous works solid
      simp only [draw_dirty_calls]
      constructor
      · exact telling_same telling rfl rfl
      · rw [drawn]
        exact describable_same describable (same_size_refl _) rfl rfl
    · exact ⟨showing.telling, describable⟩

theorem event_showing {primary : Nat → Int} {before : Mm R} {event : Event}
    (showing : Showing primary before) (permitted : Permitted before event)
    (steady : Steady before event) : Showing primary (runEvent before event) := by
  have converging := event_converging showing.converging permitted steady
  have inside : SyncsInside before event := by
    cases event <;> trivial
  have bounded := event_bounded showing.bounded permitted inside
  have describable := showing.describable
  have telling := showing.telling
  cases event with
  | beginUpdate =>
      exact ⟨converging, bounded, describable_same describable (same_size_refl _) rfl rfl,
        telling_same telling rfl rfl⟩
  | paint paint =>
      have same : (serverPaint before paint).egfx = before.egfx ∧
          (serverPaint before paint).encoder = before.encoder ∧
          (serverPaint before paint).wm.clientInfo = before.wm.clientInfo ∧
          SameSize before.wm.screen (serverPaint before paint).wm.screen := by
        unfold serverPaint
        split
        · exact ⟨rfl, rfl, rfl, same_size_refl _⟩
        · exact ⟨rfl, rfl, rfl, paint_same_size paint.pixels before.wm.screen _⟩
      obtain ⟨egfx, encoder, info, size⟩ := same
      exact ⟨converging, bounded,
        describable_same describable size (congrArg Egfx.surfaceId egfx)
          (congrArg ClientInfo.displaySizes info),
        telling_same telling egfx (congrArg (Option.map _) encoder)⟩
  | endUpdate =>
      obtain ⟨egfx, encoder, screen, info⟩ := end_update_same before
      refine ⟨converging, bounded,
        describable_same describable ?_ (congrArg Egfx.surfaceId egfx)
          (congrArg ClientInfo.displaySizes info),
        telling_same telling egfx (congrArg (Option.map _) encoder)⟩
      simp only [runEvent, screen]
      exact same_size_refl _
  | frameAck suspend frameId =>
      have same : (xrdpMmEgfxFrameAck before suspend frameId).egfx = before.egfx ∧
          (xrdpMmEgfxFrameAck before suspend frameId).wm = before.wm ∧
          (xrdpMmEgfxFrameAck before suspend frameId).encoder.map (·.frameIdServer) =
            before.encoder.map (·.frameIdServer) := by
        unfold xrdpMmEgfxFrameAck
        split
        · exact ⟨rfl, rfl, rfl⟩
        · rename_i encoder present
          refine ⟨rfl, rfl, ?_⟩
          rw [present, Option.map_some, Option.map_some, frame_ack_number]
      obtain ⟨egfx, wm, number⟩ := same
      refine ⟨converging, bounded,
        describable_same describable ?_ (congrArg Egfx.surfaceId egfx) ?_,
        telling_same telling egfx number⟩
      · simp only [runEvent, wm]
        exact same_size_refl _
      · simp only [runEvent, wm]
  | draw now =>
      obtain ⟨told, described⟩ := draw_showing showing now
      exact ⟨converging, bounded, described, told⟩
  | _ => exact absurd steady id

/-- What is sent before anything is drawn. -/
def confirmPdus (self : Mm R) (codec : Int × Int) : List GfxPdu :=
  [.capsConfirm codec.1 codec.2,
    .resetGraphics self.wm.screen.width self.wm.screen.height
      self.wm.clientInfo.displaySizes.minfo] ++ createSurfacesPdus self

omit [Pixman R] in
theorem confirm_works {self : Mm R} (works : self.egfx.sendResults = []) (codec : Int × Int)
    (framesInFlight : Option Int) :
    confirmCaps self codec framesInFlight =
      { withSent self (confirmPdus self codec) with
        egfxUp := true
        encoder := xrdpEncoderCreate framesInFlight } := by
  simp only [confirmCaps, xrdpMmEgfxCreateSurfaces]
  rw [sends_only_works (sends_only_each self _) works,
    sends_only_works (sends_only_each _ _) (by exact works)]
  simp only [withSent, confirmPdus, List.append_assoc]
  rfl

omit [Pixman R] in
theorem surface_pdus_fit {surfaceId left top width height : Int} (primary : Nat → Int)
    (surface : 0 ≤ surfaceId ∧ surfaceId < 2 ^ 16) (across : 0 ≤ left ∧ left < 2 ^ 16)
    (down : 0 ≤ top ∧ top < 2 ^ 16) (wide : 0 ≤ width ∧ width < 2 ^ 16)
    (high : 0 ≤ height ∧ height < 2 ^ 16) :
    ∀ pdu ∈ createSurfacePdus surfaceId left top width height, Tells primary 0 pdu := by
  simp only [createSurfacePdus, List.forall_mem_cons, Tells, messageOf, Fits, AllFit, u16_fits, u8_fits,
    u32_fits, pixelFormatXrgb8888]
  refine ⟨⟨surface, wide, high, by decide, by simp⟩, ⟨surface, ?_, ?_, by simp⟩, by simp⟩
  · omega
  · omega

omit [Pixman R] in
/-- Everything sent at the start fits. -/
theorem confirm_pdus_tell {mm : Mm R} (describable : Describable mm) (monitors : MonitorsInside mm)
    {codec : Int × Int} (version : 0 ≤ codec.1 ∧ codec.1 < 2 ^ 32)
    (flags : 0 ≤ codec.2 ∧ codec.2 < 2 ^ 32) {primary : Nat → Int}
    (marks : ∀ index, 0 ≤ primary index ∧ primary index < 2 ^ 32) :
    ∀ pdu ∈ confirmPdus mm codec, Tells primary 0 pdu := by
  have width := describable.width
  have height := describable.height
  intro pdu member
  rcases List.mem_append.mp member with first | created
  · simp only [List.mem_cons, List.not_mem_nil, or_false] at first
    rcases first with rfl | rfl
    · simp only [Tells, messageOf, Fits, AllFit, List.forall_mem_cons, u32_fits]
      exact ⟨version, flags, by simp⟩
    · simp only [Tells, messageOf, Fits, AllFit, List.forall_mem_cons, u32_fits, List.length_mapIdx]
      refine ⟨⟨⟨by omega, by omega⟩, ⟨by omega, by omega⟩, by simp⟩, describable.listed.1, ?_⟩
      intro mi listed
      simp only [sentMonitors, List.length_mapIdx] at listed
      split at listed
      · rw [List.mem_singleton.mp listed]
        simp only [MonitorFits, SignedFits, u32_fits]
        omega
      · obtain ⟨index, bound, rfl⟩ := List.mem_mapIdx.mp listed
        obtain ⟨left, top, right, bottom⟩ := describable.words _ (List.getElem_mem bound)
        exact ⟨left, top, right, bottom, u32_fits.mpr (marks index)⟩
  · unfold createSurfacesPdus at created
    split at created
    · exact surface_pdus_fit primary describable.surface (by decide) (by decide) width height pdu
        created
    · obtain ⟨⟨mi, index⟩, listed, inThis⟩ := List.mem_flatMap.mp created
      obtain ⟨-, below, found⟩ := List.mem_zipIdx listed
      have known : mi ∈ mm.wm.clientInfo.displaySizes.minfoWm := by
        rw [found]
        exact List.getElem_mem _
      have inside := monitors mi known
      have ordered := describable.ordered mi known
      have few := describable.listed.2
      simp only [Rect.Inside, monitorRect, screenRect] at inside
      apply surface_pdus_fit primary _ _ _ _ _ pdu inThis <;> omega

theorem confirmed_showing {before : Mm R} (started : Started before) (confirmable : Confirmable before)
    (describable : Describable before) {codec : Int × Int} (version : 0 ≤ codec.1 ∧ codec.1 < 2 ^ 32)
    (flags : 0 ≤ codec.2 ∧ codec.2 < 2 ^ 32) (framesInFlight : Option Int) {primary : Nat → Int}
    (marks : ∀ index, 0 ≤ primary index ∧ primary index < 2 ^ 32) :
    Showing primary (runEvent before (.capsAdvertise (some codec) framesInFlight)) := by
  have tells := confirm_pdus_tell describable confirmable.inside version flags marks
  have invalidated : ∀ mm : Mm R, (xrdpMmEgfxInvalidateWmScreen mm).egfx = mm.egfx ∧
      (xrdpMmEgfxInvalidateWmScreen mm).encoder = mm.encoder ∧
      (xrdpMmEgfxInvalidateWmScreen mm).wm.screen = mm.wm.screen ∧
      (xrdpMmEgfxInvalidateWmScreen mm).wm.clientInfo = mm.wm.clientInfo := by
    intro mm
    unfold xrdpMmEgfxInvalidateWmScreen
    split <;> exact ⟨rfl, rfl, rfl, rfl⟩
  obtain ⟨egfx, encoder, screen, info⟩ := invalidated (confirmCaps before codec framesInFlight)
  rw [confirm_works confirmable.works] at egfx encoder screen info
  refine ⟨confirmed_converging confirmable codec framesInFlight,
    bounded_caps (started_bounded started) (some codec) framesInFlight, ?_, ?_⟩
  · apply describable_same describable
    · simp only [runEvent, xrdpMmEgfxCapsAdvertise, confirm_works confirmable.works, screen]
      exact same_size_refl _
    · simp only [runEvent, xrdpMmEgfxCapsAdvertise, confirm_works confirmable.works, egfx]
      rfl
    · simp only [runEvent, xrdpMmEgfxCapsAdvertise, confirm_works confirmable.works, info]
      rfl
  · simp only [runEvent, xrdpMmEgfxCapsAdvertise, confirm_works confirmable.works]
    constructor
    · intro created present
      rw [encoder] at present
      simp only [xrdpEncoderCreate] at present
      obtain ⟨frames, -, rfl⟩ := Option.map_eq_some_iff.mp present
      simp only
      omega
    · rw [egfx]
      simp only [withSent, started.sent, List.nil_append]
      intro pdu member
      exact tells_more (tells pdu member) (by omega)

/-- At any moment of a run of paints, acknowledgements and draws, every message that was sent fits the
fields it is written to, and a client that only has the packets of the static channel, and for which
nothing is on the way, has every pixel of the screen that does not wait to be drawn. -/
theorem wire_shows_screen {before after : Mm R} (started : Started before)
    (confirmable : Confirmable before) (describable : Describable before) {codec : Int × Int}
    (version : 0 ≤ codec.1 ∧ codec.1 < 2 ^ 32) (flags : 0 ≤ codec.2 ∧ codec.2 < 2 ^ 32)
    (framesInFlight : Option Int) {events : List Event}
    (ran : (session.restrict Steady).Run
      (runEvent before (.capsAdvertise (some codec) framesInFlight)) events after)
    (count : after.egfx.sent.length < 2 ^ 32) {primary : Nat → Int}
    (marks : ∀ index, 0 ≤ primary index ∧ primary index < 2 ^ 32) {Procs : Type}
    {start final : XrdpChannel Procs} {labels : List (ChannelOp Procs × Outcome Procs)}
    (created : channel.initial start) (link : start.sendResults = [])
    (carried : channel.Run start labels final) {chanId : Int}
    (whole : ∀ label ∈ labels, WholeOn chanId label.1)
    (delivered : after.egfx.sent.map (fun pdu => stream (messageOf primary pdu)) =
      (labels.filterMap (deliveredOn chanId)).map some) :
    (∀ pdu ∈ after.egfx.sent, Fits (messageOf primary pdu)) ∧
      ∃ messages, clientMessages chanId final.sent = some messages ∧
        ∀ surfaceId originX originY x y, Target after surfaceId originX originY x y →
          (screenRect after.wm.screen).Covers x y → Pending after x y ∨
            surfacesOf messages surfaceId (x - originX) (y - originY) =
              some (bitmapPixel after.wm.screen x y) := by
  have showing : Showing primary after := by
    apply System.run_preserves (Showing primary) _ ran
      (confirmed_showing started confirmable describable version flags framesInFlight marks)
    intro earlier event later kept stepped
    obtain ⟨steady, permitted, rfl⟩ := stepped
    exact event_showing kept permitted steady
  have each : ∀ pdu ∈ after.egfx.sent, Fits (messageOf primary pdu) :=
    fun pdu sent => tells_fits (showing.telling.told pdu sent) (by omega)
  have fits : ∀ message ∈ after.egfx.sent.map (messageOf primary), Fits message := by
    intro message member
    obtain ⟨pdu, sent, rfl⟩ := List.mem_map.mp member
    exact each pdu sent
  have built : (after.egfx.sent.map (messageOf primary)).map stream =
      (labels.filterMap (deliveredOn chanId)).map some := by
    rw [List.map_map]
    exact delivered
  have arrived := client_reads fits built (messages_delivered created link carried whole)
  refine ⟨each, _, arrived, ?_⟩
  rw [surfaces_of_told]
  exact showing.converging.pixels

end Screens

/-- A screen of one pixel after it has been painted and drawn. -/
def paintedPixel : Mm BoxList :=
  runEvents (startedSession 1 false) (.capsAdvertise (some (1, 0)) (some 2) :: paintedTwice)

/-- The streams of all its messages. -/
def paintedStreams : List (List Byte) :=
  paintedPixel.egfx.sent.filterMap fun pdu => stream (messageOf (fun _ => 1) pdu)

/-- A channel is opened and the messages are sent on it. -/
def paintedCarried : List (ChannelOp Unit) :=
  [.start, .openChannel [0x67] (),
    .receive 0 1006 [6, 0, 0, 0, 3, 0, 0, 0, 0x10, 1, 0, 0, 0, 0]] ++
      paintedStreams.map (.egfxSend 1)

theorem wire_shows_screen_painted :
    (∀ pdu ∈ paintedPixel.egfx.sent, Fits (messageOf (fun _ => 1) pdu)) ∧
      ∃ labels final messages, runOps freshSession paintedCarried = some (labels, final) ∧
        clientMessages 1 final.sent = some messages ∧
        surfacesOf messages 0 0 0 = some { b := 1, g := 2, r := 3, a := 4 } := by
  have only : ∀ mi ∈ pixelMonitors 1, mi = { left := 0, top := 0, right := 0, bottom := 0 } := by
    simp [pixelMonitors]
  have confirmable : Confirmable (startedSession 1 false) := by
    refine ⟨rfl, rfl, rfl, rfl, ?_, rfl⟩
    intro mi listed
    rw [only mi listed]
    decide
  have describable : Describable (startedSession 1 false) := by
    refine ⟨by decide, by decide, by decide, by decide, ?_, ?_⟩
    · intro mi listed
      rw [only mi listed]
      simp [SignedFits]
    · intro mi listed
      rw [only mi listed]
      decide
  have ran : (session.restrict Steady).Run
      (runEvent (startedSession 1 false) (.capsAdvertise (some (1, 0)) (some 2))) paintedTwice
      paintedPixel := by
    apply restricted_run_of_events
    · exact ⟨trivial, rfl, trivial, trivial, trivial, trivial, trivial⟩
    · exact ⟨trivial, trivial, trivial, trivial, trivial, trivial, trivial⟩
  have runs : (runOps freshSession paintedCarried).isSome = true := by decide +kernel
  obtain ⟨⟨labels, final⟩, carried⟩ := Option.isSome_iff_exists.mp runs
  have delivered : (runOps freshSession paintedCarried).map
      (fun result => (result.1.filterMap (deliveredOn 1)).map some) =
      some (paintedPixel.egfx.sent.map fun pdu => stream (messageOf (fun _ => 1) pdu)) := by
    decide +kernel
  rw [carried, Option.map_some, Option.some.injEq] at delivered
  have small : ∀ data ∈ paintedStreams, data.length < 2 ^ 31 := by decide +kernel
  have whole : ∀ label ∈ labels, WholeOn 1 label.1 := by
    intro label member
    have listed : label.1 ∈ paintedCarried := run_ops_labels carried ▸ List.mem_map_of_mem member
    rcases List.mem_append.mp listed with first | sent
    · have others : ∀ op ∈ [ChannelOp.start, .openChannel [0x67] (),
          .receive 0 1006 [6, 0, 0, 0, 3, 0, 0, 0, 0x10, 1, 0, 0, 0, 0]], WholeOn 1 op := by
        simp [WholeOn, ChannelRuns.SendsOn]
      exact others label.1 first
    · obtain ⟨data, there, same⟩ := List.mem_map.mp sent
      intro _
      exact ⟨data, same.symm, small data there⟩
  have count : paintedPixel.egfx.sent.length < 2 ^ 32 := by decide +kernel
  obtain ⟨fits, messages, arrived, shown⟩ := @wire_shows_screen BoxList _ (startedSession 1 false)
    paintedPixel (started_session 1 false) confirmable describable (1, 0) (by decide) (by decide)
    (some 2) paintedTwice ran count (fun _ => 1) (fun _ => by decide) Unit freshSession final labels
    fresh_session_initial rfl (run_of_ops carried) 1 whole delivered.symm
  have clean : paintedPixel.wm.screenDirtyRegion.isNone = true := by decide +kernel
  have closed : paintedPixel.painter.isNone = true := by decide +kernel
  have listed : paintedPixel.wm.clientInfo.displaySizes.minfoWm[0]? =
      some { left := 0, top := 0, right := 0, bottom := 0 } := by decide +kernel
  have shows := shown 0 0 0 0 0 (.monitor 0 _ 0 0 listed (by decide)) (by decide +kernel)
  have pixel : bitmapPixel paintedPixel.wm.screen 0 0 = { b := 1, g := 2, r := 3, a := 4 } := by
    decide +kernel
  rw [pixel] at shows
  refine ⟨fits, labels, final, messages, carried, arrived, shows.resolve_left ?_⟩
  intro waits
  rcases waits with ⟨region, dirty, -⟩ | ⟨region, painting, -⟩
  · rw [Option.isNone_iff_eq_none.mp clean] at dirty
    exact absurd dirty (by simp)
  · rw [Option.isNone_iff_eq_none.mp closed] at painting
    exact absurd painting (by simp)

end XrdpConsole.WireScreen
