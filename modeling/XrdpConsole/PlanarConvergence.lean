import XrdpConsole.DirtyPixels
import XrdpConsole.DrawCoverage
import XrdpConsole.MmFrames
import XrdpConsole.PlanarClient

/-!
# Synchronous drawing converges

From the invalidation of the whole screen on, every pixel of every surface either has
the colour of the screen or waits to be sent. Once nothing waits, the surfaces of the
client are those of the screen.
-/

namespace XrdpConsole.PlanarConvergence

open XrdpConsole.Library
open XrdpConsole.Region
open XrdpConsole.VncState
open XrdpConsole.MmState
open XrdpConsole.PlanarSend
open XrdpConsole.PlanarTiles
open XrdpConsole.PlanarClient
open XrdpConsole.ResizeMachine
open XrdpConsole.DrawSteps
open XrdpConsole.DrawCalls
open XrdpConsole.DrawCoverage
open XrdpConsole.MmSession
open XrdpConsole.MmFrames
open XrdpConsole.DirtyPixels

set_option autoImplicit false

variable {R : Type} [Pixman R]

structure InSync (mm : Mm R) : Prop where
  whole : mm.wm.clientInfo.displaySizes.minfoWm = [] → ∀ x y,
    (screenRect mm.wm.screen).Covers x y →
    clientSurfaces mm.egfx.sent mm.egfx.surfaceId x y = some (bitmapPixel mm.wm.screen x y)
  monitors : ∀ (index : Nat) mi, mm.wm.clientInfo.displaySizes.minfoWm[index]? = some mi → ∀ x y,
    (monitorRect mi).Covers x y →
    clientSurfaces mm.egfx.sent index (x - mi.left) (y - mi.top) =
      some (bitmapPixel mm.wm.screen x y)

def MonitorsInside (mm : Mm R) : Prop :=
  ∀ mi ∈ mm.wm.clientInfo.displaySizes.minfoWm, (monitorRect mi).Inside (screenRect mm.wm.screen)

/-- Ready for capabilities that start synchronous drawing of a screen in use. -/
structure Confirmable (mm : Mm R) : Prop where
  synchronous : mm.vncGfxAsyncPlanar = false
  works : mm.egfx.sendResults = []
  graphics : mm.wm.clientInfo.gfx = true
  lines : mm.wm.screen.lineSize = mm.wm.screen.width * 4
  inside : MonitorsInside mm
  used : (mm.modUsesWmScreenForGfx || !mm.modHandle) = true

/-- Paints, acknowledgements and attempts to draw. -/
def Steady (_ : Mm R) : Event → Prop
  | .beginUpdate => True
  | .paint _ => True
  | .endUpdate => True
  | .frameAck _ _ => True
  | .draw _ => True
  | _ => False

/-! ## The invariant -/

structure Converging (mm : Mm R) : Prop where
  synchronous : mm.vncGfxAsyncPlanar = false
  works : mm.egfx.sendResults = []
  graphics : mm.wm.clientInfo.gfx = true
  lines : mm.wm.screen.lineSize = mm.wm.screen.width * 4
  inside : MonitorsInside mm
  pixels : ∀ surfaceId originX originY x y, Target mm surfaceId originX originY x y →
    (screenRect mm.wm.screen).Covers x y → Pending mm x y ∨
      clientSurfaces mm.egfx.sent surfaceId (x - originX) (y - originY) =
        some (bitmapPixel mm.wm.screen x y)

omit [Pixman R] in
theorem target_same {before after : Mm R}
    (sizes : after.wm.clientInfo.displaySizes = before.wm.clientInfo.displaySizes)
    (surface : after.egfx.surfaceId = before.egfx.surfaceId) {surfaceId originX originY x y : Int}
    (target : Target after surfaceId originX originY x y) :
    Target before surfaceId originX originY x y := by
  cases target with
  | whole _ _ none_listed =>
      rw [surface]
      exact .whole x y (sizes ▸ none_listed)
  | monitor index mi _ _ listed covered => exact .monitor index mi x y (sizes ▸ listed) covered

theorem target_origin {self : Mm R} {region : R} {call : PlanarCall}
    (member : call ∈ drawCalls self region) {surfaceId originX originY x y : Int}
    (target : Target self surfaceId originX originY x y) (same : call.surfaceId = surfaceId) :
    call.x = originX ∧ call.y = originY := by
  unfold drawCalls at member
  cases target with
  | whole _ _ none_listed =>
      rw [if_pos none_listed, List.mem_singleton] at member
      rw [member]
      exact ⟨rfl, rfl⟩
  | monitor index mi _ _ listed _ =>
      have some_monitor : ¬self.wm.clientInfo.displaySizes.monitorCount < 1 := by
        obtain ⟨bound, -⟩ := List.getElem?_eq_some_iff.mp listed
        simp only [DisplaySizeDescription.monitorCount]
        omega
      rw [if_neg some_monitor] at member
      obtain ⟨offset, other, found, -, rfl⟩ := mem_monitor_calls.mp member
      obtain rfl : offset = index := by
        simp only at same
        omega
      obtain rfl := Option.some.inj (found.symm.trans listed)
      exact ⟨rfl, rfl⟩

section Steps

variable {before after : Mm R}

/-- Nothing is sent or written, and no pixel that waits is lost. -/
theorem converging_kept (converging : Converging before) (egfx : after.egfx = before.egfx)
    (info : after.wm.clientInfo = before.wm.clientInfo) (screen : after.wm.screen = before.wm.screen)
    (mode : after.vncGfxAsyncPlanar = before.vncGfxAsyncPlanar)
    (pending : ∀ x y, Pending before x y → Pending after x y) : Converging after := by
  constructor
  · exact mode.trans converging.synchronous
  · rw [egfx]
    exact converging.works
  · rw [info]
    exact converging.graphics
  · rw [screen]
    exact converging.lines
  · rw [MonitorsInside, info, screen]
    exact converging.inside
  · intro surfaceId originX originY x y target on_screen
    rw [egfx, screen]
    rw [screen] at on_screen
    have earlier := @target_same R before after (by rw [info]) (by rw [egfx]) _ _ _ _ _ target
    rcases converging.pixels surfaceId originX originY x y earlier on_screen with waits | shown
    · exact .inl (pending x y waits)
    · exact .inr shown

theorem converging_begin (converging : Converging before) (closed : before.painter = none) :
    Converging (serverBeginUpdate before) := by
  refine converging_kept converging rfl rfl rfl rfl ?_
  intro x y waits
  rcases waits with dirty | painted
  · exact .inl dirty
  · simp [closed] at painted

theorem converging_paint (converging : Converging before) (paint : Paint) :
    Converging (serverPaint before paint) := by
  have waits := fun x y => @pending_paint R _ before paint x y
  unfold serverPaint at waits ⊢
  cases painting : before.painter with
  | none => exact converging
  | some dirtyRegion =>
      simp only [painting, Option.isSome_some, true_and] at waits
      have size := paint_same_size paint.pixels before.wm.screen (paint.drawRects before.wm.screen)
      have same := size.2.2.trans (converging.lines.trans (congrArg (· * 4) size.1.symm))
      refine ⟨converging.synchronous, converging.works, converging.graphics, same, ?_, ?_⟩
      · intro mi listed
        have inside := converging.inside mi listed
        simp only [screenRect, size.1, size.2.1]
        exact inside
      · intro surfaceId originX originY x y target on_screen
        have earlier : Target before surfaceId originX originY x y := by
          apply target_same _ _ target <;> rfl
        simp only [screenRect, size.1, size.2.1] at on_screen
        by_cases covered : ∃ rect ∈ paint.drawRects before.wm.screen, rect.Covers x y
        · exact .inl ((waits x y).mpr (.inr covered))
        · have kept := paint_keeps paint.pixels converging.lines
            (by simp only [Rect.Covers] at on_screen; omega)
            (fun rect member here => covered ⟨rect, member, here⟩)
          rcases converging.pixels surfaceId originX originY x y earlier on_screen with dirty | shown
          · exact .inl ((waits x y).mpr (.inl dirty))
          · right
            rw [kept]
            exact shown

theorem converging_end (converging : Converging before) :
    Converging (serverEndUpdate before) := by
  have waits : ∀ x y, Pending before x y → Pending (serverEndUpdate before) x y := by
    intro x y earlier
    rw [pending_end, converging.graphics]
    simpa [Pending] using earlier
  unfold serverEndUpdate addDirtyRegionToPlanarList at waits ⊢
  split
  · exact converging
  · rename_i dirtyRegion painting
    simp only [painting, converging.graphics, if_true] at waits ⊢
    split
    · rename_i boxes
      simp only [boxes] at waits
      exact converging_kept converging rfl rfl rfl rfl waits
    · rename_i boxes
      simp only [boxes] at waits
      exact converging_kept converging rfl rfl rfl rfl waits

/-- A draw leaves the surfaces with the pixels of the screen wherever the region was. -/
theorem converging_draw (converging : Converging before) (now : Int) :
    Converging (checkScreenDirty before now).2 := by
  unfold checkScreenDirty
  split
  · exact converging
  · rename_i region dirty
    split
    · rename_i due
      have synchronous : ¬Asynchronous before := by simp [Asynchronous, converging.synchronous]
      have solid := fun call (member : call ∈ drawCalls before region) =>
        draw_calls_solid due.1 member
      obtain ⟨sent, frameIds, drawn, tiles⟩ :=
        send_calls_synchronous synchronous converging.works solid
      simp only [draw_dirty_calls, drawn]
      refine ⟨converging.synchronous, converging.works, converging.graphics, converging.lines,
        converging.inside, ?_⟩
      intro surfaceId originX originY x y target on_screen
      have earlier : Target before surfaceId originX originY x y := by
        apply target_same _ _ target <;> rfl
      have pasted := paste_calls_pixel (clientSurfaces before.egfx.sent) before.wm.screen
        (fun call member => (solid call member).2)
        (fun call member same => target_origin member earlier same) x y
      rw [← tiles, paste_all_filter] at pasted
      change _ ∨ clientSurfaces (before.egfx.sent ++ sent) surfaceId _ _ = _
      rw [clientSurfaces, paste_all_append]
      change _ ∨ pasteAll (clientSurfaces before.egfx.sent) sent surfaceId _ _ = _
      rw [pasted]
      by_cases covered : ∃ call ∈ drawCalls before region, call.surfaceId = surfaceId ∧
          ∃ rect ∈ call.rects, rect.Covers x y
      · right
        rw [if_pos covered]
      · rw [if_neg covered]
        rcases converging.pixels surfaceId originX originY x y earlier on_screen with waits | shown
        · rcases waits with inRegion | painted
          · rw [dirty, option_covered_some] at inRegion
            obtain ⟨call, member, same, -, -, found⟩ := target_call earlier inRegion
            exact absurd ⟨call, member, same, found⟩ covered
          · exact .inl (.inr painted)
        · exact .inr shown
    · exact converging

end Steps

/-! ## Whole runs -/

/-- Confirming capabilities invalidates the whole screen. -/
theorem confirmed_converging {before : Mm R} (confirmable : Confirmable before) (codec : Int × Int)
    (framesInFlight : Option Int) :
    Converging (xrdpMmEgfxCapsAdvertise before (some codec) framesInFlight) := by
  have works := confirmable.works
  have waits := pending_invalidate (confirmCaps before codec framesInFlight)
  simp only [xrdpMmEgfxCapsAdvertise] at waits ⊢
  obtain ⟨sent, confirmed⟩ : ∃ sent, confirmCaps before codec framesInFlight =
      { before with
        egfx.sent := sent
        egfxUp := true
        encoder := xrdpEncoderCreate framesInFlight } := by
    simp only [confirmCaps, xrdpMmEgfxCreateSurfaces]
    rw [sends_only_works (sends_only_each before _) works,
      sends_only_works (sends_only_each _ _) (by exact works)]
    exact ⟨_, rfl⟩
  rw [confirmed] at waits ⊢
  have used := confirmable.used
  unfold xrdpMmEgfxInvalidateWmScreen at waits ⊢
  rw [if_pos used] at waits ⊢
  refine ⟨confirmable.synchronous, works, confirmable.graphics, confirmable.lines,
    confirmable.inside, ?_⟩
  intro surfaceId originX originY x y _ on_screen
  exact .inl ((waits x y).mpr (.inr ⟨used, on_screen⟩))

theorem event_converging {before : Mm R} {event : Event} (converging : Converging before)
    (permitted : Permitted before event) (steady : Steady before event) :
    Converging (runEvent before event) := by
  cases event with
  | beginUpdate => exact converging_begin converging permitted
  | paint paint => exact converging_paint converging paint
  | endUpdate => exact converging_end converging
  | frameAck suspend frameId =>
      have kept := output_only_frame_ack before suspend frameId
      have sent : (xrdpMmEgfxFrameAck before suspend frameId).egfx = before.egfx := by
        unfold xrdpMmEgfxFrameAck
        split <;> rfl
      simp only [runEvent]
      rw [OutputOnly] at kept
      refine converging_kept converging sent ?_ ?_ ?_ ?_
      · rw [kept]
        rfl
      · rw [kept]
        rfl
      · rw [kept]
        rfl
      · intro x y waits
        rw [kept]
        exact waits
  | draw now => exact converging_draw converging now
  | _ => exact absurd steady id

theorem converging_in_sync {mm : Mm R} (converging : Converging mm)
    (settled : ∀ x y, ¬Pending mm x y) : InSync mm := by
  have shown : ∀ surfaceId originX originY x y, Target mm surfaceId originX originY x y →
      (screenRect mm.wm.screen).Covers x y →
      clientSurfaces mm.egfx.sent surfaceId (x - originX) (y - originY) =
        some (bitmapPixel mm.wm.screen x y) := by
    intro surfaceId originX originY x y target on_screen
    exact (converging.pixels surfaceId originX originY x y target on_screen).resolve_left
      (settled x y)
  constructor
  · intro none_listed x y on_screen
    have target : Target mm mm.egfx.surfaceId 0 0 x y :=
      .whole x y (by simp [DisplaySizeDescription.monitorCount, none_listed])
    simpa using shown _ _ _ x y target on_screen
  · intro index mi listed x y covered
    apply shown index mi.left mi.top x y (.monitor index mi x y listed covered)
    exact Rect.inside_covers (converging.inside mi (List.mem_of_getElem? listed)) covered

theorem postponed_draw {mm : Mm R} (now : Int) (postponed : xrdpMmVncGfxFrameSlotAvailable mm = false) :
    (checkScreenDirty mm now).2 = mm := by
  unfold checkScreenDirty
  split
  · rfl
  · rename_i region _
    have not_due : ¬DrawDue mm region now := by simp [DrawDue, postponed]
    rw [if_neg not_due]

/-- After any run of paints, acknowledgements and draws, the surfaces of the client are
those of the screen as soon as nothing is dirty, and a postponed draw loses nothing. -/
theorem synchronous_drawing_converges {before after : Mm R} (confirmable : Confirmable before)
    (codec : Int × Int) (framesInFlight : Option Int) {events : List Event}
    (ran : (session.restrict Steady).Run
      (runEvent before (.capsAdvertise (some codec) framesInFlight)) events after) :
    (after.painter = none → (∀ region, after.wm.screenDirtyRegion = some region →
        xrdpRegionNotEmpty region = false) → InSync after) ∧
      ∀ now, xrdpMmVncGfxFrameSlotAvailable after = false → runEvent after (.draw now) = after := by
  have converging : Converging after := by
    apply System.run_preserves Converging _ ran
      (confirmed_converging confirmable codec framesInFlight)
    intro earlier event later kept stepped
    obtain ⟨steady, permitted, rfl⟩ := stepped
    exact event_converging kept permitted steady
  constructor
  · intro closed clean
    apply converging_in_sync converging
    intro x y waits
    rcases waits with ⟨region, dirty, covered⟩ | painted
    · have some_pixel := (not_empty_covers region).mpr ⟨x, y, covered⟩
      rw [clean region dirty] at some_pixel
      exact absurd some_pixel (by simp)
    · simp [closed] at painted
  · exact fun now => postponed_draw now

def paintedTwice : List Event :=
  [.draw 100, .beginUpdate,
    .paint { x := 0, y := 0, cx := 1, cy := 1, visible := [pixelRow 1]
             pixels := fun _ _ => { b := 1, g := 2, r := 3, a := 4 } },
    .endUpdate, .frameAck false 1, .draw 200]

theorem synchronous_drawing_converges_painted :
    InSync (runEvents (startedSession 1 false) (.capsAdvertise (some (1, 0)) (some 2) :: paintedTwice)) := by
  have confirmable : Confirmable (startedSession 1 false) := by
    refine ⟨rfl, rfl, rfl, rfl, ?_, rfl⟩
    intro mi listed
    obtain rfl : mi = { left := 0, top := 0, right := 0, bottom := 0 } := by
      simpa [startedSession, pixelSession, pixelSizes, pixelMonitors] using listed
    decide
  have ran : (session.restrict Steady).Run
      (runEvent (startedSession 1 false) (.capsAdvertise (some (1, 0)) (some 2))) paintedTwice
      (runEvents (startedSession 1 false)
        (.capsAdvertise (some (1, 0)) (some 2) :: paintedTwice)) := by
    apply restricted_run_of_events
    · exact ⟨trivial, rfl, trivial, trivial, trivial, trivial, trivial⟩
    · exact ⟨trivial, trivial, trivial, trivial, trivial, trivial, trivial⟩
  apply (synchronous_drawing_converges confirmable (1, 0) (some 2) ran).1
  · rfl
  · have clean : (runEvents (startedSession 1 false)
        (.capsAdvertise (some (1, 0)) (some 2) :: paintedTwice)).wm.screenDirtyRegion.isNone = true := by
      decide +kernel
    intro region dirty
    rw [Option.isNone_iff_eq_none.mp clean] at dirty
    exact absurd dirty (by simp)

end XrdpConsole.PlanarConvergence
