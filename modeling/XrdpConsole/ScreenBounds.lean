import XrdpConsole.DirtyPixels
import XrdpConsole.DrawCalls
import XrdpConsole.MmFrames

/-!
# Draws stay inside the screen

A dirty pixel on one of the monitors is a pixel of the screen, except where a resize
takes over new monitors before the screen has their size: a region left from an older,
larger desktop then reaches past the screen until the bitmap is resized.
-/

namespace XrdpConsole.ScreenBounds

open XrdpConsole.Library
open XrdpConsole.Region
open XrdpConsole.MmState
open XrdpConsole.PlanarSend
open XrdpConsole.ResizeMachine
open XrdpConsole.DrawSteps
open XrdpConsole.DrawCalls
open XrdpConsole.MmSession
open XrdpConsole.MmFrames
open XrdpConsole.DirtyPixels

set_option autoImplicit false

variable {R : Type} [Pixman R]

/-! ## The condition -/

/-- The draws of these sizes reach the pixel: all of them where no monitor is known. -/
def OnMonitor (sizes : DisplaySizeDescription) (x y : Int) : Prop :=
  sizes.minfoWm = [] ∨ ∃ mi ∈ sizes.minfoWm, (monitorRect mi).Covers x y

/-- The monitors of a resize are taken over only where no pending pixel on them lies
outside the screen. -/
def SyncsInside (self : Mm R) : Event → Prop
  | .resizeReady answers => Processes self answers → ∀ resize, self.resizeData = some resize →
      resize.state = .serverMonitorMessageProcessed → ∀ x y, Pending self x y →
      OnMonitor resize.description x y → (screenRect self.wm.screen).Covers x y
  | _ => True

/-! ## The calls of a draw -/

/-- A draw stays on the screen exactly if no dirty pixel it reaches is outside. -/
theorem draw_calls_inside_iff {self : Mm R} {region : R}
    (some_pixel : xrdpRegionNotEmpty region = true) :
    (∀ call ∈ drawCalls self region, ∀ rect ∈ call.rects,
        rect.Inside (screenRect self.wm.screen)) ↔
      ∀ x y, Covered region x y → OnMonitor self.wm.clientInfo.displaySizes x y →
        (screenRect self.wm.screen).Covers x y := by
  have none_iff : self.wm.clientInfo.displaySizes.monitorCount < 1 ↔
      self.wm.clientInfo.displaySizes.minfoWm = [] := by
    rw [DisplaySizeDescription.monitorCount, Nat.lt_one_iff, List.length_eq_zero_iff]
  constructor
  · intro inside x y covered on_monitor
    by_cases no_monitor : self.wm.clientInfo.displaySizes.monitorCount < 1
    · obtain ⟨rect, member, here⟩ :=
        @planar_region_rects_cover _ _ region self.vncGfxMaxDirtyRects x y covered
      have passed : PlanarCall.mk (planarRegionRects region self.vncGfxMaxDirtyRects)
          self.egfx.surfaceId 0 0 ∈ drawCalls self region := by
        simp [drawCalls, no_monitor]
      exact Rect.inside_covers (inside _ passed rect member) here
    · obtain ⟨mi, listed, onThis⟩ := on_monitor.resolve_left (no_monitor ∘ none_iff.mpr)
      obtain ⟨index, found⟩ := List.mem_iff_getElem?.mp listed
      have part : Covered (monitorRegion region mi) x y :=
        (covered_monitor_region region mi x y).mpr ⟨covered, onThis⟩
      obtain ⟨rect, member, here⟩ :=
        @planar_region_rects_cover _ _ (monitorRegion region mi) self.vncGfxMaxDirtyRects x y part
      have passed : PlanarCall.mk (planarRegionRects (monitorRegion region mi)
          self.vncGfxMaxDirtyRects) ((0 + index : Nat) : Int) mi.left mi.top ∈
            drawCalls self region := by
        rw [drawCalls, if_neg no_monitor]
        exact mem_monitor_calls.mpr
          ⟨index, mi, found, (not_empty_covers _).mpr ⟨x, y, part⟩, rfl⟩
      exact Rect.inside_covers (inside _ passed rect member) here
  · intro within call member
    unfold drawCalls at member
    split at member
    · rename_i no_monitor
      rw [List.mem_singleton.mp member]
      apply planar_region_rects_inside some_pixel
      intro x y covered
      exact within x y covered (.inl (none_iff.mp no_monitor))
    · obtain ⟨index, mi, found, touched, rfl⟩ := mem_monitor_calls.mp member
      apply planar_region_rects_inside touched
      intro x y covered
      obtain ⟨dirty, onThis⟩ := (covered_monitor_region region mi x y).mp covered
      exact within x y dirty (.inr ⟨mi, List.mem_of_getElem? found, onThis⟩)

/-- A rectangle and the rows that are copied for it are inside the screen. -/
structure InsideScreen (screen : Bitmap) (rect : Rect) : Prop where
  columns : 0 ≤ rect.left ∧ rect.left ≤ rect.right ∧ rect.right ≤ screen.width
  lines : 0 ≤ rect.top ∧ rect.top ≤ rect.bottom ∧ rect.bottom ≤ screen.height
  rows : ∀ row, rect.top ≤ row → row < rect.bottom →
    0 ≤ screen.lineSize * row + rect.left * 4 ∧
      screen.lineSize * row + rect.right * 4 ≤ screen.lineSize * screen.height

theorem inside_screen {screen : Bitmap} {rect : Rect}
    (lines : screen.lineSize = screen.width * 4) (solid : rect.Solid)
    (inside : rect.Inside (screenRect screen)) : InsideScreen screen rect := by
  simp only [Rect.Solid, Rect.Inside, screenRect] at solid inside
  refine ⟨by omega, by omega, ?_⟩
  intro row lower upper
  have start : 0 ≤ screen.lineSize * row := Int.mul_nonneg (by omega) (by omega)
  have stop : screen.lineSize * (row + 1) ≤ screen.lineSize * screen.height :=
    Int.mul_le_mul_of_nonneg_left (by omega) (by omega)
  rw [Int.mul_add, Int.mul_one] at stop
  omega

/-- Whatever a draw that is due passes on stays inside the screen. -/
def DrawsInside (self : Mm R) : Prop :=
  ∀ region, self.wm.screenDirtyRegion = some region → ∀ now, DrawDue self region now →
    ∀ call ∈ drawCalls self region, ∀ rect ∈ call.rects, InsideScreen self.wm.screen rect

/-! ## The invariant -/

/-- The resize has taken over its monitors; what is left is the screen. -/
def takenOver : DisplayResizeState → Bool
  | .xrdpCoreReset => true
  | .xrdpCoreResetProcessing => true
  | .xrdpCoreResetProcessed => true
  | .encoderCreate => true
  | _ => false

structure Bounded (mm : Mm R) : Prop where
  lines : mm.wm.screen.lineSize = mm.wm.screen.width * 4
  pending : ∀ x y, Pending mm x y → OnMonitor mm.wm.clientInfo.displaySizes x y →
    (screenRect mm.wm.screen).Covers x y
  queued : ∀ item ∈ mm.resizeQueue, HasSize item.description → WellFormed item.description
  active : ∀ resize, mm.resizeData = some resize → WellFormed resize.description
  sizes : ∀ resize, mm.resizeData = some resize → takenOver resize.state = true →
    mm.wm.clientInfo.displaySizes = resize.description

theorem bounded_draws {mm : Mm R} (bounded : Bounded mm) : DrawsInside mm := by
  intro region dirty now due call member rect passed
  have solid := (draw_calls_solid due.1 member).2 rect passed
  apply inside_screen bounded.lines solid
  apply (draw_calls_inside_iff due.1).mpr _ call member rect passed
  intro x y covered
  exact bounded.pending x y (.inl ⟨region, dirty, covered⟩)

theorem same_screen_rect {before after : Bitmap} (size : SameSize before after) :
    screenRect after = screenRect before := by
  rw [screenRect, size.1, size.2.1, screenRect]

/-- Only pixels of the screen become dirty. -/
theorem bounded_dirties {before after : Mm R} (bounded : Bounded before)
    (size : SameSize before.wm.screen after.wm.screen)
    (sizes : after.wm.clientInfo.displaySizes = before.wm.clientInfo.displaySizes)
    (resize : after.resizeData = before.resizeData) (queue : after.resizeQueue = before.resizeQueue)
    (pending : ∀ x y, Pending after x y →
      Pending before x y ∨ (screenRect before.wm.screen).Covers x y) : Bounded after := by
  constructor
  · rw [size.2.2, size.1]
    exact bounded.lines
  · intro x y dirty on_monitor
    rw [same_screen_rect size]
    rcases pending x y dirty with earlier | on_screen
    · exact bounded.pending x y earlier (sizes ▸ on_monitor)
    · exact on_screen
  · rw [queue]
    exact bounded.queued
  · rw [resize]
    exact bounded.active
  · rw [resize, sizes]
    exact bounded.sizes

omit [Pixman R] in
theorem same_size_refl (bitmap : Bitmap) : SameSize bitmap bitmap := ⟨rfl, rfl, rfl⟩

theorem bounded_output {before after : Mm R} (bounded : Bounded before)
    (only : OutputOnly before after) : Bounded after := by
  rw [OutputOnly] at only
  rw [only]
  exact ⟨bounded.lines, bounded.pending, bounded.queued, bounded.active, bounded.sizes⟩

/-! ## Resizes -/

theorem resized_size (screen : Bitmap) (width height : Int) (moved : Bool) :
    (xrdpBitmapResize screen width height moved).width = width ∧
      (xrdpBitmapResize screen width height moved).height = height ∧
      (screen.lineSize = screen.width * 4 →
        (xrdpBitmapResize screen width height moved).lineSize = width * 4) := by
  unfold xrdpBitmapResize
  split
  · rename_i same
    exact ⟨same.1.symm, same.2.symm, fun lines => same.1 ▸ lines⟩
  · exact ⟨rfl, rfl, fun _ => rfl⟩

/-- All monitors are inside the session. -/
theorem on_monitor_inside {description : DisplaySizeDescription} (formed : WellFormed description)
    {x y : Int} (on_monitor : OnMonitor description x y) :
    0 ≤ x ∧ x < description.sessionWidth ∧ 0 ≤ y ∧ y < description.sessionHeight := by
  obtain ⟨mi, listed, covered⟩ := on_monitor.resolve_left formed.1
  have bounds := formed.2 mi listed
  simp only [Rect.Covers, monitorRect] at covered
  omega

theorem taken_over_follows {state next : DisplayResizeState} (follows : Follows state next)
    (taken : takenOver next = true) : takenOver state = true := by
  cases follows with
  | coreReset => rfl
  | created => rfl
  | failed => simp [takenOver] at taken
  | _ => simp [takenOver] at taken

/-- The machine only moves on. -/
theorem bounded_advanced {before : Mm R} (bounded : Bounded before)
    {state : DisplayResizeState} (output : Output)
    (taken : takenOver state = true → ∀ resize, before.resizeData = some resize →
      takenOver resize.state = true) :
    Bounded (withOutput (advanceResizeStateMachine before state) output) := by
  refine ⟨bounded.lines, bounded.pending, bounded.queued, ?_, ?_⟩
  · intro resize active
    obtain ⟨earlier, same, rfl⟩ := Option.map_eq_some_iff.mp active
    exact bounded.active earlier same
  · intro resize active later
    obtain ⟨earlier, same, rfl⟩ := Option.map_eq_some_iff.mp active
    exact bounded.sizes earlier same (taken later earlier same)

theorem bounded_resize {before after : Mm R} {resize : DisplayControlMonitorLayoutData}
    (bounded : Bounded before) (active : before.resizeData = some resize)
    (inside : resize.state = .serverMonitorMessageProcessed → ∀ x y, Pending before x y →
      OnMonitor resize.description x y → (screenRect before.wm.screen).Covers x y)
    (step : ResizeStep before resize after) : Bounded after := by
  have only : ∀ other, before.resizeData = some other → other = resize := fun other same =>
    Option.some.inj (same.symm.trans active)
  cases step with
  | waiting => exact bounded
  | suppressed output state deleting next =>
      have suppressed : Bounded (xrdpRdpSuppressOutput before true .dynamicResize) :=
        ⟨bounded.lines, bounded.pending, bounded.queued, bounded.active, bounded.sizes⟩
      apply bounded_advanced suppressed output
      intro taken
      rcases next with rfl | rfl <;> simp [takenOver] at taken
  | advanced output state follows =>
      apply bounded_advanced bounded output
      intro taken other same
      rw [only other same]
      exact taken_over_follows follows taken
  | synced output state processed next =>
      refine ⟨bounded.lines, fun x y => inside processed x y, bounded.queued, ?_, ?_⟩
      · intro other same
        obtain ⟨earlier, found, rfl⟩ := Option.map_eq_some_iff.mp same
        exact bounded.active earlier found
      · intro other same _
        obtain ⟨earlier, found, rfl⟩ := Option.map_eq_some_iff.mp same
        rw [← only earlier found]
        rfl
  | resized output moved creating =>
      have formed := bounded.active resize active
      have sizes := bounded.sizes resize active (by rw [creating]; rfl)
      obtain ⟨width, height, lines⟩ := resized_size before.wm.screen resize.description.sessionWidth
        resize.description.sessionHeight moved
      refine ⟨(lines bounded.lines).trans (by rw [← width]; rfl), ?_, bounded.queued, ?_, ?_⟩
      · intro x y _ on_monitor
        have shown : OnMonitor before.wm.clientInfo.displaySizes x y := on_monitor
        rw [sizes] at shown
        have bounds := on_monitor_inside formed shown
        change (screenRect (xrdpBitmapResize before.wm.screen resize.description.sessionWidth
          resize.description.sessionHeight moved)).Covers x y
        simp only [Rect.Covers, screenRect, width, height]
        exact bounds
      · intro other same
        obtain ⟨earlier, found, rfl⟩ := Option.map_eq_some_iff.mp same
        exact bounded.active earlier found
      · intro other same taken
        obtain ⟨earlier, found, rfl⟩ := Option.map_eq_some_iff.mp same
        simp [takenOver] at taken

theorem bounded_ready {before after : Mm R} {answers : ResizeAnswers} (bounded : Bounded before)
    (inside : SyncsInside before (.resizeReady answers)) (step : ReadyStep before answers after) :
    Bounded after := by
  cases step with
  | idle =>
      exact ⟨bounded.lines, bounded.pending, bounded.queued, bounded.active, bounded.sizes⟩
  | started description src rest none_active queued sized =>
      refine ⟨bounded.lines, bounded.pending, ?_, ?_, ?_⟩
      · intro item member
        exact bounded.queued item (queued ▸ List.mem_cons_of_mem _ member)
      · intro resize active
        obtain rfl := Option.some.inj active
        exact bounded.queued { src, description } (by simp [queued]) sized
      · intro resize active taken
        obtain rfl := Option.some.inj active
        simp [takenOver] at taken
  | dropped head rest none_active queued =>
      refine ⟨bounded.lines, bounded.pending, ?_, bounded.active, bounded.sizes⟩
      intro item member
      exact bounded.queued item (queued ▸ List.mem_cons_of_mem _ member)
  | cleared resize active ended =>
      refine ⟨bounded.lines, bounded.pending, bounded.queued, ?_, ?_⟩
      · intro other same
        exact absurd same (by simp)
      · intro other same
        exact absurd same (by simp)
  | stepped resize after processes active step =>
      have waiting : Bounded { before with resizeReady := false } :=
        ⟨bounded.lines, bounded.pending, bounded.queued, bounded.active, bounded.sizes⟩
      exact bounded_resize waiting active (inside processes resize active) step

/-! ## Whole runs -/

theorem bounded_request {before : Mm R} (bounded : Bounded before) (src : ResizeQueueSource)
    {description : DisplaySizeDescription} (formed : HasSize description → WellFormed description) :
    Bounded (addResizeRequestToQueue before src description) := by
  refine ⟨bounded.lines, bounded.pending, ?_, bounded.active, bounded.sizes⟩
  intro item member
  simp only [addResizeRequestToQueue] at member
  rcases List.mem_append.mp member with earlier | new
  · split at earlier
    · exact bounded.queued item (List.dropLast_subset _ earlier)
    · exact bounded.queued item earlier
  · rw [List.mem_singleton.mp new]
    exact formed

theorem bounded_paint {before : Mm R} (bounded : Bounded before) (paint : Paint) :
    Bounded (serverPaint before paint) := by
  have dirty := fun x y => (@pending_paint R _ before paint x y).mp
  have onScreen : ∀ x y, Pending (serverPaint before paint) x y →
      Pending before x y ∨ (screenRect before.wm.screen).Covers x y := by
    intro x y pending
    rcases dirty x y pending with earlier | ⟨-, rect, member, covered⟩
    · exact .inl earlier
    · exact .inr (draw_rects_on_screen member covered)
  unfold serverPaint at onScreen ⊢
  split
  · exact bounded
  · rename_i dirtyRegion painting
    simp only [painting] at onScreen
    exact bounded_dirties bounded (paint_same_size paint.pixels before.wm.screen _) rfl rfl rfl
      onScreen

theorem bounded_end {before : Mm R} (bounded : Bounded before) :
    Bounded (serverEndUpdate before) := by
  have onScreen : ∀ x y, Pending (serverEndUpdate before) x y →
      Pending before x y ∨ (screenRect before.wm.screen).Covers x y := by
    intro x y pending
    rcases (pending_end before x y).mp pending with dirty | ⟨-, painted⟩
    · exact .inl (.inl dirty)
    · exact .inl (.inr painted)
  have size := same_size_refl before.wm.screen
  unfold serverEndUpdate addDirtyRegionToPlanarList at onScreen ⊢
  split
  · exact bounded
  · rename_i dirtyRegion painting
    simp only [painting] at onScreen
    split
    · rename_i graphics
      simp only [graphics, if_true] at onScreen
      split
      · rename_i boxes
        simp only [boxes] at onScreen
        exact bounded_dirties bounded size rfl rfl rfl onScreen
      · rename_i boxes
        simp only [boxes] at onScreen
        exact bounded_dirties bounded size rfl rfl rfl onScreen
    · rename_i other
      rw [if_neg other] at onScreen
      exact bounded_dirties bounded size rfl rfl rfl onScreen

theorem bounded_caps {before : Mm R} (bounded : Bounded before) (best : Option (Int × Int))
    (framesInFlight : Option Int) :
    Bounded (xrdpMmEgfxCapsAdvertise before best framesInFlight) := by
  cases best with
  | none =>
      exact ⟨bounded.lines, bounded.pending, bounded.queued, bounded.active, bounded.sizes⟩
  | some codec =>
      have up : Bounded { before with egfxUp := true } :=
        ⟨bounded.lines, bounded.pending, bounded.queued, bounded.active, bounded.sizes⟩
      have confirmed := bounded_output up (output_only_confirm before codec framesInFlight)
      simp only [xrdpMmEgfxCapsAdvertise]
      have onScreen : ∀ x y, Pending (xrdpMmEgfxInvalidateWmScreen
          (confirmCaps before codec framesInFlight)) x y →
          Pending (confirmCaps before codec framesInFlight) x y ∨
            (screenRect (confirmCaps before codec framesInFlight).wm.screen).Covers x y :=
        fun x y pending => ((pending_invalidate _ x y).mp pending).imp_right And.right
      unfold xrdpMmEgfxInvalidateWmScreen at onScreen ⊢
      split
      · rename_i used
        rw [if_pos used] at onScreen
        exact bounded_dirties confirmed (same_size_refl _) rfl rfl rfl onScreen
      · exact confirmed

theorem event_bounded {before : Mm R} {event : Event} (bounded : Bounded before)
    (permitted : Permitted before event) (inside : SyncsInside before event) :
    Bounded (runEvent before event) := by
  have dirties := @bounded_dirties R _ before
  have size := same_size_refl before.wm.screen
  cases event with
  | beginUpdate => exact dirties bounded size rfl rfl rfl fun _ _ dirty => .inl (pending_begin dirty)
  | paint paint => exact bounded_paint bounded paint
  | endUpdate => exact bounded_end bounded
  | clientSuppressOutput suppress =>
      exact dirties bounded size rfl rfl rfl fun _ _ dirty => .inl dirty
  | coreSuppressOutput suppress =>
      exact dirties bounded size rfl rfl rfl fun _ _ dirty => .inl dirty
  | capsAdvertise best framesInFlight => exact bounded_caps bounded best framesInFlight
  | frameAck suspend frameId =>
      exact bounded_output bounded (output_only_frame_ack before suspend frameId)
  | resizeRequest src description => exact bounded_request bounded src permitted
  | resizeReady answers =>
      exact bounded_ready bounded inside (check_resize_ready_step before answers)
  | monitorResizeDone =>
      simp only [runEvent, serverMonitorResizeDone]
      split
      · exact bounded_advanced bounded (outputOf before) (by simp [takenOver])
      · exact bounded
  | upAndRunning =>
      simp only [runEvent, xrdpMmUpAndRunning]
      split
      · rename_i waiting
        apply bounded_advanced bounded (outputOf before)
        intro _ resize active
        have state : resize.state = .xrdpCoreResetProcessing := by simpa [active] using waiting
        rw [state]
        rfl
      · exact bounded
  | draw now =>
      rcases check_screen_dirty_frame before now with same | ⟨output, same⟩
      · rw [runEvent, same]
        exact bounded
      · rw [runEvent, same]
        refine dirties bounded size rfl rfl rfl ?_
        intro x y dirty
        rcases dirty with none_left | painted
        · exact absurd none_left (not_option_covered_none x y)
        · exact .inl (.inr painted)
  | encDone => exact bounded_output bounded (output_only_enc_done before)
  | workerTakes allocs => exact bounded_output bounded (output_only_encoder before _)
  | workerStep => exact bounded_output bounded (output_only_encoder before _)

omit [Pixman R] in
theorem started_pending [Pixman R] {start : Mm R} (started : Started start) (x y : Int) :
    ¬Pending start x y := by
  simp [Pending, started.clean, started.painter]

theorem started_bounded {start : Mm R} (started : Started start) : Bounded start := by
  refine ⟨started.screen, ?_, ?_, ?_, ?_⟩
  · intro x y pending
    exact absurd pending (started_pending started x y)
  · intro item member
    rw [started.resizeQueue] at member
    exact absurd member List.not_mem_nil
  · intro resize active
    rw [started.resizeData] at active
    exact absurd active (by simp)
  · intro resize active
    rw [started.resizeData] at active
    exact absurd active (by simp)

/-- In every state of every run that takes over monitors only while no pending pixel on
them is outside the screen, draws stay inside. -/
theorem draws_stay_inside {self : Mm R}
    (reachable : (session.restrict SyncsInside).Reachable self) : DrawsInside self := by
  apply bounded_draws
  apply System.reachable_invariant Bounded _ _ reachable
  · exact fun _ started => started_bounded started
  · intro before event after bounded stepped
    obtain ⟨inside, permitted, rfl⟩ := stepped
    exact event_bounded bounded permitted inside

/-- The condition is needed: where a dirty pixel breaks it, a draw that follows the step
at once leaves the screen. -/
theorem taken_over_outside {before : Mm R} {answers : ResizeAnswers}
    (processes : Processes before answers) {resize : DisplayControlMonitorLayoutData}
    (active : before.resizeData = some resize)
    (processed : resize.state = .serverMonitorMessageProcessed) {region : R}
    (dirty : before.wm.screenDirtyRegion = some region) {x y : Int} (covered : Covered region x y)
    (on_monitor : OnMonitor resize.description x y)
    (outside : ¬(screenRect before.wm.screen).Covers x y) :
    (runEvent before (.resizeReady answers)).wm.screenDirtyRegion = some region ∧
      ∃ call ∈ drawCalls (runEvent before (.resizeReady answers)) region, ∃ rect ∈ call.rects,
        ¬rect.Inside (screenRect (runEvent before (.resizeReady answers)).wm.screen) := by
  obtain ⟨ready, can_resize, module⟩ := processes
  have after : runEvent before (.resizeReady answers) =
      serverMonitorMessageProcessed { before with resizeReady := false } resize.description := by
    simp only [runEvent, checkResizeReady, ready, if_true, dynamicMonitorProcessQueue, can_resize,
      active, processed, processDisplayControlMonitorLayoutData, module]
    simp
  rw [after]
  refine ⟨dirty, ?_⟩
  have some_pixel := (not_empty_covers region).mpr ⟨x, y, covered⟩
  by_contra inside
  push Not at inside
  apply outside
  exact (@draw_calls_inside_iff R _ (serverMonitorMessageProcessed
    { before with resizeReady := false } resize.description) region some_pixel).mp inside x y covered
    on_monitor

theorem clean_inside {self : Mm R} (clean : self.wm.screenDirtyRegion.isNone = true)
    (closed : self.painter.isNone = true) (event : Event) : SyncsInside self event := by
  have nothing : ∀ x y, ¬Pending self x y := by
    simp [Pending, Option.isNone_iff_eq_none.mp clean, Option.isNone_iff_eq_none.mp closed]
  unfold SyncsInside
  split
  · intro _ _ _ _ x y pending
    exact absurd pending (nothing x y)
  · trivial

/-- The screen is drawn, grows, and is painted again. -/
def paintedAfterResize : List Event :=
  [.capsAdvertise (some (1, 0)) (some 2), .draw 100, .resizeRequest .fromClient (pixelSizes 2)] ++
    List.replicate 6 (.resizeReady resizeWorks) ++
      [.beginUpdate,
        .paint { x := 0, y := 0, cx := 2, cy := 1, visible := [pixelRow 2]
                 pixels := fun _ _ => { b := 1, g := 2, r := 3, a := 4 } },
        .endUpdate]

theorem draws_stay_inside_painted :
    DrawsInside (runEvents (startedSession 1 false) paintedAfterResize) := by
  apply draws_stay_inside
  refine ⟨_, paintedAfterResize, started_session 1 false, restricted_run_of_events ?_ ?_⟩
  · exact ⟨trivial, trivial, fun _ => by decide, trivial, trivial, trivial, trivial, trivial, trivial,
      rfl, trivial, trivial, trivial⟩
  · refine ⟨trivial, trivial, trivial, ?_, ?_, ?_, ?_, ?_, ?_, trivial, trivial, trivial, trivial⟩
    all_goals apply clean_inside <;> decide +kernel

/-- With the whole screen dirty the desktop shrinks and is about to grow again. -/
def shrunkAndGrown : List Event :=
  [.capsAdvertise (some (1, 0)) (some 2), .resizeRequest .fromClient (pixelSizes 1)] ++
    List.replicate 7 (.resizeReady resizeWorks) ++
      .resizeRequest .fromClient (pixelSizes 2) :: List.replicate 5 (.resizeReady resizeWorks)

theorem draw_outside_screen :
    session.Reachable (runEvents (startedSession 2 false) shrunkAndGrown) ∧
      ¬DrawsInside (runEvents (startedSession 2 false) shrunkAndGrown) := by
  constructor
  · refine ⟨_, shrunkAndGrown, started_session 2 false, run_of_events ?_⟩
    exact ⟨trivial, fun _ => by decide, trivial, trivial, trivial, trivial, trivial, trivial, trivial,
      fun _ => by decide, trivial, trivial, trivial, trivial, trivial, trivial⟩
  · intro inside
    have drawn : (runEvents (startedSession 2 false) shrunkAndGrown).wm.screenDirtyRegion.any
        (fun region => decide (DrawDue (runEvents (startedSession 2 false) shrunkAndGrown) region 100 ∧
          ∃ call ∈ drawCalls (runEvents (startedSession 2 false) shrunkAndGrown) region,
            ∃ rect ∈ call.rects, (runEvents (startedSession 2 false) shrunkAndGrown).wm.screen.width <
              rect.right)) = true := by
      decide +kernel
    obtain ⟨region, dirty, found⟩ := (Option.any_eq_true _ _).mp drawn
    obtain ⟨due, call, member, rect, passed, outside⟩ := of_decide_eq_true found
    have right := (inside region dirty 100 due call member rect passed).columns.2.2
    generalize (runEvents (startedSession 2 false) shrunkAndGrown).wm.screen.width = width
      at right outside
    omega

end XrdpConsole.ScreenBounds
