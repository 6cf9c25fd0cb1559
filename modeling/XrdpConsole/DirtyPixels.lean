import XrdpConsole.MmSession
import XrdpConsole.PlanarTiles

/-!
# Dirty pixels

The pixels that wait to be sent: those of the dirty region of the screen and those
a painter has written in an update that is still open. Painting adds what it writes,
and only pixels of the screen.
-/

namespace XrdpConsole.DirtyPixels

open XrdpConsole.Library
open XrdpConsole.Region
open XrdpConsole.VncState
open XrdpConsole.PlanarCompress
open XrdpConsole.MmState
open XrdpConsole.PlanarTiles
open XrdpConsole.MmSession

set_option autoImplicit false

variable {R : Type} [Pixman R]

def OptionCovered (region : Option R) (x y : Int) : Prop :=
  ∃ covering, region = some covering ∧ Covered covering x y

/-- The pixel is dirty, or will be once the open update ends. -/
def Pending (self : Mm R) (x y : Int) : Prop :=
  OptionCovered self.wm.screenDirtyRegion x y ∨ OptionCovered self.painter x y

@[simp] theorem not_option_covered_none (x y : Int) : ¬OptionCovered (none : Option R) x y := by
  rintro ⟨region, absent, -⟩
  exact absurd absent (by simp)

@[simp] theorem option_covered_some (region : R) (x y : Int) :
    OptionCovered (some region) x y ↔ Covered region x y := by
  constructor
  · rintro ⟨other, same, covered⟩
    obtain rfl := Option.some.inj same
    exact covered
  · intro covered
    exact ⟨region, rfl, covered⟩

/-- A region that is created when there is none yet covers what was covered before. -/
@[simp] theorem covered_get_create (region : Option R) (x y : Int) :
    Covered (region.getD xrdpRegionCreate) x y ↔ OptionCovered region x y := by
  cases region with
  | none => simp [covered_create]
  | some region => simp

/-! ## Updates -/

theorem covered_dirty_rects (region : R) (rects : List Rect) (x y : Int) :
    Covered (rects.foldl xrdpPainterAddDirtyRect region) x y ↔
      Covered region x y ∨ ∃ rect ∈ rects, rect.Covers x y := by
  induction rects generalizing region with
  | nil => simp
  | cons rect rects ih =>
      have first : Covered (xrdpPainterAddDirtyRect region rect) x y ↔
          Covered region x y ∨ rect.Covers x y := by
        unfold xrdpPainterAddDirtyRect
        split
        · have empty : ¬rect.Covers x y := by
            simp only [Rect.Covers]
            omega
          simp [empty]
        · exact covered_add_rect region rect x y
      rw [List.foldl_cons, ih, first]
      simp [or_assoc]

theorem draw_rects_on_screen {paint : Paint} {screen : Bitmap} {rect : Rect} {x y : Int}
    (member : rect ∈ paint.drawRects screen) (covered : rect.Covers x y) :
    (screenRect screen).Covers x y := by
  obtain ⟨visible, -, rfl⟩ := List.mem_map.mp member
  rw [Rect.covers_inter, Rect.covers_inter] at covered
  exact covered.1.2

/-- The dimensions of a bitmap, which painting leaves alone. -/
def SameSize (before after : Bitmap) : Prop :=
  after.width = before.width ∧ after.height = before.height ∧ after.lineSize = before.lineSize

theorem paint_same_size (pixels : Int → Int → Pixel) (screen : Bitmap) (rects : List Rect) :
    SameSize screen (rects.foldl (paintRect pixels) screen) := by
  induction rects generalizing screen with
  | nil => exact ⟨rfl, rfl, rfl⟩
  | cons rect rects ih => exact ih (paintRect pixels screen rect)

/-- Pixels outside the painted rectangles keep their colour. -/
theorem paint_keeps (pixels : Int → Int → Pixel) {screen : Bitmap} {rects : List Rect} {x y : Int}
    (lines : screen.lineSize = screen.width * 4) (column : 0 ≤ x ∧ x < screen.width)
    (outside : ∀ rect ∈ rects, ¬rect.Covers x y) :
    bitmapPixel (rects.foldl (paintRect pixels) screen) x y = bitmapPixel screen x y := by
  induction rects generalizing screen with
  | nil => rfl
  | cons rect rects ih =>
      rw [List.foldl_cons, @ih (paintRect pixels screen rect) lines column fun other member =>
        outside other (List.mem_cons_of_mem rect member)]
      have other := outside rect (List.mem_cons_self ..)
      have kept : ∀ byte : Int, 0 ≤ byte → byte < 4 →
          (paintRect pixels screen rect).data (screen.lineSize * y + x * 4 + byte) =
            screen.data (screen.lineSize * y + x * 4 + byte) := by
        intro byte lower upper
        have inLine : (screen.lineSize * y + x * 4 + byte) % screen.lineSize = x * 4 + byte := by
          rw [Int.add_assoc, Int.mul_add_emod_self_left]
          exact Int.emod_eq_of_lt (by omega) (by omega)
        have line : (screen.lineSize * y + x * 4 + byte) / screen.lineSize = y := by
          rw [Int.add_assoc, Int.mul_add_ediv_left _ _ (by omega),
            Int.ediv_eq_zero_of_lt (by omega) (by omega), Int.add_zero]
        simp only [paintRect, inLine, line, show (x * 4 + byte) / 4 = x by omega, other, if_false]
      have same := kept 0 (by omega) (by omega)
      rw [Int.add_zero] at same
      have size := paint_same_size pixels screen [rect]
      simp only [List.foldl_cons, List.foldl_nil] at size
      simp only [bitmapPixel, pixelAt, size.2.2, same, kept 1 (by omega) (by omega),
        kept 2 (by omega) (by omega), kept 3 (by omega) (by omega)]

theorem pending_begin {self : Mm R} {x y : Int} (pending : Pending (serverBeginUpdate self) x y) :
    Pending self x y := by
  rcases pending with dirty | painted
  · exact .inl dirty
  · simp [serverBeginUpdate, covered_create] at painted

/-- Painting adds what it writes, as far as the screen goes. -/
theorem pending_paint {self : Mm R} {paint : Paint} {x y : Int} :
    Pending (serverPaint self paint) x y ↔ Pending self x y ∨
      self.painter.isSome = true ∧ ∃ rect ∈ paint.drawRects self.wm.screen, rect.Covers x y := by
  unfold serverPaint
  cases painting : self.painter with
  | none => simp
  | some dirtyRegion =>
      simp only [Pending, option_covered_some, covered_dirty_rects, painting, Option.isSome_some,
        true_and, or_assoc]

theorem planar_list_covered (self : Mm R) (dirtyRegion : R) (x y : Int) :
    OptionCovered (addDirtyRegionToPlanarList self dirtyRegion).wm.screenDirtyRegion x y ↔
      OptionCovered self.wm.screenDirtyRegion x y ∨ Covered dirtyRegion x y := by
  unfold addDirtyRegionToPlanarList
  split
  · rename_i boxes
    simp [Covered, boxes]
  · rename_i rect rest boxes
    simp only [option_covered_some, covered_add_rects, covered_get_create]
    rw [← boxes]
    exact Iff.rfl

/-- With graphics on, the end of an update loses nothing. -/
theorem pending_end (self : Mm R) (x y : Int) :
    Pending (serverEndUpdate self) x y ↔ OptionCovered self.wm.screenDirtyRegion x y ∨
      self.wm.clientInfo.gfx = true ∧ OptionCovered self.painter x y := by
  unfold serverEndUpdate
  cases painting : self.painter with
  | none => simp [Pending, painting]
  | some dirtyRegion =>
      simp only [Pending, not_option_covered_none, or_false, option_covered_some]
      split
      · rename_i graphics
        rw [planar_list_covered, graphics]
        simp
      · rename_i other
        simp [other]

theorem pending_invalidate (self : Mm R) (x y : Int) :
    Pending (xrdpMmEgfxInvalidateWmScreen self) x y ↔ Pending self x y ∨
      (self.modUsesWmScreenForGfx || !self.modHandle) = true ∧
        (screenRect self.wm.screen).Covers x y := by
  unfold xrdpMmEgfxInvalidateWmScreen
  split
  · rename_i used
    simp only [Pending, option_covered_some, covered_add_rect, covered_get_create, used, true_and]
    tauto
  · rename_i other
    simp [other]

end XrdpConsole.DirtyPixels
