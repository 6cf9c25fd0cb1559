import XrdpConsole.Library.PixelRect

/-!
# Dirty regions

`xrdp/xrdp_region.c` as the display path is verified over it: a class of region operations with the
pixels they cover, of which the vendored functions of `common/pixman-region.c` are an instance
(`RegionHistory.CanonicalRegion`). They cut the sides of a rectangle to 16 bits, and `init_rect_covers`
has no bound; the rectangles that reach a region are the screen, what paints touch of it, its monitors
and the boxes of other regions, none of which is cut on a desktop of at most 32767 pixels a side.
Memory for a region is taken to be available.
-/

namespace XrdpConsole.Region

open XrdpConsole.Library

set_option autoImplicit false

/-- `rectangles` is the box list that `pixman_region_rectangles` gives, and
`extents` the box of `pixman_region_extents`. -/
class Pixman (R : Type) where
  init : R
  initRect : Rect → R
  union : R → R → R
  intersect : R → R → R
  rectangles : R → List Rect
  extents : R → Rect
  notEmpty : R → Bool
  rectangles_init : rectangles init = []
  rectangles_solid : ∀ region, ∀ rect ∈ rectangles region, rect.Solid
  init_rect_covers : ∀ rect x y,
    (∃ box ∈ rectangles (initRect rect), box.Covers x y) ↔ rect.Covers x y
  union_covers : ∀ left right x y, (∃ box ∈ rectangles (union left right), box.Covers x y) ↔
    (∃ box ∈ rectangles left, box.Covers x y) ∨ ∃ box ∈ rectangles right, box.Covers x y
  intersect_covers : ∀ left right x y,
    (∃ box ∈ rectangles (intersect left right), box.Covers x y) ↔
      (∃ box ∈ rectangles left, box.Covers x y) ∧ ∃ box ∈ rectangles right, box.Covers x y
  extents_bounding : ∀ region first rest, rectangles region = first :: rest →
    extents region = Rect.boundingBox first rest
  not_empty_rectangles : ∀ region, notEmpty region = true ↔ rectangles region ≠ []

variable {R : Type} [Pixman R]

def xrdpRegionCreate : R := Pixman.init

def xrdpRegionAddRect (self : R) (rect : Rect) : R := Pixman.union self (Pixman.initRect rect)

def xrdpRegionIntersectRect (self : R) (rect : Rect) : R :=
  Pixman.intersect self (Pixman.initRect rect)

def xrdpRegionGetRect (self : R) (index : Nat) : Option Rect := (Pixman.rectangles self)[index]?

def xrdpRegionGetBounds (self : R) : Rect := Pixman.extents self

def xrdpRegionNotEmpty (self : R) : Bool := Pixman.notEmpty self

/-- The pixels of a region. -/
def Covered (region : R) (x y : Int) : Prop :=
  ∃ rect ∈ Pixman.rectangles region, rect.Covers x y

theorem covered_create (x y : Int) : ¬Covered (xrdpRegionCreate : R) x y := by
  simp [Covered, xrdpRegionCreate, Pixman.rectangles_init]

@[simp] theorem covered_add_rect (region : R) (rect : Rect) (x y : Int) :
    Covered (xrdpRegionAddRect region rect) x y ↔ Covered region x y ∨ rect.Covers x y := by
  rw [Covered, xrdpRegionAddRect, Pixman.union_covers, Pixman.init_rect_covers]
  exact Iff.rfl

@[simp] theorem covered_intersect_rect (region : R) (rect : Rect) (x y : Int) :
    Covered (xrdpRegionIntersectRect region rect) x y ↔ Covered region x y ∧ rect.Covers x y := by
  rw [Covered, xrdpRegionIntersectRect, Pixman.intersect_covers, Pixman.init_rect_covers]
  exact Iff.rfl

theorem not_empty_covers (region : R) :
    xrdpRegionNotEmpty region = true ↔ ∃ x y, Covered region x y := by
  rw [xrdpRegionNotEmpty, Pixman.not_empty_rectangles]
  constructor
  · intro some_rect
    obtain ⟨rect, member⟩ := List.exists_mem_of_ne_nil _ some_rect
    exact ⟨rect.left, rect.top, rect, member,
      Rect.solid_covers (Pixman.rectangles_solid region rect member)⟩
  · rintro ⟨x, y, rect, member, -⟩ none_left
    rw [none_left] at member
    exact List.not_mem_nil member

/-- The loop that adds the rectangles of a region one by one. -/
def addRects (region : R) (rects : List Rect) : R := rects.foldl xrdpRegionAddRect region

@[simp] theorem covered_add_rects (region : R) (rects : List Rect) (x y : Int) :
    Covered (addRects region rects) x y ↔
      Covered region x y ∨ ∃ rect ∈ rects, rect.Covers x y := by
  induction rects generalizing region with
  | nil => simp [addRects]
  | cons rect rects ih =>
      rw [addRects, List.foldl_cons]
      have rest := ih (xrdpRegionAddRect region rect)
      rw [addRects] at rest
      rw [rest, covered_add_rect]
      simp [or_assoc]

theorem covered_bounds {region : R} {x y : Int} (covered : Covered region x y) :
    (xrdpRegionGetBounds region).Covers x y := by
  rw [xrdpRegionGetBounds]
  cases boxes : Pixman.rectangles region with
  | nil => simp [Covered, boxes] at covered
  | cons first rest =>
      rw [Pixman.extents_bounding region first rest boxes]
      apply Rect.bounding_box_covers
      rwa [Covered, boxes] at covered

/-- A rectangle that covers every pixel of a region has its boxes and its bounds
inside. -/
theorem rectangles_inside {region : R} {outer : Rect}
    (within : ∀ x y, Covered region x y → outer.Covers x y) {rect : Rect}
    (member : rect ∈ Pixman.rectangles region) : rect.Inside outer := by
  apply Rect.inside_of_covers (Pixman.rectangles_solid region rect member)
  intro x y covered
  exact within x y ⟨rect, member, covered⟩

theorem bounds_inside {region : R} {outer : Rect}
    (within : ∀ x y, Covered region x y → outer.Covers x y)
    (some_rect : xrdpRegionNotEmpty region = true) :
    (xrdpRegionGetBounds region).Inside outer := by
  rw [xrdpRegionNotEmpty, Pixman.not_empty_rectangles] at some_rect
  cases boxes : Pixman.rectangles region with
  | nil => exact absurd boxes some_rect
  | cons first rest =>
      rw [xrdpRegionGetBounds, Pixman.extents_bounding region first rest boxes]
      apply Rect.bounding_box_inside
      intro rect member
      exact rectangles_inside within (boxes ▸ member)

/-! ## Regions as lists of boxes -/

structure BoxList where
  boxes : List Rect
  solid : ∀ rect ∈ boxes, rect.Solid

namespace BoxList

def initRect (rect : Rect) : BoxList where
  boxes := [rect].filter fun box => box.Solid
  solid box member := by simpa using (List.mem_filter.mp member).2

def insideSome (boxes : List Rect) (rect : Rect) : Bool := boxes.any fun box => rect.Inside box

/-- Boxes inside another one are dropped. Boxes that overlap otherwise stay as they
are, and where none do this is the region pixman keeps. -/
def union (left right : BoxList) : BoxList where
  boxes :=
    let kept := left.boxes.filter fun box => !insideSome right.boxes box
    kept ++ right.boxes.filter fun box => !insideSome kept box
  solid rect member := by
    rcases List.mem_append.mp member with kept | added
    · exact left.solid rect (List.mem_filter.mp kept).1
    · exact right.solid rect (List.mem_filter.mp added).1

def intersect (left right : BoxList) : BoxList where
  boxes := (left.boxes.flatMap fun rect => right.boxes.map rect.inter).filter fun box => box.Solid
  solid box member := by simpa using (List.mem_filter.mp member).2

theorem covers_filter_outside (boxes others : List Rect) (x y : Int) :
    ((∃ box ∈ boxes.filter fun box => !insideSome others box, box.Covers x y) ∨
        ∃ box ∈ others, box.Covers x y) ↔
      (∃ box ∈ boxes, box.Covers x y) ∨ ∃ box ∈ others, box.Covers x y := by
  constructor
  · rintro (⟨box, member, covered⟩ | other)
    · exact .inl ⟨box, (List.mem_filter.mp member).1, covered⟩
    · exact .inr other
  · rintro (⟨box, member, covered⟩ | other)
    · by_cases dropped : insideSome others box
      · simp only [insideSome, List.any_eq_true, decide_eq_true_eq] at dropped
        rcases dropped with ⟨other, otherMember, inside⟩
        exact .inr ⟨other, otherMember, Rect.inside_covers inside covered⟩
      · exact .inl ⟨box, List.mem_filter.mpr ⟨member, by simpa using dropped⟩, covered⟩
    · exact .inr other

theorem union_covers (left right : BoxList) (x y : Int) :
    (∃ box ∈ (union left right).boxes, box.Covers x y) ↔
      (∃ box ∈ left.boxes, box.Covers x y) ∨ ∃ box ∈ right.boxes, box.Covers x y := by
  have keptSame := covers_filter_outside left.boxes right.boxes x y
  have addedSame := covers_filter_outside right.boxes
    (left.boxes.filter fun box => !insideSome right.boxes box) x y
  simp only [union, List.mem_append, or_and_right, exists_or]
  rw [← keptSame, or_comm, addedSame, or_comm]

theorem intersect_covers (left right : BoxList) (x y : Int) :
    (∃ box ∈ (intersect left right).boxes, box.Covers x y) ↔
      (∃ box ∈ left.boxes, box.Covers x y) ∧ ∃ box ∈ right.boxes, box.Covers x y := by
  constructor
  · rintro ⟨box, member, covered⟩
    obtain ⟨first, firstMember, paired⟩ := List.mem_flatMap.mp (List.mem_filter.mp member).1
    obtain ⟨second, secondMember, rfl⟩ := List.mem_map.mp paired
    have both := (Rect.covers_inter first second x y).mp covered
    exact ⟨⟨first, firstMember, both.1⟩, ⟨second, secondMember, both.2⟩⟩
  · rintro ⟨⟨first, firstMember, covered⟩, ⟨second, secondMember, coveredToo⟩⟩
    have both := (Rect.covers_inter first second x y).mpr ⟨covered, coveredToo⟩
    have solid : (first.inter second).Solid := Rect.solid_of_covers both
    exact ⟨first.inter second, List.mem_filter.mpr ⟨List.mem_flatMap.mpr
      ⟨first, firstMember, List.mem_map_of_mem secondMember⟩, by simpa using solid⟩, both⟩

theorem init_rect_covers (rect : Rect) (x y : Int) :
    (∃ box ∈ (initRect rect).boxes, box.Covers x y) ↔ rect.Covers x y := by
  constructor
  · rintro ⟨box, member, covered⟩
    rwa [← List.mem_singleton.mp (List.mem_filter.mp member).1]
  · intro covered
    have solid := Rect.solid_of_covers covered
    exact ⟨rect, List.mem_filter.mpr ⟨List.mem_singleton.mpr rfl, by simpa using solid⟩, covered⟩

end BoxList

instance : Pixman BoxList where
  init := ⟨[], by simp⟩
  initRect := BoxList.initRect
  union := BoxList.union
  intersect := BoxList.intersect
  rectangles := BoxList.boxes
  extents region := match region.boxes with
    | [] => { left := 0, top := 0, right := 0, bottom := 0 }
    | first :: rest => Rect.boundingBox first rest
  notEmpty region := !region.boxes.isEmpty
  rectangles_init := rfl
  rectangles_solid := BoxList.solid
  init_rect_covers := BoxList.init_rect_covers
  union_covers := BoxList.union_covers
  intersect_covers := BoxList.intersect_covers
  extents_bounding region first rest boxes := by simp only [boxes]
  not_empty_rectangles region := by simp

end XrdpConsole.Region
