import XrdpConsole.PixmanSets
import XrdpConsole.Region

/-!
# Regions over whole runs

Any sequence of additions, subtractions and intersections of rectangles leaves a region that passes
the self-check, with boxes for the pixels that the sequence leaves and the smallest bounds; what it
hands out depends on these pixels only. The vendored functions are an instance of the region
interface of the display path.
-/

namespace XrdpConsole.PixmanRegion

open XrdpConsole.Library

set_option autoImplicit false

/-! ## The self-check -/

theorem selfcheck_step_before {prev next : Box} (solid : next.Solid) (prevSolid : prev.Solid)
    (before : BoxBefore prev next) (bounds : Box) :
    selfcheckStep prev (some bounds) next = some (setExtentsStep bounds next) := by
  simp only [Box.Solid, BoxBefore] at *
  simp only [selfcheckStep, ge_iff_le, Bool.or_eq_true, decide_eq_true_eq, Bool.and_eq_true,
    beq_iff_eq, bne_iff_ne]
  rw [if_neg (by omega), if_neg (by omega)]

theorem selfcheck_loop_before {prev : Box} {rest : List Box} (bounds : Box)
    (solid : ∀ box ∈ prev :: rest, box.Solid) (before : (prev :: rest).Pairwise BoxBefore) :
    selfcheckLoop prev rest (some bounds) = some (rest.foldl setExtentsStep bounds) := by
  induction rest generalizing prev bounds with
  | nil => rfl
  | cons next rest ih =>
      have first := List.rel_of_pairwise_cons before (List.mem_cons_self ..)
      rw [selfcheckLoop, selfcheck_step_before (solid next (by simp)) (solid prev (by simp)) first]
      exact ih _ (fun box member => solid box (List.mem_cons_of_mem _ member)) before.of_cons

theorem canonical_selfcheck {reg : PixRegion} (canonical : Canonical reg) :
    pixmanRegionSelfcheck reg = true := by
  have solid : ∀ box ∈ reg.rects, box.Solid := fun box member => canonical_solid canonical member
  have before := canonical_before canonical
  have tight := canonical.tight
  have flat := canonical.flat
  have single := canonical.single
  rw [PixRegion.numRects] at single
  rw [pixmanRegionSelfcheck]
  generalize reg.rects = boxes at *
  cases boxes with
  | nil =>
      have sides := flat rfl
      rw [if_neg (by simp only [Bool.or_eq_true, decide_eq_true_eq]; omega)]
      simp [sides]
  | cons box rest =>
      have around := tight (List.cons_ne_nil box rest)
      have ordered : ¬(decide (reg.extents.x1 > reg.extents.x2) ||
          decide (reg.extents.y1 > reg.extents.y2)) = true := by
        obtain ⟨y, left⟩ := around.left
        have inside := (in_box_iff _ _ _).mp (around.inside _ _ left)
        simp only [Bool.or_eq_true, decide_eq_true_eq]
        omega
      rw [if_neg ordered]
      cases rest with
      | nil => simp [single rfl]
      | cons next rest =>
          simp only
          rw [selfcheck_loop_before _ solid before, beq_iff_eq, Option.some_inj]
          apply tight_unique _ around
          apply fold_extents_tight solid before
          · exact ⟨rfl, rfl⟩
          · exact ⟨box, List.mem_cons_self .., rfl⟩
          · exact ⟨box, List.mem_cons_self .., rfl⟩
          · intro other member
            rcases List.mem_cons.mp member with rfl | later
            · exact .inr ⟨le_rfl, le_rfl⟩
            · exact .inl later
          · intro other member
            exact List.mem_cons_of_mem _ member

/-! ## One form for each set of pixels -/

theorem banded_at_iff {bands : List Band} (banded : Banded bands) (y : Int)
    (label : List (Run Int Unit)) :
    Run.At bands y label ↔ (label ≠ [] ∧ Run.Normal label) ∧
      ∀ x, Run.At label x () ↔ Covered (bandsBoxes bands) x y := by
  have covers : ∀ own, Run.At bands y own →
      ∀ x, Run.At own x () ↔ Covered (bandsBoxes bands) x y := by
    intro own found x
    rw [covered_bands_boxes]
    constructor
    · intro across
      rcases found with ⟨band, member, lower, upper, rfl⟩
      exact ⟨band, member, ⟨lower, upper⟩, across⟩
    · rintro ⟨band, member, down, across⟩
      have there : Run.At bands y band.label := ⟨band, member, down.1, down.2, rfl⟩
      rwa [Run.normal_at_unique banded.normal found there]
  have rows : ∀ own, Run.At bands y own → own ≠ [] ∧ Run.Normal own := by
    rintro own ⟨band, member, -, -, rfl⟩
    exact banded.rows band member
  constructor
  · intro found
    exact ⟨rows label found, covers label found⟩
  · rintro ⟨⟨some_span, normal⟩, meaning⟩
    obtain ⟨span, rest, rfl⟩ := List.exists_cons_of_ne_nil some_span
    have solid := normal.solid span (List.mem_cons_self ..)
    have first := (meaning span.low).mp (by simp [solid])
    obtain ⟨band, member, down, -⟩ := (covered_bands_boxes _ _ _).mp first
    have there : Run.At bands y band.label := ⟨band, member, down.1, down.2, rfl⟩
    have same : band.label = span :: rest := by
      apply Run.normal_unique (rows band.label there).2 normal
      intro x _
      exact (covers band.label there x).trans (meaning x).symm
    exact same ▸ there

theorem banded_unique {bands others : List Band} (banded : Banded bands) (also : Banded others)
    (same : ∀ x y, Covered (bandsBoxes bands) x y ↔ Covered (bandsBoxes others) x y) :
    bands = others := by
  apply Run.normal_unique banded.normal also.normal
  intro y label
  rw [banded_at_iff banded, banded_at_iff also]
  simp only [same]

/-- The boxes of a canonical region, and the extents of one that is not empty, are given by its
pixels. -/
theorem canonical_unique {reg other : PixRegion} (canonical : Canonical reg)
    (also : Canonical other) (same : ∀ x y, reg.Has x y ↔ other.Has x y) :
    reg.rects = other.rects ∧ (reg.rects ≠ [] → reg.extents = other.extents) := by
  obtain ⟨bands, banded, boxes⟩ := canonical.banded
  obtain ⟨others, otherBanded, otherBoxes⟩ := also.banded
  have equal : reg.rects = other.rects := by
    rw [boxes, otherBoxes, banded_unique banded otherBanded]
    intro x y
    rw [← boxes, ← otherBoxes]
    exact same x y
  refine ⟨equal, fun filled => ?_⟩
  apply tight_unique (canonical.tight filled)
  rw [equal]
  exact also.tight (equal ▸ filled)

/-! ## Any two canonical regions -/

theorem pixman_operations_exact (reg1 reg2 : PixRegion) (canonical1 : Canonical reg1)
    (canonical2 : Canonical reg2) :
    (Canonical (pixmanRegionUnion reg1 reg2) ∧
        ∀ x y, (pixmanRegionUnion reg1 reg2).Has x y ↔ reg1.Has x y ∨ reg2.Has x y) ∧
      (Canonical (pixmanRegionIntersect reg1 reg2) ∧
        ∀ x y, (pixmanRegionIntersect reg1 reg2).Has x y ↔ reg1.Has x y ∧ reg2.Has x y) ∧
      (Canonical (pixmanRegionSubtract reg1 reg2) ∧
        ∀ x y, (pixmanRegionSubtract reg1 reg2).Has x y ↔ reg1.Has x y ∧ ¬reg2.Has x y) :=
  ⟨union_region canonical1 canonical2, intersect_region canonical1 canonical2,
    subtract_region canonical1 canonical2⟩

theorem pixman_operations_exact_boxes :
    let reg1 : PixRegion := { extents := { x1 := 0, y1 := 0, x2 := 10, y2 := 10 }, data := none }
    let reg2 : PixRegion := { extents := { x1 := 5, y1 := 5, x2 := 20, y2 := 20 }, data := none }
    (Canonical (pixmanRegionUnion reg1 reg2) ∧
        ∀ x y, (pixmanRegionUnion reg1 reg2).Has x y ↔ reg1.Has x y ∨ reg2.Has x y) ∧
      (Canonical (pixmanRegionIntersect reg1 reg2) ∧
        ∀ x y, (pixmanRegionIntersect reg1 reg2).Has x y ↔ reg1.Has x y ∧ reg2.Has x y) ∧
      (Canonical (pixmanRegionSubtract reg1 reg2) ∧
        ∀ x y, (pixmanRegionSubtract reg1 reg2).Has x y ↔ reg1.Has x y ∧ ¬reg2.Has x y) := by
  apply pixman_operations_exact
  · exact canonical_box ⟨by decide, by decide⟩
  · exact canonical_box ⟨by decide, by decide⟩

/-! ## Sequences of operations -/

theorem to_short_unsigned (start stop : Int) :
    toShort (unsignedInt (start + unsignedInt (stop - start))) = toShort stop := by
  simp only [toShort, unsignedInt, Int.bmod]
  omega

/-- The rectangle with its sides as `signed short`. -/
def shortRect (rect : Rect) : Rect where
  left := toShort rect.left
  top := toShort rect.top
  right := toShort rect.right
  bottom := toShort rect.bottom

theorem to_box_region_eq (rect : Rect) :
    toBoxRegion rect = initExtents {
      x1 := toShort rect.left
      y1 := toShort rect.top
      x2 := toShort rect.right
      y2 := toShort rect.bottom } := by
  rw [toBoxRegion, pixmanRegionInitRect, to_short_unsigned, to_short_unsigned]

theorem has_init_extents (extents : Box) (x y : Int) :
    (initExtents extents).Has x y ↔ extents.inBox x y = true := by
  rw [initExtents]
  split
  · exact has_box extents x y
  · next bad =>
      simp only [Box.good, Bool.and_eq_true, decide_eq_true_eq] at bad
      rw [in_box_iff]
      apply iff_of_false (has_nil emptyBox x y)
      omega

theorem to_rect_covers (box : Box) (x y : Int) :
    box.toRect.Covers x y ↔ box.inBox x y = true := by
  rw [in_box_iff]
  simp only [Box.toRect, Rect.Covers]
  omega

theorem has_to_box_region (rect : Rect) (x y : Int) :
    (toBoxRegion rect).Has x y ↔ (shortRect rect).Covers x y := by
  rw [to_box_region_eq, has_init_extents, ← to_rect_covers]
  rfl

inductive RegionOp where
  | add (rect : Rect)
  | subtract (rect : Rect)
  | intersect (rect : Rect)
  deriving DecidableEq, Repr

def applyOp (self : PixRegion) : RegionOp → PixRegion
  | .add rect => xrdpRegionAddRect self rect
  | .subtract rect => xrdpRegionSubtractRect self rect
  | .intersect rect => xrdpRegionIntersectRect self rect

def runOps (ops : List RegionOp) : PixRegion := ops.foldl applyOp xrdpRegionCreate

/-- The set of pixels after an operation. -/
def opPixels (pixels : Int → Int → Prop) (op : RegionOp) (x y : Int) : Prop :=
  match op with
  | .add rect => pixels x y ∨ (shortRect rect).Covers x y
  | .subtract rect => pixels x y ∧ ¬(shortRect rect).Covers x y
  | .intersect rect => pixels x y ∧ (shortRect rect).Covers x y

def runPixels (ops : List RegionOp) : Int → Int → Prop := ops.foldl opPixels fun _ _ => False

theorem apply_op_region {self : PixRegion} {pixels : Int → Int → Prop}
    (canonical : Canonical self) (meaning : ∀ x y, self.Has x y ↔ pixels x y) (op : RegionOp) :
    Canonical (applyOp self op) ∧ ∀ x y, (applyOp self op).Has x y ↔ opPixels pixels op x y := by
  cases op with
  | add rect =>
      have result := union_region canonical (to_box_region_eq rect ▸ canonical_init_extents _)
      refine ⟨result.1, fun x y => ?_⟩
      rw [applyOp, xrdpRegionAddRect, result.2, meaning, has_to_box_region, opPixels]
  | subtract rect =>
      have result := subtract_region canonical (to_box_region_eq rect ▸ canonical_init_extents _)
      refine ⟨result.1, fun x y => ?_⟩
      rw [applyOp, xrdpRegionSubtractRect, result.2, meaning, has_to_box_region, opPixels]
  | intersect rect =>
      have result := intersect_region canonical (to_box_region_eq rect ▸ canonical_init_extents _)
      refine ⟨result.1, fun x y => ?_⟩
      rw [applyOp, xrdpRegionIntersectRect, result.2, meaning, has_to_box_region, opPixels]

theorem run_ops_region (ops : List RegionOp) :
    Canonical (runOps ops) ∧ ∀ x y, (runOps ops).Has x y ↔ runPixels ops x y := by
  have general : ∀ (self : PixRegion) (pixels : Int → Int → Prop), Canonical self →
      (∀ x y, self.Has x y ↔ pixels x y) →
      Canonical (ops.foldl applyOp self) ∧
        ∀ x y, (ops.foldl applyOp self).Has x y ↔ ops.foldl opPixels pixels x y := by
    induction ops with
    | nil =>
        intro self pixels canonical meaning
        exact ⟨canonical, meaning⟩
    | cons op ops ih =>
        intro self pixels canonical meaning
        have step := apply_op_region canonical meaning op
        exact ih _ _ step.1 step.2
  exact general _ _ canonical_init fun x y => iff_of_false (has_nil emptyBox x y) not_false

example : (runOps [
      .add { left := 0, top := 0, right := 64, bottom := 32 },
      .add { left := 32, top := 16, right := 96, bottom := 48 }]).rects = [
    { x1 := 0, y1 := 0, x2 := 64, y2 := 16 }, { x1 := 0, y1 := 16, x2 := 96, y2 := 32 },
    { x1 := 32, y1 := 32, x2 := 96, y2 := 48 }] := by
  decide +kernel

/-! ## What xrdp reads of a region -/

theorem get_rect_iff (reg : PixRegion) (rect : Rect) :
    (∃ index, xrdpRegionGetRect reg index = some rect) ↔ rect ∈ reg.rects.map Box.toRect := by
  constructor
  · rintro ⟨index, found⟩
    rw [xrdpRegionGetRect] at found
    split at found
    · rw [← List.getElem?_map] at found
      exact List.mem_of_getElem? found
    · exact absurd found (by simp)
  · intro member
    obtain ⟨index, found⟩ := List.getElem?_of_mem member
    have inside : index < reg.rects.length := by
      have bound := List.getElem?_eq_some_iff.mp found
      simpa using bound.1
    refine ⟨index, ?_⟩
    rw [xrdpRegionGetRect, if_pos ⟨Int.natCast_nonneg index, Int.ofNat_lt.mpr inside⟩,
      Int.toNat_natCast, ← List.getElem?_map]
    exact found

theorem has_iff_rects (reg : PixRegion) (x y : Int) :
    reg.Has x y ↔ ∃ rect ∈ reg.rects.map Box.toRect, rect.Covers x y := by
  simp only [PixRegion.Has, Covered, List.mem_map, exists_exists_and_eq_and, to_rect_covers]

theorem before_apart {box next : Box} (before : BoxBefore box next) :
    box.toRect.Apart next.toRect := by
  rintro x y ⟨first, second⟩
  rw [to_rect_covers, in_box_iff] at first second
  rcases before with side | below
  · omega
  · omega

theorem tight_bounds {pixels : Int → Int → Prop} {extents : Box} (tight : Tight pixels extents)
    (outer : Rect) :
    (∀ x y, pixels x y → outer.Covers x y) ↔ extents.toRect.Inside outer := by
  constructor
  · intro around
    have inside := @tight_inside pixels extents
      { x1 := outer.left, y1 := outer.top, x2 := outer.right, y2 := outer.bottom } tight
      (by
        intro x y found
        rw [← to_rect_covers]
        exact around x y found)
    exact ⟨inside.1, inside.2.1, inside.2.2.1, inside.2.2.2⟩
  · intro inside x y found
    apply Rect.inside_covers inside
    rw [to_rect_covers]
    exact tight.inside x y found

theorem not_empty_has {reg : PixRegion} (canonical : Canonical reg) :
    xrdpRegionNotEmpty reg = true ↔ ∃ x y, reg.Has x y := by
  rw [xrdpRegionNotEmpty, pixmanRegionNotEmpty, Bool.not_eq_true']
  constructor
  · intro filled
    have some_box : reg.rects ≠ [] := fun none => by simp [(is_nil_iff reg).mpr none] at filled
    obtain ⟨y, found⟩ := (canonical.tight some_box).left
    exact ⟨_, y, found⟩
  · rintro ⟨x, y, has⟩
    by_contra nil
    exact not_has_of_nil (by simpa using nil) x y has

/-- What the region functions of xrdp hand out after any sequence of operations. -/
theorem region_run_exact (ops : List RegionOp) :
    pixmanRegionSelfcheck (runOps ops) = true ∧
      (∀ x y, (∃ index rect, xrdpRegionGetRect (runOps ops) index = some rect ∧ rect.Covers x y) ↔
        runPixels ops x y) ∧
      ((runOps ops).rects.map Box.toRect).Pairwise Rect.Apart ∧
      (xrdpRegionNotEmpty (runOps ops) = true ↔ ∃ x y, runPixels ops x y) ∧
      (xrdpRegionNotEmpty (runOps ops) = true → ∀ outer : Rect,
        (∀ x y, runPixels ops x y → outer.Covers x y) ↔
          (xrdpRegionGetBounds (runOps ops)).Inside outer) := by
  rcases run_ops_region ops with ⟨canonical, meaning⟩
  refine ⟨canonical_selfcheck canonical, ?_, ?_, ?_, ?_⟩
  · intro x y
    rw [← meaning, has_iff_rects]
    constructor
    · rintro ⟨index, rect, found, covers⟩
      exact ⟨rect, (get_rect_iff _ rect).mp ⟨index, found⟩, covers⟩
    · rintro ⟨rect, member, covers⟩
      obtain ⟨index, found⟩ := (get_rect_iff _ rect).mpr member
      exact ⟨index, rect, found, covers⟩
  · rw [List.pairwise_map]
    exact (canonical_before canonical).imp before_apart
  · rw [not_empty_has canonical]
    simp only [meaning]
  · intro filled outer
    obtain ⟨x, y, has⟩ := (not_empty_has canonical).mp filled
    have some_box : (runOps ops).rects ≠ [] := by
      intro none
      rw [PixRegion.Has, none] at has
      exact covered_nil x y has
    rw [xrdpRegionGetBounds, pixmanRegionExtents, ← tight_bounds (canonical.tight some_box)]
    simp only [← meaning]
    rfl

/-- Two sequences that leave the same pixels hand out the same rectangles under the same indexes,
and the same bounds. -/
theorem region_run_determined (ops others : List RegionOp)
    (same : ∀ x y, runPixels ops x y ↔ runPixels others x y) :
    (∀ index, xrdpRegionGetRect (runOps ops) index = xrdpRegionGetRect (runOps others) index) ∧
      (xrdpRegionNotEmpty (runOps ops) = true →
        xrdpRegionGetBounds (runOps ops) = xrdpRegionGetBounds (runOps others)) := by
  rcases run_ops_region ops with ⟨canonical, meaning⟩
  rcases run_ops_region others with ⟨also, otherMeaning⟩
  have equal := canonical_unique canonical also fun x y => by rw [meaning, otherMeaning, same]
  constructor
  · intro index
    rw [xrdpRegionGetRect, xrdpRegionGetRect, PixRegion.numRects, PixRegion.numRects, equal.1]
  · intro filled
    rw [xrdpRegionGetBounds, xrdpRegionGetBounds, pixmanRegionExtents, pixmanRegionExtents,
      equal.2]
    intro none
    rw [xrdpRegionNotEmpty, pixmanRegionNotEmpty, (is_nil_iff _).mpr none] at filled
    simp at filled

theorem region_run_determined_order :
    let ops : List RegionOp := [
      .add { left := 0, top := 0, right := 64, bottom := 32 },
      .add { left := 32, top := 16, right := 96, bottom := 48 }]
    let others : List RegionOp := ops.reverse
    (∀ index, xrdpRegionGetRect (runOps ops) index = xrdpRegionGetRect (runOps others) index) ∧
      (xrdpRegionNotEmpty (runOps ops) = true →
        xrdpRegionGetBounds (runOps ops) = xrdpRegionGetBounds (runOps others)) := by
  apply region_run_determined
  intro x y
  simp [runPixels, opPixels, or_comm]

/-! ## The region interface of the display path -/

structure CanonicalRegion where
  reg : PixRegion
  canonical : Canonical reg

/-- The box of a rectangle whose sides need no conversion. -/
def Box.ofRect (rect : Rect) : Box where
  x1 := rect.left
  y1 := rect.top
  x2 := rect.right
  y2 := rect.bottom

namespace CanonicalRegion

def initRect (rect : Rect) : CanonicalRegion where
  reg := initExtents (Box.ofRect rect)
  canonical := canonical_init_extents _

def union (left right : CanonicalRegion) : CanonicalRegion where
  reg := pixmanRegionUnion left.reg right.reg
  canonical := (union_region left.canonical right.canonical).1

def intersect (left right : CanonicalRegion) : CanonicalRegion where
  reg := pixmanRegionIntersect left.reg right.reg
  canonical := (intersect_region left.canonical right.canonical).1

def rectangles (region : CanonicalRegion) : List Rect :=
  (pixmanRegionRectangles region.reg).map Box.toRect

theorem rectangles_solid (region : CanonicalRegion) (rect : Rect)
    (member : rect ∈ region.rectangles) : rect.Solid := by
  obtain ⟨box, boxMember, rfl⟩ := List.mem_map.mp member
  exact canonical_solid region.canonical boxMember

theorem rectangles_covers (region : CanonicalRegion) (x y : Int) :
    (∃ box ∈ region.rectangles, box.Covers x y) ↔ region.reg.Has x y :=
  (has_iff_rects region.reg x y).symm

theorem init_rect_covers (rect : Rect) (x y : Int) :
    (∃ box ∈ (initRect rect).rectangles, box.Covers x y) ↔ rect.Covers x y := by
  rw [rectangles_covers, initRect, has_init_extents, ← to_rect_covers]
  rfl

theorem union_covers (left right : CanonicalRegion) (x y : Int) :
    (∃ box ∈ (union left right).rectangles, box.Covers x y) ↔
      (∃ box ∈ left.rectangles, box.Covers x y) ∨ ∃ box ∈ right.rectangles, box.Covers x y := by
  rw [rectangles_covers, rectangles_covers, rectangles_covers]
  exact (union_region left.canonical right.canonical).2 x y

theorem intersect_covers (left right : CanonicalRegion) (x y : Int) :
    (∃ box ∈ (intersect left right).rectangles, box.Covers x y) ↔
      (∃ box ∈ left.rectangles, box.Covers x y) ∧ ∃ box ∈ right.rectangles, box.Covers x y := by
  rw [rectangles_covers, rectangles_covers, rectangles_covers]
  exact (intersect_region left.canonical right.canonical).2 x y

theorem inside_antisymm {rect other : Rect} (inside : rect.Inside other)
    (outside : other.Inside rect) : rect = other := by
  simp only [Rect.Inside] at *
  apply Rect.ext <;> omega

theorem extents_bounding (region : CanonicalRegion) (first : Rect) (rest : List Rect)
    (boxes : region.rectangles = first :: rest) :
    (pixmanRegionExtents region.reg).toRect = Rect.boundingBox first rest := by
  have some_box : region.reg.rects ≠ [] := by
    intro none
    rw [rectangles, pixmanRegionRectangles, none] at boxes
    simp at boxes
  have tight := region.canonical.tight some_box
  apply inside_antisymm
  · apply (tight_bounds tight _).mp
    intro x y found
    apply Rect.bounding_box_covers
    rw [← boxes]
    exact (rectangles_covers region x y).mpr found
  · apply Rect.bounding_box_inside
    intro rect member
    rw [← boxes] at member
    apply Rect.inside_of_covers (rectangles_solid region rect member)
    intro x y covers
    rw [to_rect_covers]
    apply has_inside region.canonical
    exact (rectangles_covers region x y).mp ⟨rect, member, covers⟩

theorem not_empty_rectangles (region : CanonicalRegion) :
    pixmanRegionNotEmpty region.reg = true ↔ region.rectangles ≠ [] := by
  rw [pixmanRegionNotEmpty, Bool.not_eq_true', rectangles, pixmanRegionRectangles, ne_eq,
    List.map_eq_nil_iff, ← is_nil_iff, Bool.not_eq_true]

end CanonicalRegion

instance : Region.Pixman CanonicalRegion where
  init := { reg := pixmanRegionInit, canonical := canonical_init }
  initRect := CanonicalRegion.initRect
  union := CanonicalRegion.union
  intersect := CanonicalRegion.intersect
  rectangles := CanonicalRegion.rectangles
  extents region := (pixmanRegionExtents region.reg).toRect
  notEmpty region := pixmanRegionNotEmpty region.reg
  rectangles_init := rfl
  rectangles_solid := CanonicalRegion.rectangles_solid
  init_rect_covers := CanonicalRegion.init_rect_covers
  union_covers := CanonicalRegion.union_covers
  intersect_covers := CanonicalRegion.intersect_covers
  extents_bounding := CanonicalRegion.extents_bounding
  not_empty_rectangles := CanonicalRegion.not_empty_rectangles

def FitsShort (rect : Rect) : Prop :=
  ∀ side ∈ [rect.left, rect.top, rect.right, rect.bottom], -32768 ≤ side ∧ side < 32768

theorem to_short_fits {value : Int} (lower : -32768 ≤ value) (upper : value < 32768) :
    toShort value = value := by
  simp only [toShort, Int.bmod]
  omega

theorem to_box_region_fits {rect : Rect} (fits : FitsShort rect) :
    toBoxRegion rect = initExtents (Box.ofRect rect) := by
  simp only [FitsShort, List.forall_mem_cons, List.not_mem_nil, false_imp_iff, implies_true,
    and_true] at fits
  rw [to_box_region_eq, Box.ofRect, to_short_fits fits.1.1 fits.1.2,
    to_short_fits fits.2.1.1 fits.2.1.2, to_short_fits fits.2.2.1.1 fits.2.2.1.2,
    to_short_fits fits.2.2.2.1 fits.2.2.2.2]

/-- What the display path does to a region: the interface next to the vendored functions. -/
inductive DisplayOp where
  | add (rect : Rect)
  | intersect (rect : Rect)

def DisplayOp.rect : DisplayOp → Rect
  | .add rect => rect
  | .intersect rect => rect

def displayStep (region : CanonicalRegion) : DisplayOp → CanonicalRegion
  | .add rect => Region.xrdpRegionAddRect region rect
  | .intersect rect => Region.xrdpRegionIntersectRect region rect

def vendoredStep (reg : PixRegion) : DisplayOp → PixRegion
  | .add rect => xrdpRegionAddRect reg rect
  | .intersect rect => xrdpRegionIntersectRect reg rect

theorem display_step_vendored (region : CanonicalRegion) {op : DisplayOp}
    (fits : FitsShort op.rect) : (displayStep region op).reg = vendoredStep region.reg op := by
  cases op with
  | add rect =>
      have same := @to_box_region_fits rect fits
      rw [vendoredStep, xrdpRegionAddRect, same]
      rfl
  | intersect rect =>
      have same := @to_box_region_fits rect fits
      rw [vendoredStep, xrdpRegionIntersectRect, same]
      rfl

theorem display_run_reg (ops : List DisplayOp) (region : CanonicalRegion)
    (fits : ∀ op ∈ ops, FitsShort op.rect) :
    (ops.foldl displayStep region).reg = ops.foldl vendoredStep region.reg := by
  induction ops generalizing region with
  | nil => rfl
  | cons op ops ih =>
      rw [List.foldl_cons, List.foldl_cons, ← display_step_vendored region (fits op (by simp))]
      exact ih (displayStep region op) fun later member => fits later (List.mem_cons_of_mem _ member)

/-- With sides that fit into a `signed short`, every run of region operations of the display path
is one of the vendored functions, and hands out the same rectangles and bounds. -/
theorem display_run_vendored (ops : List DisplayOp) (fits : ∀ op ∈ ops, FitsShort op.rect) :
    let display : CanonicalRegion := ops.foldl displayStep Region.xrdpRegionCreate
    let vendored := ops.foldl vendoredStep xrdpRegionCreate
    (∀ index : Nat, Region.xrdpRegionGetRect display index = xrdpRegionGetRect vendored index) ∧
      Region.xrdpRegionGetBounds display = xrdpRegionGetBounds vendored ∧
      Region.xrdpRegionNotEmpty display = xrdpRegionNotEmpty vendored ∧
      ∀ x y, Region.Covered display x y ↔ vendored.Has x y := by
  intro display vendored
  have same : display.reg = vendored := display_run_reg ops Region.xrdpRegionCreate fits
  rw [← same]
  refine ⟨?_, rfl, rfl, ?_⟩
  · intro index
    have handed : Region.xrdpRegionGetRect display index =
        (display.reg.rects.map Box.toRect)[index]? := rfl
    rw [handed, xrdpRegionGetRect, PixRegion.numRects, List.getElem?_map]
    split
    · rw [Int.toNat_natCast]
    · next outside =>
        have beyond : display.reg.rects.length ≤ index := by omega
        rw [List.getElem?_eq_none beyond]
        rfl
  · intro x y
    exact CanonicalRegion.rectangles_covers display x y

theorem display_run_vendored_two :
    let ops : List DisplayOp := [
      .add { left := 0, top := 0, right := 64, bottom := 32 },
      .add { left := 32, top := 16, right := 96, bottom := 48 },
      .intersect { left := 0, top := 0, right := 80, bottom := 48 }]
    let display : CanonicalRegion := ops.foldl displayStep Region.xrdpRegionCreate
    let vendored := ops.foldl vendoredStep xrdpRegionCreate
    (∀ index : Nat, Region.xrdpRegionGetRect display index = xrdpRegionGetRect vendored index) ∧
      Region.xrdpRegionGetBounds display = xrdpRegionGetBounds vendored ∧
      Region.xrdpRegionNotEmpty display = xrdpRegionNotEmpty vendored ∧
      ∀ x y, Region.Covered display x y ↔ vendored.Has x y := by
  apply display_run_vendored
  simp [DisplayOp.rect, FitsShort]

end XrdpConsole.PixmanRegion
