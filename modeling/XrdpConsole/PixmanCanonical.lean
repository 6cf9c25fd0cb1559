import XrdpConsole.PixmanOp

/-!
# Canonical regions

The regions that pass `pixman_region_selfcheck` and coalesce as far as they can: their boxes are
those of bands, one box is kept as the extents only, and the extents are the smallest box around
the pixels. Union, intersection and difference of canonical regions are canonical, and a canonical
region has its boxes from its pixels.
-/

namespace XrdpConsole.PixmanRegion

open XrdpConsole.Library

set_option autoImplicit false

/-! ## The boxes of a banded list -/

def BoxBefore (box next : Box) : Prop :=
  (box.y1 = next.y1 ∧ box.y2 = next.y2 ∧ box.x2 < next.x1) ∨ box.y2 ≤ next.y1

def Box.Solid (box : Box) : Prop := box.x1 < box.x2 ∧ box.y1 < box.y2

theorem normal_row_solid {spans : List (Run Int Unit)} (normal : Run.Normal spans) {y1 y2 : Int}
    (solid : y1 < y2) {box : Box} (member : box ∈ row spans y1 y2) : box.Solid := by
  obtain ⟨span, spanMember, rfl⟩ := List.mem_map.mp member
  exact ⟨normal.solid span spanMember, solid⟩

theorem normal_row_before {spans : List (Run Int Unit)} (normal : Run.Normal spans)
    (y1 y2 : Int) : (row spans y1 y2).Pairwise BoxBefore := by
  induction spans with
  | nil => exact .nil
  | cons span spans ih =>
      apply List.Pairwise.cons
      · intro box member
        obtain ⟨later, laterMember, rfl⟩ := List.mem_map.mp member
        have laterSolid := (Run.normal_cons.mp normal).2.2.solid later laterMember
        left
        refine ⟨rfl, rfl, ?_⟩
        apply Run.single_at_beyond normal
        exact ⟨later, laterMember, le_rfl, laterSolid, rfl⟩
      · exact ih (Run.normal_cons.mp normal).2.2

theorem banded_solid {bands : List Band} (banded : Banded bands) {box : Box}
    (member : box ∈ bandsBoxes bands) : box.Solid := by
  obtain ⟨band, bandMember, boxMember⟩ := List.mem_flatMap.mp member
  exact normal_row_solid (banded.rows band bandMember).2 (banded.normal.solid band bandMember)
    boxMember

theorem banded_before {bands : List Band} (banded : Banded bands) :
    (bandsBoxes bands).Pairwise BoxBefore := by
  induction bands with
  | nil => exact .nil
  | cons band bands ih =>
      have parts := banded_cons.mp banded
      rw [bands_boxes_cons]
      apply List.pairwise_append.mpr
      refine ⟨normal_row_before parts.1.2.2 band.low band.high, ih parts.2.2, ?_⟩
      intro box early next late
      obtain ⟨span, -, rfl⟩ := List.mem_map.mp early
      obtain ⟨later, laterMember, boxMember⟩ := List.mem_flatMap.mp late
      obtain ⟨other, -, rfl⟩ := List.mem_map.mp boxMember
      right
      exact Run.normal_later banded.normal laterMember

theorem covered_of_box {boxes : List Box} {box : Box} (member : box ∈ boxes) {x y : Int}
    (across : box.x1 ≤ x ∧ x < box.x2) (down : box.y1 ≤ y ∧ y < box.y2) : Covered boxes x y :=
  ⟨box, member, (in_box_iff box x y).mpr ⟨across, down⟩⟩

/-! ## Smallest extents -/

structure Tight (pixels : Int → Int → Prop) (extents : Box) : Prop where
  inside : ∀ x y, pixels x y → extents.inBox x y = true
  left : ∃ y, pixels extents.x1 y
  top : ∃ x, pixels x extents.y1
  right : ∃ y, pixels (extents.x2 - 1) y
  bottom : ∃ x, pixels x (extents.y2 - 1)

/-- Sides that pixels reach are inside any box around the pixels. -/
theorem tight_inside {pixels : Int → Int → Prop} {extents outer : Box}
    (tight : Tight pixels extents) (around : ∀ x y, pixels x y → outer.inBox x y = true) :
    outer.x1 ≤ extents.x1 ∧ outer.y1 ≤ extents.y1 ∧ extents.x2 ≤ outer.x2 ∧
      extents.y2 ≤ outer.y2 := by
  obtain ⟨y, left⟩ := tight.left
  obtain ⟨x, top⟩ := tight.top
  obtain ⟨y', right⟩ := tight.right
  obtain ⟨x', bottom⟩ := tight.bottom
  have inLeft := (in_box_iff outer _ _).mp (around _ _ left)
  have inTop := (in_box_iff outer _ _).mp (around _ _ top)
  have inRight := (in_box_iff outer _ _).mp (around _ _ right)
  have inBottom := (in_box_iff outer _ _).mp (around _ _ bottom)
  omega

theorem tight_unique {pixels : Int → Int → Prop} {extents other : Box}
    (tight : Tight pixels extents) (otherTight : Tight pixels other) : extents = other := by
  have there := tight_inside tight otherTight.inside
  have back := tight_inside otherTight tight.inside
  apply Box.ext <;> omega

theorem tight_congr {pixels others : Int → Int → Prop} {extents : Box}
    (tight : Tight pixels extents) (same : ∀ x y, pixels x y ↔ others x y) :
    Tight others extents := by
  have equal : pixels = others := by
    funext x y
    exact propext (same x y)
  exact equal ▸ tight

theorem tight_box {box : Box} (solid : box.Solid) : Tight (Covered [box]) box := by
  have here : ∀ x y, box.x1 ≤ x → x < box.x2 → box.y1 ≤ y → y < box.y2 → Covered [box] x y := by
    intro x y left right top bottom
    exact covered_of_box (List.mem_singleton.mpr rfl) ⟨left, right⟩ ⟨top, bottom⟩
  have across := solid.1
  have down := solid.2
  constructor
  · rintro x y ⟨found, member, inside⟩
    rw [List.mem_singleton] at member
    exact member ▸ inside
  · exact ⟨box.y1, here _ _ (by omega) (by omega) (by omega) (by omega)⟩
  · exact ⟨box.x1, here _ _ (by omega) (by omega) (by omega) (by omega)⟩
  · exact ⟨box.y1, here _ _ (by omega) (by omega) (by omega) (by omega)⟩
  · exact ⟨box.x1, here _ _ (by omega) (by omega) (by omega) (by omega)⟩

theorem tight_union {pixels1 pixels2 : Int → Int → Prop} {extents1 extents2 : Box}
    (tight1 : Tight pixels1 extents1) (tight2 : Tight pixels2 extents2) :
    Tight (fun x y => pixels1 x y ∨ pixels2 x y) (unionExtents extents1 extents2) := by
  constructor
  · rintro x y (first | second)
    · have inside := (in_box_iff _ _ _).mp (tight1.inside x y first)
      rw [in_box_iff, unionExtents]
      simp only
      omega
    · have inside := (in_box_iff _ _ _).mp (tight2.inside x y second)
      rw [in_box_iff, unionExtents]
      simp only
      omega
  · rcases Int.le_total extents1.x1 extents2.x1 with less | more
    · obtain ⟨y, found⟩ := tight1.left
      exact ⟨y, .inl (by rwa [unionExtents, min_eq_left less])⟩
    · obtain ⟨y, found⟩ := tight2.left
      exact ⟨y, .inr (by rwa [unionExtents, min_eq_right more])⟩
  · rcases Int.le_total extents1.y1 extents2.y1 with less | more
    · obtain ⟨x, found⟩ := tight1.top
      exact ⟨x, .inl (by rwa [unionExtents, min_eq_left less])⟩
    · obtain ⟨x, found⟩ := tight2.top
      exact ⟨x, .inr (by rwa [unionExtents, min_eq_right more])⟩
  · rcases Int.le_total extents1.x2 extents2.x2 with less | more
    · obtain ⟨y, found⟩ := tight2.right
      exact ⟨y, .inr (by rwa [unionExtents, max_eq_right less])⟩
    · obtain ⟨y, found⟩ := tight1.right
      exact ⟨y, .inl (by rwa [unionExtents, max_eq_left more])⟩
  · rcases Int.le_total extents1.y2 extents2.y2 with less | more
    · obtain ⟨x, found⟩ := tight2.bottom
      exact ⟨x, .inr (by rwa [unionExtents, max_eq_right less])⟩
    · obtain ⟨x, found⟩ := tight1.bottom
      exact ⟨x, .inl (by rwa [unionExtents, max_eq_left more])⟩

/-! ## Extents from the boxes -/

theorem set_extents_step_sides (extents box : Box) :
    let next := setExtentsStep extents box
    next.y1 = extents.y1 ∧ next.y2 = extents.y2 ∧
      next.x1 = min extents.x1 box.x1 ∧ next.x2 = max extents.x2 box.x2 := by
  simp only [setExtentsStep, true_and]
  constructor <;> split <;> omega

theorem fold_extents_sides (boxes : List Box) (start : Box) :
    let extents := boxes.foldl setExtentsStep start
    (extents.y1 = start.y1 ∧ extents.y2 = start.y2) ∧
      (extents.x1 ≤ start.x1 ∧ start.x2 ≤ extents.x2) ∧
      (∀ box ∈ boxes, extents.x1 ≤ box.x1 ∧ box.x2 ≤ extents.x2) ∧
      (extents.x1 = start.x1 ∨ ∃ box ∈ boxes, extents.x1 = box.x1) ∧
      (extents.x2 = start.x2 ∨ ∃ box ∈ boxes, extents.x2 = box.x2) := by
  induction boxes generalizing start with
  | nil => simp
  | cons box boxes ih =>
      rcases set_extents_step_sides start box with ⟨sameTop, sameBottom, newLeft, newRight⟩
      have lessLeft := min_le_left start.x1 box.x1
      have boxLeft := min_le_right start.x1 box.x1
      have moreRight := le_max_left start.x2 box.x2
      have boxRight := le_max_right start.x2 box.x2
      rw [← newLeft] at lessLeft boxLeft
      rw [← newRight] at moreRight boxRight
      rcases ih (setExtentsStep start box) with ⟨down, across, inside, left, right⟩
      simp only [List.foldl_cons] at *
      refine ⟨⟨down.1.trans sameTop, down.2.trans sameBottom⟩,
        ⟨across.1.trans lessLeft, moreRight.trans across.2⟩, ?_, ?_, ?_⟩
      · intro other member
        rcases List.mem_cons.mp member with rfl | later
        · exact ⟨across.1.trans boxLeft, boxRight.trans across.2⟩
        · exact inside other later
      · rcases left with here | ⟨other, member, there⟩
        · rcases Int.le_total start.x1 box.x1 with first | second
          · exact .inl (here.trans (newLeft.trans (min_eq_left first)))
          · exact .inr ⟨box, List.mem_cons_self .., here.trans (newLeft.trans (min_eq_right second))⟩
        · exact .inr ⟨other, List.mem_cons_of_mem _ member, there⟩
      · rcases right with here | ⟨other, member, there⟩
        · rcases Int.le_total start.x2 box.x2 with first | second
          · exact .inr ⟨box, List.mem_cons_self .., here.trans (newRight.trans (max_eq_right first))⟩
          · exact .inl (here.trans (newRight.trans (max_eq_left second)))
        · exact .inr ⟨other, List.mem_cons_of_mem _ member, there⟩

/-- Boxes in band order, from the first to the last. -/
theorem before_first_last {box : Box} {rest : List Box}
    (solid : ∀ other ∈ box :: rest, other.Solid) (before : (box :: rest).Pairwise BoxBefore)
    {other : Box} (member : other ∈ box :: rest) :
    box.y1 ≤ other.y1 ∧
      other.y2 ≤ ((box :: rest).getLast (List.cons_ne_nil box rest)).y2 := by
  have boxSolid := solid box (List.mem_cons_self ..)
  have otherSolid := solid other member
  constructor
  · rcases List.mem_cons.mp member with rfl | later
    · exact le_rfl
    · rcases List.rel_of_pairwise_cons before later with side | below
      · exact side.1.le
      · exact boxSolid.2.le.trans below
  · generalize lastEq : (box :: rest).getLast (List.cons_ne_nil box rest) = last
    have split_last := List.dropLast_append_getLast (List.cons_ne_nil box rest)
    rw [lastEq] at split_last
    rw [← split_last] at before member solid
    have lastSolid := solid last (by simp)
    rcases List.mem_append.mp member with early | same
    · have related := (List.pairwise_append.mp before).2.2 other early last (by simp)
      rcases related with side | below
      · exact side.2.1.le
      · exact below.trans lastSolid.2.le
    · rw [List.mem_singleton] at same
      rw [same]

/-- The fold of `pixman_set_extents` gives the smallest extents, whichever boxes it starts
with. -/
theorem fold_extents_tight {box : Box} {rest : List Box} {start : Box}
    (solid : ∀ other ∈ box :: rest, other.Solid) (before : (box :: rest).Pairwise BoxBefore)
    (down : start.y1 = box.y1 ∧
      start.y2 = ((box :: rest).getLast (List.cons_ne_nil box rest)).y2)
    (left : ∃ other ∈ box :: rest, start.x1 = other.x1)
    (right : ∃ other ∈ box :: rest, start.x2 = other.x2) {boxes : List Box}
    (all : ∀ other ∈ box :: rest, other ∈ boxes ∨ start.x1 ≤ other.x1 ∧ other.x2 ≤ start.x2)
    (only : ∀ other ∈ boxes, other ∈ box :: rest) :
    Tight (Covered (box :: rest)) (boxes.foldl setExtentsStep start) := by
  rcases fold_extents_sides boxes start with ⟨sides, grows, inside, fromLeft, fromRight⟩
  have reaches : ∀ other ∈ box :: rest, ∀ x y, other.x1 ≤ x → x < other.x2 → other.y1 ≤ y →
      y < other.y2 → Covered (box :: rest) x y := by
    intro other member x y lower upper top bottom
    exact covered_of_box member ⟨lower, upper⟩ ⟨top, bottom⟩
  constructor
  · rintro x y ⟨other, member, found⟩
    have bounds := before_first_last solid before member
    have here := (in_box_iff other x y).mp found
    rw [in_box_iff]
    rcases all other member with folded | started
    · have wide := inside other folded
      omega
    · omega
  · have attained : ∃ other ∈ box :: rest, (boxes.foldl setExtentsStep start).x1 = other.x1 := by
      rcases fromLeft with same | ⟨other, member, same⟩
      · rwa [same]
      · exact ⟨other, only other member, same⟩
    obtain ⟨other, member, same⟩ := attained
    have otherSolid := solid other member
    exact ⟨other.y1, reaches other member _ _ same.ge (by rw [same]; exact otherSolid.1) le_rfl
      otherSolid.2⟩
  · have boxSolid := solid box (List.mem_cons_self ..)
    rw [sides.1, down.1]
    exact ⟨box.x1, reaches box (List.mem_cons_self ..) _ _ le_rfl boxSolid.1 le_rfl boxSolid.2⟩
  · have attained : ∃ other ∈ box :: rest, (boxes.foldl setExtentsStep start).x2 = other.x2 := by
      rcases fromRight with same | ⟨other, member, same⟩
      · rwa [same]
      · exact ⟨other, only other member, same⟩
    obtain ⟨other, member, same⟩ := attained
    have otherSolid := solid other member
    have across := otherSolid.1
    rw [same]
    exact ⟨other.y1, reaches other member _ _ (by omega) (by omega) le_rfl otherSolid.2⟩
  · generalize lastEq : (box :: rest).getLast (List.cons_ne_nil box rest) = last at down
    have lastMember : last ∈ box :: rest := lastEq ▸ List.getLast_mem _
    have lastSolid := solid last lastMember
    have downward := lastSolid.2
    rw [sides.2, down.2]
    exact ⟨last.x1, reaches last lastMember _ _ le_rfl lastSolid.1 (by omega) (by omega)⟩

/-! ## Canonical regions -/

structure Canonical (reg : PixRegion) : Prop where
  banded : ∃ bands, Banded bands ∧ reg.rects = bandsBoxes bands
  single : reg.numRects = 1 → reg.data = none
  tight : reg.rects ≠ [] → Tight (Covered reg.rects) reg.extents
  flat : reg.rects = [] → reg.extents.x1 = reg.extents.x2 ∧ reg.extents.y1 = reg.extents.y2

theorem is_nil_iff (reg : PixRegion) : reg.isNil = true ↔ reg.rects = [] := by
  rw [PixRegion.isNil, PixRegion.rects, beq_iff_eq]
  cases reg.data <;> simp

theorem canonical_solid {reg : PixRegion} (canonical : Canonical reg) {box : Box}
    (member : box ∈ reg.rects) : box.Solid := by
  obtain ⟨bands, banded, same⟩ := canonical.banded
  exact banded_solid banded (same ▸ member)

theorem canonical_before {reg : PixRegion} (canonical : Canonical reg) :
    reg.rects.Pairwise BoxBefore := by
  obtain ⟨bands, banded, same⟩ := canonical.banded
  rw [same]
  exact banded_before banded

theorem canonical_box {box : Box} (solid : box.Solid) :
    Canonical { extents := box, data := none } := by
  constructor
  · let band : Band := { low := box.y1, high := box.y2, label := columns [box] }
    refine ⟨[band], ?_, ?_⟩
    · apply banded_cons.mpr
      refine ⟨⟨solid.2, by simp [band, columns], Run.normal_single solid.1⟩, by simp, banded_nil⟩
    · simp [PixRegion.rects, band, bandBoxes, row, columns]
  · intro
    rfl
  · intro
    exact tight_box solid
  · simp [PixRegion.rects]

theorem canonical_nil {extents : Box} (flat : extents.x1 = extents.x2 ∧ extents.y1 = extents.y2) :
    Canonical { extents := extents, data := some [] } := by
  constructor
  · exact ⟨[], banded_nil, rfl⟩
  · simp [PixRegion.numRects, PixRegion.rects]
  · simp [PixRegion.rects]
  · intro
    exact flat

theorem canonical_init : Canonical pixmanRegionInit := canonical_nil ⟨rfl, rfl⟩

theorem canonical_emptied (extents : Box) : Canonical (emptied extents) := canonical_nil ⟨rfl, rfl⟩

theorem canonical_init_extents (extents : Box) : Canonical (initExtents extents) := by
  rw [initExtents]
  split
  · next good =>
      simp only [Box.good, Bool.and_eq_true, decide_eq_true_eq] at good
      exact canonical_box good
  · exact canonical_init

end XrdpConsole.PixmanRegion
