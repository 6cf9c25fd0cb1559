import XrdpConsole.PlanarScratch

/-!
# The pixels of a job

The tiles that the encoder thread completes for a rectangle share no pixel, leave
none out, and decode to the pixels of the snapshot at their places.
-/

namespace XrdpConsole.PlanarReproduction

open XrdpConsole.Library
open XrdpConsole.VncState
open XrdpConsole.Region
open XrdpConsole.MmState
open XrdpConsole.PlanarCompress
open XrdpConsole.PlanarDecode
open XrdpConsole.PlanarSend
open XrdpConsole.PlanarTiles
open XrdpConsole.PlanarWorker
open XrdpConsole.WorkerTrace
open XrdpConsole.JobCompletions
open XrdpConsole.PlanarScratch

set_option autoImplicit false

/-! ## The search for the tile size -/

/-- The loop that makes a tile larger, round by round to its end. -/
inductive Grows : Nat × Nat → Nat × Nat → Prop where
  | full {cx cy : Nat} : ¬cx * cy < 4096 → Grows (cx, cy) (cx, cy)
  | wider {cx cy : Nat} {tile : Nat × Nat} : cx * cy < 4096 → cx < cy →
      Grows (cx + 1, 4096 / (cx + 1)) tile → Grows (cx, cy) tile
  | higher {cx cy : Nat} {tile : Nat × Nat} : cx * cy < 4096 → ¬cx < cy →
      Grows (4096 / (cy + 1), cy + 1) tile → Grows (cx, cy) tile

/-- The size the loop starts with. -/
def startSize (bwidth bheight : Nat) : Nat × Nat :=
  if bwidth < 64 then (bwidth, 4096 / bwidth)
  else if bheight < 64 then (4096 / bheight, bheight)
  else (64, 64)

theorem tile_size_grown (bwidth bheight : Nat) :
    tileSize bwidth bheight =
      growTile 64 (startSize bwidth bheight).1 (startSize bwidth bheight).2 := by
  unfold tileSize startSize
  split
  · rfl
  · split <;> rfl

theorem grow_tile_grows {fuel : Nat} {size : Nat × Nat}
    (full : ¬(growTile fuel size.1 size.2).1 * (growTile fuel size.1 size.2).2 < 4096) :
    Grows size (growTile fuel size.1 size.2) := by
  induction fuel generalizing size with
  | zero => exact .full full
  | succ fuel ih =>
      obtain ⟨cx, cy⟩ := size
      simp only [growTile] at full ⊢
      by_cases small : cx * cy < 4096
      · rw [if_pos small] at full ⊢
        by_cases narrow : cx < cy
        · rw [if_pos narrow] at full ⊢
          exact .wider small narrow (ih full)
        · rw [if_neg narrow] at full ⊢
          exact .higher small narrow (ih full)
      · rw [if_neg small]
        exact .full small

theorem tile_search_ends {bwidth bheight : Nat} (width : 0 < bwidth) (height : 0 < bheight) :
    Grows (startSize bwidth bheight) (tileSize bwidth bheight) := by
  have full := tile_size_full width height
  rw [tile_size_grown] at full ⊢
  apply grow_tile_grows
  rw [full]
  decide

/-! ## Tiles side by side -/

theorem tile_rects_apart {rect : Rect} (solid : rect.Solid) :
    (tileRects rect).Pairwise Rect.Apart := by
  simp only [Rect.Solid] at solid
  obtain ⟨width, height, -⟩ := @tile_size_bounds (rect.right - rect.left).toNat
    (rect.bottom - rect.top).toNat (by omega) (by omega)
  rw [tileRects, List.pairwise_flatMap]
  constructor
  · intro yindex _
    rw [List.pairwise_map]
    apply (for_range_spaced (by omega) rect.left rect.right).imp
    intro xindex other spaced x y both
    simp only [Rect.Covers] at both
    omega
  · apply (for_range_spaced (by omega) rect.top rect.bottom).imp
    intro yindex other spaced tile member later laterMember x y both
    obtain ⟨xindex, -, rfl⟩ := List.mem_map.mp member
    obtain ⟨otherX, -, rfl⟩ := List.mem_map.mp laterMember
    simp only [Rect.Covers] at both
    omega

theorem tile_rects_cover_iff {rect : Rect} (solid : rect.Solid) (x y : Int) :
    (∃ tile ∈ tileRects rect, tile.Covers x y) ↔ rect.Covers x y := by
  constructor
  · rintro ⟨tile, member, covered⟩
    have inside := (tile_rects_bounds solid member).2.1
    simp only [Rect.Inside, Rect.Covers] at *
    omega
  · exact tile_rects_cover

theorem relative_covers (rect : Rect) (originX originY x y : Int) :
    (rect.relativeTo originX originY).Covers x y ↔ rect.Covers (x + originX) (y + originY) := by
  simp only [Rect.relativeTo, Rect.Covers]
  omega

theorem relative_apart {rect other : Rect} (apart : rect.Apart other) (originX originY : Int) :
    (rect.relativeTo originX originY).Apart (other.relativeTo originX originY) := by
  intro x y both
  rw [relative_covers, relative_covers] at both
  exact apart _ _ both

/-! ## Completed tiles -/

/-- Where a completion puts its pixels. -/
def doneRect (done : EncDone) : Rect where
  left := done.x
  top := done.y
  right := done.x + done.cx
  bottom := done.y + done.cy

/-- The pixel of the snapshot, counted from the upper left corner of the rectangle. -/
def snapshotPixel (job : EncVncPlanar) (entry : EncVncPlanarRect) (x y : Int) : Pixel :=
  pixelAt (snapshotData job.pixels) (entry.dataOffset + (y * entry.width + x) * 4)

/-- The rows of a completion are the pixels at its place, from the top one on. -/
def Decodes (job : EncVncPlanar) (entry : EncVncPlanarRect) (done : EncDone) : Prop :=
  decodeBitmap done.cx.toNat done.cy.toNat done.compPadData =
    some ((List.range done.cy.toNat).map fun row : Nat =>
      (List.range done.cx.toNat).map fun column : Nat =>
        snapshotPixel job entry (done.x + column + job.originX - entry.left)
          (done.y + row + job.originY - entry.top))

/-- The completions of one rectangle. -/
structure Reproduces (job : EncVncPlanar) (entry : EncVncPlanarRect) (dones : List EncDone) :
    Prop where
  search : 1 ≤ entry.width → 1 ≤ entry.height →
    Grows (startSize entry.width.toNat entry.height.toNat)
      (tileSize entry.width.toNat entry.height.toNat)
  apart : dones.Pairwise fun done other => (doneRect done).Apart (doneRect other)
  cover : ∀ x y, (∃ done ∈ dones, (doneRect done).Covers x y) ↔
    ((entryRect entry).relativeTo job.originX job.originY).Covers x y
  pixels : ∀ done ∈ dones, Decodes job entry done

theorem mark_dones_map {Value : Type} {read : EncDone → Value} {plan : List (Bool → EncDone)}
    (same : ∀ tile ∈ plan, ∀ first, read (tile first) = read (tile true)) (firstTile : Bool) :
    (markDones firstTile plan).map read = plan.map fun tile => read (tile true) := by
  induction plan generalizing firstTile with
  | nil => rfl
  | cons tile plan ih =>
      rw [markDones, List.map_cons, List.map_cons, same tile (List.mem_cons_self ..),
        ih fun other member => same other (List.mem_cons_of_mem tile member)]

section Rectangle

variable (job : EncVncPlanar) {item : EncVncPlanarRect × Nat}

theorem rect_plan_solid (solid : ¬(item.1.width < 1 ∨ item.1.height < 1)) :
    rectPlan job item =
      (forRange 0 item.1.height (tileSize item.1.width.toNat item.1.height.toNat).2).flatMap
        (rowPlan job item.2 item.1 (tileSize item.1.width.toNat item.1.height.toNat).1
          (tileSize item.1.width.toNat item.1.height.toNat).2) := by
  rw [rectPlan, if_neg solid]

/-- The completions lie where the tiles of the rectangle do. -/
theorem rect_plan_rects (solid : ¬(item.1.width < 1 ∨ item.1.height < 1)) :
    (rectPlan job item).map (fun tile => doneRect (tile true)) =
      (tileRects (entryRect item.1)).map (Rect.relativeTo · job.originX job.originY) := by
  have width : (entryRect item.1).right - (entryRect item.1).left = item.1.width := by
    simp [entryRect]
  have height : (entryRect item.1).bottom - (entryRect item.1).top = item.1.height := by
    simp [entryRect]
  simp only [rect_plan_solid job solid, tileRects]
  rw [for_range_shift (entryRect item.1).top, for_range_shift (entryRect item.1).left, width, height]
  simp only [List.map_flatMap, List.flatMap_map, rowPlan, List.map_map]
  apply flat_map_congr
  intro yoffset _
  apply List.map_congr_left
  intro xoffset _
  simp only [Function.comp_apply, doneRect, tilePlan, tileDone, entryRect, Rect.relativeTo,
    Rect.mk.injEq]
  refine ⟨trivial, trivial, ?_, ?_⟩ <;> omega

theorem rect_plan_pixels {tile : Bool → EncDone} (member : tile ∈ rectPlan job item)
    (first : Bool) : Decodes job item.1 (tile first) := by
  by_cases empty : item.1.width < 1 ∨ item.1.height < 1
  · rw [rectPlan, if_pos empty] at member
    exact absurd member List.not_mem_nil
  · rw [rect_plan_solid job empty] at member
    obtain ⟨yoffset, rowMember, inRow⟩ := List.mem_flatMap.mp member
    obtain ⟨xoffset, columnMember, rfl⟩ := List.mem_map.mp inRow
    obtain ⟨-, cutHeight, area⟩ := cut_bounds (by omega) (by omega) rowMember columnMember
    obtain ⟨bytes, compressed, decoded⟩ := compress_tile_rows cutHeight area
      (snapshotData job.pixels) (item.1.dataOffset + (yoffset * item.1.width + xoffset) * 4)
      (item.1.width * 4)
    simp only [Decodes, tilePlan, tileDone, compressSnapshotTile, compressed, decoded]
    congr 1
    apply List.map_congr_left
    intro row _
    apply List.map_congr_left
    intro column _
    rw [snapshotPixel]
    congr 1
    ring

theorem rect_dones_rects (solid : ¬(item.1.width < 1 ∨ item.1.height < 1)) (firstTile : Bool) :
    (markDones firstTile (rectPlan job item)).map doneRect =
      (tileRects (entryRect item.1)).map (Rect.relativeTo · job.originX job.originY) := by
  rw [← rect_plan_rects job solid]
  apply mark_dones_map
  intro tile member first
  rw [rect_plan_solid job solid] at member
  obtain ⟨yoffset, -, inRow⟩ := List.mem_flatMap.mp member
  obtain ⟨xoffset, -, rfl⟩ := List.mem_map.mp inRow
  rfl

theorem rect_reproduces (item : EncVncPlanarRect × Nat) (firstTile : Bool) :
    Reproduces job item.1 (markDones firstTile (rectPlan job item)) := by
  have search : 1 ≤ item.1.width → 1 ≤ item.1.height →
      Grows (startSize item.1.width.toNat item.1.height.toNat)
        (tileSize item.1.width.toNat item.1.height.toNat) := fun width height =>
    tile_search_ends (by omega) (by omega)
  have pixels : ∀ done ∈ markDones firstTile (rectPlan job item), Decodes job item.1 done := by
    intro done member
    obtain ⟨tile, tileMember, first, rfl⟩ := mem_mark_dones member
    exact rect_plan_pixels job tileMember first
  by_cases empty : item.1.width < 1 ∨ item.1.height < 1
  · have none_done : markDones firstTile (rectPlan job item) = [] := by
      rw [rectPlan, if_pos empty]
      rfl
    refine ⟨search, ?_, ?_, pixels⟩
    · rw [none_done]
      exact .nil
    · intro x y
      rw [none_done, relative_covers]
      simp only [List.not_mem_nil, false_and, exists_false, false_iff, Rect.Covers, entryRect]
      omega
  · have solid : (entryRect item.1).Solid := by
      simp only [Rect.Solid, entryRect]
      omega
    have rects := rect_dones_rects job empty firstTile
    refine ⟨search, ?_, ?_, pixels⟩
    · rw [← List.pairwise_map (f := doneRect), rects, List.pairwise_map]
      exact (tile_rects_apart solid).imp fun apart => relative_apart apart _ _
    · intro x y
      have members : (∃ done ∈ markDones firstTile (rectPlan job item),
          (doneRect done).Covers x y) ↔
          ∃ rect ∈ (markDones firstTile (rectPlan job item)).map doneRect, rect.Covers x y := by
        simp
      rw [members, rects, relative_covers, ← tile_rects_cover_iff solid]
      simp [relative_covers]

end Rectangle

/-! ## Jobs -/

/-- The completions fall into those of the single rectangles. -/
theorem items_reproduce (job : EncVncPlanar) (items : List (EncVncPlanarRect × Nat))
    (firstTile : Bool) :
    ∃ dones : List (List EncDone),
      dones.flatten = markDones firstTile (items.flatMap (rectPlan job)) ∧
        List.Forall₂ (Reproduces job) (items.map Prod.fst) dones := by
  induction items generalizing firstTile with
  | nil => exact ⟨[], rfl, .nil⟩
  | cons item items ih =>
      obtain ⟨dones, whole, each⟩ := ih (firstTile && (rectPlan job item).isEmpty)
      refine ⟨markDones firstTile (rectPlan job item) :: dones, ?_, ?_⟩
      · rw [List.flatMap_cons, mark_dones_append, List.flatten_cons, whole]
      · exact .cons (rect_reproduces job item firstTile) each

theorem job_plan_some {job : EncVncPlanar} {entry : EncVncPlanarRect} (member : entry ∈ job.rects)
    (width : 1 ≤ entry.width) (height : 1 ≤ entry.height) : jobPlan job ≠ [] := by
  intro none_planned
  obtain ⟨index, inside, rfl⟩ := List.mem_iff_getElem.mp member
  have itemMember : (job.rects[index], index) ∈ job.rects.zipIdx := by
    rw [List.mem_zipIdx_iff_getElem?]
    exact List.getElem?_eq_getElem inside
  have rects := @rect_plan_rects job (job.rects[index], index) (by simp only; omega)
  rw [List.flatMap_eq_nil_iff.mp none_planned _ itemMember, List.map_nil, eq_comm,
    List.map_eq_nil_iff] at rects
  obtain ⟨tile, tileMember, -⟩ := @tile_rects_cover (entryRect job.rects[index])
    job.rects[index].left job.rects[index].top (by simp only [Rect.Covers, entryRect]; omega)
  simp only [rects, List.not_mem_nil] at tileMember

/-- Where no allocation fails the completions of a job with some pixels are those of its
rectangles, one after the other, and reproduce the pixels of each. -/
theorem planar_job_reproduces {job : EncVncPlanar} (holds : HoldsSnapshots job)
    (some_pixel : ∃ entry ∈ job.rects, 1 ≤ entry.width ∧ 1 ≤ entry.height) :
    ∃ dones : List (List EncDone), dones.flatten = completions (processEncVncPlanar job []) ∧
      List.Forall₂ (Reproduces job) job.rects dones := by
  obtain ⟨entry, member, width, height⟩ := some_pixel
  rw [holds_whole holds (job_plan_some member width height)]
  have reproduced := items_reproduce job job.rects.zipIdx true
  rwa [List.zipIdx_map_fst] at reproduced

theorem planar_job_reproduces_square :
    ∃ dones : List (List EncDone),
      dones.flatten = completions (processEncVncPlanar
        { columnJob with rects := [{ columnEntry with width := 64, height := 64 }] } []) ∧
      List.Forall₂ (Reproduces { columnJob with
        rects := [{ columnEntry with width := 64, height := 64 }] })
        [{ columnEntry with width := 64, height := 64 }] dones := by
  apply planar_job_reproduces
  · intro rect member _ _
    rw [List.mem_singleton.mp member]
    constructor <;> decide
  · exact ⟨_, List.mem_singleton.mpr rfl, by decide, by decide⟩

end XrdpConsole.PlanarReproduction
