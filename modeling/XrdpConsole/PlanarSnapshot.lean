import Mathlib.Data.List.GetD
import XrdpConsole.JobCompletions

/-!
# Snapshots

A job carries the pixels of its rectangles, packed without the rest of the rows.
The tiles the encoder thread cuts from the snapshot are those the synchronous path
cuts from the bitmap: the same rectangles with the same bytes.
-/

namespace XrdpConsole.PlanarSnapshot

open XrdpConsole.Library
open XrdpConsole.VncState
open XrdpConsole.MmState
open XrdpConsole.PlanarSend
open XrdpConsole.PlanarTiles
open XrdpConsole.PlanarWorker
open XrdpConsole.WorkerTrace
open XrdpConsole.JobCompletions

set_option autoImplicit false

/-! ## Rows -/

theorem read_bytes_congr {data other : Int → Byte} {src8 src : Int} {bytes : Nat}
    (same : ∀ index : Nat, index < bytes → data (src8 + index) = other (src + index)) :
    readBytes data src8 bytes = readBytes other src bytes := by
  induction bytes generalizing src8 src with
  | zero => rfl
  | succ bytes ih =>
      rw [readBytes, readBytes]
      congr 1
      · simpa using same 0 (by omega)
      · apply ih
        intro index inside
        have next := same (index + 1) (by omega)
        push_cast at next
        rw [Int.add_assoc, Int.add_assoc, Int.add_comm 1 (index : Int)]
        exact next

/-- Two copy loops that meet the same bytes copy the same rows. -/
theorem source_rows_congr {data other : Int → Byte} {src8 src stride otherStride : Int}
    {bytes rows : Nat}
    (same : ∀ row : Nat, row < rows → ∀ index : Nat, index < bytes →
      data (src8 + row * stride + index) = other (src + row * otherStride + index)) :
    sourceRows data src8 stride bytes rows = sourceRows other src otherStride bytes rows := by
  induction rows generalizing src8 src with
  | zero => rfl
  | succ rows ih =>
      rw [sourceRows, sourceRows]
      congr 1
      · apply read_bytes_congr
        intro index inside
        simpa using same 0 (by omega) index inside
      · apply ih
        intro row rowInside index inside
        have next := same (row + 1) (by omega) index inside
        rw [Int.natCast_succ, Int.add_mul, Int.add_mul] at next
        rw [show src8 + stride + row * stride = src8 + (row * stride + 1 * stride) by omega,
          show src + otherStride + row * otherStride =
            src + (row * otherStride + 1 * otherStride) by omega]
        exact next

theorem read_bytes_get (data : Int → Byte) (src8 : Int) {bytes index : Nat}
    (inside : index < bytes) : (readBytes data src8 bytes).getD index 0 = data (src8 + index) := by
  induction bytes generalizing src8 index with
  | zero => omega
  | succ bytes ih =>
      cases index with
      | zero => simp [readBytes]
      | succ index =>
          rw [readBytes, List.getD_cons_succ, ih (src8 + 1) (by omega)]
          congr 1
          push_cast
          omega

theorem source_rows_get (data : Int → Byte) (src8 stride : Int) {bytes rows row index : Nat}
    (rowInside : row < rows) (inside : index < bytes) :
    (sourceRows data src8 stride bytes rows).flatten.getD (row * bytes + index) 0 =
      data (src8 + row * stride + index) := by
  induction rows generalizing src8 row with
  | zero => omega
  | succ rows ih =>
      have length := read_bytes_length data src8 bytes
      rw [sourceRows, List.flatten_cons]
      cases row with
      | zero =>
          rw [Nat.zero_mul, Nat.zero_add, List.getD_append _ _ _ _ (by omega),
            read_bytes_get data src8 inside]
          simp
      | succ row =>
          have past : (row + 1) * bytes + index = bytes + (row * bytes + index) := by
            rw [Nat.succ_mul]
            omega
          rw [past, List.getD_append_right _ _ _ _ (by omega), length, Nat.add_sub_cancel_left,
            ih (src8 + stride) (by omega)]
          congr 1
          rw [Int.natCast_succ, Int.add_mul]
          omega

/-! ## Rectangles -/

/-- The pixels of the rectangle are in the snapshot, from `dataOffset` on. -/
def HoldsRect (pixels : List Byte) (dataOffset : Int) (bitmap : Bitmap) (rect : Rect) : Prop :=
  ∀ row column : Int, 0 ≤ row → row < rect.bottom - rect.top → 0 ≤ column →
    column < (rect.right - rect.left) * 4 →
    snapshotData pixels (dataOffset + row * ((rect.right - rect.left) * 4) + column) =
      bitmap.data (bitmap.lineSize * rect.top + rect.left * 4 + row * bitmap.lineSize + column)

theorem holds_rect (bitmap : Bitmap) {rect : Rect} (solid : rect.Solid) (earlier later : List Byte) :
    HoldsRect (earlier ++ ((sourceRows bitmap.data (bitmap.lineSize * rect.top + rect.left * 4)
      bitmap.lineSize ((rect.right - rect.left).toNat * 4)
      (rect.bottom - rect.top).toNat).flatten ++ later)) earlier.length bitmap rect := by
  intro row column rowLower rowUpper columnLower columnUpper
  simp only [Rect.Solid] at solid
  obtain ⟨rowIndex, rfl⟩ := Int.eq_ofNat_of_zero_le rowLower
  obtain ⟨index, rfl⟩ := Int.eq_ofNat_of_zero_le columnLower
  obtain ⟨width, widthSame⟩ := Int.eq_ofNat_of_zero_le (show 0 ≤ rect.right - rect.left by omega)
  have rowInside : rowIndex < (rect.bottom - rect.top).toNat := by omega
  have inside : index < width * 4 := by omega
  have length := source_rows_bytes bitmap.data (bitmap.lineSize * rect.top + rect.left * 4)
    bitmap.lineSize (width * 4) (rect.bottom - rect.top).toNat
  have within : rowIndex * (width * 4) + index <
      (rect.bottom - rect.top).toNat * (width * 4) := by
    calc rowIndex * (width * 4) + index
        < rowIndex * (width * 4) + width * 4 := by omega
      _ = (rowIndex + 1) * (width * 4) := by rw [Nat.succ_mul]
      _ ≤ (rect.bottom - rect.top).toNat * (width * 4) := Nat.mul_le_mul_right _ (by omega)
  have offset : ((earlier.length : Int) + rowIndex * ((rect.right - rect.left) * 4) +
      index).toNat = earlier.length + (rowIndex * (width * 4) + index) := by
    rw [widthSame]
    have cast : ((rowIndex * (width * 4) : Nat) : Int) = (rowIndex : Int) * ((width : Int) * 4) := by
      push_cast
      rfl
    omega
  rw [snapshotData, offset, widthSame, Int.toNat_natCast,
    List.getD_append_right _ _ _ _ (by omega), Nat.add_sub_cancel_left,
    List.getD_append _ _ _ _ (by omega),
    source_rows_get bitmap.data _ bitmap.lineSize rowInside inside]

/-- The rectangle as the job has it. -/
def packedRect (rect : Rect) (dataOffset : Int) : EncVncPlanarRect where
  left := rect.left
  top := rect.top
  width := rect.right - rect.left
  height := rect.bottom - rect.top
  dataOffset := dataOffset

/-- One tile, cut from the snapshot or from the bitmap. -/
theorem tile_wire_same (job : EncVncPlanar) (bitmap : Bitmap) {rect : Rect} {dataOffset : Int}
    (holds : HoldsRect job.pixels dataOffset bitmap rect) (rectIndex : Nat)
    (tileWidth tileHeight : Int) {yoffset xoffset : Int} (row : 0 ≤ yoffset)
    (column : 0 ≤ xoffset) :
    tileWire (tilePlan job rectIndex (packedRect rect dataOffset) tileWidth yoffset
        (min (rect.bottom - rect.top - yoffset) tileHeight) xoffset true) =
      tilePdu bitmap job.surfaceId job.originX job.originY
        { left := rect.left + xoffset
          top := rect.top + yoffset
          right := rect.left + xoffset + min (rect.right - (rect.left + xoffset)) tileWidth
          bottom := rect.top + yoffset + min (rect.bottom - (rect.top + yoffset)) tileHeight } := by
  simp only [tileWire, tilePlan, tileDone, tilePdu, tileBytes, tileRows, compressSnapshotTile,
    packedRect, Rect.relativeTo]
  rw [show rect.right - (rect.left + xoffset) = rect.right - rect.left - xoffset by omega,
    show rect.bottom - (rect.top + yoffset) = rect.bottom - rect.top - yoffset by omega]
  generalize widthBound : min (rect.right - rect.left - xoffset) tileWidth = bwidth
  generalize heightBound : min (rect.bottom - rect.top - yoffset) tileHeight = bheight
  rw [show rect.left + xoffset + bwidth - (rect.left + xoffset) = bwidth by omega,
    show rect.top + yoffset + bheight - (rect.top + yoffset) = bheight by omega]
  have rows : sourceRows (snapshotData job.pixels)
        (dataOffset + (yoffset * (rect.right - rect.left) + xoffset) * 4)
        ((rect.right - rect.left) * 4) (bwidth.toNat * 4) bheight.toNat =
      sourceRows bitmap.data
        (bitmap.lineSize * (rect.top + yoffset) + (rect.left + xoffset) * 4) bitmap.lineSize
        (bwidth.toNat * 4) bheight.toNat := by
    apply source_rows_congr
    intro rowIndex rowInside index inside
    have found := holds (yoffset + rowIndex) (xoffset * 4 + index) (by omega) (by omega) (by omega)
      (by omega)
    rw [show dataOffset + (yoffset + rowIndex) * ((rect.right - rect.left) * 4) +
          (xoffset * 4 + index) = dataOffset + (yoffset * (rect.right - rect.left) + xoffset) * 4 +
          rowIndex * ((rect.right - rect.left) * 4) + index by ring,
      show bitmap.lineSize * rect.top + rect.left * 4 + (yoffset + rowIndex) * bitmap.lineSize +
          (xoffset * 4 + index) = bitmap.lineSize * (rect.top + yoffset) +
          (rect.left + xoffset) * 4 + rowIndex * bitmap.lineSize + index by ring] at found
    exact found
  rw [rows]
  congr 2 <;> omega

/-- All tiles of one rectangle. -/
theorem rect_wires_same (job : EncVncPlanar) (bitmap : Bitmap) {rect : Rect} (solid : rect.Solid)
    {dataOffset : Int} (holds : HoldsRect job.pixels dataOffset bitmap rect) (rectIndex : Nat) :
    (rectPlan job (packedRect rect dataOffset, rectIndex)).map (fun tile => tileWire (tile true)) =
      (tileRects rect).map (tilePdu bitmap job.surfaceId job.originX job.originY) := by
  simp only [Rect.Solid] at solid
  obtain ⟨width, height, -⟩ := @tile_size_bounds (rect.right - rect.left).toNat
    (rect.bottom - rect.top).toNat (by omega) (by omega)
  have plan : rectPlan job (packedRect rect dataOffset, rectIndex) =
      (forRange 0 (rect.bottom - rect.top)
        (tileSize (rect.right - rect.left).toNat (rect.bottom - rect.top).toNat).2).flatMap
        (rowPlan job rectIndex (packedRect rect dataOffset)
          (tileSize (rect.right - rect.left).toNat (rect.bottom - rect.top).toNat).1
          (tileSize (rect.right - rect.left).toNat (rect.bottom - rect.top).toNat).2) := by
    rw [rectPlan, if_neg (by simp only [packedRect]; omega)]
    rfl
  simp only [plan, tileRects]
  rw [for_range_shift rect.top rect.bottom, for_range_shift rect.left rect.right]
  simp only [List.map_flatMap, List.flatMap_map, List.map_map]
  apply flat_map_congr
  intro yoffset rowMember
  have row := for_range_bounds (by omega) rowMember
  simp only [rowPlan, List.map_map]
  apply List.map_congr_left
  intro xoffset columnMember
  have column := for_range_bounds (by omega) columnMember
  exact tile_wire_same job bitmap holds rectIndex _ _ row.1 column.1

/-- All tiles of a job, in order. -/
theorem snapshot_wires_same (job : EncVncPlanar) (bitmap : Bitmap) {rects : List Rect}
    (solid : ∀ rect ∈ rects, rect.Solid) (earlier : List Byte) (rectIndex : Nat)
    (pixels : job.pixels = earlier ++ (snapshotRects bitmap rects earlier.length).2) :
    (((snapshotRects bitmap rects earlier.length).1.zipIdx rectIndex).flatMap (rectPlan job)).map
        (fun tile => tileWire (tile true)) =
      rects.flatMap fun rect =>
        planarRectTiles bitmap rect job.surfaceId job.originX job.originY := by
  induction rects generalizing earlier rectIndex with
  | nil => rfl
  | cons rect rest ih =>
      have head := solid rect (List.mem_cons_self ..)
      have tiles := planar_rect_tiles head bitmap job.surfaceId job.originX job.originY
      have length := source_rows_bytes bitmap.data
        (bitmap.lineSize * rect.top + rect.left * 4) bitmap.lineSize
        ((rect.right - rect.left).toNat * 4) (rect.bottom - rect.top).toNat
      have some_pixel : ¬(rect.right - rect.left < 1 ∨ rect.bottom - rect.top < 1) := by
        simp only [Rect.Solid] at head
        omega
      have bytes := solid_bytes head
      simp only [snapshotRects, if_neg some_pixel] at pixels ⊢
      generalize copied : (sourceRows bitmap.data (bitmap.lineSize * rect.top + rect.left * 4)
        bitmap.lineSize ((rect.right - rect.left).toNat * 4)
        (rect.bottom - rect.top).toNat).flatten = rows at pixels length
      have next : (earlier.length : Int) + (rect.right - rect.left) * (rect.bottom - rect.top) * 4 =
          (earlier ++ rows).length := by
        rw [List.length_append, length]
        push_cast at bytes ⊢
        omega
      rw [next] at pixels ⊢
      have holds : HoldsRect job.pixels earlier.length bitmap rect := by
        rw [pixels, ← copied]
        exact holds_rect bitmap head earlier _
      have later := ih (fun other member => solid other (List.mem_cons_of_mem rect member))
        (earlier ++ rows) (rectIndex + 1) (by rw [pixels, List.append_assoc])
      rw [List.zipIdx_cons, List.flatMap_cons, List.map_append, later, List.flatMap_cons, tiles]
      congr 1
      exact rect_wires_same job bitmap head holds rectIndex

/-- The encoder thread sends the tiles the synchronous path would have sent. -/
theorem planar_job_wires {R : Type} (self : Mm R) (encoder : Encoder) (bitmap : Bitmap)
    {rects : List Rect} (surfaceId x y : Int) (solid : ∀ rect ∈ rects, rect.Solid) :
    (jobPlan (planarJob self encoder bitmap rects surfaceId x y)).map
        (fun tile => tileWire (tile true)) =
      rects.flatMap fun rect => planarRectTiles bitmap rect surfaceId x y :=
  snapshot_wires_same (planarJob self encoder bitmap rects surfaceId x y) bitmap solid [] 0 rfl

end XrdpConsole.PlanarSnapshot
