import XrdpConsole.PlanarRoundTrip
import XrdpConsole.PlanarSend

/-!
# Tiles

The tiles of a rectangle cover it, each of them is small enough to be compressed
whole, and what a client decodes from one is the part of the bitmap it was cut
from.
-/

namespace XrdpConsole.PlanarTiles

open XrdpConsole.Library
open XrdpConsole.VncState
open XrdpConsole.PlanarCompress
open XrdpConsole.PlanarDecode
open XrdpConsole.PlanarRoundTrip
open XrdpConsole.MmState
open XrdpConsole.PlanarSend

set_option autoImplicit false

/-! ## Tile sizes -/

theorem grow_tile_bounds (fuel cx cy : Nat) (width : 0 < cx) (height : 0 < cy)
    (area : cx * cy ≤ 4096) :
    0 < (growTile fuel cx cy).1 ∧ 0 < (growTile fuel cx cy).2 ∧
      (growTile fuel cx cy).1 * (growTile fuel cx cy).2 ≤ 4096 := by
  induction fuel generalizing cx cy with
  | zero => exact ⟨width, height, area⟩
  | succ fuel ih =>
      rw [growTile]
      split
      · rename_i small
        split
        · rename_i narrow
          have enough : cx + 1 ≤ 4096 := by
            have bound : cy ≤ cx * cy := Nat.le_mul_of_pos_left cy width
            omega
          apply ih
          · omega
          · exact Nat.div_pos enough (by omega)
          · exact Nat.mul_div_le 4096 (cx + 1)
        · rename_i wide
          have enough : cy + 1 ≤ 4096 := by
            by_contra tall
            have square : cy * cy ≤ cx * cy := Nat.mul_le_mul_right cy (by omega)
            have bound : cy ≤ cy * cy := Nat.le_mul_of_pos_left cy height
            omega
          apply ih
          · exact Nat.div_pos enough (by omega)
          · omega
          · exact Nat.div_mul_le_self 4096 (cy + 1)
      · exact ⟨width, height, area⟩

theorem tile_size_bounds {bwidth bheight : Nat} (width : 0 < bwidth) (height : 0 < bheight) :
    0 < (tileSize bwidth bheight).1 ∧ 0 < (tileSize bwidth bheight).2 ∧
      (tileSize bwidth bheight).1 * (tileSize bwidth bheight).2 ≤ 4096 := by
  unfold tileSize
  split
  · apply grow_tile_bounds _ _ _ width
    · exact Nat.div_pos (by omega) width
    · exact Nat.mul_div_le 4096 bwidth
  · split
    · apply grow_tile_bounds _ _ _ _ height
      · exact Nat.div_mul_le_self 4096 bheight
      · exact Nat.div_pos (by omega) height
    · exact grow_tile_bounds 64 64 64 (by decide) (by decide) (by decide)

/-- The loop ends by itself: the rounds it is given here are enough for every
rectangle. -/
theorem tile_size_full {bwidth bheight : Nat} (width : 0 < bwidth) (height : 0 < bheight) :
    (tileSize bwidth bheight).1 * (tileSize bwidth bheight).2 = 4096 := by
  have narrow : ∀ cx < 64, 0 < cx →
      (growTile 64 cx (4096 / cx)).1 * (growTile 64 cx (4096 / cx)).2 = 4096 := by decide
  have low : ∀ cy < 64, 0 < cy →
      (growTile 64 (4096 / cy) cy).1 * (growTile 64 (4096 / cy) cy).2 = 4096 := by decide
  unfold tileSize
  split
  · exact narrow bwidth ‹_› width
  · split
    · exact low bheight ‹_› height
    · decide

/-! ## Rows -/

theorem read_bytes_length (data : Int → Byte) (offset : Int) (bytes : Nat) :
    (readBytes data offset bytes).length = bytes := by
  induction bytes generalizing offset with
  | zero => rfl
  | succ bytes ih => rw [readBytes, List.length_cons, ih]

theorem source_rows_length (data : Int → Byte) (src8 stride : Int) (bytes rows : Nat) :
    (sourceRows data src8 stride bytes rows).length = rows := by
  induction rows generalizing src8 with
  | zero => rfl
  | succ rows ih => rw [sourceRows, List.length_cons, ih]

theorem source_rows_width (data : Int → Byte) (src8 stride : Int) (bytes rows : Nat)
    {row : List Byte} (member : row ∈ sourceRows data src8 stride bytes rows) :
    row.length = bytes := by
  induction rows generalizing src8 with
  | zero => simp [sourceRows] at member
  | succ rows ih =>
      rcases List.mem_cons.mp member with rfl | later
      · exact read_bytes_length data src8 bytes
      · exact ih _ later

theorem bottom_up_reverse (rows : List (List Byte)) : bottomUp rows = rows.reverse.flatten := by
  have loop : ∀ pixels, rows.foldl (fun pixels row => row ++ pixels) pixels =
      rows.reverse.flatten ++ pixels := by
    induction rows with
    | nil => exact fun pixels => rfl
    | cons row rows ih =>
        intro pixels
        rw [List.foldl_cons, ih]
        simp
  rw [bottomUp, loop, List.append_nil]

/-! ## Pixels -/

def pixelAt (data : Int → Byte) (offset : Int) : Pixel where
  b := data offset
  g := data (offset + 1)
  r := data (offset + 2)
  a := data (offset + 3)

/-- The pixel of a bitmap. -/
def bitmapPixel (bitmap : Bitmap) (x y : Int) : Pixel :=
  pixelAt bitmap.data (bitmap.lineSize * y + x * 4)

theorem read_pixels_bytes (data : Int → Byte) (offset : Int) (width : Nat) :
    readPixels width (readBytes data offset (width * 4)) =
      (List.range width).map fun index : Nat => pixelAt data (offset + index * 4) := by
  induction width generalizing offset with
  | zero => rfl
  | succ width ih =>
      have four : (width + 1) * 4 = width * 4 + 1 + 1 + 1 + 1 := by omega
      rw [four]
      simp only [readBytes, readPixels]
      rw [ih, List.range_succ_eq_map, List.map_cons, List.map_map]
      congr 1
      · simp [pixelAt, Int.add_assoc]
      · apply List.map_congr_left
        intro index _
        simp only [Function.comp_apply]
        congr 1
        push_cast
        omega

theorem read_pixels_rows (data : Int → Byte) (src8 stride : Int) (width rows : Nat) :
    (sourceRows data src8 stride (width * 4) rows).map (readPixels width) =
      (List.range rows).map fun row : Nat => (List.range width).map fun index : Nat =>
        pixelAt data (src8 + row * stride + index * 4) := by
  induction rows generalizing src8 with
  | zero => rfl
  | succ rows ih =>
      rw [sourceRows, List.map_cons, ih, read_pixels_bytes, List.range_succ_eq_map, List.map_cons,
        List.map_map]
      congr 1
      · simp
      · apply List.map_congr_left
        intro row _
        simp only [Function.comp_apply]
        apply List.map_congr_left
        intro index _
        congr 1
        rw [Int.natCast_succ, Int.add_mul]
        omega

/-- A tile of at most 4096 pixels is compressed whole, and decodes to the pixels of
the rows. -/
theorem compress_tile_rows {bwidth bheight : Nat} (height : 0 < bheight)
    (area : bwidth * bheight ≤ 4096) (data : Int → Byte) (src8 stride : Int) :
    ∃ bytes, compressTile (sourceRows data src8 stride (bwidth * 4) bheight) bwidth bheight =
        (bheight, bytes) ∧
      decodeBitmap bwidth bheight bytes =
        some ((List.range bheight).map fun row : Nat => (List.range bwidth).map fun index : Nat =>
          pixelAt data (src8 + row * stride + index * 4)) := by
  have rows := source_rows_length data src8 stride (bwidth * 4) bheight
  have decoded := @decode_compressed_tile bwidth
    (sourceRows data src8 stride (bwidth * 4) bheight) (by omega)
    (fun row member => source_rows_width data src8 stride _ _ member) (by rw [rows]; omega)
  rw [read_pixels_rows, rows] at decoded
  rw [compressTile, bottom_up_reverse]
  exact decoded

/-! ## The tiles of a rectangle -/

/-- The tiles in the order in which the loops take them. -/
def tileRects (rect : Rect) : List Rect :=
  let tile := tileSize (rect.right - rect.left).toNat (rect.bottom - rect.top).toNat
  (forRange rect.top rect.bottom tile.2).flatMap fun yindex =>
    (forRange rect.left rect.right tile.1).map fun xindex =>
      { left := xindex
        top := yindex
        right := xindex + min (rect.right - xindex) tile.1
        bottom := yindex + min (rect.bottom - yindex) tile.2 }

def tileRows (bitmap : Bitmap) (tile : Rect) : List (List Byte) :=
  sourceRows bitmap.data (bitmap.lineSize * tile.top + tile.left * 4) bitmap.lineSize
    ((tile.right - tile.left).toNat * 4) (tile.bottom - tile.top).toNat

def tileBytes (bitmap : Bitmap) (tile : Rect) : List Byte :=
  (compressTile (tileRows bitmap tile) (tile.right - tile.left).toNat
    (tile.bottom - tile.top).toNat).2

def tilePdu (bitmap : Bitmap) (surfaceId x y : Int) (tile : Rect) : GfxPdu :=
  .wireToSurface1 surfaceId codecidPlanar pixelFormatXrgb8888 (tile.relativeTo x y)
    (tileBytes bitmap tile)

theorem tile_rects_bounds {rect tile : Rect} (solid : rect.Solid) (member : tile ∈ tileRects rect) :
    tile.Solid ∧ tile.Inside rect ∧
      (tile.right - tile.left).toNat * (tile.bottom - tile.top).toNat ≤ 4096 := by
  simp only [Rect.Solid, Rect.Inside] at *
  obtain ⟨width, height, area⟩ := @tile_size_bounds (rect.right - rect.left).toNat
    (rect.bottom - rect.top).toNat (by omega) (by omega)
  simp only [tileRects, List.mem_flatMap, List.mem_map] at member
  rcases member with ⟨yindex, rowMember, xindex, columnMember, rfl⟩
  have row := for_range_bounds (by omega) rowMember
  have column := for_range_bounds (by omega) columnMember
  constructor
  · simp only
    omega
  constructor
  · simp only
    omega
  · apply Nat.le_trans _ area
    apply Nat.mul_le_mul <;> simp only <;> omega

theorem tile_rects_cover {rect : Rect} {x y : Int} (covered : rect.Covers x y) :
    ∃ tile ∈ tileRects rect, tile.Covers x y := by
  have solid := Rect.solid_of_covers covered
  simp only [Rect.Solid, Rect.Covers] at *
  obtain ⟨width, height, -⟩ := @tile_size_bounds (rect.right - rect.left).toNat
    (rect.bottom - rect.top).toNat (by omega) (by omega)
  obtain ⟨yindex, rowMember, row⟩ := @for_range_covers rect.top rect.bottom
    (tileSize (rect.right - rect.left).toNat (rect.bottom - rect.top).toNat).2 y
    (by omega) covered.2.2.1 covered.2.2.2
  obtain ⟨xindex, columnMember, column⟩ := @for_range_covers rect.left rect.right
    (tileSize (rect.right - rect.left).toNat (rect.bottom - rect.top).toNat).1 x
    (by omega) covered.1 covered.2.1
  refine ⟨_, List.mem_flatMap.mpr ⟨yindex, rowMember, List.mem_map.mpr
    ⟨xindex, columnMember, rfl⟩⟩, ?_⟩
  simp only
  omega

theorem flat_map_congr {Source Target : Type} {items : List Source}
    {left right : Source → List Target} (same : ∀ item ∈ items, left item = right item) :
    items.flatMap left = items.flatMap right := by
  rw [List.flatMap, List.flatMap, List.map_congr_left same]

/-- Every tile is compressed whole, so none is left out. -/
theorem planar_rect_tiles {rect : Rect} (solid : rect.Solid) (bitmap : Bitmap)
    (surfaceId x y : Int) :
    planarRectTiles bitmap rect surfaceId x y =
      (tileRects rect).map (tilePdu bitmap surfaceId x y) := by
  have bounds := fun tile => @tile_rects_bounds rect tile solid
  simp only [Rect.Solid] at solid
  unfold planarRectTiles
  simp only []
  rw [if_neg (by omega)]
  simp only [tileRects, List.map_flatMap, List.map_map]
  apply flat_map_congr
  intro yindex rowMember
  rw [List.map_eq_flatMap]
  apply flat_map_congr
  intro xindex columnMember
  have member : _ ∈ tileRects rect := List.mem_flatMap.mpr ⟨yindex, rowMember, List.mem_map.mpr
    ⟨xindex, columnMember, rfl⟩⟩
  obtain ⟨tileSolid, -, area⟩ := bounds _ member
  simp only [Rect.Solid] at tileSolid area
  have width : xindex + min (rect.right - xindex)
      (tileSize (rect.right - rect.left).toNat (rect.bottom - rect.top).toNat).1 - xindex =
      min (rect.right - xindex)
        (tileSize (rect.right - rect.left).toNat (rect.bottom - rect.top).toNat).1 := by omega
  have height : yindex + min (rect.bottom - yindex)
      (tileSize (rect.right - rect.left).toNat (rect.bottom - rect.top).toNat).2 - yindex =
      min (rect.bottom - yindex)
        (tileSize (rect.right - rect.left).toNat (rect.bottom - rect.top).toNat).2 := by omega
  rw [width, height] at area
  obtain ⟨bytes, compressed, -⟩ := compress_tile_rows (by omega) area bitmap.data
    (bitmap.lineSize * yindex + xindex * 4) bitmap.lineSize
  simp only [Function.comp_apply, tilePdu, tileBytes, tileRows, Rect.relativeTo, width, height]
  rw [compressed, if_neg (by simp)]
  congr 3 <;> omega

end XrdpConsole.PlanarTiles
