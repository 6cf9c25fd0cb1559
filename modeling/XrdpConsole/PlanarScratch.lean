import Mathlib.Algebra.Order.BigOperators.Group.List
import XrdpConsole.JobCompletions

/-!
# The scratch buffers of the planar compression

`fpack` writes before anything compares the bytes with the limit, and starts over
where the raw planes are shorter. The buffers hold every such attempt, apart from
the one on a column of 4096 pixels.
-/

namespace XrdpConsole.PlanarScratch

open XrdpConsole.Library
open XrdpConsole.VncState
open XrdpConsole.Region
open XrdpConsole.MmState
open XrdpConsole.PlanarCompress
open XrdpConsole.PlanarSend
open XrdpConsole.PlanarRoundTrip
open XrdpConsole.PlanarTiles
open XrdpConsole.PlanarWorker
open XrdpConsole.JobCompletions

set_option autoImplicit false

/-! ## Attempts -/

/-- What the loop of `compressRle` has written from `hold_p` on each time before it sets `s->p`
back or ends. -/
def rleAttempts (header rawHeader cx byteLimit : Nat) (planes : List (List (List Byte))) :
    Nat → List (List Byte)
  | 0 => []
  | cy + 1 =>
      let packed := (planes.map fdelta).flatMap fun plane => fpack plane (cy + 1)
      let maxBytes := cx * (cy + 1) * planes.length
      (UInt8.ofNat header :: packed) ::
        if packed.length > maxBytes ∧ 2 + maxBytes ≤ byteLimit then
          [foutraw rawHeader planes (cy + 1)]
        else if 1 + packed.length ≤ byteLimit then
          []
        else
          rleAttempts header rawHeader cx byteLimit planes cy

/-- What stays in the stream is the last attempt. -/
theorem rle_attempts_last (header rawHeader cx byteLimit : Nat) (planes : List (List (List Byte)))
    (cy : Nat) (written : List Byte) :
    (compressRle header rawHeader cx byteLimit planes cy written).2 =
      (rleAttempts header rawHeader cx byteLimit planes cy).getLastD written := by
  induction cy generalizing written with
  | zero => rfl
  | succ cy ih =>
      simp only [compressRle, rleAttempts, List.getLastD_cons]
      split
      · rfl
      · split
        · rfl
        · exact ih _

/-- The planes of a tile. -/
def tilePlanes (rows : List (List Byte)) (bwidth bheight : Nat) : List (List (List Byte)) :=
  fsplit4 (bottomUp rows) (bheight - 1) bwidth 0

/-- The attempts of `compressTile`. -/
def tileAttempts (rows : List (List Byte)) (bwidth bheight : Nat) : List (List Byte) :=
  rleAttempts 0x10 0 bwidth gfxPlanarBytes (tilePlanes rows bwidth bheight)
    (fsplitLines bwidth 0 (bheight - 1 + 1) 0).length

theorem compress_tile_rle (rows : List (List Byte)) (bwidth bheight : Nat) :
    compressTile rows bwidth bheight = compressRle 0x10 0 bwidth gfxPlanarBytes
      (tilePlanes rows bwidth bheight) (fsplitLines bwidth 0 (bheight - 1 + 1) 0).length [] := rfl

theorem tile_attempts_last (rows : List (List Byte)) (bwidth bheight : Nat) :
    (compressTile rows bwidth bheight).2 = (tileAttempts rows bwidth bheight).getLastD [] := by
  rw [compress_tile_rle, rle_attempts_last]
  rfl

/-! ## Lines -/

/-- Two bytes for a single value, and fewer than two each for more of them. -/
def PackedWithin (values : Nat) (packed : List Byte) : Prop :=
  packed.length ≤ 2 * values ∧ (2 ≤ values → packed.length < 2 * values)

theorem fout_runs_within (fuel collen replen : Nat) (colptr : List Byte) :
    PackedWithin (collen + replen) (foutRuns fuel collen replen colptr) := by
  induction fuel generalizing collen replen colptr with
  | zero => simp [PackedWithin, foutRuns]; omega
  | succ fuel ih =>
      rw [foutRuns]
      by_cases more : collen > 0 ∨ replen > 0
      · rw [if_pos more]
        by_cases big : collen = 0 ∧ replen > 15
        · rw [if_pos big]
          have rest := (ih 0 (replen - min replen 47) (colptr.drop (min replen 47))).1
          simp only [PackedWithin, List.length_cons]
          omega
        · rw [if_neg big]
          by_cases short : min replen 15 < 3
          · have rest := (ih 0 (replen - min replen 15)
              (colptr.drop (collen + min replen 15))).1
            have raw := List.length_take_le (collen + min replen 15) colptr
            simp only [if_pos short, Nat.add_zero, PackedWithin, List.cons_append,
              List.length_cons, List.length_append]
            omega
          · have rest := (ih 0 (replen - min replen 15)
              (colptr.drop (collen + min replen 15))).1
            have raw := List.length_take_le collen colptr
            simp only [if_neg short, PackedWithin, List.cons_append, List.length_cons,
              List.length_append]
            omega
      · rw [if_neg more]
        simp only [PackedWithin, List.length_nil]
        omega

theorem fout_within (fuel collen replen : Nat) (colptr : List Byte) :
    PackedWithin (collen + replen) (fout fuel collen replen colptr) := by
  induction fuel generalizing collen colptr with
  | zero => simp [PackedWithin, fout]; omega
  | succ fuel ih =>
      rw [fout]
      by_cases long : collen > 13
      · rw [if_pos long]
        have rest := (ih (collen - min collen 15) (colptr.drop (min collen 15))).1
        have raw := List.length_take_le (min collen 15) colptr
        simp only [PackedWithin, List.cons_append, List.length_cons, List.length_append]
        omega
      · rw [if_neg long]
        exact fout_runs_within _ collen replen colptr

/-- In the middle of a line only a run of three or more values is written. -/
theorem pack_loop_within (collen replen : Nat) (colptr : List Byte) (current : Byte)
    (rest : List Byte) :
    PackedWithin (collen + replen + rest.length) (packLoop collen replen colptr current rest) := by
  induction rest generalizing collen replen colptr current with
  | nil => exact fout_within (collen + 1) collen replen colptr
  | cons next rest ih =>
      rw [packLoop, List.length_cons]
      by_cases same : current = next
      · rw [if_pos same]
        have later := ih collen (replen + 1) colptr next
        rwa [show collen + (replen + 1) + rest.length = collen + replen + (rest.length + 1) by omega]
          at later
      · rw [if_neg same]
        by_cases running : replen > 0
        · rw [if_pos running]
          by_cases short : replen < 3
          · rw [if_pos short]
            have later := ih (collen + replen + 1) 0 colptr next
            rwa [show collen + replen + 1 + 0 + rest.length =
              collen + replen + (rest.length + 1) by omega] at later
          · rw [if_neg short]
            have segment := (fout_within (collen + 1) collen replen colptr).2 (by omega)
            have later := (ih 1 0 (next :: rest) next).1
            simp only [PackedWithin, List.length_append]
            omega
        · rw [if_neg running]
          have later := ih (collen + 1) 0 colptr next
          rwa [show collen + 1 + 0 + rest.length = collen + replen + (rest.length + 1) by omega]
            at later

theorem pack_line_within (line : List Byte) : PackedWithin line.length (packLine line) := by
  cases line with
  | nil => simp [PackedWithin, packLine]
  | cons first rest =>
      rw [packLine, List.length_cons, Nat.add_comm]
      split
      · exact pack_loop_within 0 1 (first :: rest) first rest
      · exact pack_loop_within 1 0 (first :: rest) first rest

/-- Whatever it holds, a line of one byte takes two. -/
theorem pack_line_single (value : Byte) : (packLine [value]).length = 2 := by
  rw [packLine]
  split <;> simp [packLoop, fout, foutRuns]

/-! ## Planes -/

theorem flatten_plane_length {cx cy : Nat} {plane : List (List Byte)}
    (size : PlaneSize cx cy plane) : plane.flatten.length = cx * cy := by
  obtain ⟨height, width⟩ := size
  rw [List.length_flatten, List.map_congr_left width, List.map_const', List.sum_replicate_nat,
    height, Nat.mul_comm]

theorem fdelta_plane_size {cx cy : Nat} {plane : List (List Byte)} (size : PlaneSize cx cy plane) :
    PlaneSize cx cy (fdelta plane) := by
  obtain ⟨height, width⟩ := fdelta_lengths plane cx size.2
  exact ⟨height.trans size.1, width⟩

theorem fpack_length_single {cy : Nat} {plane : List (List Byte)} (size : PlaneSize 1 cy plane) :
    (fpack plane cy).length = 2 * cy := by
  have lines : ∀ line ∈ plane, (packLine line).length = 2 := by
    intro line member
    obtain ⟨value, rfl⟩ := List.length_eq_one_iff.mp (size.2 line member)
    exact pack_line_single value
  rw [fpack, List.take_of_length_le size.1.le, List.length_flatMap, List.map_congr_left lines,
    List.map_const', List.sum_replicate_nat, size.1, Nat.mul_comm]

theorem fpack_length_wide {cx cy : Nat} {plane : List (List Byte)} (wide : 2 ≤ cx)
    (size : PlaneSize cx cy plane) : (fpack plane cy).length ≤ cy * (2 * cx - 1) := by
  rw [fpack, List.take_of_length_le size.1.le, List.length_flatMap, ← size.1]
  have lines : ∀ line ∈ plane, (packLine line).length ≤ 2 * cx - 1 := by
    intro line member
    have within := (pack_line_within line).2
    rw [size.2 line member] at within
    have shorter := within wide
    omega
  have total := List.sum_le_card_nsmul (plane.map fun line => (packLine line).length) (2 * cx - 1)
    (by simpa using lines)
  simpa using total

/-- A tile with all its rows, as both senders cut it. -/
structure TileRows (rows : List (List Byte)) (bwidth bheight : Nat) : Prop where
  height : rows.length = bheight
  widths : ∀ row ∈ rows, row.length = bwidth * 4
  some_row : 0 < bheight
  some_column : 0 < bwidth
  area : bwidth * bheight ≤ 4096

section Tiles

variable {rows : List (List Byte)} {bwidth bheight : Nat}

theorem tile_planes_size (tile : TileRows rows bwidth bheight) :
    ∀ plane ∈ tilePlanes rows bwidth bheight, PlaneSize bwidth bheight plane := by
  have reversed := @fsplit_reversed bwidth rows (by rw [tile.height]; exact tile.some_row)
    tile.widths (by rw [tile.height]; exact tile.area)
  rw [tile.height, ← bottom_up_reverse] at reversed
  intro plane member
  simp only [tilePlanes, fsplit4, reversed, List.mem_cons, List.not_mem_nil, or_false] at member
  have size := @channel_plane_size bwidth rows tile.widths
  rw [tile.height] at size
  rcases member with rfl | rfl | rfl | rfl <;> exact size _

theorem tile_lines_all (tile : TileRows rows bwidth bheight) :
    (fsplitLines bwidth 0 (bheight - 1 + 1) 0).length = bheight := by
  have fits : 0 + bheight * bwidth ≤ 64 * 64 := by
    rw [Nat.zero_add, Nat.mul_comm]
    exact tile.area
  rw [Nat.sub_add_cancel tile.some_row, fsplit_lines_all bwidth bheight 0 fits]
  simp

/-- The four planes, coded. -/
def tilePacked (rows : List (List Byte)) (bwidth bheight : Nat) : List Byte :=
  ((tilePlanes rows bwidth bheight).map fdelta).flatMap fun plane => fpack plane bheight

theorem tile_packed_length (rows : List (List Byte)) (bwidth bheight : Nat) {bytes : Nat}
    (each : ∀ plane ∈ tilePlanes rows bwidth bheight, (fpack (fdelta plane) bheight).length = bytes) :
    (tilePacked rows bwidth bheight).length = 4 * bytes := by
  rw [tilePacked, List.flatMap_map, List.length_flatMap, List.map_congr_left each,
    List.map_const', List.sum_replicate_nat]
  rfl

theorem tile_packed_single (tile : TileRows rows 1 bheight) :
    (tilePacked rows 1 bheight).length = 8 * bheight := by
  have length := tile_packed_length rows 1 bheight fun plane member =>
    fpack_length_single (fdelta_plane_size (tile_planes_size tile plane member))
  omega

theorem tile_packed_wide (wide : 2 ≤ bwidth) (tile : TileRows rows bwidth bheight) :
    (tilePacked rows bwidth bheight).length + 4 * bheight ≤ 8 * (bwidth * bheight) := by
  have each : ∀ plane ∈ tilePlanes rows bwidth bheight,
      (fpack (fdelta plane) bheight).length ≤ bheight * (2 * bwidth - 1) := fun plane member =>
    fpack_length_wide wide (fdelta_plane_size (tile_planes_size tile plane member))
  have total := List.sum_le_card_nsmul
    ((tilePlanes rows bwidth bheight).map fun plane => (fpack (fdelta plane) bheight).length)
    (bheight * (2 * bwidth - 1)) (by simpa using each)
  rw [tilePacked, List.flatMap_map, List.length_flatMap]
  have product : bheight * (2 * bwidth - 1) + bheight = 2 * (bwidth * bheight) := by
    obtain ⟨more, rfl⟩ : ∃ more, bwidth = more + 1 := ⟨bwidth - 1, by omega⟩
    rw [show 2 * (more + 1) - 1 = 2 * more + 1 by omega]
    ring
  have count : (tilePlanes rows bwidth bheight).length = 4 := rfl
  rw [List.length_map, count, nsmul_eq_mul, Nat.cast_ofNat] at total
  omega

theorem raw_tile_length (tile : TileRows rows bwidth bheight) :
    (foutraw 0 (tilePlanes rows bwidth bheight) bheight).length = 2 + 4 * (bwidth * bheight) := by
  have sizes := tile_planes_size tile
  have each : ∀ plane ∈ tilePlanes rows bwidth bheight,
      ((plane.take bheight).flatten).length = bwidth * bheight := by
    intro plane member
    rw [List.take_of_length_le (sizes plane member).1.le,
      flatten_plane_length (sizes plane member)]
  rw [foutraw, List.length_append, List.length_cons, List.length_flatMap,
    List.map_congr_left each]
  simp [tilePlanes, fsplit4]
  omega

/-- There is one attempt, and the raw planes where they are shorter. -/
theorem tile_attempts_eq (tile : TileRows rows bwidth bheight) :
    tileAttempts rows bwidth bheight = (0x10 :: tilePacked rows bwidth bheight) ::
      if 4 * (bwidth * bheight) < (tilePacked rows bwidth bheight).length then
        [foutraw 0 (tilePlanes rows bwidth bheight) bheight]
      else [] := by
  have area := tile.area
  have count : (tilePlanes rows bwidth bheight).length = 4 := rfl
  obtain ⟨fewer, rfl⟩ : ∃ fewer, bheight = fewer + 1 :=
    ⟨bheight - 1, (Nat.sub_add_cancel tile.some_row).symm⟩
  rw [tileAttempts, tile_lines_all tile]
  simp only [rleAttempts, count]
  rw [show UInt8.ofNat 0x10 = 0x10 from rfl]
  congr 1
  rw [← tilePacked, gfxPlanarBytes, Nat.mul_comm (bwidth * (fewer + 1)) 4]
  by_cases long : 4 * (bwidth * (fewer + 1)) < (tilePacked rows bwidth (fewer + 1)).length
  · rw [if_pos long, if_pos ⟨long, by omega⟩]
  · rw [if_neg long, if_neg fun both => long both.1, if_pos (by omega)]

end Tiles

/-! ## Tiles that fit -/

/-- Everything the compression of one tile puts into a scratch buffer fits it. -/
structure TileFits (rows : List (List Byte)) (bwidth bheight : Nat) : Prop where
  some_pixel : 1 ≤ bwidth * bheight
  area : bwidth * bheight ≤ 4096
  copied : (bottomUp rows).length ≤ gfxPlanarBytes
  planes : ∀ plane ∈ tilePlanes rows bwidth bheight,
    plane.flatten.length ≤ 4 * 1024 ∧ (fdelta plane).flatten.length ≤ 4 * 1024
  stream : ∀ attempt ∈ tileAttempts rows bwidth bheight, attempt.length ≤ gfxPlanarBytes
  lines : (compressTile rows bwidth bheight).1 = bheight

theorem tile_fits_iff {rows : List (List Byte)} {bwidth bheight : Nat}
    (tile : TileRows rows bwidth bheight) :
    TileFits rows bwidth bheight ↔ ¬(bwidth = 1 ∧ bheight = 4096) := by
  have attempts := tile_attempts_eq tile
  constructor
  · rintro fits ⟨rfl, rfl⟩
    have first := fits.stream (0x10 :: tilePacked rows 1 4096) (by simp [attempts])
    rw [List.length_cons, tile_packed_single tile, gfxPlanarBytes] at first
    omega
  · intro narrow
    have area := tile.area
    have positive := Nat.mul_pos tile.some_column tile.some_row
    have packed : (tilePacked rows bwidth bheight).length + 1 ≤ gfxPlanarBytes := by
      rw [gfxPlanarBytes]
      by_cases single : bwidth = 1
      · subst single
        have length := tile_packed_single tile
        omega
      · have bound := tile_packed_wide (by have := tile.some_column; omega) tile
        have some_row := tile.some_row
        omega
    refine ⟨positive, area, ?_, ?_, ?_, ?_⟩
    · rw [bottom_up_reverse, List.length_flatten]
      have widths : ∀ row ∈ rows.reverse, row.length = bwidth * 4 := fun row member =>
        tile.widths row (List.mem_reverse.mp member)
      rw [List.map_congr_left widths, List.map_const', List.sum_replicate_nat,
        List.length_reverse, tile.height, gfxPlanarBytes]
      have product : bheight * (bwidth * 4) = 4 * (bwidth * bheight) := by ring
      omega
    · intro plane member
      have size := tile_planes_size tile plane member
      rw [flatten_plane_length size, flatten_plane_length (fdelta_plane_size size)]
      exact ⟨area, area⟩
    · intro attempt member
      rw [attempts] at member
      rcases List.mem_cons.mp member with rfl | raw
      · exact packed
      · split at raw
        · rw [List.mem_singleton.mp raw, raw_tile_length tile, gfxPlanarBytes]
          omega
        · exact absurd raw List.not_mem_nil
    · rw [compress_tile_rle, tile_lines_all tile]
      rcases compress_rle_form 0x10 0 bwidth gfxPlanarBytes bheight
        (tilePlanes rows bwidth bheight) [] tile.some_row (by
          have count : (tilePlanes rows bwidth bheight).length = 4 := rfl
          rw [count, gfxPlanarBytes]
          omega) with raw | coded
      · rw [raw]
      · rw [coded]

/-! ## Rectangles -/

/-- The rows of the tile that `compressSnapshotTile` compresses. -/
def snapshotRows (job : EncVncPlanar) (entry : EncVncPlanarRect)
    (yoffset bheight xoffset bwidth : Int) : List (List Byte) :=
  sourceRows (snapshotData job.pixels) (entry.dataOffset + (yoffset * entry.width + xoffset) * 4)
    (entry.width * 4) (bwidth.toNat * 4) bheight.toNat

/-- The tiles `process_enc_vnc_planar` cuts from a rectangle of the snapshot. -/
def SnapshotTilesFit (job : EncVncPlanar) (entry : EncVncPlanarRect) : Prop :=
  let tile := tileSize entry.width.toNat entry.height.toNat
  ∀ yoffset ∈ forRange 0 entry.height tile.2, ∀ xoffset ∈ forRange 0 entry.width tile.1,
    let bheight := min (entry.height - yoffset) tile.2
    let bwidth := min (entry.width - xoffset) tile.1
    TileFits (snapshotRows job entry yoffset bheight xoffset bwidth) bwidth.toNat bheight.toNat

/-- The tiles `xrdp_mm_egfx_send_planar_rect_data` cuts from the bitmap. -/
def BitmapTilesFit (bitmap : Bitmap) (rect : Rect) : Prop :=
  ∀ tile ∈ tileRects rect, TileFits (tileRows bitmap tile) (tile.right - tile.left).toNat
    (tile.bottom - tile.top).toNat

theorem source_tile_rows (data : Int → Byte) (src8 stride : Int) {bwidth bheight : Nat}
    (width : 0 < bwidth) (height : 0 < bheight) (area : bwidth * bheight ≤ 4096) :
    TileRows (sourceRows data src8 stride (bwidth * 4) bheight) bwidth bheight where
  height := source_rows_length data src8 stride (bwidth * 4) bheight
  widths _ member := source_rows_width data src8 stride (bwidth * 4) bheight member
  some_row := height
  some_column := width
  area := area

/-- Only a rectangle that is one pixel wide gets tiles of full height. -/
theorem tall_tile {bwidth bheight : Nat} (width : 0 < bwidth)
    (tall : 4096 ≤ (tileSize bwidth bheight).2) : bwidth = 1 := by
  have narrow : ∀ cx < 64, 2 ≤ cx → (growTile 64 cx (4096 / cx)).2 < 4096 := by decide
  have low : ∀ cy < 64, (growTile 64 (4096 / cy) cy).2 < 4096 := by decide
  have square : (growTile 64 64 64).2 < 4096 := by decide
  unfold tileSize at tall
  split at tall
  · by_contra other
    have bound := narrow bwidth ‹_› (by omega)
    omega
  · split at tall
    · have bound := low bheight ‹_›
      omega
    · omega

theorem tile_size_column (bheight : Nat) : tileSize 1 bheight = (1, 4096) := by
  rw [tileSize, if_pos (by decide)]
  rfl

section Rectangles

variable {width height xoffset yoffset : Int}

/-- The part of a rectangle that one round of the loops compresses. -/
theorem cut_bounds (some_column : 0 < width) (some_row : 0 < height)
    (row : yoffset ∈ forRange 0 height (tileSize width.toNat height.toNat).2)
    (column : xoffset ∈ forRange 0 width (tileSize width.toNat height.toNat).1) :
    0 < (min (width - xoffset) (tileSize width.toNat height.toNat).1).toNat ∧
      0 < (min (height - yoffset) (tileSize width.toNat height.toNat).2).toNat ∧
      (min (width - xoffset) (tileSize width.toNat height.toNat).1).toNat *
        (min (height - yoffset) (tileSize width.toNat height.toNat).2).toNat ≤ 4096 := by
  obtain ⟨tileWidth, tileHeight, area⟩ := @tile_size_bounds width.toNat height.toNat
    (by omega) (by omega)
  have rowBounds := for_range_bounds (by omega) row
  have columnBounds := for_range_bounds (by omega) column
  refine ⟨by omega, by omega, ?_⟩
  apply Nat.le_trans _ area
  apply Nat.mul_le_mul <;> omega

theorem cut_not_column (some_column : 0 < width) (some_row : 0 < height)
    (other : ¬(width = 1 ∧ 4096 ≤ height))
    (row : yoffset ∈ forRange 0 height (tileSize width.toNat height.toNat).2) :
    (min (height - yoffset) (tileSize width.toNat height.toNat).2).toNat ≠ 4096 := by
  intro tall
  have tileHeight := (@tile_size_bounds width.toNat height.toNat (by omega) (by omega)).2.1
  have rowBounds := for_range_bounds (by omega) row
  have single := @tall_tile width.toNat height.toNat (by omega) (by omega)
  omega

theorem zero_in_range {stop : Int} (some_value : 0 < stop) (step : Nat) :
    0 ∈ forRange 0 stop step := by
  obtain ⟨fuel, enough⟩ : ∃ fuel, (stop - 0).toNat = fuel + 1 := ⟨stop.toNat - 1, by omega⟩
  rw [forRange, enough, countSteps, if_pos some_value]
  exact List.mem_cons_self ..

end Rectangles

/-- The tiles of a rectangle of `width` times `height` pixels, copied from `src8` on. -/
def CopiedTilesFit (width height : Int) (data : Int → Byte) (src8 : Int → Int → Int)
    (stride : Int) : Prop :=
  let tile := tileSize width.toNat height.toNat
  ∀ yoffset ∈ forRange 0 height tile.2, ∀ xoffset ∈ forRange 0 width tile.1,
    let bheight := (min (height - yoffset) tile.2).toNat
    let bwidth := (min (width - xoffset) tile.1).toNat
    TileFits (sourceRows data (src8 yoffset xoffset) stride (bwidth * 4) bheight) bwidth bheight

/-- The buffers hold the tiles of every rectangle but those one pixel wide and 4096 high or
higher. -/
theorem copied_tiles_fit_iff {width height : Int} (some_column : 0 < width) (some_row : 0 < height)
    (data : Int → Byte) (src8 : Int → Int → Int) (stride : Int) :
    CopiedTilesFit width height data src8 stride ↔ ¬(width = 1 ∧ 4096 ≤ height) := by
  constructor
  · rintro fits ⟨rfl, tall⟩
    have row := zero_in_range some_row (tileSize (1 : Int).toNat height.toNat).2
    have column := zero_in_range some_column (tileSize (1 : Int).toNat height.toNat).1
    have cut := cut_bounds some_column some_row row column
    have first := (tile_fits_iff (source_tile_rows _ _ _ cut.1 cut.2.1 cut.2.2)).mp
      (fits 0 row 0 column)
    have size : tileSize (1 : Int).toNat height.toNat = (1, 4096) := tile_size_column _
    rw [size] at first
    omega
  · intro other yoffset row xoffset column
    obtain ⟨cutWidth, cutHeight, area⟩ := cut_bounds some_column some_row row column
    apply (tile_fits_iff (source_tile_rows _ _ _ cutWidth cutHeight area)).mpr
    exact fun both => cut_not_column some_column some_row other row both.2

theorem snapshot_tiles_copied (job : EncVncPlanar) (entry : EncVncPlanarRect) :
    SnapshotTilesFit job entry ↔ CopiedTilesFit entry.width entry.height (snapshotData job.pixels)
      (fun yoffset xoffset => entry.dataOffset + (yoffset * entry.width + xoffset) * 4)
      (entry.width * 4) := Iff.rfl

theorem bitmap_tiles_copied (bitmap : Bitmap) (rect : Rect) :
    BitmapTilesFit bitmap rect ↔
      CopiedTilesFit (rect.right - rect.left) (rect.bottom - rect.top) bitmap.data
        (fun yoffset xoffset => bitmap.lineSize * (rect.top + yoffset) + (rect.left + xoffset) * 4)
        bitmap.lineSize := by
  simp only [BitmapTilesFit, CopiedTilesFit, tileRects, List.forall_mem_flatMap, List.forall_mem_map,
    tileRows, add_sub_cancel_left]
  rw [for_range_shift rect.top, for_range_shift rect.left]
  simp only [List.forall_mem_map, ← Int.sub_sub]

/-- A rectangle of both senders; the compression of its tiles stays within the buffers if and only
if it is not a column of 4096 pixels or more. -/
theorem scratch_buffers_fit_iff (job : EncVncPlanar) (entry : EncVncPlanarRect) (bitmap : Bitmap)
    (width : 1 ≤ entry.width) (height : 1 ≤ entry.height) :
    (SnapshotTilesFit job entry ↔ ¬(entry.width = 1 ∧ 4096 ≤ entry.height)) ∧
      (BitmapTilesFit bitmap (entryRect entry) ↔ ¬(entry.width = 1 ∧ 4096 ≤ entry.height)) := by
  constructor
  · rw [snapshot_tiles_copied]
    exact copied_tiles_fit_iff width height _ _ _
  · have columns : (entryRect entry).right - (entryRect entry).left = entry.width := by
      simp [entryRect]
    have lines : (entryRect entry).bottom - (entryRect entry).top = entry.height := by
      simp [entryRect]
    rw [bitmap_tiles_copied, columns, lines]
    exact copied_tiles_fit_iff width height _ _ _

/-! ## A column of 4096 pixels -/

def columnEntry : EncVncPlanarRect where
  left := 0
  top := 0
  width := 1
  height := 4096
  dataOffset := 0

/-- A job with that column for its only rectangle. -/
def columnJob : EncVncPlanar where
  address := 0
  rects := [columnEntry]
  pixels := List.replicate (4096 * 4) 0
  pixelsBytes := 4096 * 4
  surfaceId := 0
  originX := 0
  originY := 0
  frameId := 1
  profile := false

theorem scratch_buffers_fit_pair :
    SnapshotTilesFit columnJob { columnEntry with width := 2 } ∧
      BitmapTilesFit (pixelSession 1 true).wm.screen (entryRect { columnEntry with width := 2 }) := by
  have fits := scratch_buffers_fit_iff columnJob { columnEntry with width := 2 }
    (pixelSession 1 true).wm.screen (by decide) (by decide)
  exact ⟨fits.1.mpr (by decide), fits.2.mpr (by decide)⟩

/-- The coded column is one byte longer than the stream. -/
theorem column_tile_overflows : ¬SnapshotTilesFit columnJob columnEntry := by
  rw [snapshot_tiles_copied, copied_tiles_fit_iff (by decide) (by decide)]
  decide

end XrdpConsole.PlanarScratch
