import Mathlib.Tactic.Ring
import XrdpConsole.DrawCalls

/-!
# The surfaces of the client

What a client that decodes every planar tile and pastes it has on its surfaces.
Nothing here is translated from the source.
-/

namespace XrdpConsole.PlanarClient

open XrdpConsole.Library
open XrdpConsole.VncState
open XrdpConsole.PlanarCompress
open XrdpConsole.PlanarDecode
open XrdpConsole.MmState
open XrdpConsole.PlanarSend
open XrdpConsole.PlanarTiles
open XrdpConsole.DrawSteps
open XrdpConsole.DrawCalls

set_option autoImplicit false

/-- The pixels of each surface; none where no tile has been pasted yet. -/
abbrev Surfaces := Int → Int → Int → Option Pixel

/-- A tile that does not decode is left out. -/
def pasteTile (surface : Int → Int → Option Pixel) (rect : Rect) (data : List Byte) :
    Int → Int → Option Pixel :=
  match decodeBitmap (rect.right - rect.left).toNat (rect.bottom - rect.top).toNat data with
  | none => surface
  | some rows => fun x y =>
      if rect.Covers x y then
        rows[(y - rect.top).toNat]?.bind fun row => row[(x - rect.left).toNat]?
      else
        surface x y

def paste (surfaces : Surfaces) : GfxPdu → Surfaces
  | .wireToSurface1 surfaceId codecId _ rect data =>
      if codecId = codecidPlanar then
        Function.update surfaces surfaceId (pasteTile (surfaces surfaceId) rect data)
      else
        surfaces
  | _ => surfaces

def pasteAll (surfaces : Surfaces) (pdus : List GfxPdu) : Surfaces := pdus.foldl paste surfaces

/-- The surfaces after everything that was sent. -/
def clientSurfaces (pdus : List GfxPdu) : Surfaces := pasteAll (fun _ _ _ => none) pdus

theorem paste_all_append (surfaces : Surfaces) (pdus later : List GfxPdu) :
    pasteAll surfaces (pdus ++ later) = pasteAll (pasteAll surfaces pdus) later :=
  List.foldl_append

/-- Only tiles are pasted. -/
theorem paste_all_filter (surfaces : Surfaces) (pdus : List GfxPdu) :
    pasteAll surfaces (pdus.filter isTile) = pasteAll surfaces pdus := by
  induction pdus generalizing surfaces with
  | nil => rfl
  | cons pdu rest ih =>
      cases pdu with
      | wireToSurface1 surfaceId codecId pixelFormat rect data => exact ih _
      | _ => exact ih surfaces

/-! ## Tiles of the screen -/

/-- A tile of a bitmap pastes the pixels of the bitmap. -/
theorem paste_tile_pixel (surfaces : Surfaces) (bitmap : Bitmap) (surfaceId originX originY : Int)
    {tile : Rect} (solid : tile.Solid)
    (area : (tile.right - tile.left).toNat * (tile.bottom - tile.top).toNat ≤ 4096) (x y : Int) :
    paste surfaces (tilePdu bitmap surfaceId originX originY tile) surfaceId
        (x - originX) (y - originY) =
      if tile.Covers x y then some (bitmapPixel bitmap x y)
      else surfaces surfaceId (x - originX) (y - originY) := by
  simp only [Rect.Solid] at solid
  obtain ⟨bytes, compressed, decoded⟩ := @compress_tile_rows (tile.right - tile.left).toNat
    (tile.bottom - tile.top).toNat (by omega) area bitmap.data
    (bitmap.lineSize * tile.top + tile.left * 4) bitmap.lineSize
  have data : tileBytes bitmap tile = bytes := by rw [tileBytes, tileRows, compressed]
  have width : tile.right - originX - (tile.left - originX) = tile.right - tile.left := by omega
  have height : tile.bottom - originY - (tile.top - originY) = tile.bottom - tile.top := by omega
  simp only [paste, tilePdu, if_true, Function.update_self, pasteTile, Rect.relativeTo, width, height,
    data, decoded]
  have covers := Rect.covers_relative_to tile originX originY x y
  simp only [Rect.relativeTo] at covers
  simp only [covers]
  by_cases covered : tile.Covers x y
  · rw [if_pos covered, if_pos covered]
    simp only [Rect.Covers] at covered
    have row : (y - originY - (tile.top - originY)).toNat < (tile.bottom - tile.top).toNat := by omega
    have column : (x - originX - (tile.left - originX)).toNat < (tile.right - tile.left).toNat := by
      omega
    simp only [List.getElem?_map, List.getElem?_range row, Option.map_some, Option.bind_some,
      List.getElem?_range column, bitmapPixel]
    congr 2
    have down : (((y - originY - (tile.top - originY)).toNat : Nat) : Int) = y - tile.top := by omega
    have across : (((x - originX - (tile.left - originX)).toNat : Nat) : Int) = x - tile.left := by
      omega
    rw [down, across]
    ring
  · rw [if_neg covered, if_neg covered]

theorem paste_tile_other (surfaces : Surfaces) (bitmap : Bitmap) {surfaceId other : Int}
    (originX originY : Int) (tile : Rect) (distinct : other ≠ surfaceId) :
    paste surfaces (tilePdu bitmap surfaceId originX originY tile) other = surfaces other := by
  simp only [paste, tilePdu, if_true, Function.update_of_ne distinct]

theorem paste_tiles_pixel (surfaces : Surfaces) (bitmap : Bitmap) (surfaceId originX originY : Int)
    {tiles : List Rect} (sound : ∀ tile ∈ tiles, tile.Solid ∧
      (tile.right - tile.left).toNat * (tile.bottom - tile.top).toNat ≤ 4096) (x y : Int) :
    pasteAll surfaces (tiles.map (tilePdu bitmap surfaceId originX originY)) surfaceId
        (x - originX) (y - originY) =
      if ∃ tile ∈ tiles, tile.Covers x y then some (bitmapPixel bitmap x y)
      else surfaces surfaceId (x - originX) (y - originY) := by
  induction tiles generalizing surfaces with
  | nil => simp [pasteAll]
  | cons tile tiles ih =>
      obtain ⟨solid, area⟩ := sound tile (List.mem_cons_self ..)
      rw [List.map_cons, pasteAll, List.foldl_cons]
      have rest := ih (paste surfaces (tilePdu bitmap surfaceId originX originY tile))
        fun other member => sound other (List.mem_cons_of_mem tile member)
      rw [pasteAll] at rest
      rw [rest, paste_tile_pixel surfaces bitmap surfaceId originX originY solid area]
      simp only [List.mem_cons, exists_eq_or_imp]
      by_cases first : tile.Covers x y
      · simp [first]
      · simp only [first, if_false, false_or]

theorem paste_tiles_other (surfaces : Surfaces) (bitmap : Bitmap) {surfaceId other : Int}
    (originX originY : Int) (tiles : List Rect) (distinct : other ≠ surfaceId) :
    pasteAll surfaces (tiles.map (tilePdu bitmap surfaceId originX originY)) other =
      surfaces other := by
  induction tiles generalizing surfaces with
  | nil => rfl
  | cons tile tiles ih =>
      have rest := ih (paste surfaces (tilePdu bitmap surfaceId originX originY tile))
      rw [List.map_cons, pasteAll, List.foldl_cons]
      rw [pasteAll] at rest
      rw [rest, paste_tile_other surfaces bitmap originX originY tile distinct]

/-! ## Calls -/

/-- The tiles of a rectangle cover the pixels of the rectangle. -/
theorem tiles_cover_iff {rects : List Rect} (solid : ∀ rect ∈ rects, rect.Solid) (x y : Int) :
    (∃ tile ∈ rects.flatMap tileRects, tile.Covers x y) ↔ ∃ rect ∈ rects, rect.Covers x y := by
  constructor
  · rintro ⟨tile, member, covered⟩
    obtain ⟨rect, rectMember, inRect⟩ := List.mem_flatMap.mp member
    obtain ⟨-, inside, -⟩ := tile_rects_bounds (solid rect rectMember) inRect
    exact ⟨rect, rectMember, Rect.inside_covers inside covered⟩
  · rintro ⟨rect, member, covered⟩
    obtain ⟨tile, tileMember, here⟩ := tile_rects_cover covered
    exact ⟨tile, List.mem_flatMap.mpr ⟨rect, member, tileMember⟩, here⟩

theorem call_tiles_map (screen : Bitmap) {call : PlanarCall}
    (solid : ∀ rect ∈ call.rects, rect.Solid) :
    callTiles screen call =
      (call.rects.flatMap tileRects).map (tilePdu screen call.surfaceId call.x call.y) := by
  rw [call_tiles screen solid, List.map_flatMap]

/-- After the calls of a draw a surface has the pixels of the screen where a rectangle of
its calls covers them, and what it had before elsewhere. -/
theorem paste_calls_pixel (surfaces : Surfaces) (screen : Bitmap) {calls : List PlanarCall}
    (solid : ∀ call ∈ calls, ∀ rect ∈ call.rects, rect.Solid) {surfaceId originX originY : Int}
    (origin : ∀ call ∈ calls, call.surfaceId = surfaceId → call.x = originX ∧ call.y = originY)
    (x y : Int) :
    pasteAll surfaces (calls.flatMap (callTiles screen)) surfaceId (x - originX) (y - originY) =
      if ∃ call ∈ calls, call.surfaceId = surfaceId ∧ ∃ rect ∈ call.rects, rect.Covers x y then
        some (bitmapPixel screen x y)
      else
        surfaces surfaceId (x - originX) (y - originY) := by
  induction calls generalizing surfaces with
  | nil => simp [pasteAll]
  | cons call calls ih =>
      have head := solid call (List.mem_cons_self ..)
      rw [List.flatMap_cons, paste_all_append,
        ih _ (fun other member => solid other (List.mem_cons_of_mem call member))
          (fun other member => origin other (List.mem_cons_of_mem call member)),
        call_tiles_map screen head]
      simp only [List.mem_cons, exists_eq_or_imp]
      by_cases same : call.surfaceId = surfaceId
      · obtain ⟨rfl, rfl⟩ := origin call (List.mem_cons_self ..) same
        subst same
        rw [paste_tiles_pixel surfaces screen call.surfaceId call.x call.y]
        · simp only [tiles_cover_iff head, true_and]
          by_cases first : ∃ rect ∈ call.rects, rect.Covers x y
          · simp [first]
          · simp only [first, if_false, false_or]
        · intro tile member
          obtain ⟨rect, rectMember, inRect⟩ := List.mem_flatMap.mp member
          obtain ⟨tileSolid, -, area⟩ := tile_rects_bounds (head rect rectMember) inRect
          exact ⟨tileSolid, area⟩
      · rw [paste_tiles_other surfaces screen call.x call.y _ (Ne.symm same)]
        simp [same]

end XrdpConsole.PlanarClient
