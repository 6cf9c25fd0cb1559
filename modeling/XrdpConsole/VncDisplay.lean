import Mathlib.Tactic.Ring
import Mathlib.Tactic.Linarith
import XrdpConsole.VncModule

/-!
# What the calls of the VNC module show

The screen and the cursor that a sequence of server calls leaves behind, and what
is shown when each call other than a paint is made. Paints and blits show inside
of an update bracket only and are clipped to the screen; a paint takes whole
pixels of the bytes of its bitmap, row by row. What the other calls do to the
screen is left to the connection manager. Painting a bitmap in strips of rows
shows what painting it at once does.
-/

namespace XrdpConsole.VncDisplay

open XrdpConsole.VncState

set_option autoImplicit false

/-- `painting` says whether `mod->painter` is set. -/
@[ext]
structure Display where
  painting : Bool
  width : Int
  height : Int
  pixel : Int → Int → List Byte
  cursor : Option (Int × Int × List Byte × List Byte)

def inRect (x y cx cy px py : Int) : Prop := x ≤ px ∧ px < x + cx ∧ y ≤ py ∧ py < y + cy

instance (x y cx cy px py : Int) : Decidable (inRect x y cx cy px py) :=
  inferInstanceAs (Decidable (_ ∧ _))

/-- The bytes of one pixel of a bitmap that is `width` pixels wide. -/
def bitmapPixel (bytes : Nat) (data : List Byte) (width px py : Int) : List Byte :=
  (data.drop (bytes * (py * width + px).toNat)).take bytes

def paint (bytes : Nat) (display : Display) (x y cx cy : Int) (data : List Byte)
    (width height srcx srcy : Int) : Display :=
  { display with
    pixel := fun px py =>
      if inRect x y cx cy px py ∧ inRect 0 0 display.width display.height px py ∧
          inRect 0 0 width height (px - x + srcx) (py - y + srcy) then
        bitmapPixel bytes data width (px - x + srcx) (py - y + srcy)
      else
        display.pixel px py }

def blt (display : Display) (x y cx cy srcx srcy : Int) : Display :=
  { display with
    pixel := fun px py =>
      if inRect x y cx cy px py ∧ inRect 0 0 display.width display.height px py ∧
          inRect 0 0 display.width display.height (px - x + srcx) (py - y + srcy) then
        display.pixel (px - x + srcx) (py - y + srcy)
      else
        display.pixel px py }

/-- `respond` is the connection manager's part: what the screen becomes by a call that asks for
a resize, say. -/
def replayCall (bytes : Nat) (respond : ServerCall → Display → Display) (display : Display) :
    ServerCall → Display
  | .beginUpdate => { display with painting := true }
  | .endUpdate => { display with painting := false }
  | .paintRect x y cx cy data width height srcx srcy =>
      if display.painting then paint bytes display x y cx cy data width height srcx srcy else display
  | .screenBlt x y cx cy srcx srcy =>
      if display.painting then blt display x y cx cy srcx srcy else display
  | .setCursor x y data mask => { display with cursor := some (x, y, data, mask) }
  | call => respond call display

def replay (bytes : Nat) (respond : ServerCall → Display → Display) (calls : List ServerCall)
    (display : Display) : Display :=
  calls.foldl (replayCall bytes respond) display

@[simp] theorem replay_append (bytes : Nat) (respond : ServerCall → Display → Display)
    (calls later : List ServerCall) (display : Display) :
    replay bytes respond (calls ++ later) display =
      replay bytes respond later (replay bytes respond calls display) := by
  simp [replay]

def isPaint : ServerCall → Bool
  | .paintRect .. => true
  | _ => false

/-- The calls other than paints, in order, each with what is shown when it is made. -/
def shownAt (bytes : Nat) (respond : ServerCall → Display → Display) :
    List ServerCall → Display → List (ServerCall × Display)
  | [], _ => []
  | call :: calls, display =>
      let later := shownAt bytes respond calls (replayCall bytes respond display call)
      if isPaint call then later else (call, display) :: later

theorem shown_at_append (bytes : Nat) (respond : ServerCall → Display → Display)
    (calls later : List ServerCall) (display : Display) :
    shownAt bytes respond (calls ++ later) display = shownAt bytes respond calls display ++
      shownAt bytes respond later (replay bytes respond calls display) := by
  induction calls generalizing display with
  | nil => rfl
  | cons call calls ih =>
      have folded : replay bytes respond (call :: calls) display =
        replay bytes respond calls (replayCall bytes respond display call) := rfl
      simp only [List.cons_append, shownAt, ih, folded]
      split
      · rfl
      · rfl

/-- The calls other than paints: brackets, blits, cursors, resizes and messages. -/
def otherCalls (calls : List ServerCall) : List ServerCall := calls.filter fun c => !isPaint c

theorem shown_at_calls (bytes : Nat) (respond : ServerCall → Display → Display)
    (calls : List ServerCall) (display : Display) :
    (shownAt bytes respond calls display).map Prod.fst = otherCalls calls := by
  induction calls generalizing display with
  | nil => rfl
  | cons call calls ih =>
      rw [shownAt, otherCalls, List.filter_cons]
      by_cases painted : isPaint call
      · rw [if_pos painted, if_neg (by simp [painted])]
        exact ih _
      · rw [if_neg painted, if_pos (by simp [painted]), List.map_cons, ih, otherCalls]

/-- Two sequences of calls that show the same on every display, and the same at each of the
calls they make beside their paints. -/
structure SameEffect (bytes : Nat) (calls others : List ServerCall) : Prop where
  shown : ∀ respond display, replay bytes respond calls display = replay bytes respond others display
  made : ∀ respond display, shownAt bytes respond calls display = shownAt bytes respond others display

theorem same_effect_append {bytes : Nat} {calls others : List ServerCall}
    (same : SameEffect bytes calls others) (later : List ServerCall) :
    SameEffect bytes (calls ++ later) (others ++ later) where
  shown respond display := by rw [replay_append, replay_append, same.shown]
  made respond display := by rw [shown_at_append, shown_at_append, same.made, same.shown]

theorem same_effect_calls {bytes : Nat} {calls others : List ServerCall}
    (same : SameEffect bytes calls others) : otherCalls calls = otherCalls others := by
  let blank : Display :=
    { painting := false, width := 0, height := 0, pixel := fun _ _ => [], cursor := none }
  have made := congrArg (List.map Prod.fst) (same.made (fun _ display => display) blank)
  rwa [shown_at_calls, shown_at_calls] at made

/-! ## Strips -/

/-- The paint of the first `rows` rows of a bitmap at `(x, y)`. -/
def paintRows (x y cx rows : Nat) (data : List Byte) : ServerCall :=
  .paintRect x y cx rows data cx rows 0 0

theorem shown_at_paint {bytes : Nat} {respond : ServerCall → Display → Display}
    (calls : List ServerCall) (x y cx rows : Nat) (data : List Byte) (display : Display) :
    shownAt bytes respond (calls ++ [paintRows x y cx rows data]) display =
      shownAt bytes respond calls display := by
  rw [shown_at_append]
  exact List.append_nil _

theorem bitmap_pixel_take {bytes cx rows px py : Nat} (data : List Byte) (column : px < cx)
    (row : py < rows) :
    bitmapPixel bytes (data.take (rows * (cx * bytes))) cx px py = bitmapPixel bytes data cx px py := by
  have index : ((py : Int) * cx + px).toNat = py * cx + px := by
    rw [← Nat.cast_mul, ← Nat.cast_add, Int.toNat_natCast]
  have rowEnd : py * cx + px + 1 ≤ rows * cx := by
    have next : (py + 1) * cx ≤ rows * cx := Nat.mul_le_mul_right cx row
    rw [Nat.succ_mul] at next
    omega
  have inside : bytes * (py * cx + px) + bytes ≤ rows * (cx * bytes) := by
    have scaled := Nat.mul_le_mul_left bytes rowEnd
    calc bytes * (py * cx + px) + bytes = bytes * (py * cx + px + 1) := by ring
      _ ≤ bytes * (rows * cx) := scaled
      _ = rows * (cx * bytes) := by ring
  unfold bitmapPixel
  rw [index, List.drop_take, List.take_take, min_eq_left (by omega)]

theorem bitmap_pixel_drop {bytes cx skipped px py : Nat} (data : List Byte) :
    bitmapPixel bytes (data.drop (skipped * (cx * bytes))) cx px py =
      bitmapPixel bytes data cx px (skipped + py : Nat) := by
  have index : ∀ row : Nat, ((row : Int) * cx + px).toNat = row * cx + px := by
    intro row
    rw [← Nat.cast_mul, ← Nat.cast_add, Int.toNat_natCast]
  unfold bitmapPixel
  rw [index, index, List.drop_drop]
  congr 2
  ring

/-- Where a paint of rows shows: inside its rectangle and on the screen. -/
def shows (display : Display) (x y cx rows : Nat) (px py : Int) : Prop :=
  inRect x y cx rows px py ∧ inRect 0 0 display.width display.height px py

theorem paint_rows_inside {bytes x y cx rows px py : Nat} (data : List Byte) (display : Display)
    (shown : shows display x y cx rows (x + px : Nat) (y + py : Nat)) :
    (paint bytes display x y cx rows data cx rows 0 0).pixel (x + px : Nat) (y + py : Nat) =
      bitmapPixel bytes data cx px py := by
  have column : ((x + px : Nat) : Int) - x + 0 = px := by omega
  have row : ((y + py : Nat) : Int) - y + 0 = py := by omega
  have right := shown.1.2.1
  have bottom := shown.1.2.2.2
  have source : inRect 0 0 cx rows px py := ⟨by omega, by omega, by omega, by omega⟩
  simp only [paint, column, row]
  exact if_pos ⟨shown.1, shown.2, source⟩

theorem paint_rows_outside {bytes x y cx rows : Nat} {px py : Int} (data : List Byte)
    (display : Display) (hidden : ¬shows display x y cx rows px py) :
    (paint bytes display x y cx rows data cx rows 0 0).pixel px py = display.pixel px py :=
  if_neg fun painted => hidden ⟨painted.1, painted.2.1⟩

theorem replay_rows (bytes : Nat) (respond : ServerCall → Display → Display) (display : Display)
    (x y cx rows : Nat) (data : List Byte) :
    replayCall bytes respond display (paintRows x y cx rows data) =
      if display.painting then paint bytes display x y cx rows data cx rows 0 0 else display := rfl

theorem paint_nothing {bytes x y cx rows : Nat} (data : List Byte)
    (respond : ServerCall → Display → Display) (display : Display) (empty : cx = 0 ∨ rows = 0) :
    replayCall bytes respond display (paintRows x y cx rows data) = display := by
  rw [replay_rows]
  split
  · refine Display.ext rfl rfl rfl ?_ rfl
    funext px py
    refine paint_rows_outside data display ?_
    rintro ⟨⟨left, right, top, bottom⟩, -⟩
    omega
  · rfl

/-- The rows painted so far and the next strip below them. -/
theorem paint_strip (bytes x y cx done rows : Nat) (data : List Byte) (display : Display) :
    paint bytes (paint bytes display x y cx done (data.take (done * (cx * bytes))) cx done 0 0)
        x (y + done : Nat) cx rows ((data.drop (done * (cx * bytes))).take (rows * (cx * bytes)))
        cx rows 0 0 =
      paint bytes display x y cx (done + rows : Nat) (data.take ((done + rows) * (cx * bytes)))
        cx (done + rows : Nat) 0 0 := by
  refine Display.ext rfl rfl rfl ?_ rfl
  funext px py
  by_cases shown : shows display x y cx (done + rows) px py
  · obtain ⟨column, rfl⟩ : ∃ column : Nat, px = (x + column : Nat) :=
      ⟨(px - x).toNat, by have left := shown.1.1; omega⟩
    obtain ⟨row, rfl⟩ : ∃ row : Nat, py = (y + row : Nat) :=
      ⟨(py - y).toNat, by have top := shown.1.2.2.1; omega⟩
    obtain ⟨⟨left, right, top, bottom⟩, visible⟩ := shown
    rw [paint_rows_inside _ display ⟨⟨left, right, top, bottom⟩, visible⟩,
      bitmap_pixel_take data (by omega) (by omega)]
    by_cases above : row < done
    · rw [paint_rows_outside, paint_rows_inside, bitmap_pixel_take data (by omega) above]
      · exact ⟨⟨left, right, top, by omega⟩, visible⟩
      · rintro ⟨⟨-, -, below, -⟩, -⟩
        omega
    · obtain ⟨strip, rfl⟩ := Nat.exists_eq_add_of_le (not_lt.mp above)
      rw [← Nat.add_assoc, paint_rows_inside, bitmap_pixel_take _ (by omega) (by omega),
        bitmap_pixel_drop]
      refine ⟨⟨left, right, by omega, by omega⟩, ?_⟩
      rw [Nat.add_assoc]
      exact visible
  · rw [paint_rows_outside _ display shown, paint_rows_outside, paint_rows_outside]
    · rintro ⟨⟨left, right, top, bottom⟩, visible⟩
      exact shown ⟨⟨left, right, top, by omega⟩, visible⟩
    · rintro ⟨⟨left, right, top, bottom⟩, visible⟩
      exact shown ⟨⟨left, right, by omega, by omega⟩, visible⟩

theorem replay_strip (bytes x y cx done rows : Nat) (data : List Byte)
    (respond : ServerCall → Display → Display) (display : Display) :
    replayCall bytes respond
        (replayCall bytes respond display (paintRows x y cx done (data.take (done * (cx * bytes)))))
        (paintRows x (y + done) cx rows
          ((data.drop (done * (cx * bytes))).take (rows * (cx * bytes)))) =
      replayCall bytes respond display
        (paintRows x y cx (done + rows) (data.take ((done + rows) * (cx * bytes)))) := by
  by_cases painting : display.painting = true
  · have still : (paint bytes display x y cx done (data.take (done * (cx * bytes))) cx done 0
      0).painting = true := painting
    rw [replay_rows, replay_rows, replay_rows, if_pos painting, if_pos painting, if_pos still]
    exact paint_strip bytes x y cx done rows data display
  · rw [replay_rows, replay_rows, replay_rows, if_neg painting, if_neg painting, if_neg painting]

end XrdpConsole.VncDisplay
