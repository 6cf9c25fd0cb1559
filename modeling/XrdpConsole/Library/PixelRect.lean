import Mathlib.Tactic.Common

/-!
# Rectangles of pixels and counting loops

Half-open rectangles over integer coordinates, their intersection and bounding
box, and the values a loop `for (i = start; i < stop; i += step)` takes, with
which rectangles are cut into tiles.
-/

namespace XrdpConsole.Library

set_option autoImplicit false

@[ext] structure Rect where
  left : Int
  top : Int
  right : Int
  bottom : Int
  deriving DecidableEq, Repr

namespace Rect

def Covers (rect : Rect) (x y : Int) : Prop :=
  rect.left ≤ x ∧ x < rect.right ∧ rect.top ≤ y ∧ y < rect.bottom

instance (rect : Rect) (x y : Int) : Decidable (rect.Covers x y) :=
  inferInstanceAs (Decidable (_ ∧ _ ∧ _ ∧ _))

/-- Covers at least one pixel. -/
def Solid (rect : Rect) : Prop := rect.left < rect.right ∧ rect.top < rect.bottom

instance (rect : Rect) : Decidable rect.Solid := inferInstanceAs (Decidable (_ ∧ _))

def inter (rect other : Rect) : Rect where
  left := max rect.left other.left
  top := max rect.top other.top
  right := min rect.right other.right
  bottom := min rect.bottom other.bottom

def bounding (rect other : Rect) : Rect where
  left := min rect.left other.left
  top := min rect.top other.top
  right := max rect.right other.right
  bottom := max rect.bottom other.bottom

/-- The rectangle in coordinates that start at `x` and `y`. -/
def relativeTo (rect : Rect) (x y : Int) : Rect where
  left := rect.left - x
  top := rect.top - y
  right := rect.right - x
  bottom := rect.bottom - y

def Inside (rect outer : Rect) : Prop :=
  outer.left ≤ rect.left ∧ outer.top ≤ rect.top ∧ rect.right ≤ outer.right ∧
    rect.bottom ≤ outer.bottom

instance (rect outer : Rect) : Decidable (rect.Inside outer) :=
  inferInstanceAs (Decidable (_ ∧ _ ∧ _ ∧ _))

/-- No pixel is in both. -/
def Apart (rect other : Rect) : Prop := ∀ x y, ¬(rect.Covers x y ∧ other.Covers x y)

@[simp] theorem covers_inter (rect other : Rect) (x y : Int) :
    (rect.inter other).Covers x y ↔ rect.Covers x y ∧ other.Covers x y := by
  simp only [Covers, inter]
  omega

@[simp] theorem covers_relative_to (rect : Rect) (originX originY x y : Int) :
    (rect.relativeTo originX originY).Covers (x - originX) (y - originY) ↔ rect.Covers x y := by
  simp only [Covers, relativeTo]
  omega

theorem covers_bounding {rect other : Rect} {x y : Int}
    (covered : rect.Covers x y ∨ other.Covers x y) : (rect.bounding other).Covers x y := by
  simp only [Covers, bounding] at *
  omega

theorem solid_covers {rect : Rect} (solid : rect.Solid) : rect.Covers rect.left rect.top := by
  simp only [Covers, Solid] at *
  omega

theorem solid_of_covers {rect : Rect} {x y : Int} (covered : rect.Covers x y) : rect.Solid := by
  simp only [Covers, Solid] at *
  omega

/-- A rectangle with pixels is inside every rectangle that covers those pixels. -/
theorem inside_of_covers {rect outer : Rect} (solid : rect.Solid)
    (within : ∀ x y, rect.Covers x y → outer.Covers x y) : rect.Inside outer := by
  have first := within rect.left rect.top (solid_covers solid)
  have last := within (rect.right - 1) (rect.bottom - 1) (by
    simp only [Covers, Solid] at *
    omega)
  simp only [Covers, Inside] at *
  omega

theorem inside_covers {rect outer : Rect} {x y : Int} (inside : rect.Inside outer)
    (covered : rect.Covers x y) : outer.Covers x y := by
  simp only [Covers, Inside] at *
  omega

theorem bounding_inside {rect other outer : Rect} (left : rect.Inside outer)
    (right : other.Inside outer) : (rect.bounding other).Inside outer := by
  simp only [Inside, bounding] at *
  omega

/-- The bounding box of `first` and `rest`. -/
def boundingBox (first : Rect) (rest : List Rect) : Rect := rest.foldl bounding first

theorem bounding_box_covers {first : Rect} {rest : List Rect} {x y : Int}
    (covered : ∃ rect ∈ first :: rest, rect.Covers x y) :
    (boundingBox first rest).Covers x y := by
  induction rest generalizing first with
  | nil =>
      rcases covered with ⟨rect, member, covered⟩
      simp only [List.mem_singleton] at member
      simpa [boundingBox, ← member] using covered
  | cons next rest ih =>
      apply ih
      rcases covered with ⟨rect, member, covered⟩
      rcases List.mem_cons.mp member with rfl | member
      · exact ⟨_, List.mem_cons_self .., covers_bounding (.inl covered)⟩
      · rcases List.mem_cons.mp member with rfl | member
        · exact ⟨_, List.mem_cons_self .., covers_bounding (.inr covered)⟩
        · exact ⟨rect, List.mem_cons_of_mem _ member, covered⟩

theorem bounding_box_inside {first outer : Rect} {rest : List Rect}
    (inside : ∀ rect ∈ first :: rest, rect.Inside outer) :
    (boundingBox first rest).Inside outer := by
  induction rest generalizing first with
  | nil => exact inside first (List.mem_cons_self ..)
  | cons next rest ih =>
      apply ih
      intro rect member
      rcases List.mem_cons.mp member with rfl | member
      · exact bounding_inside (inside first (by simp)) (inside next (by simp))
      · exact inside rect (by simp [member])

end Rect

/-! ## Counting loops -/

def countSteps (step : Int) : Nat → Int → Int → List Int
  | 0, _, _ => []
  | fuel + 1, start, stop =>
      if start < stop then start :: countSteps step fuel (start + step) stop else []

/-- The values of `i` in `for (i = start; i < stop; i += step)`; the body runs at
most once for each number between the two when `step` is positive. -/
def forRange (start stop step : Int) : List Int := countSteps step (stop - start).toNat start stop

theorem count_steps_bounds {step : Int} {fuel : Nat} {start stop index : Int} (forward : 0 < step)
    (member : index ∈ countSteps step fuel start stop) : start ≤ index ∧ index < stop := by
  induction fuel generalizing start with
  | zero => simp [countSteps] at member
  | succ fuel ih =>
      rw [countSteps] at member
      split at member
      · rcases List.mem_cons.mp member with rfl | later
        · omega
        · have bounds := ih later
          omega
      · simp at member

theorem for_range_bounds {start stop step index : Int} (forward : 0 < step)
    (member : index ∈ forRange start stop step) : start ≤ index ∧ index < stop :=
  count_steps_bounds forward member

theorem count_steps_covers {step : Int} {fuel : Nat} {start stop position : Int}
    (forward : 0 < step) (enough : stop - start ≤ fuel) (lower : start ≤ position)
    (upper : position < stop) :
    ∃ index ∈ countSteps step fuel start stop, index ≤ position ∧ position < index + step := by
  induction fuel generalizing start with
  | zero => omega
  | succ fuel ih =>
      rw [countSteps, if_pos (by omega)]
      by_cases here : position < start + step
      · exact ⟨start, List.mem_cons_self .., lower, here⟩
      · rcases @ih (start + step) (by omega) (by omega) with ⟨index, member, found⟩
        exact ⟨index, List.mem_cons_of_mem start member, found⟩

/-- Every position between the bounds is in one of the steps. -/
theorem for_range_covers {start stop step position : Int} (forward : 0 < step)
    (lower : start ≤ position) (upper : position < stop) :
    ∃ index ∈ forRange start stop step, index ≤ position ∧ position < index + step :=
  count_steps_covers forward (by omega) lower upper

theorem count_steps_spaced {step : Int} (forward : 0 < step) (fuel : Nat) (start stop : Int) :
    (countSteps step fuel start stop).Pairwise fun index later => index + step ≤ later := by
  induction fuel generalizing start with
  | zero => exact .nil
  | succ fuel ih =>
      rw [countSteps]
      split
      · apply List.Pairwise.cons
        · intro later member
          exact (count_steps_bounds forward member).1
        · exact ih (start + step)
      · exact .nil

/-- The steps do not overlap. -/
theorem for_range_spaced {step : Int} (forward : 0 < step) (start stop : Int) :
    (forRange start stop step).Pairwise fun index later => index + step ≤ later :=
  count_steps_spaced forward _ start stop

theorem count_steps_shift (step : Int) (fuel : Nat) (start stop offset : Int) :
    countSteps step fuel (offset + start) (offset + stop) =
      (countSteps step fuel start stop).map fun index => offset + index := by
  induction fuel generalizing start with
  | zero => rfl
  | succ fuel ih =>
      rw [countSteps, countSteps, Int.add_assoc, ih (start + step)]
      by_cases inside : start < stop
      · rw [if_pos inside, if_pos (by omega), List.map_cons]
      · rw [if_neg inside, if_neg (by omega), List.map_nil]

/-- A loop over positions is the loop over the offsets from the first one. -/
theorem for_range_shift (start stop step : Int) :
    forRange start stop step = (forRange 0 (stop - start) step).map fun index => start + index := by
  have shifted := count_steps_shift step (stop - start).toNat 0 (stop - start) start
  rw [Int.add_zero, Int.add_comm start (stop - start), Int.sub_add_cancel] at shifted
  rw [forRange, shifted, forRange, Int.sub_zero]

end XrdpConsole.Library
