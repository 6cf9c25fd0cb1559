import XrdpConsole.Library.PixelRect

/-!
# The rectangle around rectangles

The least rectangle that contains each of some rectangles.
-/

namespace XrdpConsole.Library

set_option autoImplicit false

namespace Rect

def join (rect other : Rect) : Rect where
  left := min other.left rect.left
  top := min other.top rect.top
  right := max rect.right other.right
  bottom := max rect.bottom other.bottom

def enclosing (first : Rect) (rest : List Rect) : Rect := rest.foldl join first

theorem inside_trans {inner middle outer : Rect} (inside : inner.Inside middle)
    (within : middle.Inside outer) : inner.Inside outer := by
  simp only [Inside] at *
  omega

theorem inside_join (rect other : Rect) :
    rect.Inside (rect.join other) ∧ other.Inside (rect.join other) := by
  simp only [Inside, join]
  omega

theorem join_inside {rect other outer : Rect} (inside : rect.Inside outer)
    (also : other.Inside outer) : (rect.join other).Inside outer := by
  simp only [Inside, join] at *
  omega

theorem enclosing_contains (first : Rect) (rest : List Rect) :
    ∀ rect ∈ first :: rest, rect.Inside (enclosing first rest) := by
  induction rest generalizing first with
  | nil =>
      intro rect member
      obtain rfl := List.mem_singleton.mp member
      simp only [enclosing, List.foldl_nil, Inside]
      omega
  | cons next rest ih =>
      intro rect member
      have joined : (first.join next).Inside (enclosing first (next :: rest)) :=
        ih (first.join next) _ (List.mem_cons_self ..)
      rcases List.mem_cons.mp member with rfl | member
      · exact inside_trans (inside_join rect next).1 joined
      · rcases List.mem_cons.mp member with rfl | member
        · exact inside_trans (inside_join first rect).2 joined
        · exact ih (first.join next) rect (List.mem_cons_of_mem _ member)

theorem enclosing_least {first outer : Rect} {rest : List Rect}
    (inside : ∀ rect ∈ first :: rest, rect.Inside outer) : (enclosing first rest).Inside outer := by
  induction rest generalizing first with
  | nil => exact inside first (List.mem_cons_self ..)
  | cons next rest ih =>
      apply ih
      intro rect member
      rcases List.mem_cons.mp member with rfl | member
      · exact join_inside (inside first (by simp)) (inside next (by simp))
      · exact inside rect (by simp [member])

end Rect

end XrdpConsole.Library
