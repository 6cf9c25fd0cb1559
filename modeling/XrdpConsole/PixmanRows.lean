import XrdpConsole.Library.Runs
import XrdpConsole.PixmanRegion

/-!
# One band against another

What the overlap functions of `pixman_op` add for two bands: the boxes of the intersection, of
the union and of the difference of their columns, apart from each other.
-/

namespace XrdpConsole.PixmanRegion

open XrdpConsole.Library

set_option autoImplicit false

/-- The columns that boxes side by side take up. -/
def columns (boxes : List Box) : List (Run Int Unit) :=
  boxes.map fun box => { low := box.x1, high := box.x2, label := () }

/-- Boxes on these columns from `y1` to `y2`. -/
def row (spans : List (Run Int Unit)) (y1 y2 : Int) : List Box :=
  spans.map fun span => { x1 := span.low, y1 := y1, x2 := span.high, y2 := y2 }

def InColumns (boxes : List Box) (x : Int) : Prop := Run.At (columns boxes) x ()

@[simp] theorem in_columns_nil (x : Int) : ¬InColumns [] x := by
  simp [InColumns, columns]

@[simp] theorem in_columns_cons (box : Box) (boxes : List Box) (x : Int) :
    InColumns (box :: boxes) x ↔ box.x1 ≤ x ∧ x < box.x2 ∨ InColumns boxes x := by
  simp [InColumns, columns]

/-- Boxes in order and with a column free between any two. -/
def Apart (boxes : List Box) : Prop := Run.Normal (columns boxes)

theorem apart_nil : Apart [] := Run.normal_nil

theorem apart_rest {box : Box} {boxes : List Box} (apart : Apart (box :: boxes)) : Apart boxes :=
  (Run.normal_cons.mp apart).2.2

theorem apart_solid {box : Box} {boxes : List Box} (apart : Apart (box :: boxes)) :
    box.x1 < box.x2 :=
  (Run.normal_cons.mp apart).1

theorem apart_beyond {box : Box} {boxes : List Box} (apart : Apart (box :: boxes)) {x : Int}
    (found : InColumns boxes x) : box.x2 < x :=
  Run.single_at_beyond apart found

theorem apart_low {box : Box} {boxes : List Box} (apart : Apart (box :: boxes)) {x : Int}
    (found : InColumns (box :: boxes) x) : box.x1 ≤ x :=
  Run.normal_at_low apart found

theorem in_columns_first {box : Box} {boxes : List Box} (apart : Apart (box :: boxes)) {x : Int}
    (inside : x < box.x2) : InColumns (box :: boxes) x ↔ box.x1 ≤ x := by
  constructor
  · exact apart_low apart
  · intro lower
    exact (in_columns_cons box boxes x).mpr (.inl ⟨lower, inside⟩)

theorem not_in_columns_end {box : Box} {boxes : List Box} (apart : Apart (box :: boxes)) :
    ¬InColumns (box :: boxes) box.x2 := by
  intro found
  rcases (in_columns_cons box boxes box.x2).mp found with here | there
  · exact lt_irrefl _ here.2
  · exact lt_irrefl _ (apart_beyond apart there)

@[simp] theorem columns_row (spans : List (Run Int Unit)) (y1 y2 : Int) :
    columns (row spans y1 y2) = spans := by
  rw [columns, row, List.map_map]
  exact List.map_id spans

@[simp] theorem row_columns_append_non_o (boxes : List Box) (y1 y2 : Int) :
    appendNonO boxes y1 y2 = row (columns boxes) y1 y2 := by
  simp [columns, row, appendNonO]

/-- The boxes are a row from `y1` to `y2` on the columns that are `wanted`. -/
def IsRow (boxes : List Box) (y1 y2 : Int) (wanted : Int → Prop) : Prop :=
  (∀ box ∈ boxes, box.y1 = y1 ∧ box.y2 = y2) ∧ Apart boxes ∧ ∀ x, InColumns boxes x ↔ wanted x

theorem is_row_boxes {boxes : List Box} {y1 y2 : Int}
    (sides : ∀ box ∈ boxes, box.y1 = y1 ∧ box.y2 = y2) : boxes = row (columns boxes) y1 y2 := by
  induction boxes with
  | nil => rfl
  | cons box boxes ih =>
      have first := sides box (List.mem_cons_self ..)
      have others := ih fun later member => sides later (List.mem_cons_of_mem _ member)
      simp only [columns, row, List.map_cons, List.cons.injEq] at others ⊢
      exact ⟨by rw [← first.1, ← first.2], others⟩

theorem is_row_congr {boxes : List Box} {y1 y2 : Int} {wanted other : Int → Prop}
    (isRow : IsRow boxes y1 y2 wanted) (same : ∀ x, wanted x ↔ other x) :
    IsRow boxes y1 y2 other :=
  ⟨isRow.1, isRow.2.1, fun x => (isRow.2.2 x).trans (same x)⟩

theorem is_row_nil {y1 y2 : Int} {wanted : Int → Prop} (none_wanted : ∀ x, ¬wanted x) :
    IsRow [] y1 y2 wanted :=
  ⟨by simp, apart_nil, fun x => iff_of_false (in_columns_nil x) (none_wanted x)⟩

theorem is_row_cons {boxes : List Box} {x1 x2 y1 y2 : Int} {wanted : Int → Prop}
    (solid : x1 < x2) (isRow : IsRow boxes y1 y2 wanted) (beyond : ∀ x, wanted x → x2 < x) :
    IsRow ({ x1 := x1, y1 := y1, x2 := x2, y2 := y2 } :: boxes) y1 y2
      fun x => x1 ≤ x ∧ x < x2 ∨ wanted x := by
  rcases isRow with ⟨same, apart, meaning⟩
  refine ⟨?_, ?_, ?_⟩
  · intro box member
    rcases List.mem_cons.mp member with rfl | member
    · exact ⟨rfl, rfl⟩
    · exact same box member
  · apply Run.single_cons solid apart
    intro x found
    exact beyond x ((meaning x).mp found)
  · intro x
    rw [in_columns_cons, meaning]

/-! ## Intersection -/

theorem in_columns_advance {box : Box} {rest : List Box} {x2 x : Int} (later : x2 ≤ x) :
    InColumns (advance box rest x2) x ↔ InColumns (box :: rest) x := by
  rw [advance]
  split
  · next ended =>
      rw [in_columns_cons]
      constructor
      · exact .inr
      · rintro (here | there)
        · omega
        · exact there
  · rfl

theorem apart_advance {box : Box} {rest : List Box} (apart : Apart (box :: rest)) (x2 : Int) :
    Apart (advance box rest x2) := by
  rw [advance]
  split
  · exact apart_rest apart
  · exact apart

theorem in_columns_advance_beyond {box : Box} {rest : List Box} (apart : Apart (box :: rest))
    {x : Int} (found : InColumns (advance box rest box.x2) x) : box.x2 < x := by
  rw [advance, if_pos rfl] at found
  exact apart_beyond apart found

/-- What two rows share behind the first end of their first boxes. -/
theorem in_columns_both_advance {box1 box2 : Box} {rest1 rest2 : List Box}
    (apart1 : Apart (box1 :: rest1)) (apart2 : Apart (box2 :: rest2)) (x : Int) :
    let x2 := min box1.x2 box2.x2
    InColumns (advance box1 rest1 x2) x ∧ InColumns (advance box2 rest2 x2) x ↔
      (InColumns (box1 :: rest1) x ∧ InColumns (box2 :: rest2) x) ∧ x2 < x := by
  intro x2
  have reached : InColumns (advance box1 rest1 x2) x ∧ InColumns (advance box2 rest2 x2) x →
      x2 < x := by
    intro both
    rcases Int.le_total box1.x2 box2.x2 with first | second
    · have moved := both.1
      rw [show x2 = box1.x2 from min_eq_left first] at moved ⊢
      exact in_columns_advance_beyond apart1 moved
    · have moved := both.2
      rw [show x2 = box2.x2 from min_eq_right second] at moved ⊢
      exact in_columns_advance_beyond apart2 moved
  constructor
  · intro both
    have later := reached both
    rw [in_columns_advance later.le, in_columns_advance later.le] at both
    exact ⟨both, later⟩
  · intro both
    rw [in_columns_advance both.2.le, in_columns_advance both.2.le]
    exact both.1

theorem in_columns_both {box1 box2 : Box} {rest1 rest2 : List Box}
    (apart1 : Apart (box1 :: rest1)) (apart2 : Apart (box2 :: rest2)) (x : Int) :
    InColumns (box1 :: rest1) x ∧ InColumns (box2 :: rest2) x ↔
      max box1.x1 box2.x1 ≤ x ∧ x < min box1.x2 box2.x2 ∨
        (InColumns (box1 :: rest1) x ∧ InColumns (box2 :: rest2) x) ∧
          min box1.x2 box2.x2 < x := by
  rcases lt_trichotomy x (min box1.x2 box2.x2) with inside | touch | beyond
  · have inside1 : x < box1.x2 := by omega
    have inside2 : x < box2.x2 := by omega
    rw [in_columns_first apart1 inside1, in_columns_first apart2 inside2]
    omega
  · have ended : ¬(InColumns (box1 :: rest1) x ∧ InColumns (box2 :: rest2) x) := by
      intro both
      rcases Int.le_total box1.x2 box2.x2 with first | second
      · rw [show x = box1.x2 by omega] at both
        exact not_in_columns_end apart1 both.1
      · rw [show x = box2.x2 by omega] at both
        exact not_in_columns_end apart2 both.2
    have outside : ¬x < min box1.x2 box2.x2 := by omega
    simp only [ended, outside, and_false, false_and, or_false]
  · have past : ¬x < min box1.x2 box2.x2 := by omega
    simp only [past, and_false, false_or, beyond, and_true]

theorem intersect_o_row {r1 r2 : List Box} (apart1 : Apart r1) (apart2 : Apart r2)
    (y1 y2 : Int) :
    IsRow (intersectO r1 r2 y1 y2) y1 y2 fun x => InColumns r1 x ∧ InColumns r2 x := by
  fun_induction intersectO r1 r2 y1 y2 with
  | case1 box1 rest1 box2 rest2 x1 x2 rest overlap ih =>
      have behind := is_row_congr
        (ih (apart_advance apart1 x2) (apart_advance apart2 x2))
        (in_columns_both_advance apart1 apart2)
      apply is_row_congr (is_row_cons overlap behind fun x found => found.2)
      intro x
      exact (in_columns_both apart1 apart2 x).symm
  | case2 box1 rest1 box2 rest2 x1 x2 rest apart ih =>
      have behind := is_row_congr
        (ih (apart_advance apart1 x2) (apart_advance apart2 x2))
        (in_columns_both_advance apart1 apart2)
      apply is_row_congr behind
      intro x
      constructor
      · exact And.left
      · intro both
        rcases (in_columns_both apart1 apart2 x).mp both with here | there
        · exact absurd (here.1.trans_lt here.2) apart
        · exact there
  | case3 r1 r2 ended =>
      apply is_row_nil
      rintro x ⟨found1, found2⟩
      cases r1 with
      | nil => exact in_columns_nil x found1
      | cons box1 rest1 =>
          cases r2 with
          | nil => exact in_columns_nil x found2
          | cons box2 rest2 => exact ended box1 rest1 box2 rest2 rfl rfl

/-! ## Union -/

@[simp] theorem in_columns_append (front back : List Box) (x : Int) :
    InColumns (front ++ back) x ↔ InColumns front x ∨ InColumns back x := by
  simp [InColumns, columns]

theorem apart_concat {boxes : List Box} {box : Box} :
    Apart (boxes ++ [box]) ↔ Apart boxes ∧ box.x1 < box.x2 ∧
      ∀ last ∈ boxes.getLast?, last.x2 < box.x1 := by
  rw [Apart, columns, List.map_append, Run.normal_append]
  apply and_congr Iff.rfl
  apply and_congr
  · constructor
    · exact @apart_solid box []
    · intro solid
      exact Run.normal_single solid
  · rw [List.getLast?_map]
    cases boxes.getLast? with
    | none => simp
    | some last => simp [Run.Before, lt_iff_le_and_ne]

theorem is_row_concat {boxes : List Box} {x1 x2 y1 y2 : Int} {wanted : Int → Prop}
    (isRow : IsRow boxes y1 y2 wanted) (solid : x1 < x2)
    (beyond : ∀ last ∈ boxes.getLast?, last.x2 < x1) :
    IsRow (boxes ++ [{ x1 := x1, y1 := y1, x2 := x2, y2 := y2 }]) y1 y2
      fun x => wanted x ∨ x1 ≤ x ∧ x < x2 := by
  rcases isRow with ⟨sides, apart, meaning⟩
  refine ⟨?_, apart_concat.mpr ⟨apart, solid, beyond⟩, ?_⟩
  · intro box member
    rcases List.mem_append.mp member with early | last
    · exact sides box early
    · simp only [List.mem_singleton] at last
      subst last
      exact ⟨rfl, rfl⟩
  · intro x
    simp [meaning]

theorem is_row_front {boxes : List Box} {box : Box} {y1 y2 : Int} {wanted : Int → Prop}
    (isRow : IsRow (boxes ++ [box]) y1 y2 wanted) :
    IsRow boxes y1 y2 (InColumns boxes) ∧ box.x1 < box.x2 ∧
      (∀ last ∈ boxes.getLast?, last.x2 < box.x1) ∧
      ∀ x, wanted x ↔ InColumns boxes x ∨ box.x1 ≤ x ∧ x < box.x2 := by
  rcases isRow with ⟨sides, apart, meaning⟩
  have parts := apart_concat.mp apart
  refine ⟨⟨?_, parts.1, fun x => Iff.rfl⟩, parts.2.1, parts.2.2, ?_⟩
  · intro early member
    exact sides early (List.mem_append_left _ member)
  · intro x
    rw [← meaning]
    simp

theorem merge_rect_merging {y1 y2 : Int} {m : Merge} {wanted : Int → Prop} {r : Box}
    (merging : IsRow (m.finish y1 y2) y1 y2 wanted) (solid : r.x1 < r.x2) (later : m.x1 ≤ r.x1) :
    IsRow ((mergeRect y1 y2 m r).finish y1 y2) y1 y2
      fun x => wanted x ∨ r.x1 ≤ x ∧ x < r.x2 := by
  rcases is_row_front merging with ⟨done, solidNow, gap, meaning⟩
  rw [mergeRect]
  split
  · next touch =>
      have wider : m.x1 < if m.x2 < r.x2 then r.x2 else m.x2 := by
        simp only at solidNow
        split <;> omega
      apply is_row_congr (is_row_concat done wider gap)
      intro x
      rw [meaning, or_assoc]
      apply or_congr_right
      simp only at solidNow ⊢
      split <;> omega
  · next apart =>
      apply is_row_concat merging solid
      intro last member
      simp only [Merge.finish, List.getLast?_concat, Option.mem_some_iff] at member
      subst member
      simp only
      omega

/-- The left side under way is never right of a box that is merged. -/
theorem merge_rect_x1 {y1 y2 : Int} {m : Merge} {r : Box} (later : m.x1 ≤ r.x1) :
    (mergeRect y1 y2 m r).x1 ≤ r.x1 := by
  rw [mergeRect]
  split
  · exact later
  · exact le_refl r.x1

theorem apart_head_later {box : Box} {boxes : List Box} (apart : Apart (box :: boxes)) :
    ∀ next ∈ boxes.head?, box.x1 ≤ next.x1 := by
  intro next first
  have solid := apart_solid apart
  cases boxes with
  | nil => simp at first
  | cons head rest =>
      simp only [List.head?_cons, Option.mem_some_iff] at first
      subst first
      have headSolid := apart_solid (apart_rest apart)
      have beyond := @apart_beyond box (head :: rest) apart head.x1 (by simp [headSolid])
      omega

theorem fold_merging {y1 y2 : Int} {m : Merge} {wanted : Int → Prop} {r : List Box}
    (merging : IsRow (m.finish y1 y2) y1 y2 wanted) (apart : Apart r)
    (later : ∀ box ∈ r.head?, m.x1 ≤ box.x1) :
    IsRow ((r.foldl (mergeRect y1 y2) m).finish y1 y2) y1 y2
      fun x => wanted x ∨ InColumns r x := by
  induction r generalizing m wanted with
  | nil => simpa using merging
  | cons box rest ih =>
      have first := later box rfl
      rw [List.foldl_cons]
      apply is_row_congr (ih (merge_rect_merging merging (apart_solid apart) first)
        (apart_rest apart) ?_)
      · intro x
        rw [in_columns_cons, or_assoc]
      · intro next second
        exact (merge_rect_x1 first).trans (apart_head_later apart next second)

theorem merge_both_merging {y1 y2 : Int} {m : Merge} {wanted : Int → Prop} {r1 r2 : List Box}
    (merging : IsRow (m.finish y1 y2) y1 y2 wanted) (apart1 : Apart r1) (apart2 : Apart r2)
    (later1 : ∀ box ∈ r1.head?, m.x1 ≤ box.x1) (later2 : ∀ box ∈ r2.head?, m.x1 ≤ box.x1) :
    IsRow ((mergeBoth y1 y2 m r1 r2).finish y1 y2) y1 y2
      fun x => wanted x ∨ InColumns r1 x ∨ InColumns r2 x := by
  fun_induction mergeBoth y1 y2 m r1 r2 generalizing wanted with
  | case1 m box1 rest1 box2 rest2 less ih =>
      have first := later1 box1 rfl
      have merged := merge_rect_merging merging (apart_solid apart1) first
      have now := @merge_rect_x1 y1 y2 m box1 first
      apply is_row_congr (ih merged (apart_rest apart1) apart2 ?_ ?_)
      · intro x
        rw [in_columns_cons box1 rest1, or_assoc, or_assoc]
      · intro next second
        exact now.trans (apart_head_later apart1 next second)
      · intro next head
        simp only [List.head?_cons, Option.mem_some_iff] at head
        subst head
        omega
  | case2 m box1 rest1 box2 rest2 notLess ih =>
      have first := later2 box2 rfl
      have merged := merge_rect_merging merging (apart_solid apart2) first
      have now := @merge_rect_x1 y1 y2 m box2 first
      apply is_row_congr (ih merged apart1 (apart_rest apart2) ?_ ?_)
      · intro x
        rw [in_columns_cons box2 rest2, or_assoc, @or_left_comm (box2.x1 ≤ x ∧ x < box2.x2)]
      · intro next head
        simp only [List.head?_cons, Option.mem_some_iff] at head
        subst head
        omega
      · intro next second
        exact now.trans (apart_head_later apart2 next second)
  | case3 m r1 =>
      apply is_row_congr (fold_merging merging apart1 later1)
      intro x
      simp
  | case4 m r2 some_left =>
      apply is_row_congr (fold_merging merging apart2 later2)
      intro x
      simp

theorem start_merging {box : Box} {y1 y2 : Int} (solid : box.x1 < box.x2) :
    IsRow (Merge.finish y1 y2 { done := [], x1 := box.x1, x2 := box.x2 }) y1 y2
      fun x => box.x1 ≤ x ∧ x < box.x2 := by
  apply is_row_congr (is_row_cons solid (is_row_nil fun x (none : False) => none) ?_)
  · intro x
    simp
  · intro x none
    exact none.elim

theorem union_o_row {r1 r2 : List Box} (apart1 : Apart r1) (apart2 : Apart r2)
    (some1 : r1 ≠ []) (some2 : r2 ≠ []) (y1 y2 : Int) :
    IsRow (unionO r1 r2 y1 y2) y1 y2 fun x => InColumns r1 x ∨ InColumns r2 x := by
  cases r1 with
  | nil => exact absurd rfl some1
  | cons box1 rest1 =>
      cases r2 with
      | nil => exact absurd rfl some2
      | cons box2 rest2 =>
          rw [unionO]
          split
          · next less =>
              apply is_row_congr (merge_both_merging (start_merging (apart_solid apart1))
                (apart_rest apart1) apart2 (apart_head_later apart1) ?_)
              · intro x
                rw [in_columns_cons box1 rest1, or_assoc]
              · intro next head
                simp only [List.head?_cons, Option.mem_some_iff] at head
                subst head
                exact less.le
          · next notLess =>
              apply is_row_congr (merge_both_merging (start_merging (apart_solid apart2))
                apart1 (apart_rest apart2) ?_ (apart_head_later apart2))
              · intro x
                rw [in_columns_cons box2 rest2, or_left_comm]
              · intro next head
                simp only [List.head?_cons, Option.mem_some_iff] at head
                subst head
                exact not_lt.mp notLess

/-! ## Difference -/

theorem append_non_o_row {boxes : List Box} (apart : Apart boxes) (y1 y2 : Int) :
    IsRow (appendNonO boxes y1 y2) y1 y2 (InColumns boxes) := by
  rw [row_columns_append_non_o]
  refine ⟨?_, ?_, ?_⟩
  · intro box member
    obtain ⟨span, -, same⟩ := List.mem_map.mp member
    exact ⟨by rw [← same], by rw [← same]⟩
  · rw [Apart, columns_row]
    exact apart
  · intro x
    rw [InColumns, columns_row, InColumns]

/-- The fence is in the first minuend. -/
def Fenced (x1 : Int) (r1 : List Box) : Prop := ∀ box ∈ r1.head?, box.x1 ≤ x1 ∧ x1 < box.x2

theorem fenced_next {r1 : List Box} (apart : Apart r1) (x1 : Int) :
    Fenced (nextFence x1 r1) r1 := by
  cases r1 with
  | nil => simp [Fenced]
  | cons next rest => simp [Fenced, nextFence, apart_solid apart]

/-- What is left to check when the first minuend is used up. -/
theorem minuend_used {minuend : Box} {rest1 : List Box} (apart1 : Apart (minuend :: rest1))
    (x1 x : Int) :
    InColumns rest1 x ∧ nextFence x1 rest1 ≤ x ↔
      InColumns (minuend :: rest1) x ∧ minuend.x2 ≤ x := by
  constructor
  · intro found
    have past := apart_beyond apart1 found.1
    exact ⟨(in_columns_cons minuend rest1 x).mpr (.inr found.1), past.le⟩
  · rintro ⟨found, past⟩
    rcases (in_columns_cons minuend rest1 x).mp found with here | there
    · omega
    · refine ⟨there, ?_⟩
      cases rest1 with
      | nil => exact absurd there (in_columns_nil x)
      | cons next rest => exact apart_low (apart_rest apart1) there

/-- What a subtrahend leaves of the columns behind it. -/
theorem subtrahend_used {subtrahend : Box} {rest2 : List Box} {x : Int}
    (past : subtrahend.x2 ≤ x) :
    InColumns (subtrahend :: rest2) x ↔ InColumns rest2 x := by
  rw [in_columns_cons]
  constructor
  · rintro (here | there)
    · omega
    · exact there
  · exact .inr

theorem subtract_from_row {x1 : Int} {r1 r2 : List Box} (apart1 : Apart r1) (apart2 : Apart r2)
    (fenced : Fenced x1 r1) (y1 y2 : Int) :
    IsRow (subtractFrom x1 r1 r2 y1 y2) y1 y2
      fun x => InColumns r1 x ∧ x1 ≤ x ∧ ¬InColumns r2 x := by
  fun_induction subtractFrom x1 r1 r2 y1 y2 with
  | case1 x1 minuend rest1 subtrahend rest2 left ih =>
      apply is_row_congr (ih apart1 (apart_rest apart2) fenced)
      intro x
      apply and_congr_right
      intro found
      apply and_congr_right
      intro lower
      rw [subtrahend_used (left.trans lower)]
  | case2 x1 minuend rest1 subtrahend rest2 reaches low covered ih =>
      have fence := fenced minuend rfl
      apply is_row_congr (ih (apart_rest apart1) apart2 (fenced_next (apart_rest apart1) x1))
      intro x
      rw [← and_assoc, minuend_used apart1, in_columns_cons subtrahend]
      grind
  | case3 x1 minuend rest1 subtrahend rest2 reaches low shorter ih =>
      have fence := fenced minuend rfl
      have moved : Fenced subtrahend.x2 (minuend :: rest1) := by
        simp only [Fenced, List.head?_cons, Option.mem_some_iff, forall_eq']
        omega
      apply is_row_congr (ih apart1 (apart_rest apart2) moved)
      intro x
      have beyond := @apart_beyond subtrahend rest2 apart2 x
      rw [in_columns_cons subtrahend]
      grind
  | case4 x1 minuend rest1 subtrahend rest2 reaches high overlap ih2 ih1 =>
      have fence := fenced minuend rfl
      have solid2 := apart_solid apart2
      have behind : IsRow (if subtrahend.x2 ≥ minuend.x2 then
            subtractFrom (nextFence x1 rest1) rest1 (subtrahend :: rest2) y1 y2
          else subtractFrom subtrahend.x2 (minuend :: rest1) rest2 y1 y2) y1 y2
          fun x => InColumns (minuend :: rest1) x ∧ subtrahend.x1 < x ∧
            ¬InColumns (subtrahend :: rest2) x := by
        split
        · next covered =>
            apply is_row_congr (ih2 (apart_rest apart1) apart2
              (fenced_next (apart_rest apart1) x1))
            intro x
            rw [← and_assoc, minuend_used apart1, in_columns_cons subtrahend]
            grind
        · next shorter =>
            have moved : Fenced subtrahend.x2 (minuend :: rest1) := by
              simp only [Fenced, List.head?_cons, Option.mem_some_iff, forall_eq']
              omega
            apply is_row_congr (ih1 apart1 (apart_rest apart2) moved)
            intro x
            have beyond := @apart_beyond subtrahend rest2 apart2 x
            rw [in_columns_cons subtrahend]
            grind
      apply is_row_congr (is_row_cons (by omega) behind fun x found => found.2.1)
      intro x
      have low2 := @apart_low subtrahend rest2 apart2 x
      rw [in_columns_cons subtrahend, in_columns_cons minuend] at *
      grind
  | case5 x1 minuend rest1 subtrahend rest2 reaches high beyondMinuend rest some_left ih =>
      have behind := ih (apart_rest apart1) apart2 (fenced_next (apart_rest apart1) x1)
      have fence := fenced minuend rfl
      apply is_row_congr (is_row_cons some_left behind fun x found => apart_beyond apart1 found.1)
      intro x
      have low2 := @apart_low subtrahend rest2 apart2 x
      have used := minuend_used apart1 x1 x
      rw [in_columns_cons minuend] at used ⊢
      grind
  | case6 x1 minuend rest1 subtrahend rest2 reaches high beyondMinuend rest none_left ih =>
      have fence := fenced minuend rfl
      exact absurd fence.2 none_left
  | case7 x1 r1 r2 ended =>
      cases r1 with
      | nil =>
          apply is_row_nil
          intro x found
          exact in_columns_nil x found.1
      | cons minuend rest1 =>
          cases r2 with
          | cons subtrahend rest2 => exact (ended minuend rest1 subtrahend rest2 rfl rfl).elim
          | nil =>
              have fence := fenced minuend rfl
              apply is_row_congr (is_row_cons fence.2 (append_non_o_row (apart_rest apart1) y1 y2)
                fun x found => apart_beyond apart1 found)
              intro x
              have beyond := @apart_beyond minuend rest1 apart1 x
              have none := in_columns_nil x
              rw [in_columns_cons minuend]
              grind

theorem subtract_o_row {r1 r2 : List Box} (apart1 : Apart r1) (apart2 : Apart r2)
    (y1 y2 : Int) :
    IsRow (subtractO r1 r2 y1 y2) y1 y2 fun x => InColumns r1 x ∧ ¬InColumns r2 x := by
  cases r1 with
  | nil =>
      apply is_row_nil
      intro x found
      exact in_columns_nil x found.1
  | cons minuend rest1 =>
      have fenced : Fenced minuend.x1 (minuend :: rest1) := by
        simp [Fenced, apart_solid apart1]
      apply is_row_congr (subtract_from_row apart1 apart2 fenced y1 y2)
      intro x
      apply and_congr_right
      intro found
      simp [apart_low apart1 found]

end XrdpConsole.PixmanRegion
