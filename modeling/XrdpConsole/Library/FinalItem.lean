import XrdpConsole.Library.PixelRect

/-!
# Lists whose last item alone has a property

Nested loops that mark their very last round: each loop has the property at its
last value only, and so do the rounds of all of them together.
-/

namespace XrdpConsole.Library

set_option autoImplicit false

variable {Item Part : Type}

def OnlyFinal (marked : Item → Prop) (items : List Item) : Prop :=
  ∃ before final, items = before ++ [final] ∧ marked final ∧ ∀ item ∈ before, ¬marked item

theorem only_final_nonempty {marked : Item → Prop} {items : List Item}
    (only : OnlyFinal marked items) : items ≠ [] := by
  obtain ⟨before, final, rfl, -⟩ := only
  simp

/-- Nothing follows a marked item. -/
theorem only_final_split {marked : Item → Prop} {earlier later : List Item} {item : Item}
    (only : OnlyFinal marked (earlier ++ item :: later)) (here : marked item) : later = [] := by
  obtain ⟨before, final, same, -, unmarked⟩ := only
  rcases List.eq_nil_or_concat later with none_later | ⟨later, last, rfl⟩
  · exact none_later
  · have joined : earlier ++ item :: later ++ [last] = before ++ [final] := by simpa using same
    have front := List.append_inj_left' joined rfl
    exact absurd here (unmarked item (by simp [← front]))

theorem only_final_filter {marked : Item → Bool} {earlier later : List Item}
    (only : OnlyFinal (fun item => marked item = true) (earlier ++ later))
    (unmarked : ∀ item ∈ earlier, marked item = false) : (later.filter marked).length = 1 := by
  obtain ⟨before, final, same, here, others⟩ := only
  have whole := congrArg (fun items => (items.filter marked).length) same
  have none_earlier : earlier.filter marked = [] := by simpa using unmarked
  have none_before : before.filter marked = [] := by simpa using others
  simpa [none_earlier, none_before, here] using whole

theorem only_final_cons {marked : Item → Prop} {item : Item} {items : List Item}
    (first : ¬marked item) (only : OnlyFinal marked items) : OnlyFinal marked (item :: items) := by
  obtain ⟨before, final, rfl, finally_marked, unmarked⟩ := only
  refine ⟨item :: before, final, rfl, finally_marked, ?_⟩
  intro other member
  rcases List.mem_cons.mp member with rfl | later
  · exact first
  · exact unmarked other later

theorem only_final_map {marked : Part → Prop} (body : Item → Part) {items : List Item}
    (only : OnlyFinal (fun item => marked (body item)) items) :
    OnlyFinal marked (items.map body) := by
  obtain ⟨before, final, rfl, finally_marked, unmarked⟩ := only
  refine ⟨before.map body, body final, by simp, finally_marked, ?_⟩
  intro part member
  obtain ⟨item, itemMember, rfl⟩ := List.mem_map.mp member
  exact unmarked item itemMember

/-- A loop whose last round ends with the mark, and whose other rounds have none. -/
theorem only_final_flat_map {outer : Item → Prop} {inner : Part → Prop} {body : Item → List Part}
    {items : List Item} (only : OnlyFinal outer items)
    (finally_inner : ∀ item ∈ items, outer item → OnlyFinal inner (body item))
    (others : ∀ item ∈ items, ¬outer item → ∀ part ∈ body item, ¬inner part) :
    OnlyFinal inner (items.flatMap body) := by
  obtain ⟨before, final, rfl, finally_marked, unmarked⟩ := only
  obtain ⟨parts, part, same, part_marked, parts_unmarked⟩ :=
    finally_inner final (by simp) finally_marked
  refine ⟨before.flatMap body ++ parts, part, by simp [same], part_marked, ?_⟩
  intro other member
  rcases List.mem_append.mp member with earlier | last
  · obtain ⟨item, itemMember, partMember⟩ := List.mem_flatMap.mp earlier
    exact others item (by simp [itemMember]) (unmarked item itemMember) other partMember
  · exact parts_unmarked other last

theorem count_steps_final {step : Int} {fuel : Nat} {start stop : Int} (forward : 0 < step)
    (enough : stop - start ≤ fuel) (some_value : start < stop) :
    OnlyFinal (fun index => stop ≤ index + step) (countSteps step fuel start stop) := by
  induction fuel generalizing start with
  | zero => omega
  | succ fuel ih =>
      rw [countSteps, if_pos some_value]
      by_cases more : start + step < stop
      · exact only_final_cons (by omega) (ih (by omega) more)
      · have stopped : countSteps step fuel (start + step) stop = [] := by
          cases fuel with
          | zero => rfl
          | succ fuel => rw [countSteps, if_neg more]
        rw [stopped]
        exact ⟨[], start, rfl, by omega, by simp⟩

/-- The last value of a loop is the one from which the next step would leave it. -/
theorem for_range_final {start stop step : Int} (forward : 0 < step) (some_value : start < stop) :
    OnlyFinal (fun index => stop ≤ index + step) (forRange start stop step) :=
  count_steps_final forward (by omega) some_value

theorem zip_idx_final {items : List Item} (some_item : items ≠ []) :
    OnlyFinal (fun item : Item × Nat => item.2 = items.length - 1) items.zipIdx := by
  have joined := List.dropLast_concat_getLast some_item
  refine ⟨items.dropLast.zipIdx, (items.getLast some_item, items.length - 1), ?_, rfl, ?_⟩
  · conv_lhs => rw [← joined]
    simp [List.zipIdx_append]
  · intro item member
    have bound := List.snd_lt_of_mem_zipIdx member
    simp only [List.length_dropLast] at bound
    omega

end XrdpConsole.Library
