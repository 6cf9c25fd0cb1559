import Mathlib.Data.List.Basic

/-!
# Values over older values

Partial maps laid over each other: of a key that several have, the newest map that has it gives
the value. A fold that lays the values of each item over what is there leaves, for every key, the
value of the last item that has one.
-/

namespace XrdpConsole.Library

set_option autoImplicit false

variable {Key Value Item : Type}

def emptyMap : Key → Option Value := fun _ => none

def overlay (new old : Key → Option Value) : Key → Option Value :=
  fun key => (new key).or (old key)

theorem overlay_assoc (new middle old : Key → Option Value) :
    overlay (overlay new middle) old = overlay new (overlay middle old) := by
  funext key
  exact Option.or_assoc

theorem overlay_empty (new : Key → Option Value) : overlay new emptyMap = new := by
  funext key
  exact Option.or_none

theorem empty_overlay (old : Key → Option Value) : overlay emptyMap old = old := by
  funext key
  exact Option.none_or

/-- A map shows nothing that is not below it when its values are there too. -/
theorem overlay_hidden_iff (new old : Key → Option Value) :
    overlay new old = old ↔ ∀ key value, new key = some value → old key = some value := by
  constructor
  · intro same key value found
    rw [← same, overlay, found, Option.some_or]
  · intro hidden
    funext key
    cases found : new key with
    | none => rw [overlay, found, Option.none_or]
    | some value => rw [overlay, found, hidden key value found, Option.some_or]

/-- For every key the value of the last item that has one. -/
def lastValues (values : Item → Key → Option Value) (items : List Item) : Key → Option Value :=
  fun key => items.reverse.findSome? fun item => values item key

theorem last_values_nil (values : Item → Key → Option Value) : lastValues values [] = emptyMap :=
  rfl

theorem last_values_cons (values : Item → Key → Option Value) (item : Item) (items : List Item) :
    lastValues values (item :: items) = overlay (lastValues values items) (values item) := by
  funext key
  simp [lastValues, overlay, List.findSome?_append]

/-- Items that agree on a key give their value of it. -/
theorem last_values_agree {values : Item → Key → Option Value} {items : List Item} {key : Key}
    {value : Option Value}
    (each : ∀ item ∈ items, values item key = none ∨ values item key = value)
    (reached : value ≠ none → ∃ item ∈ items, values item key = value) :
    lastValues values items key = value := by
  cases found : lastValues values items key with
  | none =>
      by_contra different
      obtain ⟨item, listed, own⟩ := reached (Ne.symm different)
      rw [lastValues, List.findSome?_eq_none_iff] at found
      exact different ((found item (List.mem_reverse.mpr listed)).symm.trans own)
  | some other =>
      obtain ⟨item, listed, own⟩ := List.exists_of_findSome?_eq_some found
      cases each item (List.mem_reverse.mp listed) with
      | inl nothing =>
          rw [own] at nothing
          contradiction
      | inr same => rw [← own, same]

theorem fold_overlay {step : (Key → Option Value) → Item → Key → Option Value}
    {values : Item → Key → Option Value} {items : List Item}
    (steps : ∀ item ∈ items, ∀ map, step map item = overlay (values item) map)
    (map : Key → Option Value) :
    items.foldl step map = overlay (lastValues values items) map := by
  induction items generalizing map with
  | nil => exact (empty_overlay map).symm
  | cons item items ih =>
      have here := steps item (List.mem_cons_self ..) map
      have later := ih fun other member => steps other (List.mem_cons_of_mem item member)
      rw [List.foldl_cons, later, here, last_values_cons, overlay_assoc]

end XrdpConsole.Library
