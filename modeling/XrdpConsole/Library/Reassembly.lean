import Mathlib.Data.List.Forall2
import Mathlib.Data.List.Induction
import Mathlib.Tactic.Common

/-!
# Messages cut into fragments

A message that does not go out at once is cut into a first fragment, which tells how long the whole
message is, and further ones. The receiver keeps what it has of the message under way and refuses
what does not fit into it.
-/

namespace XrdpConsole.Library

set_option autoImplicit false

variable {Element : Type}

/-! ## Pieces -/

/-- The data in pieces of `limit` elements, the last one of what is left. -/
def pieces (limit : Nat) (data : List Element) : List (List Element) :=
  if data.length = 0 ∨ limit = 0 then []
  else data.take limit :: pieces limit (data.drop limit)
termination_by data.length
decreasing_by
  rw [List.length_drop]
  omega

theorem pieces_nil (limit : Nat) : pieces limit ([] : List Element) = [] := by
  rw [pieces]
  simp

theorem pieces_more {limit : Nat} {data : List Element} (some_limit : 0 < limit)
    (some_data : 0 < data.length) :
    pieces limit data = data.take limit :: pieces limit (data.drop limit) := by
  rw [pieces, if_neg (by omega)]

/-- Claims about pieces hold as soon as they hold of none and of one more in front. -/
theorem pieces_induction {limit : Nat} (some_limit : 0 < limit) {motive : List Element → Prop}
    (empty : motive [])
    (more : ∀ data : List Element, 0 < data.length → motive (data.drop limit) → motive data)
    (data : List Element) : motive data := by
  have bounded : ∀ size, ∀ data : List Element, data.length ≤ size → motive data := by
    intro size
    induction size with
    | zero =>
        intro data short
        rw [List.length_eq_zero_iff.mp (by omega : data.length = 0)]
        exact empty
    | succ size ih =>
        intro data short
        by_cases none : data.length = 0
        · rw [List.length_eq_zero_iff.mp none]
          exact empty
        · apply more data (by omega)
          apply ih
          rw [List.length_drop]
          omega
  exact bounded data.length data (Nat.le_refl _)

theorem pieces_flatten {limit : Nat} (some_limit : 0 < limit) (data : List Element) :
    (pieces limit data).flatten = data := by
  induction data using pieces_induction some_limit with
  | empty => rw [pieces_nil, List.flatten_nil]
  | more data some_data ih =>
      rw [pieces_more some_limit some_data, List.flatten_cons, ih, List.take_append_drop]

theorem pieces_bounds {limit : Nat} (some_limit : 0 < limit) (data : List Element) :
    ∀ piece ∈ pieces limit data, 0 < piece.length ∧ piece.length ≤ limit := by
  induction data using pieces_induction some_limit with
  | empty => simp [pieces_nil]
  | more data some_data ih =>
      rw [pieces_more some_limit some_data]
      intro piece member
      rcases List.mem_cons.mp member with rfl | later
      · rw [List.length_take]
        omega
      · exact ih piece later

theorem pieces_count {limit : Nat} (some_limit : 0 < limit) (data : List Element) :
    (pieces limit data).length ≤ data.length / limit + 1 := by
  induction data using pieces_induction some_limit with
  | empty => simp [pieces_nil]
  | more data some_data ih =>
      rw [pieces_more some_limit some_data, List.length_cons]
      by_cases last : data.length ≤ limit
      · rw [List.drop_eq_nil_of_le last, pieces_nil, List.length_nil]
        exact Nat.succ_le_succ (Nat.zero_le _)
      · have whole : data.length = (data.drop limit).length + limit := by
          rw [List.length_drop]
          omega
        rw [whole, Nat.add_div_right _ some_limit]
        omega

/-! ## Fragments -/

inductive Fragment (Element : Type) where
  | first (total : Nat) (data : List Element)
  | next (data : List Element)
  deriving DecidableEq, Repr

/-- A message of which `held` has arrived. -/
structure Assembly (Element : Type) where
  total : Nat
  held : List Element
  room : held.length ≤ total

/-- What a fragment completes and what is under way after it; none if it does not fit. -/
def accept (underWay : Option (Assembly Element)) :
    Fragment Element → Option (Option (List Element) × Option (Assembly Element))
  | .first total data =>
      match underWay with
      | some _ => none
      | none => if room : data.length ≤ total then some (none, some ⟨total, data, room⟩) else none
  | .next data =>
      match underWay with
      | none => some (some data, none)
      | some assembly =>
          if room : (assembly.held ++ data).length ≤ assembly.total then
            if (assembly.held ++ data).length = assembly.total then
              some (some (assembly.held ++ data), none)
            else
              some (none, some ⟨assembly.total, assembly.held ++ data, room⟩)
          else
            none

/-- The messages that a stream of fragments completes. -/
def reassemble (underWay : Option (Assembly Element)) :
    List (Fragment Element) → Option (List (List Element) × Option (Assembly Element))
  | [] => some ([], underWay)
  | fragment :: rest =>
      (accept underWay fragment).bind fun taken =>
        (reassemble taken.2 rest).map fun result => (taken.1.toList ++ result.1, result.2)

theorem reassemble_append (underWay : Option (Assembly Element))
    (front back : List (Fragment Element)) :
    reassemble underWay (front ++ back) =
      (reassemble underWay front).bind fun result =>
        (reassemble result.2 back).map fun later => (result.1 ++ later.1, later.2) := by
  induction front generalizing underWay with
  | nil => simp [reassemble]
  | cons fragment front ih =>
      simp only [List.cons_append, reassemble]
      cases accept underWay fragment with
      | none => rfl
      | some taken =>
          simp only [Option.bind_some, ih]
          cases reassemble taken.2 front with
          | none => rfl
          | some result => simp [List.append_assoc, Function.comp_def]

/-- The fragments a sender may cut a message into. -/
inductive Cutting : List Element → List (Fragment Element) → Prop
  | whole (message : List Element) : Cutting message [.next message]
  | parts (front : List Element) (middle : List (List Element)) (last : List Element)
      (some_last : last ≠ []) :
      Cutting (front ++ middle.flatten ++ last)
        (.first (front ++ middle.flatten ++ last).length front ::
          (middle.map .next ++ [.next last]))

theorem reassemble_parts (middle : List (List Element)) (last : List Element)
    (some_last : last ≠ []) (assembly : Assembly Element)
    (counted : assembly.total = (assembly.held ++ middle.flatten ++ last).length) :
    reassemble (some assembly) (middle.map .next ++ [.next last]) =
      some ([assembly.held ++ middle.flatten ++ last], none) := by
  have some_length := List.length_pos_iff.mpr some_last
  induction middle generalizing assembly with
  | nil =>
      have full : (assembly.held ++ last).length = assembly.total := by
        rw [counted, List.flatten_nil, List.append_nil]
      simp only [List.map_nil, List.nil_append, reassemble, accept]
      rw [dif_pos (Nat.le_of_eq full), if_pos full]
      simp
  | cons piece middle ih =>
      have sizes : assembly.total = assembly.held.length + piece.length +
          middle.flatten.length + last.length := by
        rw [counted, List.flatten_cons]
        simp only [List.length_append]
        omega
      have room : (assembly.held ++ piece).length ≤ assembly.total := by
        rw [List.length_append]
        omega
      have more : (assembly.held ++ piece).length ≠ assembly.total := by
        rw [List.length_append]
        omega
      have rest := ih ⟨assembly.total, assembly.held ++ piece, room⟩ (by
        simp only [List.length_append]
        omega)
      simp only [List.map_cons, List.cons_append, reassemble, accept]
      rw [dif_pos room, if_neg more, Option.bind_some, rest]
      simp

theorem reassemble_cutting {message : List Element} {fragments : List (Fragment Element)}
    (cutting : Cutting message fragments) : reassemble none fragments = some ([message], none) := by
  cases cutting with
  | whole => rfl
  | parts front middle last some_last =>
      have room : front.length ≤ (front ++ middle.flatten ++ last).length := by
        simp only [List.length_append]
        omega
      simp only [reassemble, accept]
      rw [dif_pos room, Option.bind_some, reassemble_parts middle last some_last _ rfl]
      rfl

/-- Messages that are cut one after the other arrive as they were, each exactly once. -/
theorem reassemble_messages {messages : List (List Element)}
    {groups : List (List (Fragment Element))} (cuttings : List.Forall₂ Cutting messages groups) :
    reassemble none groups.flatten = some (messages, none) := by
  induction cuttings with
  | nil => rfl
  | cons cutting _ ih =>
      rw [List.flatten_cons, reassemble_append, reassemble_cutting cutting, Option.bind_some, ih]
      rfl

/-- A sender that cuts only what is longer than `limit`. -/
def cut (limit : Nat) (message : List Element) : List (Fragment Element) :=
  if message.length ≤ limit then [.next message]
  else .first message.length (message.take limit) ::
    (pieces limit (message.drop limit)).map .next

theorem cut_cutting {limit : Nat} (some_limit : 0 < limit) (message : List Element) :
    Cutting message (cut limit message) := by
  unfold cut
  split
  · exact .whole message
  · rename_i long
    have bounds := pieces_bounds some_limit (message.drop limit)
    have joined := pieces_flatten some_limit (message.drop limit)
    have whole := List.take_append_drop limit message
    rcases List.eq_nil_or_concat' (pieces limit (message.drop limit)) with none | ⟨middle, last, split⟩
    · rw [none, List.flatten_nil] at joined
      have rest := congrArg List.length joined
      rw [List.length_drop, List.length_nil] at rest
      omega
    · rw [split] at bounds joined
      have some_last := (bounds last (by simp)).1
      rw [List.flatten_append, List.flatten_singleton] at joined
      have parts := Cutting.parts (message.take limit) middle last (List.length_pos_iff.mp some_last)
      rw [List.append_assoc, joined, whole] at parts
      rw [split, List.map_append]
      exact parts

theorem reassemble_cut {limit : Nat} (some_limit : 0 < limit) (messages : List (List Element)) :
    reassemble none (messages.flatMap (cut limit)) = some (messages, none) := by
  rw [List.flatMap_def]
  apply reassemble_messages
  rw [List.forall₂_map_right_iff]
  apply List.forall₂_same.mpr
  intro message _
  exact cut_cutting some_limit message

end XrdpConsole.Library
