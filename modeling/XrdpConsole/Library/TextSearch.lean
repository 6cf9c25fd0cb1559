import Mathlib.Tactic.Common

/-!
# The last place of a text

Where a text occurs for the last time in a longer one. In a text of lines a text without a
separator is found in the last of the lines that hold it.
-/

namespace XrdpConsole.Library

set_option autoImplicit false

variable {Symbol : Type}

/-- A text of lines. -/
def joinLines (separator : Symbol) (lines : List (List Symbol)) : List Symbol :=
  lines.flatMap fun line => line ++ [separator]

theorem prefix_before_separator {separator : Symbol} {start : List Symbol}
    (fresh : separator ∉ start) (text rest : List Symbol) :
    start <+: text ++ separator :: rest ↔ start <+: text := by
  induction text generalizing start with
  | nil =>
      cases start with
      | nil => simp
      | cons symbol start =>
          have different : symbol ≠ separator := fun same => fresh (by simp [same])
          simp [different]
  | cons symbol text ih =>
      cases start with
      | nil => simp
      | cons first start =>
          have later := ih fun member => fresh (List.mem_cons_of_mem first member)
          simp [List.cons_prefix_cons, later]

variable [DecidableEq Symbol]

/-- The index of the last occurrence of `pattern`. -/
def lastIndexOf (pattern : List Symbol) : List Symbol → Option Nat
  | [] => if pattern = [] then some 0 else none
  | symbol :: rest =>
      match lastIndexOf pattern rest with
      | some index => some (index + 1)
      | none => if pattern <+: symbol :: rest then some 0 else none

variable {pattern : List Symbol}

theorem last_index_none (text : List Symbol) :
    lastIndexOf pattern text = none ↔ ¬pattern <:+: text := by
  induction text with
  | nil => simp [lastIndexOf]
  | cons symbol rest ih =>
      rw [lastIndexOf, List.infix_cons_iff, not_or]
      cases found : lastIndexOf pattern rest with
      | some index =>
          have occurs : pattern <:+: rest := by
            by_contra missing
            rw [ih.mpr missing] at found
            contradiction
          simp [occurs]
      | none =>
          have missing := ih.mp found
          simp [missing]

theorem last_index_lt (some_symbol : pattern ≠ []) {text : List Symbol} {index : Nat}
    (found : lastIndexOf pattern text = some index) : index < text.length := by
  induction text generalizing index with
  | nil => simp [lastIndexOf, some_symbol] at found
  | cons symbol rest ih =>
      rw [lastIndexOf] at found
      cases later : lastIndexOf pattern rest with
      | some other =>
          simp only [later, Option.some.injEq] at found
          have bound := ih later
          rw [List.length_cons]
          omega
      | none =>
          simp only [later] at found
          split at found
          · simp only [Option.some.injEq] at found
            simp [← found]
          · contradiction

/-- What has no separator is not found across one. -/
theorem last_index_append {separator : Symbol} (fresh : separator ∉ pattern)
    (some_symbol : pattern ≠ []) (text rest : List Symbol) :
    lastIndexOf pattern (text ++ separator :: rest) =
      match lastIndexOf pattern rest with
      | some index => some (text.length + 1 + index)
      | none => lastIndexOf pattern text := by
  induction text with
  | nil =>
      have start := prefix_before_separator fresh [] rest
      rw [List.nil_append] at start
      cases found : lastIndexOf pattern rest with
      | some index => simp [lastIndexOf, found, Nat.add_comm]
      | none => simp [lastIndexOf, found, some_symbol, start]
  | cons symbol text ih =>
      rw [List.cons_append, lastIndexOf, ih]
      cases lastIndexOf pattern rest with
      | some index =>
          simp only [List.length_cons, Option.some.injEq]
          omega
      | none =>
          have start := prefix_before_separator fresh (symbol :: text) rest
          rw [List.cons_append] at start
          simp only [lastIndexOf, start]

/-- The last line is looked at first. -/
theorem last_index_lines {separator : Symbol} (fresh : separator ∉ pattern)
    (some_symbol : pattern ≠ []) (lines : List (List Symbol)) (line : List Symbol) :
    lastIndexOf pattern (joinLines separator (lines ++ [line])) =
      match lastIndexOf pattern line with
      | some index => some ((joinLines separator lines).length + index)
      | none => lastIndexOf pattern (joinLines separator lines) := by
  induction lines with
  | nil =>
      have found := last_index_append fresh some_symbol line []
      rw [List.nil_append, joinLines, List.flatMap_singleton, found]
      cases lastIndexOf pattern line <;> simp [lastIndexOf, some_symbol, joinLines]
  | cons first lines ih =>
      have split : ∀ more : List (List Symbol), joinLines separator (first :: more) =
          first ++ separator :: joinLines separator more := by simp [joinLines]
      rw [List.cons_append, split, last_index_append fresh some_symbol, ih, split,
        last_index_append fresh some_symbol]
      cases lastIndexOf pattern line with
      | some index =>
          simp only [List.length_append, List.length_cons, Option.some.injEq]
          omega
      | none => rfl

end XrdpConsole.Library
