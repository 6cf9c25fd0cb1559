import Mathlib.Algebra.GroupWithZero.Nat
import XrdpConsole.Library.ChunkedStream

/-!
# The occurrences of a text

How often a text occurs in a longer one. A count from the left that goes on behind each place it
finds misses none of the places of a text without a border; a count of the pieces of a text
misses the places that go across an end of a piece, and no others.
-/

namespace XrdpConsole.Library

set_option autoImplicit false

variable {Symbol : Type} {pattern : List Symbol}

/-! ## Places across an end -/

variable (pattern) in
theorem prefix_append_iff (left right : List Symbol) :
    pattern <+: left ↔ pattern <+: left ++ right ∧ pattern.length ≤ left.length := by
  constructor
  · intro found
    exact ⟨found.trans (List.prefix_append left right), found.length_le⟩
  · rintro ⟨found, short⟩
    exact List.prefix_of_prefix_length_le found (List.prefix_append left right) short

/-- A place of `pattern` goes across the position `stop`. -/
def Crosses (pattern text : List Symbol) (stop : Nat) : Prop :=
  ∃ start < stop, stop < start + pattern.length ∧ pattern <+: text.drop start

theorem crosses_inside {text : List Symbol} {stop : Nat} (across : Crosses pattern text stop) :
    stop < text.length := by
  obtain ⟨start, before, behind, found⟩ := across
  have fits := found.length_le
  rw [List.length_drop] at fits
  omega

theorem crosses_behind {piece rest : List Symbol} {stop : Nat}
    (whole : ¬Crosses pattern (piece ++ rest) piece.length) :
    Crosses pattern (piece ++ rest) (piece.length + stop) ↔ Crosses pattern rest stop := by
  constructor
  · rintro ⟨start, before, behind, found⟩
    have late : piece.length ≤ start := by
      apply Nat.le_of_not_lt
      intro early
      exact whole ⟨start, early, by omega, found⟩
    refine ⟨start - piece.length, by omega, by omega, ?_⟩
    rwa [List.drop_append, List.drop_eq_nil_of_le late, List.nil_append] at found
  · rintro ⟨start, before, behind, found⟩
    refine ⟨piece.length + start, by omega, by omega, ?_⟩
    rwa [List.drop_length_add_append]

/-! ## Texts without a border -/

variable (pattern) in
/-- No part behind the first symbol is found again at the front. -/
def Borderless : Prop := ∀ cut < pattern.length, 0 < cut → ¬pattern.drop cut <+: pattern

theorem borderless_apart (borderless : Borderless pattern) {text : List Symbol}
    (found : pattern <+: text) {cut : Nat} (inside : cut < pattern.length) (positive : 0 < cut) :
    ¬pattern <+: text.drop cut := by
  intro again
  obtain ⟨behind, rfl⟩ := found
  rw [List.drop_append_of_le_length (Nat.le_of_lt inside)] at again
  apply borderless cut inside positive
  have short : (pattern.drop cut).length ≤ pattern.length := by
    rw [List.length_drop]
    omega
  have front : pattern.drop cut <+: pattern.drop cut ++ behind := List.prefix_append ..
  exact List.prefix_of_prefix_length_le front again short

/-! ## Counts -/

variable [DecidableEq Symbol] (pattern)

/-- The number of the places where `pattern` occurs. -/
def occurrences : List Symbol → Nat
  | [] => 0
  | symbol :: rest => (if pattern <+: symbol :: rest then 1 else 0) + occurrences rest

/-- The places that are found from the left, each behind the last; `covered` symbols are part of
the last one. -/
def countApart : Nat → List Symbol → Nat
  | _, [] => 0
  | covered + 1, _ :: rest => countApart covered rest
  | 0, symbol :: rest =>
      if pattern <+: symbol :: rest then 1 + countApart (pattern.length - 1) rest
      else countApart 0 rest

instance : Decidable (Borderless pattern) :=
  inferInstanceAs (Decidable (∀ cut < pattern.length, 0 < cut → ¬pattern.drop cut <+: pattern))

variable {pattern}

theorem occurrences_cons_pos {symbol : Symbol} {rest : List Symbol}
    (found : pattern <+: symbol :: rest) :
    occurrences pattern (symbol :: rest) = 1 + occurrences pattern rest := by
  rw [occurrences, if_pos found]

theorem occurrences_cons_neg {symbol : Symbol} {rest : List Symbol}
    (missing : ¬pattern <+: symbol :: rest) :
    occurrences pattern (symbol :: rest) = occurrences pattern rest := by
  rw [occurrences, if_neg missing, Nat.zero_add]

/-! ## From the left -/

theorem occurrences_drop (text : List Symbol) {covered : Nat}
    (none : ∀ cut < covered, ¬pattern <+: text.drop cut) :
    occurrences pattern (text.drop covered) = occurrences pattern text := by
  induction covered generalizing text with
  | zero => rfl
  | succ covered ih =>
      cases text with
      | nil => rfl
      | cons symbol rest =>
          have first : ¬pattern <+: symbol :: rest := none 0 (Nat.succ_pos covered)
          rw [List.drop_succ_cons, occurrences_cons_neg first]
          apply ih
          intro cut below
          exact none (cut + 1) (Nat.succ_lt_succ below)

theorem count_apart_drop (borderless : Borderless pattern) (covered : Nat) (text : List Symbol) :
    countApart pattern covered text = occurrences pattern (text.drop covered) := by
  induction text generalizing covered with
  | nil => simp [countApart, occurrences]
  | cons symbol rest ih =>
      cases covered with
      | succ covered => rw [countApart, ih, List.drop_succ_cons]
      | zero =>
          rw [countApart, List.drop_zero]
          split
          · rename_i found
            rw [occurrences_cons_pos found, ih, occurrences_drop]
            intro cut below
            have apart := borderless_apart borderless found (by omega) (Nat.succ_pos cut)
            rwa [List.drop_succ_cons] at apart
          · rename_i missing
            rw [occurrences_cons_neg missing, ih, List.drop_zero]

/-- Of a text without a border every place is found from the left. -/
theorem count_apart_all (borderless : Borderless pattern) (text : List Symbol) :
    countApart pattern 0 text = occurrences pattern text :=
  count_apart_drop borderless 0 text

/-! ## Pieces -/

variable (pattern) in
omit [DecidableEq Symbol] in
/-- The places that begin in a piece end in it when the first one does, and those behind it. -/
theorem places_inside_cons (symbol : Symbol) (left right : List Symbol) :
    (∀ start < (symbol :: left).length, pattern <+: (symbol :: left ++ right).drop start →
      start + pattern.length ≤ (symbol :: left).length) ↔
    (pattern <+: symbol :: left ++ right → pattern.length ≤ (symbol :: left).length) ∧
      ∀ start < left.length, pattern <+: (left ++ right).drop start →
        start + pattern.length ≤ left.length := by
  constructor
  · intro all
    constructor
    · intro found
      have first := all 0 (Nat.succ_pos left.length) found
      omega
    · intro start below found
      have later := all (start + 1) (Nat.succ_lt_succ below) found
      rw [List.length_cons] at later
      omega
  · rintro ⟨first, later⟩ start below found
    cases start with
    | zero =>
        rw [Nat.zero_add]
        exact first found
    | succ start =>
        have rest := later start (Nat.lt_of_succ_lt_succ below) found
        rw [List.length_cons]
        omega

variable (pattern) in
/-- A count of two pieces misses nothing exactly when no place goes across. -/
theorem occurrences_append (left right : List Symbol) :
    occurrences pattern left + occurrences pattern right ≤ occurrences pattern (left ++ right) ∧
      (occurrences pattern left + occurrences pattern right = occurrences pattern (left ++ right) ↔
        ∀ start < left.length, pattern <+: (left ++ right).drop start →
          start + pattern.length ≤ left.length) := by
  induction left with
  | nil => simp [occurrences]
  | cons symbol left ih =>
      obtain ⟨fewer, equal_iff⟩ := ih
      have here := prefix_append_iff pattern (symbol :: left) right
      rw [places_inside_cons, ← equal_iff]
      by_cases whole : pattern <+: symbol :: left ++ right
      · rw [List.cons_append] at whole ⊢
        rw [occurrences_cons_pos whole]
        by_cases short : pattern.length ≤ (symbol :: left).length
        · rw [occurrences_cons_pos (here.mpr ⟨whole, short⟩)]
          constructor
          · omega
          · simp only [whole, short, true_implies, true_and]
            omega
        · have missing : ¬pattern <+: symbol :: left := fun found => short found.length_le
          rw [occurrences_cons_neg missing]
          constructor
          · omega
          · simp only [whole, short, true_implies, false_and, iff_false]
            omega
      · have missing : ¬pattern <+: symbol :: left := fun found => whole (here.mp found).1
        rw [List.cons_append] at whole ⊢
        rw [occurrences_cons_neg whole, occurrences_cons_neg missing]
        constructor
        · exact fewer
        · simp only [whole, false_implies, true_and]

variable (pattern) in
/-- A count of the pieces misses nothing exactly when no place goes across the end of a piece. -/
theorem occurrences_pieces (pieces : List (List Symbol)) :
    (pieces.map (occurrences pattern)).sum ≤ occurrences pattern pieces.flatten ∧
      ((pieces.map (occurrences pattern)).sum = occurrences pattern pieces.flatten ↔
        ∀ stop ∈ pieceEnds 0 pieces, ¬Crosses pattern pieces.flatten stop) := by
  induction pieces with
  | nil => simp [occurrences, pieceEnds]
  | cons piece rest ih =>
      obtain ⟨fewer, equal_iff⟩ := ih
      obtain ⟨joined, joined_iff⟩ :=
        occurrences_append pattern piece rest.flatten
      have first : (∀ start < piece.length, pattern <+: (piece ++ rest.flatten).drop start →
          start + pattern.length ≤ piece.length) ↔
          ¬Crosses pattern (piece ++ rest.flatten) piece.length := by
        simp [Crosses]
        grind
      have ends : (∀ stop ∈ pieceEnds 0 (piece :: rest),
          ¬Crosses pattern (piece ++ rest.flatten) stop) ↔
          ¬Crosses pattern (piece ++ rest.flatten) piece.length ∧
            ∀ stop ∈ pieceEnds 0 rest, ¬Crosses pattern rest.flatten stop := by
        rw [pieceEnds, Nat.zero_add, piece_ends_shift, List.forall_mem_cons]
        apply and_congr_right
        intro whole
        simp only [List.forall_mem_map, crosses_behind whole]
      rw [List.map_cons, List.sum_cons, List.flatten_cons, ends, ← first, ← joined_iff, ← equal_iff]
      constructor
      · omega
      · omega

end XrdpConsole.Library
