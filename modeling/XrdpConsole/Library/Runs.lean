import Mathlib.Data.List.Chain
import Mathlib.Order.Lattice

/-!
# Runs of equal labels

A piecewise constant partial function on a linear order, kept as the list of the half-open runs
on which it has one label. In normal form the runs are in order, and two of them that touch have
different labels; a function has one normal form only. With a single label the runs are the
intervals of a set.
-/

namespace XrdpConsole.Library

set_option autoImplicit false

structure Run (Position Label : Type) where
  low : Position
  high : Position
  label : Label
  deriving DecidableEq, Repr

namespace Run

variable {Position Label : Type} [LinearOrder Position]

def Before (run next : Run Position Label) : Prop :=
  run.high ≤ next.low ∧ (run.high = next.low → run.label ≠ next.label)

structure Normal (runs : List (Run Position Label)) : Prop where
  solid : ∀ run ∈ runs, run.low < run.high
  chain : runs.IsChain Before

/-- The function that the runs stand for. -/
def At (runs : List (Run Position Label)) (position : Position) (label : Label) : Prop :=
  ∃ run ∈ runs, run.low ≤ position ∧ position < run.high ∧ run.label = label

/-! ## What the runs stand for -/

@[simp] theorem at_nil (position : Position) (label : Label) :
    ¬At ([] : List (Run Position Label)) position label := by
  simp [At]

@[simp] theorem at_cons (run : Run Position Label) (runs : List (Run Position Label))
    (position : Position) (label : Label) :
    At (run :: runs) position label ↔
      (run.low ≤ position ∧ position < run.high ∧ run.label = label) ∨ At runs position label := by
  simp [At]

@[simp] theorem at_append (front back : List (Run Position Label)) (position : Position)
    (label : Label) :
    At (front ++ back) position label ↔ At front position label ∨ At back position label := by
  simp [At, or_and_right, exists_or]

/-! ## Normal form -/

theorem normal_nil : Normal ([] : List (Run Position Label)) := by
  constructor
  · simp
  · exact .nil

theorem normal_cons {run : Run Position Label} {runs : List (Run Position Label)} :
    Normal (run :: runs) ↔
      run.low < run.high ∧ (∀ next ∈ runs.head?, run.Before next) ∧ Normal runs := by
  constructor
  · intro normal
    have chain := List.isChain_cons.mp normal.chain
    exact ⟨normal.solid run (List.mem_cons_self ..), chain.1,
      ⟨fun later member => normal.solid later (List.mem_cons_of_mem _ member), chain.2⟩⟩
  · intro parts
    constructor
    · intro later member
      rcases List.mem_cons.mp member with rfl | member
      · exact parts.1
      · exact parts.2.2.solid later member
    · exact List.isChain_cons.mpr ⟨parts.2.1, parts.2.2.chain⟩

theorem normal_append {front back : List (Run Position Label)} :
    Normal (front ++ back) ↔ Normal front ∧ Normal back ∧
      ∀ last ∈ front.getLast?, ∀ next ∈ back.head?, last.Before next := by
  constructor
  · intro normal
    have chain := List.isChain_append.mp normal.chain
    refine ⟨⟨?_, chain.1⟩, ⟨?_, chain.2.1⟩, chain.2.2⟩
    · intro run member
      exact normal.solid run (List.mem_append_left _ member)
    · intro run member
      exact normal.solid run (List.mem_append_right _ member)
  · intro parts
    rcases parts with ⟨front_normal, back_normal, joined⟩
    constructor
    · intro run member
      rcases List.mem_append.mp member with early | late
      · exact front_normal.solid run early
      · exact back_normal.solid run late
    · exact List.isChain_append.mpr ⟨front_normal.chain, back_normal.chain, joined⟩

theorem normal_single {run : Run Position Label} (solid : run.low < run.high) : Normal [run] := by
  apply normal_cons.mpr
  simp [solid, normal_nil]

/-- The first run ends before every later one starts. -/
theorem normal_later {run : Run Position Label} {runs : List (Run Position Label)}
    (normal : Normal (run :: runs)) {later : Run Position Label} (member : later ∈ runs) :
    run.high ≤ later.low := by
  induction runs generalizing run with
  | nil => simp at member
  | cons next runs ih =>
      rcases normal_cons.mp normal with ⟨-, before, rest⟩
      have first : run.high ≤ next.low := (before next rfl).1
      rcases List.mem_cons.mp member with rfl | member
      · exact first
      · have solid := rest.solid next (List.mem_cons_self ..)
        exact first.trans (solid.le.trans (ih rest member))

theorem normal_at_rest {run : Run Position Label} {runs : List (Run Position Label)}
    (normal : Normal (run :: runs)) (position : Position) (label : Label) :
    At runs position label ↔ At (run :: runs) position label ∧ run.high ≤ position := by
  constructor
  · intro found
    have kept := found
    rcases found with ⟨later, member, lower, -, -⟩
    exact ⟨(at_cons run runs position label).mpr (.inr kept),
      (normal_later normal member).trans lower⟩
  · intro both
    rcases (at_cons run runs position label).mp both.1 with here | there
    · exact absurd here.2.1 (not_lt.mpr both.2)
    · exact there

theorem normal_at_low {run : Run Position Label} {runs : List (Run Position Label)}
    (normal : Normal (run :: runs)) {position : Position} {label : Label}
    (found : At (run :: runs) position label) : run.low ≤ position := by
  rcases (at_cons run runs position label).mp found with here | there
  · exact here.1
  · have solid := normal.solid run (List.mem_cons_self ..)
    exact solid.le.trans ((normal_at_rest normal position label).mp there).2

/-- The label of the first run has an end where the run has. -/
theorem normal_not_at_high {run : Run Position Label} {runs : List (Run Position Label)}
    (normal : Normal (run :: runs)) : ¬At (run :: runs) run.high run.label := by
  intro found
  have later := (at_cons run runs run.high run.label).mp found
  rcases normal_cons.mp normal with ⟨-, before, rest⟩
  cases runs with
  | nil => simp at later
  | cons next runs =>
      rcases later with here | there
      · exact lt_irrefl _ here.2.1
      · have touch := before next rfl
        rcases (at_cons next runs run.high run.label).mp there with at_next | beyond
        · exact touch.2 (le_antisymm touch.1 at_next.1) at_next.2.2.symm
        · have past := ((normal_at_rest rest run.high run.label).mp beyond).2
          have solid := rest.solid next (List.mem_cons_self ..)
          exact absurd (touch.1.trans_lt solid) (not_lt.mpr past)

theorem normal_at_unique {runs : List (Run Position Label)} (normal : Normal runs)
    {position : Position} {label other : Label} (found : At runs position label)
    (otherFound : At runs position other) : label = other := by
  induction runs with
  | nil => exact absurd found (at_nil position label)
  | cons run runs ih =>
      rcases (at_cons run runs position label).mp found with here | later
      · rcases (at_cons run runs position other).mp otherFound with alsoHere | later
        · exact here.2.2.symm.trans alsoHere.2.2
        · have past := ((normal_at_rest normal position other).mp later).2
          exact absurd here.2.1 (not_lt.mpr past)
      · have past := ((normal_at_rest normal position label).mp later).2
        rcases (at_cons run runs position other).mp otherFound with here | alsoLater
        · exact absurd here.2.1 (not_lt.mpr past)
        · exact ih (normal_cons.mp normal).2.2 later alsoLater

theorem normal_head_eq {run other : Run Position Label} {runs others : List (Run Position Label)}
    (normal : Normal (run :: runs)) (otherNormal : Normal (other :: others))
    (same : ∀ position label,
      At (run :: runs) position label ↔ At (other :: others) position label) : run = other := by
  have solid := normal.solid run (List.mem_cons_self ..)
  have otherSolid := otherNormal.solid other (List.mem_cons_self ..)
  have here : At (run :: runs) run.low run.label := by
    simp [solid]
  have there : At (other :: others) other.low other.label := by
    simp [otherSolid]
  have low_eq : run.low = other.low := by
    apply le_antisymm
    · exact normal_at_low normal ((same other.low other.label).mpr there)
    · exact normal_at_low otherNormal ((same run.low run.label).mp here)
  have label_eq : run.label = other.label := by
    rcases (at_cons other others run.low run.label).mp ((same run.low run.label).mp here) with
      first | later
    · exact first.2.2.symm
    · have past := ((normal_at_rest otherNormal run.low run.label).mp later).2
      exact absurd (low_eq ▸ otherSolid) (not_lt.mpr past)
  have high_eq : run.high = other.high := by
    rcases lt_trichotomy run.high other.high with less | equal | more
    · apply absurd ((same run.high run.label).mpr _) (normal_not_at_high normal)
      apply (at_cons other others run.high run.label).mpr
      exact .inl ⟨low_eq ▸ solid.le, less, label_eq.symm⟩
    · exact equal
    · apply absurd ((same other.high other.label).mp _) (normal_not_at_high otherNormal)
      apply (at_cons run runs other.high other.label).mpr
      exact .inl ⟨low_eq ▸ otherSolid.le, more, label_eq⟩
  cases run
  cases other
  simp_all

/-- Two normal forms of one function are equal. -/
theorem normal_unique {runs others : List (Run Position Label)} (normal : Normal runs)
    (otherNormal : Normal others)
    (same : ∀ position label, At runs position label ↔ At others position label) :
    runs = others := by
  induction runs generalizing others with
  | nil =>
      cases others with
      | nil => rfl
      | cons other others =>
          have solid := otherNormal.solid other (List.mem_cons_self ..)
          have found : At (other :: others) other.low other.label := by simp [solid]
          exact absurd ((same other.low other.label).mpr found) (at_nil _ _)
  | cons run runs ih =>
      cases others with
      | nil =>
          have solid := normal.solid run (List.mem_cons_self ..)
          have found : At (run :: runs) run.low run.label := by simp [solid]
          exact absurd ((same run.low run.label).mp found) (at_nil _ _)
      | cons other others =>
          have head_eq := normal_head_eq normal otherNormal same
          subst head_eq
          have rest_eq : runs = others := by
            apply ih (normal_cons.mp normal).2.2 (normal_cons.mp otherNormal).2.2
            intro position label
            rw [normal_at_rest normal, normal_at_rest otherNormal, same]
          rw [rest_eq]

/-! ## One label only -/

theorem single_at_beyond [Subsingleton Label] {run : Run Position Label}
    {runs : List (Run Position Label)} (normal : Normal (run :: runs)) {position : Position}
    {label : Label} (found : At runs position label) : run.high < position := by
  have past := ((normal_at_rest normal position label).mp found).2
  apply lt_of_le_of_ne past
  intro touch
  apply normal_not_at_high normal
  rw [touch, Subsingleton.elim run.label label]
  exact (at_cons run runs position label).mpr (.inr found)

theorem single_cons [Subsingleton Label] {run : Run Position Label}
    {runs : List (Run Position Label)} (solid : run.low < run.high) (normal : Normal runs)
    (beyond : ∀ position, At runs position run.label → run.high < position) :
    Normal (run :: runs) := by
  apply normal_cons.mpr
  refine ⟨solid, ?_, normal⟩
  intro next first
  cases runs with
  | nil => simp at first
  | cons head rest =>
      simp only [List.head?_cons, Option.mem_some_iff] at first
      subst first
      have gap : run.high < head.low := by
        apply beyond
        simp [normal.solid head (List.mem_cons_self ..), Subsingleton.elim head.label run.label]
      exact ⟨gap.le, fun touch => absurd touch gap.ne⟩

/-! ## A run more at the end -/

variable [DecidableEq Label]

/-- A run that touches the last one and has its label becomes part of it. -/
def push (runs : List (Run Position Label)) (run : Run Position Label) :
    List (Run Position Label) :=
  match runs.getLast? with
  | none => [run]
  | some last =>
      if last.high = run.low ∧ last.label = run.label then
        runs.dropLast ++ [{ last with high := run.high }]
      else runs ++ [run]

@[simp] theorem push_nil (run : Run Position Label) : push [] run = [run] := rfl

theorem push_concat (front : List (Run Position Label)) (last run : Run Position Label) :
    push (front ++ [last]) run =
      if last.high = run.low ∧ last.label = run.label then
        front ++ [{ last with high := run.high }]
      else front ++ [last] ++ [run] := by
  simp [push]

theorem push_apart {runs : List (Run Position Label)} {run : Run Position Label}
    (apart : ∀ last ∈ runs.getLast?, last.high < run.low) : push runs run = runs ++ [run] := by
  rcases List.eq_nil_or_concat' runs with rfl | ⟨front, last, rfl⟩
  · rfl
  · rw [push_concat, if_neg]
    intro touch
    exact (apart last (by simp)).ne touch.1

theorem push_last (runs : List (Run Position Label)) (run : Run Position Label) :
    ∃ last, (push runs run).getLast? = some last ∧ last.high = run.high ∧
      last.label = run.label := by
  rcases List.eq_nil_or_concat' runs with rfl | ⟨front, last, rfl⟩
  · exact ⟨run, rfl, rfl, rfl⟩
  · rw [push_concat]
    split
    · next touch => exact ⟨{ last with high := run.high }, by simp, rfl, touch.2⟩
    · exact ⟨run, by simp, rfl, rfl⟩

theorem normal_push {runs : List (Run Position Label)} {run : Run Position Label}
    (normal : Normal runs) (solid : run.low < run.high)
    (after : ∀ last ∈ runs.getLast?, last.high ≤ run.low) : Normal (push runs run) := by
  rcases List.eq_nil_or_concat' runs with rfl | ⟨front, last, rfl⟩
  · exact normal_single solid
  · have last_high : last.high ≤ run.low := after last (by simp)
    have last_solid := normal.solid last (by simp)
    rw [push_concat]
    split
    · next touch =>
        have parts := normal_append.mp normal
        apply normal_append.mpr
        refine ⟨parts.1, normal_single (last_solid.trans_le (last_high.trans solid.le)), ?_⟩
        intro earlier early next later
        simp only [List.head?_cons, Option.mem_some_iff] at later
        subst later
        have before := parts.2.2 earlier early last rfl
        exact ⟨before.1, before.2⟩
    · next apart =>
        apply normal_append.mpr
        refine ⟨normal, normal_single solid, ?_⟩
        intro earlier early next later
        simp only [List.head?_cons, Option.mem_some_iff] at later
        simp only [List.getLast?_concat, Option.mem_some_iff] at early
        subst later early
        exact ⟨last_high, fun touch label => apart ⟨touch, label⟩⟩

theorem at_push {runs : List (Run Position Label)} {run : Run Position Label}
    (normal : Normal runs) (solid : run.low < run.high) (position : Position) (label : Label) :
    At (push runs run) position label ↔
      At runs position label ∨ run.low ≤ position ∧ position < run.high ∧ run.label = label := by
  rcases List.eq_nil_or_concat' runs with rfl | ⟨front, last, rfl⟩
  · simp
  · have last_solid := normal.solid last (by simp)
    rw [push_concat]
    split
    · next touch =>
        simp only [at_append, at_cons, at_nil, or_false, or_assoc]
        apply or_congr_right
        rw [← touch.1, ← touch.2]
        constructor
        · rintro ⟨lower, upper, rfl⟩
          rcases lt_or_ge position last.high with inside | beyond
          · exact .inl ⟨lower, inside, rfl⟩
          · exact .inr ⟨beyond, upper, rfl⟩
        · rintro (⟨lower, upper, rfl⟩ | ⟨lower, upper, rfl⟩)
          · exact ⟨lower, upper.trans (touch.1 ▸ solid), rfl⟩
          · exact ⟨last_solid.le.trans lower, upper, rfl⟩
    · simp [or_assoc]

end Run

end XrdpConsole.Library
