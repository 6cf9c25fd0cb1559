import Mathlib.Tactic.Common

/-!
# Labelled transition systems

Systems that start in one of a set of states and take labelled steps, their
runs with the labels taken, and the induction rules for what holds along every
run. `restrict` keeps the steps that meet a guard, so that a result about every
run of the restricted system is one about every run whose steps all meet it.
-/

namespace XrdpConsole.Library

set_option autoImplicit false

variable {State Label : Type}

structure System (State Label : Type) where
  initial : State → Prop
  step : State → Label → State → Prop

namespace System

/-- A run lists its labels in the order in which the steps were taken. -/
inductive Run (system : System State Label) : State → List Label → State → Prop where
  | stay (state : State) : Run system state [] state
  | next {start before after : State} {labels : List Label} {label : Label} :
      Run system start labels before → system.step before label after →
      Run system start (labels ++ [label]) after

def Reachable (system : System State Label) (state : State) : Prop :=
  ∃ start labels, system.initial start ∧ Run system start labels state

def restrict (system : System State Label) (guard : State → Label → Prop) :
    System State Label where
  initial := system.initial
  step before label after := guard before label ∧ system.step before label after

/-- What every step preserves holds at the end of a run that starts with it. -/
theorem run_preserves {system : System State Label} (holds : State → Prop)
    (preserved : ∀ before label after, holds before → system.step before label after → holds after)
    {start final : State} {labels : List Label} (ran : Run system start labels final)
    (initially : holds start) : holds final := by
  induction ran with
  | stay => exact initially
  | next _ stepped ih => exact preserved _ _ _ ih stepped

theorem reachable_invariant {system : System State Label} (holds : State → Prop)
    (initially : ∀ state, system.initial state → holds state)
    (preserved : ∀ before label after, holds before → system.step before label after → holds after)
    {state : State} (reachable : Reachable system state) : holds state := by
  obtain ⟨start, labels, started, ran⟩ := reachable
  exact run_preserves holds preserved ran (initially start started)

/-- A run that starts with one more step. -/
theorem run_after {system : System State Label} {start middle final : State} {label : Label}
    {labels : List Label} (stepped : system.step start label middle)
    (ran : Run system middle labels final) : Run system start (label :: labels) final := by
  induction ran with
  | stay => exact .next (.stay start) stepped
  | next _ taken ih => exact .next ih taken

theorem run_append {system : System State Label} {start middle final : State}
    {labels later : List Label} (ran : Run system start labels middle)
    (ranLater : Run system middle later final) : Run system start (labels ++ later) final := by
  induction ranLater with
  | stay => simpa using ran
  | next _ stepped ih =>
      rw [← List.append_assoc]
      exact .next ih stepped

theorem run_nothing {system : System State Label} {start final : State}
    (ran : Run system start [] final) : final = start := by
  generalize nothing : [] = labels at ran
  cases ran with
  | stay => rfl
  | next _ _ => simp at nothing

/-- The first step of a run, and what is left of it. -/
theorem run_first {system : System State Label} {start final : State} {label : Label}
    {labels : List Label} (ran : Run system start (label :: labels) final) :
    ∃ middle, system.step start label middle ∧ Run system middle labels final := by
  generalize whole : label :: labels = all at ran
  induction ran generalizing labels with
  | stay => contradiction
  | @next before after earlier last ran stepped ih =>
      cases earlier with
      | nil =>
          obtain ⟨rfl, rfl⟩ := List.cons.inj whole
          obtain rfl := run_nothing ran
          exact ⟨after, stepped, .stay after⟩
      | cons first earlier =>
          obtain ⟨rfl, rfl⟩ := List.cons.inj whole
          obtain ⟨middle, taken, rest⟩ := ih rfl
          exact ⟨middle, taken, .next rest stepped⟩

theorem run_of_restrict {system : System State Label} {guard : State → Label → Prop}
    {start final : State} {labels : List Label}
    (ran : Run (system.restrict guard) start labels final) : Run system start labels final := by
  induction ran with
  | stay => exact .stay start
  | next _ stepped ih => exact .next ih stepped.2

/-- A system whose steps are computed runs all labels that it always takes. -/
theorem run_computed {system : System State Label} {compute : State → Label → State}
    {labels : List Label}
    (computed : ∀ label ∈ labels, ∀ before, system.step before label (compute before label))
    (start : State) : Run system start labels (labels.foldl compute start) := by
  induction labels generalizing start with
  | nil => exact .stay start
  | cons label labels ih =>
      apply run_after (computed label (List.mem_cons_self ..) start)
      exact ih (fun later member => computed later (List.mem_cons_of_mem label member)) _

/-- Every label meets the guard in the state it comes in. -/
def AllMeet (compute : State → Label → State) (guard : State → Label → Prop) :
    State → List Label → Prop
  | _, [] => True
  | state, label :: rest => guard state label ∧ AllMeet compute guard (compute state label) rest

instance decidableAllMeet {compute : State → Label → State} {guard : State → Label → Prop}
    [∀ state label, Decidable (guard state label)] :
    ∀ state labels, Decidable (AllMeet compute guard state labels)
  | _, [] => .isTrue trivial
  | state, label :: rest =>
      have := @decidableAllMeet compute guard _ (compute state label) rest
      inferInstanceAs (Decidable (_ ∧ _))

theorem all_meet_append {compute : State → Label → State} {guard : State → Label → Prop}
    {start : State} {labels later : List Label} :
    AllMeet compute guard start (labels ++ later) ↔
      AllMeet compute guard start labels ∧
        AllMeet compute guard (labels.foldl compute start) later := by
  induction labels generalizing start with
  | nil => simp [AllMeet]
  | cons label labels ih => simp [AllMeet, ih, and_assoc]

theorem run_guarded {system : System State Label} {compute : State → Label → State}
    {guard : State → Label → Prop}
    (steps : ∀ state label, guard state label → system.step state label (compute state label))
    {labels : List Label} {start : State} (met : AllMeet compute guard start labels) :
    Run system start labels (labels.foldl compute start) := by
  induction labels generalizing start with
  | nil => exact .stay start
  | cons label labels ih => exact run_after (steps start label met.1) (ih met.2)

/-! ## Histories -/

section Histories

variable {History : Type}

/-- The system with a history beside its state, which every step takes further. -/
def observed (system : System State Label) (initially : History)
    (record : State → Label → History → History) : System (State × History) Label where
  initial state := system.initial state.1 ∧ state.2 = initially
  step before label after :=
    system.step before.1 label after.1 ∧ after.2 = record before.1 label before.2

/-- Every run has a history. -/
theorem observed_run {system : System State Label} {initially : History}
    {record : State → Label → History → History} {guard : State × History → Label → Prop}
    {start final : State} {labels : List Label}
    (ran : Run (system.restrict fun state label => ∀ history, guard (state, history) label) start
      labels final) (before : History) :
    ∃ after, Run ((system.observed initially record).restrict guard) (start, before) labels
      (final, after) := by
  induction ran with
  | stay => exact ⟨before, .stay (start, before)⟩
  | @next middle final labels label _ stepped ih =>
      obtain ⟨history, ranBefore⟩ := ih
      exact ⟨record middle label history, .next ranBefore ⟨stepped.1 history, stepped.2, rfl⟩⟩

end Histories

end System

end XrdpConsole.Library
