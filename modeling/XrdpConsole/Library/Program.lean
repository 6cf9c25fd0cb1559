import Mathlib.Tactic.Common

/-!
# Programs that may stop with an error

A small language of sequential programs over a state: a program either returns
a value or stops with an error, and the state reached so far is kept in both
cases. The rules below are the usual partial-correctness rules, one for each
construct: `Returns` for single runs, `Keeps` for frames, `Ensures` for
preconditions and postconditions, and `Simulates` for two programs run from
related states.
-/

namespace XrdpConsole.Library

set_option autoImplicit false

def Program (Error State Value : Type) : Type := State → Except Error Value × State

namespace Program

variable {Error State Other Value Result Part : Type}

protected def bind (first : Program Error State Value)
    (next : Value → Program Error State Result) : Program Error State Result :=
  fun state => match first state with
    | (.ok value, after) => next value after
    | (.error error, after) => (.error error, after)

instance : Monad (Program Error State) where
  pure value := fun state => (.ok value, state)
  bind := Program.bind

def read (part : State → Part) : Program Error State Part := fun state => (.ok (part state), state)

def update (change : State → State) : Program Error State Unit :=
  fun state => (.ok (), change state)

def stop (error : Error) : Program Error State Value := fun state => (.error error, state)

def onlyIf (condition : Prop) [Decidable condition] (program : Program Error State Unit) :
    Program Error State Unit :=
  if condition then program else pure ()

theorem only_if_true {condition : Prop} [Decidable condition]
    {program : Program Error State Unit} (holds : condition) :
    onlyIf condition program = program := if_pos holds

theorem only_if_false {condition : Prop} [Decidable condition]
    {program : Program Error State Unit} (missing : ¬condition) :
    onlyIf condition program = pure () := if_neg missing

/-- Hands the outcome of a program to the caller, errors included. -/
def attempt (program : Program Error State Value) : Program Error State (Except Error Value) :=
  fun state => (.ok (program state).1, (program state).2)

/-- Applies `change` after `program` whether or not it stopped with an error. -/
def always (program : Program Error State Value) (change : State → State) :
    Program Error State Value :=
  fun state => ((program state).1, change (program state).2)

/-- Runs `body` until it gives a value, `fuel` times at most. -/
def loop (outOfFuel : Error) (body : Program Error State (Option Value)) :
    Nat → Program Error State Value
  | 0 => stop outOfFuel
  | fuel + 1 => do
      match ← body with
      | some value => pure value
      | none => loop outOfFuel body fuel

/-! ## Single runs -/

def Returns (program : Program Error State Value) (before : State) (value : Value)
    (after : State) : Prop :=
  program before = (.ok value, after)

@[simp] theorem returns_pure (value result : Value) (before after : State) :
    Returns (pure value : Program Error State Value) before result after ↔
      value = result ∧ before = after := by
  change ((.ok value, before) : Except Error Value × State) = (.ok result, after) ↔ _
  simp

@[simp] theorem returns_read (part : State → Part) (result : Part) (before after : State) :
    Returns (read part : Program Error State Part) before result after ↔
      part before = result ∧ before = after := by
  simp [Returns, read]

@[simp] theorem returns_update (change : State → State) (result : Unit) (before after : State) :
    Returns (update change : Program Error State Unit) before result after ↔
      change before = after := by
  simp [Returns, update]

@[simp] theorem returns_stop (error : Error) (result : Value) (before after : State) :
    ¬Returns (stop error : Program Error State Value) before result after := by
  simp [Returns, stop]

@[simp] theorem returns_attempt (program : Program Error State Value)
    (result : Except Error Value) (before after : State) :
    Returns (attempt program) before result after ↔ program before = (result, after) := by
  simp [Returns, attempt, Prod.ext_iff]

@[simp] theorem returns_always (program : Program Error State Value) (change : State → State)
    (result : Value) (before after : State) :
    Returns (always program change) before result after ↔
      ∃ middle, Returns program before result middle ∧ change middle = after := by
  simp [Returns, always, Prod.ext_iff]

theorem returns_of_option {program : Program Error State Value} {start : State} {value : Value}
    (returned : (program start).1.toOption = some value) :
    Returns program start value (program start).2 := by
  unfold Returns
  generalize program start = outcome at returned ⊢
  cases outcome with
  | mk result final =>
      cases result with
      | ok other =>
          obtain rfl := Option.some.inj returned
          rfl
      | error error => simp [Except.toOption] at returned

theorem returns_bind (first : Program Error State Value)
    (next : Value → Program Error State Result) (before after : State) (result : Result) :
    Returns (first >>= next) before result after ↔
      ∃ value middle, Returns first before value middle ∧
        Returns (next value) middle result after := by
  change (Program.bind first next) before = _ ↔ _
  unfold Program.bind Returns
  cases ran : first before with
  | mk outcome middle =>
      cases outcome with
      | ok value => simp
      | error error => simp

theorem stops_bind (first : Program Error State Value)
    (next : Value → Program Error State Result) (before after : State) (error : Error) :
    (first >>= next) before = (.error error, after) ↔
      first before = (.error error, after) ∨ ∃ value middle, Returns first before value middle ∧
        next value middle = (.error error, after) := by
  change (Program.bind first next) before = _ ↔ _
  unfold Program.bind Returns
  cases ran : first before with
  | mk outcome middle =>
      cases outcome with
      | ok value => simp
      | error error => simp

/-! ## Preconditions and postconditions -/

/-- Started in a state satisfying `before`, the program ends in one satisfying
`after` or stops with an error satisfying `failure`. -/
def Ensures (before : State → Prop) (program : Program Error State Value)
    (after : Value → State → Prop) (failure : Error → Prop) : Prop :=
  ∀ start, before start →
    match program start with
    | (.ok value, final) => after value final
    | (.error error, _) => failure error

section Conditions

variable {before : State → Prop} {failure : Error → Prop}

theorem ensures_returns {program : Program Error State Value} {after : Value → State → Prop}
    (ensured : Ensures before program after failure) {start final : State} {value : Value}
    (holds : before start) (ran : Returns program start value final) : after value final := by
  have ended := ensured start holds
  rw [show program start = (.ok value, final) from ran] at ended
  exact ended

theorem ensures_stops {program : Program Error State Value} {after : Value → State → Prop}
    (ensured : Ensures before program after failure) {start final : State} {error : Error}
    (holds : before start) (ran : program start = (.error error, final)) : failure error := by
  have ended := ensured start holds
  rw [ran] at ended
  exact ended

theorem ensures_weaken {program : Program Error State Value} {weaker : State → Prop}
    {after stronger : Value → State → Prop} {narrow : Error → Prop}
    (ensured : Ensures weaker program stronger narrow) (start : ∀ state, before state → weaker state)
    (final : ∀ value state, stronger value state → after value state)
    (stopped : ∀ error, narrow error → failure error) :
    Ensures before program after failure := by
  intro state holds
  have ended := ensured state (start state holds)
  generalize program state = outcome at ended ⊢
  cases outcome with
  | mk result reached =>
      cases result with
      | ok value => exact final value reached ended
      | error error => exact stopped error ended

theorem ensures_conclude {program : Program Error State Value}
    {after stronger : Value → State → Prop} (ensured : Ensures before program stronger failure)
    (final : ∀ value state, stronger value state → after value state) :
    Ensures before program after failure :=
  ensures_weaken ensured (fun _ holds => holds) final fun _ stopped => stopped

theorem ensures_begin {program : Program Error State Value} {weaker : State → Prop}
    {after : Value → State → Prop} (start : ∀ state, before state → weaker state)
    (ensured : Ensures weaker program after failure) : Ensures before program after failure :=
  fun state holds => ensured state (start state holds)

/-- What holds of the values alone may be used in the rest of the program. -/
theorem ensures_given {fact : Prop} {program : Program Error State Value}
    {after : Value → State → Prop} (ensured : fact → Ensures before program after failure) :
    Ensures (fun state => fact ∧ before state) program after failure :=
  fun state holds => ensured holds.1 state holds.2

theorem ensures_or {other : State → Prop} {program : Program Error State Value}
    {after : Value → State → Prop} (left : Ensures before program after failure)
    (right : Ensures other program after failure) :
    Ensures (fun state => before state ∨ other state) program after failure :=
  fun state start => start.elim (left state) (right state)

theorem ensures_exists {Index : Type} {holds : Index → State → Prop}
    {program : Program Error State Value} {after : Value → State → Prop}
    (ensured : ∀ index, Ensures (holds index) program after failure) :
    Ensures (fun state => ∃ index, holds index state) program after failure :=
  fun state ⟨index, start⟩ => ensured index state start

theorem ensures_of_returns {program : Program Error State Value} {after : Value → State → Prop}
    (returned : ∀ start value final, before start → Returns program start value final →
      after value final) : Ensures before program after fun _ => True := by
  intro start holds
  cases ran : program start with
  | mk outcome final =>
      cases outcome with
      | ok value => exact returned start value final holds ran
      | error error => trivial

theorem ensures_pure {value : Value} {after : Value → State → Prop}
    (holds : ∀ state, before state → after value state) :
    Ensures before (pure value : Program Error State Value) after failure :=
  fun state start => holds state start

theorem ensures_read {part : State → Part} {after : Part → State → Prop}
    (holds : ∀ state, before state → after (part state) state) :
    Ensures before (read part : Program Error State Part) after failure :=
  fun state start => holds state start

theorem ensures_update {change : State → State} {after : Unit → State → Prop}
    (holds : ∀ state, before state → after () (change state)) :
    Ensures before (update change : Program Error State Unit) after failure :=
  fun state start => holds state start

theorem ensures_stop {error : Error} {after : Value → State → Prop} (stopped : failure error) :
    Ensures before (stop error : Program Error State Value) after failure :=
  fun _ _ => stopped

theorem ensures_bind {first : Program Error State Value}
    {next : Value → Program Error State Result} {middle : Value → State → Prop}
    {after : Result → State → Prop} (head : Ensures before first middle failure)
    (tail : ∀ value, Ensures (middle value) (next value) after failure) :
    Ensures before (first >>= next) after failure := by
  intro start holds
  have ended := head start holds
  change match Program.bind first next start with
    | (.ok value, final) => after value final
    | (.error error, _) => failure error
  unfold Program.bind
  generalize first start = outcome at ended
  cases outcome with
  | mk result reached =>
      cases result with
      | ok value => exact tail value reached ended
      | error error => exact ended

/-- Sequencing with the condition in between written out. -/
theorem ensures_through {first : Program Error State Value}
    {next : Value → Program Error State Result} {after : Result → State → Prop}
    (middle : Value → State → Prop) (head : Ensures before first middle failure)
    (tail : ∀ value, Ensures (middle value) (next value) after failure) :
    Ensures before (first >>= next) after failure :=
  ensures_bind head tail

/-- The state read is the one the rest of the program starts in. -/
theorem ensures_read_bind {part : State → Part} {next : Part → Program Error State Result}
    {after : Result → State → Prop}
    (tail : ∀ state, before state → Ensures (fun start => start = state) (next (part state)) after
      failure) :
    Ensures before (read part >>= next) after failure :=
  fun state start => tail state start state rfl

theorem ensures_ite {condition : Prop} [Decidable condition]
    {left right : Program Error State Value} {after : Value → State → Prop}
    (onTrue : condition → Ensures before left after failure)
    (onFalse : ¬condition → Ensures before right after failure) :
    Ensures before (if condition then left else right) after failure := by
  split
  · exact onTrue ‹_›
  · exact onFalse ‹_›

theorem ensures_only_if {condition : Prop} [Decidable condition]
    {program : Program Error State Unit} {after : Unit → State → Prop}
    (onTrue : condition → Ensures before program after failure)
    (onFalse : ¬condition → ∀ state, before state → after () state) :
    Ensures before (onlyIf condition program) after failure :=
  ensures_ite onTrue fun missing => ensures_pure (onFalse missing)

/-- A loop whose condition for no fuel cannot be met does not run out of it. -/
theorem ensures_loop {holds : Nat → State → Prop} {body : Program Error State (Option Value)}
    {after : Value → State → Prop} {outOfFuel : Error} (never : ∀ state, ¬holds 0 state)
    (turn : ∀ fuel, Ensures (holds (fuel + 1)) body
      (fun result state => result.elim (holds fuel state) fun value => after value state) failure)
    (fuel : Nat) : Ensures (holds fuel) (loop outOfFuel body fuel) after failure := by
  induction fuel with
  | zero => exact fun state start => absurd start (never state)
  | succ fuel ih =>
      refine ensures_bind (turn fuel) fun result => ?_
      cases result with
      | none => exact ih
      | some value => exact ensures_pure fun _ holds => holds

theorem ensures_always {program : Program Error State Value} {change : State → State}
    {after : Value → State → Prop}
    (ensured : Ensures before program (fun value state => after value (change state)) failure) :
    Ensures before (always program change) after failure := by
  intro start holds
  have ended := ensured start holds
  unfold always
  generalize program start = outcome at ended
  cases outcome with
  | mk result reached => cases result <;> exact ended

theorem ensures_attempt {program : Program Error State Value}
    {after : Except Error Value → State → Prop}
    (holds : ∀ state, before state → after (program state).1 (program state).2) :
    Ensures before (attempt program) after failure :=
  fun state start => holds state start

end Conditions

/-! ## Frames -/

/-- However the program ends, the part `part` of the state is as it was, and an
error it stops with satisfies `failure`. -/
def Keeps (part : State → Part) (program : Program Error State Value)
    (failure : Error → Prop) : Prop :=
  ∀ start, part (program start).2 = part start ∧
    ∀ error, (program start).1 = .error error → failure error

section Frames

variable {part : State → Part} {failure : Error → Prop}

theorem keeps_pure (value : Value) :
    Keeps part (pure value : Program Error State Value) failure :=
  fun _ => ⟨rfl, fun _ stopped => nomatch stopped⟩

theorem keeps_read (other : State → Value) :
    Keeps part (read other : Program Error State Value) failure :=
  fun _ => ⟨rfl, fun _ stopped => nomatch stopped⟩

theorem keeps_update {change : State → State} (kept : ∀ state, part (change state) = part state) :
    Keeps part (update change : Program Error State Unit) failure :=
  fun start => ⟨kept start, fun _ stopped => nomatch stopped⟩

theorem keeps_stop {error : Error} (stopped : failure error) :
    Keeps part (stop error : Program Error State Value) failure := by
  refine fun start => ⟨rfl, fun other same => ?_⟩
  cases same
  exact stopped

theorem keeps_bind {first : Program Error State Value}
    {next : Value → Program Error State Result} (head : Keeps part first failure)
    (tail : ∀ value, Keeps part (next value) failure) : Keeps part (first >>= next) failure := by
  intro start
  have kept := head start
  change part (Program.bind first next start).2 = part start ∧
    ∀ error, (Program.bind first next start).1 = .error error → failure error
  unfold Program.bind
  generalize first start = outcome at kept
  cases outcome with
  | mk result reached =>
      cases result with
      | ok value => exact ⟨(tail value reached).1.trans kept.1, (tail value reached).2⟩
      | error error => exact ⟨kept.1, fun other same => kept.2 other (by simpa using same)⟩

theorem keeps_ite {condition : Prop} [Decidable condition]
    {left right : Program Error State Value} (onTrue : Keeps part left failure)
    (onFalse : Keeps part right failure) :
    Keeps part (if condition then left else right) failure := by
  split
  · exact onTrue
  · exact onFalse

theorem keeps_only_if {condition : Prop} [Decidable condition]
    {program : Program Error State Unit} (onTrue : Keeps part program failure) :
    Keeps part (onlyIf condition program) failure :=
  keeps_ite onTrue (keeps_pure ())

theorem keeps_attempt {program : Program Error State Value} {narrow : Error → Prop}
    (kept : Keeps part program narrow) : Keeps part (attempt program) failure :=
  fun start => ⟨(kept start).1, fun _ stopped => nomatch stopped⟩

theorem keeps_always {program : Program Error State Value} {change : State → State}
    (kept : Keeps part program failure) (unchanged : ∀ state, part (change state) = part state) :
    Keeps part (always program change) failure :=
  fun start => ⟨(unchanged _).trans (kept start).1, (kept start).2⟩

/-- A condition on the kept part is a precondition and a postcondition. -/
theorem ensures_of_keeps {program : Program Error State Value} (holds : Part → Prop)
    (kept : Keeps part program failure) :
    Ensures (fun state => holds (part state)) program (fun _ state => holds (part state))
      failure := by
  intro start before
  have ended := kept start
  generalize program start = outcome at ended ⊢
  cases outcome with
  | mk result reached =>
      cases result with
      | ok value => simpa only [ended.1] using before
      | error error => exact ended.2 error rfl

end Frames

/-! ## Relations -/

/-- However the program ends, the state it starts in and the one it ends in are related. -/
def Relates (related : State → State → Prop) (program : Program Error State Value) : Prop :=
  ∀ start, related start (program start).2

section Relations

variable {related : State → State → Prop}

theorem relates_update {change : State → State} (changed : ∀ state, related state (change state)) :
    Relates related (update change : Program Error State Unit) := changed

theorem relates_ite {condition : Prop} [Decidable condition]
    {left right : Program Error State Value} (onTrue : Relates related left)
    (onFalse : Relates related right) :
    Relates related (if condition then left else right) := by
  split
  · exact onTrue
  · exact onFalse

theorem relates_attempt {program : Program Error State Value} (holds : Relates related program) :
    Relates related (attempt program) := holds

section Steps

variable (reflexive : ∀ state, related state state)

include reflexive

theorem relates_pure (value : Value) :
    Relates related (pure value : Program Error State Value) := reflexive

theorem relates_read (part : State → Part) :
    Relates related (read part : Program Error State Part) := reflexive

theorem relates_stop (error : Error) :
    Relates related (stop error : Program Error State Value) := reflexive

theorem relates_only_if {condition : Prop} [Decidable condition]
    {program : Program Error State Unit} (onTrue : Relates related program) :
    Relates related (onlyIf condition program) :=
  relates_ite onTrue (relates_pure reflexive ())

end Steps

section Sequences

variable (transitive : ∀ first second third, related first second → related second third →
  related first third)

include transitive

theorem relates_bind {first : Program Error State Value}
    {next : Value → Program Error State Result} (head : Relates related first)
    (tail : ∀ value, Relates related (next value)) : Relates related (first >>= next) := by
  intro start
  have reached := head start
  change related start (Program.bind first next start).2
  unfold Program.bind
  generalize first start = outcome at reached
  cases outcome with
  | mk result middle =>
      cases result with
      | ok value => exact transitive _ _ _ reached (tail value middle)
      | error error => exact reached

theorem relates_always {program : Program Error State Value} {change : State → State}
    (holds : Relates related program) (changed : ∀ state, related state (change state)) :
    Relates related (always program change) :=
  fun start => transitive _ _ _ (holds start) (changed _)

end Sequences

end Relations

/-! ## Simulation -/

/-- Whenever `left` returns, `right` started in a related state returns the
same value in a related state. -/
def Simulates (related : State → Other → Prop) (left : Program Error State Value)
    (right : Program Error Other Value) : Prop :=
  ∀ before before' value after, related before before' → Returns left before value after →
    ∃ after', Returns right before' value after' ∧ related after after'

section Simulation

variable {related : State → Other → Prop}

theorem simulates_pure (value : Value) :
    Simulates related (pure value : Program Error State Value) (pure value) := by
  intro before before' result after start ran
  obtain ⟨same, rfl⟩ := (returns_pure value result before after).mp ran
  exact ⟨before', (returns_pure value result before' before').mpr ⟨same, rfl⟩, start⟩

theorem simulates_read {left : State → Part} {right : Other → Part}
    (same : ∀ state other, related state other → left state = right other) :
    Simulates related (read left : Program Error State Part) (read right) := by
  intro before before' result after start ran
  obtain ⟨value, rfl⟩ := (returns_read left result before after).mp ran
  exact ⟨before', (returns_read right result before' before').mpr
    ⟨(same before before' start).symm.trans value, rfl⟩, start⟩

theorem simulates_update {left : State → State} {right : Other → Other}
    (kept : ∀ state other, related state other → related (left state) (right other)) :
    Simulates related (update left : Program Error State Unit) (update right) := by
  intro before before' result after start ran
  have reached := (returns_update left result before after).mp ran
  refine ⟨right before', (returns_update right result before' _).mpr rfl, ?_⟩
  rw [← reached]
  exact kept before before' start

theorem simulates_stop (error : Error) (right : Program Error Other Value) :
    Simulates related (stop error : Program Error State Value) right := by
  intro before before' result after start ran
  exact absurd ran (returns_stop error result before after)

theorem simulates_bind {left : Program Error State Value} {right : Program Error Other Value}
    {leftNext : Value → Program Error State Result} {rightNext : Value → Program Error Other Result}
    (head : Simulates related left right)
    (tail : ∀ value, Simulates related (leftNext value) (rightNext value)) :
    Simulates related (left >>= leftNext) (right >>= rightNext) := by
  intro before before' result after start ran
  obtain ⟨value, middle, ranFirst, ranNext⟩ := (returns_bind left leftNext before after result).mp ran
  obtain ⟨middle', ranFirst', joined⟩ := head before before' value middle start ranFirst
  obtain ⟨after', ranNext', final⟩ := tail value middle middle' result after joined ranNext
  exact ⟨after', (returns_bind right rightNext before' after' result).mpr
    ⟨value, middle', ranFirst', ranNext'⟩, final⟩

theorem simulates_ite {condition : Prop} [Decidable condition]
    {left other : Program Error State Value} {right other' : Program Error Other Value}
    (onTrue : Simulates related left right) (onFalse : Simulates related other other') :
    Simulates related (if condition then left else other)
      (if condition then right else other') := by
  split
  · exact onTrue
  · exact onFalse

theorem simulates_only_if {condition : Prop} [Decidable condition]
    {left : Program Error State Unit} {right : Program Error Other Unit}
    (onTrue : Simulates related left right) :
    Simulates related (onlyIf condition left) (onlyIf condition right) :=
  simulates_ite onTrue (simulates_pure ())

end Simulation

end Program

end XrdpConsole.Library
