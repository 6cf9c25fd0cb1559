import Mathlib.Data.List.Induction
import Mathlib.Data.List.TakeWhile

/-!
# Searching for a pattern

A search for a word with something behind it: the word stands between characters that are no
word characters, and what is behind it is a sequence of literal texts and runs of characters, of
which some are captured. The search goes from the left, and a run takes as much as it can; it is
made shorter when the rest does not match otherwise.
-/

namespace XrdpConsole.Library

set_option autoImplicit false

variable {Symbol : Type}

/-! ## Words -/

section Words

variable (among : Symbol → Bool)

def startsIn (text : List Symbol) : Bool := text.head?.any among

def endsIn (text : List Symbol) : Bool := text.getLast?.any among

/-- `word` stands in the text with no character of the words next to it. -/
def HasWord (word text : List Symbol) : Prop :=
  ∃ front back, text = front ++ word ++ back ∧ endsIn among front = false ∧
    startsIn among back = false

variable {among}

theorem starts_other {text : List Symbol} (starts : startsIn among text = true) {symbol : Symbol}
    (other : among symbol = false) : text.head? ≠ some symbol := by
  intro head
  simp [startsIn, head, other] at starts

theorem starts_in_append {front : List Symbol} (nonempty : front ≠ []) (back : List Symbol) :
    startsIn among (front ++ back) = startsIn among front := by
  cases front with
  | nil => contradiction
  | cons symbol front => rfl

theorem ends_in_append {back : List Symbol} (front : List Symbol) (nonempty : back ≠ []) :
    endsIn among (front ++ back) = endsIn among back := by
  rw [endsIn, List.getLast?_append, List.getLast?_eq_some_getLast nonempty, endsIn,
    List.getLast?_eq_some_getLast nonempty]
  rfl

theorem has_word_subset {word text : List Symbol} (has : HasWord among word text) :
    word ⊆ text := by
  obtain ⟨front, back, rfl, -, -⟩ := has
  intro symbol member
  simp [member]

/-- A text of word characters is one word. -/
theorem has_word_whole {word text : List Symbol} (inside : ∀ symbol ∈ text, among symbol = true)
    (has : HasWord among word text) : word = text := by
  obtain ⟨front, back, rfl, before, behind⟩ := has
  have no_front : front = [] := by
    cases front using List.reverseRecOn with
    | nil => rfl
    | append_singleton front last =>
        have word := inside last (by simp)
        simp [endsIn, word] at before
  have no_back : back = [] := by
    cases back with
    | nil => rfl
    | cons first back =>
        have word := inside first (by simp)
        simp [startsIn, word] at behind
  simp [no_front, no_back]

/-- A word ends where a character of no word follows. -/
theorem prefix_apart {word text rest : List Symbol}
    (inside : ∀ symbol ∈ word, among symbol = true) (apart : startsIn among rest = false)
    (found : word <+: text ++ rest) : word <+: text := by
  obtain ⟨tail, same⟩ := found
  rcases List.append_eq_append_iff.mp same with ⟨more, split, -⟩ | ⟨more, split, behind⟩
  · rw [split]
    exact List.prefix_append word more
  · cases more with
    | nil => simp [split]
    | cons symbol more =>
        have first := inside symbol (by simp [split])
        simp [behind, startsIn, first] at apart

/-- A word does not go across a character that it does not have. -/
theorem has_word_split {word left right : List Symbol} {apart : Symbol} (fresh : apart ∉ word)
    (has : HasWord among word (left ++ apart :: right)) :
    HasWord among word left ∨ HasWord among word right := by
  obtain ⟨front, back, same, before, behind⟩ := has
  rw [List.append_assoc] at same
  rcases List.append_eq_append_iff.mp same with ⟨more, rfl, rest⟩ | ⟨more, rfl, rest⟩
  · cases more with
    | nil =>
        cases word with
        | nil => exact Or.inl ⟨left, [], by simp, by simpa using before, rfl⟩
        | cons symbol word =>
            rw [List.nil_append, List.cons_append, List.cons.injEq] at rest
            simp [rest.1] at fresh
    | cons symbol more =>
        rw [List.cons_append, List.cons.injEq] at rest
        refine Or.inr ⟨more, back, by rw [rest.2, List.append_assoc], ?_, behind⟩
        cases more with
        | nil => rfl
        | cons next more =>
            rw [ends_in_append left (by simp)] at before
            exact before
  · rcases List.append_eq_append_iff.mp rest with ⟨most, rfl, later⟩ | ⟨most, rfl, later⟩
    · refine Or.inl ⟨front, most, by rw [List.append_assoc], before, ?_⟩
      cases most with
      | nil => rfl
      | cons next most => rwa [later] at behind
    · cases most with
      | nil => exact Or.inl ⟨front, [], by simp, before, rfl⟩
      | cons symbol most =>
          rw [List.cons_append, List.cons.injEq] at later
          simp [later.1] at fresh

/-- Maximal munch: a run ends where a character of another class follows. -/
theorem take_while_run {chunk rest : List Symbol}
    (inside : ∀ symbol ∈ chunk, among symbol = true) (ends : startsIn among rest = false) :
    (chunk ++ rest).takeWhile among = chunk := by
  have stop : rest.takeWhile among = [] := by
    cases rest with
    | nil => rfl
    | cons symbol rest => simpa [startsIn] using ends
  rw [List.takeWhile_append_of_pos inside, stop, List.append_nil]

end Words

/-! ## Patterns -/

/-- A text, one or more characters of a class, or one or none. -/
inductive PatternPart (Symbol : Type) where
  | literal (text : List Symbol)
  | run (among : Symbol → Bool) (captured : Bool)
  | optional (among : Symbol → Bool) (captured : Bool)

structure Pattern (Symbol : Type) where
  word : List Symbol
  parts : List (PatternPart Symbol)

def capture (captured : Bool) (text : List Symbol) (groups : List (List Symbol)) :
    List (List Symbol) :=
  if captured then text :: groups else groups

/-- The first result for the numbers from `count` down to 1. -/
def longestFirst {Result : Type} (attempt : Nat → Option Result) : Nat → Option Result
  | 0 => none
  | count + 1 => (attempt (count + 1)).or (longestFirst attempt count)

variable [DecidableEq Symbol]

/-- What is captured when the parts match the front of a text. -/
def matchParts : List (PatternPart Symbol) → List Symbol → Option (List (List Symbol))
  | [], _ => some []
  | .literal front :: parts, text =>
      if front <+: text then matchParts parts (text.drop front.length) else none
  | .run among captured :: parts, text =>
      longestFirst (fun count =>
        (matchParts parts (text.drop count)).map (capture captured (text.take count)))
        (text.takeWhile among).length
  | .optional among captured :: parts, text =>
      (longestFirst (fun count =>
        (matchParts parts (text.drop count)).map (capture captured (text.take count)))
        ((text.take 1).takeWhile among).length).or
          ((matchParts parts text).map (capture captured []))

theorem longest_first_most {Result : Type} {attempt : Nat → Option Result} {count : Nat}
    {result : Result} (some_count : count ≠ 0) (found : attempt count = some result) :
    longestFirst attempt count = some result := by
  cases count with
  | zero => contradiction
  | succ count => simp [longestFirst, found]

section Matching

variable {among : Symbol → Bool} {parts : List (PatternPart Symbol)} {chunk rest : List Symbol}
  {groups : List (List Symbol)}

theorem match_literal (front rest : List Symbol) (parts : List (PatternPart Symbol)) :
    matchParts (.literal front :: parts) (front ++ rest) = matchParts parts rest := by
  simp [matchParts]

theorem match_run (captured : Bool) (nonempty : chunk ≠ [])
    (inside : ∀ symbol ∈ chunk, among symbol = true) (ends : startsIn among rest = false)
    (tail : matchParts parts rest = some groups) :
    matchParts (.run among captured :: parts) (chunk ++ rest) =
      some (capture captured chunk groups) := by
  rw [matchParts, take_while_run inside ends]
  apply longest_first_most (by simpa using nonempty)
  simp [tail]

theorem match_optional (captured : Bool) (short : chunk.length ≤ 1)
    (inside : ∀ symbol ∈ chunk, among symbol = true) (ends : startsIn among rest = false)
    (tail : matchParts parts rest = some groups) :
    matchParts (.optional among captured :: parts) (chunk ++ rest) =
      some (capture captured chunk groups) := by
  match chunk, short with
  | [], _ =>
      have stop : ((rest.take 1).takeWhile among).length = 0 := by
        cases rest with
        | nil => rfl
        | cons symbol rest =>
            have other : among symbol = false := by simpa [startsIn] using ends
            simp [other]
      rw [List.nil_append, matchParts, stop, tail]
      rfl
  | [symbol], _ =>
      have first := inside symbol (List.mem_cons_self ..)
      simp [matchParts, first, longestFirst, tail]

theorem literal_none {symbol : Symbol} {text : List Symbol} (other : text.head? ≠ some symbol)
    (front : List Symbol) (parts : List (PatternPart Symbol)) :
    matchParts (.literal (symbol :: front) :: parts) text = none := by
  apply if_neg
  rintro ⟨rest, rfl⟩
  exact other rfl

theorem run_none {text : List Symbol} (other : startsIn among text = false) (captured : Bool)
    (parts : List (PatternPart Symbol)) : matchParts (.run among captured :: parts) text = none := by
  have nothing : text.takeWhile among = [] := @take_while_run Symbol among [] text (by simp) other
  rw [matchParts, nothing]
  rfl

end Matching

/-! ## The search -/

section Search

variable (isWord : Symbol → Bool)

/-- What is captured at the front of a text; `within` is set behind a word character. -/
def matchHere (pattern : Pattern Symbol) (within : Bool) (text : List Symbol) :
    Option (List (List Symbol)) :=
  if within ≠ startsIn isWord text ∧ pattern.word <+: text then
    matchParts pattern.parts (text.drop pattern.word.length)
  else none

def searchFrom (pattern : Pattern Symbol) (within : Bool) :
    List Symbol → Option (List (List Symbol))
  | [] => matchHere isWord pattern within []
  | symbol :: rest =>
      (matchHere isWord pattern within (symbol :: rest)).or
        (searchFrom pattern (isWord symbol) rest)

/-- What is captured at the first place where the pattern is found. -/
def search (pattern : Pattern Symbol) (text : List Symbol) : Option (List (List Symbol)) :=
  searchFrom isWord pattern false text

/-- The word of a pattern is one, and the parts behind it do not go on with it. -/
structure Bounded (pattern : Pattern Symbol) : Prop where
  nonempty : pattern.word ≠ []
  word : ∀ symbol ∈ pattern.word, isWord symbol = true
  closed : ∀ text, startsIn isWord text = true → matchParts pattern.parts text = none

variable {isWord} {pattern : Pattern Symbol}

theorem bounded_starts (bounded : Bounded isWord pattern) (rest : List Symbol) :
    startsIn isWord (pattern.word ++ rest) = true := by
  have nonempty := bounded.nonempty
  have inside := bounded.word
  cases same : pattern.word with
  | nil => contradiction
  | cons symbol word => simp [startsIn, inside symbol (by simp [same])]

theorem search_here (bounded : Bounded isWord pattern) {rest : List Symbol}
    {groups : List (List Symbol)} (found : matchParts pattern.parts rest = some groups) :
    search isWord pattern (pattern.word ++ rest) = some groups := by
  have here : matchHere isWord pattern false (pattern.word ++ rest) = some groups := by
    simp [matchHere, bounded_starts bounded, found]
  rw [search]
  cases same : pattern.word ++ rest with
  | nil => simp [bounded.nonempty] at same
  | cons symbol text =>
      rw [same] at here
      simp [searchFrom, here]

/-- Nothing is found where no word character follows. -/
theorem match_apart (bounded : Bounded isWord pattern) (within : Bool) {text : List Symbol}
    (apart : startsIn isWord text = false) : matchHere isWord pattern within text = none := by
  apply if_neg
  intro here
  obtain ⟨rest, rfl⟩ := here.2
  rw [bounded_starts bounded] at apart
  contradiction

theorem search_apart (bounded : Bounded isWord pattern) (within : Bool) {text : List Symbol}
    (apart : startsIn isWord text = false) :
    searchFrom isWord pattern within text = search isWord pattern text := by
  cases text with
  | nil => simp only [search, searchFrom, match_apart bounded _ apart]
  | cons symbol rest => simp only [search, searchFrom, match_apart bounded _ apart]

/-- Characters of no word are passed over. -/
theorem search_gap (bounded : Bounded isWord pattern) {gap : List Symbol}
    (blank : ∀ symbol ∈ gap, isWord symbol = false) (rest : List Symbol) :
    search isWord pattern (gap ++ rest) = search isWord pattern rest := by
  induction gap with
  | nil => rfl
  | cons symbol gap ih =>
      have here := blank symbol (List.mem_cons_self ..)
      have later := ih fun other member => blank other (List.mem_cons_of_mem symbol member)
      have apart : startsIn isWord (symbol :: (gap ++ rest)) = false := by simp [startsIn, here]
      rw [List.cons_append, search, searchFrom, match_apart bounded false apart, here]
      exact later

theorem search_nil (bounded : Bounded isWord pattern) : search isWord pattern [] = none := by
  rw [search, searchFrom]
  exact match_apart bounded false rfl

/-- Nothing is found in a text without the word. -/
theorem match_within (bounded : Bounded isWord pattern) {before text rest : List Symbol}
    (absent : ¬HasWord isWord pattern.word (before ++ text))
    (apart : startsIn isWord rest = false) :
    matchHere isWord pattern (endsIn isWord before) (text ++ rest) = none := by
  rw [matchHere]
  split
  · rename_i here
    obtain ⟨boundary, found⟩ := here
    obtain ⟨back, rfl⟩ := prefix_apart bounded.word apart found
    rw [List.append_assoc, bounded_starts bounded] at boundary
    rw [List.append_assoc, List.drop_left]
    cases behind : startsIn isWord back with
    | true =>
        apply bounded.closed
        rw [starts_in_append _ rest, behind]
        intro empty
        simp [empty, startsIn] at behind
    | false =>
        apply absurd _ absent
        exact ⟨before, back, by simp, by simpa using boundary, behind⟩
  · rfl

/-- A text without the word is passed over. -/
theorem search_pass (bounded : Bounded isWord pattern) {front rest : List Symbol}
    (absent : ¬HasWord isWord pattern.word front) (apart : startsIn isWord rest = false) :
    search isWord pattern (front ++ rest) = search isWord pattern rest := by
  have pass : ∀ before text, front = before ++ text →
      searchFrom isWord pattern (endsIn isWord before) (text ++ rest) =
        search isWord pattern rest := by
    intro before text
    induction text generalizing before with
    | nil => exact fun _ => search_apart bounded _ apart
    | cons symbol text ih =>
        intro split
        have later := ih (before ++ [symbol]) (by simp [split])
        rw [ends_in_append before (by simp)] at later
        have nothing : matchHere isWord pattern (endsIn isWord before) (symbol :: text ++ rest) =
            none := by
          exact match_within bounded (by rwa [← split]) apart
        rw [List.cons_append] at nothing ⊢
        rw [searchFrom, nothing]
        exact later
  exact pass [] front rfl

end Search

end XrdpConsole.Library
