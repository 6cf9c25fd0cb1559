import Mathlib.Data.Nat.Digits.Defs

/-!
# Lines of text

A stream of lines that each end with a separator, cut off one by one from a buffer that
holds only the front of the stream. The lines here are ASCII records: words between single
spaces, among them natural numbers in decimal, which a reader that splits at white space and
accepts any spelling of an integer reads back.
-/

namespace XrdpConsole.Library

set_option autoImplicit false

/-! ## Lines -/

section Lines

variable {Symbol : Type}

def Ended (separator : Symbol) (line : List Symbol) : Prop :=
  ∃ body, separator ∉ body ∧ line = body ++ [separator]

variable {separator : Symbol}

theorem ended_nonempty {line : List Symbol} (ended : Ended separator line) : line ≠ [] := by
  obtain ⟨body, -, rfl⟩ := ended
  simp

variable [DecidableEq Symbol]

/-- The first line, with its separator, and what follows it. -/
def cutLine (separator : Symbol) : List Symbol → Option (List Symbol × List Symbol)
  | [] => none
  | symbol :: rest =>
      if symbol = separator then
        some ([symbol], rest)
      else
        (cutLine separator rest).map fun (line, left) => (symbol :: line, left)

theorem cut_line_ended {line : List Symbol} (ended : Ended separator line) (rest : List Symbol) :
    cutLine separator (line ++ rest) = some (line, rest) := by
  obtain ⟨body, fresh, rfl⟩ := ended
  induction body with
  | nil => simp [cutLine]
  | cons symbol body ih =>
      have different : symbol ≠ separator := fun same => fresh (by simp [same])
      have cut := ih fun member => fresh (List.mem_cons_of_mem symbol member)
      simp only [List.cons_append, cutLine, different, if_false, cut, Option.map_some]

theorem cut_line_some {text line left : List Symbol}
    (cut : cutLine separator text = some (line, left)) :
    Ended separator line ∧ text = line ++ left := by
  induction text generalizing line with
  | nil => simp [cutLine] at cut
  | cons symbol text ih =>
      simp only [cutLine] at cut
      split at cut
      · rename_i same
        simp only [Option.some.injEq, Prod.mk.injEq] at cut
        obtain ⟨rfl, rfl⟩ := cut
        exact ⟨⟨[], by simp, by simp [same]⟩, rfl⟩
      · rename_i different
        obtain ⟨⟨tail, final⟩, tail_cut, joined⟩ := Option.map_eq_some_iff.mp cut
        simp only [Prod.mk.injEq] at joined
        obtain ⟨rfl, rfl⟩ := joined
        obtain ⟨⟨body, fresh, rfl⟩, rfl⟩ := ih tail_cut
        refine ⟨⟨symbol :: body, ?_, rfl⟩, rfl⟩
        rw [List.mem_cons, not_or]
        exact ⟨fun same => different same.symm, fresh⟩

theorem cut_line_none {text : List Symbol} :
    cutLine separator text = none ↔ separator ∉ text := by
  induction text with
  | nil => simp [cutLine]
  | cons symbol text ih =>
      by_cases same : symbol = separator
      · simp [cutLine, same]
      · simp [cutLine, same, ih, Ne.symm same]

/-- What follows the last separator. -/
def unterminated (separator : Symbol) : List Symbol → List Symbol
  | [] => []
  | symbol :: rest =>
      if separator ∈ symbol :: rest then unterminated separator rest else symbol :: rest

theorem unterminated_fresh {text : List Symbol} (fresh : separator ∉ text) :
    unterminated separator text = text := by
  cases text with
  | nil => rfl
  | cons symbol rest => rw [unterminated, if_neg fresh]

theorem unterminated_line {line : List Symbol} (ended : Ended separator line) (rest : List Symbol) :
    unterminated separator (line ++ rest) = unterminated separator rest := by
  obtain ⟨body, -, rfl⟩ := ended
  induction body with
  | nil => simp [unterminated]
  | cons symbol body ih => simpa [unterminated] using ih

/-- A buffer that starts a stream of lines gives its first line, whatever of the stream is
still to come. -/
theorem cut_stream {buffer coming line left : List Symbol} {lines : List (List Symbol)}
    (ended : ∀ item ∈ lines, Ended separator item)
    (stream : buffer ++ coming = lines.flatten)
    (cut : cutLine separator buffer = some (line, left)) :
    ∃ rest, lines = line :: rest ∧ left ++ coming = rest.flatten := by
  obtain ⟨here, rfl⟩ := cut_line_some cut
  cases lines with
  | nil =>
      have nothing := congrArg List.length stream
      obtain ⟨body, -, rfl⟩ := here
      simp at nothing
  | cons first rest =>
      rw [List.flatten_cons, List.append_assoc] at stream
      have first_cut := cut_line_ended (ended first (List.mem_cons_self ..)) rest.flatten
      rw [← stream, cut_line_ended here] at first_cut
      simp only [Option.some.injEq, Prod.mk.injEq] at first_cut
      exact ⟨rest, by rw [first_cut.1], first_cut.2⟩

/-- A buffer without a separator that is all of a stream of lines is empty. -/
theorem uncut_stream {buffer : List Symbol} {lines : List (List Symbol)}
    (ended : ∀ item ∈ lines, Ended separator item) (stream : buffer = lines.flatten)
    (uncut : cutLine separator buffer = none) : buffer = [] := by
  cases lines with
  | nil => exact stream
  | cons first rest =>
      rw [stream, List.flatten_cons, cut_line_ended (ended first (List.mem_cons_self ..))] at uncut
      contradiction

end Lines

/-! ## Words -/

def isSpace (c : Char) : Bool := c.toNat = 32 || (9 ≤ c.toNat && c.toNat ≤ 13)

def Word (word : List Char) : Prop := word ≠ [] ∧ ∀ c ∈ word, isSpace c = false

/-- The words of a text, with the part of the first word that has been read. -/
def fieldsFrom : List Char → List Char → List (List Char)
  | word, [] => if word.isEmpty then [] else [word]
  | word, c :: rest =>
      if isSpace c then
        if word.isEmpty then fieldsFrom [] rest else word :: fieldsFrom [] rest
      else
        fieldsFrom (word ++ [c]) rest

/-- The words of a text between runs of white space. -/
def fields (text : List Char) : List (List Char) := fieldsFrom [] text

/-- A line that holds the words, with single spaces between them. -/
def record : List (List Char) → List Char
  | [] => ['\n']
  | [word] => word ++ ['\n']
  | word :: rest => word ++ ' ' :: record rest

theorem fields_from_word {c : Char} (start word rest : List Char)
    (plain : ∀ c ∈ word, isSpace c = false) (space : isSpace c = true) (some_word : start ++ word ≠ []) :
    fieldsFrom start (word ++ c :: rest) = (start ++ word) :: fieldsFrom [] rest := by
  induction word generalizing start with
  | nil =>
      rw [List.append_nil] at some_word
      simp [fieldsFrom, space, some_word]
  | cons next word ih =>
      have tail := ih (start ++ [next]) (fun c member => plain c (List.mem_cons_of_mem next member))
        (by simp)
      rw [List.append_assoc, List.singleton_append] at tail
      have head := plain next (List.mem_cons_self ..)
      simp only [List.cons_append, fieldsFrom, head, Bool.false_eq_true, if_false]
      exact tail

theorem fields_record (words : List (List Char)) (plain : ∀ word ∈ words, Word word) :
    fields (record words) = words := by
  induction words with
  | nil => decide
  | cons word rest ih =>
      have here := plain word (List.mem_cons_self ..)
      have tail := ih fun other member => plain other (List.mem_cons_of_mem word member)
      cases rest with
      | nil => exact fields_from_word [] word [] here.2 (by decide) here.1
      | cons next rest =>
          have step := fields_from_word [] word (record (next :: rest)) here.2
            (by decide : isSpace ' ' = true) here.1
          exact step.trans (congrArg (word :: ·) tail)

theorem record_ended (words : List (List Char)) (plain : ∀ word ∈ words, Word word) :
    Ended '\n' (record words) := by
  have no_newline : ∀ word, Word word → '\n' ∉ word :=
    fun word here member => absurd (here.2 '\n' member) (by decide)
  induction words with
  | nil => exact ⟨[], by simp, rfl⟩
  | cons word rest ih =>
      have here := no_newline word (plain word (List.mem_cons_self ..))
      obtain ⟨body, fresh, same⟩ := ih fun other member =>
        plain other (List.mem_cons_of_mem word member)
      cases rest with
      | nil => exact ⟨word, here, rfl⟩
      | cons next rest =>
          refine ⟨word ++ ' ' :: body, ?_, ?_⟩
          · rw [List.mem_append, List.mem_cons]
            rintro (inside | space | inside)
            · exact here inside
            · exact absurd space (by decide)
            · exact fresh inside
          · rw [List.append_assoc, List.cons_append, ← same]
            rfl

/-! ## Numbers -/

def decimal (value : Nat) : List Char := Nat.toDigits 10 value

def decimalInt : Int → List Char
  | .ofNat value => decimal value
  | .negSucc value => '-' :: decimal (value + 1)

/-- Digits after the first one, with single underscores allowed between them. -/
def digitsFrom (value : Nat) : List Char → Option Nat
  | [] => some value
  | '_' :: c :: rest =>
      if c.isDigit then digitsFrom (10 * value + (c.toNat - '0'.toNat)) rest else none
  | c :: rest => if c.isDigit then digitsFrom (10 * value + (c.toNat - '0'.toNat)) rest else none

def natural : List Char → Option Nat
  | [] => none
  | c :: rest => if c.isDigit then digitsFrom (c.toNat - '0'.toNat) rest else none

def strip (text : List Char) : List Char :=
  ((text.dropWhile isSpace).reverse.dropWhile isSpace).reverse

/-- An integer with an optional sign, between white space. -/
def integer (text : List Char) : Option Int :=
  match strip text with
  | '-' :: digits => (natural digits).map fun value => -(value : Int)
  | '+' :: digits => (natural digits).map Int.ofNat
  | digits => (natural digits).map Int.ofNat

theorem decimal_digits {value : Nat} {c : Char} (member : c ∈ decimal value) : c.isDigit = true :=
  Nat.isDigit_of_mem_toDigits (by decide) (by decide) member

theorem digit_range {c : Char} (digit : c.isDigit = true) : 48 ≤ c.toNat ∧ c.toNat ≤ 57 := by
  simp only [Char.isDigit, Bool.and_eq_true, decide_eq_true_eq, ge_iff_le] at digit
  exact ⟨digit.1, digit.2⟩

theorem digit_not_space {c : Char} (digit : c.isDigit = true) : isSpace c = false := by
  have range := digit_range digit
  simp only [isSpace, Bool.or_eq_false_iff, Bool.and_eq_false_iff, decide_eq_false_iff_not]
  omega

theorem decimal_word (value : Nat) : Word (decimal value) :=
  ⟨Nat.toDigits_ne_nil, fun _ member => digit_not_space (decimal_digits member)⟩

theorem decimal_int_digits {value : Int} {c : Char} (member : c ∈ decimalInt value) :
    c = '-' ∨ c.isDigit = true := by
  cases value with
  | ofNat value => exact Or.inr (decimal_digits member)
  | negSucc value =>
      cases List.mem_cons.mp member with
      | inl sign => exact Or.inl sign
      | inr digit => exact Or.inr (decimal_digits digit)

theorem decimal_int_nonempty (value : Int) : decimalInt value ≠ [] := by
  cases value with
  | ofNat value => exact (decimal_word value).1
  | negSucc value => simp [decimalInt]

theorem digits_from_plain (value : Nat) (digits : List Char)
    (plain : ∀ c ∈ digits, c.isDigit = true) :
    digitsFrom value digits = some (Nat.ofDigitChars 10 digits value) := by
  induction digits generalizing value with
  | nil => simp [digitsFrom]
  | cons c rest ih =>
      have digit := plain c (List.mem_cons_self ..)
      have not_underscore : c ≠ '_' := by
        rintro rfl
        exact absurd digit (by decide)
      have tail := ih (10 * value + (c.toNat - '0'.toNat)) fun other member =>
        plain other (List.mem_cons_of_mem c member)
      rw [digitsFrom.eq_3 _ _ _ (fun _ _ same _ => not_underscore same), if_pos digit, tail,
        Nat.ofDigitChars_cons]

theorem drop_while_plain {text : List Char} (plain : ∀ c ∈ text, isSpace c = false) :
    text.dropWhile isSpace = text := by
  cases text with
  | nil => rfl
  | cons c rest => simp [plain c (List.mem_cons_self ..)]

theorem strip_plain {text : List Char} (plain : ∀ c ∈ text, isSpace c = false) :
    strip text = text := by
  have backwards : ∀ c ∈ text.reverse, isSpace c = false :=
    fun c member => plain c (List.mem_reverse.mp member)
  rw [strip, drop_while_plain plain, drop_while_plain backwards, List.reverse_reverse]

/-- White space around an integer does not matter. -/
theorem strip_newline {text : List Char} (plain : ∀ c ∈ text, isSpace c = false) :
    strip (text ++ ['\n']) = text := by
  have backwards : ∀ c ∈ text.reverse, isSpace c = false :=
    fun c member => plain c (List.mem_reverse.mp member)
  unfold strip
  cases text with
  | nil => decide
  | cons c rest =>
      have head := plain c (List.mem_cons_self ..)
      rw [List.cons_append, List.dropWhile_cons, if_neg (by simp [head]), ← List.cons_append,
        List.reverse_append, List.reverse_singleton, List.singleton_append, List.dropWhile_cons,
        if_pos (by decide), drop_while_plain backwards, List.reverse_reverse]

theorem natural_plain {digits : List Char} (some_digit : digits ≠ [])
    (plain : ∀ c ∈ digits, c.isDigit = true) :
    natural digits = some (Nat.ofDigitChars 10 digits 0) := by
  cases digits with
  | nil => contradiction
  | cons c rest =>
      have digit := plain c (List.mem_cons_self ..)
      have tail := digits_from_plain (c.toNat - '0'.toNat) rest fun other member =>
        plain other (List.mem_cons_of_mem c member)
      rw [natural, if_pos digit, tail, Nat.ofDigitChars_cons, Nat.mul_zero, Nat.zero_add]

theorem integer_decimal (value : Nat) : integer (decimal value) = some (value : Int) := by
  have plain : ∀ c ∈ decimal value, c.isDigit = true := fun _ member => decimal_digits member
  have read := natural_plain Nat.toDigits_ne_nil plain
  rw [show Nat.ofDigitChars 10 (Nat.toDigits 10 value) 0 = value from
    Nat.ofDigitChars_ten_toDigits] at read
  have unsigned : ∀ sign ∈ ['-', '+'], ∀ digits, decimal value ≠ sign :: digits := by
    intro sign listed digits same
    have digit := plain sign (by rw [same]; simp)
    simp only [List.mem_cons, List.not_mem_nil, or_false] at listed
    rcases listed with rfl | rfl <;> exact absurd digit (by decide)
  unfold integer
  rw [strip_plain (decimal_word value).2]
  split
  · rename_i digits same
    exact absurd same (unsigned '-' (by simp) digits)
  · rename_i digits same
    exact absurd same (unsigned '+' (by simp) digits)
  · exact congrArg (Option.map Int.ofNat) read

end XrdpConsole.Library
