import Mathlib.Data.List.DropRight
import XrdpConsole.Library.LineText

/-!
# Unicode text

What the string methods of Python make of a text with any characters: white space, the words
between it and the text without it at its ends, the part of a text behind the last of some
character, and the lines of a text.
-/

namespace XrdpConsole.Library

set_option autoImplicit false

def isWhiteSpace (c : Char) : Bool :=
  (9 ≤ c.toNat && c.toNat ≤ 13) || (28 ≤ c.toNat && c.toNat ≤ 32) || c.toNat = 0x85 ||
    c.toNat = 0xA0 || c.toNat = 0x1680 || (0x2000 ≤ c.toNat && c.toNat ≤ 0x200A) ||
    c.toNat = 0x2028 || c.toNat = 0x2029 || c.toNat = 0x202F || c.toNat = 0x205F ||
    c.toNat = 0x3000

theorem digit_not_white {c : Char} (digit : c.isDigit = true) : isWhiteSpace c = false := by
  have range := digit_range digit
  simp only [isWhiteSpace, Bool.or_eq_false_iff, Bool.and_eq_false_iff, decide_eq_false_iff_not]
  omega

theorem letter_range {c : Char} (letter : c.isAlpha = true) :
    (65 ≤ c.toNat ∧ c.toNat ≤ 90) ∨ (97 ≤ c.toNat ∧ c.toNat ≤ 122) := by
  delta Char.isAlpha Char.isUpper Char.isLower at letter
  simp only [Bool.or_eq_true, Bool.and_eq_true, decide_eq_true_eq] at letter
  exact letter

theorem letter_not_white {c : Char} (letter : c.isAlpha = true) : isWhiteSpace c = false := by
  have range := letter_range letter
  simp only [isWhiteSpace, Bool.or_eq_false_iff, Bool.and_eq_false_iff, decide_eq_false_iff_not]
  omega

/-! ## Words -/

/-- The words of a text between runs of white space. -/
def words (text : List Char) : List (List Char) :=
  (text.splitOnP isWhiteSpace).filter fun word => !word.isEmpty

theorem words_append {c : Char} (white : isWhiteSpace c = true) (left right : List Char) :
    words (left ++ c :: right) = words left ++ words right := by
  rw [words, List.splitOnP_append_cons left right white, List.filter_append]
  rfl

def PlainWord (word : List Char) : Prop := word ≠ [] ∧ ∀ c ∈ word, isWhiteSpace c = false

theorem plain_word_of_all {word : List Char} (nonempty : word ≠ [])
    (all : word.all (fun c => !isWhiteSpace c) = true) : PlainWord word := by
  refine ⟨nonempty, ?_⟩
  intro c member
  simpa using List.all_eq_true.mp all c member

theorem words_plain {word : List Char} (plain : PlainWord word) : words word = [word] := by
  rw [words, List.splitOnP_eq_singleton plain.2]
  simp [plain.1]

theorem words_nil : words [] = [] := by
  simp [words]

theorem words_black {text : List Char} {c : Char} (member : c ∈ text)
    (black : isWhiteSpace c = false) : words text ≠ [] := by
  induction text with
  | nil => simp at member
  | cons first rest ih =>
      cases white : isWhiteSpace first with
      | true =>
          have found : c ∈ rest := by
            apply List.mem_of_ne_of_mem _ member
            intro same
            rw [same, white] at black
            contradiction
          rw [← List.nil_append (first :: rest), words_append white, words_nil]
          exact ih found
      | false =>
          obtain ⟨front, back, split⟩ :=
            List.exists_cons_of_ne_nil (List.splitOnP_ne_nil isWhiteSpace rest)
          simp [words, List.splitOnP_cons_eq_if_modifyHead, white, split]

theorem words_record (list : List (List Char)) (plain : ∀ word ∈ list, PlainWord word) :
    words (record list) = list := by
  induction list with
  | nil => simpa [record, words_nil] using words_append (by decide : isWhiteSpace '\n' = true) [] []
  | cons word rest ih =>
      have here := plain word (List.mem_cons_self ..)
      have tail := ih fun other member => plain other (List.mem_cons_of_mem word member)
      cases rest with
      | nil => rw [record, words_append (by decide), words_plain here, words_nil, List.append_nil]
      | cons next rest =>
          rw [record, words_append (by decide), words_plain here, tail]
          · rfl
          · simp

theorem record_fresh {mark : Char} (black : isWhiteSpace mark = false) (list : List (List Char))
    (fresh : ∀ word ∈ list, mark ∉ word) : mark ∉ record list := by
  have not_newline : mark ≠ '\n' := by
    intro same
    rw [same] at black
    exact absurd black (by decide)
  have not_blank : mark ≠ ' ' := by
    intro same
    rw [same] at black
    exact absurd black (by decide)
  induction list with
  | nil => simpa [record] using not_newline
  | cons word rest ih =>
      have here := fresh word (List.mem_cons_self ..)
      have tail := ih fun other member => fresh other (List.mem_cons_of_mem word member)
      cases rest with
      | nil => simp [record, here, not_newline]
      | cons next rest => simp [record, here, not_blank, tail]

/-! ## Behind the last of a character -/

/-- The text behind the last `mark`. -/
def afterLast (mark : Char) : List Char → Option (List Char)
  | [] => none
  | c :: rest => (afterLast mark rest).or (if c = mark then some rest else none)

theorem after_last_none {mark : Char} {text : List Char} (fresh : mark ∉ text) :
    afterLast mark text = none := by
  induction text with
  | nil => rfl
  | cons c rest ih =>
      rw [List.mem_cons, not_or] at fresh
      simp [afterLast, ih fresh.2, Ne.symm fresh.1]

theorem after_last_append {mark : Char} (text : List Char) {rest : List Char} (fresh : mark ∉ rest) :
    afterLast mark (text ++ mark :: rest) = some rest := by
  induction text with
  | nil => simp [afterLast, after_last_none fresh]
  | cons c text ih => simp [afterLast, ih]

theorem after_last_split {mark : Char} {text rest : List Char}
    (behind : afterLast mark text = some rest) : ∃ front, text = front ++ mark :: rest := by
  induction text with
  | nil => simp [afterLast] at behind
  | cons c text ih =>
      rw [afterLast] at behind
      cases later : afterLast mark text with
      | some other =>
          rw [later, Option.some_or] at behind
          obtain ⟨front, split⟩ := ih (later.trans behind)
          exact ⟨c :: front, by rw [split, List.cons_append]⟩
      | none =>
          rw [later, Option.none_or, Option.ite_none_right_eq_some, Option.some.injEq] at behind
          exact ⟨[], by rw [behind.1, behind.2, List.nil_append]⟩

theorem after_last_suffix {mark : Char} {rest : List Char} (fresh : mark ∉ rest)
    (text : List Char) : mark :: rest <:+ text ↔ afterLast mark text = some rest := by
  constructor
  · rintro ⟨front, rfl⟩
    exact after_last_append front fresh
  · intro behind
    obtain ⟨front, split⟩ := after_last_split behind
    exact ⟨front, split.symm⟩

/-! ## The ends of a text -/

def stripLeft (text : List Char) : List Char := text.dropWhile isWhiteSpace

def stripBoth (text : List Char) : List Char := (stripLeft text).rdropWhile isWhiteSpace

theorem strip_left_black {c : Char} (black : isWhiteSpace c = false) (rest : List Char) :
    stripLeft (c :: rest) = c :: rest := by
  simp [stripLeft, black]

theorem rdrop_while_head {c : Char} (black : isWhiteSpace c = false) (rest : List Char) :
    ∃ left, (c :: rest).rdropWhile isWhiteSpace = c :: left := by
  induction rest using List.reverseRecOn with
  | nil => exact ⟨[], by simp [List.rdropWhile_singleton, black]⟩
  | append_singleton rest last ih =>
      rw [← List.cons_append]
      cases white : isWhiteSpace last with
      | true => rwa [List.rdropWhile_concat_pos _ _ _ white]
      | false => exact ⟨rest ++ [last], by rw [List.rdropWhile_concat_neg _ _ _ (by simp [white])]; rfl⟩

/-- A text that begins with white space begins behind it. -/
theorem strip_both_head (text : List Char) : (stripBoth text).head? = (stripLeft text).head? := by
  have first := List.head?_dropWhile_not isWhiteSpace text
  unfold stripBoth
  cases left : stripLeft text with
  | nil => simp
  | cons c rest =>
      rw [stripLeft] at left
      rw [left] at first
      have black : isWhiteSpace c = false := by simpa using first
      obtain ⟨shorter, same⟩ := rdrop_while_head black rest
      rw [same]
      rfl

theorem strip_both_plain {word : List Char} (plain : ∀ c ∈ word, isWhiteSpace c = false) :
    stripBoth word = word := by
  have left : stripLeft word = word := by
    cases word with
    | nil => rfl
    | cons c rest => exact strip_left_black (plain c (List.mem_cons_self ..)) rest
  rw [stripBoth, left, List.rdropWhile_eq_self_iff]
  intro nonempty
  simp [plain _ (List.getLast_mem nonempty)]

theorem mem_strip_both {text : List Char} {c : Char} (member : c ∈ text)
    (black : isWhiteSpace c = false) : c ∈ stripBoth text := by
  have left : c ∈ stripLeft text := by
    rw [← List.takeWhile_append_dropWhile (p := isWhiteSpace) (l := text), List.mem_append] at member
    cases member with
    | inl front =>
        rw [List.mem_takeWhile_imp front] at black
        contradiction
    | inr back => exact back
  unfold stripBoth
  generalize stripLeft text = rest at left ⊢
  induction rest using List.reverseRecOn with
  | nil => simp at left
  | append_singleton front last ih =>
      cases white : isWhiteSpace last with
      | true =>
          rw [List.rdropWhile_concat_pos _ _ _ white]
          apply ih
          rw [List.mem_append, List.mem_singleton] at left
          apply left.resolve_right
          intro same
          rw [same, white] at black
          contradiction
      | false => rwa [List.rdropWhile_concat_neg _ _ _ (by simp [white])]

/-! ## Lines -/

def isLineBreak (c : Char) : Bool :=
  (10 ≤ c.toNat && c.toNat ≤ 13) || (28 ≤ c.toNat && c.toNat ≤ 30) || c.toNat = 0x85 ||
    c.toNat = 0x2028 || c.toNat = 0x2029

theorem black_no_break {c : Char} (black : isWhiteSpace c = false) : isLineBreak c = false := by
  simp only [isLineBreak, isWhiteSpace, Bool.or_eq_false_iff, Bool.and_eq_false_iff,
    decide_eq_false_iff_not] at black ⊢
  omega

/-- A carriage return ends a line as a newline does, together with the newline that may follow. -/
def newlinesFrom : Bool → List Char → List Char
  | _, [] => []
  | returned, c :: rest =>
      if c = '\r' then
        '\n' :: newlinesFrom true rest
      else if c = '\n' ∧ returned = true then
        newlinesFrom false rest
      else
        c :: newlinesFrom false rest

def universalNewlines (text : List Char) : List Char := newlinesFrom false text

def splitLines (text : List Char) : List (List Char) :=
  let pieces := (universalNewlines text).splitOnP isLineBreak
  if pieces.getLast? = some [] then pieces.dropLast else pieces

/-- The lines between newlines, with one more newline at the end. -/
def writeLines (lines : List (List Char)) : List Char := ['\n'].intercalate lines ++ ['\n']

def OneLine (line : List Char) : Prop := ∀ c ∈ line, isLineBreak c = false

theorem one_line_of_all {line : List Char} (all : line.all (fun c => !isLineBreak c) = true) :
    OneLine line := by
  intro c member
  simpa using List.all_eq_true.mp all c member

theorem universal_newlines_fresh {text : List Char} (fresh : '\r' ∉ text) :
    universalNewlines text = text := by
  unfold universalNewlines
  induction text with
  | nil => rfl
  | cons c rest ih =>
      rw [List.mem_cons, not_or] at fresh
      simp [newlinesFrom, Ne.symm fresh.1, ih fresh.2]

theorem split_on_one_line (text : List Char) :
    ∀ line ∈ text.splitOnP isLineBreak, OneLine line := by
  induction text with
  | nil => simp [OneLine]
  | cons c rest ih =>
      obtain ⟨first, others, split⟩ :=
        List.exists_cons_of_ne_nil (List.splitOnP_ne_nil isLineBreak rest)
      rw [List.splitOnP_cons_eq_if_modifyHead]
      rw [split] at ih ⊢
      cases ends : isLineBreak c with
      | true => simpa [OneLine] using ih
      | false => simpa [OneLine, ends] using ih

theorem split_lines_one_line (text : List Char) : ∀ line ∈ splitLines text, OneLine line := by
  intro line member
  apply split_on_one_line (universalNewlines text)
  simp only [splitLines] at member
  split at member
  · exact List.dropLast_subset _ member
  · exact member

theorem split_on_intercalate {lines : List (List Char)} (nonempty : lines ≠ [])
    (fresh : ∀ line ∈ lines, OneLine line) :
    (['\n'].intercalate lines).splitOnP isLineBreak = lines := by
  induction lines with
  | nil => contradiction
  | cons line rest ih =>
      have here := fresh line (List.mem_cons_self ..)
      cases rest with
      | nil => simpa using List.splitOnP_eq_singleton here
      | cons next rest =>
          have tail := ih (by simp) fun other member => fresh other (List.mem_cons_of_mem line member)
          rw [List.intercalate_cons_cons, List.append_assoc, List.singleton_append,
            List.splitOnP_append_cons_of_forall_mem here _ (by decide), tail]

theorem intercalate_chars {lines : List (List Char)} {c : Char}
    (member : c ∈ ['\n'].intercalate lines) : c = '\n' ∨ ∃ line ∈ lines, c ∈ line := by
  induction lines with
  | nil => simp at member
  | cons line rest ih =>
      cases rest with
      | nil => exact Or.inr (by simpa using member)
      | cons next rest =>
          rw [List.intercalate_cons_cons, List.append_assoc, List.singleton_append, List.mem_append,
            List.mem_cons] at member
          rcases member with inside | newline | later
          · exact Or.inr ⟨line, List.mem_cons_self .., inside⟩
          · exact Or.inl newline
          · apply (ih later).imp_right
            intro found
            obtain ⟨other, listed, inside⟩ := found
            exact ⟨other, List.mem_cons_of_mem line listed, inside⟩

theorem write_lines_chars {lines : List (List Char)} {c : Char} (member : c ∈ writeLines lines) :
    c = '\n' ∨ ∃ line ∈ lines, c ∈ line := by
  rw [writeLines, List.mem_append, List.mem_singleton] at member
  cases member with
  | inl inside => exact intercalate_chars inside
  | inr newline => exact Or.inl newline

theorem write_lines_no_return {lines : List (List Char)} (fresh : ∀ line ∈ lines, OneLine line) :
    '\r' ∉ writeLines lines := by
  intro member
  cases write_lines_chars member with
  | inl newline => exact absurd newline (by decide)
  | inr inside =>
      obtain ⟨line, listed, found⟩ := inside
      exact absurd (fresh line listed _ found) (by decide)

theorem split_lines_write {lines : List (List Char)} (nonempty : lines ≠ [])
    (fresh : ∀ line ∈ lines, OneLine line) : splitLines (writeLines lines) = lines := by
  have pieces : (writeLines lines).splitOnP isLineBreak = lines ++ [[]] := by
    rw [writeLines, List.splitOnP_append_cons _ _ (by decide), split_on_intercalate nonempty fresh]
    rfl
  rw [splitLines, universal_newlines_fresh (write_lines_no_return fresh), pieces]
  simp

theorem write_lines_ended {lines : List (List Char)} (nonempty : lines ≠ []) :
    lines.flatMap (· ++ ['\n']) = writeLines lines := by
  induction lines with
  | nil => contradiction
  | cons line rest ih =>
      cases rest with
      | nil => simp [writeLines]
      | cons next rest =>
          rw [List.flatMap_cons, ih (by simp), writeLines, writeLines, List.intercalate_cons_cons]
          simp

/-- Lines that each end with a newline are split into what they were. -/
theorem split_lines_ended {lines : List (List Char)} (fresh : ∀ line ∈ lines, OneLine line) :
    splitLines (lines.flatMap (· ++ ['\n'])) = lines := by
  cases lines with
  | nil => rfl
  | cons line rest =>
      rw [write_lines_ended (by simp)]
      exact split_lines_write (by simp) fresh

end XrdpConsole.Library
