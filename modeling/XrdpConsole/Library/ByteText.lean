import Mathlib.Data.List.DropRight
import Mathlib.Data.List.TakeWhile

/-!
# Texts as bytes

The bytes that a text is written as, and what the string functions of C make of bytes: the
string in front of a NUL, a string without its blank ends and strings in any case.
-/

namespace XrdpConsole.Library

set_option autoImplicit false

/-! ## UTF-8 -/

def utf8 (text : List Char) : List UInt8 := text.flatMap String.utf8EncodeChar

theorem utf8_append (left right : List Char) : utf8 (left ++ right) = utf8 left ++ utf8 right :=
  List.flatMap_append

theorem utf8_cons (c : Char) (text : List Char) :
    utf8 (c :: text) = String.utf8EncodeChar c ++ utf8 text :=
  List.flatMap_cons

theorem utf8_char_ascii {c : Char} (ascii : c.toNat < 128) :
    String.utf8EncodeChar c = [UInt8.ofNat c.toNat] := by
  have small : c.val.toNat ≤ 0x7f := by
    rw [Char.toNat] at ascii
    omega
  rw [String.utf8EncodeChar, if_pos small]
  rfl

theorem high_byte {n : Nat} (lower : 128 ≤ n) (upper : n < 256) : 128 ≤ (UInt8.ofNat n).toNat := by
  rw [UInt8.toNat_ofNat']
  omega

/-- Every byte of a character that is not ASCII is a high one. -/
theorem utf8_char_high {c : Char} (high : 128 ≤ c.toNat) :
    ∀ byte ∈ String.utf8EncodeChar c, 128 ≤ byte.toNat := by
  have large : ¬c.val.toNat ≤ 0x7f := by
    rw [Char.toNat] at high
    omega
  intro byte member
  simp only [String.utf8EncodeChar, if_neg large] at member
  split at member
  · simp only [List.mem_cons, List.not_mem_nil, or_false] at member
    rcases member with rfl | rfl
    all_goals exact high_byte (by omega) (by omega)
  · split at member
    · simp only [List.mem_cons, List.not_mem_nil, or_false] at member
      rcases member with rfl | rfl | rfl
      all_goals exact high_byte (by omega) (by omega)
    · simp only [List.mem_cons, List.not_mem_nil, or_false] at member
      rcases member with rfl | rfl | rfl | rfl
      all_goals exact high_byte (by omega) (by omega)

/-- A byte below 128 stands for the character of its number. -/
theorem utf8_char_cases {c : Char} {byte : UInt8} (member : byte ∈ String.utf8EncodeChar c) :
    byte.toNat = c.toNat ∨ 128 ≤ byte.toNat := by
  by_cases ascii : c.toNat < 128
  · rw [utf8_char_ascii ascii, List.mem_singleton] at member
    left
    rw [member, UInt8.toNat_ofNat']
    omega
  · exact Or.inr (utf8_char_high (by omega) byte member)

theorem mem_utf8 {text : List Char} {byte : UInt8} (member : byte ∈ utf8 text) :
    (∃ c ∈ text, byte.toNat = c.toNat) ∨ 128 ≤ byte.toNat := by
  obtain ⟨c, listed, inside⟩ := List.mem_flatMap.mp member
  apply (utf8_char_cases inside).imp_left
  intro same
  exact ⟨c, listed, same⟩

/-- An ASCII character that is not in a text is none of its bytes. -/
theorem utf8_fresh {text : List Char} {mark : Char} (ascii : mark.toNat < 128) (fresh : mark ∉ text) :
    UInt8.ofNat mark.toNat ∉ utf8 text := by
  intro member
  have number : (UInt8.ofNat mark.toNat).toNat = mark.toNat := by
    rw [UInt8.toNat_ofNat']
    omega
  cases mem_utf8 member with
  | inl found =>
      obtain ⟨c, listed, same⟩ := found
      rw [number] at same
      rw [Char.toNat_inj.mp same] at fresh
      exact fresh listed
  | inr high => omega

theorem utf8_head {text : List Char} {mark : Char} (ascii : mark.toNat < 128)
    (other : text.head? ≠ some mark) : (utf8 text).head? ≠ some (UInt8.ofNat mark.toNat) := by
  cases text with
  | nil => simp [utf8]
  | cons c rest =>
      rw [List.head?_cons, Ne, Option.some.injEq] at other
      intro same
      have inside : UInt8.ofNat mark.toNat ∈ String.utf8EncodeChar c := by
        rw [utf8_cons, List.head?_append_of_ne_nil _ String.utf8EncodeChar_ne_nil] at same
        exact List.mem_of_head? same
      have fresh : UInt8.ofNat mark.toNat ∉ utf8 [c] := utf8_fresh ascii (by simpa using Ne.symm other)
      simp [utf8, inside] at fresh

/-! ## Strings of C -/

def cString (bytes : List UInt8) : List UInt8 := bytes.takeWhile (· ≠ 0)

theorem c_string_plain {bytes : List UInt8} (fresh : 0 ∉ bytes) : cString bytes = bytes := by
  rw [cString, List.takeWhile_eq_self_iff]
  intro byte member
  simp only [decide_eq_true_eq]
  intro same
  rw [same] at member
  exact fresh member

theorem c_string_fresh (bytes : List UInt8) : 0 ∉ cString bytes := by
  intro member
  have taken := List.mem_takeWhile_imp member
  simp at taken

def isBlank (byte : UInt8) : Bool := byte ≤ 32

def trim (bytes : List UInt8) : List UInt8 := (bytes.dropWhile isBlank).rdropWhile isBlank

theorem trim_plain {bytes : List UInt8} (plain : ∀ byte ∈ bytes, isBlank byte = false) :
    trim bytes = bytes := by
  have left : bytes.dropWhile isBlank = bytes := by
    rw [List.dropWhile_eq_self_iff]
    intro nonempty
    simp [plain _ (List.getElem_mem nonempty)]
  rw [trim, left, List.rdropWhile_eq_self_iff]
  intro nonempty
  simp [plain _ (List.getLast_mem nonempty)]

theorem trim_part (bytes : List UInt8) : trim bytes <:+: bytes :=
  (List.rdropWhile_prefix isBlank _).isInfix.trans (List.dropWhile_suffix isBlank).isInfix

/-- What is left by trimming begins and ends with no blank. -/
theorem trim_trim (bytes : List UInt8) : trim (trim bytes) = trim bytes := by
  have left : (trim bytes).dropWhile isBlank = trim bytes := by
    obtain ⟨behind, whole⟩ := List.rdropWhile_prefix isBlank (bytes.dropWhile isBlank)
    have stopped := List.head?_dropWhile_not isBlank bytes
    rw [← whole, ← trim] at stopped
    cases parts : trim bytes with
    | nil => rfl
    | cons c rest =>
        rw [parts] at stopped
        exact List.dropWhile_cons_of_neg (by simpa using stopped)
  rw [trim, left, trim, List.rdropWhile_idempotent]

/-! ## Any case -/

def lowerByte (byte : UInt8) : UInt8 := if 65 ≤ byte ∧ byte ≤ 90 then byte + 32 else byte

/-- `strcasecmp` of two strings without a NUL is zero. -/
def sameInAnyCase (left right : List UInt8) : Bool := left.map lowerByte = right.map lowerByte

theorem same_length {left right : List UInt8} (same : sameInAnyCase left right = true) :
    left.length = right.length := by
  rw [sameInAnyCase, decide_eq_true_eq] at same
  have lengths := congrArg List.length same
  rwa [List.length_map, List.length_map] at lengths

end XrdpConsole.Library
