import XrdpConsole.Library.ByteText
import XrdpConsole.Library.Occurrences

/-!
# Decoding with replacement

UTF-8 as a decoder reads it that never fails: what begins like a character and does not go on
like one, or stands where no character can begin, gives one replacement character. A text of
ASCII characters occurs in what is decoded where its bytes occur.
-/

namespace XrdpConsole.Library

set_option autoImplicit false

/-! ## The decoder -/

/-- The least of the scalar values that `more + 1` continuation bytes can complete, the first of
them from `low` on. -/
def leastValue (code more low : Nat) : Nat := (code * 64 + (low - 128)) * 64 ^ more

/-- The bound of the scalar values when the first of the continuation bytes is at most `high`. -/
def valueBound (code more high : Nat) : Nat := (code * 64 + (high - 128) + 1) * 64 ^ more

/-- The front of a character: its bits so far, the range of the byte that has to come next and
how many are to follow that one. Every way to go on gives a scalar value that is not ASCII. -/
structure CharFront where
  code : Nat
  more : Nat
  low : Nat
  high : Nat
  continuation : 128 ≤ low
  beyond : 128 ≤ leastValue code more low
  scalar : valueBound code more high ≤ 0xD800 ∨
    (0xE000 ≤ leastValue code more low ∧ valueBound code more high ≤ 0x110000)

/-- The lead bytes and the ranges of what comes behind them. -/
def lead (byte : Nat) : Option CharFront :=
  if two : 0xC2 ≤ byte ∧ byte ≤ 0xDF then
    some ⟨byte - 0xC0, 0, 0x80, 0xBF, by omega, by simp only [leastValue]; omega, by
      left
      simp only [valueBound]
      omega⟩
  else if byte = 0xE0 then
    some ⟨0, 1, 0xA0, 0xBF, by omega, by simp only [leastValue]; omega, by
      left
      simp only [valueBound]
      omega⟩
  else if three : 0xE1 ≤ byte ∧ byte ≤ 0xEC then
    some ⟨byte - 0xE0, 1, 0x80, 0xBF, by omega, by simp only [leastValue]; omega, by
      left
      simp only [valueBound]
      omega⟩
  else if byte = 0xED then
    some ⟨0xD, 1, 0x80, 0x9F, by omega, by simp only [leastValue]; omega, by
      left
      simp only [valueBound]
      omega⟩
  else if late : 0xEE ≤ byte ∧ byte ≤ 0xEF then
    some ⟨byte - 0xE0, 1, 0x80, 0xBF, by omega, by simp only [leastValue]; omega, by
      right
      simp only [leastValue, valueBound]
      omega⟩
  else if byte = 0xF0 then
    some ⟨0, 2, 0x90, 0xBF, by omega, by simp only [leastValue]; omega, by
      right
      simp only [leastValue, valueBound]
      omega⟩
  else if four : 0xF1 ≤ byte ∧ byte ≤ 0xF3 then
    some ⟨byte - 0xF0, 2, 0x80, 0xBF, by omega, by simp only [leastValue]; omega, by
      right
      simp only [leastValue, valueBound]
      omega⟩
  else if byte = 0xF4 then
    some ⟨4, 2, 0x80, 0x8F, by omega, by simp only [leastValue]; omega, by
      right
      simp only [leastValue, valueBound]
      omega⟩
  else none

/-- The bits with those of a further continuation byte. -/
def CharFront.extend (self : CharFront) (byte : Nat) : Nat := self.code * 64 + (byte - 128)

theorem extend_least (self : CharFront) {byte : Nat} (lower : self.low ≤ byte) :
    leastValue self.code self.more self.low ≤ self.extend byte * 64 ^ self.more := by
  have bits : self.code * 64 + (self.low - 128) ≤ self.extend byte :=
    Nat.add_le_add_left (Nat.sub_le_sub_right lower 128) _
  exact Nat.mul_le_mul_right _ bits

theorem extend_bound (self : CharFront) {byte : Nat} (upper : byte ≤ self.high) :
    (self.extend byte + 1) * 64 ^ self.more ≤ valueBound self.code self.more self.high := by
  have bits : self.extend byte + 1 ≤ self.code * 64 + (self.high - 128) + 1 :=
    Nat.succ_le_succ (Nat.add_le_add_left (Nat.sub_le_sub_right upper 128) _)
  exact Nat.mul_le_mul_right _ bits

/-- The front with one byte more. -/
def CharFront.next (self : CharFront) (byte more : Nat) (count : self.more = more + 1)
    (lower : self.low ≤ byte) (upper : byte ≤ self.high) : CharFront where
  code := self.extend byte
  more
  low := 0x80
  high := 0xBF
  continuation := by omega
  beyond := by
    have least := extend_least self lower
    have beyond := self.beyond
    have same : leastValue (self.extend byte) more 128 = self.extend byte * 64 ^ self.more := by
      rw [leastValue, count, Nat.pow_succ', Nat.sub_self, Nat.add_zero, Nat.mul_assoc]
    omega
  scalar := by
    have least := extend_least self lower
    have bound := extend_bound self upper
    have scalar := self.scalar
    have same : leastValue (self.extend byte) more 128 = self.extend byte * 64 ^ self.more := by
      rw [leastValue, count, Nat.pow_succ', Nat.sub_self, Nat.add_zero, Nat.mul_assoc]
    have same_bound : valueBound (self.extend byte) more 191 =
        (self.extend byte + 1) * 64 ^ self.more := by
      have bits : self.extend byte * 64 + (191 - 128) + 1 = (self.extend byte + 1) * 64 := by omega
      rw [valueBound, bits, count, Nat.pow_succ', Nat.mul_assoc]
    omega

/-- The character that the last byte completes. -/
def CharFront.complete (self : CharFront) (byte : Nat) : Char := Char.ofNat (self.extend byte)

def replacement : Char := '\uFFFD'

/-- What a byte adds to the text when it is the first of a character, and the front it begins. -/
def beginCharacter (byte : Nat) : List Char × Option CharFront :=
  if byte < 128 then ([Char.ofNat byte], none)
  else match lead byte with
    | some front => ([], some front)
    | none => ([replacement], none)

def decodeByte (byte : Nat) : Option CharFront → List Char × Option CharFront
  | none => beginCharacter byte
  | some front =>
      if inside : front.low ≤ byte ∧ byte ≤ front.high then
        match count : front.more with
        | 0 => ([front.complete byte], none)
        | more + 1 => ([], some (front.next byte more count inside.1 inside.2))
      else
        let (text, begun) := beginCharacter byte
        (replacement :: text, begun)

def decodeFrom : Option CharFront → List UInt8 → List Char
  | none, [] => []
  | some _, [] => [replacement]
  | front, byte :: rest =>
      let (text, begun) := decodeByte byte.toNat front
      text ++ decodeFrom begun rest

/-- `bytes.decode("utf-8", "replace")`. -/
def decodeReplacing (bytes : List UInt8) : List Char := decodeFrom none bytes

/-! ## ASCII characters -/

def Ascii (c : Char) : Prop := c.toNat < 128

theorem char_number {n : Nat} (valid : n.isValidChar) : (Char.ofNat n).toNat = n := by
  rw [Char.ofNat, dif_pos valid]
  rfl

theorem replacement_high : ¬Ascii replacement := by
  rw [Ascii]
  decide

theorem complete_high {front : CharFront} {byte : Nat} (last : front.more = 0)
    (inside : front.low ≤ byte ∧ byte ≤ front.high) : ¬Ascii (front.complete byte) := by
  have least := extend_least front inside.1
  have bound := extend_bound front inside.2
  have beyond := front.beyond
  have scalar := front.scalar
  rw [last] at least bound beyond scalar
  have valid : (front.extend byte).isValidChar := by
    simp only [Nat.isValidChar]
    omega
  rw [Ascii, CharFront.complete, char_number valid]
  omega

theorem begin_ascii {byte : Nat} (ascii : byte < 128) :
    beginCharacter byte = ([Char.ofNat byte], none) := by
  rw [beginCharacter, if_pos ascii]

theorem begin_high {byte : Nat} (high : 128 ≤ byte) :
    (∀ c ∈ (beginCharacter byte).1, ¬Ascii c) ∧
      ((beginCharacter byte).1 = [] → (beginCharacter byte).2.isSome) := by
  rw [beginCharacter, if_neg (by omega)]
  cases lead byte with
  | none => simp [replacement_high]
  | some front => simp

/-- What is written for a front that is not gone on with. -/
def abandoned : Option CharFront → List Char
  | none => []
  | some _ => [replacement]

/-- An ASCII byte is always decoded as its character. -/
theorem decode_byte_ascii {byte : Nat} (ascii : byte < 128) (front : Option CharFront) :
    decodeByte byte front = (abandoned front ++ [Char.ofNat byte], none) := by
  cases front with
  | none => exact begin_ascii ascii
  | some front =>
      have outside : ¬(front.low ≤ byte ∧ byte ≤ front.high) := by
        have continuation := front.continuation
        omega
      rw [decodeByte, dif_neg outside, begin_ascii ascii]
      rfl

/-- No other byte gives an ASCII character, and one that gives none leaves a front. -/
theorem decode_byte_high {byte : Nat} (high : 128 ≤ byte) (front : Option CharFront) :
    (∀ c ∈ (decodeByte byte front).1, ¬Ascii c) ∧
      ((decodeByte byte front).1 = [] → (decodeByte byte front).2.isSome) := by
  cases front with
  | none => exact begin_high high
  | some front =>
      rw [decodeByte]
      split
      · rename_i inside
        split
        · rename_i last
          simp [complete_high last inside]
        · simp
      · simpa [replacement_high] using (begin_high high).1

theorem decode_from_cons (front : Option CharFront) (byte : UInt8) (rest : List UInt8) :
    decodeFrom front (byte :: rest) =
      (decodeByte byte.toNat front).1 ++ decodeFrom (decodeByte byte.toNat front).2 rest := by
  rw [decodeFrom]

theorem decode_from_ascii {byte : UInt8} (ascii : byte.toNat < 128) (front : Option CharFront)
    (rest : List UInt8) :
    decodeFrom front (byte :: rest) =
      abandoned front ++ Char.ofNat byte.toNat :: decodeReplacing rest := by
  rw [decode_from_cons, decode_byte_ascii ascii, List.append_assoc]
  rfl

/-- Behind a front the text goes on with a character that is not ASCII. -/
theorem decode_from_front (front : CharFront) (bytes : List UInt8) :
    ∃ c text, decodeFrom (some front) bytes = c :: text ∧ ¬Ascii c := by
  induction bytes generalizing front with
  | nil => exact ⟨replacement, [], rfl, replacement_high⟩
  | cons byte rest ih =>
      by_cases ascii : byte.toNat < 128
      · rw [decode_from_ascii ascii]
        exact ⟨replacement, _, rfl, replacement_high⟩
      · obtain ⟨all_high, begun⟩ := decode_byte_high (Nat.le_of_not_lt ascii) (some front)
        rw [decode_from_cons]
        cases written : (decodeByte byte.toNat (some front)).1 with
        | nil =>
            obtain ⟨next, same⟩ := Option.isSome_iff_exists.mp (begun written)
            rw [same, List.nil_append]
            exact ih next
        | cons c text =>
            apply Exists.intro c
            exact ⟨_, rfl, all_high c (by simp [written])⟩

/-! ## Occurrences -/

variable {pattern : List Char}

theorem utf8_ascii {c : Char} (ascii : Ascii c) (pattern : List Char) :
    utf8 (c :: pattern) = UInt8.ofNat c.toNat :: utf8 pattern := by
  rw [utf8_cons, utf8_char_ascii ascii, List.singleton_append]

theorem byte_char_inj {byte : UInt8} {c : Char} (ascii : Ascii c) (small : byte.toNat < 128) :
    c = Char.ofNat byte.toNat ↔ UInt8.ofNat c.toNat = byte := by
  have valid : byte.toNat.isValidChar := Or.inl (by omega)
  rw [← Char.toNat_inj, char_number valid, ← UInt8.toNat_inj, UInt8.toNat_ofNat']
  rw [Ascii] at ascii
  omega

theorem high_byte_head {c : Char} (ascii : Ascii c) {byte : UInt8} (high : 128 ≤ byte.toNat) :
    UInt8.ofNat c.toNat ≠ byte := by
  intro same
  rw [← same, UInt8.toNat_ofNat'] at high
  rw [Ascii] at ascii
  omega

/-- ASCII characters stand at the front of a decoded text when their bytes stand in front. -/
theorem prefix_decode (ascii : ∀ c ∈ pattern, Ascii c) (bytes : List UInt8) :
    pattern <+: decodeReplacing bytes ↔ utf8 pattern <+: bytes := by
  induction pattern generalizing bytes with
  | nil => simp [utf8]
  | cons c pattern ih =>
      have first := ascii c (List.mem_cons_self ..)
      have later := ih fun other member => ascii other (List.mem_cons_of_mem c member)
      rw [utf8_ascii first]
      cases bytes with
      | nil => simp [decodeReplacing, decodeFrom]
      | cons byte rest =>
          rw [List.cons_prefix_cons, decodeReplacing]
          by_cases small : byte.toNat < 128
          · rw [decode_from_ascii small, abandoned, List.nil_append, List.cons_prefix_cons, later,
              byte_char_inj first small]
          · have high := Nat.le_of_not_lt small
            have other := high_byte_head first high
            obtain ⟨all_high, begun⟩ := decode_byte_high high none
            simp only [other, false_and, iff_false]
            rw [decode_from_cons]
            have high_head : ∃ d text, (decodeByte byte.toNat none).1 ++
                decodeFrom (decodeByte byte.toNat none).2 rest = d :: text ∧ ¬Ascii d := by
              cases written : (decodeByte byte.toNat none).1 with
              | nil =>
                  obtain ⟨front, same⟩ := Option.isSome_iff_exists.mp (begun written)
                  rw [same]
                  exact decode_from_front front rest
              | cons d text => exact ⟨d, _, rfl, all_high d (by simp [written])⟩
            obtain ⟨d, text, same, not_ascii⟩ := high_head
            rw [same, List.cons_prefix_cons]
            rintro ⟨rfl, _⟩
            exact not_ascii first

theorem occurrences_high (ascii : ∀ c ∈ pattern, Ascii c) (some_symbol : pattern ≠ [])
    {front : List Char} (high : ∀ c ∈ front, ¬Ascii c) (text : List Char) :
    occurrences pattern (front ++ text) = occurrences pattern text := by
  induction front with
  | nil => rfl
  | cons c front ih =>
      have rest := ih fun other member => high other (List.mem_cons_of_mem c member)
      have missing : ¬pattern <+: c :: (front ++ text) := by
        cases pattern with
        | nil => contradiction
        | cons first pattern =>
            rw [List.cons_prefix_cons]
            rintro ⟨rfl, _⟩
            exact high first (List.mem_cons_self ..) (ascii first (List.mem_cons_self ..))
      rw [List.cons_append, occurrences_cons_neg missing, rest]

theorem abandoned_high (front : Option CharFront) : ∀ c ∈ abandoned front, ¬Ascii c := by
  cases front with
  | none => simp [abandoned]
  | some front => simp [abandoned, replacement_high]

/-- A text of ASCII characters occurs as often in a decoded text as its bytes in the bytes. -/
theorem occurrences_decode (ascii : ∀ c ∈ pattern, Ascii c) (some_symbol : pattern ≠ [])
    (front : Option CharFront) (bytes : List UInt8) :
    occurrences pattern (decodeFrom front bytes) = occurrences (utf8 pattern) bytes := by
  induction bytes generalizing front with
  | nil =>
      cases front with
      | none => rfl
      | some front =>
          have none_found := occurrences_high ascii some_symbol (abandoned_high (some front)) []
          rwa [List.append_nil] at none_found
  | cons byte rest ih =>
      by_cases small : byte.toNat < 128
      · have here := prefix_decode ascii (byte :: rest)
        rw [decodeReplacing, decode_from_ascii small, abandoned, List.nil_append] at here
        rw [decode_from_ascii small, occurrences_high ascii some_symbol (abandoned_high front)]
        by_cases found : utf8 pattern <+: byte :: rest
        · rw [occurrences_cons_pos found, occurrences_cons_pos (here.mpr found), decodeReplacing, ih]
        · have missing := fun occurs => found (here.mp occurs)
          rw [occurrences_cons_neg found, occurrences_cons_neg missing, decodeReplacing, ih]
      · have high := Nat.le_of_not_lt small
        have missing : ¬utf8 pattern <+: byte :: rest := by
          cases pattern with
          | nil => contradiction
          | cons c pattern =>
              have first := ascii c (List.mem_cons_self ..)
              rw [utf8_ascii first, List.cons_prefix_cons]
              rintro ⟨same, _⟩
              exact high_byte_head first high same
        rw [occurrences_cons_neg missing, decode_from_cons,
          occurrences_high ascii some_symbol (decode_byte_high high front).1, ih]

end XrdpConsole.Library
