import Mathlib.Data.List.Nodup
import XrdpConsole.SocketStats

/-!
# Lines of counters

What `ss -tin` writes behind the header of a connection: lines of items in any order, of which
some are the counters that `rdp_socket_values` looks for. Each of these is matched by one of the
patterns, whose word is its name.
-/

namespace XrdpConsole.SocketStats

open XrdpConsole.Library

set_option autoImplicit false

/-! ## Items -/

structure Decimal where
  whole : Nat
  fraction : Text
  digits : fraction.all Char.isDigit = true

variable (number : Decimal)

def Decimal.text : Text :=
  decimal number.whole ++ if number.fraction = [] then [] else '.' :: number.fraction

def Decimal.value : ℚ :=
  number.whole + (Nat.ofDigitChars 10 number.fraction 0 : ℚ) / 10 ^ number.fraction.length

inductive RateUnit where
  | bit
  | kilobit
  | megabit
  | gigabit

def RateUnit.text : RateUnit → Text
  | .bit => []
  | .kilobit => ['K']
  | .megabit => ['M']
  | .gigabit => ['G']

def RateUnit.factor : RateUnit → ℚ
  | .bit => 1
  | .kilobit => 10 ^ 3
  | .megabit => 10 ^ 6
  | .gigabit => 10 ^ 9

/-- The items of a line that are looked for. -/
inductive Info where
  | rtt (mean deviation : Decimal)
  | deliveryRate (rate : Decimal) (unit : RateUnit)
  | bytesSent (count : Nat)
  | bytesReceived (count : Nat)
  | bytesRetrans (count : Nat)
  | retrans (current total : Nat)
  | rcvOoopack (count : Nat)

def Info.name : Info → Text
  | .rtt .. => "rtt".toList
  | .deliveryRate .. => "delivery_rate".toList
  | .bytesSent .. => "bytes_sent".toList
  | .bytesReceived .. => "bytes_received".toList
  | .bytesRetrans .. => "bytes_retrans".toList
  | .retrans .. => "retrans".toList
  | .rcvOoopack .. => "rcv_ooopack".toList

def Info.separator : Info → Char
  | .deliveryRate .. => ' '
  | _ => ':'

def Info.body : Info → Text
  | .rtt mean deviation => mean.text ++ '/' :: deviation.text
  | .deliveryRate rate unit => rate.text ++ (unit.text ++ ['b', 'p', 's'])
  | .retrans current total => decimal current ++ '/' :: decimal total
  | .bytesSent count | .bytesReceived count | .bytesRetrans count | .rcvOoopack count =>
      decimal count

def Info.text (info : Info) : Text := info.name ++ info.separator :: info.body

def Info.values : Info → Record
  | .rtt mean deviation => (Record.set emptyMap .rtt mean.value).set .rttvar deviation.value
  | .deliveryRate rate unit => Record.set emptyMap .delivery (rate.value * unit.factor)
  | .bytesSent count => Record.set emptyMap .sent count
  | .bytesReceived count => Record.set emptyMap .received count
  | .bytesRetrans count => Record.set emptyMap .retransBytes count
  | .retrans _ total => Record.set emptyMap .retransEvents total
  | .rcvOoopack count => Record.set emptyMap .ooo count

def infoNames : List Text :=
  ["rtt".toList, "delivery_rate".toList, "bytes_sent".toList, "bytes_received".toList,
    "bytes_retrans".toList, "retrans".toList, "rcv_ooopack".toList]

variable (reading : Reading)

/-- An item of a line: one that is looked for, or a text in which none of their names is a word,
as in `minrtt:0.2` or `bytes_acked:5`. -/
inductive Item where
  | known (info : Info)
  | other (text : Text) (oneLine : OneLine text)
      (nameless : ∀ name ∈ infoNames, ¬HasWord reading.isWord name text)

variable {reading}

def Item.text : Item reading → Text
  | .known info => info.text
  | .other text _ _ => text

def Item.values : Item reading → Record
  | .known info => info.values
  | .other .. => emptyMap

/-! ## Lines -/

def isBlank (c : Char) : Bool := c = ' ' || c = '\t'

variable (reading) in
structure Spaced where
  gap : Text
  item : Item reading
  nonempty : gap ≠ []
  blank : gap.all isBlank = true

variable (reading) in
/-- Items with blanks in front of each and at the end. -/
structure Line where
  items : List (Spaced reading)
  trailing : Text
  blank : trailing.all isBlank = true

def Spaced.text (spaced : Spaced reading) : Text := spaced.gap ++ spaced.item.text

def Line.text (line : Line reading) : Text := line.items.flatMap Spaced.text ++ line.trailing

/-- The values that a line has. -/
def Line.values (line : Line reading) : Record :=
  fun key => line.items.findSome? fun spaced => spaced.item.values key

/-! ## Numbers -/

theorem ascii_word {c : Char} (ascii : c.toNat < 128) : reading.isWord c = asciiWord c :=
  if_pos ascii

theorem float_numeric {text : Text} (numeric : text.all isNumeric = true) :
    reading.float text = plainFloat text :=
  if_pos numeric

theorem digit_no_point {c : Char} (digit : c.isDigit = true) : c ≠ '.' := by
  rintro rfl
  exact absurd digit (by decide)

theorem decimal_all (value : Nat) : (decimal value).all Char.isDigit = true :=
  List.all_eq_true.mpr fun _ member => decimal_digits member

theorem decimal_value (value : Nat) : Nat.ofDigitChars 10 (decimal value) 0 = value :=
  Nat.ofDigitChars_ten_toDigits

theorem plain_float_digits {whole : Text} (some_digit : whole ≠ [])
    (digits : whole.all Char.isDigit = true) {fraction : Text}
    (behind : fraction.all Char.isDigit = true) :
    plainFloat (whole ++ if fraction = [] then [] else '.' :: fraction) =
      some (decimalValue whole fraction) := by
  have points : ∀ c ∈ whole, decide (c ≠ '.') = true := fun c member =>
    decide_eq_true (digit_no_point (List.all_eq_true.mp digits c member))
  split
  · rename_i none_behind
    have front : whole.takeWhile (· ≠ '.') = whole := List.takeWhile_eq_self_iff.mpr points
    have back : whole.dropWhile (· ≠ '.') = [] := List.dropWhile_eq_nil_iff.mpr points
    rw [List.append_nil, plainFloat, front, back, none_behind]
    simp only [List.tail_nil, List.append_nil]
    exact if_pos ⟨digits, some_digit⟩
  · have front : (whole ++ '.' :: fraction).takeWhile (· ≠ '.') = whole := by
      rw [List.takeWhile_append_of_pos points]
      simp
    have back : (whole ++ '.' :: fraction).dropWhile (· ≠ '.') = '.' :: fraction := by
      rw [List.dropWhile_append_of_pos points]
      simp
    rw [plainFloat, front, back]
    apply if_pos
    simp only [List.tail_cons, List.all_append, digits, behind, Bool.and_self, true_and]
    simp [some_digit]

theorem text_numeric : number.text.all isNumeric = true := by
  rw [List.all_eq_true]
  intro c member
  rw [Decimal.text, List.mem_append] at member
  have digit : c.isDigit = true ∨ c = '.' := by
    rcases member with whole | fraction
    · exact Or.inl (decimal_digits whole)
    · split at fraction
      · simp at fraction
      · cases List.mem_cons.mp fraction with
        | inl point => exact Or.inr point
        | inr inside => exact Or.inl (List.all_eq_true.mp number.digits c inside)
  simpa [isNumeric] using digit

theorem text_some : number.text ≠ [] := by
  intro empty
  rw [Decimal.text, List.append_eq_nil_iff] at empty
  exact Nat.toDigits_ne_nil empty.1

theorem float_text : reading.float number.text = some number.value := by
  have digits : decimal number.whole ≠ [] := (decimal_word number.whole).1
  rw [float_numeric (text_numeric number), Decimal.text,
    plain_float_digits digits (decimal_all number.whole) number.digits,
    decimalValue, decimal_value, Decimal.value]

theorem float_decimal (value : Nat) : reading.float (decimal value) = some (value : ℚ) := by
  have read := @float_text ⟨value, [], rfl⟩ reading
  simpa [Decimal.text, Decimal.value] using read

/-! ## Matches -/

/-- Where an item ends. -/
def ItemEnd (rest : Text) : Prop := ∀ c ∈ rest.head?, isBlank c = true

theorem item_end_apart {rest : Text} (ends : ItemEnd rest) {among : Char → Bool}
    (blanks : among ' ' = false ∧ among '\t' = false) : startsIn among rest = false := by
  cases rest with
  | nil => rfl
  | cons c rest =>
      have blank := ends c rfl
      simp only [isBlank, Bool.or_eq_true, decide_eq_true_eq] at blank
      rcases blank with rfl | rfl
      · exact blanks.1
      · exact blanks.2

/-- The key that an item is searched for with. -/
def Info.key : Info → Key
  | .rtt .. => .rtt
  | .deliveryRate .. => .delivery
  | .bytesSent .. => .sent
  | .bytesReceived .. => .received
  | .bytesRetrans .. => .retransBytes
  | .retrans .. => .retransEvents
  | .rcvOoopack .. => .ooo

def Info.groups : Info → List Text
  | .rtt mean deviation => [mean.text, deviation.text]
  | .deliveryRate rate unit => [rate.text, unit.text]
  | .retrans _ total => [decimal total]
  | .bytesSent count | .bytesReceived count | .bytesRetrans count | .rcvOoopack count =>
      [decimal count]

theorem match_all (rest : Text) : matchParts [] rest = some [] := rfl

theorem match_decimal (captured : Bool) (count : Nat) {rest : Text}
    (ends : startsIn Char.isDigit rest = false) {parts : List (PatternPart Char)}
    {groups : List Text} (tail : matchParts parts rest = some groups) :
    matchParts (.run Char.isDigit captured :: parts) (decimal count ++ rest) =
      some (capture captured (decimal count) groups) :=
  match_run captured (decimal_word count).1 (fun _ member => decimal_digits member) ends tail

theorem match_number {rest : Text} (ends : startsIn isNumeric rest = false)
    {parts : List (PatternPart Char)} {groups : List Text}
    (tail : matchParts parts rest = some groups) :
    matchParts (.run isNumeric true :: parts) (number.text ++ rest) =
      some (number.text :: groups) :=
  match_run true (text_some number) (List.all_eq_true.mp (text_numeric number)) ends tail

theorem match_counter (word : String) (count : Nat) {rest : Text} (ends : ItemEnd rest) :
    matchParts (counterPattern word).parts (':' :: decimal count ++ rest) =
      some [decimal count] := by
  have digits := match_decimal true count (item_end_apart ends (by decide)) (match_all rest)
  exact (match_literal [':'] _ _).trans digits

theorem match_rtt (mean deviation : Decimal) {rest : Text} (ends : ItemEnd rest) :
    matchParts [.literal [':'], .run isNumeric true, .literal ['/'], .run isNumeric true]
      (':' :: (mean.text ++ '/' :: deviation.text) ++ rest) =
        some [mean.text, deviation.text] := by
  have second := match_number deviation (item_end_apart ends (by decide)) (match_all rest)
  have between := (match_literal ['/'] _ _).trans second
  have first := match_number mean (by rfl) between
  have split : ':' :: (mean.text ++ '/' :: deviation.text) ++ rest =
      [':'] ++ (mean.text ++ (['/'] ++ (deviation.text ++ rest))) := by simp
  rw [split, match_literal, first]

theorem match_retrans (current total : Nat) {rest : Text} (ends : ItemEnd rest) :
    matchParts [.literal [':'], .run Char.isDigit false, .literal ['/'], .run Char.isDigit true]
      (':' :: (decimal current ++ '/' :: decimal total) ++ rest) = some [decimal total] := by
  have second := match_decimal true total (item_end_apart ends (by decide)) (match_all rest)
  have between := (match_literal ['/'] _ _).trans second
  have first := match_decimal false current (by rfl) between
  have split : ':' :: (decimal current ++ '/' :: decimal total) ++ rest =
      [':'] ++ (decimal current ++ (['/'] ++ (decimal total ++ rest))) := by simp
  rw [split, match_literal, first]
  rfl

theorem rate_no_blank (rest : Text) :
    startsIn (fun c => c = ' ' || c = ':') (number.text ++ rest) = false := by
  rw [starts_in_append (text_some number)]
  have numeric := List.all_eq_true.mp (text_numeric number)
  generalize number.text = text at numeric ⊢
  cases text with
  | nil => rfl
  | cons c text =>
      have first := numeric c (List.mem_cons_self ..)
      rw [startsIn, List.head?_cons, Option.any_some, Bool.or_eq_false_iff]
      constructor
      · apply decide_eq_false
        rintro rfl
        exact absurd first (by decide)
      · apply decide_eq_false
        rintro rfl
        exact absurd first (by decide)

theorem match_rate (rate : Decimal) (unit : RateUnit) (rest : Text) :
    matchParts [.run (fun c => c = ' ' || c = ':') false, .run isNumeric true,
        .optional (fun c => c = 'K' || c = 'M' || c = 'G') true, .literal ['b', 'p', 's']]
      (' ' :: (rate.text ++ (unit.text ++ ['b', 'p', 's'])) ++ rest) =
        some [rate.text, unit.text] := by
  have suffix := (match_literal ['b', 'p', 's'] rest []).trans (match_all rest)
  have short : unit.text.length ≤ 1 := by cases unit <;> decide
  have letter : ∀ c ∈ unit.text,
      (decide (c = 'K') || decide (c = 'M') || decide (c = 'G')) = true := by
    cases unit <;> simp [RateUnit.text]
  have scaled := match_optional true short letter (by rfl) suffix
  have value := match_number rate (by cases unit <;> rfl) scaled
  have blank := match_run false (List.cons_ne_nil ' ' []) (by simp) (rate_no_blank rate _) value
  have split : ' ' :: (rate.text ++ (unit.text ++ ['b', 'p', 's'])) ++ rest =
      [' '] ++ (rate.text ++ (unit.text ++ (['b', 'p', 's'] ++ rest))) := by simp
  rw [split, blank]
  rfl

/-- An item is matched by the pattern that it is searched for with. -/
theorem info_match (info : Info) : ∃ pattern, patterns.lookup info.key = some pattern ∧
    pattern.word = info.name ∧ ∀ rest, ItemEnd rest →
      matchParts pattern.parts (info.separator :: info.body ++ rest) = some info.groups := by
  cases info with
  | rtt mean deviation => exact ⟨_, rfl, rfl, fun _ ends => match_rtt mean deviation ends⟩
  | deliveryRate rate unit => exact ⟨_, rfl, rfl, fun rest _ => match_rate rate unit rest⟩
  | retrans current total => exact ⟨_, rfl, rfl, fun _ ends => match_retrans current total ends⟩
  | bytesSent count => exact ⟨_, rfl, rfl, fun _ ends => match_counter _ count ends⟩
  | bytesReceived count => exact ⟨_, rfl, rfl, fun _ ends => match_counter _ count ends⟩
  | bytesRetrans count => exact ⟨_, rfl, rfl, fun _ ends => match_counter _ count ends⟩
  | rcvOoopack count => exact ⟨_, rfl, rfl, fun _ ends => match_counter _ count ends⟩

/-! ## Names -/

theorem pattern_names : patterns.map (fun entry => entry.2.word) = infoNames := by
  simp [patterns, infoNames, counterPattern]

theorem names_nodup : infoNames.Nodup := by
  decide +kernel

theorem keys_nodup : (patterns.map Prod.fst).Nodup := by
  decide

theorem names_ascii : infoNames.all (fun name =>
    name.all fun c => c.toNat < 128 && asciiWord c) = true := by
  decide +kernel

/-- A character of an item behind its name. -/
def inBody (c : Char) : Bool :=
  isNumeric c || c = '/' || c = 'K' || c = 'M' || c = 'G' || c = 'b' || c = 'p' || c = 's'

theorem names_no_body : infoNames.all (fun name => name.any fun c => !inBody c) = true := by
  decide +kernel

theorem names_no_separator : infoNames.all (fun name =>
    name.all fun c => c ≠ ':' && c ≠ ' ') = true := by
  decide +kernel

theorem name_listed {entry : Key × Pattern Char} (listed : entry ∈ patterns) :
    entry.2.word ∈ infoNames := by
  rw [← pattern_names]
  exact List.mem_map_of_mem listed

theorem info_listed (info : Info) : ∃ pattern, (info.key, pattern) ∈ patterns ∧
    pattern.word = info.name ∧ ∀ rest, ItemEnd rest →
      matchParts pattern.parts (info.separator :: info.body ++ rest) = some info.groups := by
  obtain ⟨pattern, found, own⟩ := info_match info
  obtain ⟨front, back, split, -⟩ := List.lookup_eq_some_iff.mp found
  exact ⟨pattern, by simp [split], own⟩

theorem info_name_listed (info : Info) : info.name ∈ infoNames := by
  obtain ⟨pattern, listed, name, -⟩ := info_listed info
  rw [← name]
  exact name_listed listed

/-- An item is matched by the pattern that is searched for with its key. -/
theorem info_searched {entry : Key × Pattern Char} (listed : entry ∈ patterns) {info : Info}
    (same : entry.1 = info.key) : entry.2.word = info.name ∧ ∀ rest, ItemEnd rest →
      matchParts entry.2.parts (info.separator :: info.body ++ rest) = some info.groups := by
  obtain ⟨pattern, member, own⟩ := info_listed info
  rwa [List.inj_on_of_nodup_map keys_nodup listed member same]

/-- The pattern that has the name of an item is searched for with its key. -/
theorem name_searched {entry : Key × Pattern Char} (listed : entry ∈ patterns) {info : Info}
    (same : entry.2.word = info.name) : entry.1 = info.key := by
  obtain ⟨pattern, member, name, -⟩ := info_listed info
  have names := names_nodup
  rw [← pattern_names] at names
  rw [List.inj_on_of_nodup_map names listed member (same.trans name.symm)]

theorem decimal_in_body (value : Nat) : (decimal value).all inBody = true := by
  rw [List.all_eq_true]
  intro c member
  simp [inBody, isNumeric, decimal_digits member]

theorem number_in_body : number.text.all inBody = true := by
  rw [List.all_eq_true]
  intro c member
  simp [inBody, List.all_eq_true.mp (text_numeric number) c member]

theorem body_chars (info : Info) : info.body.all inBody = true := by
  cases info with
  | rtt mean deviation =>
      simp [Info.body, number_in_body, inBody]
  | deliveryRate rate unit =>
      cases unit <;> simp [Info.body, RateUnit.text, number_in_body, inBody]
  | retrans current total => simp [Info.body, decimal_in_body, inBody]
  | bytesSent count => exact decimal_in_body count
  | bytesReceived count => exact decimal_in_body count
  | bytesRetrans count => exact decimal_in_body count
  | rcvOoopack count => exact decimal_in_body count

/-! ## Line breaks -/

theorem one_line_append {left right : Text} (front : OneLine left) (back : OneLine right) :
    OneLine (left ++ right) := by
  intro c member
  exact (List.mem_append.mp member).elim (front c) (back c)

theorem names_one_line : infoNames.all (fun name => name.all fun c => !isLineBreak c) = true := by
  decide +kernel

theorem blank_one_line {gap : Text} (blank : gap.all isBlank = true) : OneLine gap := by
  intro c member
  have here := List.all_eq_true.mp blank c member
  simp only [isBlank, Bool.or_eq_true, decide_eq_true_eq] at here
  rcases here with rfl | rfl
  · decide
  · decide

theorem body_one_line (info : Info) : OneLine info.body := by
  intro c member
  have inside := List.all_eq_true.mp (body_chars info) c member
  simp only [inBody, isNumeric, Bool.or_eq_true, decide_eq_true_eq] at inside
  rcases inside with (((((((digit | rfl) | rfl) | rfl) | rfl) | rfl) | rfl) | rfl) | rfl
  · exact black_no_break (digit_not_white digit)
  all_goals decide

theorem item_one_line (item : Item reading) : OneLine item.text := by
  cases item with
  | other text oneLine nameless => exact oneLine
  | known info =>
      have name := one_line_of_all (List.all_eq_true.mp names_one_line _ (info_name_listed info))
      apply one_line_append name
      intro c member
      cases List.mem_cons.mp member with
      | inl separator =>
          rw [separator]
          cases info <;> rfl
      | inr body => exact body_one_line info c body

theorem line_one_line (line : Line reading) : OneLine line.text := by
  apply one_line_append _ (blank_one_line line.blank)
  intro c member
  obtain ⟨spaced, -, inside⟩ := List.mem_flatMap.mp member
  exact one_line_append (blank_one_line spaced.blank) (item_one_line spaced.item) c inside

end XrdpConsole.SocketStats
