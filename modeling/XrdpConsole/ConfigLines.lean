import XrdpConsole.BenchConfig

/-!
# Lines of a configuration

Headers, keys and active assignments of the lines that `rewrite_xrdp_config` goes through, and
what its first pass makes of one line and of all of them.
-/

namespace XrdpConsole.ConfigLines

open XrdpConsole.Library XrdpConsole.BenchConfig

set_option autoImplicit false

abbrev console : Text := "Console".toList

/-! ## Headers and keys -/

theorem commented_head {left right : Text} (same : left.head? = right.head?) :
    commented left = commented right := by
  simp only [commented, same]

theorem header_of_head {line : Text} (other : (stripBoth line).head? ≠ some '[') :
    header line = none := by
  simp [header, other]

/-- A key is the start of its line, white space apart. -/
theorem key_head {line : Text} (some_key : keyName line ≠ []) :
    (keyName line).head? = (stripLeft line).head? := by
  rw [keyName, strip_both_head]
  have nonempty : stripLeft (line.takeWhile (· ≠ '=')) ≠ [] := by
    intro empty
    rw [keyName, stripBoth, empty] at some_key
    exact some_key rfl
  clear some_key
  induction line with
  | nil => rfl
  | cons c rest ih =>
      by_cases equals : c = '='
      · subst equals
        simp [stripLeft] at nonempty
      · have taken : (c :: rest).takeWhile (· ≠ '=') = c :: rest.takeWhile (· ≠ '=') := by
          simp [equals]
        rw [taken] at nonempty ⊢
        cases white : isWhiteSpace c with
        | true =>
            simp only [stripLeft, List.dropWhile_cons_of_pos white] at nonempty ih ⊢
            exact ih nonempty
        | false => rw [strip_left_black white, strip_left_black white]; rfl

/-- Letters, underscores and points: what the names of the managed keys are made of. -/
structure PlainKey (key : Text) : Prop where
  nonempty : key ≠ []
  chars : ∀ c ∈ key, isWhiteSpace c = false ∧ c ∉ ['=', '[', ';', '#']

theorem plain_key_head {key : Text} (plain : PlainKey key) (mark : Char)
    (listed : mark ∈ ['=', '[', ';', '#']) : key.head? ≠ some mark := by
  intro same
  exact (plain.chars mark (List.mem_of_head? same)).2 listed

/-- An assignment whose key is plain is neither a comment nor a header. -/
theorem plain_key_line {line : Text} (plain : PlainKey (keyName line)) :
    header line = none ∧ commented (stripBoth line) = false := by
  have head : (stripBoth line).head? = (keyName line).head? := by
    rw [strip_both_head, key_head plain.nonempty]
  constructor
  · apply header_of_head
    rw [head]
    exact plain_key_head plain '[' (by simp)
  · have semicolon := plain_key_head plain ';' (by simp)
    have hash := plain_key_head plain '#' (by simp)
    rw [← head] at semicolon hash
    simp [commented, semicolon, hash]

theorem key_assignment {key : Text} (plain : PlainKey key) (value : Text) :
    keyName (key ++ '=' :: value) = key := by
  have taken : (key ++ '=' :: value).takeWhile (· ≠ '=') = key := by
    rw [List.takeWhile_append_of_pos]
    · simp
    · intro c member
      have listed := (plain.chars c member).2
      simp only [List.mem_cons, not_or] at listed
      simp [listed.1]
  rw [keyName, taken, strip_both_plain fun c member => (plain.chars c member).1]

theorem active_assignment {key : Text} (plain : PlainKey key) (value : Text) :
    Active (key ++ '=' :: value) := by
  constructor
  · simp
  · apply (plain_key_line _).2
    rwa [key_assignment plain]

theorem bracketed {text : Text} (first : text.head? = some '[') (last : text.getLast? = some ']') :
    text = '[' :: (text.tail.dropLast ++ [']']) := by
  cases text with
  | nil => contradiction
  | cons c rest =>
      rw [List.head?_cons, Option.some.injEq] at first
      subst first
      cases rest using List.reverseRecOn with
      | nil => simp at last
      | append_singleton rest final =>
          rw [← List.cons_append, List.getLast?_concat, Option.some.injEq] at last
          simp [last]

theorem header_console {line : Text} :
    header line = some console ↔ stripBoth line = consoleHeader := by
  simp only [header]
  constructor
  · intro opened
    split at opened
    · rename_i ends
      rw [Option.some.injEq] at opened
      rw [bracketed ends.1 ends.2, opened]
      decide +kernel
    · contradiction
  · intro same
    rw [same]
    decide +kernel

/-! ## Names -/

def managedNames : List String :=
  ["port", "fork", "certificate", "key_file", "autorun", "allow_channels", "max_bpp", "LogFile",
    "EnableSyslog", "drdynvc", "lib", "password", "chansrvport", "channel.cliprdr",
    "channel.drdynvc", "bitmap_compression", "bulk_compression"]

def managedKeys : List Text := managedNames.map String.toList

def plainKeys : List Text :=
  ["enable_dynamic_resizing", "disable_gfx"].map String.toList ++ managedKeys

/-- Whether a key is made of ASCII letters, underscores and points. -/
def plainName (key : Text) : Bool :=
  !key.isEmpty && key.all fun c => c.isAlpha || c = '_' || c = '.'

theorem plain_char {c : Char} (plain : (c.isAlpha || c = '_' || c = '.') = true) :
    (isWhiteSpace c = false ∧ c ∉ ['=', '[', ';', '#']) ∧ c.toNat < 128 := by
  simp only [Bool.or_eq_true, decide_eq_true_eq] at plain
  rcases plain with (letter | rfl) | rfl
  · refine ⟨⟨letter_not_white letter, fun listed => ?_⟩, ?_⟩
    · simp only [List.mem_cons, List.not_mem_nil, or_false] at listed
      rcases listed with rfl | rfl | rfl | rfl
      all_goals exact absurd letter (by decide)
    · have range := letter_range letter
      omega
  · decide
  · decide

theorem plain_names : ∀ key ∈ plainKeys, plainName key = true := by
  decide +kernel

theorem plain_keys : ∀ key ∈ plainKeys, PlainKey key ∧ ∀ c ∈ key, c.toNat < 128 := by
  intro key listed
  have plain := plain_names key listed
  simp only [plainName, Bool.and_eq_true, List.all_eq_true] at plain
  refine ⟨⟨by simpa using plain.1, fun c member => ?_⟩, fun c member => ?_⟩
  · exact (plain_char (plain.2 c member)).1
  · exact (plain_char (plain.2 c member)).2

theorem managed_keys_lowered : ∀ key ∈ managedKeys,
    key.map Char.toLower ≠ "enable_dynamic_resizing".toList ∧
      key.map Char.toLower ≠ "disable_gfx".toList := by
  decide +kernel

variable (arguments : Arguments)

theorem managed_key {entry : Managed} (listed : entry ∈ arguments.replacements) :
    entry.item.2 ∈ managedKeys := by
  have named : ∀ (name key : String) (value : Text), key ∈ managedNames →
      (managed name key value).item.2 ∈ managedKeys :=
    fun _ _ _ member => List.mem_map_of_mem member
  simp only [Arguments.replacements, List.mem_append, List.mem_cons, List.not_mem_nil, or_false,
    Option.mem_toList, Option.map_eq_some_iff] at listed
  rcases listed with ((rfl | rfl | rfl | rfl | rfl | rfl | rfl | rfl | rfl | rfl | rfl | rfl | rfl |
    rfl | rfl | rfl) | ⟨on, -, rfl⟩) | ⟨on, -, rfl⟩
  all_goals exact named _ _ _ (by simp [managedNames])

theorem managed_plain {entry : Managed} (listed : entry ∈ arguments.replacements) :
    PlainKey entry.item.2 := by
  exact (plain_keys entry.item.2 (List.mem_append_right _ (managed_key arguments listed))).1

theorem plain_one_line {text : Text} (plain : ∀ c ∈ text, isWhiteSpace c = false) : OneLine text := by
  intro c member
  have black := plain c member
  simp only [isWhiteSpace, isLineBreak, Bool.or_eq_false_iff, Bool.and_eq_false_iff,
    decide_eq_false_iff_not] at black ⊢
  omega

theorem one_line_append {left right : Text} :
    OneLine (left ++ right) ↔ OneLine left ∧ OneLine right := by
  simp only [OneLine, List.mem_append, or_imp, forall_and]

theorem constants_one_line :
    ∀ text ∈ ["true", "false", "Console", "na", "tcp://", ":", "="].map String.toList, OneLine text := by
  have all : ∀ text ∈ ["true", "false", "Console", "na", "tcp://", ":", "="].map String.toList,
      text.all (fun c => !isLineBreak c) = true := by
    decide +kernel
  exact fun text listed => one_line_of_all (all text listed)

theorem int_one_line (value : Int) : OneLine (decimalInt value) := by
  apply plain_one_line
  intro c member
  cases decimal_int_digits member with
  | inl sign => subst sign; decide
  | inr digit => exact digit_not_white digit

/-- The managed values are a few constants, numbers, the texts among the arguments and the address
that is made of two of them. -/
theorem managed_value {property : Text → Prop} {entry : Managed}
    (listed : entry ∈ arguments.replacements)
    (constants : ∀ name ∈ ["true", "false", "Console", "na"], property name.toList)
    (numbers : ∀ number : Int, property (decimalInt number))
    (texts : ∀ value ∈ arguments.values, property value)
    (address : property
      ("tcp://".toList ++ arguments.bindHost ++ ':' :: decimalInt arguments.port)) :
    property entry.value := by
  have switch : ∀ on : Bool, property (boolText on) := by
    intro on
    cases on
    · exact constants "false" (by simp)
    · exact constants "true" (by simp)
  simp only [Arguments.values, List.forall_mem_cons] at texts
  obtain ⟨logPath, chansrvPath, cert, key_file, consoleLib, host, -⟩ := texts
  simp only [Arguments.replacements, List.mem_append, List.mem_cons, List.not_mem_nil, or_false,
    Option.mem_toList, Option.map_eq_some_iff] at listed
  rcases listed with ((rfl | rfl | rfl | rfl | rfl | rfl | rfl | rfl | rfl | rfl | rfl | rfl | rfl |
    rfl | rfl | rfl) | ⟨on, -, rfl⟩) | ⟨on, -, rfl⟩
  · exact address
  · exact constants "true" (by simp)
  · exact cert
  · exact key_file
  · exact constants "Console" (by simp)
  · exact constants "true" (by simp)
  · exact numbers _
  · exact logPath
  · exact constants "false" (by simp)
  · exact switch _
  · exact consoleLib
  · exact numbers _
  · exact constants "na" (by simp)
  · exact chansrvPath
  · exact constants "true" (by simp)
  · exact switch _
  · exact switch _
  · exact switch _

section Values

variable {arguments} (free : ∀ value ∈ arguments.values, OneLine value)

include free

theorem managed_one_line {entry : Managed} (listed : entry ∈ arguments.replacements) :
    OneLine entry.line := by
  have key : OneLine entry.item.2 :=
    plain_one_line fun c member => ((managed_plain arguments listed).chars c member).1
  have constant : ∀ text ∈ ["true", "false", "Console", "na", "tcp://", ":", "="],
      OneLine text.toList :=
    fun text member => constants_one_line _ (List.mem_map_of_mem member)
  have host : OneLine arguments.bindHost := free _ (by simp [Arguments.values])
  have value : OneLine entry.value := by
    apply managed_value arguments listed
    · intro text member
      exact constant text (List.mem_append_left ["tcp://", ":", "="] member)
    · exact int_one_line
    · exact free
    · rw [← List.singleton_append, one_line_append, one_line_append, one_line_append]
      exact ⟨⟨constant "tcp://" (by simp), host⟩, constant ":" (by simp),
        int_one_line arguments.port⟩
  rw [Managed.line, ← List.singleton_append, one_line_append, one_line_append]
  exact ⟨key, constant "=" (by simp), value⟩

end Values

/-! ## One line -/

theorem replacement_item {item : Item} {entry : Managed}
    (found : arguments.replacement item = some entry) :
    entry ∈ arguments.replacements ∧ entry.item = item :=
  ⟨List.mem_of_find?_eq_some found, by simpa using List.find?_some found⟩

theorem replacement_some {entry : Managed} (listed : entry ∈ arguments.replacements) :
    (arguments.replacement entry.item).isSome = true := by
  rw [Arguments.replacement, List.find?_isSome]
  exact ⟨entry, listed, decide_eq_true rfl⟩

/-- A line of a section with the managed value, if it is an assignment to a managed key. -/
def replaceLine (name line : Text) : Text :=
  if Active line then
    match arguments.replacement (name, keyName line) with
    | some replacement => replacement.line
    | none => line
  else
    line

/-- What the first pass can do with a line. -/
theorem replace_line_cases (name line : Text) :
    (∃ entry ∈ arguments.replacements, Active line ∧ entry.item = (name, keyName line) ∧
      replaceLine arguments name line = entry.line) ∨
    ((Active line → arguments.replacement (name, keyName line) = none) ∧
      replaceLine arguments name line = line) := by
  unfold replaceLine
  by_cases active : Active line
  · cases found : arguments.replacement (name, keyName line) with
    | some entry =>
        obtain ⟨listed, item⟩ := replacement_item arguments found
        exact Or.inl ⟨entry, listed, active, item, by simp [active]⟩
    | none => exact Or.inr ⟨fun _ => rfl, by simp [active]⟩
  · exact Or.inr ⟨fun holds => absurd holds active, by simp [active]⟩

theorem replace_line_key (name line : Text) :
    keyName (replaceLine arguments name line) = keyName line := by
  cases replace_line_cases arguments name line with
  | inl replaced =>
      obtain ⟨entry, listed, -, item, same⟩ := replaced
      rw [same, Managed.line, key_assignment (managed_plain arguments listed), item]
  | inr kept => rw [kept.2]

theorem replace_line_active (name line : Text) :
    Active (replaceLine arguments name line) ↔ Active line := by
  cases replace_line_cases arguments name line with
  | inl replaced =>
      obtain ⟨entry, listed, active, -, same⟩ := replaced
      rw [same, Managed.line]
      exact iff_of_true (active_assignment (managed_plain arguments listed) _) active
  | inr kept => rw [kept.2]

theorem replace_line_header (name line : Text) :
    header (replaceLine arguments name line) = header line := by
  cases replace_line_cases arguments name line with
  | inl replaced =>
      obtain ⟨entry, listed, -, item, same⟩ := replaced
      have plain := managed_plain arguments listed
      have before : header line = none := by
        apply (plain_key_line _).1
        rwa [item] at plain
      rw [same, before]
      apply (plain_key_line _).1
      rwa [Managed.line, key_assignment plain]
  | inr kept => rw [kept.2]

theorem replace_line_again (name line : Text) :
    replaceLine arguments name (replaceLine arguments name line) = replaceLine arguments name line := by
  have key := replace_line_key arguments name line
  have active := replace_line_active arguments name line
  rw [replaceLine, key]
  simp only [active]
  unfold replaceLine
  split
  · split
    · rfl
    · rfl
  · rfl

theorem replace_line_one_line (free : ∀ value ∈ arguments.values, OneLine value) (name : Text)
    {line : Text} (one : OneLine line) :
    OneLine (replaceLine arguments name line) := by
  cases replace_line_cases arguments name line with
  | inl replaced =>
      obtain ⟨entry, listed, -, -, same⟩ := replaced
      rw [same]
      exact managed_one_line free listed
  | inr kept => rwa [kept.2]

/-! ## The first pass -/

/-- The first pass over some lines of an open section. -/
abbrev replaced (name : Text) (lines : List Text) : List Text :=
  editLines header (replaceLine arguments) name lines

/-- A line of a section is an active assignment to the key of the item. -/
def AssignsItem (item : Item) (entry : Text × Text) : Prop :=
  entry.1 = item.1 ∧ Active entry.2 ∧ keyName entry.2 = item.2

def Assigned (lines : List Text) (item : Item) : Prop :=
  ∃ entry ∈ inSections header [] lines, AssignsItem item entry

theorem replace_from_cons (name line : Text) (rest : List Text) :
    (replaceFrom arguments name (line :: rest)).1 =
        replaceLine arguments ((header line).getD name) line ::
          (replaceFrom arguments ((header line).getD name) rest).1 ∧
      ∀ item, (arguments.replacement item).isSome = true →
        (item ∈ (replaceFrom arguments name (line :: rest)).2 ↔
          AssignsItem item ((header line).getD name, line) ∨
            item ∈ (replaceFrom arguments ((header line).getD name) rest).2) := by
  simp only [replaceFrom, replaceLine, AssignsItem]
  by_cases active : Active line
  · cases found : arguments.replacement ((header line).getD name, keyName line) with
    | some entry =>
        simp only [active, if_true, true_and]
        intro item _
        rw [List.mem_cons, Prod.ext_iff, eq_comm, eq_comm (a := item.2)]
    | none =>
        simp only [active, if_true, true_and]
        intro item replaced
        constructor
        · exact Or.inr
        · intro either
          cases either with
          | inl same =>
              have equal : item = ((header line).getD name, keyName line) := Prod.ext same.1.symm same.2.symm
              rw [equal, found] at replaced
              contradiction
          | inr later => exact later
  · simp [active]

theorem replace_from_output (name : Text) (lines : List Text) :
    (replaceFrom arguments name lines).1 = replaced arguments name lines := by
  induction lines generalizing name with
  | nil => rfl
  | cons line rest ih =>
      rw [(replace_from_cons arguments name line rest).1, ih]
      rfl

theorem replace_from_seen (name : Text) (lines : List Text) {item : Item}
    (replaced : (arguments.replacement item).isSome = true) :
    item ∈ (replaceFrom arguments name lines).2 ↔
      ∃ entry ∈ inSections header name lines, AssignsItem item entry := by
  induction lines generalizing name with
  | nil => simp [replaceFrom, inSections]
  | cons line rest ih =>
      rw [(replace_from_cons arguments name line rest).2 item replaced, ih]
      simp [inSections]

end XrdpConsole.ConfigLines
