import XrdpConsole.SocketLines

/-!
# Scans of a line

A search of a line finds the first counter that it is for, and no other one, although the names
of the counters have words in common; all of them together find the values that the line has.
-/

namespace XrdpConsole.SocketStats

open XrdpConsole.Library

set_option autoImplicit false

variable {reading : Reading}

/-! ## Searches of a line -/

variable (reading) in
theorem name_word {name : Text} (listed : name ∈ infoNames) :
    ∀ c ∈ name, reading.isWord c = true := by
  have ascii := List.all_eq_true.mp names_ascii _ listed
  intro c member
  have plain := List.all_eq_true.mp ascii c member
  simp only [Bool.and_eq_true, decide_eq_true_eq] at plain
  rw [ascii_word plain.1]
  exact plain.2

variable (reading) in
theorem names_bounded {entry : Key × Pattern Char} (listed : entry ∈ patterns) :
    Bounded reading.isWord entry.2 where
  nonempty := by
    have inside := List.all_eq_true.mp names_no_body _ (name_listed listed)
    intro empty
    simp [empty] at inside
  word := name_word reading (name_listed listed)
  closed := by
    intro text starts
    have no_colon : text.head? ≠ some ':' := starts_other starts (ascii_word (by decide))
    have no_blank : startsIn (fun c => c = ' ' || c = ':') text = false := by
      cases text with
      | nil => rfl
      | cons c text =>
          have not_blank := starts_other starts (ascii_word (by decide) : reading.isWord ' ' = _)
          simp only [List.head?_cons, ne_eq, Option.some.injEq] at no_colon not_blank
          simp [startsIn, no_colon, not_blank]
    simp only [patterns, counterPattern, List.mem_cons, List.not_mem_nil, or_false] at listed
    rcases listed with rfl | rfl | rfl | rfl | rfl | rfl | rfl
    all_goals first | exact literal_none no_colon _ _ | exact run_none no_blank _ _

theorem separator_apart {name : Text} (listed : name ∈ infoNames) (info : Info) :
    info.separator ∉ name := by
  have apart := List.all_eq_true.mp names_no_separator _ listed
  intro member
  have here := List.all_eq_true.mp apart _ member
  cases info <;> simp [Info.separator] at here

/-- An item with another name does not have the name that is searched for. -/
theorem info_nameless {entry : Key × Pattern Char} (listed : entry ∈ patterns) {info : Info}
    (other : entry.1 ≠ info.key) : ¬HasWord reading.isWord entry.2.word info.text := by
  have name := name_listed listed
  intro has
  cases has_word_split (separator_apart name info) has with
  | inl front =>
      have whole := has_word_whole (name_word reading (info_name_listed info)) front
      exact other (name_searched listed whole)
  | inr back =>
      obtain ⟨c, member, outside⟩ :=
        List.any_eq_true.mp (List.all_eq_true.mp names_no_body _ name)
      have inside := List.all_eq_true.mp (body_chars info) c (has_word_subset back member)
      simp [inside] at outside

theorem blank_apart {gap : Text} (blank : gap.all isBlank = true) :
    ∀ c ∈ gap, reading.isWord c = false := by
  intro c member
  have here := List.all_eq_true.mp blank c member
  simp only [isBlank, Bool.or_eq_true, decide_eq_true_eq] at here
  rcases here with rfl | rfl
  · exact ascii_word (by decide)
  · exact ascii_word (by decide)

/-- The first item of a line that is searched for with a key. -/
def Item.find (key : Key) : Item reading → Option Info
  | .known info => if key = info.key then some info else none
  | .other .. => none

def Line.find (line : Line reading) (key : Key) : Option Info :=
  line.items.findSome? fun spaced => spaced.item.find key

theorem line_rest_end (items : List (Spaced reading)) {trailing : Text}
    (blank : trailing.all isBlank = true) :
    ItemEnd (items.flatMap Spaced.text ++ trailing) := by
  intro c first
  cases items with
  | nil =>
      rw [List.flatMap_nil, List.nil_append] at first
      exact List.all_eq_true.mp blank c (List.mem_of_mem_head? first)
  | cons spaced items =>
      obtain ⟨gap, item, nonempty, inside⟩ := spaced
      cases gap with
      | nil => contradiction
      | cons blank gap =>
          simp only [List.flatMap_cons, Spaced.text, List.cons_append, List.head?_cons,
            Option.mem_def, Option.some.injEq] at first
          rw [← first]
          exact List.all_eq_true.mp inside blank (List.mem_cons_self ..)

/-- A search of a line finds the first item that it is for. -/
theorem search_line (line : Line reading) {entry : Key × Pattern Char}
    (listed : entry ∈ patterns) :
    search reading.isWord entry.2 line.text = (line.find entry.1).map Info.groups := by
  have bounded := names_bounded reading listed
  obtain ⟨items, trailing, blank⟩ := line
  simp only [Line.text, Line.find]
  induction items with
  | nil =>
      have gap := search_gap bounded (blank_apart blank) []
      rw [List.append_nil] at gap
      exact gap.trans (search_nil bounded)
  | cons spaced items ih =>
      have ends := line_rest_end items blank
      have apart : startsIn reading.isWord (items.flatMap Spaced.text ++ trailing) = false :=
        item_end_apart ends ⟨ascii_word (by decide), ascii_word (by decide)⟩
      rw [List.flatMap_cons, List.append_assoc, Spaced.text, List.append_assoc,
        search_gap bounded (blank_apart spaced.blank), List.findSome?_cons]
      cases item : spaced.item with
      | other text oneLine nameless =>
          have absent := nameless _ (name_listed listed)
          exact (search_pass bounded absent apart).trans ih
      | known info =>
          simp only [Item.find, Item.text]
          by_cases same : entry.1 = info.key
          · obtain ⟨name, behind⟩ := info_searched listed same
            rw [if_pos same, Info.text, ← name, List.append_assoc]
            exact search_here bounded (behind _ ends)
          · rw [if_neg same]
            exact (search_pass bounded (info_nameless listed same) apart).trans ih

/-! ## What a scan finds -/

theorem set_overlay (new old : Record) (key : Key) (value : ℚ) :
    Record.set (overlay new old) key value = overlay (Record.set new key value) old := by
  funext other
  by_cases same : other = key
  · simp [Record.set, overlay, same]
  · simp [Record.set, overlay, same]

theorem store_overlay (key : Key) (groups : List Text) (new old : Record) :
    store reading key groups (overlay new old) = overlay (store reading key groups new) old := by
  fun_cases store reading key groups new with
  | _ => simp_all [store, set_overlay]

theorem store_info (info : Info) : store reading info.key info.groups emptyMap = info.values := by
  cases info with
  | rtt mean deviation => simp [Info.key, Info.groups, Info.values, store, float_text]
  | deliveryRate rate unit =>
      have factor : multiplier unit.text = some unit.factor := by cases unit <;> rfl
      simp [Info.key, Info.groups, Info.values, store, float_text, factor]
  | _ => simp [Info.key, Info.groups, Info.values, store, float_decimal]

theorem scan_pattern_overlay (line : Text) (new old : Record) (entry : Key × Pattern Char) :
    scanPattern reading line (overlay new old) entry =
      overlay (scanPattern reading line new entry) old := by
  cases found : search reading.isWord entry.2 line with
  | none => simp only [scanPattern, found]
  | some groups => simp only [scanPattern, found, store_overlay]

theorem scan_line_last (record : Record) (line : Text) : scanLine reading record line =
    overlay (lastValues (scanPattern reading line emptyMap) patterns) record := by
  apply fold_overlay
  intro entry _ map
  rw [← scan_pattern_overlay, empty_overlay]

/-- What is in a record does not matter for what a line puts over it. -/
theorem scan_line_overlay (record : Record) (line : Text) :
    scanLine reading record line = overlay (scanLine reading emptyMap line) record := by
  rw [scan_line_last record, scan_line_last emptyMap, overlay_empty]

/-- The key of the pattern that finds a value. -/
def Key.searched : Key → Key
  | .rttvar => .rtt
  | key => key

theorem info_values_apart {info : Info} {key : Key} (apart : key.searched ≠ info.key) :
    info.values key = none := by
  cases info <;> cases key <;>
    simp_all [Key.searched, Info.key, Info.values, Record.set, emptyMap]

theorem info_values_own {info : Info} {key : Key} (own : key.searched = info.key) :
    ∃ value, info.values key = some value := by
  cases info <;> cases key <;>
    simp_all [Key.searched, Info.key, Info.values, Record.set]

theorem line_values (line : Line reading) (key : Key) :
    line.values key = (line.find key.searched).bind fun info => info.values key := by
  rw [Line.values, Line.find]
  induction line.items with
  | nil => rfl
  | cons spaced items ih =>
      rw [List.findSome?_cons, List.findSome?_cons]
      cases spaced.item with
      | other => exact ih
      | known info =>
          simp only [Item.values, Item.find]
          by_cases own : key.searched = info.key
          · obtain ⟨value, found⟩ := info_values_own own
            simp [own, found]
          · simp only [info_values_apart own, own, if_false]
            exact ih

theorem find_key {line : Line reading} {key : Key} {info : Info}
    (found : line.find key = some info) : info.key = key := by
  obtain ⟨spaced, -, here⟩ := List.exists_of_findSome?_eq_some found
  cases item : spaced.item with
  | other => simp [item, Item.find] at here
  | known other =>
      simp only [item, Item.find, Option.ite_none_right_eq_some, Option.some.injEq] at here
      rw [← here.2, here.1]

theorem scan_pattern_line (line : Line reading) {entry : Key × Pattern Char}
    (listed : entry ∈ patterns) (key : Key) :
    scanPattern reading line.text emptyMap entry key =
      if key.searched = entry.1 then line.values key else none := by
  rw [scanPattern, search_line line listed, line_values]
  cases found : line.find entry.1 with
  | none =>
      by_cases same : key.searched = entry.1
      · rw [if_pos same, same, found]
        rfl
      · rw [if_neg same]
        rfl
  | some info =>
      have own := find_key found
      have stored : store reading entry.1 info.groups emptyMap = info.values := by
        rw [← own]
        exact store_info info
      simp only [Option.map_some, stored]
      by_cases same : key.searched = entry.1
      · rw [if_pos same, same, found, Option.bind_some]
      · rw [if_neg same]
        exact info_values_apart (own ▸ same)

/-- A scan of a line puts the values that the line has over those of a record. -/
theorem scan_line_values (line : Line reading) (record : Record) :
    scanLine reading record line.text = overlay line.values record := by
  rw [scan_line_last]
  congr 1
  funext key
  apply last_values_agree
  · intro entry listed
    rw [scan_pattern_line line listed]
    split
    · exact Or.inr rfl
    · exact Or.inl rfl
  · intro some_value
    obtain ⟨value, found⟩ := Option.ne_none_iff_exists'.mp some_value
    rw [line_values, Option.bind_eq_some_iff] at found
    obtain ⟨info, own, -⟩ := found
    obtain ⟨pattern, listed, -⟩ := info_listed info
    refine ⟨_, listed, ?_⟩
    rw [scan_pattern_line line listed, if_pos (find_key own).symm]

end XrdpConsole.SocketStats
