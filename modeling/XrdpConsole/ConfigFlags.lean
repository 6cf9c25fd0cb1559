import XrdpConsole.ConfigEdit

/-!
# What the option flags of a benchmark run come to

The last active assignment of a key in the sections of a name, in the source and in the file
that a case is run with. The rewriter matches the managed keys as they are spelled and the
later passes match theirs in any case, and the last pass takes away what the first has put in.
-/

namespace XrdpConsole.ConfigFlags

open XrdpConsole.Library XrdpConsole.BenchConfig XrdpConsole.ConfigLines XrdpConsole.ConfigEdit

set_option autoImplicit false

abbrev channels : Text := "Channels".toList

variable (lowering : Lowering)

/-! ## Assignments of a section -/

/-- The active assignments of the key, in any case, in the sections of the name. -/
def assignmentsFrom (opened name : Text) (key : String) (lines : List Text) : List Text :=
  ((inSections header opened lines).filter fun entry =>
    entry.1 = name && assigns lowering key entry.2).map Prod.snd

def assignments (name : Text) (key : String) (lines : List Text) : List Text :=
  assignmentsFrom lowering [] name key lines

def valueText (line : Text) : Text := stripBoth (line.dropWhile (· ≠ '=')).tail

def lastAssignment (name : Text) (key : String) (lines : List Text) : Option Text :=
  (assignments lowering name key lines).getLast?.map valueText

theorem mem_assignments {opened name : Text} {key : String} {lines : List Text} {line : Text}
    (member : line ∈ assignmentsFrom lowering opened name key lines) :
    assigns lowering key line = true := by
  obtain ⟨entry, listed, rfl⟩ := List.mem_map.mp member
  have both := (List.mem_filter.mp listed).2
  rw [Bool.and_eq_true] at both
  exact both.2

theorem assignments_replaced (arguments : Arguments) (opened name : Text) (key : String)
    (lines : List Text) :
    assignmentsFrom lowering opened name key (replaced arguments opened lines) =
      (assignmentsFrom lowering opened name key lines).map (replaceLine arguments name) := by
  simp only [assignmentsFrom, in_sections_edit (replace_line_header arguments), List.filter_map,
    List.map_map, Function.comp_def, assigns_replaced]
  apply List.map_congr_left
  intro entry member
  have both := (List.mem_filter.mp member).2
  rw [Bool.and_eq_true, decide_eq_true_eq] at both
  rw [both.1]

theorem assignments_plain {body : List Text} (plain : ∀ line ∈ body, header line = none)
    (opened name : Text) (key : String) : assignmentsFrom lowering opened name key body =
      if opened = name then body.filter (assigns lowering key) else [] := by
  rw [assignmentsFrom, in_sections_plain plain, List.filter_map, List.map_map]
  by_cases same : opened = name
  · simp [same, Function.comp_def]
  · simp [same, Function.comp_def]

/-- No section of the name is open or opened. -/
theorem assignments_closed {opened name : Text} {lines : List Text} (closed : opened ≠ name)
    (unopened : ∀ line ∈ lines, header line ≠ some name) (key : String) :
    assignmentsFrom lowering opened name key lines = [] := by
  rw [assignmentsFrom, List.map_eq_nil_iff, List.filter_eq_nil_iff]
  intro entry member both
  rw [Bool.and_eq_true, decide_eq_true_eq] at both
  cases section_opened member with
  | inl same => exact closed (same.symm.trans both.1)
  | inr found =>
      obtain ⟨line, listed, opens⟩ := found
      exact unopened line listed (both.1 ▸ opens)

section Split

variable {before body after : List Text} {head : Text} (found : ConsoleAt before head body after)

include found

theorem head_no_assignment : '=' ∉ head := by
  intro member
  have inside := mem_strip_both member (by decide)
  rw [header_console.mp found.head] at inside
  exact absurd inside (by decide +kernel)

theorem assignments_split (name : Text) (key : String) :
    assignments lowering name key (before ++ head :: (body ++ after)) =
      assignmentsFrom lowering [] name key before ++
        ((if console = name then body.filter (assigns lowering key) else []) ++
          assignmentsFrom lowering console name key after) := by
  have no_head : assigns lowering key head = false := by
    simp [assigns, head_no_assignment found]
  rw [assignments, assignmentsFrom, in_sections_split found, List.filter_append, List.filter_cons,
    no_head, Bool.and_false, if_neg (by simp), List.filter_append, List.map_append, List.map_append,
    ← in_sections_plain found.body, ← assignments_plain lowering found.body]
  rfl

theorem assignments_before (key : String) : assignmentsFrom lowering [] console key before = [] :=
  assignments_closed lowering (by decide +kernel) found.first key

end Split

/-! ## Assignments of the rewritten lines -/

variable {lowering} in
theorem assigns_other {key other : String} (different : key.toList ≠ other.toList) {line : Text}
    (assigned : assigns lowering key line = true) : assigns lowering other line = false := by
  rw [assigns_active, Bool.and_eq_true, decide_eq_true_eq, decide_eq_true_eq] at assigned
  rw [assigns_active, assigned.2]
  simp only [different, decide_false, Bool.and_false]

section Edited

variable (arguments : Arguments) {before body after : List Text} {head : Text}
  (found : ConsoleAt before head body after)

include found

theorem edited_assignments (name : Text) (key : String) :
    assignments lowering name key (editedLines arguments lowering before head body after) =
      (assignmentsFrom lowering [] name key before).map (replaceLine arguments name) ++
        ((if console = name then
          ((body.filter (assigns lowering key)).map (replaceLine arguments name)).filter
              (kept arguments lowering) ++
            (addedLines arguments lowering body).filter (assigns lowering key)
          else []) ++
        (assignmentsFrom lowering console name key after).map (replaceLine arguments name)) := by
  have edited : ConsoleAt (replaced arguments [] before) head (editedBody arguments lowering body)
      (replaced arguments console after) := console_at_edited found
  rw [editedLines, assignments_split lowering edited, assignments_replaced, assignments_replaced]
  by_cases same : console = name
  · subst same
    have assigned : assigns lowering key ∘ replaceLine arguments console = assigns lowering key := by
      funext line
      exact assigns_replaced arguments lowering key console line
    rw [if_pos rfl, if_pos rfl, editedBody, replaced_plain arguments body found.body,
      List.filter_append, List.filter_comm, List.filter_map, assigned]
  · rw [if_neg same, if_neg same]

/-- Keys that the later passes do not look for. -/
theorem edited_assignments_other (name : Text) {key : String}
    (not_gfx : key.toList ≠ "disable_gfx".toList)
    (not_dynamic : key.toList ≠ "enable_dynamic_resizing".toList) :
    assignments lowering name key (editedLines arguments lowering before head body after) =
      (assignments lowering name key (before ++ head :: (body ++ after))).map
        (replaceLine arguments name) := by
  have stay : ((body.filter (assigns lowering key)).map (replaceLine arguments name)).filter
      (kept arguments lowering) = (body.filter (assigns lowering key)).map (replaceLine arguments name) := by
    rw [List.filter_eq_self]
    intro line member
    obtain ⟨old, listed, rfl⟩ := List.mem_map.mp member
    have assigned := (List.mem_filter.mp listed).2
    rw [← assigns_replaced arguments lowering key name] at assigned
    simp [kept, assigns_other not_gfx assigned]
  have none_added : (addedLines arguments lowering body).filter (assigns lowering key) = [] := by
    rw [List.filter_eq_nil_iff]
    intro line member
    rw [added_dynamic arguments lowering member,
      assigns_other not_dynamic.symm (dynamic_assigns lowering)]
    simp
  rw [edited_assignments lowering arguments found, assignments_split lowering found, stay, none_added,
    List.append_nil, List.map_append, List.map_append]
  split
  · rfl
  · rfl

omit found in
theorem dynamic_untouched (name : Text) {line : Text}
    (assigned : assigns lowering "enable_dynamic_resizing" line = true) :
    replaceLine arguments name line = line := by
  cases replace_line_cases arguments name line with
  | inl changed =>
      obtain ⟨entry, listed, -, item, -⟩ := changed
      have inside := managed_key arguments listed
      have ascii := (plain_keys entry.item.2 (List.mem_append_right _ inside)).2
      rw [assigns_active, Bool.and_eq_true, decide_eq_true_eq, decide_eq_true_eq] at assigned
      have lower := assigned.2
      rw [item] at ascii inside
      rw [lowering.ascii _ ascii] at lower
      exact absurd lower (managed_keys_lowered _ inside).1
  | inr same => exact same.2

omit found in
theorem dynamic_unchanged (name : Text) {lines : List Text}
    (assigned : ∀ line ∈ lines, assigns lowering "enable_dynamic_resizing" line = true) :
    lines.map (replaceLine arguments name) = lines :=
  (List.map_congr_left fun line member =>
    dynamic_untouched lowering arguments name (assigned line member)).trans (List.map_id' _)

theorem edited_dynamic : assignments lowering console "enable_dynamic_resizing"
    (editedLines arguments lowering before head body after) =
      body.filter (assigns lowering "enable_dynamic_resizing") ++
        (addedLines arguments lowering body ++
          assignmentsFrom lowering console console "enable_dynamic_resizing" after) := by
  have in_body : ∀ line ∈ body.filter (assigns lowering "enable_dynamic_resizing"),
      assigns lowering "enable_dynamic_resizing" line = true :=
    fun line member => (List.mem_filter.mp member).2
  have stay : (body.filter (assigns lowering "enable_dynamic_resizing")).filter
      (kept arguments lowering) = body.filter (assigns lowering "enable_dynamic_resizing") := by
    rw [List.filter_eq_self]
    intro line member
    exact dynamic_kept arguments lowering (in_body line member)
  have added : (addedLines arguments lowering body).filter
      (assigns lowering "enable_dynamic_resizing") = addedLines arguments lowering body := by
    rw [List.filter_eq_self]
    intro line member
    rw [added_dynamic arguments lowering member]
    exact dynamic_assigns lowering
  rw [edited_assignments lowering arguments found, assignments_before lowering found, if_pos rfl,
    dynamic_unchanged lowering arguments console in_body, stay, added,
    dynamic_unchanged lowering arguments console fun line => mem_assignments lowering]
  simp

theorem source_dynamic : assignments lowering console "enable_dynamic_resizing"
    (before ++ head :: (body ++ after)) =
      body.filter (assigns lowering "enable_dynamic_resizing") ++
        assignmentsFrom lowering console console "enable_dynamic_resizing" after := by
  rw [assignments_split lowering found, assignments_before lowering found, if_pos rfl, List.nil_append]

/-- With the option the line is added where the source has no assignment, and otherwise the
last assignment stays the last. -/
theorem last_dynamic (option : arguments.disableDynamicResizing = true) :
    (assignments lowering console "enable_dynamic_resizing"
      (editedLines arguments lowering before head body after)).getLast? =
        some ((assignments lowering console "enable_dynamic_resizing"
          (before ++ head :: (body ++ after))).getLast?.getD dynamicLine) := by
  rw [edited_dynamic lowering arguments found, source_dynamic lowering found, addedLines, option]
  cases assignmentsFrom lowering console console "enable_dynamic_resizing" after using
      List.reverseRecOn with
  | nil =>
      rw [List.append_nil, List.append_nil]
      cases present : body.any (assigns lowering "enable_dynamic_resizing") with
      | true =>
          obtain ⟨line, member, assigned⟩ := List.any_eq_true.mp present
          have nonempty : body.filter (assigns lowering "enable_dynamic_resizing") ≠ [] :=
            List.ne_nil_of_mem (List.mem_filter.mpr ⟨member, assigned⟩)
          rw [if_neg (by simp), List.append_nil, List.getLast?_eq_some_getLast nonempty]
          rfl
      | false =>
          have empty : body.filter (assigns lowering "enable_dynamic_resizing") = [] := by
            rw [List.filter_eq_nil_iff]
            intro line member assigned
            rw [List.any_eq_false] at present
            exact present line member assigned
          simp [empty]
  | append_singleton front last => simp [← List.append_assoc]

end Edited

/-! ## Without the channel server -/

theorem lowered_bracket {line : Text} (opens : (header line).isSome = true) :
    lowering.lower (keyName line) ∉ chansrvKeys := by
  have bracket : (stripBoth line).head? = some '[' := by
    by_contra other
    rw [header_of_head other] at opens
    contradiction
  have heads : ∀ key ∈ chansrvKeys, key.head? = some 'c' := by decide +kernel
  intro listed
  have first := heads _ listed
  cases key : keyName line with
  | nil =>
      rw [key, lowering.ascii [] (by simp)] at first
      simp at first
  | cons c rest =>
      have same : (keyName line).head? = (stripLeft line).head? := key_head (by simp [key])
      rw [← strip_both_head, bracket, key, List.head?_cons, Option.some.injEq] at same
      rw [key, same, lowering.ascii_head '[' rest (by decide)] at first
      exact absurd first (by decide)

theorem removed_header {name line : Text} (gone : removed lowering name line = true) :
    header line = none := by
  simp only [removed, Bool.and_eq_true, decide_eq_true_eq] at gone
  by_contra opens
  exact lowered_bracket lowering (Option.isSome_iff_ne_none.mpr opens) gone.2

theorem in_sections_keep (name : Text) (lines : List Text) :
    inSections header name (keepFrom lowering name lines) =
      (inSections header name lines).filter fun entry => !removed lowering entry.1 entry.2 := by
  induction lines generalizing name with
  | nil => rfl
  | cons line rest ih =>
      simp only [keepFrom, inSections]
      cases gone : removed lowering ((header line).getD name) line with
      | true =>
          have plain := removed_header lowering gone
          rw [plain, Option.getD_none] at gone ⊢
          simp [gone, ih]
      | false => simp [gone, inSections, ih]

theorem keep_from_lines (lines : List Text) : keepFrom lowering [] lines =
    ((inSections header [] lines).filter fun entry =>
      !removed lowering entry.1 entry.2).map Prod.snd := by
  rw [← in_sections_keep, in_sections_lines]

theorem removed_assigns {name : Text} {key : String} {line : Text}
    (assigned : assigns lowering key line = true) :
    removed lowering name line = decide (name = console ∧ key.toList ∈ chansrvKeys) := by
  rw [assigns, Bool.and_eq_true, Bool.and_eq_true, decide_eq_true_eq, decide_eq_true_eq] at assigned
  rw [removed, assigned.1.2, Bool.eq_iff_iff]
  simp only [assigned.1.1, Bool.and_eq_true, decide_eq_true_eq, and_true]

theorem assignments_keep (name : Text) (key : String) (lines : List Text) :
    assignments lowering name key (keepFrom lowering [] lines) =
      if name = console ∧ key.toList ∈ chansrvKeys then [] else assignments lowering name key lines := by
  have each : ∀ entry ∈ inSections header [] lines,
      ((decide (entry.1 = name) && assigns lowering key entry.2) && !removed lowering entry.1 entry.2) =
        ((decide (entry.1 = name) && assigns lowering key entry.2) &&
          !decide (name = console ∧ key.toList ∈ chansrvKeys)) := by
    intro entry _
    by_cases same : entry.1 = name
    · cases assigned : assigns lowering key entry.2 with
      | true => rw [removed_assigns lowering assigned, same]
      | false => simp
    · simp [same]
  rw [assignments, assignmentsFrom, in_sections_keep, List.filter_filter, List.filter_congr each]
  split
  · rename_i chansrv
    simp [chansrv]
  · rename_i other
    simp only [other, decide_false, Bool.not_false, Bool.and_true]
    rfl

/-! ## A case -/

/-- How the reader of the file takes the text of a switch. -/
structure SwitchReading where
  isOn : Text → Bool
  false_off : isOn "false".toList = false

inductive Flag where
  | disableGfx
  | enableGfx
  | disableDynamic
  | noChansrv
  deriving DecidableEq

variable (arguments : Arguments) (noChansrv : Bool)

def Flag.given : Flag → Bool
  | .disableGfx => arguments.disableGfxForVnc
  | .enableGfx => arguments.enableGfxForVnc
  | .disableDynamic => arguments.disableDynamicResizing
  | .noChansrv => noChansrv

/-- The keys that a flag sets or takes away, with their sections. -/
def Flag.settings : Flag → List (Text × String)
  | .disableGfx | .enableGfx =>
      [(channels, "drdynvc"), (console, "channel.drdynvc"), (console, "disable_gfx")]
  | .disableDynamic => [(console, "enable_dynamic_resizing")]
  | .noChansrv => [(console, "chansrvport"), (console, "channel.cliprdr")]

/-- The arguments of a run with one flag only. -/
def Flag.alone (flag : Flag) : Arguments :=
  { arguments with
    disableGfxForVnc := flag = .disableGfx
    enableGfxForVnc := flag = .enableGfx
    disableDynamicResizing := flag = .disableDynamic }

variable (reading : SwitchReading)

def Off (lines : List Text) (name : Text) (key : String) : Prop :=
  ∃ value, lastAssignment lowering name key lines = some value ∧ reading.isOn value = false

/-- What the flags are to come to in the lines of the file. -/
structure Effective (source : Text) (lines : List Text) : Prop where
  dynamic : arguments.disableDynamicResizing = true →
    Off lowering reading lines console "enable_dynamic_resizing"
  graphics : arguments.disableGfxForVnc = true →
    Off lowering reading lines channels "drdynvc" ∧
      Off lowering reading lines console "channel.drdynvc"
  chansrv : noChansrv = true → lastAssignment lowering console "chansrvport" lines = none ∧
    lastAssignment lowering console "channel.cliprdr" lines = none
  together : ∀ flag : Flag, flag.given arguments noChansrv = true → ∀ setting ∈ flag.settings,
    ∃ file, caseConfig lowering (flag.alone arguments) (decide (flag = .noChansrv)) source none =
        (.ok (), some file) ∧
      lastAssignment lowering setting.1 setting.2 (readLines file.text) =
        lastAssignment lowering setting.1 setting.2 lines

/-- The last assignment of the source is spelled as the managed key is, or it is off anyway. -/
def ReplacedOrOff (lines : List Text) (name : Text) (key : String) : Prop :=
  ∀ line, (assignments lowering name key lines).getLast? = some line →
    keyName line = key.toList ∨ reading.isOn (valueText line) = false

/-- What the source and the flags have to be like for the flags to be effective. -/
structure FlagsHold (lines : List Text) : Prop where
  dynamic : arguments.disableDynamicResizing = true →
    ∀ line, (assignments lowering console "enable_dynamic_resizing" lines).getLast? = some line →
      reading.isOn (valueText line) = false
  graphics : arguments.disableGfxForVnc = true →
    ReplacedOrOff lowering reading lines channels "drdynvc" ∧
      ReplacedOrOff lowering reading lines console "channel.drdynvc"
  chansrv : noChansrv = true → arguments.disableGfxForVnc = false ∧ arguments.enableGfxForVnc = false

/-! ## The lines of a case -/

def caseLines (before : List Text) (head : Text) (body after : List Text) : List Text :=
  if noChansrv then
    keepFrom lowering [] (editedLines arguments lowering before head body after)
  else
    editedLines arguments lowering before head body after

section Case

variable {source : Text} {before body after : List Text} {head : Text}
  (split : readLines source = before ++ head :: (body ++ after))
  (found : ConsoleAt before head body after)

include split found

theorem case_written (free : ∀ value ∈ arguments.values, OneLine value) (target : Option File)
    (options : ¬(arguments.disableGfxForVnc = true ∧ arguments.enableGfxForVnc = true))
    (assigned : ∀ entry ∈ arguments.replacements, Assigned (readLines source) entry.item) :
    ∃ file, caseConfig lowering arguments noChansrv source target = (.ok (), some file) ∧
      readLines file.text = caseLines lowering arguments noChansrv before head body after := by
  have reread := edited_read arguments lowering split free
  rw [caseConfig, rewrite_written arguments lowering split found target options assigned]
  cases noChansrv with
  | false => exact ⟨_, rfl, reread⟩
  | true =>
      have one := edited_one_line arguments lowering free (split ▸ read_lines_one_line source)
      have kept_one : ∀ line ∈ keepFrom lowering []
          (editedLines arguments lowering before head body after), OneLine line := by
        rw [keep_from_lines]
        intro line member
        obtain ⟨entry, listed, rfl⟩ := List.mem_map.mp member
        exact one entry.2 (mem_in_sections (List.mem_of_mem_filter listed))
      have head_kept : head ∈ keepFrom lowering []
          (editedLines arguments lowering before head body after) := by
        have stays : removed lowering console head = false := by
          by_contra gone
          rw [Bool.not_eq_false] at gone
          have opened := found.head
          rw [removed_header lowering gone] at opened
          contradiction
        rw [keep_from_lines, editedLines, in_sections_split (console_at_edited found)]
        apply List.mem_map.mpr
        exact ⟨(console, head), by simp [stays], rfl⟩
      refine ⟨_, rfl, ?_⟩
      rw [removeChansrvFromConfig, reread]
      exact read_lines_write (List.ne_nil_of_mem head_kept) kept_one

omit split found

theorem case_assignments (name : Text) (key : String) :
    assignments lowering name key (caseLines lowering arguments noChansrv before head body after) =
      if noChansrv = true ∧ name = console ∧ key.toList ∈ chansrvKeys then
        []
      else
        assignments lowering name key (editedLines arguments lowering before head body after) := by
  cases noChansrv with
  | false => simp [caseLines]
  | true => simp only [caseLines, if_true, assignments_keep, true_and]

end Case

/-! ## The graphics keys -/

theorem gfx_value {entry : Managed} (listed : entry ∈ arguments.replacements)
    (key : entry.item.2 = "drdynvc".toList ∨ entry.item.2 = "channel.drdynvc".toList) :
    entry.value = boolText !arguments.disableGfxForVnc := by
  simp only [Arguments.replacements, List.mem_append, List.mem_cons, List.not_mem_nil, or_false,
    Option.mem_toList, Option.map_eq_some_iff] at listed
  rcases listed with ((rfl | rfl | rfl | rfl | rfl | rfl | rfl | rfl | rfl | rfl | rfl | rfl | rfl |
    rfl | rfl | rfl) | ⟨on, -, rfl⟩) | ⟨on, -, rfl⟩
  all_goals first
    | rfl
    | simp only [managed, String.toList_inj, String.reduceEq, or_self] at key

theorem gfx_keys_lowered : ∀ key ∈ managedKeys,
    (key.map Char.toLower = "drdynvc".toList → key = "drdynvc".toList) ∧
      (key.map Char.toLower = "channel.drdynvc".toList → key = "channel.drdynvc".toList) := by
  decide +kernel

/-- A graphics key of a section. -/
inductive GfxKey : Text → String → Prop where
  | channels : GfxKey channels "drdynvc"
  | console : GfxKey console "channel.drdynvc"

theorem value_assignment {key : Text} (plain : PlainKey key) (value : Text) :
    valueText (key ++ '=' :: value) = stripBoth value := by
  have behind : (key ++ '=' :: value).dropWhile (· ≠ '=') = '=' :: value := by
    rw [List.dropWhile_append_of_pos]
    · simp
    · intro c member
      have listed := (plain.chars c member).2
      simp only [List.mem_cons, not_or] at listed
      simp [listed.1]
  rw [valueText, behind]
  rfl

theorem bool_text_plain (value : Bool) : ∀ c ∈ boolText value, isWhiteSpace c = false := by
  have all : (boolText value).all (fun c => !isWhiteSpace c) = true := by
    revert value
    decide +kernel
  intro c member
  simpa using List.all_eq_true.mp all c member

section Gfx

variable {name : Text} {key : String} (gfx : GfxKey name key)

include gfx

theorem gfx_listed : ∃ entry ∈ arguments.replacements, entry.item = (name, key.toList) := by
  cases gfx with
  | channels =>
      refine ⟨managed "Channels" "drdynvc" (boolText !arguments.disableGfxForVnc), ?_, rfl⟩
      simp only [Arguments.replacements, List.mem_append, List.mem_cons, true_or, or_true]
  | console =>
      refine ⟨managed "Console" "channel.drdynvc" (boolText !arguments.disableGfxForVnc), ?_, rfl⟩
      simp only [Arguments.replacements, List.mem_append, List.mem_cons, true_or, or_true]

theorem gfx_lowered {other : Text} (listed : other ∈ managedKeys)
    (same : lowering.lower other = key.toList) : other = key.toList := by
  have ascii := (plain_keys other (List.mem_append_right _ listed)).2
  rw [lowering.ascii other ascii] at same
  have lowered := gfx_keys_lowered other listed
  cases gfx with
  | channels => exact lowered.1 same
  | console => exact lowered.2 same

/-- An assignment that is spelled as the managed key is replaced, another is left. -/
theorem gfx_replaced {line : Text} (assigned : assigns lowering key line = true) :
    (keyName line = key.toList ∧
      valueText (replaceLine arguments name line) = boolText !arguments.disableGfxForVnc) ∨
    (keyName line ≠ key.toList ∧ replaceLine arguments name line = line) := by
  rw [assigns_active, Bool.and_eq_true, decide_eq_true_eq, decide_eq_true_eq] at assigned
  cases replace_line_cases arguments name line with
  | inl changed =>
      obtain ⟨entry, listed, -, item, same⟩ := changed
      have inside := managed_key arguments listed
      rw [item] at inside
      have spelled : keyName line = key.toList := gfx_lowered lowering gfx inside assigned.2
      have value : entry.value = boolText !arguments.disableGfxForVnc := by
        apply gfx_value arguments listed
        rw [item]
        cases gfx with
        | channels => exact Or.inl spelled
        | console => exact Or.inr spelled
      rw [same, Managed.line, value_assignment (managed_plain arguments listed), value,
        strip_both_plain (bool_text_plain _)]
      exact Or.inl ⟨spelled, rfl⟩
  | inr kept =>
      refine Or.inr ⟨fun spelled => ?_, kept.2⟩
      obtain ⟨entry, listed, item⟩ := gfx_listed arguments gfx
      have some_entry := replacement_some arguments listed
      rw [item, ← spelled, kept.1 assigned.1] at some_entry
      contradiction

theorem gfx_assigned {lines : List Text}
    (assigned : ∀ entry ∈ arguments.replacements, Assigned lines entry.item) :
    assignments lowering name key lines ≠ [] := by
  obtain ⟨entry, listed, item⟩ := gfx_listed arguments gfx
  obtain ⟨line, member, assigns⟩ := assigned entry listed
  rw [item] at assigns
  have inside := managed_key arguments listed
  have ascii := (plain_keys entry.item.2 (List.mem_append_right _ inside)).2
  have same : lowering.lower key.toList = key.toList := by
    rw [item] at ascii
    rw [lowering.ascii _ ascii]
    cases gfx with
    | channels => decide +kernel
    | console => decide +kernel
  have found : line.2 ∈ assignments lowering name key lines := by
    apply List.mem_map_of_mem
    apply List.mem_filter.mpr
    refine ⟨member, ?_⟩
    rw [assigns_active, assigns.2.2, same]
    simp [assigns.1, assigns.2.1]
  exact List.ne_nil_of_mem found

theorem gfx_edited {before body after : List Text} {head : Text}
    (found : ConsoleAt before head body after) :
    assignments lowering name key (editedLines arguments lowering before head body after) =
      (assignments lowering name key (before ++ head :: (body ++ after))).map
        (replaceLine arguments name) := by
  cases gfx with
  | channels =>
      exact edited_assignments_other lowering arguments found _ (by decide +kernel) (by decide +kernel)
  | console =>
      exact edited_assignments_other lowering arguments found _ (by decide +kernel) (by decide +kernel)

end Gfx

/-! ## One flag alone -/

theorem alone_assigned (flag : Flag) {lines : List Text}
    (assigned : ∀ entry ∈ arguments.replacements, Assigned lines entry.item) :
    ∀ entry ∈ (flag.alone arguments).replacements, Assigned lines entry.item := by
  intro entry listed
  have item : entry.item ∈ (flag.alone arguments).replacements.map Managed.item :=
    List.mem_map_of_mem listed
  have items : (flag.alone arguments).replacements.map Managed.item =
      arguments.replacements.map Managed.item := rfl
  rw [items] at item
  obtain ⟨other, member, same⟩ := List.mem_map.mp item
  rw [← same]
  exact assigned other member

theorem alone_options (flag : Flag) : ¬((flag.alone arguments).disableGfxForVnc = true ∧
    (flag.alone arguments).enableGfxForVnc = true) := by
  cases flag <;> simp [Flag.alone]

theorem alone_replacements {flag : Flag}
    (same : decide (flag = .disableGfx) = arguments.disableGfxForVnc) :
    (flag.alone arguments).replacements = arguments.replacements := by
  simp only [Arguments.replacements, Flag.alone, same]

section Alone

variable {before body after : List Text} {head : Text} (found : ConsoleAt before head body after)

include found

/-- Apart from the added line only the managed values and the graphics options matter. -/
theorem edited_same {other : Arguments} (values : other.replacements = arguments.replacements)
    (option : (other.enableGfxForVnc || other.disableGfxForVnc) =
      (arguments.enableGfxForVnc || arguments.disableGfxForVnc))
    (name : Text) {key : String} (not_dynamic : key.toList ≠ "enable_dynamic_resizing".toList) :
    assignments lowering name key (editedLines other lowering before head body after) =
      assignments lowering name key (editedLines arguments lowering before head body after) := by
  have lines : replaceLine other = replaceLine arguments := by
    funext opened line
    simp only [replaceLine, Arguments.replacement, values]
  have stays : kept other lowering = kept arguments lowering := by
    funext line
    simp only [kept, option]
  have none_added : ∀ options : Arguments,
      (addedLines options lowering body).filter (assigns lowering key) = [] := by
    intro options
    rw [List.filter_eq_nil_iff]
    intro line member
    rw [added_dynamic options lowering member,
      assigns_other not_dynamic.symm (dynamic_assigns lowering)]
    simp
  rw [edited_assignments lowering other found, edited_assignments lowering arguments found, lines,
    stays, none_added, none_added]

theorem edited_dynamic_same {other : Arguments}
    (option : other.disableDynamicResizing = arguments.disableDynamicResizing) :
    assignments lowering console "enable_dynamic_resizing"
        (editedLines other lowering before head body after) =
      assignments lowering console "enable_dynamic_resizing"
        (editedLines arguments lowering before head body after) := by
  rw [edited_dynamic lowering other found, edited_dynamic lowering arguments found, addedLines,
    addedLines, option]

end Alone

theorem not_chansrv_keys : "drdynvc".toList ∉ chansrvKeys ∧
    "enable_dynamic_resizing".toList ∉ chansrvKeys ∧ "disable_gfx".toList ∉ chansrvKeys := by
  decide +kernel

theorem chansrv_keys : "channel.drdynvc".toList ∈ chansrvKeys ∧ "chansrvport".toList ∈ chansrvKeys ∧
    "channel.cliprdr".toList ∈ chansrvKeys := by
  decide +kernel

theorem no_console_gfx {before body after : List Text} {head : Text} (removes : noChansrv = true) :
    lastAssignment lowering console "channel.drdynvc"
      (caseLines lowering arguments noChansrv before head body after) = none := by
  rw [lastAssignment, case_assignments, if_pos ⟨removes, rfl, chansrv_keys.1⟩]
  rfl

section Effect

variable {arguments noChansrv reading} {source : Text} {before body after : List Text} {head : Text}
  (split : readLines source = before ++ head :: (body ++ after))
  (found : ConsoleAt before head body after)

include split found

theorem alone_written (flag : Flag) (free : ∀ value ∈ arguments.values, OneLine value)
    (assigned : ∀ entry ∈ arguments.replacements, Assigned (readLines source) entry.item) :
    ∃ file, caseConfig lowering (flag.alone arguments) (decide (flag = .noChansrv)) source none =
        (.ok (), some file) ∧
      readLines file.text = caseLines lowering (flag.alone arguments) (decide (flag = .noChansrv))
        before head body after :=
  case_written lowering (flag.alone arguments) _ split found free none (alone_options arguments flag)
    (alone_assigned arguments flag assigned)

theorem last_gfx {name : Text} {key : String} (gfx : GfxKey name key)
    (present : noChansrv = true → name ≠ console) :
    (assignments lowering name key
      (caseLines lowering arguments noChansrv before head body after)).getLast? =
        (assignments lowering name key (readLines source)).getLast?.map
          (replaceLine arguments name) := by
  have stays : ¬(noChansrv = true ∧ name = console ∧ key.toList ∈ chansrvKeys) :=
    fun gone => present gone.1 gone.2.1
  rw [case_assignments, if_neg stays, gfx_edited lowering arguments gfx found, ← split,
    List.getLast?_map]

theorem replaced_or_off {name : Text} {key : String} (gfx : GfxKey name key)
    (present : noChansrv = true → name ≠ console)
    (off : Off lowering reading (caseLines lowering arguments noChansrv before head body after)
      name key) : ReplacedOrOff lowering reading (readLines source) name key := by
  intro line last
  obtain ⟨value, read, reads_off⟩ := off
  rw [lastAssignment, last_gfx lowering split found gfx present, last, Option.map_some,
    Option.map_some, Option.some.injEq] at read
  have assigns := mem_assignments lowering (List.mem_of_getLast? last)
  cases gfx_replaced lowering arguments gfx assigns with
  | inl changed => exact Or.inl changed.1
  | inr same =>
      rw [same.2] at read
      rw [read]
      exact Or.inr reads_off

omit split in
theorem alone_gfx {other : Arguments} (values : other.replacements = arguments.replacements)
    (option : (other.enableGfxForVnc || other.disableGfxForVnc) =
      (arguments.enableGfxForVnc || arguments.disableGfxForVnc))
    {setting : Text × String} (member : setting ∈ Flag.settings .disableGfx) :
    lastAssignment lowering setting.1 setting.2
        (caseLines lowering other false before head body after) =
      lastAssignment lowering setting.1 setting.2
        (caseLines lowering arguments false before head body after) := by
  have different : setting.2.toList ≠ "enable_dynamic_resizing".toList := by
    revert setting
    decide +kernel
  rw [lastAssignment, lastAssignment, case_assignments, case_assignments, if_neg (by simp),
    if_neg (by simp), edited_same lowering arguments found values option _ different]

variable (assigned : ∀ entry ∈ arguments.replacements, Assigned (readLines source) entry.item)

include assigned

theorem last_gfx_some {name : Text} {key : String} (gfx : GfxKey name key)
    (present : noChansrv = true → name ≠ console) :
    ∃ line, (assignments lowering name key (readLines source)).getLast? = some line ∧
      lastAssignment lowering name key
        (caseLines lowering arguments noChansrv before head body after) =
          some (valueText (replaceLine arguments name line)) := by
  have last := List.getLast?_eq_some_getLast (gfx_assigned lowering arguments gfx assigned)
  refine ⟨_, last, ?_⟩
  rw [lastAssignment, last_gfx lowering split found gfx present, last]
  rfl

theorem off_of_replaced {name : Text} {key : String} (gfx : GfxKey name key)
    (present : noChansrv = true → name ≠ console) (disable : arguments.disableGfxForVnc = true)
    (either : ReplacedOrOff lowering reading (readLines source) name key) :
    Off lowering reading (caseLines lowering arguments noChansrv before head body after) name key := by
  obtain ⟨line, last, read⟩ := last_gfx_some lowering split found assigned gfx present
  refine ⟨_, read, ?_⟩
  cases gfx_replaced lowering arguments gfx (mem_assignments lowering (List.mem_of_getLast? last)) with
  | inl changed =>
      rw [changed.2, disable]
      exact reading.false_off
  | inr same =>
      rw [same.2]
      exact (either line last).resolve_left same.1

theorem flags_hold_of_effective (free : ∀ value ∈ arguments.values, OneLine value)
    (effective : Effective lowering arguments noChansrv reading source
      (caseLines lowering arguments noChansrv before head body after)) :
    FlagsHold lowering arguments noChansrv reading (readLines source) := by
  have no_disable : noChansrv = true → arguments.disableGfxForVnc ≠ true := by
    intro removes disable
    obtain ⟨value, read, -⟩ := (effective.graphics disable).2
    rw [no_console_gfx lowering arguments noChansrv removes] at read
    contradiction
  constructor
  · intro option line last
    obtain ⟨value, read, off⟩ := effective.dynamic option
    rw [lastAssignment, case_assignments, if_neg fun gone => not_chansrv_keys.2.1 gone.2.2,
      last_dynamic lowering arguments found option, ← split, last, Option.getD_some, Option.map_some,
      Option.some.injEq] at read
    rw [read]
    exact off
  · intro disable
    have both := effective.graphics disable
    exact ⟨replaced_or_off lowering split found GfxKey.channels (fun _ => by decide +kernel) both.1,
      replaced_or_off lowering split found GfxKey.console
        (fun removes => absurd disable (no_disable removes)) both.2⟩
  · intro removes
    refine ⟨by simpa using no_disable removes, ?_⟩
    by_contra enable
    rw [Bool.not_eq_false] at enable
    -- alone the option leaves an assignment that is gone here
    obtain ⟨file, run, same⟩ := effective.together .enableGfx enable (console, "channel.drdynvc")
      (by simp [Flag.settings])
    obtain ⟨written, alone, lines⟩ := alone_written lowering split found .enableGfx free assigned
    rw [run, Prod.mk.injEq, Option.some.injEq] at alone
    have present : decide (Flag.enableGfx = Flag.noChansrv) = true → console ≠ console := by
      simp
    obtain ⟨line, -, read⟩ := last_gfx_some lowering split found
      (alone_assigned arguments .enableGfx assigned) GfxKey.console present
    rw [no_console_gfx lowering arguments noChansrv removes, alone.2, lines, read] at same
    contradiction

omit assigned in
theorem dynamic_off (option : arguments.disableDynamicResizing = true)
    (off : ∀ line, (assignments lowering console "enable_dynamic_resizing"
      (readLines source)).getLast? = some line → reading.isOn (valueText line) = false) :
    Off lowering reading (caseLines lowering arguments noChansrv before head body after) console
      "enable_dynamic_resizing" := by
  have read : lastAssignment lowering console "enable_dynamic_resizing"
      (caseLines lowering arguments noChansrv before head body after) =
        some (valueText ((assignments lowering console "enable_dynamic_resizing"
          (readLines source)).getLast?.getD dynamicLine)) := by
    rw [lastAssignment, case_assignments, if_neg fun gone => not_chansrv_keys.2.1 gone.2.2,
      last_dynamic lowering arguments found option, ← split]
    rfl
  refine ⟨_, read, ?_⟩
  cases last : (assignments lowering console "enable_dynamic_resizing"
      (readLines source)).getLast? with
  | none =>
      have plain : stripBoth "false".toList = "false".toList :=
        strip_both_plain (bool_text_plain false)
      rw [Option.getD_none, dynamic_line_parts, value_assignment dynamic_plain, plain]
      exact reading.false_off
  | some line => exact off line last

omit split assigned in
/-- With no graphics option beside `--no-chansrv`, a flag does to the keys it governs what it
does alone. -/
theorem alone_same (options : ¬(arguments.disableGfxForVnc = true ∧ arguments.enableGfxForVnc = true))
    (chansrv : noChansrv = true →
      arguments.disableGfxForVnc = false ∧ arguments.enableGfxForVnc = false)
    {flag : Flag} (given : flag.given arguments noChansrv = true) {setting : Text × String}
    (member : setting ∈ flag.settings) :
    lastAssignment lowering setting.1 setting.2 (caseLines lowering (flag.alone arguments)
        (decide (flag = .noChansrv)) before head body after) =
      lastAssignment lowering setting.1 setting.2
        (caseLines lowering arguments noChansrv before head body after) := by
  cases flag with
  | disableGfx =>
      have disable : arguments.disableGfxForVnc = true := given
      have stays : noChansrv = false := by
        by_contra removes
        rw [(chansrv (by simpa using removes)).1] at disable
        contradiction
      rw [stays]
      apply alone_gfx lowering found
      · exact alone_replacements arguments (by simp [disable])
      · simp [Flag.alone, disable]
      · exact member
  | enableGfx =>
      have enable : arguments.enableGfxForVnc = true := given
      have stays : noChansrv = false := by
        by_contra removes
        rw [(chansrv (by simpa using removes)).2] at enable
        contradiction
      have no_disable : arguments.disableGfxForVnc = false := by
        simpa [enable] using options
      rw [stays]
      apply alone_gfx lowering found
      · exact alone_replacements arguments (by simp [no_disable])
      · simp [Flag.alone, enable]
      · exact member
  | disableDynamic =>
      have option : arguments.disableDynamicResizing = true := given
      obtain rfl := List.mem_singleton.mp member
      rw [lastAssignment, lastAssignment, case_assignments, case_assignments,
        if_neg fun gone => not_chansrv_keys.2.1 gone.2.2,
        if_neg fun gone => not_chansrv_keys.2.1 gone.2.2,
        edited_dynamic_same lowering arguments found (by simp [Flag.alone, option])]
  | noChansrv =>
      have removes : noChansrv = true := given
      have both : ∀ (options : Arguments) (key : String), key.toList ∈ chansrvKeys →
          lastAssignment lowering console key
            (caseLines lowering options true before head body after) = none := by
        intro options key listed
        rw [lastAssignment, case_assignments, if_pos ⟨rfl, rfl, listed⟩]
        rfl
      rw [removes]
      rcases List.mem_pair.mp member with rfl | rfl
      · exact (both _ _ chansrv_keys.2.1).trans (both _ _ chansrv_keys.2.1).symm
      · exact (both _ _ chansrv_keys.2.2).trans (both _ _ chansrv_keys.2.2).symm

theorem effective_of_flags_hold (free : ∀ value ∈ arguments.values, OneLine value)
    (options : ¬(arguments.disableGfxForVnc = true ∧ arguments.enableGfxForVnc = true))
    (hold : FlagsHold lowering arguments noChansrv reading (readLines source)) :
    Effective lowering arguments noChansrv reading source
      (caseLines lowering arguments noChansrv before head body after) := by
  constructor
  · intro option
    exact dynamic_off lowering split found option (hold.dynamic option)
  · intro disable
    have present : noChansrv ≠ true := fun removes => by
      rw [(hold.chansrv removes).1] at disable
      contradiction
    have both := hold.graphics disable
    exact ⟨off_of_replaced lowering split found assigned GfxKey.channels
        (fun removes => absurd removes present) disable both.1,
      off_of_replaced lowering split found assigned GfxKey.console
        (fun removes => absurd removes present) disable both.2⟩
  · intro removes
    rw [lastAssignment, lastAssignment, case_assignments, case_assignments,
      if_pos ⟨removes, rfl, chansrv_keys.2.1⟩, if_pos ⟨removes, rfl, chansrv_keys.2.2⟩]
    exact ⟨rfl, rfl⟩
  · intro flag given setting member
    obtain ⟨file, run, lines⟩ := alone_written lowering split found flag free assigned
    refine ⟨file, run, ?_⟩
    rw [lines]
    exact alone_same lowering found options hold.chansrv given member

end Effect

theorem flags_effective_iff (arguments : LineArguments) {source : Text} {target : Option File}
    {file : File}
    (accepted : caseConfig lowering arguments.val noChansrv source target = (.ok (), some file)) :
    Effective lowering arguments.val noChansrv reading source (readLines file.text) ↔
      FlagsHold lowering arguments.val noChansrv reading (readLines source) := by
  have succeeds : (rewriteXrdpConfig lowering arguments.val source target).1 = .ok () := by
    rw [caseConfig] at accepted
    split at accepted
    · simp at accepted
    · rename_i written
      rw [written]
  obtain ⟨options, assigned⟩ := rewrite_runs arguments.val lowering succeeds
  obtain ⟨before, head, body, after, split, found⟩ :=
    console_split (console_opened arguments.val assigned)
  obtain ⟨written, run, lines⟩ := case_written lowering arguments.val noChansrv split found
    arguments.property target options assigned
  rw [accepted, Prod.mk.injEq, Option.some.injEq] at run
  rw [run.2, lines]
  exact ⟨flags_hold_of_effective lowering split found assigned arguments.property,
    effective_of_flags_hold lowering split found assigned arguments.property options⟩

/-- Takes every text but `true` as off. -/
def onlyTrue : SwitchReading where
  isOn value := value = "true".toList
  false_off := by decide +kernel

theorem installed_case (disableGfx noChansrv : Bool) : ∃ file,
    caseConfig asciiLowering (benchArguments disableGfx false) noChansrv (writeLines installedLines)
      none = (.ok (), some file) := by
  have assigned := installed_assigned disableGfx false
  obtain ⟨before, head, body, after, split, found⟩ := console_split (console_opened _ assigned)
  obtain ⟨file, run, -⟩ := case_written asciiLowering (benchArguments disableGfx false) noChansrv
    split found (bench_one_line disableGfx false) none (by simp [benchArguments]) assigned
  exact ⟨file, run⟩

/-- What is installed is written as the options write it. -/
theorem installed_flags_hold : FlagsHold asciiLowering (benchArguments true false) false onlyTrue
    (readLines (writeLines installedLines)) := by
  have channels_key : (assignments asciiLowering channels "drdynvc" installedLines).getLast?.map
      keyName = some "drdynvc".toList := by decide +kernel
  have console_key : (assignments asciiLowering console "channel.drdynvc"
      installedLines).getLast?.map keyName = some "channel.drdynvc".toList := by decide +kernel
  rw [installed_read]
  refine ⟨by simp [benchArguments], fun _ => ⟨?_, ?_⟩, by simp⟩
  · intro line last
    rw [last, Option.map_some, Option.some.injEq] at channels_key
    exact .inl channels_key
  · intro line last
    rw [last, Option.map_some, Option.some.injEq] at console_key
    exact .inl console_key

theorem flags_effective_installed : ∃ file,
    caseConfig asciiLowering (benchArguments true false) false (writeLines installedLines) none =
        (.ok (), some file) ∧
      Effective asciiLowering (benchArguments true false) false onlyTrue
        (writeLines installedLines) (readLines file.text) := by
  obtain ⟨file, run⟩ := installed_case true false
  exact ⟨file, run, (flags_effective_iff asciiLowering false onlyTrue (benchLines true false) run).mpr
    installed_flags_hold⟩

/-- `--disable-gfx-for-vnc` with `--no-chansrv`. -/
theorem chansrv_undoes_gfx : ¬∀ (lowering : Lowering) (arguments : LineArguments)
    (noChansrv : Bool) (reading : SwitchReading) (source : Text) (target : Option File) (file : File),
    caseConfig lowering arguments.val noChansrv source target = (.ok (), some file) →
      Effective lowering arguments.val noChansrv reading source (readLines file.text) := by
  intro effective
  have assigned := installed_assigned true false
  obtain ⟨before, head, body, after, split, found⟩ := console_split (console_opened _ assigned)
  obtain ⟨file, run, lines⟩ := case_written asciiLowering (benchArguments true false) true split
    found (bench_one_line true false) none (by simp [benchArguments]) assigned
  obtain ⟨value, read, -⟩ :=
    ((effective asciiLowering (benchLines true false) true onlyTrue _ _ _ run).graphics rfl).2
  rw [lines, no_console_gfx asciiLowering _ _ rfl] at read
  contradiction

end XrdpConsole.ConfigFlags
