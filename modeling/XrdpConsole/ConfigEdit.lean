import XrdpConsole.ConfigLines

/-!
# The rewritten configuration is a precise edit

What `rewrite_xrdp_config` leaves in the target file, for any source and any arguments: every
managed assignment replaced in its section, the lines of the first Console section that switch
graphics off removed, a line that switches dynamic resizing off added, and nothing else
changed. The same edit of what it has written changes nothing.
-/

namespace XrdpConsole.ConfigEdit

open XrdpConsole.Library XrdpConsole.BenchConfig XrdpConsole.ConfigLines

set_option autoImplicit false

variable (arguments : Arguments)

/-! ## The first Console section -/

/-- Lines in front of the first Console section, its header, the other lines of it and the
lines behind it. -/
structure ConsoleAt (before : List Text) (head : Text) (body after : List Text) : Prop where
  first : ∀ line ∈ before, header line ≠ some console
  head : header head = some console
  body : ∀ line ∈ body, header line = none
  after : ∀ line, after.head? = some line → (header line).isSome = true

theorem plain_front (lines : List Text) : ∃ body after, lines = body ++ after ∧
    (∀ line ∈ body, header line = none) ∧
      ∀ line, after.head? = some line → (header line).isSome = true := by
  refine ⟨lines.takeWhile fun line => (header line).isNone,
    lines.dropWhile fun line => (header line).isNone, (List.takeWhile_append_dropWhile).symm, ?_, ?_⟩
  · intro line member
    simpa using List.mem_takeWhile_imp member
  · intro line first
    have stops := List.head?_dropWhile_not (fun line => (header line).isNone) lines
    rw [first] at stops
    simpa [Option.isSome_iff_ne_none] using stops

theorem console_split {lines : List Text} (opened : ∃ line ∈ lines, header line = some console) :
    ∃ before head body after, lines = before ++ head :: (body ++ after) ∧
      ConsoleAt before head body after := by
  induction lines with
  | nil => simp at opened
  | cons line rest ih =>
      by_cases here : header line = some console
      · obtain ⟨body, after, split, plain, stops⟩ := plain_front rest
        exact ⟨[], line, body, after, by rw [split]; rfl, by simp, here, plain, stops⟩
      · obtain ⟨before, head, body, after, split, found⟩ := ih (by simpa [here] using opened)
        refine ⟨line :: before, head, body, after, by rw [split]; rfl, ?_, found.head, found.body,
          found.after⟩
        intro other member
        cases List.mem_cons.mp member with
        | inl same => rwa [same]
        | inr later => exact found.first other later

theorem zip_filter (select : Text → Bool) {keep : Text × Nat → Bool} (lines : List Text)
    (start : Nat)
    (same : ∀ line index, start ≤ index → index < start + lines.length →
      keep (line, index) = select line) :
    ((lines.zipIdx start).filter keep).map Prod.fst = lines.filter select := by
  have selected : (lines.zipIdx start).filter keep =
      (lines.zipIdx start).filter (select ∘ Prod.fst) := by
    apply List.filter_congr
    intro entry member
    exact same entry.1 entry.2 (List.le_snd_of_mem_zipIdx member) (List.snd_lt_add_of_mem_zipIdx member)
  rw [selected, ← List.filter_map, List.zipIdx_map_fst]

section Split

variable {before body after : List Text} {head : Text} (found : ConsoleAt before head body after)

include found

theorem console_start_split : consoleStart (before ++ head :: (body ++ after)) = some before.length := by
  have none_before : before.findIdx? (fun line => stripBoth line = consoleHeader) = none := by
    rw [List.findIdx?_eq_none_iff]
    intro line member
    have other := found.first line member
    rw [Ne, header_console] at other
    exact decide_eq_false other
  have here : decide (stripBoth head = consoleHeader) = true :=
    decide_eq_true (header_console.mp found.head)
  rw [consoleStart, List.findIdx?_append, none_before, List.findIdx?_cons, here]
  simp

theorem console_end_split :
    consoleEnd before.length (before ++ head :: (body ++ after)) = before.length + 1 + body.length := by
  have behind : (before ++ head :: (body ++ after)).drop (before.length + 1) = body ++ after := by
    simp
  have stop : (body ++ after).findIdx (fun line => (header line).isSome) = body.length := by
    have next : after.findIdx (fun line => (header line).isSome) = 0 := by
      cases after with
      | nil => rfl
      | cons line rest => simp [List.findIdx_cons, found.after line rfl]
    have none_body : body.findIdx (fun line => (header line).isSome) = body.length := by
      apply List.findIdx_eq_length_of_false
      intro line member
      rw [found.body line member]
      rfl
    rw [List.findIdx_append, none_body, if_neg (Nat.lt_irrefl _), next, Nat.zero_add]
  rw [consoleEnd, behind, stop]

variable (lowering : Lowering)

omit found in
theorem remove_split : removeDisableGfx lowering before.length (before.length + 1 + body.length)
    (before ++ head :: (body ++ after)) =
      before ++ head :: (body.filter (fun line => !assigns lowering "disable_gfx" line) ++ after) := by
  have all : ∀ lines : List Text, lines.filter (fun _ => true) = lines :=
    fun lines => List.filter_eq_self.mpr fun _ _ => rfl
  rw [removeDisableGfx, List.zipIdx_append, List.zipIdx_cons, List.zipIdx_append, List.filter_append,
    List.filter_cons, if_pos (by simp), List.filter_append, List.map_append, List.map_cons,
    List.map_append, zip_filter fun _ => true,
    zip_filter fun line => !assigns lowering "disable_gfx" line, zip_filter fun _ => true, all, all]
  · intro line index lower _
    have beyond : ¬index < before.length + 1 + body.length := by omega
    simp [beyond]
  · intro line index lower upper
    have inside : before.length < index ∧ index < before.length + 1 + body.length := by omega
    simp [inside]
  · intro line index _ upper
    have outside : ¬before.length < index := by omega
    simp [outside]

omit found in
theorem console_parts : (before ++ head :: (body ++ after)).take (before.length + 1 + body.length) =
      before ++ head :: body ∧
    (before ++ head :: (body ++ after)).drop (before.length + 1 + body.length) = after ∧
    (before ++ head :: body).drop (before.length + 1) = body := by
  have joined : before ++ head :: (body ++ after) = (before ++ head :: body) ++ after := by
    simp
  rw [joined]
  exact ⟨List.take_left' (by simp; omega), List.drop_left' (by simp; omega), by simp⟩

omit found in
theorem insert_split : insertDynamic lowering before.length (before.length + 1 + body.length)
    (before ++ head :: (body ++ after)) =
      before ++ head :: (body ++
        (if body.any (assigns lowering "enable_dynamic_resizing") then [] else [dynamicLine]) ++
        after) := by
  obtain ⟨front, back, inner⟩ := @console_parts before body after head
  simp only [insertDynamic, front, back, inner]
  split <;> simp

end Split

/-! ## The whole edit -/

variable (lowering : Lowering)

theorem assigns_active (key : String) (line : Text) : assigns lowering key line =
    (decide (Active line) && decide (lowering.lower (keyName line) = key.toList)) := by
  have same : commented (stripLeft line) = commented (stripBoth line) :=
    commented_head (strip_both_head line).symm
  rw [assigns, same, Bool.eq_iff_iff]
  simp only [Bool.and_eq_true, decide_eq_true_eq, Bool.not_eq_true']
  unfold Active
  tauto

theorem assigns_replaced (key : String) (name line : Text) :
    assigns lowering key (replaceLine arguments name line) = assigns lowering key line := by
  simp only [assigns_active, replace_line_active, replace_line_key]

/-- Whether a line of the first Console section stays. -/
def kept (line : Text) : Bool :=
  !((arguments.enableGfxForVnc || arguments.disableGfxForVnc) && assigns lowering "disable_gfx" line)

def addedLines (body : List Text) : List Text :=
  if arguments.disableDynamicResizing && !body.any (assigns lowering "enable_dynamic_resizing") then
    [dynamicLine]
  else
    []

def editedBody (body : List Text) : List Text :=
  (replaced arguments console body).filter (kept arguments lowering) ++
    addedLines arguments lowering body

def editedLines (before : List Text) (head : Text) (body after : List Text) : List Text :=
  replaced arguments [] before ++
    head :: (editedBody arguments lowering body ++ replaced arguments console after)

/-- The output is the source with the managed assignments replaced everywhere, and the first
Console section edited in the two ways that the options ask for. -/
inductive PreciseEdit : List Text → List Text → Prop where
  | console {before body after : List Text} {head : Text} : ConsoleAt before head body after →
      PreciseEdit (before ++ head :: (body ++ after))
        (editedLines arguments lowering before head body after)

theorem replaced_plain (body : List Text) (plain : ∀ line ∈ body, header line = none) :
    replaced arguments console body = body.map (replaceLine arguments console) := by
  rw [replaced, editLines, in_sections_plain plain, List.map_map]
  rfl

theorem replaced_header {line : Text} (name : Text) (opens : (header line).isSome = true) :
    replaceLine arguments name line = line := by
  cases replace_line_cases arguments name line with
  | inl changed =>
      obtain ⟨entry, listed, -, item, same⟩ := changed
      have plain := managed_plain arguments listed
      rw [item] at plain
      rw [(plain_key_line plain).1] at opens
      contradiction
  | inr same => exact same.2

section Split

variable {arguments lowering} {before body after : List Text} {head : Text}
  (found : ConsoleAt before head body after)

include found

theorem replaced_split : replaced arguments [] (before ++ head :: (body ++ after)) =
    replaced arguments [] before ++
      head :: (replaced arguments console body ++ replaced arguments console after) := by
  have same : replaceLine arguments console head = head := by
    apply replaced_header
    rw [found.head]
    rfl
  rw [replaced, edit_lines_append]
  congr 1
  have opened : (header head).getD (openSection header [] before) = console := by
    rw [found.head]
    rfl
  simp only [editLines, inSections, opened, List.map_cons, same, in_sections_append,
    List.map_append, open_section_plain found.body]

theorem console_at_replaced : ConsoleAt (replaced arguments [] before) head
    (replaced arguments console body) (replaced arguments console after) := by
  have headers : ∀ (name : Text) (lines : List Text), ∀ line ∈ replaced arguments name lines,
      ∃ old ∈ lines, header line = header old := by
    intro name lines line member
    obtain ⟨opened, old, listed, rfl⟩ := mem_edit_lines member
    exact ⟨old, listed, replace_line_header arguments opened old⟩
  constructor
  · intro line member
    obtain ⟨old, listed, same⟩ := headers [] before line member
    rw [same]
    exact found.first old listed
  · exact found.head
  · intro line member
    obtain ⟨old, listed, same⟩ := headers console body line member
    rw [same]
    exact found.body old listed
  · intro line first
    cases after with
    | nil => contradiction
    | cons old rest =>
        simp only [replaced, editLines, inSections, List.map_cons, List.head?_cons,
          Option.some.injEq] at first
        rw [← first, replace_line_header]
        exact found.after old rfl

theorem gfx_pass_split : gfxPass lowering arguments (before ++ head :: (body ++ after)) =
    .ok (before ++ head :: (body.filter (kept arguments lowering) ++ after)) := by
  simp only [gfxPass, console_start_split found, console_end_split found, remove_split]
  split
  · rename_i option
    have same : kept arguments lowering = fun line => !assigns lowering "disable_gfx" line := by
      funext line
      simp [kept, option]
    rw [same]
    rfl
  · rename_i option
    have same : body.filter (kept arguments lowering) = body := by
      rw [List.filter_eq_self]
      intro line _
      simp [kept, option]
    rw [same]
    rfl

theorem dynamic_pass_split : dynamicPass lowering arguments (before ++ head :: (body ++ after)) =
    .ok (before ++ head :: (body ++ addedLines arguments lowering body ++ after)) := by
  simp only [dynamicPass, addedLines, console_start_split found, console_end_split found,
    insert_split]
  split
  · rename_i option
    cases present : body.any (assigns lowering "enable_dynamic_resizing")
    · simp [option]
      rfl
    · simp
      rfl
  · rename_i option
    simp [option]
    rfl

theorem console_at_filter (keep : Text → Bool) : ConsoleAt before head (body.filter keep) after :=
  ⟨found.first, found.head, fun line member => found.body line (List.mem_of_mem_filter member),
    found.after⟩

end Split

theorem dynamic_kept {line : Text} (assigned : assigns lowering "enable_dynamic_resizing" line = true) :
    kept arguments lowering line = true := by
  have other : assigns lowering "disable_gfx" line = false := by
    rw [assigns_active, Bool.and_eq_true, decide_eq_true_eq, decide_eq_true_eq] at assigned
    rw [assigns_active, assigned.2]
    have different : "enable_dynamic_resizing".toList ≠ "disable_gfx".toList := by decide +kernel
    simp only [different, decide_false, Bool.and_false]
  simp [kept, other]

theorem managed_kept {entry : Managed} (listed : entry ∈ arguments.replacements) {line : Text}
    (key : keyName line = entry.item.2) : kept arguments lowering line = true := by
  have inside := managed_key arguments listed
  have ascii := (plain_keys entry.item.2 (List.mem_append_right _ inside)).2
  have other : assigns lowering "disable_gfx" line = false := by
    rw [assigns_active, key, lowering.ascii _ ascii]
    simp only [(managed_keys_lowered entry.item.2 inside).2, decide_false, Bool.and_false]
  simp [kept, other]

theorem any_dynamic_edited (body : List Text) :
    ((replaced arguments console body).filter (kept arguments lowering)).any
      (assigns lowering "enable_dynamic_resizing") =
        body.any (assigns lowering "enable_dynamic_resizing") := by
  rw [Bool.eq_iff_iff, List.any_eq_true, List.any_eq_true]
  constructor
  · intro found
    obtain ⟨line, member, assigned⟩ := found
    obtain ⟨opened, old, listed, rfl⟩ := mem_edit_lines (List.mem_of_mem_filter member)
    rw [assigns_replaced] at assigned
    exact ⟨old, listed, assigned⟩
  · intro found
    obtain ⟨old, listed, assigned⟩ := found
    obtain ⟨opened, member⟩ := edit_lines_mem listed (replaceLine arguments)
    rw [← assigns_replaced arguments lowering _ opened] at assigned
    exact ⟨_, List.mem_filter.mpr ⟨member, dynamic_kept arguments lowering assigned⟩, assigned⟩

theorem rewrite_lines_split {before body after : List Text} {head : Text}
    (found : ConsoleAt before head body after)
    (options : ¬(arguments.disableGfxForVnc = true ∧ arguments.enableGfxForVnc = true))
    (assigned : ∀ entry ∈ arguments.replacements,
      Assigned (before ++ head :: (body ++ after)) entry.item) :
    rewriteLines lowering arguments (before ++ head :: (body ++ after)) =
      .ok (editedLines arguments lowering before head body after) := by
  have none_missing : (arguments.replacements.find? fun entry =>
      entry.item ∉ (replaceFrom arguments [] (before ++ head :: (body ++ after))).2) = none := by
    rw [List.find?_eq_none]
    intro entry listed
    have managed := replacement_some arguments listed
    simpa using (replace_from_seen arguments [] _ managed).mpr (assigned entry listed)
  have edited : ConsoleAt (replaced arguments [] before) head (replaced arguments console body)
      (replaced arguments console after) := console_at_replaced found
  have output := replace_from_output arguments [] (before ++ head :: (body ++ after))
  rw [replaced_split found] at output
  have exclusive : (arguments.disableGfxForVnc && arguments.enableGfxForVnc) = false := by
    simpa using options
  have shorter := console_at_filter edited (kept arguments lowering)
  have added : addedLines arguments lowering ((replaced arguments console body).filter
      (kept arguments lowering)) = addedLines arguments lowering body := by
    rw [addedLines, any_dynamic_edited, addedLines]
  simp only [rewriteLines, exclusive, none_missing, output]
  rw [if_neg (by simp), gfx_pass_split edited]
  exact (dynamic_pass_split shorter).trans (by rw [added, editedLines, editedBody])

/-! ## The edit once more -/

theorem dynamic_line_parts : dynamicLine = "enable_dynamic_resizing".toList ++ '=' :: "false".toList := by
  decide +kernel

theorem dynamic_plain : PlainKey "enable_dynamic_resizing".toList :=
  (plain_keys _ (List.mem_append_left _ (List.mem_map_of_mem (by simp)))).1

theorem dynamic_key : keyName dynamicLine = "enable_dynamic_resizing".toList := by
  rw [dynamic_line_parts, key_assignment dynamic_plain]

theorem dynamic_assigns : assigns lowering "enable_dynamic_resizing" dynamicLine = true := by
  have active : Active dynamicLine := by
    rw [dynamic_line_parts]
    exact active_assignment dynamic_plain _
  have ascii := (plain_keys "enable_dynamic_resizing".toList
    (List.mem_append_left _ (List.mem_map_of_mem (by simp)))).2
  have lower : lowering.lower "enable_dynamic_resizing".toList = "enable_dynamic_resizing".toList := by
    rw [lowering.ascii _ ascii]
    decide +kernel
  rw [assigns_active, dynamic_key, lower]
  simp only [active, decide_true, Bool.and_self]

theorem dynamic_replaced (name : Text) : replaceLine arguments name dynamicLine = dynamicLine := by
  cases replace_line_cases arguments name dynamicLine with
  | inl changed =>
      obtain ⟨entry, listed, -, item, -⟩ := changed
      have key := managed_key arguments listed
      rw [item, dynamic_key] at key
      exact absurd key (by decide +kernel : "enable_dynamic_resizing".toList ∉ managedKeys)
  | inr same => exact same.2

theorem dynamic_header : header dynamicLine = none := by
  apply (plain_key_line _).1
  rw [dynamic_key]
  exact dynamic_plain

theorem added_dynamic {body : List Text} {line : Text}
    (member : line ∈ addedLines arguments lowering body) : line = dynamicLine := by
  unfold addedLines at member
  split at member
  · exact List.mem_singleton.mp member
  · simp at member

section Again

variable {body : List Text} (plain : ∀ line ∈ body, header line = none)

include plain

theorem edited_body_cases {line : Text} (member : line ∈ editedBody arguments lowering body) :
    (∃ old ∈ body, line = replaceLine arguments console old ∧
      kept arguments lowering line = true) ∨ line = dynamicLine := by
  rw [editedBody, replaced_plain arguments body plain, List.mem_append, List.mem_filter] at member
  cases member with
  | inl old =>
      obtain ⟨⟨line, listed, rfl⟩, stays⟩ := old.imp_left List.mem_map.mp
      exact Or.inl ⟨line, listed, rfl, stays⟩
  | inr added => exact Or.inr (added_dynamic arguments lowering added)

theorem edited_body_plain : ∀ line ∈ editedBody arguments lowering body, header line = none := by
  intro line member
  cases edited_body_cases arguments lowering plain member with
  | inl old =>
      obtain ⟨old, listed, rfl, -⟩ := old
      rw [replace_line_header]
      exact plain old listed
  | inr added =>
      rw [added]
      exact dynamic_header

theorem edited_body_again : editedBody arguments lowering (editedBody arguments lowering body) =
    editedBody arguments lowering body := by
  have same : replaced arguments console (editedBody arguments lowering body) =
      editedBody arguments lowering body := by
    rw [replaced_plain arguments _ (edited_body_plain arguments lowering plain)]
    have each : ∀ line ∈ editedBody arguments lowering body,
        replaceLine arguments console line = line := by
      intro line member
      cases edited_body_cases arguments lowering plain member with
      | inl old =>
          obtain ⟨old, -, rfl, -⟩ := old
          exact replace_line_again arguments console old
      | inr added =>
          rw [added]
          exact dynamic_replaced arguments console
    exact (List.map_congr_left each).trans (List.map_id' _)
  have stay : (editedBody arguments lowering body).filter (kept arguments lowering) =
      editedBody arguments lowering body := by
    rw [List.filter_eq_self]
    intro line member
    cases edited_body_cases arguments lowering plain member with
    | inl old =>
        obtain ⟨old, -, -, stays⟩ := old
        exact stays
    | inr added =>
        rw [added]
        exact dynamic_kept arguments lowering (dynamic_assigns lowering)
  have nothing : addedLines arguments lowering (editedBody arguments lowering body) = [] := by
    rw [addedLines, editedBody, List.any_append, any_dynamic_edited, addedLines]
    cases arguments.disableDynamicResizing
    · simp
    · cases present : body.any (assigns lowering "enable_dynamic_resizing")
      · simp [dynamic_assigns]
      · simp
  rw [editedBody, same, stay, nothing, List.append_nil]

end Again

section Again

variable {arguments lowering} {before body after : List Text} {head : Text}
  (found : ConsoleAt before head body after)

include found

theorem in_sections_split : inSections header [] (before ++ head :: (body ++ after)) =
    inSections header [] before ++ (console, head) ::
      (body.map (fun line => (console, line)) ++ inSections header console after) := by
  have opened : (header head).getD (openSection header [] before) = console := by
    rw [found.head]
    rfl
  rw [in_sections_append]
  simp only [inSections, opened, in_sections_append, open_section_plain found.body,
    in_sections_plain found.body]

theorem console_at_edited : ConsoleAt (replaced arguments [] before) head
    (editedBody arguments lowering body) (replaced arguments console after) := by
  have replaced_at : ConsoleAt (replaced arguments [] before) head (replaced arguments console body)
      (replaced arguments console after) := console_at_replaced found
  exact ⟨replaced_at.first, replaced_at.head, edited_body_plain arguments lowering found.body,
    replaced_at.after⟩

theorem edited_lines_again : editedLines arguments lowering (replaced arguments [] before) head
    (editedBody arguments lowering body) (replaced arguments console after) =
      editedLines arguments lowering before head body after := by
  have again : ∀ (name : Text) (lines : List Text),
      replaced arguments name (replaced arguments name lines) = replaced arguments name lines :=
    edit_lines_again (replace_line_header arguments) (replace_line_again arguments)
  rw [editedLines, again, again, edited_body_again arguments lowering found.body, editedLines]

theorem assigned_again {entry : Managed} (listed : entry ∈ arguments.replacements)
    (assigned : Assigned (before ++ head :: (body ++ after)) entry.item) :
    Assigned (editedLines arguments lowering before head body after) entry.item := by
  have plain := managed_plain arguments listed
  have same : ∀ line : Text × Text, AssignsItem entry.item line →
      AssignsItem entry.item (line.1, replaceLine arguments line.1 line.2) := by
    intro line assigns
    exact ⟨assigns.1, (replace_line_active arguments line.1 line.2).mpr assigns.2.1,
      (replace_line_key arguments line.1 line.2).trans assigns.2.2⟩
  have edited : ∀ (name : Text) (lines : List Text), ∀ line ∈ inSections header name lines,
      (line.1, replaceLine arguments line.1 line.2) ∈
        inSections header name (replaced arguments name lines) := by
    intro name lines line member
    rw [in_sections_edit (replace_line_header arguments)]
    exact List.mem_map_of_mem member
  obtain ⟨line, member, assigns⟩ := assigned
  rw [in_sections_split found, List.mem_append, List.mem_cons, List.mem_append, List.mem_map] at member
  rw [Assigned, editedLines, in_sections_split (console_at_edited found)]
  rcases member with inside | rfl | ⟨old, inside, rfl⟩ | inside
  · exact ⟨_, List.mem_append_left _ (edited [] before line inside), same line assigns⟩
  · rw [← assigns.2.2] at plain
    have opened := found.head
    rw [(plain_key_line plain).1] at opened
    contradiction
  · refine ⟨_, ?_, same _ assigns⟩
    apply List.mem_append_right
    apply List.mem_cons_of_mem
    apply List.mem_append_left
    apply List.mem_map_of_mem
    rw [editedBody, replaced_plain arguments body found.body]
    apply List.mem_append_left
    apply List.mem_filter.mpr
    refine ⟨List.mem_map_of_mem inside, managed_kept arguments lowering listed ?_⟩
    rw [replace_line_key]
    exact assigns.2.2
  · refine ⟨_, ?_, same line assigns⟩
    apply List.mem_append_right
    apply List.mem_cons_of_mem
    exact List.mem_append_right _ (edited console after line inside)

end Again

theorem edited_one_line (free : ∀ value ∈ arguments.values, OneLine value)
    {before body after : List Text} {head : Text}
    (one : ∀ line ∈ before ++ head :: (body ++ after), OneLine line) :
    ∀ line ∈ editedLines arguments lowering before head body after, OneLine line := by
  have edited : ∀ (name : Text) (lines : List Text), (∀ line ∈ lines, OneLine line) →
      ∀ line ∈ replaced arguments name lines, OneLine line := by
    intro name lines each line member
    obtain ⟨opened, old, listed, rfl⟩ := mem_edit_lines member
    exact replace_line_one_line arguments free opened (each old listed)
  have added : OneLine dynamicLine := by
    apply one_line_of_all
    decide +kernel
  simp only [List.forall_mem_append, List.forall_mem_cons] at one
  simp only [editedLines, editedBody, List.forall_mem_append, List.forall_mem_cons]
  refine ⟨edited [] before one.1, one.2.1, ⟨?_, ?_⟩, edited console after one.2.2.2⟩
  · intro line member
    exact edited console body one.2.2.1 line (List.mem_of_mem_filter member)
  · intro line member
    rwa [added_dynamic arguments lowering member]

/-! ## What the rewriter does with any source -/

theorem rewrite_exclusive (lines : List Text) (disable : arguments.disableGfxForVnc = true)
    (enable : arguments.enableGfxForVnc = true) :
    rewriteLines lowering arguments lines = .error exclusiveText := by
  simp only [rewriteLines, disable, enable]
  rfl

theorem rewrite_missing {lines : List Text}
    (missing : ∃ entry ∈ arguments.replacements, ¬Assigned lines entry.item) :
    ∃ message, rewriteLines lowering arguments lines = .error message := by
  obtain ⟨entry, listed, absent⟩ := missing
  have unseen : entry.item ∉ (replaceFrom arguments [] lines).2 := by
    rw [replace_from_seen arguments [] lines (replacement_some arguments listed)]
    exact absent
  cases search : arguments.replacements.find? fun other =>
      other.item ∉ (replaceFrom arguments [] lines).2 with
  | none =>
      have seen := List.find?_eq_none.mp search entry listed
      simp [unseen] at seen
  | some first =>
      by_cases exclusive : (arguments.disableGfxForVnc && arguments.enableGfxForVnc) = true
      · rw [Bool.and_eq_true] at exclusive
        exact ⟨exclusiveText, rewrite_exclusive arguments lowering lines exclusive.1 exclusive.2⟩
      · refine ⟨lacks first.item, ?_⟩
        simp only [rewriteLines, exclusive, search]
        rfl

theorem read_lines_one_line (text : Text) : ∀ line ∈ readLines text, OneLine line :=
  split_lines_one_line (universalNewlines text)

theorem read_lines_write {lines : List Text} (nonempty : lines ≠ [])
    (one : ∀ line ∈ lines, OneLine line) : readLines (writeLines lines) = lines := by
  rw [readLines, universal_newlines_fresh (write_lines_no_return one), split_lines_write nonempty one]

/-- A Console section is there as soon as one of its managed items is assigned. -/
theorem console_opened {lines : List Text}
    (assigned : ∀ entry ∈ arguments.replacements, Assigned lines entry.item) :
    ∃ line ∈ lines, header line = some console := by
  have listed : managed "Console" "password" "na".toList ∈ arguments.replacements := by
    simp only [Arguments.replacements, List.mem_append, List.mem_cons, true_or, or_true]
  obtain ⟨entry, member, assigns⟩ := assigned _ listed
  have opened := section_opened member
  rw [assigns.1] at opened
  exact opened.resolve_left (by decide +kernel)

theorem rewrite_fails (source : Text) (target : Option File)
    (fails : (arguments.disableGfxForVnc = true ∧ arguments.enableGfxForVnc = true) ∨
      ∃ entry ∈ arguments.replacements, ¬Assigned (readLines source) entry.item) :
    ∃ message, rewriteXrdpConfig lowering arguments source target = (.error message, target) := by
  have failed : ∃ message, rewriteLines lowering arguments (readLines source) = .error message := by
    cases fails with
    | inl both => exact ⟨_, rewrite_exclusive arguments lowering _ both.1 both.2⟩
    | inr missing => exact rewrite_missing arguments lowering missing
  obtain ⟨message, failed⟩ := failed
  exact ⟨message, by rw [rewriteXrdpConfig, failed]⟩

theorem rewrite_runs {source : Text} {target : Option File}
    (succeeds : (rewriteXrdpConfig lowering arguments source target).1 = .ok ()) :
    ¬(arguments.disableGfxForVnc = true ∧ arguments.enableGfxForVnc = true) ∧
      ∀ entry ∈ arguments.replacements, Assigned (readLines source) entry.item := by
  have runs : ¬((arguments.disableGfxForVnc = true ∧ arguments.enableGfxForVnc = true) ∨
      ∃ entry ∈ arguments.replacements, ¬Assigned (readLines source) entry.item) := by
    intro fails
    obtain ⟨message, failed⟩ := rewrite_fails arguments lowering source target fails
    rw [failed] at succeeds
    contradiction
  rw [not_or] at runs
  apply And.intro runs.1
  intro entry listed
  by_contra missing
  exact runs.2 ⟨entry, listed, missing⟩

section Written

variable {source : Text} {before body after : List Text} {head : Text}
  (split : readLines source = before ++ head :: (body ++ after))
  (found : ConsoleAt before head body after)

include split

theorem edited_read (free : ∀ value ∈ arguments.values, OneLine value) :
    readLines (writeLines (editedLines arguments lowering before head body after)) =
      editedLines arguments lowering before head body after := by
  have one := read_lines_one_line source
  rw [split] at one
  exact read_lines_write (by simp [editedLines]) (edited_one_line arguments lowering free one)

include found

theorem rewrite_written (target : Option File)
    (options : ¬(arguments.disableGfxForVnc = true ∧ arguments.enableGfxForVnc = true))
    (assigned : ∀ entry ∈ arguments.replacements, Assigned (readLines source) entry.item) :
    rewriteXrdpConfig lowering arguments source target =
      (.ok (), some { text := writeLines (editedLines arguments lowering before head body after),
                      mode := 0o600 }) := by
  rw [split] at assigned
  rw [rewriteXrdpConfig, split, rewrite_lines_split arguments lowering found options assigned]

end Written

/-- Unless both graphics options are given or a managed assignment is missing, in which case the
call fails and the target is left alone, the target is the source precisely edited, and the same
edit of it changes nothing. -/
theorem rewrite_edits_precisely (lowering : Lowering) (arguments : LineArguments) (source : Text)
    (target : Option File) :
    ((arguments.val.disableGfxForVnc = true ∧ arguments.val.enableGfxForVnc = true) ∨
        (∃ entry ∈ arguments.val.replacements, ¬Assigned (readLines source) entry.item) →
      ∃ message, rewriteXrdpConfig lowering arguments.val source target = (.error message, target)) ∧
    (¬(arguments.val.disableGfxForVnc = true ∧ arguments.val.enableGfxForVnc = true) →
        (∀ entry ∈ arguments.val.replacements, Assigned (readLines source) entry.item) →
      ∃ output, PreciseEdit arguments.val lowering (readLines source) output ∧
        rewriteXrdpConfig lowering arguments.val source target =
          (.ok (), some { text := writeLines output, mode := 0o600 }) ∧
        ∀ later, rewriteXrdpConfig lowering arguments.val (writeLines output) later =
          (.ok (), some { text := writeLines output, mode := 0o600 })) := by
  constructor
  · exact rewrite_fails arguments.val lowering source target
  · intro options assigned
    obtain ⟨before, head, body, after, split, found⟩ :=
      console_split (console_opened arguments.val assigned)
    have reread := edited_read arguments.val lowering split arguments.property
    refine ⟨editedLines arguments.val lowering before head body after, ?_,
      rewrite_written arguments.val lowering split found target options assigned, fun later => ?_⟩
    · rw [split]
      exact PreciseEdit.console found
    · have written := rewrite_written arguments.val lowering reread (console_at_edited found) later options
      rw [edited_lines_again found] at written
      apply written
      intro entry listed
      have before := assigned entry listed
      rw [split] at before
      rw [reread]
      exact assigned_again found listed before

/-! ## A source with every managed assignment -/

def asciiLowering : Lowering where
  lower text := text.map Char.toLower
  ascii _ _ := rfl
  ascii_head _ _ _ := rfl

def installedLines : List Text :=
  ["[Globals]", "port=3389", "fork=true", "certificate=", "key_file=", "autorun=",
    "allow_channels=true", "max_bpp=32", "[Logging]", "LogFile=xrdp.log", "EnableSyslog=true",
    "[Channels]", "drdynvc=true", "[Console]", "lib=libvnc.so", "port=5900", "password=ask",
    "chansrvport=DISPLAY(0)", "channel.cliprdr=true", "channel.drdynvc=true"].map String.toList

def benchArguments (disableGfx enableGfx : Bool) : Arguments where
  port := 3390
  vncPort := 5901
  logPath := "log".toList
  chansrvPath := "sock".toList
  cert := "cert".toList
  key := "key".toList
  maxBpp := 32
  disableGfxForVnc := disableGfx
  enableGfxForVnc := enableGfx
  consoleLib := "libvnc.so".toList
  bitmapCompression := none
  bulkCompression := none
  disableDynamicResizing := false
  bindHost := "127.0.0.1".toList

theorem bench_one_line (disableGfx enableGfx : Bool) :
    ∀ value ∈ (benchArguments disableGfx enableGfx).values, OneLine value := by
  have all : ∀ value ∈ (benchArguments true true).values,
      value.all (fun c => !isLineBreak c) = true := by
    decide +kernel
  exact fun value listed => one_line_of_all (all value listed)

def benchLines (disableGfx enableGfx : Bool) : LineArguments :=
  ⟨benchArguments disableGfx enableGfx, bench_one_line disableGfx enableGfx⟩

instance (item : Item) (entry : Text × Text) : Decidable (AssignsItem item entry) :=
  inferInstanceAs (Decidable (_ ∧ _ ∧ _))

instance (lines : List Text) (item : Item) : Decidable (Assigned lines item) :=
  inferInstanceAs (Decidable (∃ entry ∈ inSections header [] lines, AssignsItem item entry))

theorem installed_read : readLines (writeLines installedLines) = installedLines := by
  have all : ∀ line ∈ installedLines, line.all (fun c => !isLineBreak c) = true := by
    decide +kernel
  exact read_lines_write (by simp [installedLines]) fun line listed => one_line_of_all (all line listed)

theorem installed_assigned (disableGfx enableGfx : Bool) :
    ∀ entry ∈ (benchArguments disableGfx enableGfx).replacements,
      Assigned (readLines (writeLines installedLines)) entry.item := by
  have items : ∀ item ∈ (benchArguments true true).replacements.map Managed.item,
      Assigned installedLines item := by
    decide +kernel
  rw [installed_read]
  intro entry listed
  have item : entry.item ∈ (benchArguments disableGfx enableGfx).replacements.map Managed.item :=
    List.mem_map_of_mem listed
  exact items entry.item item

theorem rewrite_edits_installed :
    ∃ output, PreciseEdit (benchArguments true false) asciiLowering
        (readLines (writeLines installedLines)) output ∧
      rewriteXrdpConfig asciiLowering (benchArguments true false) (writeLines installedLines) none =
        (.ok (), some { text := writeLines output, mode := 0o600 }) ∧
      ∀ later, rewriteXrdpConfig asciiLowering (benchArguments true false) (writeLines output) later =
        (.ok (), some { text := writeLines output, mode := 0o600 }) :=
  (rewrite_edits_precisely asciiLowering (benchLines true false) (writeLines installedLines)
    none).2 (fun both => Bool.false_ne_true both.2) (installed_assigned true false)

/-- With both graphics options nothing is written, whatever is assigned. -/
theorem both_options_fail : ¬∀ (lowering : Lowering) (arguments : LineArguments) (source : Text)
    (target : Option File),
    (∀ entry ∈ arguments.val.replacements, Assigned (readLines source) entry.item) →
      ∃ file, rewriteXrdpConfig lowering arguments.val source target = (.ok (), some file) := by
  intro writes
  obtain ⟨file, run⟩ := writes asciiLowering (benchLines true true) (writeLines installedLines)
    none (installed_assigned true true)
  rw [rewriteXrdpConfig, rewrite_exclusive _ _ _ rfl rfl] at run
  simp at run

end XrdpConsole.ConfigEdit
