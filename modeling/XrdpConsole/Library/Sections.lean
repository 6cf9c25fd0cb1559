import Mathlib.Data.List.Basic

/-!
# Lines in sections

A text whose lines belong to sections: a header opens one, and each line, the header itself
among them, is in the section opened last. A line is edited with the name of its section at
hand; an edit that leaves headers alone, and anything else no header, leaves every line in
its section. A reader may look for the first section of a name only.
-/

namespace XrdpConsole.Library

set_option autoImplicit false

variable {Line Name : Type} (header : Line → Option Name)

/-- The section that is open behind the lines. -/
def openSection : Name → List Line → Name
  | name, [] => name
  | name, line :: rest => openSection ((header line).getD name) rest

/-- The lines with the names of their sections. -/
def inSections : Name → List Line → List (Name × Line)
  | _, [] => []
  | name, line :: rest =>
      ((header line).getD name, line) :: inSections ((header line).getD name) rest

def editLines (edit : Name → Line → Line) (name : Name) (lines : List Line) : List Line :=
  (inSections header name lines).map fun entry => edit entry.1 entry.2

theorem in_sections_append (name : Name) (front back : List Line) :
    inSections header name (front ++ back) =
      inSections header name front ++ inSections header (openSection header name front) back := by
  induction front generalizing name with
  | nil => rfl
  | cons line front ih => simp [inSections, openSection, ih]

theorem edit_lines_append (edit : Name → Line → Line) (name : Name) (front back : List Line) :
    editLines header edit name (front ++ back) = editLines header edit name front ++
      editLines header edit (openSection header name front) back := by
  simp [editLines, in_sections_append]

variable {header}

theorem in_sections_plain {lines : List Line} (plain : ∀ line ∈ lines, header line = none)
    (name : Name) : inSections header name lines = lines.map fun line => (name, line) := by
  induction lines with
  | nil => rfl
  | cons line rest ih =>
      have here := plain line (List.mem_cons_self ..)
      simp [inSections, here, ih fun other member => plain other (List.mem_cons_of_mem line member)]

theorem open_section_plain {lines : List Line} (plain : ∀ line ∈ lines, header line = none)
    (name : Name) : openSection header name lines = name := by
  induction lines with
  | nil => rfl
  | cons line rest ih =>
      have here := plain line (List.mem_cons_self ..)
      simp [openSection, here, ih fun other member => plain other (List.mem_cons_of_mem line member)]

theorem in_sections_lines (name : Name) (lines : List Line) :
    (inSections header name lines).map Prod.snd = lines := by
  induction lines generalizing name with
  | nil => rfl
  | cons line rest ih => simp [inSections, ih]

theorem mem_in_sections {name : Name} {lines : List Line} {entry : Name × Line}
    (member : entry ∈ inSections header name lines) : entry.2 ∈ lines := by
  rw [← @in_sections_lines _ _ header name lines]
  exact List.mem_map_of_mem member

theorem mem_edit_lines {edit : Name → Line → Line} {name : Name} {lines : List Line} {line : Line}
    (member : line ∈ editLines header edit name lines) :
    ∃ opened, ∃ old ∈ lines, edit opened old = line := by
  obtain ⟨entry, listed, same⟩ := List.mem_map.mp member
  exact ⟨entry.1, entry.2, mem_in_sections listed, same⟩

theorem edit_lines_mem {name : Name} {lines : List Line} {old : Line} (listed : old ∈ lines)
    (edit : Name → Line → Line) : ∃ opened, edit opened old ∈ editLines header edit name lines := by
  rw [← @in_sections_lines _ _ header name lines] at listed
  obtain ⟨entry, member, rfl⟩ := List.mem_map.mp listed
  exact ⟨entry.1, List.mem_map.mpr ⟨entry, member, rfl⟩⟩

/-- A line is in the section that was open at the start, or in one that a header has opened. -/
theorem section_opened {name : Name} {lines : List Line} {entry : Name × Line}
    (member : entry ∈ inSections header name lines) :
    entry.1 = name ∨ ∃ line ∈ lines, header line = some entry.1 := by
  induction lines generalizing name with
  | nil => simp [inSections] at member
  | cons line rest ih =>
      rw [inSections, List.mem_cons] at member
      have opened : (header line).getD name = name ∨ header line = some ((header line).getD name) := by
        cases header line with
        | none => exact Or.inl rfl
        | some opened => exact Or.inr rfl
      have here : entry.1 = (header line).getD name ∨ ∃ other ∈ rest, header other = some entry.1 := by
        cases member with
        | inl same => exact Or.inl (by rw [same])
        | inr later => exact ih later
      cases here with
      | inl same =>
          rw [same]
          exact opened.imp_right fun found => ⟨line, List.mem_cons_self .., found⟩
      | inr later =>
          obtain ⟨other, listed, found⟩ := later
          exact Or.inr ⟨other, List.mem_cons_of_mem line listed, found⟩

section Edits

variable {edit : Name → Line → Line}
  (keeps : ∀ name line, header (edit name line) = header line)

include keeps

theorem in_sections_edit (name : Name) (lines : List Line) :
    inSections header name (editLines header edit name lines) =
      (inSections header name lines).map fun entry => (entry.1, edit entry.1 entry.2) := by
  induction lines generalizing name with
  | nil => rfl
  | cons line rest ih =>
      simp only [editLines] at ih
      simp [editLines, inSections, keeps, ih]

/-- An edit that changes nothing the second time changes no line when the lines are edited
again. -/
theorem edit_lines_again (settled : ∀ name line, edit name (edit name line) = edit name line)
    (name : Name) (lines : List Line) :
    editLines header edit name (editLines header edit name lines) =
      editLines header edit name lines := by
  rw [editLines, in_sections_edit keeps, List.map_map, editLines]
  apply List.map_congr_left
  intro entry _
  exact settled entry.1 entry.2

end Edits

/-! ## The first section of a name -/

section First

variable (header) (named : Name → Bool)

/-- The lines behind the first header of such a name, up to the next header. -/
def firstSection : List Line → Option (List Line)
  | [] => none
  | line :: rest =>
      if (header line).any named then
        some (rest.takeWhile fun line => (header line).isNone)
      else
        firstSection rest

variable {header named}

theorem first_section_map {Other : Type} (view : Other → Line) (lines : List Other) :
    firstSection header named (lines.map view) =
      (firstSection (fun line => header (view line)) named lines).map (List.map view) := by
  induction lines with
  | nil => rfl
  | cons line rest ih =>
      simp only [List.map_cons, firstSection, ih, List.takeWhile_map]
      split
      · rfl
      · rfl

theorem take_while_congr {Item : Type} {left right : Item → Bool} {items : List Item}
    (same : ∀ item ∈ items, left item = right item) : items.takeWhile left = items.takeWhile right := by
  induction items with
  | nil => rfl
  | cons item rest ih =>
      have tail := ih fun later member => same later (List.mem_cons_of_mem item member)
      simp only [List.takeWhile_cons, same item (List.mem_cons_self ..), tail]

theorem first_section_congr {other : Line → Option Name} {lines : List Line}
    (same : ∀ line ∈ lines, header line = other line) :
    firstSection header named lines = firstSection other named lines := by
  induction lines with
  | nil => rfl
  | cons line rest ih =>
      have tail := fun later member => same later (List.mem_cons_of_mem line member)
      have inner : rest.takeWhile (fun line => (header line).isNone) =
          rest.takeWhile fun line => (other line).isNone := by
        apply take_while_congr
        intro later member
        rw [tail later member]
      simp only [firstSection, same line (List.mem_cons_self ..), inner, ih tail]

/-- Lines that open no section may be left out before or after. -/
theorem first_section_filter {keep : Line → Bool} (dropped : ∀ line, keep line = false → header line = none)
    (lines : List Line) : firstSection header named (lines.filter keep) =
      (firstSection header named lines).map (List.filter keep) := by
  have inner : ∀ rest : List Line, (rest.filter keep).takeWhile (fun line => (header line).isNone) =
      (rest.takeWhile fun line => (header line).isNone).filter keep := by
    intro rest
    induction rest with
    | nil => rfl
    | cons line rest ih =>
        cases stays : keep line with
        | true => cases opened : header line <;> simp [stays, opened, ih]
        | false => simp [stays, dropped line stays, ih]
  induction lines with
  | nil => rfl
  | cons line rest ih =>
      cases stays : keep line with
      | true =>
          simp only [List.filter_cons_of_pos stays, firstSection, ih, inner]
          split
          · rfl
          · rfl
      | false => simp [stays, firstSection, dropped line stays, ih]

theorem first_section_subset {lines found : List Line}
    (first : firstSection header named lines = some found) : ∀ line ∈ found, line ∈ lines := by
  induction lines with
  | nil => contradiction
  | cons line rest ih =>
      intro other member
      rw [firstSection] at first
      split at first
      · rw [Option.some.injEq] at first
        rw [← first] at member
        exact List.mem_cons_of_mem line ((List.takeWhile_sublist _).subset member)
      · exact List.mem_cons_of_mem line (ih first other member)

end First

end XrdpConsole.Library
