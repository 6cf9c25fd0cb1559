import XrdpConsole.BenchHelpers
import Mathlib.Data.List.GetD

/-!
# What the helpers have written

Histories only grow, every line written is the answer to its request, and what has not been
read from a helper is the rest of its lines, in order: the buffer of the reader followed by
the pipe.
-/

namespace XrdpConsole.BenchPipes

open XrdpConsole.Library
open XrdpConsole.BenchHelpers

set_option autoImplicit false

variable {before after later : World}

/-! ## Growing histories -/

structure Grows (before after : Process) : Prop where
  begun : before.begun <+: after.begun
  ended : before.ended <+: after.ended
  written : before.written <+: after.written

structure Extends (before after : World) : Prop where
  mode : after.mode = before.mode
  now : before.now ≤ after.now
  process : ∀ helper, Grows (before.process helper) (after.process helper)
  looks : before.looks <+: after.looks

theorem grows_refl (process : Process) : Grows process process :=
  ⟨List.prefix_rfl, List.prefix_rfl, List.prefix_rfl⟩

theorem extends_refl (mm : World) : Extends mm mm :=
  ⟨rfl, le_rfl, fun _ => grows_refl _, List.prefix_rfl⟩

theorem extends_trans (first : Extends before after) (second : Extends after later) :
    Extends before later where
  mode := second.mode.trans first.mode
  now := first.now.trans second.now
  process helper :=
    { begun := (first.process helper).begun.trans (second.process helper).begun
      ended := (first.process helper).ended.trans (second.process helper).ended
      written := (first.process helper).written.trans (second.process helper).written }
  looks := first.looks.trans second.looks

@[simp] theorem change_process_self (mm : World) (helper : Helper) (change : Process → Process) :
    (mm.changeProcess helper change).process helper = change (mm.process helper) :=
  Function.update_self ..

theorem change_process_other {helper other : Helper} (mm : World) (change : Process → Process)
    (different : other ≠ helper) :
    (mm.changeProcess helper change).process other = mm.process other :=
  Function.update_of_ne different ..

theorem change_process_cases (mm : World) (helper : Helper) (change : Process → Process)
    (other : Helper) :
    other = helper ∧ (mm.changeProcess helper change).process other = change (mm.process helper) ∨
      other ≠ helper ∧ (mm.changeProcess helper change).process other = mm.process other := by
  by_cases same : other = helper
  · subst same
    exact .inl ⟨rfl, change_process_self ..⟩
  · exact .inr ⟨same, change_process_other mm change same⟩

theorem update_grows {process : Helper → Process} {helper : Helper} {changed : Process}
    (grows : Grows (process helper) changed) (other : Helper) :
    Grows (process other) (Function.update process helper changed other) := by
  by_cases same : other = helper
  · subst same
    rw [Function.update_self]
    exact grows
  · rw [Function.update_of_ne same]
    exact grows_refl _

theorem change_process_extends {mm : World} {helper : Helper} {change : Process → Process}
    (grows : Grows (mm.process helper) (change (mm.process helper))) :
    Extends mm (mm.changeProcess helper change) :=
  ⟨rfl, le_rfl, update_grows grows, List.prefix_rfl⟩

theorem take_up_extends (mm : World) (helper : Helper) (image : Option Pixel) :
    Extends mm (takeUp mm helper image) where
  mode := rfl
  now := le_rfl
  process := update_grows ⟨List.prefix_append .., List.prefix_rfl, List.prefix_rfl⟩
  looks := by
    simp only [takeUp, World.changeProcess]
    split
    · exact List.prefix_append ..
    · exact List.prefix_rfl

theorem happen_extends (mm : World) (event : Event) : Extends mm (happen mm event) := by
  cases event with
  | pass duration => exact ⟨rfl, Nat.le_add_right .., fun _ => grows_refl _, List.prefix_rfl⟩
  | begin helper =>
      simp only [happen]
      split
      · exact take_up_extends ..
      · exact extends_refl mm
  | imageFails =>
      simp only [happen]
      split
      · exact take_up_extends ..
      · exact extends_refl mm
  | finish helper render =>
      simp only [happen]
      split
      · exact change_process_extends ⟨List.prefix_rfl, List.prefix_append .., List.prefix_rfl⟩
      · exact extends_refl mm
  | print helper =>
      simp only [happen]
      split
      · exact change_process_extends ⟨List.prefix_rfl, List.prefix_rfl, List.prefix_append ..⟩
      · exact extends_refl mm
  | exit helper =>
      refine ⟨rfl, le_rfl, update_grows ?_, List.prefix_rfl⟩
      exact ⟨List.prefix_rfl, List.prefix_rfl, List.prefix_rfl⟩
  | «show» frame pixel =>
      simp only [happen]
      split
      · exact ⟨rfl, le_rfl, fun _ => grows_refl _, List.prefix_rfl⟩
      · exact extends_refl mm

theorem take_extends (mm : World) (label : Step) : Extends mm (take mm label) := by
  cases label with
  | event event => exact happen_extends mm event
  | write helper => exact ⟨rfl, le_rfl, fun _ => grows_refl _, List.prefix_rfl⟩
  | read helper =>
      refine ⟨rfl, le_rfl, update_grows ?_, List.prefix_rfl⟩
      exact ⟨List.prefix_rfl, List.prefix_rfl, List.prefix_rfl⟩
  | cut helper =>
      simp only [take]
      split
      · exact extends_refl mm
      · exact ⟨rfl, le_rfl, fun _ => grows_refl _, List.prefix_rfl⟩
  | await => exact ⟨rfl, le_rfl, fun _ => grows_refl _, List.prefix_rfl⟩

theorem get_prefix {Entry : Type} {front whole : List Entry} (grown : front <+: whole)
    {index : Nat} (old : index < front.length) (default : Entry) :
    whole.getD index default = front.getD index default := by
  obtain ⟨rest, rfl⟩ := grown
  exact List.getD_append front rest default index old

theorem begun_at_extends (grown : Extends before after) {helper : Helper} {request : Nat}
    (old : request < (before.process helper).begun.length) :
    after.begunAt helper request = before.begunAt helper request :=
  get_prefix (grown.process helper).begun old 0

theorem ended_at_extends (grown : Extends before after) {helper : Helper} {request : Nat}
    (old : request < (before.process helper).ended.length) :
    after.endedAt helper request = before.endedAt helper request :=
  get_prefix (grown.process helper).ended old _

theorem look_at_extends (grown : Extends before after) {request : Nat}
    (old : request < before.looks.length) : after.lookAt request = before.lookAt request :=
  get_prefix grown.looks old _

/-! ## Histories -/

/-- The histories of the helpers fit together: what is written has ended and what has ended
has begun, the lines written are the answers, and no clock reading is later than now. -/
structure Histories (mm : World) : Prop where
  ended_begun : ∀ helper, (mm.process helper).ended.length ≤ (mm.process helper).begun.length
  written_ended : ∀ helper, (mm.process helper).written.length ≤ (mm.process helper).ended.length
  looks_begun : mm.looks.length = (mm.process .probe).begun.length
  lines : ∀ helper request text, (mm.process helper).written[request]? = some text →
    text = record (mm.answer helper request)
  begun_now : ∀ helper, ∀ time ∈ (mm.process helper).begun, time ≤ mm.now
  ended_now : ∀ helper, ∀ done ∈ (mm.process helper).ended, done.time ≤ mm.now
  begun_ended : ∀ helper request, request < (mm.process helper).ended.length →
    mm.begunAt helper request ≤ (mm.endedAt helper request).time

/-- The answer to a request whose work is done does not change. -/
theorem answer_extends (law : Histories before) (grown : Extends before after) {helper : Helper}
    {request : Nat} (old : request < (before.process helper).ended.length) :
    after.answer helper request = before.answer helper request := by
  have began := lt_of_lt_of_le old (law.ended_begun helper)
  have same_begun := begun_at_extends grown began
  have same_ended := ended_at_extends grown old
  cases helper with
  | injector => simp only [World.answer, same_begun]
  | stimulus => simp only [World.answer, grown.mode, same_begun, same_ended]
  | probe =>
      have same_look := look_at_extends grown (by rw [law.looks_begun]; exact began)
      simp only [World.answer, same_look, same_ended]

theorem lines_extend (law : Histories before) (grown : Extends before after) {helper : Helper}
    {request : Nat} {text : Text} (old : (before.process helper).written[request]? = some text) :
    text = record (after.answer helper request) := by
  have inside := (List.getElem?_eq_some_iff.mp old).1
  rw [answer_extends law grown (lt_of_lt_of_le inside (law.written_ended helper))]
  exact law.lines helper request text old

theorem begun_ended_extend (law : Histories before) (grown : Extends before after)
    {helper : Helper} {request : Nat} (old : request < (before.process helper).ended.length) :
    after.begunAt helper request ≤ (after.endedAt helper request).time := by
  rw [begun_at_extends grown (lt_of_lt_of_le old (law.ended_begun helper)),
    ended_at_extends grown old]
  exact law.begun_ended helper request old

/-- What a step adds to the histories fits them. -/
theorem histories_step (law : Histories before) (grown : Extends before after)
    (lengths : ∀ helper,
      (after.process helper).ended.length ≤ (after.process helper).begun.length ∧
        (after.process helper).written.length ≤ (after.process helper).ended.length)
    (looks : after.looks.length = (after.process .probe).begun.length)
    (lines : ∀ helper request text, (after.process helper).written[request]? = some text →
      (before.process helper).written[request]? = some text ∨
        text = record (after.answer helper request))
    (begun : ∀ helper, ∀ time ∈ (after.process helper).begun,
      time ∈ (before.process helper).begun ∨ time ≤ after.now)
    (ended : ∀ helper, ∀ done ∈ (after.process helper).ended,
      done ∈ (before.process helper).ended ∨ done.time ≤ after.now)
    (stamps : ∀ helper request, request < (after.process helper).ended.length →
      request < (before.process helper).ended.length ∨
        after.begunAt helper request ≤ (after.endedAt helper request).time) :
    Histories after where
  ended_begun helper := (lengths helper).1
  written_ended helper := (lengths helper).2
  looks_begun := looks
  lines helper request text written := by
    rcases lines helper request text written with old | new
    · exact lines_extend law grown old
    · exact new
  begun_now helper time member := by
    rcases begun helper time member with old | new
    · exact (law.begun_now helper time old).trans grown.now
    · exact new
  ended_now helper done member := by
    rcases ended helper done member with old | new
    · exact (law.ended_now helper done old).trans grown.now
    · exact new
  begun_ended helper request inside := by
    rcases stamps helper request inside with old | new
    · exact begun_ended_extend law grown old
    · exact new

/-- A step that adds nothing to the histories. -/
theorem histories_idle (law : Histories before) (grown : Extends before after)
    (process : ∀ helper, (after.process helper).begun = (before.process helper).begun ∧
      (after.process helper).ended = (before.process helper).ended ∧
      (after.process helper).written = (before.process helper).written)
    (looks : after.looks = before.looks) : Histories after := by
  apply histories_step law grown
  · intro helper
    rw [(process helper).1, (process helper).2.1, (process helper).2.2]
    exact ⟨law.ended_begun helper, law.written_ended helper⟩
  · rw [looks, (process .probe).1]
    exact law.looks_begun
  · intro helper request text written
    rw [(process helper).2.2] at written
    exact .inl written
  · intro helper time member
    rw [(process helper).1] at member
    exact .inl member
  · intro helper done member
    rw [(process helper).2.1] at member
    exact .inl member
  · intro helper request inside
    rw [(process helper).2.1] at inside
    exact .inl inside

/-- A step of one helper. -/
theorem histories_change (helper : Helper) (law : Histories before) (grown : Extends before after)
    (others : ∀ other, other ≠ helper → after.process other = before.process other)
    (lengths : (after.process helper).ended.length ≤ (after.process helper).begun.length ∧
      (after.process helper).written.length ≤ (after.process helper).ended.length)
    (looks : after.looks.length = (after.process .probe).begun.length)
    (lines : ∀ request text, (after.process helper).written[request]? = some text →
      (before.process helper).written[request]? = some text ∨
        text = record (after.answer helper request))
    (begun : ∀ time ∈ (after.process helper).begun,
      time ∈ (before.process helper).begun ∨ time ≤ after.now)
    (ended : ∀ done ∈ (after.process helper).ended,
      done ∈ (before.process helper).ended ∨ done.time ≤ after.now)
    (stamps : ∀ request, request < (after.process helper).ended.length →
      request < (before.process helper).ended.length ∨
        after.begunAt helper request ≤ (after.endedAt helper request).time) :
    Histories after := by
  apply histories_step law grown _ looks
  · intro other
    by_cases same : other = helper
    · subst same
      exact lines
    · rw [others other same]
      exact fun _ _ => .inl
  · intro other
    by_cases same : other = helper
    · subst same
      exact begun
    · rw [others other same]
      exact fun _ => .inl
  · intro other
    by_cases same : other = helper
    · subst same
      exact ended
    · rw [others other same]
      exact fun _ => .inl
  · intro other
    by_cases same : other = helper
    · subst same
      exact stamps
    · rw [others other same]
      exact fun _ => .inl
  · intro other
    by_cases same : other = helper
    · subst same
      exact lengths
    · rw [others other same]
      exact ⟨law.ended_begun other, law.written_ended other⟩

theorem take_up_histories {helper : Helper} (law : Histories before) (image : Option Pixel) :
    Histories (takeUp before helper image) := by
  have ended := law.ended_begun helper
  have written := law.written_ended helper
  have looks := law.looks_begun
  apply histories_change helper law (take_up_extends before helper image)
    (fun _ different => Function.update_of_ne different ..)
  · rw [takeUp, change_process_self]
    simp only [List.length_append, List.length_singleton]
    omega
  · by_cases probing : helper = .probe
    · subst probing
      rw [takeUp, change_process_self]
      simpa [takeUp, World.changeProcess] using looks
    · rw [takeUp, change_process_other _ _ (Ne.symm probing)]
      simpa [World.changeProcess, probing] using looks
  · rw [takeUp, change_process_self]
    exact fun _ _ => .inl
  · rw [takeUp, change_process_self]
    intro time member
    rcases List.mem_append.mp member with old | new
    · exact .inl old
    · exact .inr (List.mem_singleton.mp new).le
  · rw [takeUp, change_process_self]
    exact fun _ => .inl
  · rw [takeUp, change_process_self]
    exact fun _ => .inl

theorem finish_histories {helper : Helper} (law : Histories before) (render : Nat)
    (able : CanFinish before helper) : Histories (happen before (.finish helper render)) := by
  have grown := happen_extends before (.finish helper render)
  rw [happen, if_pos able] at grown ⊢
  have unfinished := able.2
  have written := law.written_ended helper
  apply histories_change helper law grown
    (fun other different => change_process_other _ _ different)
  · rw [change_process_self]
    simp only [List.length_append, List.length_singleton]
    omega
  · by_cases probing : helper = .probe
    · subst probing
      rw [change_process_self]
      exact law.looks_begun
    · rw [change_process_other _ _ (Ne.symm probing)]
      exact law.looks_begun
  · rw [change_process_self]
    exact fun _ _ => .inl
  · rw [change_process_self]
    exact fun _ => .inl
  · rw [change_process_self]
    intro done member
    rcases List.mem_append.mp member with old | new
    · exact .inl old
    · rw [List.mem_singleton.mp new]
      exact .inr le_rfl
  · intro request inside
    rw [change_process_self, List.length_append, List.length_singleton] at inside
    by_cases old : request < (before.process helper).ended.length
    · exact .inl old
    · obtain rfl : request = (before.process helper).ended.length := by omega
      refine .inr ?_
      have began : (before.process helper).begun[(before.process helper).ended.length] ≤
          before.now := law.begun_now helper _ (List.getElem_mem unfinished)
      simpa [World.begunAt, World.endedAt, List.getD_eq_getElem?_getD, unfinished] using began

theorem print_histories {helper : Helper} (law : Histories before)
    (able : CanPrint before helper) : Histories (happen before (.print helper)) := by
  have grown := happen_extends before (.print helper)
  have same_answer := answer_extends law grown able.2
  rw [happen, if_pos able] at grown same_answer ⊢
  have unwritten := able.2
  have ended := law.ended_begun helper
  apply histories_change helper law grown
    (fun other different => change_process_other _ _ different)
  · rw [change_process_self]
    simp only [List.length_append, List.length_singleton]
    omega
  · by_cases probing : helper = .probe
    · subst probing
      rw [change_process_self]
      exact law.looks_begun
    · rw [change_process_other _ _ (Ne.symm probing)]
      exact law.looks_begun
  · intro request text written
    rw [change_process_self] at written
    by_cases old : request < (before.process helper).written.length
    · exact .inl (by simpa [List.getElem?_append_left old] using written)
    · have inside := (List.getElem?_eq_some_iff.mp written).1
      simp only [List.length_append, List.length_singleton] at inside
      obtain rfl : request = (before.process helper).written.length := by omega
      rw [same_answer]
      exact .inr (by simpa using written.symm)
  · rw [change_process_self]
    exact fun _ => .inl
  · rw [change_process_self]
    exact fun _ => .inl
  · rw [change_process_self]
    exact fun _ => .inl

theorem change_process_same (mm : World) (helper : Helper) (change : Process → Process)
    (same : ∀ process : Process, (change process).begun = process.begun ∧
      (change process).ended = process.ended ∧ (change process).written = process.written)
    (other : Helper) :
    ((mm.changeProcess helper change).process other).begun = (mm.process other).begun ∧
      ((mm.changeProcess helper change).process other).ended = (mm.process other).ended ∧
      ((mm.changeProcess helper change).process other).written = (mm.process other).written := by
  rcases change_process_cases mm helper change other with ⟨rfl, changed⟩ | ⟨-, unchanged⟩
  · rw [changed]
    exact same _
  · rw [unchanged]
    exact ⟨rfl, rfl, rfl⟩

theorem happen_histories (law : Histories before) (event : Event) :
    Histories (happen before event) := by
  have grown := happen_extends before event
  cases event with
  | pass duration => exact histories_idle law grown (fun _ => ⟨rfl, rfl, rfl⟩) rfl
  | begin helper =>
      simp only [happen]
      split
      · exact take_up_histories law _
      · exact law
  | imageFails =>
      simp only [happen]
      split
      · exact take_up_histories law _
      · exact law
  | finish helper render =>
      by_cases able : CanFinish before helper
      · exact finish_histories law render able
      · rw [happen, if_neg able]
        exact law
  | print helper =>
      by_cases able : CanPrint before helper
      · exact print_histories law able
      · rw [happen, if_neg able]
        exact law
  | exit helper =>
      have idle := change_process_same before helper (fun process => { process with closed := true })
        fun _ => ⟨rfl, rfl, rfl⟩
      exact histories_idle law grown idle rfl
  | «show» frame pixel =>
      simp only [happen] at grown ⊢
      split
      · rename_i able
        rw [if_pos able] at grown
        exact histories_idle law grown (fun _ => ⟨rfl, rfl, rfl⟩) rfl
      · exact law

theorem take_histories (law : Histories before) (label : Step) :
    Histories (take before label) := by
  have grown := take_extends before label
  cases label with
  | event event => exact happen_histories law event
  | write helper => exact histories_idle law grown (fun _ => ⟨rfl, rfl, rfl⟩) rfl
  | read helper =>
      have idle := change_process_same before helper
        (fun process => { process with pipe := process.pipe.drop 4096 }) fun _ => ⟨rfl, rfl, rfl⟩
      exact histories_idle law grown idle rfl
  | cut helper =>
      simp only [take] at grown ⊢
      split at grown
      · exact law
      · exact histories_idle law grown (fun _ => ⟨rfl, rfl, rfl⟩) rfl
  | await => exact histories_idle law grown (fun _ => ⟨rfl, rfl, rfl⟩) rfl

/-! ## Unread lines -/

theorem image_failed_word : Word imageFailed := by
  have plain : imageFailed.all (fun c => !isSpace c) = true := by decide
  exact ⟨by decide, by simpa only [List.all_eq_true, Bool.not_eq_true'] using plain⟩

theorem answer_words (mm : World) (helper : Helper) (request : Nat) :
    ∀ word ∈ mm.answer helper request, Word word := by
  intro word member
  cases helper with
  | injector =>
      rw [List.mem_singleton.mp member]
      exact decimal_word _
  | stimulus =>
      simp only [World.answer] at member
      split at member <;> simp only [List.mem_cons, List.not_mem_nil, or_false] at member <;>
        rcases member with rfl | rfl | rfl <;> exact decimal_word _
  | probe =>
      simp only [World.answer] at member
      split at member
      · rw [List.mem_singleton.mp member]
        exact image_failed_word
      · simp only [List.mem_cons, List.not_mem_nil, or_false] at member
        rcases member with rfl | rfl | rfl | rfl <;> exact decimal_word _

theorem written_ended_line (law : Histories before) {helper : Helper} {text : Text}
    (member : text ∈ (before.process helper).written) : Ended '\n' text := by
  obtain ⟨request, written⟩ := List.mem_iff_getElem?.mp member
  rw [law.lines helper request text written]
  exact record_ended _ (answer_words before helper request)

/-- What has not been read from a helper is the rest of its lines. -/
structure Stream (mm : World) (helper : Helper) : Prop where
  taken : mm.dealings.taken helper ≤ (mm.process helper).written.length
  unread : mm.buffer helper ++ (mm.process helper).pipe =
    ((mm.process helper).written.drop (mm.dealings.taken helper)).flatten

/-- A cut takes the next line, which is the answer to the next request. -/
theorem cut_next {helper : Helper} {line left : Text} (law : Histories before)
    (stream : Stream before helper) (cut : cutLine '\n' (before.buffer helper) = some (line, left)) :
    before.dealings.taken helper < (before.process helper).written.length ∧
      line = record (before.answer helper (before.dealings.taken helper)) ∧
      left ++ (before.process helper).pipe =
        ((before.process helper).written.drop (before.dealings.taken helper + 1)).flatten := by
  have ended : ∀ text ∈ (before.process helper).written.drop (before.dealings.taken helper),
      Ended '\n' text := fun text member => written_ended_line law (List.mem_of_mem_drop member)
  obtain ⟨rest, lines, final⟩ := cut_stream ended stream.unread cut
  have inside : before.dealings.taken helper < (before.process helper).written.length := by
    by_contra outside
    rw [List.drop_of_length_le (by omega)] at lines
    contradiction
  rw [List.drop_eq_getElem_cons inside, List.cons.injEq] at lines
  refine ⟨inside, ?_, by rw [lines.2]; exact final⟩
  apply law.lines
  rw [List.getElem?_eq_getElem inside, lines.1]

theorem stream_same {helper : Helper} (stream : Stream before helper)
    (written : (after.process helper).written = (before.process helper).written)
    (pipe : (after.process helper).pipe = (before.process helper).pipe)
    (buffer : after.buffer helper = before.buffer helper)
    (taken : after.dealings.taken helper = before.dealings.taken helper) : Stream after helper where
  taken := by
    rw [taken, written]
    exact stream.taken
  unread := by
    rw [buffer, pipe, written, taken]
    exact stream.unread

/-- A step of a process that neither writes nor reads. -/
theorem stream_process (streams : ∀ helper, Stream before helper) (helper : Helper)
    (change : Process → Process) (same : ∀ process : Process,
      (change process).written = process.written ∧ (change process).pipe = process.pipe)
    (other : Helper) : Stream (before.changeProcess helper change) other := by
  rcases change_process_cases before helper change other with ⟨rfl, changed⟩ | ⟨-, unchanged⟩
  · exact stream_same (streams other) (by rw [changed, (same _).1]) (by rw [changed, (same _).2])
      rfl rfl
  · exact stream_same (streams other) (by rw [unchanged]) (by rw [unchanged]) rfl rfl

theorem take_up_stream (streams : ∀ helper, Stream before helper) (helper : Helper)
    (image : Option Pixel) (other : Helper) : Stream (takeUp before helper image) other := by
  unfold takeUp
  refine stream_process ?_ helper (fun process => { process with begun := _ }) ?_ other
  · exact fun helper => ⟨(streams helper).taken, (streams helper).unread⟩
  · exact fun _ => ⟨rfl, rfl⟩

theorem print_stream (streams : ∀ helper, Stream before helper) (helper other : Helper)
    (text : Text) :
    Stream (before.changeProcess helper fun process =>
      { process with written := process.written ++ [text], pipe := process.pipe ++ text }) other := by
  have stream := streams other
  rcases change_process_cases before helper _ other with ⟨rfl, changed⟩ | ⟨-, unchanged⟩
  · constructor
    · rw [changed]
      simp only [List.length_append, List.length_singleton]
      exact stream.taken.trans (Nat.le_add_right ..)
    · rw [changed]
      change before.buffer other ++ ((before.process other).pipe ++ text) = _
      rw [← List.append_assoc, stream.unread]
      change _ = (((before.process other).written ++ [text]).drop
        (before.dealings.taken other)).flatten
      rw [List.drop_append_of_le_length stream.taken, List.flatten_append]
      simp
  · exact stream_same stream (by rw [unchanged]) (by rw [unchanged]) rfl rfl

theorem happen_stream (streams : ∀ helper, Stream before helper) (event : Event)
    (other : Helper) : Stream (happen before event) other := by
  cases event with
  | pass duration => exact stream_same (streams other) rfl rfl rfl rfl
  | begin helper =>
      simp only [happen]
      split
      · exact take_up_stream streams ..
      · exact streams other
  | imageFails =>
      simp only [happen]
      split
      · exact take_up_stream streams ..
      · exact streams other
  | finish helper render =>
      simp only [happen]
      split
      · refine stream_process streams helper _ ?_ other
        exact fun _ => ⟨rfl, rfl⟩
      · exact streams other
  | print helper =>
      simp only [happen]
      split
      · exact print_stream streams helper other _
      · exact streams other
  | exit helper =>
      simp only [happen]
      refine stream_process streams helper _ ?_ other
      exact fun _ => ⟨rfl, rfl⟩
  | «show» frame pixel =>
      simp only [happen]
      split
      · exact stream_same (streams other) rfl rfl rfl rfl
      · exact streams other

/-- Reading moves the front of the pipe to the end of the buffer. -/
theorem read_stream (streams : ∀ helper, Stream before helper) (helper other : Helper) :
    Stream (take before (.read helper)) other := by
  by_cases same : other = helper
  · subst same
    have stream := streams other
    constructor
    · simp only [take, change_process_self]
      exact stream.taken
    · simp only [take, change_process_self]
      change Function.update before.buffer other _ other ++ _ = _
      rw [Function.update_self, List.append_assoc, List.take_append_drop]
      exact stream.unread
  · exact stream_same (streams other) (by rw [take, change_process_other _ _ same])
      (by rw [take, change_process_other _ _ same]) (Function.update_of_ne same ..) rfl

theorem cut_stream_step (law : Histories before) (streams : ∀ helper, Stream before helper)
    (helper other : Helper) : Stream (take before (.cut helper)) other := by
  simp only [take]
  split
  · exact streams other
  · rename_i line left cut
    by_cases same : other = helper
    · subst same
      obtain ⟨inside, -, rest⟩ := cut_next law (streams other) cut
      constructor
      · simp only [Dealings.take, Function.update_self]
        exact inside
      · simp only [Dealings.take, Function.update_self]
        exact rest
    · exact stream_same (streams other) rfl rfl (Function.update_of_ne same ..)
        (Function.update_of_ne same ..)

theorem take_stream (law : Histories before) (streams : ∀ helper, Stream before helper)
    (label : Step) (other : Helper) : Stream (take before label) other := by
  cases label with
  | event event => exact happen_stream streams event other
  | write helper => exact stream_same (streams other) rfl rfl rfl rfl
  | read helper => exact read_stream streams helper other
  | cut helper => exact cut_stream_step law streams helper other
  | await => exact stream_same (streams other) rfl rfl rfl rfl

/-- At the end of a helper's output nothing of a line is left over. -/
theorem uncut_end {helper : Helper} (law : Histories before) (stream : Stream before helper)
    (ended : (before.process helper).pipe = [])
    (uncut : cutLine '\n' (before.buffer helper) = none) : before.buffer helper = [] := by
  have whole := stream.unread
  rw [ended, List.append_nil] at whole
  exact uncut_stream (fun text member => written_ended_line law (List.mem_of_mem_drop member))
    whole uncut

/-! ## Colours -/

/-- A pixel that shows a frame does not have the colour of the other marker. -/
def ShowsNoOther (mm : World) (frame : Option Nat) (image : Option Pixel) : Prop :=
  ∀ number ∈ frame, ∀ pixel ∈ image, pixel.matches (1 - markerState mm.mode number) = false

structure Lawful (mm : World) : Prop where
  histories : Histories mm
  streams : ∀ helper, Stream mm helper
  shown : ShowsNoOther mm mm.shown (some mm.pixel)
  looks : ∀ look ∈ mm.looks, ShowsNoOther mm look.frame look.image

theorem start_lawful (mode : Mode) (now : Nat) (pixel : Pixel) : Lawful (start mode now pixel) where
  histories := by constructor <;> simp [start]
  streams helper := by constructor <;> simp [start]
  shown := by simp [start, ShowsNoOther]
  looks := by simp [start]

theorem take_up_looks {helper : Helper} {image : Option Pixel} (law : Lawful before)
    (seen : ShowsNoOther before before.shown image) :
    ∀ look ∈ (takeUp before helper image).looks,
      ShowsNoOther before look.frame look.image := by
  intro look member
  simp only [takeUp, World.changeProcess] at member
  split at member
  · rcases List.mem_append.mp member with old | new
    · exact law.looks look old
    · rw [List.mem_singleton.mp new]
      exact seen
  · exact law.looks look member

theorem take_shown (law : Lawful before) (label : Step) :
    ShowsNoOther before (take before label).shown (some (take before label).pixel) := by
  have shown := law.shown
  cases label with
  | event event =>
      cases event with
      | «show» frame pixel =>
          simp only [take, happen]
          split
          · rename_i able
            intro number same image showing
            cases Option.mem_some_iff.mp same
            cases Option.mem_some_iff.mp showing
            exact able.2
          · exact shown
      | pass duration => exact shown
      | exit helper => exact shown
      | _ =>
          simp only [take, happen]
          split
          · exact shown
          · exact shown
  | cut helper =>
      simp only [take]
      split
      · exact shown
      · exact shown
  | _ => exact shown

theorem take_looks (law : Lawful before) (label : Step) :
    ∀ look ∈ (take before label).looks, ShowsNoOther before look.frame look.image := by
  have looks := law.looks
  cases label with
  | event event =>
      cases event with
      | begin helper =>
          simp only [take, happen]
          split
          · exact take_up_looks law law.shown
          · exact looks
      | imageFails =>
          simp only [take, happen]
          split
          · exact take_up_looks law (by simp [ShowsNoOther])
          · exact looks
      | pass duration => exact looks
      | exit helper => exact looks
      | _ =>
          simp only [take, happen]
          split
          · exact looks
          · exact looks
  | cut helper =>
      simp only [take]
      split
      · exact looks
      · exact looks
  | _ => exact looks

theorem take_lawful (law : Lawful before) (label : Step) : Lawful (take before label) where
  histories := take_histories law.histories label
  streams := take_stream law.histories law.streams label
  shown := by
    have shown := take_shown law label
    rwa [ShowsNoOther, ← (take_extends before label).mode] at shown
  looks look member := by
    have shown := take_looks law label look member
    rwa [ShowsNoOther, ← (take_extends before label).mode] at shown

theorem run_lawful {mode : Mode} {labels : List Step}
    (ran : System.Run (helpers mode) before labels after) (law : Lawful before) : Lawful after := by
  apply System.run_preserves Lawful _ ran law
  rintro middle label _ law rfl
  exact take_lawful law label

end XrdpConsole.BenchPipes
