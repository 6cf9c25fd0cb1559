import Mathlib.Data.List.Induction
import XrdpConsole.Library.LineText

/-!
# The stream behind the line reader

`LineReader` of `xrdp_vnc_bench.py` on any stream of bytes and for any sequence of calls. A
call that reads the end of the file returns the bytes that are left and leaves them in the
buffer, so that the next such call returns them again.
-/

namespace XrdpConsole.LineReader

open XrdpConsole.Library

set_option autoImplicit false

abbrev Byte := UInt8

def newline : Byte := 10

/-! ## The source function -/

/-- The buffer, and the bytes of the stream that have not been read. -/
@[ext] structure Reader where
  buffer : List Byte
  unread : List Byte
  deriving DecidableEq, Repr

/-- How a turn of the loop goes on that finds no line: the time is up, nothing comes in the time
that is left, or `select` finds the stream ready. It has then `count + 1` bytes, if there are so
many, or is at its end. -/
inductive Poll where
  | expired
  | notReady
  | ready (count : Nat)
  deriving DecidableEq, Repr

/-- The value of a call, and whether `os.read` found the end of the file in it. -/
structure Returned where
  value : List Byte
  atEnd : Bool
  deriving DecidableEq, Repr

/-- `readline`. A call whose turns are used up has run out of time. -/
def readline : List Poll → Reader → Returned × Reader
  | [], self =>
      match cutLine newline self.buffer with
      | some (line, left) => ({ value := line, atEnd := false }, { self with buffer := left })
      | none => ({ value := [], atEnd := false }, self)
  | poll :: polls, self =>
      match cutLine newline self.buffer with
      | some (line, left) => ({ value := line, atEnd := false }, { self with buffer := left })
      | none =>
          match poll with
          | .expired | .notReady => ({ value := [], atEnd := false }, self)
          | .ready count =>
              let chunk := self.unread.take (min (count + 1) 4096)
              if chunk = [] then
                ({ value := self.buffer, atEnd := true }, self)
              else
                readline polls
                  { buffer := self.buffer ++ chunk
                    unread := self.unread.drop (min (count + 1) 4096) }

/-! ## One call -/

/-- What a call does. -/
inductive Outcome (before : Reader) : Returned → Reader → Prop where
  | line {value : List Byte} {after : Reader} : Ended newline value →
      value ++ (after.buffer ++ after.unread) = before.buffer ++ before.unread →
      Outcome before { value, atEnd := false } after
  | late {after : Reader} : after.buffer ++ after.unread = before.buffer ++ before.unread →
      after.unread.length ≤ before.unread.length →
      Outcome before { value := [], atEnd := false } after
  | ended {after : Reader} : after.buffer = before.buffer ++ before.unread → after.unread = [] →
      newline ∉ after.buffer → Outcome before { value := after.buffer, atEnd := true } after

theorem outcome_after_read {before middle after : Reader} {returned : Returned}
    (outcome : Outcome middle returned after)
    (same : middle.buffer ++ middle.unread = before.buffer ++ before.unread)
    (fewer : middle.unread.length ≤ before.unread.length) : Outcome before returned after := by
  cases outcome with
  | line ended whole => exact .line ended (whole.trans same)
  | late whole short => exact .late (whole.trans same) (short.trans fewer)
  | ended whole none_left fresh => exact .ended (whole.trans same) none_left fresh

theorem readline_outcome (polls : List Poll) (self : Reader) :
    Outcome self (readline polls self).1 (readline polls self).2 := by
  induction polls generalizing self with
  | nil =>
      unfold readline
      cases cut : cutLine newline self.buffer with
      | some found =>
          obtain ⟨ended, same⟩ := cut_line_some cut
          apply Outcome.line ended
          rw [same, List.append_assoc]
      | none => exact .late rfl le_rfl
  | cons poll polls ih =>
      unfold readline
      cases cut : cutLine newline self.buffer with
      | some found =>
          obtain ⟨ended, same⟩ := cut_line_some cut
          apply Outcome.line ended
          rw [same, List.append_assoc]
      | none =>
          cases poll with
          | expired => exact .late rfl le_rfl
          | notReady => exact .late rfl le_rfl
          | ready count =>
              simp only []
              split
              · rename_i none_read
                have none_left : self.unread = [] := by
                  rcases List.take_eq_nil_iff.mp none_read with zero | empty
                  · omega
                  · exact empty
                apply Outcome.ended
                · simp [none_left]
                · exact none_left
                · exact cut_line_none.mp cut
              · apply outcome_after_read (ih _)
                · rw [List.append_assoc, List.take_append_drop]
                · simp

/-! ## Sequences of calls -/

/-- The reader after some calls, and what they returned. -/
structure Session where
  reader : Reader
  returned : List Returned
  deriving DecidableEq, Repr

def Session.call (self : Session) (polls : List Poll) : Session where
  reader := (readline polls self.reader).2
  returned := self.returned ++ [(readline polls self.reader).1]

/-- The calls `calls` on a new reader of `stream`. -/
def session (stream : List Byte) (calls : List (List Poll)) : Session :=
  calls.foldl Session.call { reader := { buffer := [], unread := stream }, returned := [] }

/-- All that the calls returned, one after the other. -/
def output (stream : List Byte) (calls : List (List Poll)) : List Byte :=
  ((session stream calls).returned.map Returned.value).flatten

/-- The calls in which the end of the file was read. -/
def endings (stream : List Byte) (calls : List (List Poll)) : Nat :=
  (session stream calls).returned.countP Returned.atEnd

theorem session_concat (stream : List Byte) (calls : List (List Poll)) (polls : List Poll) :
    session stream (calls ++ [polls]) = (session stream calls).call polls := by
  rw [session, List.foldl_append, List.foldl_cons, List.foldl_nil, ← session]

/-- How far the calls have come: `lines` are the lines returned, and since the end of the file was
first read the rest has been returned `ends` times. -/
structure Progress (stream lines : List Byte) (ends : Nat) (current : Session) : Prop where
  whole : lines ++ (current.reader.buffer ++ current.reader.unread) = stream
  rest : unterminated newline stream =
    unterminated newline (current.reader.buffer ++ current.reader.unread)
  values : (current.returned.map Returned.value).flatten =
    lines ++ (List.replicate ends current.reader.buffer).flatten
  counted : current.returned.countP Returned.atEnd = ends
  exhausted : 0 < ends → current.reader.unread = [] ∧ newline ∉ current.reader.buffer

theorem progress_start (stream : List Byte) : Progress stream [] 0 (session stream []) where
  whole := rfl
  rest := rfl
  values := rfl
  counted := rfl
  exhausted := by simp

section Call

variable {stream lines : List Byte} {ends : Nat} {current : Session} {returned : Returned}
  {after : Reader}

/-- Once the end of the file was read a call leaves the reader as it is. -/
theorem outcome_exhausted {before : Reader} (outcome : Outcome before returned after)
    (none_left : before.unread = []) (fresh : newline ∉ before.buffer) :
    after = before ∧ (returned = { value := [], atEnd := false } ∨
      returned = { value := before.buffer, atEnd := true }) := by
  cases outcome with
  | line ended whole =>
      obtain ⟨body, -, rfl⟩ := ended
      rw [none_left, List.append_nil] at whole
      exact absurd (by simp [← whole]) fresh
  | late whole short =>
      have none_after : after.unread = [] := by
        rw [none_left] at short
        exact List.length_eq_zero_iff.mp (Nat.le_zero.mp short)
      rw [none_left, none_after, List.append_nil, List.append_nil] at whole
      exact ⟨Reader.ext whole (none_after.trans none_left.symm), .inl rfl⟩
  | ended whole none_after fresh_after =>
      rw [none_left, List.append_nil] at whole
      exact ⟨Reader.ext whole (none_after.trans none_left.symm), .inr (by rw [whole])⟩

theorem returned_values (current : Session) (returned : Returned) :
    ((current.returned ++ [returned]).map Returned.value).flatten =
      (current.returned.map Returned.value).flatten ++ returned.value := by
  simp

theorem returned_count (current : Session) (returned : Returned) :
    (current.returned ++ [returned]).countP Returned.atEnd =
      current.returned.countP Returned.atEnd + if returned.atEnd then 1 else 0 := by
  rw [List.countP_append, List.countP_singleton]

theorem progress_first (progress : Progress stream lines 0 current)
    (outcome : Outcome current.reader returned after) :
    ∃ more, Progress stream (lines ++ more) (if returned.atEnd then 1 else 0)
      { reader := after, returned := current.returned ++ [returned] } := by
  have values := returned_values current returned
  rw [progress.values, List.replicate_zero, List.flatten_nil, List.append_nil] at values
  have counted := returned_count current returned
  rw [progress.counted, Nat.zero_add] at counted
  cases outcome with
  | @line value _ ended whole =>
      refine ⟨value, ?_, ?_, ?_, counted, by simp⟩
      · rw [List.append_assoc, whole, progress.whole]
      · rw [progress.rest, ← whole, unterminated_line ended]
      · simpa using values
  | late whole short =>
      refine ⟨[], ?_, ?_, ?_, counted, by simp⟩
      · rw [List.append_nil, whole, progress.whole]
      · rw [progress.rest, whole]
      · simpa using values
  | ended whole none_left fresh =>
      refine ⟨[], ?_, ?_, ?_, counted, fun _ => ⟨none_left, fresh⟩⟩
      · rw [List.append_nil, none_left, List.append_nil, whole, progress.whole]
      · rw [progress.rest, none_left, List.append_nil, whole]
      · simpa using values

theorem progress_later (progress : Progress stream lines ends current) (some_end : 0 < ends)
    (outcome : Outcome current.reader returned after) :
    Progress stream lines (ends + if returned.atEnd then 1 else 0)
      { reader := after, returned := current.returned ++ [returned] } := by
  obtain ⟨none_left, fresh⟩ := progress.exhausted some_end
  have values := returned_values current returned
  have counted := returned_count current returned
  rw [progress.values] at values
  rw [progress.counted] at counted
  obtain ⟨rfl, rfl | rfl⟩ := outcome_exhausted outcome none_left fresh
  · exact ⟨progress.whole, progress.rest, by simpa using values, counted,
      fun _ => ⟨none_left, fresh⟩⟩
  · refine ⟨progress.whole, progress.rest, ?_, counted, fun _ => ⟨none_left, fresh⟩⟩
    rw [values, if_pos rfl, List.replicate_succ']
    simp

theorem progress_call (progress : Progress stream lines ends current) (polls : List Poll) :
    ∃ more, Progress stream (lines ++ more)
      (ends + if (readline polls current.reader).1.atEnd then 1 else 0) (current.call polls) := by
  have outcome := readline_outcome polls current.reader
  rcases Nat.eq_zero_or_pos ends with rfl | some_end
  · rw [Nat.zero_add]
    exact progress_first progress outcome
  · refine ⟨[], ?_⟩
    rw [List.append_nil]
    exact progress_later progress some_end outcome

end Call

theorem session_progress (stream : List Byte) (calls : List (List Poll)) :
    ∃ lines, Progress stream lines (endings stream calls) (session stream calls) := by
  induction calls using List.reverseRecOn with
  | nil => exact ⟨[], progress_start stream⟩
  | append_singleton calls polls ih =>
      obtain ⟨lines, progress⟩ := ih
      obtain ⟨more, next⟩ := progress_call progress polls
      rw [← session_concat] at next
      refine ⟨lines ++ more, ?_⟩
      rwa [endings, next.counted]

/-! ## The stream comes once -/

/-- A call that does not run out of time. -/
def patient (stream : List Byte) : List Poll := List.replicate (stream.length + 1) (.ready 0)

/-- At any time the values returned are the front of the stream, and all of it once the end of the
file was read; each is nothing, a line, or at the end of the file the rest. -/
structure DeliversOnce (stream : List Byte) (calls : List (List Poll)) : Prop where
  front : ∀ earlier, earlier <+: calls → output stream earlier <+: stream
  values : ∀ returned ∈ (session stream calls).returned, returned.value = [] ∨
    Ended newline returned.value ∨
      (returned.atEnd ∧ returned.value = unterminated newline stream)
  whole : ∀ earlier, earlier <+: calls → 0 < endings stream earlier →
    output stream earlier = stream
  enough : ∃ count, output stream (calls ++ List.replicate count (patient stream)) = stream

section Progress

variable {stream lines : List Byte} {ends : Nat} {current : Session}

theorem progress_rest (progress : Progress stream lines ends current) (some_end : 0 < ends) :
    current.reader.buffer = unterminated newline stream ∧ lines ++ current.reader.buffer = stream := by
  obtain ⟨none_left, fresh⟩ := progress.exhausted some_end
  have rest := progress.rest
  have whole := progress.whole
  rw [none_left, List.append_nil] at rest whole
  rw [unterminated_fresh fresh] at rest
  exact ⟨rest.symm, whole⟩

theorem progress_front (progress : Progress stream lines ends current)
    (once : unterminated newline stream = [] ∨ ends ≤ 1) :
    (current.returned.map Returned.value).flatten <+: stream ∧
      (0 < ends → (current.returned.map Returned.value).flatten = stream) := by
  rw [progress.values]
  rcases Nat.eq_zero_or_pos ends with rfl | some_end
  · rw [List.replicate_zero, List.flatten_nil, List.append_nil]
    exact ⟨⟨_, progress.whole⟩, by simp⟩
  · obtain ⟨rest, whole⟩ := progress_rest progress some_end
    have same : (List.replicate ends current.reader.buffer).flatten = current.reader.buffer := by
      rcases once with empty | single
      · simp [rest, empty]
      · obtain rfl : ends = 1 := by omega
        simp
    rw [same, whole]
    exact ⟨List.prefix_refl stream, fun _ => rfl⟩

theorem progress_again (progress : Progress stream lines ends current) (again : 1 < ends)
    (some_rest : unterminated newline stream ≠ []) :
    ¬(current.returned.map Returned.value).flatten <+: stream := by
  intro front
  obtain ⟨rest, whole⟩ := progress_rest progress (by omega)
  have length := front.length_le
  rw [progress.values, ← whole, List.length_append, List.length_append, List.length_flatten,
    List.map_replicate, List.sum_replicate_nat] at length
  have some_byte := List.length_pos_iff.mpr some_rest
  rw [← rest] at some_byte
  have twice : 2 * current.reader.buffer.length ≤ ends * current.reader.buffer.length :=
    Nat.mul_le_mul_right _ again
  omega

end Progress

theorem endings_concat (stream : List Byte) (calls : List (List Poll)) (polls : List Poll) :
    endings stream (calls ++ [polls]) = endings stream calls +
      if (readline polls (session stream calls).reader).1.atEnd then 1 else 0 := by
  rw [endings, session_concat]
  exact returned_count _ _

theorem endings_mono (stream : List Byte) {earlier calls : List (List Poll)}
    (sooner : earlier <+: calls) : endings stream earlier ≤ endings stream calls := by
  obtain ⟨later, rfl⟩ := sooner
  induction later using List.reverseRecOn with
  | nil => rw [List.append_nil]
  | append_singleton later polls ih =>
      rw [← List.append_assoc, endings_concat]
      omega

theorem session_values (stream : List Byte) (calls : List (List Poll)) :
    ∀ returned ∈ (session stream calls).returned, returned.value = [] ∨
      Ended newline returned.value ∨
        (returned.atEnd ∧ returned.value = unterminated newline stream) := by
  induction calls using List.reverseRecOn with
  | nil => simp [session]
  | append_singleton calls polls ih =>
      intro returned member
      rw [session_concat] at member
      rcases List.mem_append.mp member with earlier | here
      · exact ih returned earlier
      · rw [List.mem_singleton.mp here]
        obtain ⟨lines, progress⟩ := session_progress stream calls
        have outcome := readline_outcome polls (session stream calls).reader
        generalize (readline polls (session stream calls).reader).1 = returned at outcome
        generalize (readline polls (session stream calls).reader).2 = after at outcome
        cases outcome with
        | line ended whole => exact .inr (.inl ended)
        | late whole short => exact .inl rfl
        | ended whole none_left fresh =>
            refine .inr (.inr ⟨rfl, ?_⟩)
            rw [progress.rest, ← whole, unterminated_fresh fresh]

theorem patient_returns {polls : Nat} {self : Reader} (enough : self.unread.length < polls) :
    (readline (List.replicate polls (.ready 0)) self).1.atEnd = true ∨
      Ended newline (readline (List.replicate polls (.ready 0)) self).1.value := by
  induction polls generalizing self with
  | zero => omega
  | succ polls ih =>
      rw [List.replicate_succ]
      unfold readline
      cases cut : cutLine newline self.buffer with
      | some found => exact .inr (cut_line_some cut).1
      | none =>
          simp only []
          split
          · exact .inl rfl
          · rename_i some_read
            have some_left : self.unread ≠ [] := by
              rintro empty
              simp [empty] at some_read
            have positive := List.length_pos_iff.mpr some_left
            apply ih
            rw [List.length_drop]
            omega

/-- With enough patient calls the end of the file is read. -/
theorem patient_ends (stream : List Byte) (calls : List (List Poll)) (left : Nat)
    (none_ended : endings stream calls = 0)
    (bound : ((session stream calls).reader.buffer ++ (session stream calls).reader.unread).length ≤
      left) :
    ∃ count, endings stream (calls ++ List.replicate count (patient stream)) = 1 := by
  induction left using Nat.strong_induction_on generalizing calls with
  | _ left ih =>
      obtain ⟨lines, progress⟩ := session_progress stream calls
      have within := congrArg List.length progress.whole
      rw [List.length_append, List.length_append] at within
      have returns := @patient_returns (stream.length + 1) (session stream calls).reader (by omega)
      have next := endings_concat stream calls (patient stream)
      have outcome := readline_outcome (patient stream) (session stream calls).reader
      have reached := session_concat stream calls (patient stream)
      change (readline (patient stream) _).1.atEnd = true ∨
        Ended newline (readline (patient stream) _).1.value at returns
      cases atEnd : (readline (patient stream) (session stream calls).reader).1.atEnd with
      | true =>
          refine ⟨1, ?_⟩
          rw [List.replicate_one, next, none_ended, atEnd]
          rfl
      | false =>
          rw [none_ended, atEnd] at next
          have shorter : ((session stream (calls ++ [patient stream])).reader.buffer ++
              (session stream (calls ++ [patient stream])).reader.unread).length < left := by
            rw [reached, Session.call]
            simp only [atEnd, Bool.false_eq_true, false_or] at returns
            generalize (readline (patient stream) (session stream calls).reader).1 = returned at *
            generalize (readline (patient stream) (session stream calls).reader).2 = after at *
            cases outcome with
            | line ended whole =>
                have some_byte := List.length_pos_iff.mpr (ended_nonempty ended)
                rw [← whole, List.length_append] at bound
                simp only
                omega
            | late whole short => exact absurd rfl (ended_nonempty returns)
            | ended whole none_left fresh => simp at atEnd
          obtain ⟨count, ended⟩ := ih _ shorter (calls ++ [patient stream]) next le_rfl
          refine ⟨count + 1, ?_⟩
          rwa [List.replicate_succ, ← List.singleton_append, ← List.append_assoc]

/-- A stream is delivered once if and only if it ends with a newline or at most one of the calls
reads the end of the file. -/
theorem delivers_once_iff (stream : List Byte) (calls : List (List Poll)) :
    DeliversOnce stream calls ↔
      unterminated newline stream = [] ∨ endings stream calls ≤ 1 := by
  constructor
  · intro delivers
    by_contra again
    rw [not_or, Nat.not_le] at again
    obtain ⟨lines, progress⟩ := session_progress stream calls
    exact progress_again progress again.2 again.1 (delivers.front calls (List.prefix_refl calls))
  · intro once
    have fronts : ∀ earlier, earlier <+: calls → output stream earlier <+: stream ∧
        (0 < endings stream earlier → output stream earlier = stream) := by
      intro earlier sooner
      obtain ⟨lines, progress⟩ := session_progress stream earlier
      exact progress_front progress
        (once.imp_right (Nat.le_trans (endings_mono stream sooner)))
    refine ⟨fun earlier sooner => (fronts earlier sooner).1, session_values stream calls,
      fun earlier sooner => (fronts earlier sooner).2, ?_⟩
    rcases Nat.eq_zero_or_pos (endings stream calls) with none_ended | some_end
    · obtain ⟨count, ended⟩ := patient_ends stream calls _ none_ended le_rfl
      obtain ⟨lines, progress⟩ :=
        session_progress stream (calls ++ List.replicate count (patient stream))
      exact ⟨count, (progress_front progress (.inr ended.le)).2 (by omega)⟩
    · refine ⟨0, ?_⟩
      rw [List.replicate_zero, List.append_nil]
      exact (fronts calls (List.prefix_refl calls)).2 some_end

/-- Two calls at the end of a file with one byte return it twice. -/
theorem rest_returned_again :
    ¬DeliversOnce [97] [[.ready 0, .ready 0], [.ready 0]] := by
  intro delivers
  have front := delivers.front _ (List.prefix_refl _)
  revert front
  decide +kernel

end XrdpConsole.LineReader
