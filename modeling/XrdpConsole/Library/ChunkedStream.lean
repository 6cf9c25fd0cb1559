import Mathlib.Tactic.Common

/-!
# Streams that arrive in chunks

A stream of elements that a producer delivers in pieces of any length. The head
of the list is the piece available now; an empty piece means that nothing is
available yet, and the empty list that the producer has closed the stream.
Readers see the pieces, but what a complete read returns depends only on their
concatenation.
-/

namespace XrdpConsole.Library

set_option autoImplicit false

variable {Element : Type}

/-- Takes what the first piece holds, at most `limit` elements. -/
def takeChunk (limit : Nat) : List (List Element) → List Element × List (List Element)
  | [] => ([], [])
  | chunk :: rest =>
      if chunk.length ≤ limit then
        (chunk, rest)
      else
        (chunk.take limit, chunk.drop limit :: rest)

/-- Reads exactly `size` elements, over as many pieces as that takes. -/
def readExact (size : Nat) : List (List Element) → Option (List Element × List (List Element))
  | [] => if size = 0 then some ([], []) else none
  | chunk :: rest =>
      if size = 0 then
        some ([], chunk :: rest)
      else if size < chunk.length then
        some (chunk.take size, chunk.drop size :: rest)
      else
        (readExact (size - chunk.length) rest).map
          fun (elements, left) => (chunk ++ elements, left)

theorem take_chunk_whole {limit : Nat} {chunk : List Element} (rest : List (List Element))
    (short : chunk.length ≤ limit) : takeChunk limit (chunk :: rest) = (chunk, rest) :=
  if_pos short

/-- A piece that holds the elements asked for gives just these. -/
theorem take_chunk_front (need extra : List Element) (rest : List (List Element)) :
    ∃ left, takeChunk need.length ((need ++ extra) :: rest) = (need, left) ∧
      left.flatten = extra ++ rest.flatten := by
  simp only [takeChunk]
  split
  · rename_i whole
    have none : extra = [] := by
      rw [List.length_append] at whole
      exact List.length_eq_zero_iff.mp (by omega)
    subst none
    exact ⟨rest, by rw [List.append_nil], rfl⟩
  · exact ⟨extra :: rest, by rw [List.take_left, List.drop_left], rfl⟩

/-- A complete read returns the first elements of the stream and leaves the others. -/
theorem read_exact_flatten (size : Nat) (stream left : List (List Element))
    (elements : List Element) (complete : readExact size stream = some (elements, left)) :
    stream.flatten = elements ++ left.flatten ∧ elements.length = size := by
  induction stream generalizing size elements with
  | nil =>
      simp only [readExact] at complete
      split at complete
      · simp_all
      · contradiction
  | cons chunk rest ih =>
      simp only [readExact] at complete
      split at complete
      · simp_all
      · split at complete
        · rename_i short
          obtain ⟨rfl, rfl⟩ : chunk.take size = elements ∧ chunk.drop size :: rest = left := by
            simpa using complete
          refine ⟨?_, by rw [List.length_take]; omega⟩
          rw [List.flatten_cons, List.flatten_cons, ← List.append_assoc, List.take_append_drop]
        · obtain ⟨⟨tail, final⟩, readRest, joined⟩ := Option.map_eq_some_iff.mp complete
          obtain ⟨rfl, rfl⟩ : chunk ++ tail = elements ∧ final = left := by simpa using joined
          obtain ⟨content, counted⟩ := ih _ _ readRest
          refine ⟨by rw [List.flatten_cons, content, List.append_assoc], ?_⟩
          rw [List.length_append]
          omega

/-- A stream that holds `size` elements can be read, however it is cut into pieces. -/
theorem read_exact_complete (size : Nat) (stream : List (List Element))
    (enough : size ≤ stream.flatten.length) :
    ∃ elements left, readExact size stream = some (elements, left) := by
  induction stream generalizing size with
  | nil => exact ⟨[], [], by simp_all [readExact]⟩
  | cons chunk rest ih =>
      simp only [readExact]
      split
      · exact ⟨_, _, rfl⟩
      · split
        · exact ⟨_, _, rfl⟩
        · rw [List.flatten_cons, List.length_append] at enough
          obtain ⟨elements, left, readRest⟩ := ih (size - chunk.length) (by omega)
          exact ⟨chunk ++ elements, left, by rw [readRest]; rfl⟩

/-- Two streams with the same content answer a complete read alike. -/
theorem read_exact_same (size : Nat) (stream other left : List (List Element))
    (elements : List Element) (same : stream.flatten = other.flatten)
    (complete : readExact size stream = some (elements, left)) :
    ∃ left', readExact size other = some (elements, left') ∧ left'.flatten = left.flatten := by
  obtain ⟨content, counted⟩ := read_exact_flatten size stream left elements complete
  have enough : size ≤ other.flatten.length := by
    rw [← same, content, List.length_append]
    omega
  obtain ⟨elements', left', complete'⟩ := read_exact_complete size other enough
  obtain ⟨content', counted'⟩ := read_exact_flatten size other left' elements' complete'
  have split : elements' = elements ∧ left'.flatten = left.flatten :=
    List.append_inj (by rw [← content', ← content, same]) (by rw [counted, counted'])
  exact ⟨left', by rw [complete', split.1], split.2⟩

/-! ## Positions -/

/-- Where the pieces of a stream that begins at `start` end. -/
def pieceEnds : Nat → List (List Element) → List Nat
  | _, [] => []
  | start, piece :: rest => (start + piece.length) :: pieceEnds (start + piece.length) rest

theorem piece_ends_shift (start : Nat) (pieces : List (List Element)) :
    pieceEnds start pieces = (pieceEnds 0 pieces).map (start + ·) := by
  induction pieces generalizing start with
  | nil => rfl
  | cons piece rest ih =>
      rw [pieceEnds, pieceEnds, ih, ih (0 + piece.length), List.map_cons, List.map_map]
      congr 1
      · omega
      · apply List.map_congr_left
        intro stop _
        simp only [Function.comp_apply]
        omega

theorem mem_piece_ends_cons {piece : List Element} {rest : List (List Element)} {stop : Nat} :
    stop ∈ pieceEnds 0 (piece :: rest) ↔
      stop = piece.length ∨ ∃ later ∈ pieceEnds 0 rest, piece.length + later = stop := by
  rw [pieceEnds, piece_ends_shift, Nat.zero_add, List.mem_cons, List.mem_map]

/-- What is left of a stream when `count` elements have been read. -/
def dropStream : Nat → List (List Element) → List (List Element)
  | 0, stream => stream
  | _ + 1, [] => []
  | count + 1, chunk :: rest =>
      if count + 1 < chunk.length then chunk.drop (count + 1) :: rest
      else dropStream (count + 1 - chunk.length) rest

theorem drop_stream_cons (count : Nat) (chunk : List Element) (rest : List (List Element)) :
    dropStream count (chunk :: rest) =
      if count < chunk.length ∨ count = 0 then chunk.drop count :: rest
      else dropStream (count - chunk.length) rest := by
  cases count with
  | zero => simp [dropStream]
  | succ count => simp [dropStream]

theorem drop_stream_none (stream : List (List Element)) : dropStream 0 stream = stream := by
  rw [dropStream.eq_def]

theorem drop_stream_nil (count : Nat) : dropStream count ([] : List (List Element)) = [] := by
  cases count with
  | zero => rfl
  | succ count => rfl

theorem drop_stream_flatten (count : Nat) (stream : List (List Element)) :
    (dropStream count stream).flatten = stream.flatten.drop count := by
  induction stream generalizing count with
  | nil => simp [drop_stream_nil]
  | cons chunk rest ih =>
      rw [drop_stream_cons, List.flatten_cons, List.drop_append]
      split
      · rename_i inside
        have early : count - chunk.length = 0 := by omega
        rw [early, List.flatten_cons, List.drop_zero]
      · rename_i outside
        have passed : chunk.drop count = [] := List.drop_eq_nil_of_le (by omega)
        rw [ih, passed, List.nil_append]

theorem drop_stream_add (first second : Nat) (stream : List (List Element)) :
    dropStream (first + second) stream = dropStream second (dropStream first stream) := by
  induction stream generalizing first with
  | nil => simp [drop_stream_nil]
  | cons chunk rest ih =>
      by_cases inside : first < chunk.length ∨ first = 0
      · rw [drop_stream_cons first, if_pos inside, drop_stream_cons, drop_stream_cons,
          List.length_drop, List.drop_drop]
        by_cases further : first + second < chunk.length ∨ first + second = 0
        · rw [if_pos further, if_pos (by omega)]
        · rw [if_neg further, if_neg (by omega)]
          congr 1
          omega
      · rw [drop_stream_cons first, if_neg inside, drop_stream_cons, if_neg (by omega), ← ih]
        congr 1
        omega

theorem drop_stream_some {stream : List (List Element)} (arrived : [] ∉ stream) (count : Nat) :
    [] ∉ dropStream count stream := by
  induction stream generalizing count with
  | nil => simp [drop_stream_nil]
  | cons chunk rest ih =>
      rw [List.mem_cons, not_or] at arrived
      rw [drop_stream_cons]
      split
      · rename_i inside
        rw [List.mem_cons, not_or]
        constructor
        · intro none
          have size := congrArg List.length none
          rw [List.length_drop, List.length_nil] at size
          have some_element := List.length_pos_iff.mpr (Ne.symm arrived.1)
          omega
        · exact arrived.2
      · exact ih arrived.2 _

/-- The pieces that are left end where they ended before. -/
theorem drop_stream_ends {stream : List (List Element)} (arrived : [] ∉ stream) (count stop : Nat) :
    stop ∈ pieceEnds 0 (dropStream count stream) ↔ 0 < stop ∧ count + stop ∈ pieceEnds 0 stream := by
  induction stream generalizing count with
  | nil => simp [drop_stream_nil, pieceEnds]
  | cons chunk rest ih =>
      rw [List.mem_cons, not_or] at arrived
      have some_element := List.length_pos_iff.mpr (Ne.symm arrived.1)
      rw [drop_stream_cons, mem_piece_ends_cons]
      split
      · rw [mem_piece_ends_cons, List.length_drop]
        constructor
        · rintro (here | ⟨later, listed, here⟩)
          · exact ⟨by omega, Or.inl (by omega)⟩
          · exact ⟨by omega, Or.inr ⟨later, listed, by omega⟩⟩
        · rintro ⟨_, here | ⟨later, listed, here⟩⟩
          · exact Or.inl (by omega)
          · exact Or.inr ⟨later, listed, by omega⟩
      · rw [ih arrived.2]
        apply and_congr_right
        intro _
        constructor
        · intro listed
          exact Or.inr ⟨_, listed, by omega⟩
        · rintro (here | ⟨later, listed, here⟩)
          · omega
          · have same : later = count - chunk.length + stop := by omega
            rwa [same] at listed

/-- A complete read returns what is in front and leaves the rest. -/
theorem read_exact_drop (size : Nat) (stream : List (List Element)) :
    readExact size stream =
      if size ≤ stream.flatten.length then some (stream.flatten.take size, dropStream size stream)
      else none := by
  induction stream generalizing size with
  | nil =>
      cases size with
      | zero => rfl
      | succ size => rfl
  | cons chunk rest ih =>
      rw [readExact, drop_stream_cons, List.flatten_cons, List.length_append, List.take_append]
      by_cases inside : size < chunk.length ∨ size = 0
      · have early : size - chunk.length = 0 := by omega
        have within : size ≤ chunk.length + rest.flatten.length := by omega
        rw [if_pos inside, early, List.take_zero, List.append_nil, if_pos within]
        split
        · rename_i nothing
          rw [nothing, List.take_zero, List.drop_zero]
        · rw [if_pos (by omega)]
      · have whole : chunk.take size = chunk := List.take_of_length_le (by omega)
        have same : size ≤ chunk.length + rest.flatten.length ↔
            size - chunk.length ≤ rest.flatten.length := by omega
        rw [if_neg (by omega), if_neg (by omega), if_neg inside, ih, whole]
        simp only [same]
        split
        · rfl
        · rfl

/-- A read of at most `limit` elements returns the first piece or the front of it. -/
theorem take_chunk_drop (limit : Nat) {chunk : List Element}
    (some_element : chunk ≠ []) (rest : List (List Element)) :
    takeChunk limit (chunk :: rest) =
      (chunk.take limit, dropStream (min limit chunk.length) (chunk :: rest)) := by
  have positive := List.length_pos_iff.mpr some_element
  rw [takeChunk, drop_stream_cons]
  split
  · rename_i whole
    rw [List.take_of_length_le whole, Nat.min_eq_right whole, if_neg (by omega), Nat.sub_self,
      dropStream]
  · rename_i longer
    rw [Nat.min_eq_left (by omega), if_pos (by omega)]

end XrdpConsole.Library
