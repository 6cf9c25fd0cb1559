import XrdpConsole.Library.WireFields

/-!
# Streams with an end that is set

A stream has a position and an end that the reader may set anywhere. Checks look at the end only, so
what is read may lie outside of the bytes; such a read has no value.
-/

namespace XrdpConsole.Library

set_option autoImplicit false

structure ByteStream where
  bytes : List UInt8
  pos : Int
  stop : Int
  deriving DecidableEq, Repr

namespace ByteStream

def checkRem (s : ByteStream) (count : Int) : Bool := s.pos + count ≤ s.stop

def skip (s : ByteStream) (count : Int) : ByteStream := { s with pos := s.pos + count }

def inUint (s : ByteStream) (width : Nat) : Option (Int × ByteStream) :=
  if 0 ≤ s.pos ∧ s.pos + width ≤ s.bytes.length then
    some (littleEndian ((s.bytes.drop s.pos.toNat).take width), s.skip width)
  else none

/-- A stream over all of its bytes. -/
def ofBytes (bytes : List UInt8) : ByteStream where
  bytes := bytes
  pos := 0
  stop := bytes.length

/-- These bytes are the ones from the position on. -/
def At (s : ByteStream) (ahead : List UInt8) : Prop :=
  ∃ front, s.bytes = front ++ ahead ∧ s.pos = front.length

theorem at_of_bytes (bytes : List UInt8) : (ofBytes bytes).At bytes := ⟨[], rfl, rfl⟩

theorem at_stop {s : ByteStream} {ahead : List UInt8} (here : s.At ahead) (stop : Int) :
    At { s with stop := stop } ahead := here

/-- The position is moved behind the first part of what is ahead. -/
theorem at_skip {s : ByteStream} {part rest : List UInt8} (here : s.At (part ++ rest)) :
    (s.skip part.length).At rest := by
  obtain ⟨front, bytes, pos⟩ := here
  refine ⟨front ++ part, ?_, ?_⟩
  · rw [List.append_assoc]
    exact bytes
  · simp only [skip, pos, List.length_append, Int.natCast_add]

theorem skip_skip (s : ByteStream) (count more : Int) :
    (s.skip count).skip more = s.skip (count + more) := by
  simp only [skip, Int.add_assoc]

@[simp] theorem skip_stop (s : ByteStream) (count : Int) : (s.skip count).stop = s.stop := rfl

@[simp] theorem skip_pos (s : ByteStream) (count : Int) : (s.skip count).pos = s.pos + count := rfl

theorem in_uint_at {s : ByteStream} {part rest : List UInt8} (here : s.At (part ++ rest)) :
    s.inUint part.length = some ((littleEndian part : Int), s.skip part.length) := by
  obtain ⟨front, bytes, pos⟩ := here
  have place : s.pos.toNat = front.length := by omega
  have room : 0 ≤ s.pos ∧ s.pos + part.length ≤ s.bytes.length := by
    rw [bytes]
    simp only [List.length_append]
    omega
  have ahead : (s.bytes.drop s.pos.toNat).take part.length = part := by
    rw [bytes, place, List.drop_left, List.take_left]
  rw [inUint, if_pos room, ahead]

theorem in_uint_enough {s : ByteStream} {ahead : List UInt8} {width : Nat} (here : s.At ahead)
    (enough : width ≤ ahead.length) :
    s.inUint width = some ((littleEndian (ahead.take width) : Int), s.skip width) ∧
      (s.skip width).At (ahead.drop width) := by
  have length : (ahead.take width).length = width := by
    rw [List.length_take]
    omega
  rw [← List.take_append_drop width ahead] at here
  have value := in_uint_at here
  have behind := at_skip here
  rw [length] at value behind
  exact ⟨value, behind⟩

theorem in_uint_short {s : ByteStream} {ahead : List UInt8} {width : Nat} (here : s.At ahead)
    (short : ahead.length < width) : s.inUint width = none := by
  obtain ⟨front, bytes, pos⟩ := here
  have outside : ¬(0 ≤ s.pos ∧ s.pos + width ≤ s.bytes.length) := by
    rw [bytes, List.length_append]
    omega
  rw [inUint, if_neg outside]

/-- A field ahead is read as the number it holds. -/
theorem in_field {s : ByteStream} {field : Field} {rest : List UInt8}
    (here : s.At (field.bytes ++ rest)) :
    s.inUint field.width = some (field.held, s.skip field.width) := by
  have value := in_uint_at here
  rwa [field.bytes_length, field.little_endian_bytes] at value

theorem at_field {s : ByteStream} {field : Field} {rest : List UInt8}
    (here : s.At (field.bytes ++ rest)) : (s.skip field.width).At rest := by
  have after := at_skip here
  rwa [field.bytes_length] at after

/-- The first of some fields ahead is read, and the others are ahead. -/
theorem in_next_field {s : ByteStream} {field : Field} {fields : List Field} {rest : List UInt8}
    (here : s.At (fieldBytes (field :: fields) ++ rest)) :
    s.inUint field.width = some (field.held, s.skip field.width) ∧
      (s.skip field.width).At (fieldBytes fields ++ rest) := by
  rw [field_bytes_cons, List.append_assoc] at here
  exact ⟨in_field here, at_field here⟩

end ByteStream

end XrdpConsole.Library
