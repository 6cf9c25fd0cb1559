import Mathlib.Algebra.GroupWithZero.Nat
import XrdpConsole.Library.BigEndian
import XrdpConsole.Library.PrefixDecoder

/-!
# Frames of a WebSocket

What a frame is written as, with each of the three forms of its length and with or without a
mask, and a decoder of the next frame. The decoder reads back what is written, and reads nothing
else.
-/

namespace XrdpConsole.Library

set_option autoImplicit false

abbrev Octets := List UInt8

/-! ## Masks -/

/-- Every byte combined with the byte of the mask that its index selects. -/
def applyMask (mask payload : Octets) : Octets :=
  payload.mapIdx fun index value => value ^^^ mask.getD (index % 4) 0

@[simp] theorem apply_mask_length (mask payload : Octets) :
    (applyMask mask payload).length = payload.length :=
  List.length_mapIdx

@[simp] theorem apply_mask_twice (mask payload : Octets) :
    applyMask mask (applyMask mask payload) = payload := by
  rw [applyMask, applyMask, List.mapIdx_mapIdx]
  apply List.ext_getElem
  · simp
  · intro index _ _
    rw [List.getElem_mapIdx, Function.comp_apply, UInt8.xor_assoc, UInt8.xor_self, UInt8.xor_zero]

/-! ## Frames -/

/-- The length is in the second byte, or in two or eight bytes behind it. -/
inductive LengthForm where
  | short
  | medium
  | long

def LengthForm.bound : LengthForm → Nat
  | .short => 126
  | .medium => 256 ^ 2
  | .long => 256 ^ 8

structure Frame where
  /-- The first byte, with the opcode in its last four bits. -/
  first : UInt8
  form : LengthForm
  mask : Option Octets
  payload : Octets
  fits : payload.length < form.bound
  sized : ∀ bytes ∈ mask, bytes.length = 4

def Frame.opcode (self : Frame) : Nat := self.first.toNat &&& 0x0F

/-- What a reader is to make of a frame. -/
def Frame.message (self : Frame) : Nat × Octets := (self.opcode, self.payload)

def LengthForm.code (self : LengthForm) (length : Nat) : Nat :=
  match self with
  | .short => length
  | .medium => 126
  | .long => 127

def LengthForm.extended (self : LengthForm) (length : Nat) : Octets :=
  match self with
  | .short => []
  | .medium => toBigEndian 2 length
  | .long => toBigEndian 8 length

def Frame.second (self : Frame) : UInt8 :=
  UInt8.ofNat ((if self.mask.isSome then 128 else 0) + self.form.code self.payload.length)

def Frame.body (self : Frame) : Octets :=
  match self.mask with
  | none => self.payload
  | some mask => mask ++ applyMask mask self.payload

/-- What is behind the first two bytes. -/
def Frame.behindHeader (self : Frame) : Octets :=
  self.form.extended self.payload.length ++ self.body

def Frame.wire (self : Frame) : Octets := self.first :: self.second :: self.behindHeader

/-! ## The decoder -/

def takeExact (size : Nat) : PrefixDecoder UInt8 Octets := fun input =>
  if size ≤ input.length then some (input.take size, input.drop size) else none

def lengthBits (second : UInt8) : Nat := second.toNat &&& 0x7F

def isMasked (second : UInt8) : Bool := second.toNat &&& 0x80 != 0

def decodeLength (second : UInt8) : PrefixDecoder UInt8 Nat := fun input =>
  if lengthBits second = 126 then
    (takeExact 2 input).map fun (bytes, rest) => (bigEndian bytes, rest)
  else if lengthBits second = 127 then
    (takeExact 8 input).map fun (bytes, rest) => (bigEndian bytes, rest)
  else some (lengthBits second, input)

def decodeMask (second : UInt8) : PrefixDecoder UInt8 Octets :=
  takeExact (if isMasked second then 4 else 0)

/-- The payload as it was before it was masked, if it was. -/
def unmasked (second : UInt8) (mask payload : Octets) : Octets :=
  if isMasked second then applyMask mask payload else payload

def decodeFrame : PrefixDecoder UInt8 (Nat × Octets)
  | first :: second :: afterHeader =>
      (decodeLength second afterHeader).bind fun (length, afterLength) =>
        (decodeMask second afterLength).bind fun (mask, afterMask) =>
          (takeExact length afterMask).map fun (payload, rest) =>
            ((first.toNat &&& 0x0F, unmasked second mask payload), rest)
  | _ => none

/-! ## Bits of the second byte -/

theorem length_bits (second : UInt8) : lengthBits second = second.toNat % 128 := by
  rw [lengthBits]
  exact Nat.and_two_pow_sub_one_eq_mod second.toNat 7

theorem is_masked (second : UInt8) : isMasked second = decide (128 ≤ second.toNat) := by
  have all : ∀ byte : Fin 256, (byte.val &&& 0x80 != 0) = decide (128 ≤ byte.val) := by
    decide +kernel
  exact all ⟨second.toNat, second.toNat_lt⟩

theorem code_lt (frame : Frame) : frame.form.code frame.payload.length < 128 := by
  have fits := frame.fits
  cases form : frame.form with
  | short =>
      rw [form, LengthForm.bound] at fits
      rw [LengthForm.code]
      omega
  | medium => simp [LengthForm.code]
  | long => simp [LengthForm.code]

theorem second_number (frame : Frame) : frame.second.toNat =
    (if frame.mask.isSome then 128 else 0) + frame.form.code frame.payload.length := by
  have small := code_lt frame
  rw [Frame.second, UInt8.toNat_ofNat']
  split
  · omega
  · omega

theorem second_bits (frame : Frame) :
    lengthBits frame.second = frame.form.code frame.payload.length := by
  have small := code_lt frame
  rw [length_bits, second_number]
  split
  · omega
  · omega

theorem second_masked (frame : Frame) : isMasked frame.second = frame.mask.isSome := by
  have small := code_lt frame
  rw [is_masked, second_number]
  cases frame.mask with
  | none => simpa using small
  | some mask => simp

/-! ## What is written is read back -/

theorem take_exact_append (front rest : Octets) :
    takeExact front.length (front ++ rest) = some (front, rest) := by
  rw [takeExact, if_pos (by rw [List.length_append]; omega), List.take_left, List.drop_left]

theorem take_exact_some {size : Nat} {input front rest : Octets}
    (taken : takeExact size input = some (front, rest)) :
    input = front ++ rest ∧ front.length = size := by
  rw [takeExact] at taken
  split at taken
  · rename_i enough
    obtain ⟨rfl, rfl⟩ := Prod.mk.inj (Option.some.inj taken)
    rw [List.take_append_drop, List.length_take]
    exact ⟨rfl, by omega⟩
  · contradiction

theorem decode_length_extended (frame : Frame) (rest : Octets) :
    decodeLength frame.second (frame.form.extended frame.payload.length ++ rest) =
      some (frame.payload.length, rest) := by
  have fits := frame.fits
  rw [decodeLength, second_bits]
  cases form : frame.form with
  | short =>
      rw [form, LengthForm.bound] at fits
      have not_medium : frame.payload.length ≠ 126 := by omega
      have not_long : frame.payload.length ≠ 127 := by omega
      simp [LengthForm.code, LengthForm.extended, not_medium, not_long]
  | medium =>
      rw [form, LengthForm.bound] at fits
      have read := take_exact_append (toBigEndian 2 frame.payload.length) rest
      rw [to_big_endian_length] at read
      simp [LengthForm.code, LengthForm.extended, read, big_endian_to 2 fits]
  | long =>
      rw [form, LengthForm.bound] at fits
      have read := take_exact_append (toBigEndian 8 frame.payload.length) rest
      rw [to_big_endian_length] at read
      simp [LengthForm.code, LengthForm.extended, read, big_endian_to 8 fits]

theorem decode_mask_body (frame : Frame) (rest : Octets) :
    ∃ mask payload, decodeMask frame.second (frame.body ++ rest) = some (mask, payload ++ rest) ∧
      payload.length = frame.payload.length ∧
      unmasked frame.second mask payload = frame.payload := by
  have sized := frame.sized
  rw [decodeMask, second_masked, Frame.body]
  simp only [unmasked, second_masked]
  cases masked : frame.mask with
  | none => exact ⟨[], frame.payload, take_exact_append [] _, rfl, rfl⟩
  | some mask =>
      have size : mask.length = 4 := sized mask masked
      have read := take_exact_append mask (applyMask mask frame.payload ++ rest)
      rw [size] at read
      exact ⟨mask, applyMask mask frame.payload, by simpa using read, by simp, by simp⟩

/-- The decoder reads back what a frame is written as. -/
theorem decode_frame_wire (frame : Frame) (rest : Octets) :
    decodeFrame (frame.wire ++ rest) = some (frame.message, rest) := by
  obtain ⟨mask, payload, mask_read, size, plain⟩ := decode_mask_body frame rest
  have payload_read := take_exact_append payload rest
  rw [Frame.wire, List.cons_append, List.cons_append, decodeFrame, Frame.behindHeader,
    List.append_assoc, decode_length_extended, Option.bind_some]
  simp only [mask_read, Option.bind_some]
  rw [← size, payload_read, Option.map_some, plain]
  rfl

/-- Bytes begin with one frame at most. -/
theorem wire_front {frame other : Frame} {rest left : Octets}
    (same : frame.wire ++ rest = other.wire ++ left) :
    frame.message = other.message ∧ frame.wire = other.wire ∧ rest = left := by
  have read := decode_frame_wire frame rest
  rw [same, decode_frame_wire, Option.some.injEq, Prod.mk.injEq] at read
  rw [← read.2] at same
  exact ⟨read.1.symm, List.append_cancel_right same, read.2.symm⟩

/-! ## Nothing else is read -/

/-- The form that a second byte announces, with the bytes of the length. -/
theorem decode_length_some {second : UInt8} {length : Nat} {input rest : Octets}
    (read : decodeLength second input = some (length, rest)) :
    ∃ form : LengthForm, length < form.bound ∧ lengthBits second = form.code length ∧
      input = form.extended length ++ rest := by
  have small : lengthBits second < 128 := by
    rw [length_bits]
    omega
  rw [decodeLength] at read
  split at read
  · rename_i medium
    obtain ⟨⟨bytes, left⟩, taken, same⟩ := Option.map_eq_some_iff.mp read
    obtain ⟨rfl, rfl⟩ := Prod.mk.inj same
    obtain ⟨content, size⟩ := take_exact_some taken
    have bound := big_endian_lt bytes
    have back := to_big_endian bytes
    rw [size] at bound back
    exact ⟨.medium, bound, medium, by rw [content, LengthForm.extended, back]⟩
  · split at read
    · rename_i long
      obtain ⟨⟨bytes, left⟩, taken, same⟩ := Option.map_eq_some_iff.mp read
      obtain ⟨rfl, rfl⟩ := Prod.mk.inj same
      obtain ⟨content, size⟩ := take_exact_some taken
      have bound := big_endian_lt bytes
      have back := to_big_endian bytes
      rw [size] at bound back
      exact ⟨.long, bound, long, by rw [content, LengthForm.extended, back]⟩
    · obtain ⟨rfl, rfl⟩ := Prod.mk.inj (Option.some.inj read)
      exact ⟨.short, by rw [LengthForm.bound]; omega, rfl, rfl⟩

theorem second_of_bits {second : UInt8} {code : Nat} (bits : lengthBits second = code) :
    UInt8.ofNat ((if isMasked second then 128 else 0) + code) = second := by
  have small := second.toNat_lt
  rw [length_bits] at bits
  rw [← UInt8.toNat_inj, UInt8.toNat_ofNat', is_masked]
  simp only [decide_eq_true_eq]
  split
  · omega
  · omega

/-- Whatever the decoder reads is what a frame is written as. -/
theorem decode_frame_some {input rest : Octets} {message : Nat × Octets}
    (read : decodeFrame input = some (message, rest)) :
    ∃ frame : Frame, input = frame.wire ++ rest ∧ frame.message = message := by
  match input, read with
  | first :: second :: afterHeader, read =>
      rw [decodeFrame] at read
      obtain ⟨⟨length, afterLength⟩, length_read, read⟩ := Option.bind_eq_some_iff.mp read
      obtain ⟨⟨mask, afterMask⟩, mask_read, read⟩ := Option.bind_eq_some_iff.mp read
      obtain ⟨⟨payload, left⟩, payload_read, same⟩ := Option.map_eq_some_iff.mp read
      obtain ⟨rfl, rfl⟩ := Prod.mk.inj same
      obtain ⟨form, fits, bits, extended⟩ := decode_length_some length_read
      obtain ⟨mask_content, mask_size⟩ := take_exact_some mask_read
      obtain ⟨payload_content, payload_size⟩ := take_exact_some payload_read
      have second_back := second_of_bits bits
      cases masked : isMasked second with
      | true =>
          rw [masked, if_pos rfl] at mask_size second_back
          have size : (applyMask mask payload).length = length := by
            rw [apply_mask_length, payload_size]
          refine ⟨⟨first, form, some mask, applyMask mask payload, by rwa [size], ?_⟩, ?_, ?_⟩
          · intro bytes same
            rwa [← Option.some.inj same]
          · simp only [Frame.wire, Frame.behindHeader, Frame.second, Frame.body, size, Option.isSome_some, if_true,
              second_back, apply_mask_twice]
            rw [extended, mask_content, payload_content]
            simp
          · rw [unmasked, if_pos masked]
            rfl
      | false =>
          rw [masked, if_neg Bool.false_ne_true] at mask_size second_back
          have none : mask = [] := List.length_eq_zero_iff.mp mask_size
          refine ⟨⟨first, form, Option.none, payload, by rwa [payload_size], by simp⟩, ?_, ?_⟩
          · simp only [Frame.wire, Frame.behindHeader, Frame.second, Frame.body, payload_size, Option.isSome_none,
              Bool.false_eq_true, if_false, second_back]
            rw [extended, mask_content, payload_content, none]
            simp
          · rw [unmasked, if_neg (by simp [masked])]
            rfl

end XrdpConsole.Library
