import Mathlib.Algebra.Group.Nat.Defs
import Mathlib.Data.List.Induction
import Mathlib.Tactic.Common

/-!
# Numbers as bytes

The bytes of a number, the most significant one first, and the number that bytes stand for.
-/

namespace XrdpConsole.Library

set_option autoImplicit false

def bigEndian (bytes : List UInt8) : Nat :=
  bytes.foldl (fun value byte => value * 256 + byte.toNat) 0

/-- The last `width` bytes of a number. -/
def toBigEndian : Nat → Nat → List UInt8
  | 0, _ => []
  | width + 1, value => toBigEndian width (value / 256) ++ [UInt8.ofNat (value % 256)]

theorem big_endian_concat (bytes : List UInt8) (byte : UInt8) :
    bigEndian (bytes ++ [byte]) = bigEndian bytes * 256 + byte.toNat := by
  rw [bigEndian, List.foldl_append]
  rfl

@[simp] theorem to_big_endian_length (width value : Nat) : (toBigEndian width value).length = width := by
  induction width generalizing value with
  | zero => rfl
  | succ width ih => rw [toBigEndian, List.length_append, ih, List.length_singleton]

theorem big_endian_lt (bytes : List UInt8) : bigEndian bytes < 256 ^ bytes.length := by
  induction bytes using List.reverseRecOn with
  | nil => decide
  | append_singleton bytes byte ih =>
      have small := byte.toNat_lt
      rw [big_endian_concat, List.length_append, List.length_singleton, Nat.pow_succ]
      omega

theorem big_endian_to (width : Nat) {value : Nat} (fits : value < 256 ^ width) :
    bigEndian (toBigEndian width value) = value := by
  induction width generalizing value with
  | zero =>
      rw [Nat.pow_zero] at fits
      have zero : value = 0 := by omega
      rw [zero]
      rfl
  | succ width ih =>
      rw [Nat.pow_succ] at fits
      have last : (UInt8.ofNat (value % 256)).toNat = value % 256 := by
        rw [UInt8.toNat_ofNat']
        omega
      rw [toBigEndian, big_endian_concat, ih (by omega), last]
      omega

theorem to_big_endian (bytes : List UInt8) :
    toBigEndian bytes.length (bigEndian bytes) = bytes := by
  induction bytes using List.reverseRecOn with
  | nil => rfl
  | append_singleton bytes byte ih =>
      have small := byte.toNat_lt
      have front : (bigEndian bytes * 256 + byte.toNat) / 256 = bigEndian bytes := by omega
      have last : (bigEndian bytes * 256 + byte.toNat) % 256 = byte.toNat := by omega
      rw [List.length_append, List.length_singleton, toBigEndian, big_endian_concat, front, last, ih,
        UInt8.ofNat_toNat]

end XrdpConsole.Library
