import Mathlib.Algebra.GroupWithZero.Nat
import Mathlib.Algebra.Ring.Int.Defs
import Mathlib.Tactic.Common

/-!
# Little-endian fields

A message as a row of fields, each a number in a given number of bytes, the least significant one
first. Reading fields of the same widths gives the values back, cut down to what their widths hold.
-/

namespace XrdpConsole.Library

set_option autoImplicit false

def littleEndian : List UInt8 → Nat
  | [] => 0
  | byte :: rest => byte.toNat + 256 * littleEndian rest

/-- The lowest `width` bytes of a number. -/
def toLittleEndian : Nat → Nat → List UInt8
  | 0, _ => []
  | width + 1, value => UInt8.ofNat (value % 256) :: toLittleEndian width (value / 256)

@[simp] theorem to_little_endian_length (width value : Nat) :
    (toLittleEndian width value).length = width := by
  induction width generalizing value with
  | zero => rfl
  | succ width ih => rw [toLittleEndian, List.length_cons, ih]

theorem little_endian_to (width value : Nat) :
    littleEndian (toLittleEndian width value) = value % 256 ^ width := by
  induction width generalizing value with
  | zero => simp [toLittleEndian, littleEndian, Nat.mod_one]
  | succ width ih =>
      have byte : (UInt8.ofNat (value % 256)).toNat = value % 256 := by
        rw [UInt8.toNat_ofNat']
        omega
      rw [toLittleEndian, littleEndian, ih, byte, Nat.pow_succ', Nat.mod_mul]

theorem little_endian_lt (bytes : List UInt8) : littleEndian bytes < 256 ^ bytes.length := by
  induction bytes with
  | nil => simp [littleEndian]
  | cons byte rest ih =>
      have small := byte.toNat_lt
      rw [littleEndian, List.length_cons, Nat.pow_succ']
      omega

theorem to_little_endian (bytes : List UInt8) :
    toLittleEndian bytes.length (littleEndian bytes) = bytes := by
  induction bytes with
  | nil => rfl
  | cons byte rest ih =>
      have small := byte.toNat_lt
      have low : (byte.toNat + 256 * littleEndian rest) % 256 = byte.toNat := by omega
      have high : (byte.toNat + 256 * littleEndian rest) / 256 = littleEndian rest := by omega
      rw [List.length_cons, littleEndian, toLittleEndian, low, high, ih, UInt8.ofNat_toNat]

structure Field where
  width : Nat
  value : Int
  deriving DecidableEq, Repr

namespace Field

def u8 (value : Int) : Field where
  width := 1
  value := value

def u16 (value : Int) : Field where
  width := 2
  value := value

def u32 (value : Int) : Field where
  width := 4
  value := value

/-- What the width of the field leaves of its value. -/
def held (field : Field) : Int := field.value % 256 ^ field.width

def Fits (field : Field) : Prop := 0 ≤ field.value ∧ field.value < 256 ^ field.width

theorem held_fits {field : Field} (fits : field.Fits) : field.held = field.value :=
  Int.emod_eq_of_lt fits.1 fits.2

def bytes (field : Field) : List UInt8 := toLittleEndian field.width field.held.toNat

@[simp] theorem bytes_length (field : Field) : field.bytes.length = field.width :=
  to_little_endian_length ..

theorem held_bounds (field : Field) : 0 ≤ field.held ∧ field.held < 256 ^ field.width := by
  have positive : (0 : Int) < 256 ^ field.width := Int.pow_pos (by decide)
  exact ⟨Int.emod_nonneg _ (Int.ne_of_gt positive), Int.emod_lt_of_pos _ positive⟩

theorem little_endian_bytes (field : Field) : (littleEndian field.bytes : Int) = field.held := by
  have bounds := field.held_bounds
  rw [bytes, little_endian_to]
  have whole : (field.held.toNat : Int) = field.held := Int.toNat_of_nonneg bounds.1
  have small : field.held.toNat < 256 ^ field.width := by
    have cast : ((256 ^ field.width : Nat) : Int) = 256 ^ field.width := by push_cast; rfl
    omega
  rw [Nat.mod_eq_of_lt small, whole]

end Field

def fieldBytes (fields : List Field) : List UInt8 := fields.flatMap Field.bytes

@[simp] theorem field_bytes_nil : fieldBytes [] = [] := rfl

@[simp] theorem field_bytes_cons (field : Field) (fields : List Field) :
    fieldBytes (field :: fields) = field.bytes ++ fieldBytes fields := List.flatMap_cons

@[simp] theorem field_bytes_append (front back : List Field) :
    fieldBytes (front ++ back) = fieldBytes front ++ fieldBytes back := List.flatMap_append

theorem field_bytes_length (fields : List Field) :
    (fieldBytes fields).length = (fields.map Field.width).sum := by
  induction fields with
  | nil => rfl
  | cons field fields ih => simp [ih]

/-- The numbers in fields of these widths, and the bytes behind them. -/
def readFields : List Nat → List UInt8 → Option (List Int × List UInt8)
  | [], input => some ([], input)
  | width :: widths, input =>
      if width ≤ input.length then
        (readFields widths (input.drop width)).map fun result =>
          ((littleEndian (input.take width) : Int) :: result.1, result.2)
      else none

/-- Any row of bytes is one of fields that fit. -/
theorem fields_of_bytes (widths : List Nat) (bytes : List UInt8) (length : bytes.length = widths.sum) :
    ∃ fields : List Field, fields.map Field.width = widths ∧ (∀ field ∈ fields, field.Fits) ∧
      fieldBytes fields = bytes := by
  induction widths generalizing bytes with
  | nil => exact ⟨[], rfl, by simp, (List.length_eq_zero_iff.mp length).symm⟩
  | cons width widths ih =>
      rw [List.sum_cons] at length
      have front : (bytes.take width).length = width := by
        rw [List.length_take]
        omega
      obtain ⟨fields, same, fits, behind⟩ := ih (bytes.drop width) (by rw [List.length_drop]; omega)
      have small := little_endian_lt (bytes.take width)
      rw [front] at small
      have here : Field.Fits { width := width, value := littleEndian (bytes.take width) } := by
        refine ⟨Int.natCast_nonneg _, ?_⟩
        change (littleEndian (bytes.take width) : Int) < 256 ^ width
        exact_mod_cast small
      refine ⟨{ width := width, value := littleEndian (bytes.take width) } :: fields, ?_, ?_, ?_⟩
      · rw [List.map_cons, same]
      · exact List.forall_mem_cons.mpr ⟨here, fits⟩
      · have written := to_little_endian (bytes.take width)
        rw [front] at written
        rw [field_bytes_cons, Field.bytes, Field.held_fits here, Int.toNat_natCast, written, behind,
          List.take_append_drop]

theorem read_fields_bytes (fields : List Field) (rest : List UInt8) :
    readFields (fields.map Field.width) (fieldBytes fields ++ rest) =
      some (fields.map Field.held, rest) := by
  induction fields with
  | nil => rfl
  | cons field fields ih =>
      have front : (field.bytes ++ (fieldBytes fields ++ rest)).take field.width = field.bytes := by
        rw [List.take_left' field.bytes_length]
      have back : (field.bytes ++ (fieldBytes fields ++ rest)).drop field.width =
          fieldBytes fields ++ rest := by
        rw [List.drop_left' field.bytes_length]
      rw [field_bytes_cons, List.append_assoc, List.map_cons, readFields,
        if_pos (by rw [List.length_append, field.bytes_length]; omega), front, back, ih]
      simp [field.little_endian_bytes]

/-- Fields of the same widths in front of the same bytes hold the same numbers. -/
theorem field_bytes_inj {fields others : List Field} {rest more : List UInt8}
    (widths : fields.map Field.width = others.map Field.width)
    (same : fieldBytes fields ++ rest = fieldBytes others ++ more) :
    fields.map Field.held = others.map Field.held ∧ rest = more := by
  have first := read_fields_bytes fields rest
  have second := read_fields_bytes others more
  rw [widths, same, second] at first
  obtain ⟨held, behind⟩ := Prod.mk.inj (Option.some.inj first)
  exact ⟨held.symm, behind.symm⟩

/-- Fields that fit are read back as they were. -/
theorem read_fields_fit {fields : List Field} (fits : ∀ field ∈ fields, field.Fits)
    (rest : List UInt8) :
    readFields (fields.map Field.width) (fieldBytes fields ++ rest) =
      some (fields.map Field.value, rest) := by
  have same : fields.map Field.held = fields.map Field.value := by
    apply List.map_congr_left
    intro field member
    exact Field.held_fits (fits field member)
  rw [read_fields_bytes, same]

/-- Fields and nothing behind them. -/
def readAll (widths : List Nat) (input : List UInt8) : Option (List Int) :=
  (readFields widths input).bind fun result => if result.2 = [] then some result.1 else none

theorem read_all_fit {fields : List Field} (fits : ∀ field ∈ fields, field.Fits) :
    readAll (fields.map Field.width) (fieldBytes fields) = some (fields.map Field.value) := by
  have whole := read_fields_fit fits []
  rw [List.append_nil] at whole
  rw [readAll, whole, Option.bind_some, if_pos rfl]

/-- A field whose top half stands for the negative numbers. -/
def signed (width : Nat) (value : Int) : Int :=
  if 2 * value < 256 ^ width then value else value - 256 ^ width

theorem signed_bounds {width : Nat} {value : Int} (bounds : 0 ≤ value ∧ value < 256 ^ width) :
    -(256 ^ width) ≤ 2 * signed width value ∧ 2 * signed width value < 256 ^ width := by
  unfold signed
  split
  · omega
  · omega

/-- The same bytes stand for both readings of a field. -/
theorem bytes_signed (width : Nat) (value : Int) :
    Field.bytes { width := width, value := signed width value } =
      Field.bytes { width := width, value := value } := by
  have same : Field.held { width := width, value := signed width value } =
      Field.held { width := width, value := value } := by
    unfold signed
    split
    · rfl
    · simp only [Field.held, Int.sub_emod_right]
  simp only [Field.bytes, same]

theorem signed_held (field : Field) (small : -(256 ^ field.width) ≤ 2 * field.value)
    (large : 2 * field.value < 256 ^ field.width) : signed field.width field.held = field.value := by
  have bounds := field.held_bounds
  have shift : field.held = field.value ∨ field.held = field.value + 256 ^ field.width := by
    by_cases negative : field.value < 0
    · right
      rw [Field.held, ← Int.add_emod_right]
      exact Int.emod_eq_of_lt (by omega) (by omega)
    · left
      exact Field.held_fits ⟨by omega, by omega⟩
  unfold signed
  rcases shift with same | moved
  · rw [if_pos (by omega), same]
  · rw [if_neg (by omega), moved]
    omega

end XrdpConsole.Library
