import Mathlib.Tactic.Common

/-!
# Decoders of a prefix

A decoder reads one value from the front of its input and hands back what it did
not read. Values written one after the other are read back in order.
-/

namespace XrdpConsole.Library

set_option autoImplicit false

variable {Symbol Value : Type}

abbrev PrefixDecoder (Symbol Value : Type) : Type := List Symbol → Option (Value × List Symbol)

def decodeMany (decode : PrefixDecoder Symbol Value) : Nat → PrefixDecoder Symbol (List Value)
  | 0, input => some ([], input)
  | count + 1, input =>
      (decode input).bind fun (value, afterValue) =>
        (decodeMany decode count afterValue).map fun (values, rest) => (value :: values, rest)

/-- What `encode` writes for each of `values` is read back as those values. -/
theorem decode_many_flat_map {Source : Type} (decode : PrefixDecoder Symbol Value)
    (encode : Source → List Symbol) (value : Source → Value) (values : List Source)
    (rest : List Symbol)
    (roundtrip : ∀ item ∈ values, ∀ suffix,
      decode (encode item ++ suffix) = some (value item, suffix)) :
    decodeMany decode values.length (values.flatMap encode ++ rest) =
      some (values.map value, rest) := by
  induction values with
  | nil => rfl
  | cons item values ih =>
      have tail := ih fun other member => roundtrip other (List.mem_cons_of_mem item member)
      simp only [List.flatMap_cons, List.append_assoc, List.length_cons, List.map_cons, decodeMany]
      rw [roundtrip item (List.mem_cons_self ..), Option.bind_some, tail, Option.map_some]

end XrdpConsole.Library
