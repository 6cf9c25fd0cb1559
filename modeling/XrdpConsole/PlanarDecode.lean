import XrdpConsole.Library.PrefixDecoder
import XrdpConsole.PlanarCompress

/-!
# The planar format

What a client makes of a planar bitmap: control bytes that give a number of raw
values and the length of the run after them, lines of deltas to the line above,
and four planes for the alpha, red, green and blue bytes of the pixels. Nothing
here is translated from the source, which only writes the format.
-/

namespace XrdpConsole.PlanarDecode

open XrdpConsole.Library
open XrdpConsole.VncState
open XrdpConsole.PlanarCompress

set_option autoImplicit false

/-- The raw values and the run a control byte announces. A run of one or two
stands for a long run without raw values. -/
def controlLengths (control : Byte) : Nat × Nat :=
  let raw := control.toNat >>> 4
  let run := control.toNat &&& 0xF
  if run = 1 then (0, raw + 16)
  else if run = 2 then (0, raw + 32)
  else (raw, run)

/-- Decodes the next `width` values of a line; `last` is the value before them.
`fuel` bounds the control bytes. -/
def decodeLine : Nat → Nat → Byte → PrefixDecoder Byte (List Byte)
  | _, 0, _, input => some ([], input)
  | 0, _ + 1, _, _ => none
  | _ + 1, _ + 1, _, [] => none
  | fuel + 1, width + 1, last, control :: input =>
      let (raw, run) := controlLengths control
      let rawValues := input.take raw
      let values := rawValues ++ List.replicate run (rawValues.getLastD last)
      if rawValues.length = raw ∧ 0 < raw + run ∧ raw + run ≤ width + 1 then
        (decodeLine fuel (width + 1 - (raw + run)) (values.getLastD last) (input.drop raw)).map
          fun (line, rest) => (values ++ line, rest)
      else
        none

def undeltaOne (above code : Byte) : Byte :=
  above + if code &&& 1 = 0 then code >>> 1 else -((code >>> 1) + 1)

def undeltaLines : List Byte → List (List Byte) → List (List Byte)
  | _, [] => []
  | above, codes :: rest =>
      let line := List.zipWith undeltaOne above codes
      line :: undeltaLines line rest

def undelta : List (List Byte) → List (List Byte)
  | [] => []
  | first :: rest => first :: undeltaLines first rest

def decodePlane (width height : Nat) : PrefixDecoder Byte (List (List Byte)) := fun input =>
  (decodeMany (decodeLine width width 0) height input).map fun (codes, rest) => (undelta codes, rest)

def decodeRawLine (width : Nat) : PrefixDecoder Byte (List Byte) := fun input =>
  if width ≤ input.length then some (input.take width, input.drop width) else none

def joinPixels : List Byte → List Byte → List Byte → List Byte → List Pixel
  | a :: as, r :: rs, g :: gs, b :: bs => { b, g, r, a } :: joinPixels as rs gs bs
  | _, _, _, _ => []

def joinPlanes : List (List Byte) → List (List Byte) → List (List Byte) → List (List Byte) →
    List (List Pixel)
  | a :: as, r :: rs, g :: gs, b :: bs => joinPixels a r g b :: joinPlanes as rs gs bs
  | _, _, _, _ => []

/-- The lines of a bitmap, the top one first. Without an alpha plane every pixel
is opaque. -/
def joinBitmap : List (List (List Byte)) → Option (List (List Pixel))
  | [a, r, g, b] => some (joinPlanes a r g b)
  | [r, g, b] => some (joinPlanes (r.map (List.map fun _ => 0xFF)) r g b)
  | _ => none

def decodeBitmap (width height : Nat) : List Byte → Option (List (List Pixel))
  | [] => none
  | header :: input =>
      let planes := if header.toNat &&& flagsNoalpha ≠ 0 then 3 else 4
      let plane := if header.toNat &&& flagsRle ≠ 0 then decodePlane width height
        else decodeMany (decodeRawLine width) height
      (decodeMany plane planes input).bind fun (planes, _) => joinBitmap planes

end XrdpConsole.PlanarDecode
