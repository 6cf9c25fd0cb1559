import XrdpConsole.VncState

/-!
# Planar compression

`libxrdp/xrdp_bitmap32_compress.c`: the planes of a 32 bit bitmap, the deltas
between their lines, the run lengths of each line, and the choice of how many
lines fit the byte limit. A plane is held as the list of its lines, each `cx`
bytes long; streams are the bytes written to them.
-/

namespace XrdpConsole.PlanarCompress

open XrdpConsole.VncState

set_option autoImplicit false

def flagsRle : Nat := 0x10

def flagsNoalpha : Nat := 0x20

structure Pixel where
  b : Byte
  g : Byte
  r : Byte
  a : Byte
  deriving DecidableEq, Repr

def readPixels : Nat → List Byte → List Pixel
  | width + 1, b :: g :: r :: a :: rest => { b, g, r, a } :: readPixels width rest
  | _, _ => []

def appendLast (e : Nat) (line : List Byte) : List Byte :=
  line ++ List.replicate e (line.getLastD 0)

/-- The lines `fsplit3` and `fsplit4` visit, from `start_line` down to the first
one, until the next would not fit the 64 by 64 bytes of a plane. `lines` counts
those not visited yet. -/
def fsplitLines (width e : Nat) : Nat → Nat → List Nat
  | 0, _ => []
  | lines + 1, outIndex =>
      if outIndex + (width + e) + (width + e) > 64 * 64 then
        [lines]
      else
        lines :: fsplitLines width e lines (outIndex + (width + e))

def fsplit (inData : List Byte) (startLine width e : Nat) (channel : Pixel → Byte) :
    List (List Byte) :=
  (fsplitLines width e (startLine + 1) 0).map fun line =>
    appendLast e ((readPixels width (inData.drop (line * width * 4))).map channel)

def fsplit3 (inData : List Byte) (startLine width e : Nat) : List (List (List Byte)) :=
  [fsplit inData startLine width e Pixel.r, fsplit inData startLine width e Pixel.g,
    fsplit inData startLine width e Pixel.b]

def fsplit4 (inData : List Byte) (startLine width e : Nat) : List (List (List Byte)) :=
  [fsplit inData startLine width e Pixel.a, fsplit inData startLine width e Pixel.r,
    fsplit inData startLine width e Pixel.g, fsplit inData startLine width e Pixel.b]

/-- `DELTA_ONE`; `above` is `src8[0]` and `current` is `src8[cx]`. -/
def deltaOne (above current : Byte) : Byte :=
  let delta := current - above
  let isNeg := (delta >>> 7) &&& 1
  (((delta ^^^ (-isNeg)) + isNeg) <<< 1) - isNeg

def deltaLines : List Byte → List (List Byte) → List (List Byte)
  | _, [] => []
  | above, line :: rest => List.zipWith deltaOne above line :: deltaLines line rest

def fdelta : List (List Byte) → List (List Byte)
  | [] => []
  | first :: rest => first :: deltaLines first rest

/-- The second loop of `fout`: runs, the first of them after the bytes that are
left of `collen`. `fuel` bounds the rounds; each takes at least one byte. -/
def foutRuns : Nat → Nat → Nat → List Byte → List Byte
  | 0, _, _, _ => []
  | fuel + 1, collen, replen, colptr =>
      if collen > 0 ∨ replen > 0 then
        if collen = 0 ∧ replen > 15 then
          let lreplen := min replen 47
          let code := ((lreplen &&& 0xF) <<< 4) ||| ((lreplen &&& 0xF0) >>> 4)
          UInt8.ofNat code :: foutRuns fuel 0 (replen - lreplen) (colptr.drop lreplen)
        else
          let taken := min replen 15
          let lreplen := if taken < 3 then 0 else taken
          let collen := if taken < 3 then collen + taken else collen
          let code := (collen <<< 4) ||| lreplen
          UInt8.ofNat code :: colptr.take collen ++
            foutRuns fuel 0 (replen - taken) (colptr.drop (collen + lreplen))
      else
        []

/-- `fout`: its first loop writes the bytes of `collen` that are more than 13. -/
def fout : Nat → Nat → Nat → List Byte → List Byte
  | 0, _, _, _ => []
  | fuel + 1, collen, replen, colptr =>
      if collen > 13 then
        let lcollen := min collen 15
        UInt8.ofNat (lcollen <<< 4) :: colptr.take lcollen ++
          fout fuel (collen - lcollen) replen (colptr.drop lcollen)
      else
        foutRuns (fuel + replen + 1) collen replen colptr

/-- The inner loop of `fpack`: `current` is `ptr8[0]` and `rest` what follows it
on the line. -/
def packLoop : Nat → Nat → List Byte → Byte → List Byte → List Byte
  | collen, replen, colptr, _, [] => fout (collen + 1) collen replen colptr
  | collen, replen, colptr, current, next :: rest =>
      if current = next then
        packLoop collen (replen + 1) colptr next rest
      else if replen > 0 then
        if replen < 3 then
          packLoop (collen + replen + 1) 0 colptr next rest
        else
          fout (collen + 1) collen replen colptr ++ packLoop 1 0 (next :: rest) next rest
      else
        packLoop (collen + 1) 0 colptr next rest

/-- One line of `fpack`; the source only calls it for lines of at least one byte. -/
def packLine : List Byte → List Byte
  | [] => []
  | first :: rest =>
      if first = 0 then
        packLoop 0 1 (first :: rest) first rest
      else
        packLoop 1 0 (first :: rest) first rest

def fpack (plane : List (List Byte)) (cy : Nat) : List Byte :=
  (plane.take cy).flatMap packLine

/-- `foutraw3` and `foutraw4`; the last byte pads what is not run-length coded. -/
def foutraw (header : Nat) (planes : List (List (List Byte))) (cy : Nat) : List Byte :=
  UInt8.ofNat header :: planes.flatMap (fun plane => (plane.take cy).flatten) ++ [0]

/-- The run-length coded attempts, with fewer lines each time. `written` is what
the last attempt left in the stream. -/
def compressRle (header rawHeader cx byteLimit : Nat) (planes : List (List (List Byte))) :
    Nat → List Byte → Nat × List Byte
  | 0, written => (0, written)
  | cy + 1, _ =>
      let packed := (planes.map fdelta).flatMap fun plane => fpack plane (cy + 1)
      let maxBytes := cx * (cy + 1) * planes.length
      if packed.length > maxBytes ∧ 2 + maxBytes ≤ byteLimit then
        (cy + 1, foutraw rawHeader planes (cy + 1))
      else if 1 + packed.length ≤ byteLimit then
        (cy + 1, UInt8.ofNat header :: packed)
      else
        compressRle header rawHeader cx byteLimit planes cy (UInt8.ofNat header :: packed)

def compressRaw (rawHeader cx byteLimit : Nat) (planes : List (List (List Byte))) :
    Nat → Nat × List Byte
  | 0 => (0, [])
  | cy + 1 =>
      if 2 + cx * (cy + 1) * planes.length ≤ byteLimit then
        (cy + 1, foutraw rawHeader planes (cy + 1))
      else
        compressRaw rawHeader cx byteLimit planes cy

def compressPlanes (header rawHeader cx byteLimit : Nat) (planes : List (List (List Byte)))
    (cy : Nat) : Nat × List Byte :=
  if header &&& flagsRle ≠ 0 then
    compressRle header rawHeader cx byteLimit planes cy []
  else
    compressRaw rawHeader cx byteLimit planes cy

/-- `xrdp_bitmap32_compress`; `start_line` is not negative at any caller. -/
def xrdpBitmap32Compress (inData : List Byte) (width byteLimit startLine tempSize e flags : Nat) :
    Nat × List Byte :=
  if 4 * 1024 * 8 > tempSize then
    (0, [])
  else
    let header := flags &&& 0xFF
    let cy := (fsplitLines width e (startLine + 1) 0).length
    if header &&& flagsNoalpha ≠ 0 then
      compressPlanes header flagsNoalpha (width + e) byteLimit
        (fsplit3 inData startLine width e) cy
    else
      compressPlanes header 0 (width + e) byteLimit (fsplit4 inData startLine width e) cy

end XrdpConsole.PlanarCompress
