import XrdpConsole.Library.PrefixDecoder
import XrdpConsole.Library.Reassembly
import XrdpConsole.Library.WireFields
import XrdpConsole.MmState

/-!
# Messages of the graphics channel

The streams that `xrdp/xrdp_egfx.c` builds for the client, and what a client reads from them.
-/

namespace XrdpConsole.EgfxWire

open XrdpConsole.Library
open XrdpConsole.Library.Field
open XrdpConsole.VncState

set_option autoImplicit false

/-! ## Streams -/

/-- `struct monitor_info` as far as the client is told of it. -/
structure EgfxMonitor extends MonitorInfo where
  isPrimary : Int
  deriving DecidableEq, Repr

structure EgfxPoint where
  x : Int
  y : Int
  deriving DecidableEq, Repr

def maxPartSize : Nat := 0xFFFF

def packetComprTypeRdp8 : Int := 0x04

def cmdidWireToSurface1 : Int := 0x0001
def cmdidWireToSurface2 : Int := 0x0002
def cmdidSolidFill : Int := 0x0004
def cmdidSurfaceToSurface : Int := 0x0005
def cmdidCreateSurface : Int := 0x0009
def cmdidDeleteSurface : Int := 0x000A
def cmdidStartFrame : Int := 0x000B
def cmdidEndFrame : Int := 0x000C
def cmdidFrameAcknowledge : Int := 0x000D
def cmdidResetGraphics : Int := 0x000E
def cmdidMapSurfaceToOutput : Int := 0x000F
def cmdidCapsAdvertise : Int := 0x0012
def cmdidCapsConfirm : Int := 0x0013
def cmdidQoeFrameAcknowledge : Int := 0x0016

def sizeOfFields (fields : List Field) : Nat := (fields.map Field.width).sum

/-- One segment with a message whose length is filled in when its end is known. -/
def single (cmdId : Int) (body : List Field) : List Byte :=
  fieldBytes ([u8 0xE0, u8 packetComprTypeRdp8, u16 cmdId, u16 0, u32 (sizeOfFields body + 8)] ++ body)

def rectFields (rect : Rect) : List Field :=
  [u16 rect.left, u16 rect.top, u16 rect.right, u16 rect.bottom]

def pointFields (point : EgfxPoint) : List Field := [u16 point.x, u16 point.y]

def monitorFields (mi : EgfxMonitor) : List Field :=
  [u32 mi.left, u32 mi.top, u32 mi.right, u32 mi.bottom, u32 mi.isPrimary]

def xrdpEgfxCreateSurface (surfaceId width height pixelFormat : Int) : List Byte :=
  single cmdidCreateSurface [u16 surfaceId, u16 width, u16 height, u8 pixelFormat]

def xrdpEgfxDeleteSurface (surfaceId : Int) : List Byte :=
  single cmdidDeleteSurface [u16 surfaceId]

def xrdpEgfxMapSurface (surfaceId x y : Int) : List Byte :=
  single cmdidMapSurfaceToOutput [u16 surfaceId, u16 0, u32 x, u32 y]

def xrdpEgfxFillSurface (surfaceId fillColor : Int) (rects : List Rect) : List Byte :=
  single cmdidSolidFill
    ([u16 surfaceId, u32 fillColor, u16 rects.length] ++ rects.flatMap rectFields)

def xrdpEgfxSurfaceToSurface (srcSurfaceId dstSurfaceId : Int) (srcRect : Rect)
    (dstPoints : List EgfxPoint) : List Byte :=
  single cmdidSurfaceToSurface
    ([u16 srcSurfaceId, u16 dstSurfaceId] ++ rectFields srcRect ++ [u16 dstPoints.length] ++
      dstPoints.flatMap pointFields)

def xrdpEgfxFrameStart (frameId timestamp : Int) : List Byte :=
  single cmdidStartFrame [u32 timestamp, u32 frameId]

def xrdpEgfxFrameEnd (frameId : Int) : List Byte := single cmdidEndFrame [u32 frameId]

def xrdpEgfxCapsconfirm (version flags : Int) : List Byte :=
  single cmdidCapsConfirm [u32 version, u32 4, u32 flags]

/-- One part of a message that is sent in several. -/
def dataSegment (part : List Byte) : List Byte :=
  fieldBytes [u32 (1 + part.length), u8 packetComprTypeRdp8] ++ part

/-- The header of a message of `headerSize` bytes in the first segment and the bitmap data in the
further ones. -/
def multipart (headerSize cmdId : Int) (header : List Field) (bitmapData : List Byte) : List Byte :=
  fieldBytes
    ([u8 0xE1, u16 (1 + (pieces maxPartSize bitmapData).length), u32 (headerSize + bitmapData.length),
      u32 (1 + headerSize), u8 packetComprTypeRdp8,
      u16 cmdId, u16 0, u32 (headerSize + bitmapData.length)] ++ header ++ [u32 bitmapData.length]) ++
    (pieces maxPartSize bitmapData).flatMap dataSegment

def xrdpEgfxWireToSurface1 (surfaceId codecId pixelFormat : Int) (destRect : Rect)
    (bitmapData : List Byte) : List Byte :=
  multipart 25 cmdidWireToSurface1
    ([u16 surfaceId, u16 codecId, u8 pixelFormat] ++ rectFields destRect) bitmapData

def xrdpEgfxWireToSurface2 (surfaceId codecId codecContextId pixelFormat : Int)
    (bitmapData : List Byte) : List Byte :=
  multipart 21 cmdidWireToSurface2
    [u16 surfaceId, u16 codecId, u32 codecContextId, u8 pixelFormat] bitmapData

/-- No monitors stand for one that covers the whole session. -/
def sentMonitors (width height : Int) (mi : List EgfxMonitor) : List EgfxMonitor :=
  if mi.length = 0 then
    [{ left := 0, top := 0, right := width - 1, bottom := height - 1, isPrimary := 1 }]
  else mi

def xrdpEgfxResetGraphics (width height : Int) (mi : List EgfxMonitor) : Option (List Byte) :=
  if 16 < mi.length then none
  else
    let monitors := sentMonitors width height mi
    some (fieldBytes
      ([u8 0xE0, u8 packetComprTypeRdp8, u16 cmdidResetGraphics, u16 0, u32 340, u32 width, u32 height,
        u32 monitors.length] ++ monitors.flatMap monitorFields) ++
      List.replicate (340 - (20 + monitors.length * 20)) 0)

/-! ## What the client reads -/

inductive EgfxMessage where
  | capsConfirm (version flags : Int)
  | resetGraphics (width height : Int) (monitors : List EgfxMonitor)
  | createSurface (surfaceId width height pixelFormat : Int)
  | deleteSurface (surfaceId : Int)
  | mapSurface (surfaceId x y : Int)
  | fillSurface (surfaceId fillColor : Int) (rects : List Rect)
  | surfaceToSurface (srcSurfaceId dstSurfaceId : Int) (srcRect : Rect) (dstPoints : List EgfxPoint)
  | frameStart (frameId timestamp : Int)
  | frameEnd (frameId : Int)
  | wireToSurface1 (surfaceId codecId pixelFormat : Int) (destRect : Rect) (bitmapData : List Byte)
  | wireToSurface2 (surfaceId codecId codecContextId pixelFormat : Int) (bitmapData : List Byte)
  deriving DecidableEq, Repr

/-- The stream that is built for a message; none where the source returns NULL. -/
def stream : EgfxMessage → Option (List Byte)
  | .capsConfirm version flags => some (xrdpEgfxCapsconfirm version flags)
  | .resetGraphics width height monitors => xrdpEgfxResetGraphics width height monitors
  | .createSurface surfaceId width height pixelFormat =>
      some (xrdpEgfxCreateSurface surfaceId width height pixelFormat)
  | .deleteSurface surfaceId => some (xrdpEgfxDeleteSurface surfaceId)
  | .mapSurface surfaceId x y => some (xrdpEgfxMapSurface surfaceId x y)
  | .fillSurface surfaceId fillColor rects => some (xrdpEgfxFillSurface surfaceId fillColor rects)
  | .surfaceToSurface srcSurfaceId dstSurfaceId srcRect dstPoints =>
      some (xrdpEgfxSurfaceToSurface srcSurfaceId dstSurfaceId srcRect dstPoints)
  | .frameStart frameId timestamp => some (xrdpEgfxFrameStart frameId timestamp)
  | .frameEnd frameId => some (xrdpEgfxFrameEnd frameId)
  | .wireToSurface1 surfaceId codecId pixelFormat destRect bitmapData =>
      some (xrdpEgfxWireToSurface1 surfaceId codecId pixelFormat destRect bitmapData)
  | .wireToSurface2 surfaceId codecId codecContextId pixelFormat bitmapData =>
      some (xrdpEgfxWireToSurface2 surfaceId codecId codecContextId pixelFormat bitmapData)

/-- The data of one segment of several; it is not compressed. -/
def readSegment : PrefixDecoder Byte (List Byte) := fun input =>
  match readFields [4, 1] input with
  | some ([size, header], rest) =>
      if header = packetComprTypeRdp8 ∧ 1 ≤ size ∧ (size - 1).toNat ≤ rest.length then
        some (rest.take (size - 1).toNat, rest.drop (size - 1).toNat)
      else none
  | _ => none

/-- The data of a message in one segment or in several. -/
def readSegments (input : List Byte) : Option (List Byte) :=
  match readFields [1] input with
  | some ([descriptor], rest) =>
      if descriptor = 0xE0 then
        match readFields [1] rest with
        | some ([header], data) => if header = packetComprTypeRdp8 then some data else none
        | _ => none
      else if descriptor = 0xE1 then
        match readFields [2, 4] rest with
        | some ([segmentCount, uncompressedSize], segments) =>
            match decodeMany readSegment segmentCount.toNat segments with
            | some (parts, []) =>
                if (parts.flatten.length : Int) = uncompressedSize then some parts.flatten else none
            | _ => none
        | _ => none
      else none
  | _ => none

def readRect : PrefixDecoder Byte Rect := fun input =>
  match readFields [2, 2, 2, 2] input with
  | some ([left, top, right, bottom], rest) =>
      some ({ left := left, top := top, right := right, bottom := bottom }, rest)
  | _ => none

def readPoint : PrefixDecoder Byte EgfxPoint := fun input =>
  match readFields [2, 2] input with
  | some ([x, y], rest) => some ({ x := x, y := y }, rest)
  | _ => none

def readMonitor : PrefixDecoder Byte EgfxMonitor := fun input =>
  match readFields [4, 4, 4, 4, 4] input with
  | some ([left, top, right, bottom, isPrimary], rest) =>
      some ({ left := signed 4 left, top := signed 4 top, right := signed 4 right
              bottom := signed 4 bottom, isPrimary := isPrimary }, rest)
  | _ => none

/-- The message with this command and this body. -/
def readBody (cmdId : Int) (body : List Byte) : Option EgfxMessage :=
  if cmdId = cmdidCapsConfirm then
    match readAll [4, 4, 4] body with
    | some [version, capsDataLength, flags] =>
        if capsDataLength = 4 then some (.capsConfirm version flags) else none
    | _ => none
  else if cmdId = cmdidResetGraphics then
    match readFields [4, 4, 4] body with
    | some ([width, height, monitorCount], rest) =>
        (decodeMany readMonitor monitorCount.toNat rest).map fun result =>
          .resetGraphics width height result.1
    | _ => none
  else if cmdId = cmdidCreateSurface then
    match readAll [2, 2, 2, 1] body with
    | some [surfaceId, width, height, pixelFormat] =>
        some (.createSurface surfaceId width height pixelFormat)
    | _ => none
  else if cmdId = cmdidDeleteSurface then
    match readAll [2] body with
    | some [surfaceId] => some (.deleteSurface surfaceId)
    | _ => none
  else if cmdId = cmdidMapSurfaceToOutput then
    match readAll [2, 2, 4, 4] body with
    | some [surfaceId, _, x, y] => some (.mapSurface surfaceId x y)
    | _ => none
  else if cmdId = cmdidSolidFill then
    match readFields [2, 4, 2] body with
    | some ([surfaceId, fillColor, rectCount], rest) =>
        match decodeMany readRect rectCount.toNat rest with
        | some (rects, []) => some (.fillSurface surfaceId fillColor rects)
        | _ => none
    | _ => none
  else if cmdId = cmdidSurfaceToSurface then
    match readFields [2, 2] body with
    | some ([srcSurfaceId, dstSurfaceId], afterIds) =>
        (readRect afterIds).bind fun srcRect =>
          match readFields [2] srcRect.2 with
          | some ([pointCount], rest) =>
              match decodeMany readPoint pointCount.toNat rest with
              | some (dstPoints, []) =>
                  some (.surfaceToSurface srcSurfaceId dstSurfaceId srcRect.1 dstPoints)
              | _ => none
          | _ => none
    | _ => none
  else if cmdId = cmdidStartFrame then
    match readAll [4, 4] body with
    | some [timestamp, frameId] => some (.frameStart frameId timestamp)
    | _ => none
  else if cmdId = cmdidEndFrame then
    match readAll [4] body with
    | some [frameId] => some (.frameEnd frameId)
    | _ => none
  else if cmdId = cmdidWireToSurface1 then
    match readFields [2, 2, 1] body with
    | some ([surfaceId, codecId, pixelFormat], afterFormat) =>
        (readRect afterFormat).bind fun destRect =>
          match readFields [4] destRect.2 with
          | some ([bitmapDataLength], bitmapData) =>
              if (bitmapData.length : Int) = bitmapDataLength then
                some (.wireToSurface1 surfaceId codecId pixelFormat destRect.1 bitmapData)
              else none
          | _ => none
    | _ => none
  else if cmdId = cmdidWireToSurface2 then
    match readFields [2, 2, 4, 1, 4] body with
    | some ([surfaceId, codecId, codecContextId, pixelFormat, bitmapDataLength], bitmapData) =>
        if (bitmapData.length : Int) = bitmapDataLength then
          some (.wireToSurface2 surfaceId codecId codecContextId pixelFormat bitmapData)
        else none
    | _ => none
  else none

/-- The message in a stream. -/
def readMessage (input : List Byte) : Option EgfxMessage :=
  (readSegments input).bind fun data =>
    match readFields [2, 2, 4] data with
    | some ([cmdId, _, pduLength], body) =>
        if (data.length : Int) = pduLength then readBody cmdId body else none
    | _ => none

end XrdpConsole.EgfxWire
