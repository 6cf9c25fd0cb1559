import XrdpConsole.DynamicChannel
import XrdpConsole.EgfxWire
import XrdpConsole.Library.ByteStream

/-!
# Messages of the graphics client

`xrdp/xrdp_egfx.c`: what the client sends on the graphics channel, from the data of the dynamic
channel to the callbacks of the manager. The walk over the messages sets the end of the stream to the
length each of them claims, so what is read may lie outside of the data.
-/

namespace XrdpConsole.EgfxReceive

open XrdpConsole.Library
open XrdpConsole.LineReader
open XrdpConsole.DynamicChannel
open XrdpConsole.EgfxWire

set_option autoImplicit false

/-! ## Messages -/

/-- The calls that `egfx_initialize` has set. -/
inductive EgfxCallback where
  | frameAck (queueDepth frameId framesDecoded : Int)
  | capsAdvertise (versionFlags : List (Int × Int))
  deriving DecidableEq, Repr

/-- The result of a message: true where the source function returns 0, and the calls made. -/
abbrev Processed : Type := Bool × List EgfxCallback

def xrdpEgfxProcessFrameAck (s : ByteStream) : Option Processed :=
  if !s.checkRem 12 then some (false, [])
  else do
    let (queueDepth, s) ← s.inUint 4
    let (intframeId, s) ← s.inUint 4
    let (totalFramesDecoded, _) ← s.inUint 4
    some (true, [.frameAck queueDepth (signed 4 intframeId) (signed 4 totalFramesDecoded)])

/-- The versions and flags of `left` more sets; only those with flags alone count. -/
def readCapsSets : Nat → ByteStream → Option (Bool × List (Int × Int))
  | 0, _ => some (true, [])
  | left + 1, s =>
      if !s.checkRem 8 then some (false, [])
      else do
        let (version, s) ← s.inUint 4
        let (capsDataLength, s) ← s.inUint 4
        if !s.checkRem (signed 4 capsDataLength) then some (false, [])
        else if signed 4 capsDataLength = 4 then do
          let (flags, _) ← s.inUint 4
          let (ok, more) ← readCapsSets left (s.skip (signed 4 capsDataLength))
          some (ok, (signed 4 version, signed 4 flags) :: more)
        else readCapsSets left (s.skip (signed 4 capsDataLength))

def xrdpEgfxProcessCapsadvertise (s : ByteStream) : Option Processed := do
  let (capsSetCount, s) ← s.inUint 2
  if capsSetCount < 1 ∨ 1024 < capsSetCount then some (false, [])
  else do
    let (ok, versionFlags) ← readCapsSets capsSetCount.toNat s
    some (ok, if ok ∧ 0 < versionFlags.length then [.capsAdvertise versionFlags] else [])

def processBody (cmdId : Int) (s : ByteStream) : Option Processed :=
  if cmdId = cmdidFrameAcknowledge then xrdpEgfxProcessFrameAck s
  else if cmdId = cmdidCapsAdvertise then xrdpEgfxProcessCapsadvertise s
  else some (true, [])

/-- The command and the length of a message, and its stream behind them. -/
def inHeader (s : ByteStream) : Option ((Int × Int) × ByteStream) := do
  let (cmdId, rest) ← s.inUint 2
  let (_, rest) ← rest.inUint 2
  let (pduLength, rest) ← rest.inUint 4
  some ((cmdId, signed 4 pduLength), { rest with stop := s.pos + signed 4 pduLength })

def xrdpEgfxProcess (s : ByteStream) : Option Processed :=
  if s.pos + 8 ≤ s.stop then
    match inHeader s with
    | none => none
    | some ((cmdId, pduLength), body) =>
        if _ : pduLength < 8 then some (false, [])
        else if !body.checkRem (pduLength - 8) then some (false, [])
        else
          match processBody cmdId body with
          | none => none
          | some (ok, calls) =>
              if !ok then some (false, calls)
              else
                (xrdpEgfxProcess { s with pos := s.pos + pduLength }).map fun later =>
                  (later.1, calls ++ later.2)
  else some (true, [])
  termination_by (s.stop - s.pos).toNat
  decreasing_by omega

/-! ## Data of the channel -/

/-- The stream that is being put together. -/
def xrdpEgfxDataFirst (s : Option ChunkBuffer) (data : List Byte) (totalBytes : Int) :
    Bool × Option ChunkBuffer :=
  match s with
  | some _ => (false, s)
  | none => (true, some { size := totalBytes, written := data })

def xrdpEgfxData (s : Option ChunkBuffer) (data : List Byte) :
    Option (Processed × Option ChunkBuffer) :=
  match s with
  | none => (xrdpEgfxProcess (.ofBytes data)).map fun processed => (processed, none)
  | some buffer =>
      if buffer.size < buffer.written.length + data.length then some ((false, []), s)
      else
        let written := buffer.written ++ data
        if buffer.size < written.length + 1 then
          (xrdpEgfxProcess (.ofBytes written)).map fun processed => (processed, none)
        else some ((true, []), some { buffer with written := written })

/-- What the callbacks of `xrdp_egfx_create` make of the answer to a packet. They are not called
where the channel has others or none, and they do not look at its number. -/
def egfxAnswer {Procs : Type} (isEgfx : Procs → Bool) (s : Option ChunkBuffer) :
    Answer Procs → Option (List EgfxCallback × Option ChunkBuffer)
  | .dataFirst (some procs) _ data totalBytes =>
      if isEgfx procs then some ([], (xrdpEgfxDataFirst s data totalBytes).2) else some ([], s)
  | .data (some procs) _ data =>
      if isEgfx procs then (xrdpEgfxData s data).map fun result => (result.1.2, result.2)
      else some ([], s)
  | _ => some ([], s)

/-- The calls to the manager in the course of a run. -/
def egfxCalls {Procs : Type} (isEgfx : Procs → Bool) (s : Option ChunkBuffer) :
    List (ChannelOp Procs × Outcome Procs) → Option (List EgfxCallback × Option ChunkBuffer)
  | [] => some ([], s)
  | (_, .answered answer) :: rest =>
      (egfxAnswer isEgfx s answer).bind fun taken =>
        (egfxCalls isEgfx taken.2 rest).map fun result => (taken.1 ++ result.1, result.2)
  | _ :: rest => egfxCalls isEgfx s rest

/-! ## Messages of a client -/

structure CapsSet where
  version : Int
  capsData : List Byte
  deriving DecidableEq, Repr

inductive ClientMessage where
  | frameAcknowledge (queueDepth frameId totalFramesDecoded : Int)
  | capsAdvertise (capsSets : List CapsSet)
  | other (cmdId : Int) (body : List Byte)
  deriving DecidableEq, Repr

/-- A message that claims this length. -/
def claiming (cmdId flags : Int) (pduLength : Nat) (body : List Byte) : List Byte :=
  fieldBytes [.u16 cmdId, .u16 flags, .u32 pduLength] ++ body

def message (cmdId flags : Int) (body : List Byte) : List Byte :=
  claiming cmdId flags (8 + body.length) body

def capsSetBytes (set : CapsSet) : List Byte :=
  fieldBytes [.u32 set.version, .u32 set.capsData.length] ++ set.capsData

def bodyBytes : ClientMessage → List Byte
  | .frameAcknowledge queueDepth frameId totalFramesDecoded =>
      fieldBytes [.u32 queueDepth, .u32 frameId, .u32 totalFramesDecoded]
  | .capsAdvertise capsSets => fieldBytes [.u16 capsSets.length] ++ capsSets.flatMap capsSetBytes
  | .other _ body => body

def commandOf : ClientMessage → Int
  | .frameAcknowledge .. => cmdidFrameAcknowledge
  | .capsAdvertise _ => cmdidCapsAdvertise
  | .other cmdId _ => cmdId

def messageBytes (client : ClientMessage) : List Byte :=
  message (commandOf client) 0 (bodyBytes client)

/-- The version and flags of a set that counts. -/
def versionFlags (set : CapsSet) : Option (Int × Int) :=
  if set.capsData.length = 4 then
    some (signed 4 (Field.u32 set.version).held, signed 4 (littleEndian set.capsData))
  else none

def callsOf : ClientMessage → List EgfxCallback
  | .frameAcknowledge queueDepth frameId totalFramesDecoded =>
      [.frameAck queueDepth (signed 4 frameId) (signed 4 totalFramesDecoded)]
  | .capsAdvertise capsSets =>
      let sets := capsSets.filterMap versionFlags
      if 0 < sets.length then [.capsAdvertise sets] else []
  | .other .. => []

/-- The numbers fit their fields, and the message its length. -/
structure Sound (client : ClientMessage) : Prop where
  length : (messageBytes client).length < 2 ^ 31
  fields : match client with
    | .frameAcknowledge queueDepth frameId totalFramesDecoded =>
        (Field.u32 queueDepth).Fits ∧ (Field.u32 frameId).Fits ∧ (Field.u32 totalFramesDecoded).Fits
    | .capsAdvertise capsSets => 1 ≤ capsSets.length ∧ capsSets.length ≤ 1024
    | .other cmdId _ => (Field.u16 cmdId).Fits ∧ cmdId ≠ cmdidFrameAcknowledge ∧
        cmdId ≠ cmdidCapsAdvertise

end XrdpConsole.EgfxReceive
