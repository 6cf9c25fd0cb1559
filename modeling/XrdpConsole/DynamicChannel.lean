import Mathlib.Logic.Function.Basic
import XrdpConsole.Library.Reassembly
import XrdpConsole.Library.Transition
import XrdpConsole.Library.WireFields
import XrdpConsole.LineReader

/-!
# Dynamic channels

`libxrdp/xrdp_channel.c`: the static channel that carries the dynamic ones, the requests and data
that go out on it, and what becomes of a packet of the client. `sent` and `sendResults` stand for
the secure layer: the packets handed to it, and whether those to come are taken.
-/

namespace XrdpConsole.DynamicChannel

open XrdpConsole.Library
open XrdpConsole.Library.Field
open XrdpConsole.LineReader

set_option autoImplicit false

/-! ## State -/

/-- `XRDP_DRDYNVC_STATUS_*`. -/
inductive DrdynvcStatus where
  | closed
  | openSent
  | opened
  | closeSent
  deriving DecidableEq, Repr

variable {Procs : Type}

/-- The four callbacks of a channel are always set together. -/
structure Drdynvc (Procs : Type) where
  status : DrdynvcStatus
  procs : Option Procs

structure McsChannelItem where
  name : List Char
  chanid : Int
  disabled : Bool
  deriving DecidableEq, Repr

/-- The buffer for a packet that arrives in chunks: its size and what its pointer has passed. -/
structure ChunkBuffer where
  size : Int
  written : List Byte
  deriving DecidableEq, Repr

/-- A packet for the client on a static channel, behind its header. -/
structure StaticPacket where
  chanid : Int
  totalDataLen : Int
  flags : Int
  data : List Byte
  deriving DecidableEq, Repr

/-- Channels are numbered from 0 to 255. -/
structure XrdpChannel (Procs : Type) where
  channelList : List McsChannelItem
  drdynvcChannelId : Int
  s : Option ChunkBuffer
  drdynvcs : Int → Drdynvc Procs
  sent : List StaticPacket
  sendResults : List Bool

def mcsGlobalChannel : Int := 1003

def channelFlagFirst : Int := 0x1
def channelFlagLast : Int := 0x2

def cmdDvcOpenChannel : Nat := 0x10
def cmdDvcDataFirst : Nat := 0x20
def cmdDvcData : Nat := 0x30
def cmdDvcCloseChannel : Nat := 0x40
def cmdDvcCapability : Nat := 0x50

def setStatus (self : XrdpChannel Procs) (chanId : Int) (status : DrdynvcStatus) :
    XrdpChannel Procs :=
  { self with
    drdynvcs := Function.update self.drdynvcs chanId { self.drdynvcs chanId with status := status } }

/-! ## Sending -/

def xrdpChannelGetItem (self : XrdpChannel Procs) (channelId : Int) : Option McsChannelItem :=
  if channelId < 0 then none else self.channelList[channelId.toNat]?

/-- The result is true where the source function returns 0. -/
def xrdpChannelSend (self : XrdpChannel Procs) (data : List Byte) (channelId totalDataLen flags : Int) :
    Bool × XrdpChannel Procs :=
  match xrdpChannelGetItem self channelId with
  | none => (false, self)
  | some channel =>
      if channel.disabled then (true, self)
      else
        let taken := self.sendResults.headD true
        let self := { self with sendResults := self.sendResults.tail }
        if taken then
          (true, { self with sent := self.sent ++
            [{ chanid := channel.chanid, totalDataLen := totalDataLen, flags := flags, data := data }] })
        else (false, self)

/-- The code for the number of bytes, and the number in as many. -/
def drdynvcInsertUint124 (val : Int) : Nat × List Byte :=
  let val := val % 2 ^ 32
  if val ≤ 0xff then (0, (u8 val).bytes)
  else if val ≤ 0xffff then (1, (u16 val).bytes)
  else (2, (u32 val).bytes)

/-- A request or data of a dynamic channel as one whole packet of the static channel. -/
def sendCommand (self : XrdpChannel Procs) (cmd : Nat) (rest : List Byte) : Bool × XrdpChannel Procs :=
  let data := UInt8.ofNat cmd :: rest
  xrdpChannelSend self data self.drdynvcChannelId data.length 3

def xrdpChannelDrdynvcSendCapabilityRequest (self : XrdpChannel Procs) : Bool × XrdpChannel Procs :=
  sendCommand self 0x50 (fieldBytes [u8 0x00, u16 2, u16 0, u16 0, u16 0, u16 0])

def drdynvcSvcChannelName : List Char := ['d', 'r', 'd', 'y', 'n', 'v', 'c']

/-- The result of the request is not looked at. -/
def xrdpChannelDrdynvcStart (self : XrdpChannel Procs) : Bool × XrdpChannel Procs :=
  if self.drdynvcChannelId ≠ -1 then (true, self)
  else
    match self.channelList.find? fun ci => ci.name.map Char.toLower = drdynvcSvcChannelName with
    | none => (false, self)
    | some dci =>
        if dci.disabled then (false, self)
        else
          let self := { self with drdynvcChannelId := (dci.chanid - mcsGlobalChannel) - 1 }
          (true, (xrdpChannelDrdynvcSendCapabilityRequest self).2)

/-- The first number from `chId` on whose channel is closed. -/
def freeChannel (self : XrdpChannel Procs) : Nat → Int → Option Int
  | 0, _ => none
  | left + 1, chId =>
      if (self.drdynvcs chId).status = .closed then some chId
      else freeChannel self left (chId + 1)

def xrdpChannelDrdynvcOpen (self : XrdpChannel Procs) (name : List Byte) (procs : Procs) :
    Option Int × XrdpChannel Procs :=
  match freeChannel self 255 1 with
  | none => (none, self)
  | some chId =>
      let id := drdynvcInsertUint124 chId
      let sending := sendCommand self (cmdDvcOpenChannel ||| id.1) (id.2 ++ (name ++ [0]))
      if sending.1 then
        (some chId, { sending.2 with
          drdynvcs := Function.update sending.2.drdynvcs chId
            { status := .openSent, procs := some procs } })
      else (none, sending.2)

def xrdpChannelDrdynvcClose (self : XrdpChannel Procs) (chanId : Int) : Bool × XrdpChannel Procs :=
  if chanId < 0 ∨ 255 < chanId then (false, self)
  else if (self.drdynvcs chanId).status ≠ .opened ∧ (self.drdynvcs chanId).status ≠ .openSent then
    (false, self)
  else
    let id := drdynvcInsertUint124 chanId
    let sending := sendCommand self (cmdDvcCloseChannel ||| id.1) id.2
    if sending.1 then (true, setStatus sending.2 chanId .closeSent) else (false, sending.2)

def xrdpChannelDrdynvcDataFirst (self : XrdpChannel Procs) (chanId : Int) (data : List Byte)
    (totalDataBytes : Int) : Bool × XrdpChannel Procs :=
  if chanId < 0 ∨ 255 < chanId then (false, self)
  else if (self.drdynvcs chanId).status ≠ .opened then (false, self)
  else if 1590 < data.length then (false, self)
  else
    let id := drdynvcInsertUint124 chanId
    let total := drdynvcInsertUint124 totalDataBytes
    sendCommand self (cmdDvcDataFirst ||| total.1 <<< 2 ||| id.1) (id.2 ++ (total.2 ++ data))

def xrdpChannelDrdynvcData (self : XrdpChannel Procs) (chanId : Int) (data : List Byte) :
    Bool × XrdpChannel Procs :=
  if chanId < 0 ∨ 255 < chanId then (false, self)
  else if (self.drdynvcs chanId).status ≠ .opened then (false, self)
  else if 1590 < data.length then (false, self)
  else
    let id := drdynvcInsertUint124 chanId
    sendCommand self (cmdDvcData ||| id.1) (id.2 ++ data)

/-! ## Receiving -/

/-- What a packet of the client leads to. Where the channel has callbacks, one is called. -/
inductive Answer (Procs : Type) where
  | refused
  | ignored
  | capabilities
  | openResponse (procs : Option Procs) (chanId creationStatus : Int)
  | closeResponse (procs : Option Procs) (chanId : Int)
  | dataFirst (procs : Option Procs) (chanId : Int) (data : List Byte) (totalBytes : Int)
  | data (procs : Option Procs) (chanId : Int) (data : List Byte)
  deriving DecidableEq, Repr

/-- A number in as many bytes as the two bits of `code` say. -/
def getUint124 (s : List Byte) (code : Nat) : Option (Int × List Byte) :=
  let width := if code = 0 then 1 else if code = 1 then 2 else 4
  match readFields [width] s with
  | some ([value], rest) => some (value, rest)
  | _ => none

def drdynvcGetChanId (s : List Byte) (cmd : Nat) : Option (Int × List Byte) := getUint124 s (cmd &&& 0x03)

def drdynvcProcessCapabilityResponse (self : XrdpChannel Procs) (s : List Byte) :
    Answer Procs × XrdpChannel Procs :=
  match readFields [1, 2] s with
  | some ([_, capVersion], _) =>
      if capVersion ≠ 2 ∧ capVersion ≠ 3 then (.refused, self) else (.capabilities, self)
  | _ => (.refused, self)

def drdynvcProcessOpenChannelResponse (self : XrdpChannel Procs) (cmd : Nat) (s : List Byte) :
    Answer Procs × XrdpChannel Procs :=
  match drdynvcGetChanId s cmd with
  | none => (.refused, self)
  | some (chanId, s) =>
      match readFields [4] s with
      | some ([creationStatus], _) =>
          if 255 < chanId then (.refused, self)
          else
            let self := setStatus self chanId (if creationStatus = 0 then .opened else .closed)
            (.openResponse (self.drdynvcs chanId).procs chanId (signed 4 creationStatus), self)
      | _ => (.refused, self)

def drdynvcProcessCloseChannelResponse (self : XrdpChannel Procs) (cmd : Nat) (s : List Byte) :
    Answer Procs × XrdpChannel Procs :=
  match drdynvcGetChanId s cmd with
  | none => (.refused, self)
  | some (chanId, _) =>
      if 255 < chanId then (.refused, self)
      else
        let self := setStatus self chanId .closed
        (.closeResponse (self.drdynvcs chanId).procs chanId, self)

def drdynvcProcessDataFirst (self : XrdpChannel Procs) (cmd : Nat) (s : List Byte) : Answer Procs :=
  match drdynvcGetChanId s cmd with
  | none => .refused
  | some (chanId, s) =>
      match getUint124 s (cmd >>> 2 &&& 0x03) with
      | none => .refused
      | some (length, s) =>
          let totalBytes := signed 4 length
          if totalBytes < 1590 ∨ totalBytes < s.length then .refused
          else if 255 < chanId then .refused
          else .dataFirst (self.drdynvcs chanId).procs chanId s totalBytes

def drdynvcProcessData (self : XrdpChannel Procs) (cmd : Nat) (s : List Byte) : Answer Procs :=
  match drdynvcGetChanId s cmd with
  | none => .refused
  | some (chanId, s) =>
      if 255 < chanId then .refused else .data (self.drdynvcs chanId).procs chanId s

/-- The command is in `cmd`, what is behind it in `s`. -/
def processCommand (self : XrdpChannel Procs) (cmd : Nat) (s : List Byte) :
    Answer Procs × XrdpChannel Procs :=
  if cmd &&& 0xf0 = cmdDvcCapability then drdynvcProcessCapabilityResponse self s
  else if cmd &&& 0xf0 = cmdDvcOpenChannel then drdynvcProcessOpenChannelResponse self cmd s
  else if cmd &&& 0xf0 = cmdDvcCloseChannel then drdynvcProcessCloseChannelResponse self cmd s
  else if cmd &&& 0xf0 = cmdDvcDataFirst then (drdynvcProcessDataFirst self cmd s, self)
  else if cmd &&& 0xf0 = cmdDvcData then (drdynvcProcessData self cmd s, self)
  else (.refused, self)

/-- The pointer of the buffer moves behind these bytes. -/
def passBytes (self : XrdpChannel Procs) (buffer : ChunkBuffer) (bytes : List Byte) :
    XrdpChannel Procs :=
  { self with s := some { buffer with written := buffer.written ++ bytes } }

/-- The chunk behind what is in the buffer, if there is room for it. -/
def appendChunk (self : XrdpChannel Procs) (buffer : ChunkBuffer) (chunk : List Byte) :
    Bool × XrdpChannel Procs :=
  if buffer.size - buffer.written.length < chunk.length then (false, self)
  else (true, passBytes self buffer chunk)

/-- None stands for the use of a buffer that does not exist. The command of a packet in chunks is
read behind the last one, where there is only `stray`; the same holds for an empty packet. What
comes after the command is then looked for in the chunk, of which nothing is left. -/
def xrdpChannelProcessDrdynvc (self : XrdpChannel Procs) (stray : Byte) (packet : List Byte) :
    Option (Answer Procs × XrdpChannel Procs) :=
  match readFields [4, 4] packet with
  | some ([totalLength, flags], s) =>
      if flags % 4 = 0 then
        self.s.map fun buffer =>
          let appended := appendChunk self buffer s
          (if appended.1 then .ignored else .refused, appended.2)
      else if flags % 4 = channelFlagFirst then
        let buffer := { size := max 0 (signed 4 totalLength), written := [] }
        let appended := appendChunk { self with s := some buffer } buffer s
        some (if appended.1 then .ignored else .refused, appended.2)
      else if flags % 4 = channelFlagLast then
        self.s.map fun buffer =>
          if (appendChunk self buffer s).1 then
            processCommand (passBytes self buffer (s ++ [stray])) stray.toNat []
          else (.refused, self)
      else
        match s with
        | [] => some (processCommand self stray.toNat [])
        | cmd :: s => some (processCommand self cmd.toNat s)
  | _ => some (.refused, self)

/-- Other static channels and unknown ones do not concern the dynamic ones. -/
def xrdpChannelProcess (self : XrdpChannel Procs) (stray : Byte) (chanid : Int) (packet : List Byte) :
    Option (Answer Procs × XrdpChannel Procs) :=
  let channelId := (chanid - mcsGlobalChannel) - 1
  match xrdpChannelGetItem self channelId with
  | none => some (.refused, self)
  | some channel =>
      if channel.disabled then some (.ignored, self)
      else if channelId = self.drdynvcChannelId then xrdpChannelProcessDrdynvc self stray packet
      else some (.ignored, self)

/-! ## Runs -/

/-- The pieces one after the other until one of them is not taken. -/
def sendPieces (self : XrdpChannel Procs) (chanId : Int) : List (List Byte) → Bool × XrdpChannel Procs
  | [] => (true, self)
  | piece :: rest =>
      let sending := xrdpChannelDrdynvcData self chanId piece
      if sending.1 then sendPieces sending.2 chanId rest else sending

def xrdpEgfxSendData (self : XrdpChannel Procs) (chanId : Int) (data : List Byte) :
    Bool × XrdpChannel Procs :=
  if data.length ≤ 1500 then xrdpChannelDrdynvcData self chanId data
  else
    let sending := xrdpChannelDrdynvcDataFirst self chanId (data.take 1500) data.length
    if sending.1 then sendPieces sending.2 chanId (pieces 1500 (data.drop 1500)) else sending

/-- What the server does with its dynamic channels, and the packets of the client. -/
inductive ChannelOp (Procs : Type) where
  | start
  | openChannel (name : List Byte) (procs : Procs)
  | close (chanId : Int)
  | dataFirst (chanId : Int) (data : List Byte) (totalDataBytes : Int)
  | data (chanId : Int) (data : List Byte)
  | egfxSend (chanId : Int) (data : List Byte)
  | receive (stray : Byte) (chanid : Int) (packet : List Byte)
  deriving DecidableEq, Repr

inductive Outcome (Procs : Type) where
  | done (result : Bool)
  | assigned (chanId : Option Int)
  | answered (answer : Answer Procs)
  deriving DecidableEq, Repr

def runOp (self : XrdpChannel Procs) : ChannelOp Procs → Option (Outcome Procs × XrdpChannel Procs)
  | .start => some ((xrdpChannelDrdynvcStart self).map .done id)
  | .openChannel name procs => some ((xrdpChannelDrdynvcOpen self name procs).map .assigned id)
  | .close chanId => some ((xrdpChannelDrdynvcClose self chanId).map .done id)
  | .dataFirst chanId data totalDataBytes =>
      some ((xrdpChannelDrdynvcDataFirst self chanId data totalDataBytes).map .done id)
  | .data chanId data => some ((xrdpChannelDrdynvcData self chanId data).map .done id)
  | .egfxSend chanId data => some ((xrdpEgfxSendData self chanId data).map .done id)
  | .receive stray chanid packet =>
      (xrdpChannelProcess self stray chanid packet).map (Prod.map .answered id)

/-- The static channels are in the order of their identifiers, as the source assumes. -/
def InOrder (channelList : List McsChannelItem) : Prop :=
  ∀ (index : Nat) (item : McsChannelItem),
    channelList[index]? = some item → item.chanid = mcsGlobalChannel + 1 + index

/-- A session as it is created, and its steps with their outcomes. -/
def channel : System (XrdpChannel Procs) (ChannelOp Procs × Outcome Procs) where
  initial self := InOrder self.channelList ∧ self.drdynvcChannelId = -1 ∧ self.s = none ∧
    self.sent = [] ∧ ∀ chanId, self.drdynvcs chanId = { status := .closed, procs := none }
  step before label after := runOp before label.1 = some (label.2, after)

/-- The steps one after the other, with their outcomes. -/
def runOps (self : XrdpChannel Procs) :
    List (ChannelOp Procs) → Option (List (ChannelOp Procs × Outcome Procs) × XrdpChannel Procs)
  | [] => some ([], self)
  | op :: rest =>
      match runOp self op with
      | none => none
      | some (outcome, self) => (runOps self rest).map (Prod.map ((op, outcome) :: ·) id)

theorem run_of_ops {start final : XrdpChannel Procs} {ops : List (ChannelOp Procs)}
    {labels : List (ChannelOp Procs × Outcome Procs)} (ran : runOps start ops = some (labels, final)) :
    channel.Run start labels final := by
  induction ops generalizing start labels with
  | nil =>
      obtain ⟨rfl, rfl⟩ := Prod.mk.inj (Option.some.inj ran)
      exact .stay start
  | cons op ops ih =>
      simp only [runOps] at ran
      split at ran
      · contradiction
      · rename_i outcome middle stepped
        obtain ⟨⟨later, state⟩, rest, joined⟩ := Option.map_eq_some_iff.mp ran
        obtain ⟨rfl, rfl⟩ : (op, outcome) :: later = labels ∧ state = final := Prod.mk.inj joined
        exact System.run_after stepped (ih rest)

theorem run_ops_labels {start final : XrdpChannel Procs} {ops : List (ChannelOp Procs)}
    {labels : List (ChannelOp Procs × Outcome Procs)} (ran : runOps start ops = some (labels, final)) :
    labels.map Prod.fst = ops := by
  induction ops generalizing start labels with
  | nil =>
      obtain ⟨rfl, rfl⟩ := Prod.mk.inj (Option.some.inj ran)
      rfl
  | cons op ops ih =>
      simp only [runOps] at ran
      split at ran
      · contradiction
      · obtain ⟨⟨later, state⟩, rest, joined⟩ := Option.map_eq_some_iff.mp ran
        obtain ⟨rfl, rfl⟩ := Prod.mk.inj joined
        exact congrArg (op :: ·) (ih rest)

/-- A session with a channel for dynamic ones behind two others. -/
def freshSession : XrdpChannel Unit where
  channelList :=
    [{ name := ['r', 'd', 'p', 's', 'n', 'd'], chanid := 1004, disabled := true },
      { name := ['c', 'l', 'i', 'p', 'r', 'd', 'r'], chanid := 1005, disabled := false },
      { name := ['D', 'R', 'D', 'Y', 'N', 'V', 'C'], chanid := 1006, disabled := false }]
  drdynvcChannelId := -1
  s := none
  drdynvcs := fun _ => { status := .closed, procs := none }
  sent := []
  sendResults := []

theorem fresh_session_initial : channel.initial freshSession := by
  refine ⟨?_, rfl, rfl, rfl, fun _ => rfl⟩
  intro index item listed
  match index with
  | 0 | 1 | 2 =>
      obtain rfl := Option.some.inj listed
      decide
  | _ + 3 => simp [freshSession] at listed

end XrdpConsole.DynamicChannel
