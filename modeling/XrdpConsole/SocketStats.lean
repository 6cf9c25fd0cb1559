import Mathlib.Data.Rat.Defs
import Mathlib.Algebra.Field.Rat
import XrdpConsole.Library.Overlay
import XrdpConsole.Library.Pattern
import XrdpConsole.Library.UnicodeText

/-!
# Counters of the RDP sockets

`rdp_socket_values` of `xrdp_console_episode_sampler.py`: the lines of `ss -tin`, of which a
header begins a connection and the lines behind it hold its counters, are read into a record for
every established connection on a port, and the records are added up. The floating-point numbers
of the source are exact here.
-/

namespace XrdpConsole.SocketStats

open XrdpConsole.Library

set_option autoImplicit false

abbrev Text := List Char

/-! ## Characters and numbers -/

/-- Characters other than ASCII that a word may have, and numbers that are written with more than
digits and a point. -/
structure Reading where
  otherWord : Char → Bool
  otherFloat : Text → Option ℚ

def asciiWord (c : Char) : Bool := c.isAlphanum || c = '_'

def isNumeric (c : Char) : Bool := c.isDigit || c = '.'

/-- Digits with digits behind a point. -/
def decimalValue (whole fraction : Text) : ℚ :=
  Nat.ofDigitChars 10 whole 0 + (Nat.ofDigitChars 10 fraction 0 : ℚ) / 10 ^ fraction.length

def plainFloat (text : Text) : Option ℚ :=
  let whole := text.takeWhile (· ≠ '.')
  let fraction := (text.dropWhile (· ≠ '.')).tail
  if (whole ++ fraction).all Char.isDigit ∧ whole ++ fraction ≠ [] then
    some (decimalValue whole fraction)
  else none

variable (reading : Reading)

def Reading.isWord (c : Char) : Bool :=
  if c.toNat < 128 then asciiWord c else reading.otherWord c

def Reading.float (text : Text) : Option ℚ :=
  if text.all isNumeric then plainFloat text else reading.otherFloat text

/-! ## Records -/

inductive Key where
  | recvQ
  | sendQ
  | rtt
  | rttvar
  | delivery
  | sent
  | received
  | retransBytes
  | retransEvents
  | ooo
  deriving DecidableEq

abbrev Record := Key → Option ℚ

def Record.set (record : Record) (key : Key) (value : ℚ) : Record :=
  Function.update record key (some value)

def counterPattern (word : String) : Pattern Char :=
  ⟨word.toList, [.literal [':'], .run Char.isDigit true]⟩

/-- The patterns that a line is searched for, in this order. -/
def patterns : List (Key × Pattern Char) :=
  [(.rtt, ⟨"rtt".toList,
      [.literal [':'], .run isNumeric true, .literal ['/'], .run isNumeric true]⟩),
    (.delivery, ⟨"delivery_rate".toList,
      [.run (fun c => c = ' ' || c = ':') false, .run isNumeric true,
        .optional (fun c => c = 'K' || c = 'M' || c = 'G') true, .literal ['b', 'p', 's']]⟩),
    (.sent, counterPattern "bytes_sent"),
    (.received, counterPattern "bytes_received"),
    (.retransBytes, counterPattern "bytes_retrans"),
    (.retransEvents, ⟨"retrans".toList,
      [.literal [':'], .run Char.isDigit false, .literal ['/'], .run Char.isDigit true]⟩),
    (.ooo, counterPattern "rcv_ooopack")]

def multiplier : Text → Option ℚ
  | [] => some 1
  | ['K'] => some (10 ^ 3)
  | ['M'] => some (10 ^ 6)
  | ['G'] => some (10 ^ 9)
  | _ => none

/-- What is found under a key goes into the record; a number that cannot be read is left out. -/
def store (key : Key) (groups : List Text) (record : Record) : Record :=
  match key, groups with
  | .rtt, [first, second] =>
      match reading.float first with
      | none => record
      | some value =>
          match reading.float second with
          | none => record.set .rtt value
          | some deviation => (record.set .rtt value).set .rttvar deviation
  | .delivery, [rate, unit] =>
      match multiplier unit, reading.float rate with
      | some factor, some value => record.set .delivery (value * factor)
      | _, _ => record
  | key, [text] =>
      match reading.float text with
      | some value => record.set key value
      | none => record
  | _, _ => record

def scanPattern (line : Text) (record : Record) (entry : Key × Pattern Char) : Record :=
  match search reading.isWord entry.2 line with
  | none => record
  | some groups => store reading entry.1 groups record

def scanLine (record : Record) (line : Text) : Record :=
  patterns.foldl (scanPattern reading line) record

/-! ## Connections -/

variable (port : Int)

/-- The record that the header of an established connection begins. -/
def openRecord (line : Text) : Option Record :=
  match words line with
  | _ :: recvQ :: sendQ :: localAddress :: _ :: _ =>
      if ':' :: decimalInt port <:+ localAddress then do
        let received ← reading.float recvQ
        let sending ← reading.float sendQ
        return (Record.set emptyMap .recvQ received).set .sendQ sending
      else none
  | _ => none

structure Scan where
  record : Option Record
  records : List Record

def Scan.finish (self : Scan) : Scan where
  record := none
  records := self.records ++ self.record.toList

def Scan.step (self : Scan) (line : Text) : Scan :=
  if ['E', 'S', 'T', 'A', 'B', ' '] <+: line then
    { self.finish with record := openRecord reading port line }
  else
    match self.record with
    | none => self
    | some record => { self with record := some (scanLine reading record line) }

def socketRecords (lines : List Text) : List Record :=
  (lines.foldl (Scan.step reading port) ⟨none, []⟩).finish.records

/-! ## Values -/

/-- The keys of the values. -/
inductive Value where
  | rdpConnectionCount
  | rdpRecvQBytes
  | rdpSendQBytes
  | rdpRttMs
  | rdpRttvarMs
  | rdpDeliveryRateMbps
  | rdpBytesSent
  | rdpBytesReceived
  | rdpRetransBytes
  | rdpRetransEvents
  | rdpOooPackets
  deriving DecidableEq

abbrev Values := Value → ℚ

def averaged : List (Value × Key) :=
  [(.rdpRecvQBytes, .recvQ), (.rdpSendQBytes, .sendQ), (.rdpRttMs, .rtt), (.rdpRttvarMs, .rttvar),
    (.rdpDeliveryRateMbps, .delivery)]

def summed : List (Value × Key) :=
  [(.rdpBytesSent, .sent), (.rdpBytesReceived, .received), (.rdpRetransBytes, .retransBytes),
    (.rdpOooPackets, .ooo)]

def sumOf (records : List Record) (key : Key) : ℚ :=
  (records.map fun record => (record key).getD 0).sum

def recordValues (records : List Record) : Values :=
  let values : Values := Function.update (fun _ => 0) .rdpConnectionCount records.length
  let values := averaged.foldl (fun values (name, key) =>
    let aggregate := sumOf records key / records.length
    Function.update values name
      (if name = .rdpDeliveryRateMbps then aggregate / 10 ^ 6 else aggregate)) values
  summed.foldl (fun values (name, key) => Function.update values name (sumOf records key)) values

/-- `output` is what `ss -tin` has written, if it ran. -/
def rdpSocketValues (output : Option Text) : Values :=
  match output with
  | none => fun _ => 0
  | some stdout =>
      let records := socketRecords reading port (splitLines stdout)
      if records.isEmpty then fun _ => 0 else recordValues records

end XrdpConsole.SocketStats
