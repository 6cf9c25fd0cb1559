import XrdpConsole.Library.Transition
import Mathlib.Logic.Function.Basic

/-!
# The loopback proxy

`relay_connection` (`src/python/rfb_v6_v4_proxy.py`): two sockets, an output buffer for
each, and one selector whose events are handled in batches. What `select`, `recv` and
`send` answer is part of the environment. `received` and `accepted` are the histories of
the two sockets, `closed` and `outcome` say how the relay has ended.
-/

namespace XrdpConsole.ProxyRelay

open XrdpConsole.Library

set_option autoImplicit false

abbrev Byte := UInt8

inductive Endpoint where
  | client
  | backend
  deriving DecidableEq, Repr

namespace Endpoint

def other : Endpoint → Endpoint
  | client => backend
  | backend => client

@[simp] theorem other_other (sock : Endpoint) : sock.other.other = sock := by cases sock <;> rfl

@[simp] theorem other_ne (sock : Endpoint) : sock.other ≠ sock := by cases sock <;> simp [other]

@[simp] theorem ne_other (sock : Endpoint) : sock ≠ sock.other := (other_ne sock).symm

theorem eq_other {left right : Endpoint} (different : left ≠ right) : left = right.other := by
  cases left <;> cases right <;> simp_all [other]

end Endpoint

/-- `EVENT_READ` and `EVENT_WRITE`. -/
structure EventMask where
  read : Bool
  write : Bool
  deriving DecidableEq, Repr

structure SelectorKey where
  fileobj : Endpoint
  events : EventMask
  data : Option Endpoint
  deriving DecidableEq, Repr

/-- Why `relay_connection` has ended: each of its returns, and the exception raised by
`pending[None]`. -/
inductive Outcome where
  | endOfFile (source : Endpoint)
  | socketError
  | bufferFull
  | nothingSent
  | keyError
  deriving DecidableEq, Repr

structure Relay where
  pending : Endpoint → List Byte
  registered : Endpoint → Option SelectorKey
  events : List (SelectorKey × EventMask)
  received : Endpoint → List Byte
  accepted : Endpoint → List Byte
  closed : Endpoint → Bool
  outcome : Option Outcome

def maxBufferBytes : Nat := 16 * 1024 * 1024

/-- What `recv` answers; no bytes are the end of the file. -/
inductive RecvAnswer where
  | bytes (data : List Byte)
  | wouldBlock
  | failed
  deriving DecidableEq, Repr

inductive SendAnswer where
  | sent (count : Nat)
  | wouldBlock
  | failed
  deriving DecidableEq, Repr

/-! ## The source functions -/

def closeSocket (self : Relay) (sock : Endpoint) : Relay :=
  { self with
    registered := Function.update self.registered sock none
    closed := Function.update self.closed sock true }

def closePair (self : Relay) : Relay := closeSocket (closeSocket self .client) .backend

/-- A return or an exception, with the `finally` clause. -/
def finish (self : Relay) (outcome : Outcome) : Relay :=
  { closePair self with events := [], outcome := some outcome }

/-- `BaseSelector.modify` called without data, which it replaces by its default. -/
def updateInterest (self : Relay) (sock : Endpoint) : Relay :=
  match self.registered sock with
  | none => self
  | some key =>
      let events := { read := true, write := !(self.pending sock).isEmpty }
      { self with
        registered := Function.update self.registered sock (some { key with events, data := none }) }

/-- The body under `mask & EVENT_READ`. -/
def readReady (self : Relay) (key : SelectorKey) : RecvAnswer → Relay
  | .wouldBlock => self
  | .failed => finish self .socketError
  | .bytes [] => finish self (.endOfFile key.fileobj)
  | .bytes (byte :: rest) =>
      let data := byte :: rest
      let self := { self with
        received := Function.update self.received key.fileobj (self.received key.fileobj ++ data) }
      match key.data with
      | none => finish self .keyError
      | some destination =>
          let output := self.pending destination
          if output.length + data.length > maxBufferBytes then
            finish self .bufferFull
          else
            { self with pending := Function.update self.pending destination (output ++ data) }

/-- The body under `mask & EVENT_WRITE`. -/
def writeReady (self : Relay) (key : SelectorKey) (answer : SendAnswer) : Relay :=
  let output := self.pending key.fileobj
  if output.isEmpty then
    self
  else
    match answer with
    | .failed => finish self .socketError
    | .wouldBlock => finish self .nothingSent
    | .sent count =>
        if count = 0 then
          finish self .nothingSent
        else
          { self with
            pending := Function.update self.pending key.fileobj (output.drop count)
            accepted := Function.update self.accepted key.fileobj
              (self.accepted key.fileobj ++ output.take count) }

/-- The body of the loop over the events of a batch. -/
def handleEvent (self : Relay) (key : SelectorKey) (mask : EventMask) (recv : RecvAnswer)
    (send : SendAnswer) : Relay :=
  let self := if mask.read then readReady self key recv else self
  if self.outcome.isSome then
    self
  else
    let self := if mask.write then writeReady self key send else self
    if self.outcome.isSome then self else updateInterest (updateInterest self .client) .backend

/-- Both sockets registered for reading, each with the other as its data. -/
def startRelay : Relay where
  pending _ := []
  registered sock :=
    some { fileobj := sock, events := { read := true, write := false }, data := some sock.other }
  events := []
  received _ := []
  accepted _ := []
  closed _ := false
  outcome := none

/-! ## Runs -/

/-- `select` collects the keys of a batch as they are registered then; `handle` is one turn
of the loop over them. -/
inductive Action where
  | select (ready : List (Endpoint × EventMask))
  | handle (recv : RecvAnswer) (send : SendAnswer)
  deriving DecidableEq, Repr

def collect (self : Relay) (ready : List (Endpoint × EventMask)) : Relay :=
  { self with
    events := ready.filterMap fun (sock, mask) => (self.registered sock).map fun key => (key, mask) }

def turn (self : Relay) : Action → Relay
  | .select ready => collect self ready
  | .handle recv send =>
      match self.events with
      | [] => self
      | (key, mask) :: rest => handleEvent { self with events := rest } key mask recv send

/-- A selector names each socket once, for events it is registered for. -/
def Selectable (self : Relay) (ready : List (Endpoint × EventMask)) : Prop :=
  (ready.map (·.1)).Nodup ∧ ∀ item ∈ ready, ∃ key ∈ self.registered item.1,
    (item.2.read = true → key.events.read = true) ∧ (item.2.write = true → key.events.write = true)

def RecvAnswer.data : RecvAnswer → List Byte
  | .bytes data => data
  | _ => []

def SendAnswer.count : SendAnswer → Nat
  | .sent count => count
  | _ => 0

/-- What a socket can answer: at most the bytes asked for, and at most the bytes given. -/
def Answerable (self : Relay) (key : SelectorKey) (recv : RecvAnswer) (send : SendAnswer) : Prop :=
  recv.data.length ≤ 65536 ∧ send.count ≤ (self.pending key.fileobj).length

/-- The loop selects when the last batch is handled and something is registered. -/
def Possible (self : Relay) : Action → Prop
  | .select ready => self.outcome = none ∧ self.events = [] ∧
      ((self.registered .client).isSome = true ∨ (self.registered .backend).isSome = true) ∧
      Selectable self ready
  | .handle recv send => self.outcome = none ∧
      ∃ item ∈ self.events.head?, Answerable self item.1 recv send

instance (self : Relay) (ready : List (Endpoint × EventMask)) : Decidable (Selectable self ready) :=
  inferInstanceAs (Decidable (_ ∧ _))

instance (self : Relay) (key : SelectorKey) (recv : RecvAnswer) (send : SendAnswer) :
    Decidable (Answerable self key recv send) := inferInstanceAs (Decidable (_ ∧ _))

instance (self : Relay) : ∀ action, Decidable (Possible self action)
  | .select _ => inferInstanceAs (Decidable (_ ∧ _))
  | .handle _ _ => inferInstanceAs (Decidable (_ ∧ _))

def relaying : System Relay Action where
  initial start := start = startRelay
  step before action after := Possible before action ∧ turn before action = after

end XrdpConsole.ProxyRelay
