import XrdpConsole.ChannelDelivery
import XrdpConsole.EgfxReceive
import XrdpConsole.EgfxRoundTrip

/-!
# What the server hears of the graphics client

Messages that a client puts together and cuts in any way lead to exactly their calls of the manager,
whatever arrives on other channels in between.
-/

namespace XrdpConsole.EgfxHeard

open XrdpConsole.Library
open XrdpConsole.Library.ByteStream
open XrdpConsole.LineReader
open XrdpConsole.DynamicChannel
open XrdpConsole.ChannelRuns
open XrdpConsole.ChannelDelivery
open XrdpConsole.EgfxWire
open XrdpConsole.EgfxRoundTrip
open XrdpConsole.EgfxReceive

set_option autoImplicit false

/-! ## Single messages -/

theorem message_length (cmdId flags : Int) (body : List Byte) :
    (message cmdId flags body).length = 8 + body.length := by
  simp only [message, claiming, List.length_append, field_bytes_length]
  rfl

theorem signed_length {length : Nat} (small : length < 2 ^ 31) :
    signed 4 (Field.u32 length).held = length := by
  exact signed_held (Field.u32 length) (by simp only [Field.u32]; omega)
    (by simp only [Field.u32]; omega)

theorem in_header {s : ByteStream} {cmdId flags : Int} {pduLength : Nat} {body : List Byte}
    (here : s.At (claiming cmdId flags pduLength body)) (command : (Field.u16 cmdId).Fits)
    (small : pduLength < 2 ^ 31) :
    inHeader s = some ((cmdId, (pduLength : Int)), { s.skip 8 with stop := s.pos + pduLength }) ∧
      (s.skip 8).At body := by
  have fields : s.At ((Field.u16 cmdId).bytes ++ ((Field.u16 flags).bytes ++
      ((Field.u32 pduLength).bytes ++ body))) := by
    simpa [claiming] using here
  have first := in_field fields
  have afterFirst := at_field fields
  have second := in_field afterFirst
  have afterSecond := at_field afterFirst
  have third := in_field afterSecond
  have afterThird := at_field afterSecond
  have length := signed_length small
  rw [Field.held_fits command] at first
  simp only [skip_skip] at second third afterThird
  simp only [Field.u16, Field.u32] at first second third length afterThird
  constructor
  · simp only [inHeader, Option.bind_eq_bind, first, second, third, Option.bind_some, length]
    rfl
  · exact afterThird

theorem message_append (cmdId flags : Int) (body rest : List Byte) :
    message cmdId flags body ++ rest = claiming cmdId flags (8 + body.length) (body ++ rest) := by
  simp only [message, claiming, List.append_assoc]

/-- The head of a message is read, its body processed, and the walk goes on behind it. -/
theorem process_message {s : ByteStream} {cmdId flags : Int} {body rest : List Byte}
    {calls : List EgfxCallback}
    (here : s.At (message cmdId flags body ++ rest)) (command : (Field.u16 cmdId).Fits)
    (small : 8 + body.length < 2 ^ 31) (inside : s.pos + (8 + body.length : Nat) ≤ s.stop)
    (processed : processBody cmdId { s.skip 8 with stop := s.pos + ((8 + body.length : Nat) : Int) } =
      some (true, calls)) :
    xrdpEgfxProcess s = (xrdpEgfxProcess (s.skip ((8 + body.length : Nat) : Int))).map fun later =>
      (later.1, calls ++ later.2) := by
  rw [message_append] at here
  obtain ⟨header, -⟩ := in_header here command small
  have long : ¬((8 + body.length : Nat) : Int) < 8 := by omega
  have room : checkRem { s.skip 8 with stop := s.pos + ((8 + body.length : Nat) : Int) }
      (((8 + body.length : Nat) : Int) - 8) = true := by
    simp only [checkRem, skip]
    exact decide_eq_true (by omega)
  rw [xrdpEgfxProcess, if_pos (by omega), header]
  simp only [dif_neg long, room, processed]
  rfl

theorem process_frame_ack {s : ByteStream} {queueDepth frameId totalFramesDecoded : Int}
    {rest : List Byte}
    (here : s.At (fieldBytes [.u32 queueDepth, .u32 frameId, .u32 totalFramesDecoded] ++ rest))
    (depth : (Field.u32 queueDepth).Fits) (frame : (Field.u32 frameId).Fits)
    (total : (Field.u32 totalFramesDecoded).Fits) (inside : s.pos + 12 ≤ s.stop) :
    xrdpEgfxProcessFrameAck s =
      some (true, callsOf (.frameAcknowledge queueDepth frameId totalFramesDecoded)) := by
  have fields : s.At ((Field.u32 queueDepth).bytes ++ ((Field.u32 frameId).bytes ++
      ((Field.u32 totalFramesDecoded).bytes ++ rest))) := by
    simpa using here
  have first := in_field fields
  have afterFirst := at_field fields
  have second := in_field afterFirst
  have third := in_field (at_field afterFirst)
  have room : s.checkRem 12 = true := decide_eq_true inside
  rw [Field.held_fits depth] at first
  rw [Field.held_fits frame] at second
  rw [Field.held_fits total] at third
  simp only [Field.u32] at first second third
  simp only [xrdpEgfxProcessFrameAck, room, Option.bind_eq_bind, first, second, third,
    Option.bind_some]
  rfl

theorem caps_set_length (set : CapsSet) : (capsSetBytes set).length = 8 + set.capsData.length := by
  simp only [capsSetBytes, List.length_append, field_bytes_length]
  rfl

/-- One set is read, and the others behind it. -/
theorem read_caps_set {s : ByteStream} {set : CapsSet} {rest : List Byte} (left : Nat)
    (here : s.At (capsSetBytes set ++ rest)) (small : set.capsData.length < 2 ^ 31)
    (inside : s.pos + (8 + set.capsData.length) ≤ s.stop) :
    readCapsSets (left + 1) s = (readCapsSets left (s.skip (8 + set.capsData.length))).map fun more =>
      (more.1, (versionFlags set).toList ++ more.2) := by
  have fields : s.At ((Field.u32 set.version).bytes ++ ((Field.u32 set.capsData.length).bytes ++
      (set.capsData ++ rest))) := by
    simpa [capsSetBytes] using here
  have length := signed_length small
  have first := in_field fields
  have afterFirst := at_field fields
  have second := in_field afterFirst
  have flags := in_uint_at (at_field afterFirst)
  rw [skip_skip] at second flags
  have behind : (s.skip 8).skip set.capsData.length = s.skip (8 + set.capsData.length) := skip_skip ..
  have roomHead : s.checkRem 8 = true := decide_eq_true (by omega)
  have roomData : (s.skip 8).checkRem set.capsData.length = true := by
    simp only [checkRem, skip]
    exact decide_eq_true (by omega)
  simp only [Field.u32] at first second flags length
  change _ = some (_, s.skip 8) at second
  change (s.skip 8).inUint set.capsData.length = _ at flags
  simp only [readCapsSets, roomHead, Option.bind_eq_bind, first, second, Option.bind_some, length,
    roomData, behind, Bool.not_true, Bool.false_eq_true, if_false]
  by_cases four : set.capsData.length = 4
  · rw [four] at flags
    rw [if_pos (by omega), flags]
    simp only [versionFlags, four, if_true]
    cases readCapsSets left (s.skip (8 + (4 : Nat))) <;> rfl
  · rw [if_neg (by omega)]
    simp only [versionFlags, if_neg four]
    cases readCapsSets left (s.skip (8 + set.capsData.length)) <;> rfl

theorem read_caps_sets {s : ByteStream} {capsSets : List CapsSet} {rest : List Byte}
    (here : s.At (capsSets.flatMap capsSetBytes ++ rest))
    (small : ∀ set ∈ capsSets, set.capsData.length < 2 ^ 31)
    (inside : s.pos + (capsSets.flatMap capsSetBytes).length ≤ s.stop) :
    readCapsSets capsSets.length s = some (true, capsSets.filterMap versionFlags) := by
  induction capsSets generalizing s with
  | nil => rfl
  | cons set sets ih =>
      rw [List.flatMap_cons, List.append_assoc] at here
      rw [List.flatMap_cons, List.length_append, caps_set_length] at inside
      have behind := at_skip here
      rw [caps_set_length] at behind
      have more := ih behind (fun other member => small other (List.mem_cons_of_mem set member)) (by
        simp only [skip]
        omega)
      rw [List.length_cons, read_caps_set sets.length here (small set (List.mem_cons_self ..)) (by omega)]
      rw [Int.natCast_add] at more
      change readCapsSets sets.length (s.skip (8 + set.capsData.length)) = _ at more
      rw [more, List.filterMap_cons]
      cases versionFlags set <;> rfl

theorem process_caps_advertise {s : ByteStream} {capsSets : List CapsSet} {rest : List Byte}
    (here : s.At (fieldBytes [.u16 capsSets.length] ++ capsSets.flatMap capsSetBytes ++ rest))
    (some_set : 1 ≤ capsSets.length) (few : capsSets.length ≤ 1024)
    (small : ∀ set ∈ capsSets, set.capsData.length < 2 ^ 31)
    (inside : s.pos + (2 + (capsSets.flatMap capsSetBytes).length) ≤ s.stop) :
    xrdpEgfxProcessCapsadvertise s = some (true, callsOf (.capsAdvertise capsSets)) := by
  have fields : s.At ((Field.u16 capsSets.length).bytes ++ (capsSets.flatMap capsSetBytes ++ rest)) := by
    simpa using here
  have count := in_field fields
  have behind := at_field fields
  rw [Field.held_fits (u16_fits.mpr ⟨by omega, by omega⟩)] at count
  simp only [Field.u16] at count behind
  have sets := read_caps_sets behind small (by
    simp only [skip]
    omega)
  simp only [xrdpEgfxProcessCapsadvertise, Option.bind_eq_bind, count, Option.bind_some]
  rw [if_neg (by omega), Int.toNat_natCast, sets]
  simp only [Option.bind_some, callsOf, true_and]

/-! ## Whole streams -/

theorem body_processed {s : ByteStream} {client : ClientMessage} {rest : List Byte}
    (sound : Sound client) (here : s.At (bodyBytes client ++ rest))
    (inside : s.pos + (bodyBytes client).length ≤ s.stop) :
    processBody (commandOf client) s = some (true, callsOf client) := by
  obtain ⟨length, fields⟩ := sound
  cases client with
  | frameAcknowledge queueDepth frameId totalFramesDecoded =>
      obtain ⟨depth, frame, total⟩ := fields
      exact process_frame_ack here depth frame total inside
  | capsAdvertise capsSets =>
      obtain ⟨some_set, few⟩ := fields
      have sizes : (bodyBytes (.capsAdvertise capsSets)).length =
          2 + (capsSets.flatMap capsSetBytes).length := by
        simp only [bodyBytes, List.length_append, field_bytes_length]
        rfl
      have small : ∀ set ∈ capsSets, set.capsData.length < 2 ^ 31 := by
        intro set member
        obtain ⟨front, back, rfl⟩ := List.append_of_mem member
        rw [messageBytes, message_length, sizes, List.flatMap_append, List.flatMap_cons] at length
        simp only [List.length_append, caps_set_length] at length
        omega
      exact process_caps_advertise here some_set few small (by omega)
  | other cmdId body =>
      obtain ⟨-, no_ack, no_caps⟩ := fields
      simp only [processBody, commandOf, no_ack, no_caps, if_false, callsOf]

theorem command_fits {client : ClientMessage} (sound : Sound client) :
    (Field.u16 (commandOf client)).Fits := by
  have fields := sound.fields
  cases client with
  | frameAcknowledge queueDepth frameId totalFramesDecoded =>
      exact u16_fits.mpr (by simp [commandOf, cmdidFrameAcknowledge])
  | capsAdvertise capsSets => exact u16_fits.mpr (by simp [commandOf, cmdidCapsAdvertise])
  | other cmdId body => exact fields.1

theorem process_end {s : ByteStream} (ended : s.stop < s.pos + 8) :
    xrdpEgfxProcess s = some (true, []) := by
  rw [xrdpEgfxProcess, if_neg (by omega)]

/-- The calls of sound messages are made before the walk comes to what is behind them. -/
theorem process_messages {s : ByteStream} {clients : List ClientMessage} {rest : List Byte}
    (sound : ∀ client ∈ clients, Sound client) (here : s.At (clients.flatMap messageBytes ++ rest))
    (inside : s.pos + (clients.flatMap messageBytes).length ≤ s.stop) :
    xrdpEgfxProcess s =
      (xrdpEgfxProcess (s.skip (clients.flatMap messageBytes).length)).map fun later =>
        (later.1, clients.flatMap callsOf ++ later.2) := by
  induction clients generalizing s with
  | nil =>
      have nothing : s.skip (([] : List ClientMessage).flatMap messageBytes).length = s := by
        simp [skip]
      rw [nothing]
      cases xrdpEgfxProcess s <;> rfl
  | cons client clients ih =>
      have soundFirst := sound client (List.mem_cons_self ..)
      have command := command_fits soundFirst
      have length := soundFirst.length
      rw [messageBytes, message_length] at length
      have sizes : ((client :: clients).flatMap messageBytes).length =
          8 + (bodyBytes client).length + (clients.flatMap messageBytes).length := by
        rw [List.flatMap_cons, List.length_append, messageBytes, message_length]
      rw [List.flatMap_cons, List.append_assoc] at here
      rw [sizes] at inside
      have head := here
      rw [messageBytes, message_append] at head
      obtain ⟨-, body⟩ := in_header head command length
      have processed := body_processed soundFirst
        (at_stop body (s.pos + ((8 + (bodyBytes client).length : Nat) : Int))) (by
          simp only [skip]
          omega)
      have behind := at_skip here
      rw [messageBytes, message_length] at behind
      have later := ih (fun other member => sound other (List.mem_cons_of_mem client member)) behind (by
        simp only [skip]
        omega)
      rw [process_message here command length (by omega) processed, later, skip_skip,
        ← Int.natCast_add, Option.map_map, sizes]
      simp only [Function.comp_def, List.flatMap_cons, List.append_assoc]

/-- A stream of sound messages leads to their calls, one after the other. -/
theorem process_stream {clients : List ClientMessage} (sound : ∀ client ∈ clients, Sound client) :
    xrdpEgfxProcess (.ofBytes (clients.flatMap messageBytes)) =
      some (true, clients.flatMap callsOf) := by
  have here : At (.ofBytes (clients.flatMap messageBytes)) (clients.flatMap messageBytes ++ []) := by
    rw [List.append_nil]
    exact at_of_bytes _
  have ended : ((ofBytes (clients.flatMap messageBytes)).skip
      (clients.flatMap messageBytes).length).stop <
        ((ofBytes (clients.flatMap messageBytes)).skip (clients.flatMap messageBytes).length).pos + 8 := by
    simp only [skip, ofBytes]
    omega
  rw [process_messages sound here (by simp only [ofBytes]; omega), process_end ended, Option.map_some,
    List.append_nil]

theorem frame_ack_outside {s : ByteStream} {body : List Byte} (here : s.At body)
    (room : s.pos + 12 ≤ s.stop) (short : body.length < 12) : xrdpEgfxProcessFrameAck s = none := by
  have checked : s.checkRem 12 = true := decide_eq_true room
  simp only [xrdpEgfxProcessFrameAck, checked, Bool.not_true, Bool.false_eq_true, if_false,
    Option.bind_eq_bind]
  by_cases first : body.length < 4
  · rw [in_uint_short here first, Option.bind_none]
  · obtain ⟨value, behind⟩ := in_uint_enough here (by omega : 4 ≤ body.length)
    rw [value, Option.bind_some]
    by_cases second : (body.drop 4).length < 4
    · rw [in_uint_short behind second, Option.bind_none]
    · obtain ⟨value, last⟩ := in_uint_enough behind (by omega : 4 ≤ (body.drop 4).length)
      rw [value, Option.bind_some, in_uint_short last (by simp only [List.length_drop]; omega),
        Option.bind_none]

theorem short_acknowledgement {s : ByteStream} {pduLength : Nat} {body : List Byte}
    (here : s.At (claiming cmdidFrameAcknowledge 0 pduLength body))
    (claimed : 20 ≤ pduLength ∧ pduLength < 2 ^ 31) (short : body.length < 12)
    (inside : s.pos + 8 ≤ s.stop) : xrdpEgfxProcess s = none := by
  have command : (Field.u16 cmdidFrameAcknowledge).Fits :=
    u16_fits.mpr (by simp [cmdidFrameAcknowledge])
  obtain ⟨header, ahead⟩ := in_header here command claimed.2
  have long : ¬(pduLength : Int) < 8 := by omega
  have room : checkRem { s.skip 8 with stop := s.pos + pduLength } ((pduLength : Int) - 8) = true := by
    simp only [checkRem, skip]
    exact decide_eq_true (by omega)
  have outside := frame_ack_outside (at_stop ahead (s.pos + pduLength)) (by
    simp only [skip]
    omega) short
  rw [xrdpEgfxProcess, if_pos inside, header]
  simp only [dif_neg long, room, processBody, if_true, outside, Bool.not_true, Bool.false_eq_true,
    if_false]

/-- An acknowledgement that claims its whole length is read beyond the end of the data when part of it
is missing, whatever comes before it. -/
theorem short_acknowledgement_outside {clients : List ClientMessage}
    (sound : ∀ client ∈ clients, Sound client) {pduLength : Nat}
    (claimed : 20 ≤ pduLength ∧ pduLength < 2 ^ 31) {body : List Byte} (short : body.length < 12) :
    xrdpEgfxProcess (.ofBytes
      (clients.flatMap messageBytes ++ claiming cmdidFrameAcknowledge 0 pduLength body)) = none := by
  have here := at_of_bytes
    (clients.flatMap messageBytes ++ claiming cmdidFrameAcknowledge 0 pduLength body)
  have sizes : (claiming cmdidFrameAcknowledge 0 pduLength body).length = 8 + body.length := by
    simp only [claiming, List.length_append, field_bytes_length]
    rfl
  have outside := short_acknowledgement (at_skip here) claimed short (by
    simp only [skip, ofBytes, List.length_append, sizes]
    omega)
  rw [process_messages sound here (by simp only [ofBytes, List.length_append]; omega), outside,
    Option.map_none]

theorem short_acknowledgement_outside_empty :
    xrdpEgfxProcess (.ofBytes (messageBytes (.frameAcknowledge 0 5 5) ++
      claiming cmdidFrameAcknowledge 0 20 [])) = none := by
  have sound : ∀ client ∈ [ClientMessage.frameAcknowledge 0 5 5], Sound client := by
    simp only [List.forall_mem_cons]
    exact ⟨⟨by decide, by decide⟩, by simp⟩
  exact short_acknowledgement_outside sound (by decide) (by decide)

end XrdpConsole.EgfxHeard
