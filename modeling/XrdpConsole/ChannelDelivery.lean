import XrdpConsole.ChannelRuns

/-!
# What the client of a dynamic channel receives

The client puts together the data that it finds for a channel among the packets of the static one,
whatever goes on with the other channels.
-/

namespace XrdpConsole.ChannelDelivery

open XrdpConsole.Library
open XrdpConsole.Library.Field
open XrdpConsole.LineReader
open XrdpConsole.DynamicChannel
open XrdpConsole.ChannelRuns

set_option autoImplicit false

variable {Procs : Type}

/-! ## The client -/

/-- The fragment for this channel that a packet carries. -/
def fragmentOf (chanId : Int) (packet : StaticPacket) : Option (Fragment Byte) :=
  if packet.flags ≠ 3 ∨ packet.totalDataLen ≠ packet.data.length then none
  else
    match packet.data with
    | [] => none
    | cmd :: s =>
        match getUint124 s (cmd.toNat &&& 0x03) with
        | none => none
        | some (id, s) =>
            if id ≠ chanId then none
            else if cmd.toNat &&& 0xf0 = cmdDvcData then some (.next s)
            else if cmd.toNat &&& 0xf0 = cmdDvcDataFirst then
              match getUint124 s (cmd.toNat >>> 2 &&& 0x03) with
              | none => none
              | some (total, s) => some (.first total.toNat s)
            else none

/-- The data of a call on this channel that went well. -/
def deliveredOn (chanId : Int) (label : ChannelOp Procs × Outcome Procs) : Option (List Byte) :=
  match label.1, label.2 with
  | .egfxSend id data, .done true => if id = chanId then some data else none
  | _, _ => none

/-! ## Numbers of one, two or four bytes -/

theorem insert_code (val : Int) : (drdynvcInsertUint124 val).1 = 0 ∨ (drdynvcInsertUint124 val).1 = 1 ∨
    (drdynvcInsertUint124 val).1 = 2 := by
  simp only [drdynvcInsertUint124]
  split
  · simp
  · split <;> simp

/-- A number is read back from as many bytes as it was written to. -/
theorem get_insert {val : Int} (fits : 0 ≤ val ∧ val < 2 ^ 32) (rest : List Byte) :
    getUint124 ((drdynvcInsertUint124 val).2 ++ rest) (drdynvcInsertUint124 val).1 =
      some (val, rest) := by
  have whole : val % 2 ^ 32 = val := Int.emod_eq_of_lt fits.1 fits.2
  have back : ∀ field : Field, field.Fits →
      readFields [field.width] (field.bytes ++ rest) = some ([field.value], rest) := by
    intro field field_fits
    have row := @read_fields_fit [field] (by simpa using field_fits) rest
    simpa using row
  simp only [drdynvcInsertUint124, whole]
  split
  · have read_back := back (u8 val) ⟨fits.1, by simp only [u8]; omega⟩
    simp only [u8] at read_back
    simp [getUint124, u8, read_back]
  · split
    · have read_back := back (u16 val) ⟨fits.1, by simp only [u16]; omega⟩
      simp only [u16] at read_back
      simp [getUint124, u16, read_back]
    · have read_back := back (u32 val) ⟨fits.1, by simp only [u32]; omega⟩
      simp only [u32] at read_back
      simp [getUint124, u32, read_back]

/-! ## Packets -/

def commandPacket (chanid : Int) (cmd : Nat) (rest : List Byte) : StaticPacket where
  chanid := chanid
  totalDataLen := (UInt8.ofNat cmd :: rest).length
  flags := 3
  data := UInt8.ofNat cmd :: rest

theorem plain_bits {base code : Nat}
    (known : base ∈ [cmdDvcOpenChannel, cmdDvcData, cmdDvcCloseChannel])
    (number : code = 0 ∨ code = 1 ∨ code = 2) :
    (UInt8.ofNat (base ||| code)).toNat &&& 0x03 = code ∧
      (UInt8.ofNat (base ||| code)).toNat &&& 0xf0 = base := by
  simp only [List.mem_cons, List.not_mem_nil, or_false] at known
  rcases known with rfl | rfl | rfl <;> rcases number with rfl | rfl | rfl <;> decide

theorem first_bits {total code : Nat} (length : total = 0 ∨ total = 1 ∨ total = 2)
    (number : code = 0 ∨ code = 1 ∨ code = 2) :
    (UInt8.ofNat (cmdDvcDataFirst ||| total <<< 2 ||| code)).toNat &&& 0x03 = code ∧
      (UInt8.ofNat (cmdDvcDataFirst ||| total <<< 2 ||| code)).toNat &&& 0xf0 = cmdDvcDataFirst ∧
      (UInt8.ofNat (cmdDvcDataFirst ||| total <<< 2 ||| code)).toNat >>> 2 &&& 0x03 = total := by
  rcases length with rfl | rfl | rfl <;> rcases number with rfl | rfl | rfl <;> decide

/-- A packet for another channel. -/
theorem fragment_of_other {chanid chanId id : Int} {cmd : Nat} (fits : 0 ≤ id ∧ id ≤ 255)
    (number : (UInt8.ofNat cmd).toNat &&& 0x03 = (drdynvcInsertUint124 id).1) (other : id ≠ chanId)
    (rest : List Byte) :
    fragmentOf chanId (commandPacket chanid cmd ((drdynvcInsertUint124 id).2 ++ rest)) = none := by
  have id_read := get_insert ⟨fits.1, by omega⟩ rest
  simp only [fragmentOf, commandPacket, ne_eq, not_true_eq_false, or_self, if_false, number, id_read]
  rw [if_pos other]

theorem fragment_of_data {id : Int} (fits : 0 ≤ id ∧ id ≤ 255) (chanid : Int) (data : List Byte) :
    fragmentOf id (commandPacket chanid (cmdDvcData ||| (drdynvcInsertUint124 id).1)
      ((drdynvcInsertUint124 id).2 ++ data)) = some (.next data) := by
  obtain ⟨number, command⟩ := @plain_bits cmdDvcData _ (by decide) (insert_code id)
  have id_read := get_insert ⟨fits.1, by omega⟩ data
  simp only [fragmentOf, commandPacket, ne_eq, not_true_eq_false, or_self, if_false, number, id_read,
    command, if_true]

theorem fragment_of_first {id : Int} (fits : 0 ≤ id ∧ id ≤ 255) (chanid : Int)
    {total : Int} (total_fits : 0 ≤ total ∧ total < 2 ^ 32) (data : List Byte) :
    fragmentOf id (commandPacket chanid
      (cmdDvcDataFirst ||| (drdynvcInsertUint124 total).1 <<< 2 ||| (drdynvcInsertUint124 id).1)
      ((drdynvcInsertUint124 id).2 ++ ((drdynvcInsertUint124 total).2 ++ data))) =
      some (.first total.toNat data) := by
  obtain ⟨number, command, length⟩ := first_bits (insert_code total) (insert_code id)
  have id_read := get_insert ⟨fits.1, by omega⟩ ((drdynvcInsertUint124 total).2 ++ data)
  have total_read := get_insert total_fits data
  have distinct : cmdDvcDataFirst ≠ cmdDvcData := by decide
  simp only [fragmentOf, commandPacket, ne_eq, not_true_eq_false, or_self, if_false, number, id_read,
    command, length, total_read, distinct, if_true]

/-- Requests carry no data. -/
theorem fragment_of_request {base : Nat} (request : base = cmdDvcOpenChannel ∨ base = cmdDvcCloseChannel)
    {id : Int} (fits : 0 ≤ id ∧ id ≤ 255) (chanid chanId : Int) (rest : List Byte) :
    fragmentOf chanId (commandPacket chanid (base ||| (drdynvcInsertUint124 id).1)
      ((drdynvcInsertUint124 id).2 ++ rest)) = none := by
  obtain ⟨number, command⟩ := @plain_bits base _
    (by rcases request with rfl | rfl <;> decide) (insert_code id)
  by_cases same : id = chanId
  · subst same
    have id_read := get_insert ⟨fits.1, by omega⟩ rest
    have no_data : base ≠ cmdDvcData ∧ base ≠ cmdDvcDataFirst := by
      rcases request with rfl | rfl <;> decide
    simp only [fragmentOf, commandPacket, ne_eq, not_true_eq_false, or_self, if_false, number, id_read,
      command, no_data.1, no_data.2]
  · exact fragment_of_other fits number same rest

theorem fragment_of_capabilities (chanid chanId : Int) :
    fragmentOf chanId (commandPacket chanid 0x50
      (fieldBytes [u8 0x00, u16 2, u16 0, u16 0, u16 0, u16 0])) = none := by
  have bytes : fieldBytes [u8 0x00, u16 2, u16 0, u16 0, u16 0, u16 0] =
      [0, 2, 0, 0, 0, 0, 0, 0, 0, 0, 0] := by decide
  rw [bytes]
  by_cases zero : (0 : Int) = chanId
  · rw [← zero]
    rfl
  · simp [fragmentOf, commandPacket, getUint124, readFields, zero, littleEndian]

/-! ## A link that takes every packet -/

structure Working (session : XrdpChannel Procs) : Prop where
  order : InOrder session.channelList
  taken : session.sendResults = []
  enabled : ∀ item,
    xrdpChannelGetItem session session.drdynvcChannelId = some item → item.disabled = false

/-- What data needs to go out on a channel. -/
structure Ready (session : XrdpChannel Procs) (id : Int) : Prop where
  number : 0 ≤ id ∧ id ≤ 255
  opened : (session.drdynvcs id).status = .opened
  started : (xrdpChannelGetItem session session.drdynvcChannelId).isSome

def push (self : XrdpChannel Procs) (packets : List StaticPacket) : XrdpChannel Procs :=
  { self with sent := self.sent ++ packets }

theorem push_nil (self : XrdpChannel Procs) : push self [] = self := by
  rw [push, List.append_nil]

theorem push_push (self : XrdpChannel Procs) (packets later : List StaticPacket) :
    push (push self packets) later = push self (packets ++ later) := by
  simp only [push, List.append_assoc]

theorem working_push {self : XrdpChannel Procs} (working : Working self)
    (packets : List StaticPacket) : Working (push self packets) :=
  ⟨working.order, working.taken, working.enabled⟩

theorem ready_push {self : XrdpChannel Procs} {id : Int} (ready : Ready self id)
    (packets : List StaticPacket) : Ready (push self packets) id :=
  ⟨ready.number, ready.opened, ready.started⟩

theorem command_sent {self : XrdpChannel Procs} (working : Working self)
    (started : (xrdpChannelGetItem self self.drdynvcChannelId).isSome) (cmd : Nat)
    (rest : List Byte) :
    ∃ chanid, sendCommand self cmd rest = (true, push self [commandPacket chanid cmd rest]) := by
  obtain ⟨item, found⟩ := Option.isSome_iff_exists.mp started
  refine ⟨item.chanid, ?_⟩
  simp only [sendCommand, xrdpChannelSend, found, working.enabled item found, working.taken,
    List.headD_nil, List.tail_nil, Bool.false_eq_true, if_false, if_true, push, commandPacket]

theorem command_idle {self : XrdpChannel Procs}
    (idle : ¬(xrdpChannelGetItem self self.drdynvcChannelId).isSome) (cmd : Nat)
    (rest : List Byte) : sendCommand self cmd rest = (false, self) := by
  have none_found : xrdpChannelGetItem self self.drdynvcChannelId = none := by simpa using idle
  simp only [sendCommand, xrdpChannelSend, none_found]

theorem data_ready {self : XrdpChannel Procs} (working : Working self) {id : Int}
    (ready : Ready self id) {data : List Byte} (small : data.length ≤ 1590) :
    ∃ chanid, xrdpChannelDrdynvcData self id data =
      (true, push self [commandPacket chanid (cmdDvcData ||| (drdynvcInsertUint124 id).1)
        ((drdynvcInsertUint124 id).2 ++ data)]) := by
  have number := ready.number
  rw [xrdpChannelDrdynvcData, if_neg (by omega), if_neg (not_not.mpr ready.opened), if_neg (by omega)]
  exact command_sent working ready.started _ _

theorem data_first_ready {self : XrdpChannel Procs} (working : Working self) {id : Int}
    (ready : Ready self id) {data : List Byte} (small : data.length ≤ 1590) (total : Int) :
    ∃ chanid, xrdpChannelDrdynvcDataFirst self id data total =
      (true, push self [commandPacket chanid
        (cmdDvcDataFirst ||| (drdynvcInsertUint124 total).1 <<< 2 ||| (drdynvcInsertUint124 id).1)
        ((drdynvcInsertUint124 id).2 ++ ((drdynvcInsertUint124 total).2 ++ data))]) := by
  have number := ready.number
  rw [xrdpChannelDrdynvcDataFirst, if_neg (by omega), if_neg (not_not.mpr ready.opened),
    if_neg (by omega)]
  exact command_sent working ready.started _ _

theorem data_unready {self : XrdpChannel Procs} {id : Int} (unready : ¬Ready self id)
    (data : List Byte) : xrdpChannelDrdynvcData self id data = (false, self) := by
  unfold xrdpChannelDrdynvcData
  split
  · rfl
  · rename_i number
    split
    · rfl
    · rename_i opened
      split
      · rfl
      · apply command_idle
        intro started
        exact unready ⟨by omega, not_not.mp opened, started⟩

theorem data_first_unready {self : XrdpChannel Procs} {id : Int} (unready : ¬Ready self id)
    (data : List Byte) (total : Int) :
    xrdpChannelDrdynvcDataFirst self id data total = (false, self) := by
  unfold xrdpChannelDrdynvcDataFirst
  split
  · rfl
  · rename_i number
    split
    · rfl
    · rename_i opened
      split
      · rfl
      · apply command_idle
        intro started
        exact unready ⟨by omega, not_not.mp opened, started⟩

theorem fragments_data {id : Int} (fits : 0 ≤ id ∧ id ≤ 255) (chanid chanId : Int)
    (data : List Byte) :
    [commandPacket chanid (cmdDvcData ||| (drdynvcInsertUint124 id).1)
      ((drdynvcInsertUint124 id).2 ++ data)].filterMap (fragmentOf chanId) =
      if id = chanId then [.next data] else [] := by
  by_cases same : id = chanId
  · subst same
    simp only [List.filterMap_cons, fragment_of_data fits, List.filterMap_nil, if_true]
  · have number := (@plain_bits cmdDvcData _ (by decide) (insert_code id)).1
    simp only [List.filterMap_cons, fragment_of_other fits number same, List.filterMap_nil, same,
      if_false]

theorem pieces_ready {self : XrdpChannel Procs} (working : Working self) {id : Int}
    (ready : Ready self id) {parts : List (List Byte)}
    (small : ∀ part ∈ parts, part.length ≤ 1590) (chanId : Int) :
    ∃ packets, sendPieces self id parts = (true, push self packets) ∧
      packets.filterMap (fragmentOf chanId) = if id = chanId then parts.map .next else [] := by
  induction parts generalizing self with
  | nil => exact ⟨[], by rw [push_nil]; rfl, by simp⟩
  | cons part parts ih =>
      obtain ⟨chanid, first⟩ := data_ready working ready (small part (List.mem_cons_self ..))
      have frags := fragments_data ready.number chanid chanId part
      generalize commandPacket chanid (cmdDvcData ||| (drdynvcInsertUint124 id).1)
        ((drdynvcInsertUint124 id).2 ++ part) = packet at first frags
      obtain ⟨packets, rest, fragments⟩ := ih (working_push working [packet])
        (ready_push ready [packet]) fun other member => small other (List.mem_cons_of_mem part member)
      refine ⟨packet :: packets, ?_, ?_⟩
      · rw [push_push] at rest
        simp only [sendPieces, first, if_true, rest, List.singleton_append]
      · have joined := @List.filterMap_append _ _ [packet] packets (fragmentOf chanId)
        rw [List.singleton_append] at joined
        rw [joined, frags, fragments]
        split <;> rfl

theorem egfx_ready {self : XrdpChannel Procs} (working : Working self) {id : Int}
    (ready : Ready self id) (data : List Byte) {chanId : Int}
    (small : id = chanId → data.length < 2 ^ 31) :
    ∃ packets, xrdpEgfxSendData self id data = (true, push self packets) ∧
      packets.filterMap (fragmentOf chanId) = if id = chanId then cut 1500 data else [] := by
  unfold xrdpEgfxSendData cut
  by_cases short : data.length ≤ 1500
  · rw [if_pos short, if_pos short]
    obtain ⟨chanid, whole⟩ := data_ready working ready (by omega : data.length ≤ 1590)
    exact ⟨_, whole, fragments_data ready.number chanid chanId data⟩
  · rw [if_neg short, if_neg short]
    obtain ⟨chanid, first⟩ := data_first_ready working ready
      (by rw [List.length_take]; omega : (data.take 1500).length ≤ 1590) data.length
    have frags : [commandPacket chanid (cmdDvcDataFirst |||
        (drdynvcInsertUint124 data.length).1 <<< 2 ||| (drdynvcInsertUint124 id).1)
        ((drdynvcInsertUint124 id).2 ++ ((drdynvcInsertUint124 data.length).2 ++
          data.take 1500))].filterMap (fragmentOf chanId) =
        if id = chanId then [.first data.length (data.take 1500)] else [] := by
      by_cases same : id = chanId
      · have bound := small same
        subst same
        simp only [List.filterMap_cons, List.filterMap_nil, if_true, Int.toNat_natCast,
          fragment_of_first ready.number chanid (⟨by omega, by omega⟩ :
            (0 : Int) ≤ data.length ∧ (data.length : Int) < 2 ^ 32)]
      · have number := (first_bits (insert_code data.length) (insert_code id)).1
        simp only [List.filterMap_cons, fragment_of_other ready.number number same,
          List.filterMap_nil, same, if_false]
    generalize commandPacket chanid (cmdDvcDataFirst |||
        (drdynvcInsertUint124 data.length).1 <<< 2 ||| (drdynvcInsertUint124 id).1)
        ((drdynvcInsertUint124 id).2 ++ ((drdynvcInsertUint124 data.length).2 ++
          data.take 1500)) = packet at first frags
    have bounds := pieces_bounds (by decide : 0 < 1500) (data.drop 1500)
    obtain ⟨packets, rest, fragments⟩ := pieces_ready (working_push working [packet])
      (ready_push ready [packet]) (fun part member => by
        have bound := bounds part member
        omega) chanId
    refine ⟨packet :: packets, ?_, ?_⟩
    · rw [push_push] at rest
      simp only [first, if_true, rest, List.singleton_append]
    · have joined := @List.filterMap_append _ _ [packet] packets (fragmentOf chanId)
      rw [List.singleton_append] at joined
      rw [joined, frags, fragments]
      split <;> rfl

theorem egfx_unready {self : XrdpChannel Procs} {id : Int} (unready : ¬Ready self id)
    (data : List Byte) : xrdpEgfxSendData self id data = (false, self) := by
  unfold xrdpEgfxSendData
  split
  · exact data_unready unready data
  · simp [data_first_unready unready]

/-! ## Runs -/

/-- Data goes out on this channel as whole messages only. -/
def WholeOn (chanId : Int) (op : ChannelOp Procs) : Prop :=
  SendsOn chanId op → ∃ data, op = .egfxSend chanId data ∧ data.length < 2 ^ 31

/-- The fragments that a step adds to a channel. -/
def Adds (chanId : Int) (before after : XrdpChannel Procs) (fragments : List (Fragment Byte)) :
    Prop :=
  Working after ∧ ∃ packets, after.sent = before.sent ++ packets ∧
    packets.filterMap (fragmentOf chanId) = fragments

theorem adds_nothing {self : XrdpChannel Procs} (working : Working self) (chanId : Int) :
    Adds chanId self self [] := ⟨working, [], by rw [List.append_nil], rfl⟩

theorem adds_push {self : XrdpChannel Procs} (working : Working self) (chanId : Int)
    (packets : List StaticPacket) :
    Adds chanId self (push self packets) (packets.filterMap (fragmentOf chanId)) :=
  ⟨working_push working packets, packets, rfl, rfl⟩

/-- A command that carries no data for the channel. -/
theorem adds_command {self : XrdpChannel Procs} (working : Working self) {chanId : Int} {cmd : Nat}
    {rest : List Byte} (no_data : ∀ chanid, fragmentOf chanId (commandPacket chanid cmd rest) = none) :
    Adds chanId self (sendCommand self cmd rest).2 [] := by
  by_cases started : (xrdpChannelGetItem self self.drdynvcChannelId).isSome
  · obtain ⟨chanid, sent⟩ := command_sent working started cmd rest
    have added := adds_push working chanId [commandPacket chanid cmd rest]
    rw [sent]
    simpa [no_data chanid] using added
  · rw [command_idle started]
    exact adds_nothing working chanId

theorem adds_table {before after : XrdpChannel Procs} {chanId : Int}
    {fragments : List (Fragment Byte)} (added : Adds chanId before after fragments)
    (drdynvcs : Int → Drdynvc Procs) :
    Adds chanId before { after with drdynvcs := drdynvcs } fragments :=
  ⟨⟨added.1.order, added.1.taken, added.1.enabled⟩, added.2⟩

/-- A static channel that is found by its name is enabled, and its identifier leads back to it. -/
theorem started_working {self : XrdpChannel Procs} (working : Working self) {dci : McsChannelItem}
    (found : self.channelList.find? (fun ci => ci.name.map Char.toLower = drdynvcSvcChannelName) = some dci)
    (enabled : ¬dci.disabled = true) :
    Working { self with drdynvcChannelId := (dci.chanid - mcsGlobalChannel) - 1 } := by
  refine ⟨working.order, working.taken, ?_⟩
  intro item there
  obtain ⟨index, listed⟩ := List.mem_iff_getElem?.mp (List.mem_of_find?_eq_some found)
  have number := working.order index dci listed
  have place : (dci.chanid - mcsGlobalChannel - 1).toNat = index := by omega
  have same : some dci = some item := by
    simp only [xrdpChannelGetItem] at there
    rw [if_neg (by omega), place, listed] at there
    exact there
  rw [← Option.some.inj same]
  simpa using enabled

theorem start_adds {self : XrdpChannel Procs} (working : Working self) (chanId : Int) :
    Adds chanId self (xrdpChannelDrdynvcStart self).2 [] := by
  unfold xrdpChannelDrdynvcStart
  split
  · exact adds_nothing working chanId
  · split
    · exact adds_nothing working chanId
    · rename_i dci found
      split
      · exact adds_nothing working chanId
      · rename_i enabled
        exact adds_command (started_working working found enabled) fun chanid =>
          fragment_of_capabilities chanid chanId

theorem open_adds {self : XrdpChannel Procs} (working : Working self) (name : List Byte)
    (procs : Procs) (chanId : Int) :
    Adds chanId self (xrdpChannelDrdynvcOpen self name procs).2 [] := by
  unfold xrdpChannelDrdynvcOpen
  split
  · exact adds_nothing working chanId
  · rename_i chId found
    obtain ⟨-, low, high⟩ := free_channel_closed found
    have added := @adds_command _ self working chanId _ _ fun chanid =>
      fragment_of_request (.inl rfl) (⟨by omega, by omega⟩ : 0 ≤ chId ∧ chId ≤ 255) chanid chanId
        (name ++ [0])
    simp only
    split
    · exact adds_table added _
    · exact added

theorem close_adds {self : XrdpChannel Procs} (working : Working self) (id chanId : Int) :
    Adds chanId self (xrdpChannelDrdynvcClose self id).2 [] := by
  unfold xrdpChannelDrdynvcClose
  split
  · exact adds_nothing working chanId
  · split
    · exact adds_nothing working chanId
    · rename_i number _
      have no_data : ∀ chanid, fragmentOf chanId (commandPacket chanid
          (cmdDvcCloseChannel ||| (drdynvcInsertUint124 id).1) (drdynvcInsertUint124 id).2) = none := by
        intro chanid
        have request := fragment_of_request (.inr rfl) (by omega : 0 ≤ id ∧ id ≤ 255) chanid chanId []
        rwa [List.append_nil] at request
      have added := adds_command working no_data
      simp only
      split
      · exact adds_table added _
      · exact added

theorem data_adds {self : XrdpChannel Procs} (working : Working self) {id chanId : Int}
    (other : id ≠ chanId) (data : List Byte) :
    Adds chanId self (xrdpChannelDrdynvcData self id data).2 [] := by
  unfold xrdpChannelDrdynvcData
  split
  · exact adds_nothing working chanId
  · split
    · exact adds_nothing working chanId
    · split
      · exact adds_nothing working chanId
      · have bits := (@plain_bits cmdDvcData _ (by decide) (insert_code id)).1
        exact adds_command working fun chanid =>
          fragment_of_other (by omega : 0 ≤ id ∧ id ≤ 255) bits other data

theorem data_first_adds {self : XrdpChannel Procs} (working : Working self) {id chanId : Int}
    (other : id ≠ chanId) (data : List Byte) (total : Int) :
    Adds chanId self (xrdpChannelDrdynvcDataFirst self id data total).2 [] := by
  unfold xrdpChannelDrdynvcDataFirst
  split
  · exact adds_nothing working chanId
  · split
    · exact adds_nothing working chanId
    · split
      · exact adds_nothing working chanId
      · have bits := (first_bits (insert_code total) (insert_code id)).1
        exact adds_command working fun chanid =>
          fragment_of_other (by omega : 0 ≤ id ∧ id ≤ 255) bits other _

/-- A step adds the fragments of the message it delivers, and none if it delivers none. -/
theorem step_adds {before after : XrdpChannel Procs} {label : ChannelOp Procs × Outcome Procs}
    (working : Working before) (stepped : channel.step before label after) {chanId : Int}
    (whole : WholeOn chanId label.1) :
    Adds chanId before after (((deliveredOn chanId label).map (cut 1500)).getD []) := by
  obtain ⟨op, outcome⟩ := label
  cases op with
  | start =>
      obtain ⟨rfl, rfl⟩ := Prod.mk.inj (Option.some.inj stepped)
      exact start_adds working chanId
  | openChannel name procs =>
      obtain ⟨rfl, rfl⟩ := Prod.mk.inj (Option.some.inj stepped)
      exact open_adds working name procs chanId
  | close id =>
      obtain ⟨rfl, rfl⟩ := Prod.mk.inj (Option.some.inj stepped)
      exact close_adds working id chanId
  | dataFirst id data total =>
      obtain ⟨rfl, rfl⟩ := Prod.mk.inj (Option.some.inj stepped)
      by_cases same : id = chanId
      · obtain ⟨other, wrong, -⟩ := whole same
        contradiction
      · exact data_first_adds working same data total
  | data id data =>
      obtain ⟨rfl, rfl⟩ := Prod.mk.inj (Option.some.inj stepped)
      by_cases same : id = chanId
      · obtain ⟨other, wrong, -⟩ := whole same
        contradiction
      · exact data_adds working same data
  | egfxSend id data =>
      have taken : some ((xrdpEgfxSendData before id data).map Outcome.done (fun state => state)) =
          some (outcome, after) := stepped
      have small : id = chanId → data.length < 2 ^ 31 := by
        intro same
        obtain ⟨other, rfl_op, bound⟩ := whole same
        obtain ⟨-, rfl⟩ := ChannelOp.egfxSend.inj rfl_op
        exact bound
      by_cases ready : Ready before id
      · obtain ⟨packets, sent, fragments⟩ := egfx_ready working ready data small
        rw [sent] at taken
        obtain ⟨rfl, rfl⟩ := Prod.mk.inj (Option.some.inj taken)
        have added := adds_push working chanId packets
        rw [fragments] at added
        simp only [deliveredOn]
        by_cases same : id = chanId
        · simpa [same] using added
        · simpa [same] using added
      · rw [egfx_unready ready] at taken
        obtain ⟨rfl, rfl⟩ := Prod.mk.inj (Option.some.inj taken)
        exact adds_nothing working chanId
  | receive stray chanid packet =>
      obtain ⟨⟨answer, state⟩, processed, result⟩ := Option.map_eq_some_iff.mp stepped
      obtain ⟨rfl, rfl⟩ : Outcome.answered answer = outcome ∧ state = after := Prod.mk.inj result
      have only := heard_only_receive processed
      have none_added := adds_nothing working chanId
      rw [only]
      exact ⟨⟨working.order, working.taken, working.enabled⟩, [], by simp, rfl⟩

theorem run_adds {start final : XrdpChannel Procs}
    {labels : List (ChannelOp Procs × Outcome Procs)} (working : Working start)
    (ran : channel.Run start labels final) {chanId : Int}
    (whole : ∀ label ∈ labels, WholeOn chanId label.1) :
    Adds chanId start final ((labels.filterMap (deliveredOn chanId)).flatMap (cut 1500)) := by
  induction ran with
  | stay => exact adds_nothing working chanId
  | @next before after labels label ran stepped ih =>
      obtain ⟨works, packets, sent, fragments⟩ := ih fun other member =>
        whole other (List.mem_append_left _ member)
      obtain ⟨works_after, more, sent_more, fragments_more⟩ :=
        step_adds works stepped (whole label (List.mem_append_right _ (List.mem_singleton_self label)))
      refine ⟨works_after, packets ++ more, ?_, ?_⟩
      · rw [sent_more, sent, List.append_assoc]
      · rw [List.filterMap_append, List.filterMap_append, List.flatMap_append, fragments,
          fragments_more]
        cases delivered : deliveredOn chanId label <;> simp [delivered]

/-- Whatever else goes on, the client puts together exactly the messages whose sending succeeded, in
their order. -/
theorem messages_delivered {start final : XrdpChannel Procs}
    {labels : List (ChannelOp Procs × Outcome Procs)} (created : channel.initial start)
    (link : start.sendResults = []) (ran : channel.Run start labels final) {chanId : Int}
    (whole : ∀ label ∈ labels, WholeOn chanId label.1) :
    reassemble none (final.sent.filterMap (fragmentOf chanId)) =
      some (labels.filterMap (deliveredOn chanId), none) := by
  obtain ⟨order, number, -, nothing_sent, -⟩ := created
  have working : Working start := by
    refine ⟨order, link, ?_⟩
    intro item found
    rw [number] at found
    exact absurd found (by simp [xrdpChannelGetItem])
  obtain ⟨-, packets, sent, fragments⟩ := run_adds working ran whole
  rw [nothing_sent, List.nil_append] at sent
  rw [sent, fragments]
  exact reassemble_cut (by decide) _

end XrdpConsole.ChannelDelivery
