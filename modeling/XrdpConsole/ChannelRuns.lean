import XrdpConsole.DynamicChannel

/-!
# What a run does to the dynamic channels

Which channels are open follows from what was said about each of them, and packets that arrive in
chunks say nothing.
-/

namespace XrdpConsole.ChannelRuns

open XrdpConsole.Library
open XrdpConsole.LineReader
open XrdpConsole.DynamicChannel

set_option autoImplicit false

variable {Procs : Type}

/-! ## What a step changes -/

/-- Nothing but the secure layer has changed. -/
def SendOnly (before after : XrdpChannel Procs) : Prop :=
  after = { before with sent := after.sent, sendResults := after.sendResults }

theorem send_only_trans {before middle after : XrdpChannel Procs} (first : SendOnly before middle)
    (second : SendOnly middle after) : SendOnly before after := by
  unfold SendOnly at first second ⊢
  rw [second, first]

theorem send_only_table {before after : XrdpChannel Procs} (only : SendOnly before after) :
    after.drdynvcs = before.drdynvcs := by
  rw [only]

theorem send_only_send (self : XrdpChannel Procs) (data : List Byte)
    (channelId totalDataLen flags : Int) :
    SendOnly self (xrdpChannelSend self data channelId totalDataLen flags).2 := by
  unfold xrdpChannelSend
  split
  · rfl
  · split
    · rfl
    · simp only
      split <;> rfl

theorem send_only_command (self : XrdpChannel Procs) (cmd : Nat) (rest : List Byte) :
    SendOnly self (sendCommand self cmd rest).2 := send_only_send ..

theorem send_only_data_first (self : XrdpChannel Procs) (chanId : Int) (data : List Byte)
    (totalDataBytes : Int) :
    SendOnly self (xrdpChannelDrdynvcDataFirst self chanId data totalDataBytes).2 := by
  unfold xrdpChannelDrdynvcDataFirst
  split
  · rfl
  · split
    · rfl
    · split
      · rfl
      · exact send_only_command ..

theorem send_only_data (self : XrdpChannel Procs) (chanId : Int) (data : List Byte) :
    SendOnly self (xrdpChannelDrdynvcData self chanId data).2 := by
  unfold xrdpChannelDrdynvcData
  split
  · rfl
  · split
    · rfl
    · split
      · rfl
      · exact send_only_command ..

theorem send_only_pieces (self : XrdpChannel Procs) (chanId : Int) (parts : List (List Byte)) :
    SendOnly self (sendPieces self chanId parts).2 := by
  induction parts generalizing self with
  | nil => rfl
  | cons part parts ih =>
      have first := send_only_data self chanId part
      simp only [sendPieces]
      split
      · exact send_only_trans first (ih _)
      · exact first

theorem send_only_egfx (self : XrdpChannel Procs) (chanId : Int) (data : List Byte) :
    SendOnly self (xrdpEgfxSendData self chanId data).2 := by
  unfold xrdpEgfxSendData
  split
  · exact send_only_data ..
  · have first := send_only_data_first self chanId (data.take 1500) data.length
    simp only
    split
    · exact send_only_trans first (send_only_pieces ..)
    · exact first

/-! ## What is said about a channel -/

/-- The status that an answer of the client gives a channel. -/
def answerSettles (chanId : Int) : Answer Procs → Option DrdynvcStatus
  | .openResponse _ id creationStatus =>
      if id = chanId then some (if creationStatus = 0 then .opened else .closed) else none
  | .closeResponse _ id => if id = chanId then some .closed else none
  | _ => none

/-- The status that a step with this label gives a channel; none if it does not concern it. -/
def settles (chanId : Int) (label : ChannelOp Procs × Outcome Procs) : Option DrdynvcStatus :=
  match label.2 with
  | .assigned (some id) => if id = chanId then some .openSent else none
  | .assigned none => none
  | .answered answer => answerSettles chanId answer
  | .done result =>
      match label.1 with
      | .close id => if result ∧ id = chanId then some .closeSent else none
      | _ => none

/-- The callbacks that a step gives a channel; only a request that is sent gives any. -/
def assigns (chanId : Int) (label : ChannelOp Procs × Outcome Procs) : Option Procs :=
  match label.1, label.2 with
  | .openChannel _ procs, .assigned (some id) => if id = chanId then some procs else none
  | _, _ => none

/-- What an answer of the client makes of a channel. -/
def answerEntry (chanId : Int) (answer : Answer Procs) (entry : Drdynvc Procs) : Drdynvc Procs :=
  { entry with status := (answerSettles chanId answer).getD entry.status }

theorem set_status_entry (self : XrdpChannel Procs) (id chanId : Int) (status : DrdynvcStatus) :
    (setStatus self id status).drdynvcs chanId =
      { self.drdynvcs chanId with
        status := if id = chanId then status else (self.drdynvcs chanId).status } := by
  unfold setStatus
  by_cases same : id = chanId
  · rw [if_pos same, same]
    simp
  · rw [if_neg same]
    simp [Function.update_of_ne (Ne.symm same)]

theorem signed_zero {value : Int} (bounds : 0 ≤ value ∧ value < 256 ^ 4) :
    signed 4 value = 0 ↔ value = 0 := by
  unfold signed
  split <;> omega

theorem read_word_bounds {s rest : List Byte} {value : Int}
    (fields : readFields [4] s = some ([value], rest)) : 0 ≤ value ∧ value < 256 ^ 4 := by
  simp only [readFields] at fields
  split at fields
  · have bound := little_endian_lt (s.take 4)
    rw [List.length_take, Nat.min_eq_left ‹_›] at bound
    have value_is : (littleEndian (s.take 4) : Int) = value := by
      have whole := Option.some.inj fields
      exact List.head_eq_of_cons_eq (congrArg Prod.fst whole)
    omega
  · contradiction

theorem process_open_entry (self : XrdpChannel Procs) (cmd : Nat) (s : List Byte) (chanId : Int) :
    (drdynvcProcessOpenChannelResponse self cmd s).2.drdynvcs chanId =
      answerEntry chanId (drdynvcProcessOpenChannelResponse self cmd s).1 (self.drdynvcs chanId) := by
  unfold drdynvcProcessOpenChannelResponse
  split
  · rfl
  · rename_i id rest parsed
    split
    · rename_i creationStatus _ fields
      have zero := signed_zero (read_word_bounds fields)
      split
      · rfl
      · simp only [set_status_entry, answerEntry, answerSettles, zero]
        split <;> rfl
    · rfl

theorem process_close_entry (self : XrdpChannel Procs) (cmd : Nat) (s : List Byte) (chanId : Int) :
    (drdynvcProcessCloseChannelResponse self cmd s).2.drdynvcs chanId =
      answerEntry chanId (drdynvcProcessCloseChannelResponse self cmd s).1 (self.drdynvcs chanId) := by
  unfold drdynvcProcessCloseChannelResponse
  split
  · rfl
  · split
    · rfl
    · simp only [set_status_entry, answerEntry, answerSettles]
      split <;> rfl

theorem data_first_settles (self : XrdpChannel Procs) (cmd : Nat) (s : List Byte) (chanId : Int) :
    answerSettles chanId (drdynvcProcessDataFirst self cmd s) = none := by
  unfold drdynvcProcessDataFirst
  split
  · rfl
  · split
    · rfl
    · simp only
      split
      · rfl
      · split <;> rfl

theorem data_settles (self : XrdpChannel Procs) (cmd : Nat) (s : List Byte) (chanId : Int) :
    answerSettles chanId (drdynvcProcessData self cmd s) = none := by
  unfold drdynvcProcessData
  split
  · rfl
  · split <;> rfl

theorem process_capability_entry (self : XrdpChannel Procs) (s : List Byte) (chanId : Int) :
    (drdynvcProcessCapabilityResponse self s).2.drdynvcs chanId =
      answerEntry chanId (drdynvcProcessCapabilityResponse self s).1 (self.drdynvcs chanId) := by
  unfold drdynvcProcessCapabilityResponse
  split
  · split <;> rfl
  · rfl

theorem process_command_entry (self : XrdpChannel Procs) (cmd : Nat) (s : List Byte) (chanId : Int) :
    (processCommand self cmd s).2.drdynvcs chanId =
      answerEntry chanId (processCommand self cmd s).1 (self.drdynvcs chanId) := by
  unfold processCommand
  split
  · exact process_capability_entry ..
  · split
    · exact process_open_entry ..
    · split
      · exact process_close_entry ..
      · split
        · simp only [answerEntry, data_first_settles, Option.getD_none]
        · split
          · simp only [answerEntry, data_settles, Option.getD_none]
          · rfl

/-- Without what comes after it no command is understood. -/
theorem process_command_nothing (self : XrdpChannel Procs) (cmd : Nat) :
    processCommand self cmd [] = (.refused, self) := by
  have no_number : ∀ code, getUint124 [] code = none := by
    intro code
    by_cases one : code = 0
    · simp [getUint124, one, readFields]
    · by_cases two : code = 1 <;> simp [getUint124, one, two, readFields]
  simp [processCommand, drdynvcProcessCapabilityResponse, drdynvcProcessOpenChannelResponse,
    drdynvcProcessCloseChannelResponse, drdynvcProcessDataFirst, drdynvcProcessData, drdynvcGetChanId,
    no_number, readFields]

/-! ## Packets in chunks -/

/-- A packet that is not both the first and the last chunk of itself. -/
def chunked (packet : List Byte) : Bool :=
  match readFields [4, 4] packet with
  | some ([_, flags], _) => flags % 4 ≠ 3
  | _ => false

def withChunks (self : XrdpChannel Procs) (s : Option ChunkBuffer) : XrdpChannel Procs :=
  { self with s := s }

theorem append_chunk_only (self : XrdpChannel Procs) (buffer : ChunkBuffer) (chunk : List Byte) :
    (appendChunk self buffer chunk).2 = withChunks self (appendChunk self buffer chunk).2.s := by
  unfold appendChunk
  split <;> rfl

/-- A chunk is kept or refused, and that is all. -/
theorem process_chunk {self after : XrdpChannel Procs} {stray : Byte} {packet : List Byte}
    {answer : Answer Procs} (chunk : chunked packet = true)
    (processed : xrdpChannelProcessDrdynvc self stray packet = some (answer, after)) :
    after = withChunks self after.s ∧ (answer = .refused ∨ answer = .ignored) := by
  unfold chunked at chunk
  unfold xrdpChannelProcessDrdynvc at processed
  split at chunk
  · rename_i totalLength flags s fields
    have not_whole : flags % 4 ≠ 3 := by simpa using chunk
    simp only [fields] at processed
    split at processed
    · obtain ⟨buffer, held, rfl, rfl⟩ : ∃ buffer, self.s = some buffer ∧
          (if (appendChunk self buffer s).1 then Answer.ignored else .refused) = answer ∧
            (appendChunk self buffer s).2 = after := by
        simpa [Option.map_eq_some_iff] using processed
      refine ⟨append_chunk_only .., ?_⟩
      split <;> simp
    · split at processed
      · obtain ⟨rfl, rfl⟩ := Prod.mk.injEq .. ▸ Option.some.inj processed
        refine ⟨?_, ?_⟩
        · unfold appendChunk
          split <;> rfl
        · split <;> simp
      · split at processed
        · obtain ⟨buffer, held, step⟩ := Option.map_eq_some_iff.mp processed
          rw [process_command_nothing] at step
          split at step
          · obtain ⟨rfl, rfl⟩ := Prod.mk.inj step
            exact ⟨rfl, .inl rfl⟩
          · obtain ⟨rfl, rfl⟩ := Prod.mk.inj step
            exact ⟨rfl, .inl rfl⟩
        · simp only [channelFlagFirst, channelFlagLast] at *
          omega
  · contradiction

/-- What is not a chunk is too short or a command, and it does not depend on the state which. -/
theorem whole_command {packet : List Byte} (whole : chunked packet = false) (stray : Byte) :
    (∀ self : XrdpChannel Procs,
      xrdpChannelProcessDrdynvc self stray packet = some (.refused, self)) ∨
    ∃ cmd s, ∀ self : XrdpChannel Procs,
      xrdpChannelProcessDrdynvc self stray packet = some (processCommand self cmd s) := by
  cases fields : readFields [4, 4] packet with
  | none =>
      left
      intro self
      simp only [xrdpChannelProcessDrdynvc, fields]
  | some header =>
      obtain ⟨values, rest⟩ := header
      match values with
      | [totalLength, flags] =>
          have both : flags % 4 = 3 := by simpa [chunked, fields] using whole
          right
          cases rest with
          | nil =>
              refine ⟨stray.toNat, [], ?_⟩
              intro self
              simp [xrdpChannelProcessDrdynvc, fields, both, channelFlagFirst, channelFlagLast]
          | cons cmd rest =>
              refine ⟨cmd.toNat, rest, ?_⟩
              intro self
              simp [xrdpChannelProcessDrdynvc, fields, both, channelFlagFirst, channelFlagLast]
      | [] | [_] | _ :: _ :: _ :: _ =>
          left
          intro self
          simp only [xrdpChannelProcessDrdynvc, fields]

theorem process_whole {self after : XrdpChannel Procs} {stray : Byte} {packet : List Byte}
    {answer : Answer Procs} (whole : chunked packet = false)
    (processed : xrdpChannelProcessDrdynvc self stray packet = some (answer, after)) :
    (answer = .refused ∧ after = self) ∨ ∃ cmd s, processCommand self cmd s = (answer, after) := by
  rcases whole_command whole stray with refused | ⟨cmd, s, command⟩
  · rw [refused self] at processed
    obtain ⟨rfl, rfl⟩ := Prod.mk.inj (Option.some.inj processed)
    exact .inl ⟨rfl, rfl⟩
  · rw [command self] at processed
    exact .inr ⟨cmd, s, Option.some.inj processed⟩

theorem send_chunks (self : XrdpChannel Procs) (s : Option ChunkBuffer) (data : List Byte)
    (channelId totalDataLen flags : Int) :
    xrdpChannelSend (withChunks self s) data channelId totalDataLen flags =
      (xrdpChannelSend self data channelId totalDataLen flags).map id (withChunks · s) := by
  have same : xrdpChannelGetItem (withChunks self s) channelId = xrdpChannelGetItem self channelId :=
    rfl
  unfold xrdpChannelSend
  rw [same]
  cases xrdpChannelGetItem self channelId with
  | none => rfl
  | some channel =>
      cases disabled : channel.disabled with
      | true => simp [disabled]
      | false =>
          cases taken : self.sendResults.headD true <;>
            simp only [withChunks, disabled, taken, Bool.false_eq_true, if_false, if_true,
              Prod.map_apply, id_eq]

theorem command_chunks (self : XrdpChannel Procs) (s : Option ChunkBuffer) (cmd : Nat)
    (rest : List Byte) :
    sendCommand (withChunks self s) cmd rest =
      (sendCommand self cmd rest).map id (withChunks · s) := send_chunks ..

theorem data_first_chunks (self : XrdpChannel Procs) (s : Option ChunkBuffer) (chanId : Int)
    (data : List Byte) (totalDataBytes : Int) :
    xrdpChannelDrdynvcDataFirst (withChunks self s) chanId data totalDataBytes =
      (xrdpChannelDrdynvcDataFirst self chanId data totalDataBytes).map id (withChunks · s) := by
  have same : (withChunks self s).drdynvcs = self.drdynvcs := rfl
  simp only [xrdpChannelDrdynvcDataFirst, command_chunks, same]
  split
  · rfl
  · split
    · rfl
    · split <;> rfl

theorem data_chunks (self : XrdpChannel Procs) (s : Option ChunkBuffer) (chanId : Int)
    (data : List Byte) :
    xrdpChannelDrdynvcData (withChunks self s) chanId data =
      (xrdpChannelDrdynvcData self chanId data).map id (withChunks · s) := by
  have same : (withChunks self s).drdynvcs = self.drdynvcs := rfl
  simp only [xrdpChannelDrdynvcData, command_chunks, same]
  split
  · rfl
  · split
    · rfl
    · split <;> rfl

theorem pieces_chunks (self : XrdpChannel Procs) (s : Option ChunkBuffer) (chanId : Int)
    (parts : List (List Byte)) :
    sendPieces (withChunks self s) chanId parts =
      (sendPieces self chanId parts).map id (withChunks · s) := by
  induction parts generalizing self with
  | nil => rfl
  | cons part parts ih =>
      simp only [sendPieces, data_chunks, Prod.map_fst, Prod.map_snd, id_eq, ih]
      split <;> rfl

theorem egfx_chunks (self : XrdpChannel Procs) (s : Option ChunkBuffer) (chanId : Int)
    (data : List Byte) :
    xrdpEgfxSendData (withChunks self s) chanId data =
      (xrdpEgfxSendData self chanId data).map id (withChunks · s) := by
  simp only [xrdpEgfxSendData, data_chunks, data_first_chunks, Prod.map_fst, Prod.map_snd, id_eq,
    pieces_chunks]
  split
  · rfl
  · split <;> rfl

theorem close_chunks (self : XrdpChannel Procs) (s : Option ChunkBuffer) (chanId : Int) :
    xrdpChannelDrdynvcClose (withChunks self s) chanId =
      (xrdpChannelDrdynvcClose self chanId).map id (withChunks · s) := by
  have same : (withChunks self s).drdynvcs = self.drdynvcs := rfl
  simp only [xrdpChannelDrdynvcClose, command_chunks, same, Prod.map_fst, Prod.map_snd, id_eq]
  split
  · rfl
  · split
    · rfl
    · split <;> rfl

theorem free_channel_same {self other : XrdpChannel Procs} (same : other.drdynvcs = self.drdynvcs)
    (left : Nat) (chId : Int) : freeChannel other left chId = freeChannel self left chId := by
  induction left generalizing chId with
  | zero => rfl
  | succ left ih => simp only [freeChannel, same, ih]

theorem open_chunks (self : XrdpChannel Procs) (s : Option ChunkBuffer) (name : List Byte)
    (procs : Procs) :
    xrdpChannelDrdynvcOpen (withChunks self s) name procs =
      (xrdpChannelDrdynvcOpen self name procs).map id (withChunks · s) := by
  have same : freeChannel (withChunks self s) 255 1 = freeChannel self 255 1 :=
    @free_channel_same _ self (withChunks self s) rfl 255 1
  simp only [xrdpChannelDrdynvcOpen, same, command_chunks, Prod.map_fst, Prod.map_snd, id_eq]
  split
  · rfl
  · split <;> rfl

theorem start_chunks (self : XrdpChannel Procs) (s : Option ChunkBuffer) :
    xrdpChannelDrdynvcStart (withChunks self s) =
      (xrdpChannelDrdynvcStart self).map id (withChunks · s) := by
  have same : (withChunks self s).drdynvcChannelId = self.drdynvcChannelId ∧
      (withChunks self s).channelList = self.channelList := ⟨rfl, rfl⟩
  simp only [xrdpChannelDrdynvcStart, same.1, same.2]
  split
  · rfl
  · split
    · rfl
    · rename_i dci found
      split
      · rfl
      · have sending := command_chunks { self with
          drdynvcChannelId := (dci.chanid - mcsGlobalChannel) - 1 } s 0x50
          (fieldBytes [.u8 0x00, .u16 2, .u16 0, .u16 0, .u16 0, .u16 0])
        have after := congrArg Prod.snd sending
        rw [Prod.map_snd] at after
        simp only [Prod.map_apply, id_eq, Prod.mk.injEq, true_and]
        exact after

theorem process_open_chunks (self : XrdpChannel Procs) (s : Option ChunkBuffer) (cmd : Nat)
    (rest : List Byte) :
    drdynvcProcessOpenChannelResponse (withChunks self s) cmd rest =
      (drdynvcProcessOpenChannelResponse self cmd rest).map id (withChunks · s) := by
  simp only [drdynvcProcessOpenChannelResponse]
  split
  · rfl
  · split
    · split <;> rfl
    · rfl

theorem process_close_chunks (self : XrdpChannel Procs) (s : Option ChunkBuffer) (cmd : Nat)
    (rest : List Byte) :
    drdynvcProcessCloseChannelResponse (withChunks self s) cmd rest =
      (drdynvcProcessCloseChannelResponse self cmd rest).map id (withChunks · s) := by
  simp only [drdynvcProcessCloseChannelResponse]
  split
  · rfl
  · split <;> rfl

theorem process_command_chunks (self : XrdpChannel Procs) (s : Option ChunkBuffer) (cmd : Nat)
    (rest : List Byte) :
    processCommand (withChunks self s) cmd rest =
      (processCommand self cmd rest).map id (withChunks · s) := by
  have capability : drdynvcProcessCapabilityResponse (withChunks self s) rest =
      (drdynvcProcessCapabilityResponse self rest).map id (withChunks · s) := by
    simp only [drdynvcProcessCapabilityResponse]
    split
    · split <;> rfl
    · rfl
  have first : drdynvcProcessDataFirst (withChunks self s) cmd rest =
      drdynvcProcessDataFirst self cmd rest := rfl
  have data : drdynvcProcessData (withChunks self s) cmd rest = drdynvcProcessData self cmd rest := rfl
  simp only [processCommand, capability, process_open_chunks, process_close_chunks, first, data]
  split
  · rfl
  · split
    · rfl
    · split
      · rfl
      · split
        · rfl
        · split <;> rfl

/-- What is not a chunk does not look at the chunks. -/
theorem process_whole_chunks (self : XrdpChannel Procs) (s : Option ChunkBuffer) (stray : Byte)
    {packet : List Byte} (whole : chunked packet = false) :
    xrdpChannelProcessDrdynvc (withChunks self s) stray packet =
      (xrdpChannelProcessDrdynvc self stray packet).map (Prod.map id (withChunks · s)) := by
  rcases whole_command whole stray with refused | ⟨cmd, rest, command⟩
  · rw [refused, refused]
    rfl
  · rw [command, command, process_command_chunks]
    rfl

/-- All steps but those for a packet in chunks. -/
def heard (label : ChannelOp Procs × Outcome Procs) : Bool :=
  match label.1 with
  | .receive _ _ packet => !chunked packet
  | _ => true

theorem chunk_step {before after : XrdpChannel Procs} {label : ChannelOp Procs × Outcome Procs}
    (unheard : heard label = false) (stepped : channel.step before label after) :
    after = withChunks before after.s ∧
      (label.2 = .answered .refused ∨ label.2 = .answered .ignored) := by
  obtain ⟨op, outcome⟩ := label
  cases op with
  | receive stray chanid packet =>
      have chunk : chunked packet = true := by simpa [heard] using unheard
      simp only [channel, runOp, xrdpChannelProcess] at stepped
      obtain ⟨⟨answer, state⟩, processed, result⟩ := Option.map_eq_some_iff.mp stepped
      obtain ⟨rfl, rfl⟩ : Outcome.answered answer = outcome ∧ state = after := Prod.mk.inj result
      split at processed
      · obtain ⟨rfl, rfl⟩ := Prod.mk.inj (Option.some.inj processed)
        exact ⟨rfl, .inl rfl⟩
      · split at processed
        · obtain ⟨rfl, rfl⟩ := Prod.mk.inj (Option.some.inj processed)
          exact ⟨rfl, .inr rfl⟩
        · split at processed
          · obtain ⟨only, refused | ignored⟩ := process_chunk chunk processed
            · exact ⟨only, .inl (congrArg Outcome.answered refused)⟩
            · exact ⟨only, .inr (congrArg Outcome.answered ignored)⟩
          · obtain ⟨rfl, rfl⟩ := Prod.mk.inj (Option.some.inj processed)
            exact ⟨rfl, .inr rfl⟩
  | _ => simp [heard] at unheard

theorem heard_step {before after : XrdpChannel Procs} {label : ChannelOp Procs × Outcome Procs}
    (is_heard : heard label = true) (stepped : channel.step before label after)
    (s : Option ChunkBuffer) : channel.step (withChunks before s) label (withChunks after s) := by
  obtain ⟨op, outcome⟩ := label
  have moved : ∀ {Result : Type} {outcomeOf : Result → Outcome Procs}
      {result shifted : Result × XrdpChannel Procs},
      shifted = result.map id (withChunks · s) →
      some (result.map outcomeOf id) = some (outcome, after) →
      some (shifted.map outcomeOf id) = some (outcome, withChunks after s) := by
    intro Result outcomeOf result shifted same taken
    obtain ⟨rfl, rfl⟩ := Prod.mk.inj (Option.some.inj taken)
    rw [same]
    rfl
  cases op with
  | start => exact moved (start_chunks before s) stepped
  | openChannel name procs => exact moved (open_chunks before s name procs) stepped
  | close chanId => exact moved (close_chunks before s chanId) stepped
  | dataFirst chanId data total => exact moved (data_first_chunks before s chanId data total) stepped
  | data chanId data => exact moved (data_chunks before s chanId data) stepped
  | egfxSend chanId data => exact moved (egfx_chunks before s chanId data) stepped
  | receive stray chanid packet =>
      have whole : chunked packet = false := by simpa [heard] using is_heard
      have same : xrdpChannelProcess (withChunks before s) stray chanid packet =
          (xrdpChannelProcess before stray chanid packet).map (Prod.map id (withChunks · s)) := by
        have item : xrdpChannelGetItem (withChunks before s) (chanid - mcsGlobalChannel - 1) =
            xrdpChannelGetItem before (chanid - mcsGlobalChannel - 1) := rfl
        have number : (withChunks before s).drdynvcChannelId = before.drdynvcChannelId := rfl
        simp only [xrdpChannelProcess, item, number, process_whole_chunks before s stray whole]
        split
        · rfl
        · split
          · rfl
          · split <;> rfl
      simp only [channel, runOp] at stepped ⊢
      obtain ⟨result, processed, taken⟩ := Option.map_eq_some_iff.mp stepped
      rw [same, processed]
      obtain ⟨rfl, rfl⟩ := Prod.mk.inj taken
      rfl

/-- A run with the packets in chunks left out is a run with the same answers, and each packet in
chunks was refused or kept without an answer. -/
theorem chunks_unheard {start final : XrdpChannel Procs}
    {labels : List (ChannelOp Procs × Outcome Procs)} (ran : channel.Run start labels final) :
    channel.Run start (labels.filter heard) (withChunks final start.s) ∧
      ∀ label ∈ labels, heard label = false →
        label.2 = .answered .refused ∨ label.2 = .answered .ignored := by
  induction ran with
  | stay => exact ⟨.stay start, by simp⟩
  | @next before after labels label ran stepped ih =>
      obtain ⟨earlier, kept⟩ := ih
      cases is_heard : heard label with
      | false =>
          obtain ⟨only, outcome⟩ := chunk_step is_heard stepped
          have same : withChunks after start.s = withChunks before start.s := by
            rw [only]
            rfl
          rw [List.filter_append, same]
          simp only [List.filter_cons, is_heard, List.filter_nil]
          refine ⟨by simpa using earlier, ?_⟩
          intro other member unheard
          rcases List.mem_append.mp member with old | last
          · exact kept other old unheard
          · rw [List.mem_singleton.mp last]
            exact outcome
      | true =>
          rw [List.filter_append]
          simp only [List.filter_cons, is_heard, if_true, List.filter_nil]
          refine ⟨.next earlier (heard_step is_heard stepped start.s), ?_⟩
          intro other member unheard
          rcases List.mem_append.mp member with old | last
          · exact kept other old unheard
          · rw [List.mem_singleton.mp last, is_heard] at unheard
            contradiction

/-- The answer to an opened channel arrives in two chunks, and once more in one packet. -/
def chunkedAnswer : List (ChannelOp Unit) :=
  [.start, .openChannel [0x67] (),
    .receive 0 1006 [6, 0, 0, 0, 1, 0, 0, 0, 0x10, 1, 0],
    .receive 0 1006 [6, 0, 0, 0, 2, 0, 0, 0, 0, 0, 0],
    .receive 0 1006 [6, 0, 0, 0, 3, 0, 0, 0, 0x10, 1, 0, 0, 0, 0], .data 1 [7]]

theorem chunks_unheard_answer :
    ∃ labels final, runOps freshSession chunkedAnswer = some (labels, final) ∧
      channel.Run freshSession (labels.filter heard) (withChunks final none) ∧
      ∀ label ∈ labels, heard label = false →
        label.2 = .answered .refused ∨ label.2 = .answered .ignored := by
  have runs : (runOps freshSession chunkedAnswer).isSome = true := by rfl
  obtain ⟨⟨labels, final⟩, ran⟩ := Option.isSome_iff_exists.mp runs
  exact ⟨labels, final, ran, chunks_unheard (run_of_ops ran)⟩

/-! ## Which channels are open -/

/-- Nothing but the chunks and the table of the channels has changed. -/
def HeardOnly (before after : XrdpChannel Procs) : Prop :=
  after = { before with s := after.s, drdynvcs := after.drdynvcs }

theorem heard_only_command (self : XrdpChannel Procs) (cmd : Nat) (s : List Byte) :
    HeardOnly self (processCommand self cmd s).2 := by
  have capability : HeardOnly self (drdynvcProcessCapabilityResponse self s).2 := by
    unfold drdynvcProcessCapabilityResponse
    split
    · split <;> rfl
    · rfl
  have opening : HeardOnly self (drdynvcProcessOpenChannelResponse self cmd s).2 := by
    unfold drdynvcProcessOpenChannelResponse
    split
    · rfl
    · split
      · split <;> rfl
      · rfl
  have closing : HeardOnly self (drdynvcProcessCloseChannelResponse self cmd s).2 := by
    unfold drdynvcProcessCloseChannelResponse
    split
    · rfl
    · split <;> rfl
  unfold processCommand
  split
  · exact capability
  · split
    · exact opening
    · split
      · exact closing
      · split
        · rfl
        · split <;> rfl

/-- A packet leads to a command, or only the chunks have changed. -/
theorem receive_cases {before after : XrdpChannel Procs} {stray : Byte} {chanid : Int}
    {packet : List Byte} {answer : Answer Procs}
    (processed : xrdpChannelProcess before stray chanid packet = some (answer, after)) :
    (after = withChunks before after.s ∧ (answer = .refused ∨ answer = .ignored)) ∨
      ∃ cmd s, processCommand before cmd s = (answer, after) := by
  unfold xrdpChannelProcess at processed
  simp only at processed
  split at processed
  · obtain ⟨rfl, rfl⟩ := Prod.mk.inj (Option.some.inj processed)
    exact .inl ⟨rfl, .inl rfl⟩
  · split at processed
    · obtain ⟨rfl, rfl⟩ := Prod.mk.inj (Option.some.inj processed)
      exact .inl ⟨rfl, .inr rfl⟩
    · split at processed
      · cases chunk : chunked packet with
        | true => exact .inl (process_chunk chunk processed)
        | false =>
            obtain ⟨rfl, rfl⟩ | command := process_whole chunk processed
            · exact .inl ⟨rfl, .inl rfl⟩
            · exact .inr command
      · obtain ⟨rfl, rfl⟩ := Prod.mk.inj (Option.some.inj processed)
        exact .inl ⟨rfl, .inr rfl⟩

theorem heard_only_receive {before after : XrdpChannel Procs} {stray : Byte} {chanid : Int}
    {packet : List Byte} {answer : Answer Procs}
    (processed : xrdpChannelProcess before stray chanid packet = some (answer, after)) :
    HeardOnly before after := by
  obtain ⟨only, -⟩ | ⟨cmd, s, result⟩ := receive_cases processed
  · rw [only]
    rfl
  · have only := heard_only_command before cmd s
    rw [result] at only
    exact only

theorem receive_entry {before after : XrdpChannel Procs} {stray : Byte} {chanid : Int}
    {packet : List Byte} {answer : Answer Procs}
    (processed : xrdpChannelProcess before stray chanid packet = some (answer, after))
    (chanId : Int) : after.drdynvcs chanId = answerEntry chanId answer (before.drdynvcs chanId) := by
  obtain ⟨only, rfl | rfl⟩ | ⟨cmd, s, result⟩ := receive_cases processed
  · rw [only]
    rfl
  · rw [only]
    rfl
  · have entry := process_command_entry before cmd s chanId
    rw [result] at entry
    exact entry

theorem free_channel_closed {self : XrdpChannel Procs} {left : Nat} {first chId : Int}
    (free : freeChannel self left first = some chId) :
    (self.drdynvcs chId).status = .closed ∧ first ≤ chId ∧ chId < first + left := by
  induction left generalizing first with
  | zero => simp [freeChannel] at free
  | succ left ih =>
      simp only [freeChannel] at free
      split at free
      · obtain rfl := Option.some.inj free
        exact ⟨‹_›, by omega, by omega⟩
      · obtain ⟨closed, low, high⟩ := ih free
        exact ⟨closed, by omega, by omega⟩

theorem start_table (self : XrdpChannel Procs) :
    (xrdpChannelDrdynvcStart self).2.drdynvcs = self.drdynvcs := by
  unfold xrdpChannelDrdynvcStart
  split
  · rfl
  · split
    · rfl
    · rename_i dci _
      split
      · rfl
      · have kept := send_only_table (send_only_command
          { self with drdynvcChannelId := (dci.chanid - mcsGlobalChannel) - 1 } 0x50
          (fieldBytes [.u8 0x00, .u16 2, .u16 0, .u16 0, .u16 0, .u16 0]))
        exact kept

theorem open_entry (self : XrdpChannel Procs) (name : List Byte) (procs : Procs) (chanId : Int) :
    (xrdpChannelDrdynvcOpen self name procs).2.drdynvcs chanId =
      if (xrdpChannelDrdynvcOpen self name procs).1 = some chanId then
        { status := .openSent, procs := some procs }
      else self.drdynvcs chanId := by
  unfold xrdpChannelDrdynvcOpen
  split
  · simp
  · rename_i chId found
    have kept := send_only_table (send_only_command self
      (cmdDvcOpenChannel ||| (drdynvcInsertUint124 chId).1)
      ((drdynvcInsertUint124 chId).2 ++ (name ++ [0])))
    simp only
    split
    · simp only [kept, Option.some.injEq]
      by_cases same : chId = chanId
      · rw [if_pos same, same, Function.update_self]
      · rw [if_neg same, Function.update_of_ne (Ne.symm same)]
    · simp [kept]

theorem close_entry (self : XrdpChannel Procs) (id chanId : Int) :
    (xrdpChannelDrdynvcClose self id).2.drdynvcs chanId =
      { self.drdynvcs chanId with
        status := if (xrdpChannelDrdynvcClose self id).1 = true ∧ id = chanId then .closeSent
          else (self.drdynvcs chanId).status } := by
  unfold xrdpChannelDrdynvcClose
  split
  · simp
  · split
    · simp
    · have kept := send_only_table (send_only_command self
        (cmdDvcCloseChannel ||| (drdynvcInsertUint124 id).1) (drdynvcInsertUint124 id).2)
      simp only
      split
      · simp only [set_status_entry, kept, true_and]
      · simp [kept]

/-- What a call has given is the outcome and the state of its step. -/
theorem taken_outcome {Result : Type} {outcomeOf : Result → Outcome Procs} {outcome : Outcome Procs}
    {after : XrdpChannel Procs} (result : Result × XrdpChannel Procs)
    (stepped : some (result.map outcomeOf id) = some (outcome, after)) :
    outcomeOf result.1 = outcome ∧ result.2 = after :=
  Prod.mk.inj (Option.some.inj stepped)

/-- One step leaves a channel as it is, or gives it the status and callbacks its label says. -/
theorem step_entry {before after : XrdpChannel Procs} {label : ChannelOp Procs × Outcome Procs}
    (stepped : channel.step before label after) (chanId : Int) :
    after.drdynvcs chanId =
      { status := (settles chanId label).getD (before.drdynvcs chanId).status
        procs := (assigns chanId label).or (before.drdynvcs chanId).procs } := by
  obtain ⟨op, outcome⟩ := label
  cases op with
  | start =>
      obtain ⟨rfl, rfl⟩ := taken_outcome (xrdpChannelDrdynvcStart before) stepped
      rw [start_table]
      rfl
  | openChannel name procs =>
      obtain ⟨rfl, rfl⟩ := taken_outcome (xrdpChannelDrdynvcOpen before name procs) stepped
      rw [open_entry]
      cases (xrdpChannelDrdynvcOpen before name procs).1 with
      | none => rfl
      | some chId =>
          simp only [settles, assigns, Option.some.injEq]
          split <;> rfl
  | close id =>
      obtain ⟨rfl, rfl⟩ := taken_outcome (xrdpChannelDrdynvcClose before id) stepped
      rw [close_entry]
      simp only [settles]
      split <;> rfl
  | dataFirst id data total =>
      obtain ⟨rfl, rfl⟩ := taken_outcome (xrdpChannelDrdynvcDataFirst before id data total) stepped
      rw [send_only_table (send_only_data_first before id data total)]
      rfl
  | data id data =>
      obtain ⟨rfl, rfl⟩ := taken_outcome (xrdpChannelDrdynvcData before id data) stepped
      rw [send_only_table (send_only_data before id data)]
      rfl
  | egfxSend id data =>
      obtain ⟨rfl, rfl⟩ := taken_outcome (xrdpEgfxSendData before id data) stepped
      rw [send_only_table (send_only_egfx before id data)]
      rfl
  | receive stray chanid packet =>
      obtain ⟨⟨answer, state⟩, processed, result⟩ := Option.map_eq_some_iff.mp stepped
      obtain ⟨rfl, rfl⟩ : Outcome.answered answer = outcome ∧ state = after := Prod.mk.inj result
      exact receive_entry processed chanId

/-- The status of a channel is what the last step that concerned it has made it. -/
theorem run_status {start final : XrdpChannel Procs}
    {labels : List (ChannelOp Procs × Outcome Procs)} (ran : channel.Run start labels final)
    (chanId : Int) :
    (final.drdynvcs chanId).status =
      (labels.reverse.findSome? (settles chanId)).getD (start.drdynvcs chanId).status := by
  induction ran with
  | stay => rfl
  | @next before after labels label ran stepped ih =>
      rw [step_entry stepped, ih, List.reverse_append]
      simp only [List.reverse_cons, List.reverse_nil, List.nil_append, List.singleton_append,
        List.findSome?_cons]
      cases settles chanId label <;> rfl

/-- The step that last settled the status of a channel. -/
theorem last_settling {labels : List (ChannelOp Procs × Outcome Procs)} {chanId : Int}
    {status : DrdynvcStatus} (found : labels.reverse.findSome? (settles chanId) = some status) :
    ∃ front label back, labels = front ++ label :: back ∧ settles chanId label = some status ∧
      ∀ other ∈ back, settles chanId other = none := by
  obtain ⟨late, label, early, split, settled, quiet⟩ := List.findSome?_eq_some_iff.mp found
  refine ⟨early.reverse, label, late.reverse, ?_, settled, ?_⟩
  · have same := congrArg List.reverse split
    rw [List.reverse_reverse] at same
    rw [same]
    simp
  · intro other member
    exact quiet other (List.mem_reverse.mp member)

/-- A step that would send data on this channel. -/
def SendsOn (chanId : Int) : ChannelOp Procs → Prop
  | .dataFirst id _ _ => id = chanId
  | .data id _ => id = chanId
  | .egfxSend id _ => id = chanId
  | _ => False

theorem data_first_needs_open {self : XrdpChannel Procs} {chanId : Int} {data : List Byte}
    {total : Int} (sends : (xrdpChannelDrdynvcDataFirst self chanId data total).2.sent ≠ self.sent) :
    (self.drdynvcs chanId).status = .opened := by
  unfold xrdpChannelDrdynvcDataFirst at sends
  split at sends
  · exact absurd rfl sends
  · split at sends
    · exact absurd rfl sends
    · exact not_not.mp ‹_›

theorem data_needs_open {self : XrdpChannel Procs} {chanId : Int} {data : List Byte}
    (sends : (xrdpChannelDrdynvcData self chanId data).2.sent ≠ self.sent) :
    (self.drdynvcs chanId).status = .opened := by
  unfold xrdpChannelDrdynvcData at sends
  split at sends
  · exact absurd rfl sends
  · split at sends
    · exact absurd rfl sends
    · exact not_not.mp ‹_›

theorem egfx_needs_open {self : XrdpChannel Procs} {chanId : Int} {data : List Byte}
    (sends : (xrdpEgfxSendData self chanId data).2.sent ≠ self.sent) :
    (self.drdynvcs chanId).status = .opened := by
  unfold xrdpEgfxSendData at sends
  split at sends
  · exact data_needs_open sends
  · by_cases opened : (self.drdynvcs chanId).status = .opened
    · exact opened
    · have refused : xrdpChannelDrdynvcDataFirst self chanId (data.take 1500) data.length =
          (false, self) := by
        unfold xrdpChannelDrdynvcDataFirst
        split <;> rfl
      simp [refused] at sends

theorem settles_opened {chanId : Int} {label : ChannelOp Procs × Outcome Procs}
    (settled : settles chanId label = some .opened) :
    ∃ procs, label.2 = .answered (.openResponse procs chanId 0) := by
  obtain ⟨op, outcome⟩ := label
  cases outcome with
  | assigned chosen =>
      cases chosen <;> simp [settles] at settled
  | done result =>
      cases op <;> simp [settles] at settled
  | answered answer =>
      cases answer with
      | openResponse procs id creationStatus =>
          simp only [settles, answerSettles] at settled
          split at settled
          · rename_i same
            rw [same]
            by_cases zero : creationStatus = 0
            · exact ⟨procs, by rw [zero]⟩
            · simp [zero] at settled
          · contradiction
      | closeResponse procs id =>
          simp only [settles, answerSettles] at settled
          split at settled <;> simp at settled
      | _ => simp [settles, answerSettles] at settled

theorem settles_closed {chanId : Int} {label : ChannelOp Procs × Outcome Procs}
    (settled : settles chanId label = some .closed) :
    ∃ answer, label.2 = .answered answer ∧ answerSettles chanId answer = some .closed := by
  obtain ⟨op, outcome⟩ := label
  cases outcome with
  | assigned chosen =>
      cases chosen <;> simp [settles] at settled
  | done result =>
      cases op <;> simp [settles] at settled
  | answered answer => exact ⟨answer, rfl, settled⟩

theorem sends_needs_open {before after : XrdpChannel Procs}
    {label : ChannelOp Procs × Outcome Procs} (stepped : channel.step before label after)
    {chanId : Int} (sending : SendsOn chanId label.1) (sends : after.sent ≠ before.sent) :
    (before.drdynvcs chanId).status = .opened := by
  obtain ⟨op, outcome⟩ := label
  cases op with
  | dataFirst id data total =>
      obtain rfl : id = chanId := sending
      obtain ⟨-, rfl⟩ := Prod.mk.inj (Option.some.inj stepped)
      exact data_first_needs_open sends
  | data id data =>
      obtain rfl : id = chanId := sending
      obtain ⟨-, rfl⟩ := Prod.mk.inj (Option.some.inj stepped)
      exact data_needs_open sends
  | egfxSend id data =>
      obtain rfl : id = chanId := sending
      obtain ⟨-, rfl⟩ := Prod.mk.inj (Option.some.inj stepped)
      exact egfx_needs_open sends
  | _ => exact absurd sending id

theorem assigned_was_closed {before after : XrdpChannel Procs}
    {label : ChannelOp Procs × Outcome Procs} (stepped : channel.step before label after)
    {chanId : Int} (assigned : label.2 = .assigned (some chanId)) :
    (before.drdynvcs chanId).status = .closed ∧ 1 ≤ chanId ∧ chanId ≤ 255 := by
  obtain ⟨op, outcome⟩ := label
  obtain rfl : outcome = .assigned (some chanId) := assigned
  cases op with
  | openChannel name procs =>
      obtain ⟨chosen, -⟩ := Prod.mk.inj (Option.some.inj stepped)
      have number : (xrdpChannelDrdynvcOpen before name procs).1 = some chanId :=
        Outcome.assigned.inj chosen
      unfold xrdpChannelDrdynvcOpen at number
      split at number
      · contradiction
      · rename_i chId found
        simp only at number
        split at number
        · obtain rfl := Option.some.inj number
          obtain ⟨closed, low, high⟩ := free_channel_closed found
          exact ⟨closed, low, by omega⟩
        · contradiction
  | receive stray chanid packet =>
      obtain ⟨result, -, taken⟩ := Option.map_eq_some_iff.mp stepped
      exact absurd (congrArg Prod.fst taken) (by simp)
  | start => exact absurd (congrArg Prod.fst (Option.some.inj stepped)) (by simp)
  | close id => exact absurd (congrArg Prod.fst (Option.some.inj stepped)) (by simp)
  | dataFirst id data total => exact absurd (congrArg Prod.fst (Option.some.inj stepped)) (by simp)
  | data id data => exact absurd (congrArg Prod.fst (Option.some.inj stepped)) (by simp)
  | egfxSend id data => exact absurd (congrArg Prod.fst (Option.some.inj stepped)) (by simp)

/-- Data goes out on a channel only when the last that was heard or done about it is that the client
opened it, and a number is given to a new channel only when nothing was ever done with it or the
last that was heard about it is that the client refused or closed it. -/
theorem channel_statuses {start before after : XrdpChannel Procs}
    {labels : List (ChannelOp Procs × Outcome Procs)} {label : ChannelOp Procs × Outcome Procs}
    (created : channel.initial start) (ran : channel.Run start labels before)
    (stepped : channel.step before label after) (chanId : Int) :
    (SendsOn chanId label.1 → after.sent ≠ before.sent →
      ∃ front consent back procs, labels = front ++ consent :: back ∧
        consent.2 = .answered (.openResponse procs chanId 0) ∧
        ∀ other ∈ back, settles chanId other = none) ∧
    (label.2 = .assigned (some chanId) →
      1 ≤ chanId ∧ chanId ≤ 255 ∧
        ((∀ other ∈ labels, settles chanId other = none) ∨
          ∃ front closing back answer, labels = front ++ closing :: back ∧
            closing.2 = .answered answer ∧ answerSettles chanId answer = some .closed ∧
            ∀ other ∈ back, settles chanId other = none)) := by
  have status := run_status ran chanId
  rw [created.2.2.2.2 chanId] at status
  simp only at status
  constructor
  · intro sending sends
    rw [sends_needs_open stepped sending sends] at status
    cases found : labels.reverse.findSome? (settles chanId) with
    | none => simp [found] at status
    | some last =>
        rw [found, Option.getD_some] at status
        subst status
        obtain ⟨front, consent, back, split, settled, quiet⟩ := last_settling found
        obtain ⟨procs, answer⟩ := settles_opened settled
        exact ⟨front, consent, back, procs, split, answer, quiet⟩
  · intro assigned
    obtain ⟨closed, low, high⟩ := assigned_was_closed stepped assigned
    refine ⟨low, high, ?_⟩
    rw [closed] at status
    cases found : labels.reverse.findSome? (settles chanId) with
    | none =>
        left
        intro other member
        exact List.findSome?_eq_none_iff.mp found other (List.mem_reverse.mpr member)
    | some last =>
        rw [found, Option.getD_some] at status
        subst status
        obtain ⟨front, closing, back, split, settled, quiet⟩ := last_settling found
        obtain ⟨answer, outcome, settles_it⟩ := settles_closed settled
        exact .inr ⟨front, closing, back, answer, split, outcome, settles_it, quiet⟩

/-- A channel is opened, used and closed on both sides, and its number is given to the next one. -/
def reusedNumber : List (ChannelOp Unit) :=
  [.start, .openChannel [0x67] (),
    .receive 0 1006 [6, 0, 0, 0, 3, 0, 0, 0, 0x10, 1, 0, 0, 0, 0], .data 1 [7], .close 1,
    .receive 0 1006 [2, 0, 0, 0, 3, 0, 0, 0, 0x40, 1]]

theorem channel_statuses_reused :
    ∃ labels before after, runOps freshSession reusedNumber = some (labels, before) ∧
      runOp before (.openChannel [0x68] ()) = some (.assigned (some 1), after) ∧
      (1 : Int) ≤ 1 ∧ (1 : Int) ≤ 255 ∧
        ((∀ other ∈ labels, settles 1 other = none) ∨
          ∃ front closing back answer, labels = front ++ closing :: back ∧
            closing.2 = .answered answer ∧ answerSettles 1 answer = some .closed ∧
            ∀ other ∈ back, settles 1 other = none) := by
  have runs : (runOps freshSession reusedNumber).isSome = true := by rfl
  obtain ⟨⟨labels, before⟩, ran⟩ := Option.isSome_iff_exists.mp runs
  have chosen : (runOps freshSession reusedNumber).bind (fun result =>
      (runOp result.2 (.openChannel [0x68] ())).map Prod.fst) = some (.assigned (some 1)) := by rfl
  rw [ran, Option.bind_some] at chosen
  obtain ⟨⟨outcome, after⟩, stepped, same⟩ := Option.map_eq_some_iff.mp chosen
  obtain rfl : outcome = .assigned (some 1) := same
  have step : channel.step before (.openChannel [0x68] (), .assigned (some 1)) after := stepped
  have statuses := channel_statuses fresh_session_initial (run_of_ops ran) step 1
  exact ⟨labels, before, after, ran, stepped, statuses.2 rfl⟩

end XrdpConsole.ChannelRuns
