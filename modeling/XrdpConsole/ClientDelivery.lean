import XrdpConsole.EgfxHeard

/-!
# From the packets of the client to the calls of the manager
-/

namespace XrdpConsole.ClientDelivery

open XrdpConsole.Library
open XrdpConsole.LineReader
open XrdpConsole.DynamicChannel
open XrdpConsole.ChannelRuns
open XrdpConsole.ChannelDelivery
open XrdpConsole.EgfxReceive
open XrdpConsole.EgfxHeard

set_option autoImplicit false

variable {Procs : Type}

/-! ## Putting together -/

def bufferOf (underWay : Option (Assembly Byte)) : Option ChunkBuffer :=
  underWay.map fun assembly => { size := assembly.total, written := assembly.held }

/-- The fragment in an answer, where the callbacks that hear it are those for graphics. -/
def heardFragment (isEgfx : Procs → Bool) : Answer Procs → Option (Fragment Byte)
  | .dataFirst (some procs) _ data totalBytes =>
      if isEgfx procs then some (.first totalBytes.toNat data) else none
  | .data (some procs) _ data => if isEgfx procs then some (.next data) else none
  | _ => none

def heardOn (isEgfx : Procs → Bool) (label : ChannelOp Procs × Outcome Procs) :
    Option (Fragment Byte) :=
  match label.2 with
  | .answered answer => heardFragment isEgfx answer
  | _ => none

def answerOf (procs : Option Procs) (chanId : Int) : Fragment Byte → Answer Procs
  | .first total data => .dataFirst procs chanId data total
  | .next data => .data procs chanId data

theorem answer_unheard {isEgfx : Procs → Bool} {answer : Answer Procs}
    (unheard : heardFragment isEgfx answer = none) (s : Option ChunkBuffer) :
    egfxAnswer isEgfx s answer = some ([], s) := by
  cases answer with
  | dataFirst callbacks id data totalBytes =>
      cases callbacks with
      | none => rfl
      | some procs =>
          have other : ¬isEgfx procs = true := by
            intro same
            simp [heardFragment, same] at unheard
          rw [egfxAnswer, if_neg other]
  | data callbacks id data =>
      cases callbacks with
      | none => rfl
      | some procs =>
          have other : ¬isEgfx procs = true := by
            intro same
            simp [heardFragment, same] at unheard
          rw [egfxAnswer, if_neg other]
  | _ => rfl

/-- What the server does with a fragment it can take. -/
theorem answer_taken {isEgfx : Procs → Bool} {procs : Procs} (graphics : isEgfx procs = true)
    (chanId : Int) {underWay later : Option (Assembly Byte)} {fragment : Fragment Byte}
    {stream : Option (List Byte)} (taken : accept underWay fragment = some (stream, later))
    {calls : List Byte → List EgfxCallback}
    (processed : ∀ bytes ∈ stream.toList,
      xrdpEgfxProcess (.ofBytes bytes) = some (true, calls bytes)) :
    egfxAnswer isEgfx (bufferOf underWay) (answerOf (some procs) chanId fragment) =
      some (stream.toList.flatMap calls, bufferOf later) := by
  cases fragment with
  | first total data =>
      cases underWay with
      | some assembly => simp [accept] at taken
      | none =>
          simp only [accept] at taken
          split at taken
          · obtain ⟨rfl, rfl⟩ := Prod.mk.inj (Option.some.inj taken)
            simp only [answerOf, egfxAnswer, graphics, if_true]
            rfl
          · contradiction
  | next data =>
      cases underWay with
      | none =>
          obtain ⟨rfl, rfl⟩ := Prod.mk.inj (Option.some.inj taken)
          have done := processed data (List.mem_singleton_self data)
          simp only [answerOf, egfxAnswer, graphics, if_true, bufferOf, Option.map_none, xrdpEgfxData, done]
          simp
      | some assembly =>
          simp only [accept] at taken
          split at taken
          · rename_i room
            have enough : ¬(assembly.total : Int) < assembly.held.length + data.length := by
              rw [List.length_append] at room
              omega
            split at taken
            · rename_i full
              obtain ⟨rfl, rfl⟩ := Prod.mk.inj (Option.some.inj taken)
              have done := processed (assembly.held ++ data) (List.mem_singleton_self _)
              have whole : (assembly.total : Int) < (assembly.held ++ data).length + 1 := by omega
              simp only [answerOf, egfxAnswer, graphics, if_true, bufferOf, Option.map_some, xrdpEgfxData,
                if_neg enough, if_pos whole, done]
              simp
            · rename_i more
              obtain ⟨rfl, rfl⟩ := Prod.mk.inj (Option.some.inj taken)
              have part : ¬(assembly.total : Int) < (assembly.held ++ data).length + 1 := by omega
              simp only [answerOf, egfxAnswer, graphics, if_true, bufferOf, Option.map_some, xrdpEgfxData,
                if_neg enough, if_neg part]
              rfl
          · contradiction

/-- Every fragment that is heard is in the answer as the client has sent it. -/
def HeardAs (isEgfx : Procs → Bool) (label : ChannelOp Procs × Outcome Procs) : Prop :=
  ∀ fragment, heardOn isEgfx label = some fragment →
    ∃ procs chanId, isEgfx procs = true ∧
      label.2 = .answered (answerOf (some procs) chanId fragment)

theorem calls_of_fragments {isEgfx : Procs → Bool}
    {labels : List (ChannelOp Procs × Outcome Procs)}
    (heard_as : ∀ label ∈ labels, HeardAs isEgfx label) {underWay later : Option (Assembly Byte)}
    {streams : List (List Byte)} {calls : List Byte → List EgfxCallback}
    (arrived : reassemble underWay (labels.filterMap (heardOn isEgfx)) = some (streams, later))
    (processed : ∀ bytes ∈ streams, xrdpEgfxProcess (.ofBytes bytes) = some (true, calls bytes)) :
    egfxCalls isEgfx (bufferOf underWay) labels = some (streams.flatMap calls, bufferOf later) := by
  induction labels generalizing underWay streams with
  | nil =>
      obtain ⟨rfl, rfl⟩ := Prod.mk.inj (Option.some.inj arrived)
      rfl
  | cons label labels ih =>
      have rest := fun other member => heard_as other (List.mem_cons_of_mem label member)
      cases heard : heardOn isEgfx label with
      | none =>
          rw [List.filterMap_cons, heard] at arrived
          have more := ih rest arrived processed
          obtain ⟨op, outcome⟩ := label
          cases outcome with
          | answered answer =>
              rw [egfxCalls, answer_unheard heard, Option.bind_some, more]
              rfl
          | _ => exact more
      | some fragment =>
          obtain ⟨procs, chanId, graphics, answered⟩ :=
            heard_as label (List.mem_cons_self ..) fragment heard
          rw [List.filterMap_cons, heard] at arrived
          simp only [reassemble] at arrived
          obtain ⟨⟨stream, middle⟩, taken, completed⟩ := Option.bind_eq_some_iff.mp arrived
          obtain ⟨⟨others, final⟩, going, joined⟩ := Option.map_eq_some_iff.mp completed
          obtain ⟨rfl, rfl⟩ := Prod.mk.inj joined
          have first := @answer_taken _ _ _ graphics chanId _ _ _ _ taken calls fun bytes member =>
            processed bytes (List.mem_append_left _ member)
          have more := ih rest going fun bytes member =>
            processed bytes (List.mem_append_right _ member)
          obtain ⟨op, outcome⟩ := label
          obtain rfl : outcome = .answered (answerOf (some procs) chanId fragment) := answered
          rw [egfxCalls, first, Option.bind_some, more, Option.map_some, List.flatMap_append]

/-! ## Packets -/

/-- The command for a fragment, with the shortest numbers. -/
def clientCommand (chanId : Int) : Fragment Byte → List Byte
  | .first total data =>
      UInt8.ofNat (cmdDvcDataFirst ||| (drdynvcInsertUint124 total).1 <<< 2 |||
        (drdynvcInsertUint124 chanId).1) ::
        ((drdynvcInsertUint124 chanId).2 ++ ((drdynvcInsertUint124 total).2 ++ data))
  | .next data =>
      UInt8.ofNat (cmdDvcData ||| (drdynvcInsertUint124 chanId).1) ::
        ((drdynvcInsertUint124 chanId).2 ++ data)

/-- One packet of the static channel, not in chunks. -/
def clientPacket (chanId : Int) (fragment : Fragment Byte) : List Byte :=
  fieldBytes [.u32 (clientCommand chanId fragment).length, .u32 3] ++ clientCommand chanId fragment

/-- What the server asks of the first fragment of a stream. -/
def FragmentFits : Fragment Byte → Prop
  | .first total data => (1590 ≤ total ∧ total < 2 ^ 31) ∧ data.length ≤ total
  | .next _ => True

/-- Packets of this static channel are looked at for dynamic ones. -/
structure Listening (session : XrdpChannel Procs) (staticId : Int) : Prop where
  place : staticId - mcsGlobalChannel - 1 = session.drdynvcChannelId
  known : ∃ item,
    xrdpChannelGetItem session session.drdynvcChannelId = some item ∧ item.disabled = false

theorem signed_total {total : Nat} (small : total < 2 ^ 31) : signed 4 (total : Int) = total := by
  unfold signed
  rw [if_pos (by omega)]

theorem data_first_command (self : XrdpChannel Procs) {cmd : Nat} (s : List Byte)
    (command : cmd &&& 0xf0 = cmdDvcDataFirst) :
    processCommand self cmd s = (drdynvcProcessDataFirst self cmd s, self) := by
  rw [processCommand, command]
  rfl

theorem data_command (self : XrdpChannel Procs) {cmd : Nat} (s : List Byte)
    (command : cmd &&& 0xf0 = cmdDvcData) :
    processCommand self cmd s = (drdynvcProcessData self cmd s, self) := by
  rw [processCommand, command]
  rfl

theorem process_client_command (self : XrdpChannel Procs) {chanId : Int}
    (number : 0 ≤ chanId ∧ chanId ≤ 255) {fragment : Fragment Byte} (fits : FragmentFits fragment) :
    ∃ cmd s, clientCommand chanId fragment = cmd :: s ∧
      processCommand self cmd.toNat s =
        (answerOf (self.drdynvcs chanId).procs chanId fragment, self) := by
  cases fragment with
  | first total data =>
      obtain ⟨⟨low, high⟩, room⟩ := fits
      obtain ⟨bits, command, length⟩ := first_bits (insert_code total) (insert_code chanId)
      have id_read := get_insert ⟨number.1, by omega⟩ ((drdynvcInsertUint124 total).2 ++ data)
      have total_read := @get_insert total ⟨by omega, by omega⟩ data
      refine ⟨_, _, rfl, ?_⟩
      rw [data_first_command _ _ command, drdynvcProcessDataFirst, drdynvcGetChanId, bits, id_read]
      simp only [length, total_read, signed_total high]
      rw [if_neg (by omega), if_neg (by omega)]
      rfl
  | next data =>
      obtain ⟨bits, command⟩ := @plain_bits cmdDvcData _ (by decide) (insert_code chanId)
      have id_read := get_insert ⟨number.1, by omega⟩ data
      refine ⟨_, _, rfl, ?_⟩
      rw [data_command _ _ command, drdynvcProcessData, drdynvcGetChanId, bits, id_read]
      simp only
      rw [if_neg (by omega)]
      rfl

theorem process_client_packet {self : XrdpChannel Procs} {staticId chanId : Int}
    (listening : Listening self staticId) (number : 0 ≤ chanId ∧ chanId ≤ 255) (stray : Byte)
    {fragment : Fragment Byte} (fits : FragmentFits fragment) :
    xrdpChannelProcess self stray staticId (clientPacket chanId fragment) =
      some (answerOf (self.drdynvcs chanId).procs chanId fragment, self) := by
  obtain ⟨cmd, s, command, answered⟩ := process_client_command self number fits
  obtain ⟨item, known, enabled⟩ := listening.known
  have fields : readFields [4, 4] (clientPacket chanId fragment) =
      some ([(Field.u32 (clientCommand chanId fragment).length).held, 3],
        clientCommand chanId fragment) :=
    read_fields_bytes [.u32 (clientCommand chanId fragment).length, .u32 3] _
  rw [command] at fields
  simp only [xrdpChannelProcess, listening.place, known, enabled, Bool.false_eq_true, if_false, if_true,
    xrdpChannelProcessDrdynvc, fields]
  rw [← answered]
  rfl

/-! ## Runs -/

theorem step_listening {before after : XrdpChannel Procs} {label : ChannelOp Procs × Outcome Procs}
    {staticId : Int} (listening : Listening before staticId) (stepped : channel.step before label after) :
    Listening after staticId := by
  have kept : ∀ {state : XrdpChannel Procs}, state.drdynvcChannelId = before.drdynvcChannelId →
      state.channelList = before.channelList → Listening state staticId := by
    intro state number channels
    obtain ⟨item, known, enabled⟩ := listening.known
    refine ⟨listening.place.trans number.symm, item, ?_, enabled⟩
    rw [xrdpChannelGetItem, number, channels]
    exact known
  have sent : ∀ {state : XrdpChannel Procs}, SendOnly before state → Listening state staticId := by
    intro state only
    exact kept (by rw [only]) (by rw [only])
  obtain ⟨op, outcome⟩ := label
  cases op with
  | start =>
      obtain ⟨-, rfl⟩ := taken_outcome (xrdpChannelDrdynvcStart before) stepped
      have started : before.drdynvcChannelId ≠ -1 := by
        intro never
        obtain ⟨item, known, -⟩ := listening.known
        rw [never] at known
        simp [xrdpChannelGetItem] at known
      rw [xrdpChannelDrdynvcStart, if_pos started]
      exact listening
  | openChannel name procs =>
      obtain ⟨-, rfl⟩ := taken_outcome (xrdpChannelDrdynvcOpen before name procs) stepped
      unfold xrdpChannelDrdynvcOpen
      split
      · exact listening
      · rename_i chId _
        have only := send_only_command before (cmdDvcOpenChannel ||| (drdynvcInsertUint124 chId).1)
          ((drdynvcInsertUint124 chId).2 ++ (name ++ [0]))
        simp only
        split
        · apply kept <;> simp only <;> rw [only]
        · exact sent only
  | close id =>
      obtain ⟨-, rfl⟩ := taken_outcome (xrdpChannelDrdynvcClose before id) stepped
      unfold xrdpChannelDrdynvcClose
      split
      · exact listening
      · split
        · exact listening
        · have only := send_only_command before (cmdDvcCloseChannel ||| (drdynvcInsertUint124 id).1)
            (drdynvcInsertUint124 id).2
          simp only
          split
          · apply kept <;> simp only [setStatus] <;> rw [only]
          · exact sent only
  | dataFirst id data total =>
      obtain ⟨-, rfl⟩ := taken_outcome (xrdpChannelDrdynvcDataFirst before id data total) stepped
      exact sent (send_only_data_first before id data total)
  | data id data =>
      obtain ⟨-, rfl⟩ := taken_outcome (xrdpChannelDrdynvcData before id data) stepped
      exact sent (send_only_data before id data)
  | egfxSend id data =>
      obtain ⟨-, rfl⟩ := taken_outcome (xrdpEgfxSendData before id data) stepped
      exact sent (send_only_egfx before id data)
  | receive stray chanid packet =>
      obtain ⟨⟨answer, state⟩, processed, result⟩ := Option.map_eq_some_iff.mp stepped
      obtain ⟨rfl, rfl⟩ : Outcome.answered answer = outcome ∧ state = after := Prod.mk.inj result
      have only := heard_only_receive processed
      exact kept (by rw [only]) (by rw [only])

/-! ## Callbacks -/

def HasCallbacks (isEgfx : Procs → Bool) (chanId : Int) (self : XrdpChannel Procs) : Prop :=
  ∃ procs, (self.drdynvcs chanId).procs = some procs ∧ isEgfx procs = true

/-- The callbacks stay until the number is given to another channel. -/
theorem step_callbacks {isEgfx : Procs → Bool} {chanId : Int} {before after : XrdpChannel Procs}
    {label : ChannelOp Procs × Outcome Procs} (callbacks : HasCallbacks isEgfx chanId before)
    (kept : assigns chanId label = none) (stepped : channel.step before label after) :
    HasCallbacks isEgfx chanId after := by
  obtain ⟨procs, set, graphics⟩ := callbacks
  refine ⟨procs, ?_, graphics⟩
  rw [step_entry stepped, kept, set]
  rfl

theorem opening_callbacks {isEgfx : Procs → Bool} {chanId : Int} {before after : XrdpChannel Procs}
    {label : ChannelOp Procs × Outcome Procs} {procs : Procs}
    (assigned : assigns chanId label = some procs) (graphics : isEgfx procs = true)
    (stepped : channel.step before label after) : HasCallbacks isEgfx chanId after := by
  refine ⟨procs, ?_, graphics⟩
  rw [step_entry stepped, assigned]
  rfl

theorem opening_unheard {isEgfx : Procs → Bool} {chanId : Int}
    {label : ChannelOp Procs × Outcome Procs} {procs : Procs}
    (assigned : assigns chanId label = some procs) : heardOn isEgfx label = none := by
  obtain ⟨op, outcome⟩ := label
  cases outcome with
  | answered answer => cases op <;> contradiction
  | _ => rfl

/-! ## Delivery -/

/-- The fragments that come in packets of the client once the channel is `opened`. At every other
step no fragment is heard, and from then on the number is not given to another channel. -/
inductive Carried (isEgfx : Procs → Bool) (chanId staticId : Int) :
    Bool → List (ChannelOp Procs × Outcome Procs) → List (Fragment Byte) → Prop where
  | nil (opened : Bool) : Carried isEgfx chanId staticId opened [] []
  | opening (opened : Bool) (label : ChannelOp Procs × Outcome Procs) {procs : Procs}
      {labels : List (ChannelOp Procs × Outcome Procs)} {fragments : List (Fragment Byte)} :
      assigns chanId label = some procs → isEgfx procs = true →
      Carried isEgfx chanId staticId true labels fragments →
      Carried isEgfx chanId staticId opened (label :: labels) fragments
  | packet (stray : Byte) (outcome : Outcome Procs) (fragment : Fragment Byte)
      {labels : List (ChannelOp Procs × Outcome Procs)} {fragments : List (Fragment Byte)} :
      Carried isEgfx chanId staticId true labels fragments →
      Carried isEgfx chanId staticId true
        ((.receive stray staticId (clientPacket chanId fragment), outcome) :: labels)
        (fragment :: fragments)
  | other {opened : Bool} (label : ChannelOp Procs × Outcome Procs)
      {labels : List (ChannelOp Procs × Outcome Procs)} {fragments : List (Fragment Byte)} :
      heardOn isEgfx label = none → (opened = true → assigns chanId label = none) →
      Carried isEgfx chanId staticId opened labels fragments →
      Carried isEgfx chanId staticId opened (label :: labels) fragments

theorem heard_answer {isEgfx : Procs → Bool} {procs : Procs} (graphics : isEgfx procs = true)
    (chanId : Int) (fragment : Fragment Byte) :
    heardFragment isEgfx (answerOf (some procs) chanId fragment) = some fragment := by
  cases fragment <;> simp [answerOf, heardFragment, graphics]

theorem packet_answered {isEgfx : Procs → Bool} {before after : XrdpChannel Procs}
    {staticId chanId : Int} (listening : Listening before staticId)
    (number : 0 ≤ chanId ∧ chanId ≤ 255) (callbacks : HasCallbacks isEgfx chanId before)
    {stray : Byte} {fragment : Fragment Byte} (fits : FragmentFits fragment) {outcome : Outcome Procs}
    (stepped : channel.step before
      (.receive stray staticId (clientPacket chanId fragment), outcome) after) :
    ∃ procs, isEgfx procs = true ∧ outcome = .answered (answerOf (some procs) chanId fragment) := by
  obtain ⟨procs, set, graphics⟩ := callbacks
  obtain ⟨result, processed, taken⟩ := Option.map_eq_some_iff.mp stepped
  rw [process_client_packet listening number stray fits, set] at processed
  obtain rfl := Option.some.inj processed
  exact ⟨procs, graphics, (congrArg Prod.fst taken).symm⟩

theorem heard_other {isEgfx : Procs → Bool} {label : ChannelOp Procs × Outcome Procs}
    {labels : List (ChannelOp Procs × Outcome Procs)} {fragments : List (Fragment Byte)}
    (unheard : heardOn isEgfx label = none)
    (heard : labels.filterMap (heardOn isEgfx) = fragments ∧
      ∀ other ∈ labels, HeardAs isEgfx other) :
    (label :: labels).filterMap (heardOn isEgfx) = fragments ∧
      ∀ other ∈ label :: labels, HeardAs isEgfx other := by
  constructor
  · rw [List.filterMap_cons, unheard, heard.1]
  · intro other member
    rcases List.mem_cons.mp member with rfl | listed
    · intro fragment found
      rw [unheard] at found
      contradiction
    · exact heard.2 other listed

theorem heard_carried {isEgfx : Procs → Bool} {opened : Bool}
    {labels : List (ChannelOp Procs × Outcome Procs)} {fragments : List (Fragment Byte)}
    {staticId chanId : Int} (carried : Carried isEgfx chanId staticId opened labels fragments)
    {start final : XrdpChannel Procs} (ran : channel.Run start labels final)
    (listening : Listening start staticId) (number : 0 ≤ chanId ∧ chanId ≤ 255)
    (callbacks : opened = true → HasCallbacks isEgfx chanId start)
    (fit : ∀ fragment ∈ fragments, FragmentFits fragment) :
    labels.filterMap (heardOn isEgfx) = fragments ∧ ∀ label ∈ labels, HeardAs isEgfx label := by
  -- along the labels from the front: the state has the callbacks as soon as the index says so
  induction carried generalizing start with
  | nil => exact ⟨rfl, by simp⟩
  | opening opened label assigned graphics carried ih =>
      obtain ⟨middle, stepped, later⟩ := System.run_first ran
      apply heard_other (opening_unheard assigned)
      exact ih later (step_listening listening stepped)
        (fun _ => opening_callbacks assigned graphics stepped) fit
  | packet stray outcome fragment carried ih =>
      obtain ⟨middle, stepped, later⟩ := System.run_first ran
      have set := callbacks rfl
      obtain ⟨procs, graphics, rfl⟩ := packet_answered listening number set
        (fit fragment (List.mem_cons_self ..)) stepped
      obtain ⟨rest, each⟩ := ih later (step_listening listening stepped)
        (fun _ => step_callbacks set rfl stepped)
        fun other member => fit other (List.mem_cons_of_mem fragment member)
      constructor
      · rw [List.filterMap_cons, heardOn]
        simp only [heard_answer graphics, rest]
      · intro label member
        rcases List.mem_cons.mp member with rfl | listed
        · intro other heard
          simp only [heardOn, heard_answer graphics, Option.some.injEq] at heard
          exact ⟨procs, chanId, graphics, by rw [heard]⟩
        · exact each label listed
  | other label unheard kept carried ih =>
      obtain ⟨middle, stepped, later⟩ := System.run_first ran
      apply heard_other unheard
      exact ih later (step_listening listening stepped)
        (fun isOpen => step_callbacks (callbacks isOpen) (kept isOpen) stepped) fit

/-- Once a run has opened the channel with the callbacks for graphics, and whatever else happens
there, the messages that a client cuts into packets lead to exactly their calls of the manager, in
their order, and nothing is left in the buffer. -/
theorem client_messages_called {isEgfx : Procs → Bool} {start final : XrdpChannel Procs}
    {labels : List (ChannelOp Procs × Outcome Procs)} (ran : channel.Run start labels final)
    {staticId chanId : Int} (listening : Listening start staticId)
    (number : 0 ≤ chanId ∧ chanId ≤ 255) {streams : List (List ClientMessage)}
    (sound : ∀ clients ∈ streams, ∀ client ∈ clients, Sound client)
    {groups : List (List (Fragment Byte))}
    (cuttings : List.Forall₂ Cutting (streams.map (·.flatMap messageBytes)) groups)
    (fit : ∀ fragment ∈ groups.flatten, FragmentFits fragment)
    (carried : Carried isEgfx chanId staticId false labels groups.flatten) :
    egfxCalls isEgfx none labels = some (streams.flatMap (·.flatMap callsOf), none) := by
  obtain ⟨heard, each⟩ := heard_carried carried ran listening number (by simp) fit
  have arrived := reassemble_messages cuttings
  rw [← heard] at arrived
  let calls : List Byte → List EgfxCallback := fun bytes =>
    ((xrdpEgfxProcess (.ofBytes bytes)).map Prod.snd).getD []
  have called : ∀ clients ∈ streams,
      calls (clients.flatMap messageBytes) = clients.flatMap callsOf := by
    intro clients member
    simp only [calls, process_stream (sound clients member), Option.map_some, Option.getD_some]
  have processed : ∀ bytes ∈ streams.map (·.flatMap messageBytes),
      xrdpEgfxProcess (.ofBytes bytes) = some (true, calls bytes) := by
    intro bytes member
    obtain ⟨clients, listed, rfl⟩ := List.mem_map.mp member
    rw [called clients listed, process_stream (sound clients listed)]
  have whole := calls_of_fragments each arrived processed
  rw [List.flatMap_map, List.flatMap_congr called] at whole
  exact whole

/-- The static channel for dynamic ones is the third. The callbacks are those for graphics or not. -/
def listeningSession : XrdpChannel Bool where
  channelList := freshSession.channelList
  drdynvcChannelId := 2
  s := none
  drdynvcs := fun _ => { status := .closed, procs := none }
  sent := []
  sendResults := []

/-- More than one packet holds. -/
def advertisement : List ClientMessage :=
  [.capsAdvertise [{ version := 0x80004, capsData := [0, 0, 0, 0] },
      { version := 0xA0100, capsData := List.replicate 1600 0 }],
    .other EgfxWire.cmdidQoeFrameAcknowledge [1, 2, 3, 4]]

def advertisementBytes : List Byte := advertisement.flatMap messageBytes

def advertisementStart : Fragment Byte :=
  .first advertisementBytes.length (advertisementBytes.take 1500)

def advertisementEnd : Fragment Byte := .next (advertisementBytes.drop 1500)

def acknowledgement : Fragment Byte := .next (messageBytes (.frameAcknowledge 0 5 5))

/-- Two channels are opened. Between the two packets of the capabilities one arrives for the other. -/
def clientPackets : List (ChannelOp Bool) :=
  [.openChannel [0x67] true, .openChannel [0x64] false,
    .receive 0 1006 [6, 0, 0, 0, 3, 0, 0, 0, 0x10, 1, 0, 0, 0, 0],
    .receive 0 1006 (clientPacket 1 advertisementStart), .receive 0 1006 (clientPacket 2 (.next [9])),
    .data 3 [7], .receive 0 1006 (clientPacket 1 advertisementEnd),
    .receive 0 1006 (clientPacket 1 acknowledgement)]

theorem client_messages_called_graphics :
    ∃ labels final, runOps listeningSession clientPackets = some (labels, final) ∧
      egfxCalls id none labels =
        some ([.capsAdvertise [(0x80004, 0)], .frameAck 0 5 5], none) := by
  have runs : (runOps listeningSession clientPackets).isSome = true := by decide +kernel
  obtain ⟨⟨labels, final⟩, ran⟩ := Option.isSome_iff_exists.mp runs
  have answers : (runOps listeningSession clientPackets).map (fun result => result.1) =
      some [(.openChannel [0x67] true, .assigned (some 1)),
        (.openChannel [0x64] false, .assigned (some 2)),
        (.receive 0 1006 [6, 0, 0, 0, 3, 0, 0, 0, 0x10, 1, 0, 0, 0, 0],
          .answered (.openResponse (some true) 1 0)),
        (.receive 0 1006 (clientPacket 1 advertisementStart),
          .answered (.dataFirst (some true) 1 (advertisementBytes.take 1500)
            advertisementBytes.length)),
        (.receive 0 1006 (clientPacket 2 (.next [9])), .answered (.data (some false) 2 [9])),
        (.data 3 [7], .done false),
        (.receive 0 1006 (clientPacket 1 advertisementEnd),
          .answered (.data (some true) 1 (advertisementBytes.drop 1500))),
        (.receive 0 1006 (clientPacket 1 acknowledgement),
          .answered (.data (some true) 1 (messageBytes (.frameAcknowledge 0 5 5))))] := by
    decide +kernel
  rw [ran, Option.map_some, Option.some.injEq] at answers
  change labels = _ at answers
  have carried : Carried id 1 1006 false labels
      [advertisementStart, advertisementEnd, acknowledgement] := by
    rw [answers]
    apply Carried.opening _ _ rfl rfl
    apply Carried.other _ rfl fun _ => rfl
    apply Carried.other _ rfl fun _ => rfl
    apply Carried.packet
    apply Carried.other _ rfl fun _ => rfl
    apply Carried.other _ rfl fun _ => rfl
    apply Carried.packet
    apply Carried.packet
    exact Carried.nil true
  have listening : Listening listeningSession 1006 := by
    refine ⟨by decide, _, rfl, rfl⟩
  have sound : ∀ clients ∈ [advertisement, [.frameAcknowledge 0 5 5]], ∀ client ∈ clients,
      Sound client := by
    simp only [advertisement, List.forall_mem_cons]
    refine ⟨⟨⟨by decide +kernel, by decide⟩, ⟨by decide +kernel, by decide⟩, by simp⟩,
      ⟨⟨by decide +kernel, by decide⟩, by simp⟩, by simp⟩
  have cuttings : List.Forall₂ Cutting
      ([advertisement, [.frameAcknowledge 0 5 5]].map (·.flatMap messageBytes))
      [[advertisementStart, advertisementEnd], [acknowledgement]] := by
    have parts := Cutting.parts (advertisementBytes.take 1500) [] (advertisementBytes.drop 1500)
      (by decide +kernel)
    rw [List.flatten_nil, List.append_nil, List.take_append_drop] at parts
    exact .cons parts (.cons (.whole _) .nil)
  have fit : ∀ fragment ∈ [advertisementStart, advertisementEnd, acknowledgement],
      FragmentFits fragment := by
    simp only [List.forall_mem_cons, FragmentFits, advertisementStart, advertisementEnd, acknowledgement]
    refine ⟨⟨by decide +kernel, by decide +kernel⟩, trivial, trivial, by simp⟩
  refine ⟨labels, final, ran, ?_⟩
  have called := client_messages_called (run_of_ops ran) listening (by decide) sound cuttings fit
    carried
  rw [called]
  decide +kernel

end XrdpConsole.ClientDelivery
