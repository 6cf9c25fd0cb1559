import XrdpConsole.ChannelDelivery
import XrdpConsole.EgfxRoundTrip

/-!
# Graphics messages on their channel

From the calls of `xrdp_egfx_send_*` to the messages the client reads: what is built, cut, put into
packets beside those of other channels, put together again and read.
-/

namespace XrdpConsole.EgfxDelivery

open XrdpConsole.Library
open XrdpConsole.VncState
open XrdpConsole.DynamicChannel
open XrdpConsole.ChannelDelivery
open XrdpConsole.EgfxWire
open XrdpConsole.EgfxRoundTrip

set_option autoImplicit false

variable {Procs : Type}

/-- All of them, if there are all. -/
def allSome {Value : Type} : List (Option Value) → Option (List Value)
  | [] => some []
  | none :: _ => none
  | some value :: rest => (allSome rest).map (value :: ·)

theorem all_some_map {Source Value : Type} {read : Source → Option Value} {value : Source → Value}
    {items : List Source} (each : ∀ item ∈ items, read item = some (value item)) :
    allSome (items.map read) = some (items.map value) := by
  induction items with
  | nil => rfl
  | cons item items ih =>
      have rest := ih fun other member => each other (List.mem_cons_of_mem item member)
      rw [List.map_cons, each item (List.mem_cons_self ..), allSome, rest]
      rfl

/-- The messages that the client reads on a channel; none if something is left over or is not
understood. -/
def clientMessages (chanId : Int) (packets : List StaticPacket) : Option (List EgfxMessage) :=
  match reassemble none (packets.filterMap (fragmentOf chanId)) with
  | some (streams, none) => allSome (streams.map readMessage)
  | _ => none

/-- The streams of messages that fit are read as these messages. -/
theorem client_reads {chanId : Int} {packets : List StaticPacket} {messages : List EgfxMessage}
    {streams : List (List Byte)} (fits : ∀ message ∈ messages, Fits message)
    (built : messages.map stream = streams.map some)
    (arrived : reassemble none (packets.filterMap (fragmentOf chanId)) = some (streams, none)) :
    clientMessages chanId packets = some (messages.map told) := by
  have each : ∀ message ∈ messages, (stream message).bind readMessage = some (told message) :=
    fun message member => read_message_stream (fits message member)
  have same : streams.map readMessage =
      messages.map fun message => (stream message).bind readMessage := by
    have mapped := congrArg (List.map (·.bind readMessage)) built
    rw [List.map_map, List.map_map] at mapped
    exact mapped.symm
  simp only [clientMessages, arrived]
  rw [same, all_some_map each]

/-- In every run that sends only messages which fit on the channel of the graphics, whatever the
other channels carry meanwhile, the client reads exactly those whose sending succeeded. -/
theorem graphics_messages_delivered {start final : XrdpChannel Procs}
    {labels : List (ChannelOp Procs × Outcome Procs)} (created : channel.initial start)
    (link : start.sendResults = []) (ran : channel.Run start labels final) {chanId : Int}
    (whole : ∀ label ∈ labels, WholeOn chanId label.1) {messages : List EgfxMessage}
    (fits : ∀ message ∈ messages, Fits message)
    (built : messages.map stream = (labels.filterMap (deliveredOn chanId)).map some) :
    clientMessages chanId final.sent = some (messages.map told) :=
  client_reads fits built (messages_delivered created link ran whole)

/-- Two channels are opened, and between the messages on the first the second is used and closed. -/
def twoChannels : List (ChannelOp Unit) :=
  [.start, .egfxSend 1 (xrdpEgfxFrameEnd 0), .openChannel [0x67] (), .openChannel [0x68] (),
    .receive 0 1006 [6, 0, 0, 0, 3, 0, 0, 0, 0x10, 1, 0, 0, 0, 0],
    .receive 0 1006 [6, 0, 0, 0, 3, 0, 0, 0, 0x10, 2, 0, 0, 0, 0],
    .egfxSend 1 (xrdpEgfxFrameStart 1 0), .dataFirst 2 [7] 2000, .data 2 [8],
    .egfxSend 1 (xrdpEgfxDeleteSurface 3), .close 2, .egfxSend 1 (xrdpEgfxFrameEnd 1)]

theorem graphics_messages_delivered_two :
    ∃ labels final, runOps freshSession twoChannels = some (labels, final) ∧
      clientMessages 1 final.sent = some [.frameStart 1 0, .deleteSurface 3, .frameEnd 1] := by
  have runs : (runOps freshSession twoChannels).isSome = true := by rfl
  obtain ⟨⟨labels, final⟩, ran⟩ := Option.isSome_iff_exists.mp runs
  have delivered : (runOps freshSession twoChannels).map
      (fun result => result.1.filterMap (deliveredOn 1)) =
      some [xrdpEgfxFrameStart 1 0, xrdpEgfxDeleteSurface 3, xrdpEgfxFrameEnd 1] := by rfl
  rw [ran, Option.map_some, Option.some.injEq] at delivered
  have whole : ∀ label ∈ labels, WholeOn 1 label.1 := by
    intro label member
    have listed : label.1 ∈ twoChannels := run_ops_labels ran ▸ List.mem_map_of_mem member
    have all : ∀ op ∈ twoChannels, WholeOn 1 op := by
      simp only [twoChannels, List.forall_mem_cons, WholeOn, ChannelRuns.SendsOn]
      simp [xrdpEgfxFrameStart, xrdpEgfxFrameEnd, xrdpEgfxDeleteSurface, single, Field.u8, Field.u16,
        Field.u32]
    exact all label.1 listed
  have fits : ∀ message ∈ [EgfxMessage.frameStart 1 0, .deleteSurface 3, .frameEnd 1],
      Fits message := by
    simp only [List.forall_mem_cons, Fits]
    refine ⟨by decide, by decide, by decide, by simp⟩
  have built : [EgfxMessage.frameStart 1 0, .deleteSurface 3, .frameEnd 1].map stream =
      (labels.filterMap (deliveredOn 1)).map some := by
    rw [delivered]
    rfl
  exact ⟨labels, final, ran,
    graphics_messages_delivered fresh_session_initial rfl (run_of_ops ran) whole fits built⟩

end XrdpConsole.EgfxDelivery
