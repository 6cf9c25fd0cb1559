import XrdpConsole.GpuHandshake

/-!
# A session of the GPU probe

The messages that a session of the probe receives, and the answer to its request, for any way in
which the bytes of the server arrive.
-/

namespace XrdpConsole.GpuSession

open XrdpConsole.Library XrdpConsole.GpuProbe XrdpConsole.GpuHandshake Program

set_option autoImplicit false

variable {Json : Type}

/-! ## What is sent and received -/

/-- The frames of a server: unfragmented text, binary, ping and pong frames. -/
def Sent (frame : Frame) : Prop := frame.first ∈ [0x81, 0x82, 0x89, 0x8A]

def receive : Nat → SocketM Json (List (Nat × Octets))
  | 0 => pure []
  | count + 1 => do
      let message ← wsRecv
      let messages ← receive count
      pure (message :: messages)

def Receives (Json : Type) (sock : Socket) (messages : List (Nat × Octets)) : Prop :=
  ∃ final, Returns (receive messages.length : SocketM Json _) sock messages final ∧
    final.incoming = []

/-- The headers of frames from a position on do not arrive in two pieces. -/
def HeadersWhole (pieces : List Octets) : Nat → List Frame → Prop
  | _, [] => True
  | start, frame :: rest =>
      start + 1 ∉ pieceEnds 0 pieces ∧ HeadersWhole pieces (start + frame.wire.length) rest

theorem receives_nil (sock : Socket) : Receives Json sock [] ↔ sock.incoming = [] := by
  simp [Receives, receive]

theorem receives_cons (sock : Socket) (message : Nat × Octets) (rest : List (Nat × Octets)) :
    Receives Json sock (message :: rest) ↔
      ∃ after, Returns (wsRecv : SocketM Json _) sock message after ∧ Receives Json after rest := by
  constructor
  · rintro ⟨final, ran, nothing⟩
    rw [List.length_cons, receive, returns_bind] at ran
    obtain ⟨first, after, received, more⟩ := ran
    rw [returns_bind] at more
    obtain ⟨messages, last, others, whole⟩ := more
    rw [returns_pure, List.cons.injEq] at whole
    obtain ⟨⟨rfl, rfl⟩, rfl⟩ := whole
    exact ⟨after, received, last, others, nothing⟩
  · rintro ⟨after, received, final, others, nothing⟩
    refine ⟨final, ?_, nothing⟩
    rw [List.length_cons, receive, returns_bind]
    refine ⟨message, after, received, ?_⟩
    rw [returns_bind]
    exact ⟨rest, final, others, (returns_pure _ _ _ _).mpr ⟨rfl, rfl⟩⟩

theorem flatten_none {stream : List Octets} (arrived : [] ∉ stream) :
    stream.flatten = [] ↔ stream = [] := by
  cases stream with
  | nil => simp
  | cons piece rest =>
      rw [List.mem_cons, not_or] at arrived
      simp [Ne.symm arrived.1]

theorem header_whole {pieces : List Octets} (arrived : [] ∉ pieces) (start : Nat) :
    1 ∉ pieceEnds 0 (dropStream start pieces) ↔ start + 1 ∉ pieceEnds 0 pieces := by
  simp [drop_stream_ends arrived]

variable (Json) in
/-- Messages are received exactly when what is left are frames with them, with their headers
whole. -/
theorem receives_iff {pieces : List Octets} (arrived : [] ∉ pieces) (sent : Octets) (start : Nat)
    (messages : List (Nat × Octets)) :
    Receives Json { incoming := dropStream start pieces, sent } messages ↔
      ∃ frames : List Frame, pieces.flatten.drop start = frames.flatMap Frame.wire ∧
        frames.map Frame.message = messages ∧ HeadersWhole pieces start frames := by
  induction messages generalizing start with
  | nil =>
      simp only [receives_nil, List.map_eq_nil_iff, ← drop_stream_flatten,
        ← flatten_none (drop_stream_some arrived start)]
      constructor
      · intro nothing
        exact ⟨[], nothing, rfl, trivial⟩
      · rintro ⟨frames, content, rfl, _⟩
        exact content
  | cons message rest ih =>
      rw [receives_cons]
      constructor
      · rintro ⟨after, received, more⟩
        obtain ⟨together, frame, left, content, message_same, rfl⟩ :=
          (ws_recv_returns (drop_stream_some arrived start) message after).mp received
        rw [Socket.drop, ← drop_stream_add] at more
        obtain ⟨frames, others, messages_same, whole⟩ := (ih (start + frame.wire.length)).mp more
        rw [Socket.content, drop_stream_flatten] at content
        rw [← List.drop_drop, content, List.drop_left] at others
        rw [header_whole arrived] at together
        exact ⟨frame :: frames, by rw [content, others, List.flatMap_cons],
          by rw [List.map_cons, message_same, messages_same], together, whole⟩
      · rintro ⟨frames, content, messages_same, whole⟩
        cases frames with
        | nil => contradiction
        | cons frame frames =>
            rw [List.map_cons, List.cons.injEq] at messages_same
            rw [List.flatMap_cons] at content
            obtain ⟨together, whole⟩ := whole
            rw [← header_whole arrived] at together
            refine ⟨_, (ws_recv_returns (drop_stream_some arrived start) message _).mpr
              ⟨together, frame, frames.flatMap Frame.wire, ?_, messages_same.1, rfl⟩, ?_⟩
            · rw [Socket.content, drop_stream_flatten, content]
            · rw [Socket.drop, ← drop_stream_add, ih]
              refine ⟨frames, ?_, messages_same.2, whole⟩
              rw [← List.drop_drop, content, List.drop_left]

theorem headers_whole_same {pieces : List Octets} (start : Nat) {frames others : List Frame}
    (same : frames.flatMap Frame.wire = others.flatMap Frame.wire)
    (whole : HeadersWhole pieces start others) : HeadersWhole pieces start frames := by
  induction frames generalizing others start with
  | nil => trivial
  | cons frame frames ih =>
      cases others with
      | nil => simp [Frame.wire] at same
      | cons other others =>
          rw [List.flatMap_cons, List.flatMap_cons] at same
          obtain ⟨_, wire_same, rest_same⟩ := wire_front same
          obtain ⟨together, whole⟩ := whole
          rw [← wire_same] at whole
          exact ⟨together, ih _ rest_same whole⟩

theorem receives_sent {sock : Socket} (arrived : [] ∉ sock.incoming) (sent : Octets)
    {messages : List (Nat × Octets)} (received : Receives Json sock messages) :
    Receives Json { sock with sent } messages := by
  have left := receives_iff Json arrived sock.sent 0 messages
  have right := receives_iff Json arrived sent 0 messages
  rw [drop_stream_none] at left right
  exact right.mpr (left.mp received)

theorem receives_frames {pieces : List Octets} (arrived : [] ∉ pieces) (sent : Octets) {start : Nat}
    {frames : List Frame} (content : pieces.flatten.drop start = frames.flatMap Frame.wire) :
    Receives Json { incoming := dropStream start pieces, sent } (frames.map Frame.message) ↔
      HeadersWhole pieces start frames := by
  rw [receives_iff Json arrived]
  constructor
  · rintro ⟨others, other_content, _, whole⟩
    rw [content] at other_content
    exact headers_whole_same start other_content whole
  · intro whole
    exact ⟨frames, content, rfl, whole⟩

/-! ## The answer -/

/-- The object that a message is, if its id is 1. -/
def response (json : Loader Json) (message : Nat × Octets) : Option (List Char → Option Json) :=
  if message.1 = 0x1 ∨ message.1 = 0x2 then
    (json.loads message.2).filter fun object => (object "id".toList).any json.isOne
  else none

def firstResponse (json : Loader Json) (messages : List (Nat × Octets)) :
    Option (List Char → Option Json) :=
  messages.findSome? (response json)

/-- A message that the probe cannot deal with: a ping whose length is no byte, or data that are no
JSON object. -/
def Blocks (json : Loader Json) (message : Nat × Octets) : Prop :=
  (message.1 = 0x9 ∧ 255 < message.2.length) ∨
    ((message.1 = 0x1 ∨ message.1 = 0x2) ∧ json.loads message.2 = none)

/-- No message that blocks is in front of the first response. -/
def Answerable (json : Loader Json) (messages : List (Nat × Octets)) : Prop :=
  ∀ object, firstResponse json messages = some object →
    ∀ message ∈ messages.takeWhile fun message => (response json message).isNone,
      ¬Blocks json message

theorem bind_run {Value Result : Type} {first : SocketM Json Value}
    {next : Value → SocketM Json Result} {sock after : Socket} {value : Value}
    (ran : Returns first sock value after) : (first >>= next) sock = next value after := by
  change Program.bind first next sock = _
  rw [Program.bind, ran]

theorem handle_data (json : Loader Json) {opcode : Nat} (data : opcode = 0x1 ∨ opcode = 0x2)
    (payload : Octets) :
    handleMessage json (opcode, payload) =
      match json.loads payload with
      | none => stop .notAnObject
      | some object =>
          if (object "id".toList).any json.isOne then
            match answer object with
            | .ok result => pure (some result)
            | .error error => stop error
          else pure none := by
  have not_ping : opcode ≠ 0x9 := by omega
  have not_close : opcode ≠ 0x8 := by omega
  have neither : ¬(opcode ≠ 0x1 ∧ opcode ≠ 0x2) := by omega
  exact (if_neg not_ping).trans ((if_neg not_close).trans (if_neg neither))

theorem loop_ends {Value : Type} {body : SocketM Json (Option Value)} {sock : Socket}
    {result : Except (ProbeError Json) Value} (ended : (body sock).1 = result.map some)
    (outOfFuel : ProbeError Json) (fuel : Nat) :
    (loop outOfFuel body (fuel + 1) sock).1 = result := by
  rw [loop]
  change (Program.bind body _ sock).1 = result
  rw [Program.bind]
  cases ran : body sock with
  | mk outcome after =>
      rw [ran] at ended
      cases result with
      | ok value =>
          rw [show outcome = .ok (some value) from ended]
          rfl
      | error error =>
          rw [show outcome = .error error from ended]

theorem loop_again {Value : Type} {body : SocketM Json (Option Value)} {sock after : Socket}
    (ran : Returns body sock none after) (outOfFuel : ProbeError Json) (fuel : Nat) :
    loop outOfFuel body (fuel + 1) sock = loop outOfFuel body fuel after := by
  rw [loop, bind_run ran]

theorem handle_response {json : Loader Json} {message : Nat × Octets}
    {object : List Char → Option Json} (found : response json message = some object)
    (sock : Socket) :
    (handleMessage json message sock).1 = (answer object).map some := by
  obtain ⟨opcode, payload⟩ := message
  rw [response] at found
  split at found
  · rename_i data
    obtain ⟨loaded, one⟩ := Option.filter_eq_some_iff.mp found
    simp only [handle_data json data, loaded, if_pos one]
    cases answer object with
    | ok result => rfl
    | error error => rfl
  · contradiction

theorem handle_blocks {json : Loader Json} {message : Nat × Octets} (blocks : Blocks json message)
    (sock : Socket) :
    (handleMessage json message sock).1 = .error .valueError ∨
      (handleMessage json message sock).1 = .error .notAnObject := by
  obtain ⟨opcode, payload⟩ := message
  rcases blocks with ⟨ping, long⟩ | ⟨data, unloaded⟩
  · left
    change opcode = 0x9 at ping
    rw [handleMessage, if_pos ping, if_pos long]
    rfl
  · right
    change json.loads payload = none at unloaded
    simp only [handle_data json data, unloaded]
    rfl

theorem handle_other {json : Loader Json} {message : Nat × Octets}
    (none_found : response json message = none) (harmless : ¬Blocks json message)
    (not_close : message.1 ≠ 0x8) (sock : Socket) :
    ∃ sent, Returns (handleMessage json message) sock none { sock with sent } := by
  obtain ⟨opcode, payload⟩ := message
  rw [Blocks, not_or] at harmless
  by_cases ping : opcode = 0x9
  · have short : ¬payload.length > 255 := fun long => harmless.1 ⟨ping, long⟩
    refine ⟨sock.sent ++ ([0x8A, UInt8.ofNat payload.length] ++ payload), ?_⟩
    rw [handleMessage, if_pos ping, if_neg short, returns_bind]
    exact ⟨(), _, (returns_update _ _ _ _).mpr rfl, (returns_pure _ _ _ _).mpr ⟨rfl, rfl⟩⟩
  · apply Exists.intro sock.sent
    by_cases data : opcode = 0x1 ∨ opcode = 0x2
    · rw [response, if_pos data, Option.filter_eq_none_iff] at none_found
      cases loaded : json.loads payload with
      | none => exact absurd ⟨data, loaded⟩ harmless.2
      | some object =>
          have other := none_found object loaded
          simp only [handle_data json data, loaded, if_neg other]
          exact (returns_pure _ _ _ _).mpr ⟨rfl, rfl⟩
    · rw [handleMessage, if_neg ping, if_neg not_close, if_pos (by omega)]
      exact (returns_pure _ _ _ _).mpr ⟨rfl, rfl⟩

theorem answer_errors (object : List Char → Option Json) :
    answer object ≠ .error .valueError ∧ answer object ≠ .error .notAnObject := by
  rw [answer]
  cases object "error".toList with
  | some error => simp
  | none => cases object "result".toList with
    | some result => simp
    | none => simp

theorem loop_blocked {json : Loader Json} {message : Nat × Octets} (blocks : Blocks json message)
    {sock after : Socket} (turn : systemInfoTurn json sock = handleMessage json message after)
    (outOfFuel : ProbeError Json) (fuel : Nat) (object : List Char → Option Json) :
    (loop outOfFuel (systemInfoTurn json) (fuel + 1) sock).1 ≠ answer object := by
  intro answered
  have others := answer_errors object
  have handled := handle_blocks blocks after
  rw [← turn] at handled
  cases handled with
  | inl raised =>
      have ended : (systemInfoTurn json sock).1 = (Except.error .valueError).map some := raised
      rw [loop_ends ended] at answered
      exact others.1 answered.symm
  | inr raised =>
      have ended : (systemInfoTurn json sock).1 = (Except.error .notAnObject).map some := raised
      rw [loop_ends ended] at answered
      exact others.2 answered.symm

theorem loop_answers (json : Loader Json) {messages : List (Nat × Octets)} {sock : Socket}
    (arrived : [] ∉ sock.incoming) (received : Receives Json sock messages)
    (no_close : ∀ message ∈ messages, message.1 ≠ 0x8) {fuel : Nat} (enough : messages.length ≤ fuel)
    {object : List Char → Option Json} (first : firstResponse json messages = some object)
    (outOfFuel : ProbeError Json) :
    (loop outOfFuel (systemInfoTurn json) fuel sock).1 = answer object ↔
      ∀ message ∈ messages.takeWhile fun message => (response json message).isNone,
        ¬Blocks json message := by
  induction messages generalizing sock fuel with
  | nil => simp [firstResponse] at first
  | cons message rest ih =>
      obtain ⟨after, here, more⟩ := (receives_cons sock message rest).mp received
      have arrived_after : [] ∉ after.incoming := by
        obtain ⟨_, _, _, _, _, rfl⟩ := (ws_recv_returns arrived message after).mp here
        exact drop_stream_some arrived _
      cases fuel with
      | zero => simp at enough
      | succ fuel =>
          have turn : systemInfoTurn json sock = handleMessage json message after := bind_run here
          cases found : response json message with
          | some other =>
              have same : other = object := by simpa [firstResponse, found] using first
              have handled := handle_response found after
              rw [same, ← turn] at handled
              simp [loop_ends handled, found]
          | none =>
              have first_rest : firstResponse json rest = some object := by
                simpa [firstResponse, found] using first
              have front : message ∈ (message :: rest).takeWhile fun message =>
                  (response json message).isNone := by simp [found]
              by_cases blocks : Blocks json message
              · apply iff_of_false
                · exact loop_blocked blocks turn outOfFuel fuel object
                · intro harmless
                  exact harmless message front blocks
              · have other := no_close message (List.mem_cons_self ..)
                obtain ⟨sent, handled⟩ := handle_other found blocks other after
                have again : Returns (systemInfoTurn json) sock none { after with sent } := by
                  rw [Returns, turn]
                  exact handled
                have arrived_sent : [] ∉ ({ after with sent } : Socket).incoming := arrived_after
                have others := fun later member => no_close later (List.mem_cons_of_mem message member)
                rw [loop_again again, ih arrived_sent (receives_sent arrived_after sent more) others
                  (Nat.le_of_succ_le_succ enough) first_rest]
                simp [found, blocks]

/-! ## Frames of the probe -/

def sentForm (size : Nat) : LengthForm :=
  if size < 126 then .short else if size ≤ 0xFFFF then .medium else .long

theorem sent_fits {payload : Octets} (fits : payload.length < 2 ^ 63) :
    payload.length < (sentForm payload.length).bound := by
  rw [sentForm]
  split
  · assumption
  · split
    · rw [LengthForm.bound]
      omega
    · rw [LengthForm.bound]
      omega

theorem sent_sized {mask : Octets} (sized : mask.length = 4) :
    ∀ bytes, some mask = some bytes → bytes.length = 4 := by
  intro bytes same
  rwa [← Option.some.inj same]

def sentFrame (mask payload : Octets) (sized : mask.length = 4) (fits : payload.length < 2 ^ 63) :
    Frame where
  first := 0x81
  form := sentForm payload.length
  mask := some mask
  payload
  fits := sent_fits fits
  sized := sent_sized sized

theorem masked_short {size : Nat} (short : size < 126) : 0x80 ||| size = 128 + size := by
  have all : ∀ number : Fin 126, 0x80 ||| number.val = 128 + number.val := by decide +kernel
  exact all ⟨size, short⟩

theorem ws_send_returns {mask payload : Octets} (sized : mask.length = 4)
    (fits : payload.length < 2 ^ 63) (sock after : Socket) :
    Returns (wsSend mask payload : SocketM Json Unit) sock () after ↔
      after = { sock with sent := sock.sent ++ (sentFrame mask payload sized fits).wire } := by
  have written : (sentFrame mask payload sized fits).wire =
      (if payload.length < 126 then [0x81, UInt8.ofNat (0x80 ||| payload.length)]
        else if payload.length ≤ 0xFFFF then [0x81, 0x80 ||| 126] ++ toBigEndian 2 payload.length
        else [0x81, 0x80 ||| 127] ++ toBigEndian 8 payload.length) ++ mask ++
          applyMask mask payload := by
    simp only [Frame.wire, Frame.behindHeader, Frame.second, Frame.body, sentFrame, sentForm]
    by_cases short : payload.length < 126
    · simp [short, masked_short short, LengthForm.code, LengthForm.extended]
    · by_cases medium : payload.length ≤ 0xFFFF
      · simp [short, medium, LengthForm.code, LengthForm.extended]
        decide
      · simp [short, medium, LengthForm.code, LengthForm.extended]
        decide
  rw [wsSend, sendall, returns_update, written]
  exact eq_comm

theorem sent_frame_message {mask payload : Octets} (sized : mask.length = 4)
    (fits : payload.length < 2 ^ 63) :
    (sentFrame mask payload sized fits).message = (0x1, payload) := by
  have opcode : (0x81 : UInt8).toNat &&& 0x0F = 0x1 := by decide
  rw [Frame.message, Frame.opcode, sentFrame, opcode]

theorem sent_frame_received {mask payload : Octets} (sized : mask.length = 4)
    (fits : payload.length < 2 ^ 63) {sock : Socket} (arrived : [] ∉ sock.incoming)
    {rest : Octets} (content : sock.content = (sentFrame mask payload sized fits).wire ++ rest) :
    (∃ after, Returns (wsRecv : SocketM Json _) sock (0x1, payload) after ∧ after.content = rest) ↔
      1 ∉ pieceEnds 0 sock.incoming := by
  constructor
  · rintro ⟨after, received, _⟩
    exact ((ws_recv_returns arrived _ after).mp received).1
  · intro together
    refine ⟨_, (ws_recv_returns arrived _ _).mpr ⟨together, _, rest, content,
      sent_frame_message sized fits, rfl⟩, ?_⟩
    rw [content_drop, content, List.drop_left]

/-! ## Sessions -/

theorem sent_no_close {frame : Frame} (sent : Sent frame) : frame.opcode ≠ 0x8 := by
  simp only [Sent, List.mem_cons, List.not_mem_nil, or_false] at sent
  rcases sent with first | first | first | first
  all_goals
    rw [Frame.opcode, first]
    decide

/-- A session receives what the frames say, and the first response is answered. -/
def Independent (json : Loader Json) (request mask : Octets) (expected : List Char)
    (frames : List Frame) (pieces : List Octets) : Prop :=
  ∃ connected, Returns (wsConnect request expected : SocketM Json Unit)
      { incoming := pieces, sent := [] } () connected ∧
    Receives Json connected (frames.map Frame.message) ∧
    ∀ object, firstResponse json (frames.map Frame.message) = some object →
      (cdpSystemInfo json mask connected).1 = answer object

/-- What has been read beyond the handshake, up to `stop`, is not missed: the accept key is not
changed by it, and what is left are frames with the same messages. -/
def Redundant (expected : List Char) (frames : List Frame) (pieces : List Octets) (stop : Nat) :
    Prop :=
  acceptKey (pieces.flatten.take stop) = some expected ∧
    ∃ others : List Frame, pieces.flatten.drop stop = others.flatMap Frame.wire ∧
      others.map Frame.message = frames.map Frame.message ∧ HeadersWhole pieces stop others

/-- The handshake ends where a read of it ends, the headers of the frames arrive whole, and no
message blocks before the first response. -/
def Undisturbed (json : Loader Json) (expected : List Char) (handshake : Handshake)
    (frames : List Frame) (pieces : List Octets) : Prop :=
  let stop := reached handshake.wire.length 0 pieces
  stop ≤ 65536 ∧
    (stop = handshake.wire.length ∧ HeadersWhole pieces stop frames ∨
      handshake.wire.length < stop ∧ Redundant expected frames pieces stop) ∧
    Answerable json (frames.map Frame.message)

theorem wire_count (frames : List Frame) : frames.length ≤ (frames.flatMap Frame.wire).length := by
  induction frames with
  | nil => simp
  | cons frame rest ih =>
      rw [List.flatMap_cons, List.length_append, List.length_cons, Frame.wire, List.length_cons]
      omega

theorem receives_length {sock : Socket} (arrived : [] ∉ sock.incoming)
    {messages : List (Nat × Octets)} (received : Receives Json sock messages) :
    messages.length ≤ sock.content.length := by
  have frames := receives_iff Json arrived sock.sent 0 messages
  rw [drop_stream_none] at frames
  obtain ⟨list, content, rfl, _⟩ := frames.mp received
  rw [List.drop_zero] at content
  rw [Socket.content, content, List.length_map]
  exact wire_count list

theorem cdp_answers (json : Loader Json) {messages : List (Nat × Octets)} {sock : Socket}
    (arrived : [] ∉ sock.incoming) (received : Receives Json sock messages)
    (no_close : ∀ message ∈ messages, message.1 ≠ 0x8) (mask : Octets) :
    (∀ object, firstResponse json messages = some object →
      (cdpSystemInfo json mask sock).1 = answer object) ↔ Answerable json messages := by
  apply forall_congr'
  intro object
  apply imp_congr_right
  intro first
  obtain ⟨sent, ran⟩ : ∃ sent, Returns (wsSend mask systemInfoRequest : SocketM Json Unit) sock ()
      { sock with sent } := ⟨_, (returns_update _ _ _ _).mpr rfl⟩
  have count := receives_length arrived received
  have arrived_sent : [] ∉ ({ sock with sent } : Socket).incoming := arrived
  have answered := loop_answers json arrived_sent (receives_sent arrived sent received) no_close
    (Nat.le_succ_of_le count) first (.runtime "CDP WebSocket closed")
  rw [cdpSystemInfo, bind_run ran]
  exact answered

theorem session_independent_iff (json : Loader Json) (request mask : Octets) {expected : List Char}
    {handshake : Handshake} (accepts : handshake.Accepts expected) {frames : List Frame}
    (sent : ∀ frame ∈ frames, Sent frame) {pieces : List Octets} (arrived : [] ∉ pieces)
    (content : pieces.flatten = handshake.wire ++ frames.flatMap Frame.wire) :
    Independent json request mask expected frames pieces ↔
      Undisturbed json expected handshake frames pieces := by
  have no_close : ∀ message ∈ frames.map Frame.message, message.1 ≠ 0x8 := by
    intro message member
    obtain ⟨frame, listed, rfl⟩ := List.mem_map.mp member
    exact sent_no_close (sent frame listed)
  rw [Undisturbed]
  generalize stops : reached handshake.wire.length 0 pieces = stop
  have connects := fun connected => ws_connect_returns Json expected request
    (frames.flatMap Frame.wire) arrived content connected stops.symm
  obtain ⟨enough, _⟩ := connects { incoming := [], sent := [] }
  have arrived_after := drop_stream_some arrived stop
  constructor
  · rintro ⟨connected, ran, received, answers⟩
    obtain ⟨fits, accepted, rfl⟩ := (connects connected).2.mp ran
    have answerable := (cdp_answers json arrived_after received no_close mask).mp answers
    refine ⟨fits, ?_, answerable⟩
    by_cases whole : stop = handshake.wire.length
    · have rest : pieces.flatten.drop stop = frames.flatMap Frame.wire := by
        rw [content, whole, List.drop_left]
      exact Or.inl ⟨whole, (receives_frames arrived request rest).mp received⟩
    · rw [← content] at accepted
      exact Or.inr ⟨by omega, accepted, (receives_iff Json arrived request stop _).mp received⟩
  · rintro ⟨fits, undisturbed, answerable⟩
    have accepted : acceptKey ((handshake.wire ++ frames.flatMap Frame.wire).take stop) =
        some expected := by
      rcases undisturbed with ⟨whole, _⟩ | ⟨_, accepted, _⟩
      · rw [whole, List.take_left, accept_key_wire accepts]
      · rwa [content] at accepted
    have received : Receives Json { incoming := dropStream stop pieces, sent := request }
        (frames.map Frame.message) := by
      rcases undisturbed with ⟨whole, headers⟩ | ⟨_, _, others⟩
      · have rest : pieces.flatten.drop stop = frames.flatMap Frame.wire := by
          rw [content, whole, List.drop_left]
        exact (receives_frames arrived request rest).mpr headers
      · exact (receives_iff Json arrived request stop _).mpr others
    exact ⟨_, (connects _).2.mpr ⟨fits, accepted, rfl⟩, received,
      (cdp_answers json arrived_after received no_close mask).mpr answerable⟩

/-- A session receives what the server sends, and answers the first response, exactly when it is
undisturbed; and what `ws_send` writes is received as it was sent, when its header arrives
whole. -/
theorem probe_independent_iff (json : Loader Json) :
    (∀ (request mask : Octets) (expected : List Char) (handshake : Handshake) (frames : List Frame)
      (pieces : List Octets), handshake.Accepts expected → (∀ frame ∈ frames, Sent frame) →
        [] ∉ pieces → pieces.flatten = handshake.wire ++ frames.flatMap Frame.wire →
          (Independent json request mask expected frames pieces ↔
            Undisturbed json expected handshake frames pieces)) ∧
      ∀ (mask payload : Octets) (writer reader : Socket) (rest : Octets), mask.length = 4 →
        payload.length < 2 ^ 63 →
          Returns (wsSend mask payload : SocketM Json Unit) { incoming := [], sent := [] } ()
            writer →
          [] ∉ reader.incoming → reader.content = writer.sent ++ rest →
            ((∃ after, Returns (wsRecv : SocketM Json _) reader (0x1, payload) after ∧
              after.content = rest) ↔ 1 ∉ pieceEnds 0 reader.incoming) := by
  constructor
  · intro request mask expected handshake frames pieces accepts sent arrived content
    exact session_independent_iff json request mask accepts sent arrived content
  · intro mask payload writer reader rest sized fits written arrived content
    rw [(ws_send_returns sized fits _ writer).mp written, List.nil_append] at content
    exact sent_frame_received sized fits arrived content

/-! ## One session -/

def acceptValue : List Char := "s3pPLMBiTxaQ9kYGzzhZRbK+xOo=".toList

def switching : Handshake where
  reason := utf8 "Switching Protocols".toList
  headers := [(utf8 "Upgrade".toList, utf8 " websocket".toList),
    (utf8 "Sec-WebSocket-Accept".toList, 32 :: utf8 acceptValue)]
  plainReason := by decide +kernel
  plainName := by decide +kernel
  plainValue := by decide +kernel

def emptyResult : Octets := utf8 "\x7b\"id\": 1, \"result\": \x7b\x7d\x7d".toList

def resultFrame : Frame where
  first := 0x81
  form := .short
  mask := none
  payload := emptyResult
  fits := by decide +kernel
  sized := by simp

def resultLoader : Loader String where
  loads payload :=
    if payload = emptyResult then
      some fun key =>
        if key = "id".toList then some "1"
        else if key = "result".toList then some "\x7b\x7d" else none
    else none
  isOne value := value = "1"

theorem switching_accepts : switching.Accepts acceptValue := by
  rw [Handshake.Accepts]
  decide +kernel

theorem result_sent : ∀ frame ∈ [resultFrame], Sent frame := by
  intro frame member
  rw [List.mem_singleton] at member
  simp [Sent, member, resultFrame]

def inOrder : List Octets := [switching.wire, resultFrame.wire.take 2, resultFrame.wire.drop 2]

def inOnePiece : List Octets := [switching.wire ++ resultFrame.wire]

theorem session_in_order :
    Independent resultLoader [] [0, 0, 0, 0] acceptValue [resultFrame] inOrder := by
  apply ((probe_independent_iff resultLoader).1 [] [0, 0, 0, 0] acceptValue switching [resultFrame]
    inOrder switching_accepts result_sent (by decide +kernel) (by decide +kernel)).mpr
  refine ⟨by decide +kernel, Or.inl ⟨by decide +kernel, ?_⟩, ?_⟩
  · exact ⟨by decide +kernel, trivial⟩
  · intro object _ message member
    have found : (response resultLoader resultFrame.message).isNone = false := by decide +kernel
    simp [found] at member

theorem first_frame_lost :
    [] ∉ inOnePiece ∧ inOnePiece.flatten = switching.wire ++ [resultFrame].flatMap Frame.wire ∧
      ¬Independent resultLoader [] [0, 0, 0, 0] acceptValue [resultFrame] inOnePiece := by
  have arrived : [] ∉ inOnePiece := by decide +kernel
  have content : inOnePiece.flatten = switching.wire ++ [resultFrame].flatMap Frame.wire := by
    simp [inOnePiece]
  refine ⟨arrived, content, ?_⟩
  rw [session_independent_iff resultLoader [] [0, 0, 0, 0] switching_accepts result_sent arrived
    content]
  rintro ⟨_, ⟨whole, _⟩ | ⟨_, _, others, left, messages, _⟩, _⟩
  · exact absurd whole (by decide +kernel)
  · have nothing : inOnePiece.flatten.drop (reached switching.wire.length 0 inOnePiece) = [] := by
      decide +kernel
    rw [nothing] at left
    cases others with
    | nil => simp at messages
    | cons frame rest => simp [Frame.wire] at left

end XrdpConsole.GpuSession
