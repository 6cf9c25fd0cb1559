import Mathlib.Data.List.Infix
import XrdpConsole.Library.ChunkedStream
import XrdpConsole.Library.Program
import XrdpConsole.Library.ByteText
import XrdpConsole.Library.UnicodeText
import XrdpConsole.Library.WebSocketFrame

/-!
# The WebSocket client of the GPU probe

`ws_connect`, `ws_send`, `ws_recv`, `recv_exact` and `cdp_system_info` of `vscode_gpu_probe.py`,
over what `recv` returns. A message is read as its frame is written, however the bytes arrive,
unless the two bytes of its header arrive apart.
-/

namespace XrdpConsole.GpuProbe

open XrdpConsole.Library Program

set_option autoImplicit false

/-! ## The socket -/

inductive ProbeError (Json : Type) where
  | runtime (text : String)
  | handshakeFailed (firstLine : Octets)
  /-- The response has an error in it. -/
  | response (error : Json)
  | valueError
  | keyError
  | notAnObject

/-- The pieces that arrive, none of them empty, and what has been sent. -/
structure Socket where
  incoming : List Octets
  sent : Octets

abbrev SocketM (Json : Type) := Program (ProbeError Json) Socket

def Socket.content (self : Socket) : Octets := self.incoming.flatten

/-- The socket when `count` bytes more have been read. -/
def Socket.drop (count : Nat) (self : Socket) : Socket :=
  { self with incoming := dropStream count self.incoming }

variable {Json : Type}

def recv (limit : Nat) : SocketM Json Octets := fun sock =>
  let (chunk, incoming) := takeChunk limit sock.incoming
  (.ok chunk, { sock with incoming })

def sendall (data : Octets) : SocketM Json Unit :=
  update fun sock => { sock with sent := sock.sent ++ data }

def recvExact (size : Nat) : SocketM Json Octets := fun sock =>
  match readExact size sock.incoming with
  | some (data, incoming) => (.ok data, { sock with incoming })
  | none => (.error (.runtime "CDP WebSocket closed"), { sock with incoming := [] })

/-! ## Frames -/

def wsSend (mask payload : Octets) : SocketM Json Unit :=
  let size := payload.length
  let header :=
    if size < 126 then [0x81, UInt8.ofNat (0x80 ||| size)]
    else if size ≤ 0xFFFF then [0x81, 0x80 ||| 126] ++ toBigEndian 2 size
    else [0x81, 0x80 ||| 127] ++ toBigEndian 8 size
  sendall (header ++ mask ++ applyMask mask payload)

/-- The length that a second byte announces. -/
def recvLength (second : UInt8) : SocketM Json Nat :=
  let length := second.toNat &&& 0x7F
  if length = 126 then do
    let bytes ← recvExact 2
    pure (bigEndian bytes)
  else if length = 127 then do
    let bytes ← recvExact 8
    pure (bigEndian bytes)
  else pure length

def recvMask (second : UInt8) : SocketM Json Octets :=
  if second.toNat &&& 0x80 != 0 then recvExact 4 else pure []

def recvBody (first second : UInt8) : SocketM Json (Nat × Octets) := do
  let opcode := first.toNat &&& 0x0F
  let length ← recvLength second
  let mask ← recvMask second
  let payload ← recvExact length
  pure (opcode, if second.toNat &&& 0x80 != 0 then applyMask mask payload else payload)

def wsRecv : SocketM Json (Nat × Octets) := do
  let header ← recv 2
  match header with
  | [first, second] => recvBody first second
  | _ => stop (.runtime "CDP WebSocket closed")

/-! ## The handshake -/

def crlf : Octets := [13, 10]

/-- The loop of `ws_connect`, until the blank line is in what has been read. -/
def handshakeLoop (header : Octets) (sock : Socket) :
    Except (ProbeError Json) Octets × Socket :=
  if crlf ++ crlf <:+: header then (.ok header, sock)
  else
    let chunk := (takeChunk 4096 sock.incoming).1
    let left := { sock with incoming := (takeChunk 4096 sock.incoming).2 }
    if chunk = [] then
      (.error (.runtime "CDP WebSocket closed during handshake"), left)
    else if (header ++ chunk).length > 65536 then
      (.error (.runtime "CDP WebSocket handshake is too large"), left)
    else handshakeLoop (header ++ chunk) left
termination_by 65537 - header.length
decreasing_by
  rename_i _ closed large
  have some_byte := List.length_pos_iff.mpr closed
  have shorter : 65537 - (header ++ chunk).length < 65537 - header.length := by
    rw [List.length_append] at large ⊢
    omega
  exact shorter

def recvHandshake : SocketM Json Octets := fun sock => handshakeLoop [] sock

/-- `bytes.split(b"\r\n")`. -/
def splitCrlf : Octets → List Octets
  | [] => [[]]
  | [byte] => [[byte]]
  | byte :: next :: rest =>
      if byte = 13 ∧ next = 10 then [] :: splitCrlf rest
      else (splitCrlf (next :: rest)).modifyHead (byte :: ·)

def latin1 (bytes : Octets) : List Char := bytes.map fun byte => Char.ofNat byte.toNat

/-- `str.lower` on a Latin-1 character. -/
def lowerLatin1 (c : Char) : Char :=
  if ('A' ≤ c ∧ c ≤ 'Z') ∨ (0xC0 ≤ c.toNat ∧ c.toNat ≤ 0xDE ∧ c.toNat ≠ 0xD7) then
    Char.ofNat (c.toNat + 32)
  else c

/-- The entry of a header line. -/
def headerEntry (line : List Char) : Option (List Char × List Char) :=
  if ':' ∈ line then
    some ((line.takeWhile (· ≠ ':')).map lowerLatin1, stripBoth (line.dropWhile (· ≠ ':')).tail)
  else none

/-- `headers.get`: the last entry of a name counts. -/
def headerValue (name : List Char) (lines : List (List Char)) : Option (List Char) :=
  (((lines.filterMap headerEntry).filter fun entry => entry.1 = name).getLast?).map Prod.snd

def statusStart : Octets := utf8 "HTTP/1.1 101".toList

def acceptName : List Char := "sec-websocket-accept".toList

def firstLine (header : Octets) : Octets := (splitCrlf header).headD []

def acceptKey (header : Octets) : Option (List Char) :=
  headerValue acceptName ((splitCrlf header).tail.map latin1)

/-- `ws_connect` from where the connection is made, with the request and the accept key that goes
with the key in it. -/
def wsConnect (request : Octets) (expected : List Char) : SocketM Json Unit := do
  sendall request
  let header ← recvHandshake
  if ¬statusStart <+: firstLine header then
    stop (.handshakeFailed (firstLine header))
  else if acceptKey header ≠ some expected then
    stop (.runtime "CDP WebSocket accept key mismatch")
  else pure ()

/-! ## The request -/

/-- `json.loads` of a payload that is decoded as UTF-8, if the value is an object, with its `get`,
and the values that are equal to 1. -/
structure Loader (Json : Type) where
  loads : Octets → Option (List Char → Option Json)
  isOne : Json → Bool

def systemInfoRequest : Octets :=
  utf8 "\x7b\"id\": 1, \"method\": \"SystemInfo.getInfo\"\x7d".toList

/-- What a response answers. -/
def answer (object : List Char → Option Json) : Except (ProbeError Json) Json :=
  match object "error".toList with
  | some error => .error (.response error)
  | none =>
      match object "result".toList with
      | some result => .ok result
      | none => .error .keyError

/-- What the loop of `cdp_system_info` makes of a message. -/
def handleMessage (json : Loader Json) (message : Nat × Octets) : SocketM Json (Option Json) :=
  let (opcode, payload) := message
  if opcode = 0x9 then
    -- a byte of the pong holds the length
    if payload.length > 255 then stop .valueError
    else do
      sendall ([0x8A, UInt8.ofNat payload.length] ++ payload)
      pure none
  else if opcode = 0x8 then stop (.runtime "CDP WebSocket closed before SystemInfo response")
  else if opcode ≠ 0x1 ∧ opcode ≠ 0x2 then pure none
  else
    match json.loads payload with
    | none => stop .notAnObject
    | some object =>
        if (object "id".toList).any json.isOne then
          match answer object with
          | .ok result => pure (some result)
          | .error error => stop error
        else pure none

def systemInfoTurn (json : Loader Json) : SocketM Json (Option Json) := do
  let message ← wsRecv
  handleMessage json message

/-- `cdp_system_info`; every turn that does not end the loop reads two bytes at least. -/
def cdpSystemInfo (json : Loader Json) (mask : Octets) : SocketM Json Json := do
  wsSend mask systemInfoRequest
  let unread ← read fun sock => sock.content.length
  loop (.runtime "CDP WebSocket closed") (systemInfoTurn json) (unread + 1)

/-! ## Reading in order -/

/-- A program reads what a decoder reads of the bytes that are still to arrive. -/
structure Reads {Value : Type} (program : SocketM Json Value)
    (decode : PrefixDecoder UInt8 Value) : Prop where
  found : ∀ sock value rest, decode sock.content = some (value, rest) →
    ∃ count ≤ sock.content.length,
      rest = sock.content.drop count ∧ Returns program sock value (sock.drop count)
  only : ∀ sock value after, Returns program sock value after →
    ∃ count ≤ sock.content.length,
      decode sock.content = some (value, sock.content.drop count) ∧ after = sock.drop count

@[simp] theorem content_drop (count : Nat) (sock : Socket) :
    (sock.drop count).content = sock.content.drop count :=
  drop_stream_flatten count sock.incoming

@[simp] theorem sent_drop (count : Nat) (sock : Socket) : (sock.drop count).sent = sock.sent := rfl

theorem drop_drop (first second : Nat) (sock : Socket) :
    (sock.drop first).drop second = sock.drop (first + second) := by
  rw [Socket.drop, Socket.drop, Socket.drop, ← drop_stream_add]

theorem drop_none (sock : Socket) : sock.drop 0 = sock := by
  rw [Socket.drop, drop_stream_none]

section Reading

variable {Value Result : Type}

variable (Json) in
theorem reads_pure (value : Value) :
    Reads (pure value : SocketM Json Value) fun input => some (value, input) where
  found := by
    intro sock result rest same
    obtain ⟨rfl, rfl⟩ := Prod.mk.inj (Option.some.inj same)
    exact ⟨0, Nat.zero_le _, rfl, (returns_pure _ _ _ _).mpr ⟨rfl, (drop_none sock).symm⟩⟩
  only := by
    intro sock result after ran
    obtain ⟨rfl, rfl⟩ := (returns_pure _ _ _ _).mp ran
    exact ⟨0, Nat.zero_le _, rfl, (drop_none _).symm⟩

theorem reads_bind {first : SocketM Json Value} {next : Value → SocketM Json Result}
    {decode : PrefixDecoder UInt8 Value} {decodeNext : Value → PrefixDecoder UInt8 Result}
    (head : Reads first decode) (tail : ∀ value, Reads (next value) (decodeNext value)) :
    Reads (first >>= next) fun input =>
      (decode input).bind fun (value, rest) => decodeNext value rest where
  found := by
    intro sock result rest decoded
    obtain ⟨⟨value, middle⟩, first_decoded, next_decoded⟩ := Option.bind_eq_some_iff.mp decoded
    obtain ⟨count, within, rfl, ran⟩ := head.found sock value middle first_decoded
    rw [← content_drop] at next_decoded
    obtain ⟨more, further, rfl, ran_next⟩ := (tail value).found _ result rest next_decoded
    rw [content_drop, List.length_drop] at further
    refine ⟨count + more, by omega, by rw [content_drop, List.drop_drop], ?_⟩
    rw [returns_bind, ← drop_drop]
    exact ⟨value, _, ran, ran_next⟩
  only := by
    intro sock result after ran
    obtain ⟨value, middle, first_ran, next_ran⟩ := (returns_bind _ _ _ _ _).mp ran
    obtain ⟨count, within, decoded, rfl⟩ := head.only sock value middle first_ran
    obtain ⟨more, further, decoded_next, rfl⟩ := (tail value).only _ result after next_ran
    rw [content_drop, List.length_drop] at further
    rw [content_drop, List.drop_drop] at decoded_next
    exact ⟨count + more, by omega, by rw [decoded]; exact decoded_next, drop_drop count more sock⟩

theorem recv_exact_run (size : Nat) (sock : Socket) :
    (recvExact size : SocketM Json Octets) sock =
      if size ≤ sock.content.length then (.ok (sock.content.take size), sock.drop size)
      else (.error (.runtime "CDP WebSocket closed"), { sock with incoming := [] }) := by
  rw [recvExact, read_exact_drop, Socket.content]
  by_cases enough : size ≤ sock.incoming.flatten.length
  · simp only [if_pos enough]
    rfl
  · simp only [if_neg enough]

theorem reads_exact (size : Nat) : Reads (recvExact size : SocketM Json Octets) (takeExact size) where
  found := by
    intro sock data rest taken
    rw [takeExact] at taken
    split at taken
    · rename_i enough
      obtain ⟨rfl, rfl⟩ := Prod.mk.inj (Option.some.inj taken)
      exact ⟨size, enough, rfl, by rw [Returns, recv_exact_run, if_pos enough]⟩
    · contradiction
  only := by
    intro sock data after ran
    rw [Returns, recv_exact_run] at ran
    split at ran
    · rename_i enough
      obtain ⟨same, rfl⟩ := Prod.mk.inj ran
      exact ⟨size, enough, by rw [takeExact, if_pos enough, Except.ok.inj same], rfl⟩
    · simp at ran

/-- The rest of a decoder's input is mapped to nothing new. -/
theorem reads_map {program : SocketM Json Value} {decode : PrefixDecoder UInt8 Value}
    (reads : Reads program decode) (change : Value → Result) :
    Reads (program >>= fun value => pure (change value)) fun input =>
      (decode input).map fun (value, rest) => (change value, rest) := by
  have joined := reads_bind reads fun value => reads_pure Json (change value)
  have same : (fun input => (decode input).map fun (value, rest) => (change value, rest)) =
      fun input => (decode input).bind fun (value, rest) => some (change value, rest) := by
    funext input
    cases decode input <;> rfl
  rw [same]
  exact joined

end Reading

theorem reads_length (second : UInt8) :
    Reads (recvLength second : SocketM Json Nat) (decodeLength second) := by
  by_cases medium : lengthBits second = 126
  · have decode : decodeLength second = fun input =>
        (takeExact 2 input).map fun found => (bigEndian found.1, found.2) := by
      funext input
      rw [decodeLength, if_pos medium]
    rw [decode, recvLength, if_pos (by exact medium)]
    exact reads_map (reads_exact 2) bigEndian
  · by_cases long : lengthBits second = 127
    · have decode : decodeLength second = fun input =>
          (takeExact 8 input).map fun found => (bigEndian found.1, found.2) := by
        funext input
        rw [decodeLength, if_neg medium, if_pos long]
      rw [decode, recvLength, if_neg (by exact medium), if_pos (by exact long)]
      exact reads_map (reads_exact 8) bigEndian
    · have decode : decodeLength second = fun input => some (lengthBits second, input) := by
        funext input
        rw [decodeLength, if_neg medium, if_neg long]
      rw [decode, recvLength, if_neg (by exact medium), if_neg (by exact long)]
      exact reads_pure Json (lengthBits second)

theorem reads_mask (second : UInt8) :
    Reads (recvMask second : SocketM Json Octets) (decodeMask second) := by
  rw [recvMask, ← isMasked, decodeMask]
  cases isMasked second with
  | true => exact reads_exact 4
  | false =>
      have decode : takeExact 0 = fun input => some ([], input) := by
        funext input
        simp [takeExact]
      simp only [Bool.false_eq_true, if_false, decode]
      exact reads_pure Json []

variable (Json) in
theorem reads_body (first second : UInt8) :
    Reads (recvBody first second : SocketM Json (Nat × Octets))
      fun input => decodeFrame (first :: second :: input) :=
  reads_bind (reads_length second) fun length =>
    reads_bind (reads_mask second) fun mask =>
      reads_map (reads_exact length) fun payload =>
        (first.toNat &&& 0x0F, unmasked second mask payload)

/-! ## A message -/

theorem first_piece_single {chunk : Octets} {rest : List Octets} (some_byte : chunk ≠ []) :
    1 ∈ pieceEnds 0 (chunk :: rest) ↔ chunk.length = 1 := by
  have positive := List.length_pos_iff.mpr some_byte
  rw [mem_piece_ends_cons]
  constructor
  · rintro (single | ⟨later, _, single⟩)
    · exact single.symm
    · omega
  · intro single
    exact Or.inl single.symm

variable (Json) in
/-- Two bytes are read at once, as far as they are there, when no piece ends between them. -/
theorem recv_header {sock : Socket} (arrived : [] ∉ sock.incoming)
    (together : 1 ∉ pieceEnds 0 sock.incoming) :
    Returns (recv 2 : SocketM Json Octets) sock (sock.content.take 2) (sock.drop 2) := by
  rw [Returns, recv, Socket.content, Socket.drop]
  cases incoming : sock.incoming with
  | nil => rfl
  | cons chunk rest =>
      rw [incoming, List.mem_cons, not_or] at arrived
      have some_byte := Ne.symm arrived.1
      have positive := List.length_pos_iff.mpr some_byte
      rw [incoming, first_piece_single some_byte] at together
      have enough : 2 ≤ chunk.length := by omega
      rw [take_chunk_drop 2 some_byte, Nat.min_eq_left enough, List.flatten_cons,
        List.take_append_of_le_length enough]

theorem recv_single {sock : Socket} (arrived : [] ∉ sock.incoming)
    (apart : 1 ∈ pieceEnds 0 sock.incoming) {header : Octets} {after : Socket}
    (ran : Returns (recv 2 : SocketM Json Octets) sock header after) : header.length = 1 := by
  rw [Returns, recv] at ran
  cases incoming : sock.incoming with
  | nil =>
      rw [incoming] at apart
      simp [pieceEnds] at apart
  | cons chunk rest =>
      rw [incoming, List.mem_cons, not_or] at arrived
      have some_byte := Ne.symm arrived.1
      rw [incoming, first_piece_single some_byte] at apart
      rw [incoming, take_chunk_drop 2 some_byte, List.take_of_length_le (by omega)] at ran
      rw [← Except.ok.inj (Prod.mk.inj ran).1, apart]

/-- What is read is a frame in front, whose header is in one piece. -/
theorem ws_recv_only {sock : Socket} (arrived : [] ∉ sock.incoming) {message : Nat × Octets}
    {after : Socket} (returned : Returns (wsRecv : SocketM Json (Nat × Octets)) sock message after) :
    1 ∉ pieceEnds 0 sock.incoming ∧ ∃ frame : Frame, ∃ rest,
      sock.content = frame.wire ++ rest ∧ frame.message = message ∧
        after = sock.drop frame.wire.length := by
  rw [wsRecv, returns_bind] at returned
  obtain ⟨header, middle, ran, rest⟩ := returned
  have together : 1 ∉ pieceEnds 0 sock.incoming := by
    intro apart
    have single := recv_single arrived apart ran
    obtain ⟨byte, rfl⟩ := List.length_eq_one_iff.mp single
    exact returns_stop _ _ _ _ rest
  have both := recv_header Json arrived together
  obtain ⟨same, rfl⟩ := Prod.mk.inj (both.symm.trans ran)
  rw [← Except.ok.inj same] at rest
  cases content : sock.content with
  | nil =>
      rw [content] at rest
      exact absurd rest (returns_stop _ _ _ _)
  | cons first tail =>
      cases tail with
      | nil =>
          rw [content] at rest
          exact absurd rest (returns_stop _ _ _ _)
      | cons second tail =>
          rw [content] at rest
          obtain ⟨count, within, decoded, rfl⟩ := (reads_body Json first second).only _ _ _ rest
          rw [content_drop, content, List.drop_succ_cons, List.drop_succ_cons, List.drop_zero]
            at within decoded
          obtain ⟨frame, written, message_same⟩ := decode_frame_some decoded
          have sizes := congrArg List.length written
          rw [List.length_append, List.length_drop, List.length_cons, List.length_cons] at sizes
          have size : 2 + count = frame.wire.length := by omega
          rw [drop_drop, size]
          exact ⟨together, frame, tail.drop count, written, message_same, rfl⟩

variable (Json) in
/-- A frame in front whose header is in one piece is read. -/
theorem ws_recv_found {sock : Socket} (arrived : [] ∉ sock.incoming)
    (together : 1 ∉ pieceEnds 0 sock.incoming) {frame : Frame} {rest : Octets}
    (content : sock.content = frame.wire ++ rest) :
    Returns (wsRecv : SocketM Json (Nat × Octets)) sock frame.message
      (sock.drop frame.wire.length) := by
  rw [wsRecv, returns_bind]
  refine ⟨_, _, recv_header Json arrived together, ?_⟩
  have decoded := decode_frame_wire frame rest
  rw [Frame.wire, List.cons_append, List.cons_append] at content decoded
  have behind : (sock.drop 2).content = frame.behindHeader ++ rest := by
    rw [content_drop, content]
    rfl
  rw [← behind] at decoded
  obtain ⟨count, within, left, ran⟩ :=
    (reads_body Json frame.first frame.second).found _ _ _ decoded
  have sizes := congrArg List.length left
  have total := congrArg List.length behind
  rw [List.length_drop] at sizes
  rw [List.length_append] at total
  have size : 2 + count = frame.wire.length := by
    rw [Frame.wire, List.length_cons, List.length_cons]
    omega
  rw [drop_drop, size] at ran
  rw [content]
  exact ran

/-- A message is read exactly when a frame with it stands in front and its header is in one
piece. -/
theorem ws_recv_returns {sock : Socket} (arrived : [] ∉ sock.incoming) (message : Nat × Octets)
    (after : Socket) :
    Returns (wsRecv : SocketM Json (Nat × Octets)) sock message after ↔
      1 ∉ pieceEnds 0 sock.incoming ∧ ∃ frame : Frame, ∃ rest,
        sock.content = frame.wire ++ rest ∧ frame.message = message ∧
          after = sock.drop frame.wire.length := by
  constructor
  · exact ws_recv_only arrived
  · rintro ⟨together, frame, rest, content, rfl, rfl⟩
    exact ws_recv_found Json arrived together content

end XrdpConsole.GpuProbe
