import XrdpConsole.GpuProbe

/-!
# The handshake of the GPU probe

What `ws_connect` reads until the blank line of the response is in it, and whether it accepts
what it has read. The piece that completes the handshake is read as a whole, so that bytes of
the first frames in it are gone.
-/

namespace XrdpConsole.GpuHandshake

open XrdpConsole.Library XrdpConsole.GpuProbe Program

set_option autoImplicit false

variable {Json : Type}

/-! ## A response -/

/-- A response that switches protocols: what stands behind the status code and the header lines,
by name and value. -/
structure Handshake where
  reason : Octets
  headers : List (Octets × Octets)
  plainReason : 13 ∉ reason
  plainName : ∀ entry ∈ headers, 13 ∉ entry.1 ∧ 58 ∉ entry.1
  plainValue : ∀ entry ∈ headers, 13 ∉ entry.2

def Handshake.statusLine (self : Handshake) : Octets := statusStart ++ 32 :: self.reason

def headerLine (entry : Octets × Octets) : Octets := entry.1 ++ 58 :: entry.2

def Handshake.lines (self : Handshake) : List Octets :=
  self.statusLine :: self.headers.map headerLine

/-- The bytes of lines with a blank line behind them. -/
def linesWire (lines : List Octets) : Octets := lines.flatMap (· ++ crlf) ++ crlf

def Handshake.wire (self : Handshake) : Octets := linesWire self.lines

/-- There is one accept header, in any case, and it has the accept key. -/
def Handshake.Accepts (self : Handshake) (expected : List Char) : Prop :=
  (self.headers.filter fun entry => (latin1 entry.1).map lowerLatin1 = acceptName).map
    (fun entry => stripBoth (latin1 entry.2)) = [expected]

/-! ## The blank line -/

def Line (bytes : Octets) : Prop := bytes ≠ [] ∧ 13 ∉ bytes

theorem lines_wire_cons (line : Octets) (rest : List Octets) :
    linesWire (line :: rest) = line ++ crlf ++ linesWire rest := by
  simp [linesWire]

/-- A line end with a line behind it is not the first part of a blank line. -/
theorem blank_line_behind {text : Octets} (other : text.head? ≠ some 13) {start : Nat}
    (found : crlf ++ crlf <+: (crlf ++ text).drop start) : 2 ≤ start := by
  match start with
  | 0 =>
      cases text with
      | nil => simp [crlf] at found
      | cons byte rest =>
          simp [crlf] at found
          rw [List.head?_cons, ← found.1] at other
          contradiction
  | 1 => simp [crlf] at found
  | start + 2 => omega

/-- No blank line begins in front of the end of the lines. -/
theorem blank_line_late {lines : List Octets} (some_line : lines ≠ [])
    (plain : ∀ line ∈ lines, Line line) (behind : Octets) (start : Nat)
    (found : crlf ++ crlf <+: (linesWire lines ++ behind).drop start) :
    (linesWire lines).length ≤ start + 4 := by
  induction lines generalizing start with
  | nil => contradiction
  | cons line rest ih =>
      obtain ⟨_, fresh⟩ := plain line (List.mem_cons_self ..)
      have later := fun other member => plain other (List.mem_cons_of_mem line member)
      rw [lines_wire_cons, List.append_assoc, List.append_assoc] at found
      have reached : line.length ≤ start := by
        apply Nat.le_of_not_lt
        intro inside
        rw [List.drop_append_of_le_length (Nat.le_of_lt inside)] at found
        rw [List.drop_eq_getElem_cons inside] at found
        have first := (List.cons_prefix_cons.mp found).1
        rw [first] at fresh
        exact fresh (List.getElem_mem inside)
      rw [List.drop_append, List.drop_eq_nil_of_le reached, List.nil_append] at found
      rw [lines_wire_cons, List.length_append, List.length_append]
      have two : crlf.length = 2 := rfl
      cases rest with
      | nil =>
          have last : (linesWire []).length = 2 := rfl
          omega
      | cons next rest =>
          have next_line := later next (List.mem_cons_self ..)
          have other : (linesWire (next :: rest) ++ behind).head? ≠ some 13 := by
            rw [lines_wire_cons]
            cases next with
            | nil => exact absurd rfl next_line.1
            | cons byte next =>
                have fresh := next_line.2
                rw [List.mem_cons, not_or] at fresh
                simpa using Ne.symm fresh.1
          have late := blank_line_behind other found
          have shifted : start - line.length = crlf.length + (start - line.length - 2) := by omega
          rw [shifted, List.drop_length_add_append] at found
          have rest_late := ih (by simp) later (start - line.length - 2) found
          omega

theorem blank_line_there {lines : List Octets} (some_line : lines ≠ []) :
    crlf ++ crlf <:+: linesWire lines := by
  induction lines with
  | nil => contradiction
  | cons line rest ih =>
      rw [lines_wire_cons]
      cases rest with
      | nil => exact ⟨line, [], by simp [linesWire]⟩
      | cons next rest => exact (ih (by simp)).trans (List.suffix_append _ _).isInfix

/-- The blank line is in what has been read when the handshake has been read. -/
theorem blank_line_read {lines : List Octets} (some_line : lines ≠ [])
    (plain : ∀ line ∈ lines, Line line) (behind : Octets) (count : Nat) :
    crlf ++ crlf <:+: (linesWire lines ++ behind).take count ↔ (linesWire lines).length ≤ count := by
  constructor
  · rintro ⟨front, back, read⟩
    have found : crlf ++ crlf <+: (linesWire lines ++ behind).drop front.length := by
      rw [← List.take_append_drop count (linesWire lines ++ behind), ← read, List.append_assoc,
        List.append_assoc, List.drop_left, List.append_assoc]
      exact List.prefix_append _ _
    have late := blank_line_late some_line plain behind front.length found
    have sizes := congrArg List.length read
    have four : (crlf ++ crlf).length = 4 := rfl
    rw [List.length_append, List.length_append, four] at sizes
    have short : ((linesWire lines ++ behind).take count).length ≤ count := List.length_take_le ..
    omega
  · intro enough
    rw [List.take_append, List.take_of_length_le enough]
    exact (blank_line_there some_line).trans (List.prefix_append _ _).isInfix

/-! ## What is read -/

/-- Where the reading stops: `taken` bytes have been read when the pieces arrive, and a piece is
read by 4096 bytes at a time until `needed` bytes have been read. -/
def reached (needed : Nat) : Nat → List Octets → Nat
  | taken, [] => taken
  | taken, piece :: rest =>
      if taken + piece.length < needed then reached needed (taken + piece.length) rest
      else taken + min piece.length ((needed - taken + 4095) / 4096 * 4096)

/-- A read of 4096 bytes does not change where the reading stops. -/
theorem reached_step {needed taken : Nat} {piece : Octets} {rest : List Octets}
    (some_byte : piece ≠ []) (missing : taken + min 4096 piece.length < needed) :
    reached needed (taken + min 4096 piece.length) (dropStream (min 4096 piece.length) (piece :: rest)) =
      reached needed taken (piece :: rest) := by
  have positive := List.length_pos_iff.mpr some_byte
  rw [drop_stream_cons]
  by_cases long : 4096 < piece.length
  · rw [Nat.min_eq_left (by omega)] at missing ⊢
    have same : taken + 4096 + (piece.length - 4096) = taken + piece.length := by omega
    rw [if_pos (by omega), reached, reached, List.length_drop, same]
    split
    · rfl
    · omega
  · rw [Nat.min_eq_right (by omega)] at missing ⊢
    rw [if_neg (by omega), Nat.sub_self, dropStream, reached, if_pos missing]

/-- A read that completes what is needed is the last one. -/
theorem reached_last {needed taken : Nat} {piece : Octets} {rest : List Octets}
    (before : taken < needed) (enough : needed ≤ taken + min 4096 piece.length) :
    reached needed taken (piece :: rest) = taken + min 4096 piece.length := by
  rw [reached, if_neg (by omega)]
  omega

variable (Json) in
/-- A turn of the loop that finds a piece. -/
theorem handshake_loop_turn {header : Octets} (missing : ¬crlf ++ crlf <:+: header) {sock : Socket}
    {piece : Octets} {rest : List Octets} (incoming : sock.incoming = piece :: rest)
    (some_byte : piece ≠ []) :
    (handshakeLoop header sock : Except (ProbeError Json) Octets × Socket) =
      if (header ++ piece.take 4096).length > 65536 then
        (.error (.runtime "CDP WebSocket handshake is too large"),
          sock.drop (min 4096 piece.length))
      else handshakeLoop (header ++ piece.take 4096) (sock.drop (min 4096 piece.length)) := by
  have taken : takeChunk 4096 sock.incoming =
      (piece.take 4096, dropStream (min 4096 piece.length) sock.incoming) := by
    rw [incoming, take_chunk_drop 4096 some_byte]
  have open_still : piece.take 4096 ≠ [] := by simp [some_byte]
  rw [handshakeLoop, if_neg missing]
  simp only [taken, if_neg open_still]
  rfl

/-- What has been read and what is to come stay the same together. -/
theorem turn_content {sock : Socket} {piece : Octets} {rest : List Octets}
    (incoming : sock.incoming = piece :: rest) (header : Octets) :
    header ++ piece.take 4096 ++ (sock.drop (min 4096 piece.length)).content =
      header ++ sock.content := by
  have taken : piece.take 4096 = sock.content.take (min 4096 piece.length) := by
    rw [Socket.content, incoming, List.flatten_cons,
      List.take_append_of_le_length (Nat.min_le_right ..), ← List.take_eq_take_min]
  rw [content_drop, taken, List.append_assoc, List.take_append_drop]

/-- A turn leaves less to read. -/
theorem turn_shorter {sock : Socket} {piece : Octets} {rest : List Octets}
    (incoming : sock.incoming = piece :: rest) (some_byte : piece ≠ []) :
    (sock.drop (min 4096 piece.length)).content.length < sock.content.length := by
  have positive := List.length_pos_iff.mpr some_byte
  have front : min 4096 piece.length ≤ sock.content.length := by
    rw [Socket.content, incoming, List.flatten_cons, List.length_append]
    omega
  rw [content_drop, List.length_drop]
  omega

variable (Json) in
/-- What the loop reads: all up to where it stops, if that is not too much. -/
theorem handshake_loop_stop {lines : List Octets} (some_line : lines ≠ [])
    (plain : ∀ line ∈ lines, Line line) (behind header : Octets) (sock : Socket)
    (arrived : [] ∉ sock.incoming) (content : header ++ sock.content = linesWire lines ++ behind)
    (before : header.length < (linesWire lines).length) {stop : Nat}
    (stops : stop = reached (linesWire lines).length header.length sock.incoming) :
    (linesWire lines).length ≤ stop ∧
      (stop ≤ 65536 → (handshakeLoop header sock : Except (ProbeError Json) Octets × Socket) =
        (.ok ((linesWire lines ++ behind).take stop), sock.drop (stop - header.length))) ∧
      (65536 < stop → ∀ message after,
        (handshakeLoop header sock : Except (ProbeError Json) Octets × Socket) ≠
          (.ok message, after)) := by
  induction size_left : sock.content.length using Nat.strongRecOn generalizing header sock with
  | ind unread ih =>
      have header_read : header = (linesWire lines ++ behind).take header.length := by
        rw [← content, List.take_left]
      have missing : ¬crlf ++ crlf <:+: header := by
        rw [header_read, blank_line_read some_line plain]
        omega
      cases incoming : sock.incoming with
      | nil =>
          have sizes := congrArg List.length content
          rw [List.length_append, List.length_append, Socket.content, incoming] at sizes
          simp at sizes
          omega
      | cons piece rest =>
          have some_byte : piece ≠ [] := by
            rw [incoming, List.mem_cons, not_or] at arrived
            exact Ne.symm arrived.1
          have turn := handshake_loop_turn Json missing incoming some_byte
          have size : (header ++ piece.take 4096).length = header.length + min 4096 piece.length := by
            rw [List.length_append, List.length_take]
          have content_after := (turn_content incoming header).trans content
          have arrived_after : [] ∉ (sock.drop (min 4096 piece.length)).incoming :=
            drop_stream_some arrived _
          rw [incoming] at stops
          by_cases more : header.length + min 4096 piece.length < (linesWire lines).length
          · rw [← reached_step some_byte more, ← size, ← incoming] at stops
            rw [← size] at more
            have shorter := turn_shorter incoming some_byte
            rw [size_left] at shorter
            obtain ⟨enough, reads, raises⟩ :=
              ih _ shorter _ _ arrived_after content_after more stops rfl
            have count : min 4096 piece.length + (stop - (header ++ piece.take 4096).length) =
                stop - header.length := by omega
            refine ⟨enough, ?_, ?_⟩
            · intro fits
              have ran := reads fits
              rw [drop_drop, count] at ran
              rw [turn, if_neg (by omega)]
              exact ran
            · intro large message after ran
              rw [turn] at ran
              split at ran
              · simp at ran
              · exact raises large message after ran
          · rw [reached_last before (by omega), ← size] at stops
            refine ⟨by omega, ?_, ?_⟩
            · intro fits
              have whole : header ++ piece.take 4096 = (linesWire lines ++ behind).take stop := by
                rw [← content_after, stops, List.take_left]
              have found : crlf ++ crlf <:+: header ++ piece.take 4096 := by
                rw [whole, blank_line_read some_line plain]
                omega
              have count : stop - header.length = min 4096 piece.length := by omega
              rw [turn, if_neg (by omega), handshakeLoop, if_pos found, whole, count]
            · intro large message after ran
              rw [turn, if_pos (by omega)] at ran
              simp at ran

/-! ## What is accepted -/

theorem split_crlf_line {line : Octets} (fresh : 13 ∉ line) (rest : Octets) :
    splitCrlf (line ++ crlf ++ rest) = line :: splitCrlf rest := by
  induction line with
  | nil => simp [crlf, splitCrlf]
  | cons byte line ih =>
      rw [List.mem_cons, not_or] at fresh
      have later := ih fresh.2
      obtain ⟨next, tail, same⟩ : ∃ next tail, line ++ crlf ++ rest = next :: tail := by
        cases line with
        | nil => exact ⟨13, 10 :: rest, rfl⟩
        | cons next line => exact ⟨next, line ++ crlf ++ rest, rfl⟩
      rw [same] at later
      rw [List.cons_append, List.cons_append, same, splitCrlf, if_neg (fun both => fresh.1 both.1.symm),
        later]
      rfl

theorem split_crlf_lines {lines : List Octets} (plain : ∀ line ∈ lines, Line line) :
    splitCrlf (linesWire lines) = lines ++ [[], []] := by
  induction lines with
  | nil => rfl
  | cons line rest ih =>
      have later := ih fun other member => plain other (List.mem_cons_of_mem line member)
      rw [lines_wire_cons, split_crlf_line (plain line (List.mem_cons_self ..)).2, later]
      rfl

theorem header_line_plain (handshake : Handshake) :
    ∀ line ∈ handshake.headers.map headerLine, Line line := by
  intro line member
  obtain ⟨entry, listed, rfl⟩ := List.mem_map.mp member
  have name := handshake.plainName entry listed
  have value := handshake.plainValue entry listed
  constructor
  · simp [headerLine]
  · simp [headerLine, name.1, value]

theorem status_start_fresh : 13 ∉ statusStart := by decide +kernel

theorem status_line_plain (handshake : Handshake) : Line handshake.statusLine := by
  constructor
  · simp [Handshake.statusLine]
  · simp [Handshake.statusLine, status_start_fresh, handshake.plainReason]

theorem handshake_plain (handshake : Handshake) : ∀ line ∈ handshake.lines, Line line := by
  rw [Handshake.lines, List.forall_mem_cons]
  exact ⟨status_line_plain handshake, header_line_plain handshake⟩

/-- The first line is the status line, whatever has been read behind the handshake. -/
theorem first_line_status (handshake : Handshake) (behind : Octets) :
    firstLine (handshake.wire ++ behind) = handshake.statusLine := by
  rw [firstLine, Handshake.wire, Handshake.lines, lines_wire_cons, List.append_assoc,
    split_crlf_line (status_line_plain handshake).2]
  rfl

theorem colon_fresh {name : Octets} (fresh : 58 ∉ name) : ':' ∉ latin1 name := by
  intro member
  obtain ⟨byte, listed, same⟩ := List.mem_map.mp member
  have number := congrArg Char.toNat same
  have small := byte.toNat_lt
  rw [Char.ofNat, dif_pos (Or.inl (by omega))] at number
  have colon : byte = 58 := UInt8.toNat_inj.mp number
  rw [colon] at listed
  exact fresh listed

/-- The entry of a header line is its name in lower case and its value without blank ends. -/
theorem header_entry_line {entry : Octets × Octets} (fresh : 58 ∉ entry.1) :
    headerEntry (latin1 (headerLine entry)) =
      some ((latin1 entry.1).map lowerLatin1, stripBoth (latin1 entry.2)) := by
  have other := colon_fresh fresh
  have line : latin1 (headerLine entry) = latin1 entry.1 ++ ':' :: latin1 entry.2 := by
    simp [latin1, headerLine]
  have front : ∀ c ∈ latin1 entry.1, decide (c ≠ ':') = true := by
    intro c member
    apply decide_eq_true
    intro same
    rw [same] at member
    exact other member
  have name : (latin1 entry.1 ++ ':' :: latin1 entry.2).takeWhile (· ≠ ':') = latin1 entry.1 := by
    rw [List.takeWhile_append_of_pos front]
    simp
  have value : (latin1 entry.1 ++ ':' :: latin1 entry.2).dropWhile (· ≠ ':') =
      ':' :: latin1 entry.2 := by
    rw [List.dropWhile_append_of_pos front]
    simp
  rw [line, headerEntry, if_pos (by simp), name, value, List.tail_cons]

theorem header_entries (handshake : Handshake) :
    (((splitCrlf handshake.wire).tail.map latin1).filterMap headerEntry) =
      handshake.headers.map fun entry =>
        ((latin1 entry.1).map lowerLatin1, stripBoth (latin1 entry.2)) := by
  have lines := split_crlf_lines (handshake_plain handshake)
  rw [← Handshake.wire, Handshake.lines, List.cons_append] at lines
  rw [lines, List.tail_cons, List.map_append, List.filterMap_append, List.map_map,
    List.filterMap_map]
  have blank : ([[], []].map latin1).filterMap headerEntry = [] := rfl
  rw [blank, List.append_nil, ← List.filterMap_eq_map]
  apply List.filterMap_congr
  intro entry listed
  exact header_entry_line (handshake.plainName entry listed).2

theorem accept_key_wire {handshake : Handshake} {expected : List Char}
    (accepts : handshake.Accepts expected) : acceptKey handshake.wire = some expected := by
  rw [acceptKey, headerValue, header_entries, List.filter_map, ← List.getLast?_map, List.map_map]
  have one : (handshake.headers.filter ((fun entry => decide (entry.1 = acceptName)) ∘ fun entry =>
      ((latin1 entry.1).map lowerLatin1, stripBoth (latin1 entry.2)))).map
        (Prod.snd ∘ fun entry => ((latin1 entry.1).map lowerLatin1, stripBoth (latin1 entry.2))) =
      [expected] := accepts
  rw [one]
  rfl

/-! ## The connection -/

theorem lines_some (handshake : Handshake) : handshake.lines ≠ [] := by
  simp [Handshake.lines]

variable (Json) in
/-- `ws_connect` succeeds when it does not read too much and what it has read beyond the handshake
does not change the accept key. -/
theorem ws_connect_returns {handshake : Handshake} (expected : List Char) (request behind : Octets)
    {pieces : List Octets} (arrived : [] ∉ pieces)
    (content : pieces.flatten = handshake.wire ++ behind) (connected : Socket) {stop : Nat}
    (stops : stop = reached handshake.wire.length 0 pieces) :
    handshake.wire.length ≤ stop ∧
      (Returns (wsConnect request expected : SocketM Json Unit) { incoming := pieces, sent := [] } ()
          connected ↔
        stop ≤ 65536 ∧ acceptKey ((handshake.wire ++ behind).take stop) = some expected ∧
          connected = { incoming := dropStream stop pieces, sent := request }) := by
  have some_byte : 0 < handshake.wire.length := by
    rw [Handshake.wire, Handshake.lines, lines_wire_cons, List.length_append, List.length_append]
    exact Nat.lt_of_lt_of_le (by decide : 0 < crlf.length) (by omega)
  obtain ⟨enough, reads, raises⟩ := handshake_loop_stop Json (lines_some handshake)
    (handshake_plain handshake) behind [] { incoming := pieces, sent := request } arrived content
    some_byte stops
  rw [← Handshake.wire] at enough reads
  refine ⟨enough, ?_⟩
  have status : statusStart <+: firstLine ((handshake.wire ++ behind).take stop) := by
    rw [List.take_append, List.take_of_length_le enough, first_line_status]
    exact List.prefix_append _ _
  rw [wsConnect, returns_bind]
  constructor
  · rintro ⟨_, middle, sent, rest⟩
    rw [sendall, returns_update, List.nil_append] at sent
    rw [← sent, returns_bind] at rest
    obtain ⟨header, after, read_header, checked⟩ := rest
    have fits : stop ≤ 65536 := Nat.le_of_not_lt fun large => raises large header after read_header
    obtain ⟨same, rfl⟩ := Prod.mk.inj ((reads fits).symm.trans read_header)
    rw [← Except.ok.inj same] at checked
    simp only [status, not_true_eq_false, if_false] at checked
    split at checked
    · simp at checked
    · rename_i accepted
      rw [returns_pure] at checked
      exact ⟨fits, Classical.not_not.mp accepted, checked.2.symm⟩
  · rintro ⟨fits, accepted, rfl⟩
    refine ⟨(), { incoming := pieces, sent := request }, by simp [sendall], ?_⟩
    rw [returns_bind]
    refine ⟨_, _, reads fits, ?_⟩
    simp only [status, not_true_eq_false, if_false, accepted, ne_eq, returns_pure, true_and]
    rfl

end XrdpConsole.GpuHandshake
