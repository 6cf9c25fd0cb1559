import Mathlib.Algebra.BigOperators.Group.List.Basic
import XrdpConsole.SocketScan

/-!
# Totals of the RDP sockets

The output of `ss -tin` as connections, each a header in some state with lines of counters behind
it, and what `rdp_socket_values` makes of it. The header of a connection that is not established
does not end the record that is open, and nothing adds up the retransmissions.
-/

namespace XrdpConsole.SocketStats

open XrdpConsole.Library

set_option autoImplicit false

/-! ## Connections -/

/-- The first line of a connection: its state, and the columns behind it. -/
structure Header where
  state : Text
  columns : Text
  plain : PlainWord state
  oneLine : OneLine columns

def Header.text (header : Header) : Text := header.state ++ ' ' :: header.columns

def Header.established (header : Header) : Bool := header.state = ['E', 'S', 'T', 'A', 'B']

def Header.localPort (header : Header) : Option Text :=
  (words header.columns)[2]?.bind (afterLast ':')

variable {reading : Reading}

variable (reading) in
/-- The values in the columns. -/
def Header.queues (header : Header) : Record
  | .recvQ => (words header.columns)[0]?.bind reading.float
  | .sendQ => (words header.columns)[1]?.bind reading.float
  | _ => none

variable (reading) in
/-- All columns are there, both queues are numbers, and the local address has the port. -/
def Header.wellFormed (port : Int) (header : Header) : Bool :=
  4 ≤ (words header.columns).length ∧ header.localPort = some (decimalInt port) ∧
    (header.queues reading .recvQ).isSome ∧ (header.queues reading .sendQ).isSome

variable (reading) in
structure Connection where
  header : Header
  details : List (Line reading)

def Connection.lines (connection : Connection reading) : List Text :=
  connection.header.text :: connection.details.map Line.text

def output (connections : List (Connection reading)) : Text :=
  (connections.flatMap Connection.lines).flatMap (· ++ ['\n'])

/-! ## What is meant -/

/-- The values of a connection: the queues of its header, and of every counter the last one in
its lines. -/
def Connection.record (connection : Connection reading) : Record :=
  overlay (lastValues Line.values connection.details) (connection.header.queues reading)

variable (port : Int)

def Connection.counted (connection : Connection reading) : Bool :=
  connection.header.established && connection.header.wellFormed reading port

variable (connections : List (Connection reading))

def counted : List (Connection reading) := connections.filter (Connection.counted port)

def total (key : Key) : ℚ :=
  ((counted port connections).map fun connection => (connection.record key).getD 0).sum

def mean (key : Key) : ℚ := total port connections key / (counted port connections).length

def expected : Values
  | .rdpConnectionCount => (counted port connections).length
  | .rdpRecvQBytes => mean port connections .recvQ
  | .rdpSendQBytes => mean port connections .sendQ
  | .rdpRttMs => mean port connections .rtt
  | .rdpRttvarMs => mean port connections .rttvar
  | .rdpDeliveryRateMbps => mean port connections .delivery / 10 ^ 6
  | .rdpBytesSent => total port connections .sent
  | .rdpBytesReceived => total port connections .received
  | .rdpRetransBytes => total port connections .retransBytes
  | .rdpRetransEvents => total port connections .retransEvents
  | .rdpOooPackets => total port connections .ooo

/-- The records hold what the connections do, and the values are the ones that are meant. -/
structure Complete : Prop where
  records : socketRecords reading port (splitLines (output connections)) =
    (counted port connections).map Connection.record
  values : rdpSocketValues reading port (some (output connections)) = expected port connections

/-! ## What is read -/

/-- The established connections, each with the others that follow it. -/
def withFollowing : List (Connection reading) →
    List (Connection reading × List (Connection reading))
  | [] => []
  | connection :: rest =>
      if connection.header.established then
        (connection, rest.takeWhile fun other => !other.header.established) :: withFollowing rest
      else withFollowing rest

/-- What the lines of a connection that is not established leave in an open record: its values,
over what the patterns find in the header. -/
def Connection.leaks (connection : Connection reading) : Record :=
  overlay (lastValues Line.values connection.details)
    (scanLine reading emptyMap connection.header.text)

/-- What the connections behind a counted one leave in its record, the last of every key, is what
it has itself. -/
def NothingLeaks : Prop :=
  ∀ entry ∈ withFollowing connections, entry.1.counted port = true →
    ∀ key value, lastValues Connection.leaks entry.2 key = some value →
      entry.1.record key = some value

/-! ## Headers -/

theorem header_one_line (header : Header) : OneLine header.text := by
  have state : OneLine header.state := fun c member => black_no_break (header.plain.2 c member)
  apply one_line_append state
  intro c member
  cases List.mem_cons.mp member with
  | inl blank =>
      rw [blank]
      rfl
  | inr inside => exact header.oneLine c inside

theorem connection_one_line (connection : Connection reading) :
    ∀ line ∈ connection.lines, OneLine line := by
  intro line listed
  cases List.mem_cons.mp listed with
  | inl header =>
      rw [header]
      exact header_one_line connection.header
  | inr detail =>
      obtain ⟨line, -, rfl⟩ := List.mem_map.mp detail
      exact line_one_line line

theorem output_lines (connections : List (Connection reading)) :
    splitLines (output connections) = connections.flatMap Connection.lines := by
  apply split_lines_ended
  intro line listed
  obtain ⟨connection, -, inside⟩ := List.mem_flatMap.mp listed
  exact connection_one_line connection line inside

theorem no_blank_inside {word : Text} (plain : ∀ c ∈ word, isWhiteSpace c = false) :
    ∀ c ∈ word, decide (c ≠ ' ') = true := by
  intro c member
  apply decide_eq_true
  rintro rfl
  exact absurd (plain ' ' member) (by decide)

/-- What a word is, from the front of a line up to the first blank. -/
theorem front_word {word : Text} (plain : ∀ c ∈ word, isWhiteSpace c = false) (rest : Text) :
    (word ++ ' ' :: rest).takeWhile (· ≠ ' ') = word :=
  take_while_run (no_blank_inside plain) rfl

theorem established_iff (header : Header) :
    ['E', 'S', 'T', 'A', 'B', ' '] <+: header.text ↔ header.established = true := by
  have plain : PlainWord ['E', 'S', 'T', 'A', 'B'] := plain_word_of_all (by decide) (by decide)
  rw [Header.established, decide_eq_true_iff]
  constructor
  · rintro ⟨rest, same⟩
    have front := congrArg (List.takeWhile (· ≠ ' ')) same
    rw [Header.text, front_word header.plain.2] at front
    rw [← front]
    exact front_word plain.2 rest
  · intro state
    exact ⟨header.columns, by rw [Header.text, state]; rfl⟩

theorem decimal_no_colon (port : Int) : ':' ∉ decimalInt port := by
  intro member
  cases decimal_int_digits member with
  | inl sign => exact absurd sign (by decide)
  | inr digit => exact absurd digit (by decide)

/-- A record of two queues is begun when both can be read. -/
theorem queues_opened {record : Record}
    (others : ∀ key, key ≠ .recvQ → key ≠ .sendQ → record key = none) :
    ((record .recvQ).bind fun received => (record .sendQ).bind fun sending =>
      some ((Record.set emptyMap .recvQ received).set .sendQ sending)) =
        if (record .recvQ).isSome ∧ (record .sendQ).isSome then some record else none := by
  cases received : record .recvQ with
  | none => rfl
  | some receivedValue =>
      cases sending : record .sendQ with
      | none => rfl
      | some sendingValue =>
          apply congrArg some
          funext key
          cases key with
          | recvQ => exact received.symm
          | sendQ => exact sending.symm
          | _ => exact (others _ (by decide) (by decide)).symm

/-- A record is begun for a header that is well formed, with the values of its columns. -/
theorem open_record_header (port : Int) (header : Header) :
    openRecord reading port header.text =
      if header.wellFormed reading port then some (header.queues reading) else none := by
  have columns : words header.text = header.state :: words header.columns := by
    rw [Header.text, words_append (by decide), words_plain header.plain]
    rfl
  rw [openRecord, columns]
  match same : words header.columns with
  | [] | [_] | [_, _] | [_, _, _] => simp [Header.wellFormed, same]
  | recvQ :: sendQ :: localAddress :: peer :: rest =>
      have suffix := after_last_suffix (decimal_no_colon port) localAddress
      have local_port : header.localPort = afterLast ':' localAddress := by
        simp [Header.localPort, same]
      have received : header.queues reading .recvQ = reading.float recvQ := by
        simp [Header.queues, same]
      have sending : header.queues reading .sendQ = reading.float sendQ := by
        simp [Header.queues, same]
      have others : ∀ key, key ≠ .recvQ → key ≠ .sendQ → header.queues reading key = none := by
        intro key
        cases key <;> simp [Header.queues]
      have opened := queues_opened others
      rw [received, sending] at opened
      by_cases found : afterLast ':' localAddress = some (decimalInt port)
      · simpa [Header.wellFormed, same, local_port, suffix, found, received, sending] using opened
      · simp [Header.wellFormed, local_port, suffix, found]

theorem detail_not_header (line : Line reading) :
    ¬['E', 'S', 'T', 'A', 'B', ' '] <+: line.text := by
  rintro ⟨rest, same⟩
  have ends := line_rest_end line.items line.blank
  rw [← Line.text, ← same] at ends
  exact absurd (ends 'E' rfl) (by decide)

/-! ## Steps -/

/-- The values go over those of the open record. -/
def Scan.put (self : Scan) (values : Record) : Scan :=
  { self with record := self.record.map (overlay values) }

theorem put_empty (scan : Scan) : scan.put emptyMap = scan := by
  cases scan with
  | mk record records => cases record <;> simp [Scan.put, empty_overlay]

theorem put_put (scan : Scan) (values newer : Record) :
    (scan.put values).put newer = scan.put (overlay newer values) := by
  cases scan with
  | mk record records => cases record <;> simp [Scan.put, overlay_assoc]

/-- Any line but a header is read into the open record. -/
theorem step_line {line : Text} (plain : ¬['E', 'S', 'T', 'A', 'B', ' '] <+: line) (scan : Scan) :
    scan.step reading port line = scan.put (scanLine reading emptyMap line) := by
  rw [Scan.step, if_neg plain]
  cases scan with
  | mk record records =>
      cases record with
      | none => rfl
      | some record => simp [Scan.put, scan_line_overlay record]

theorem fold_details (details : List (Line reading)) (scan : Scan) :
    (details.map Line.text).foldl (Scan.step reading port) scan =
      scan.put (lastValues Line.values details) := by
  induction details generalizing scan with
  | nil => exact (put_empty scan).symm
  | cons line details ih =>
      rw [List.map_cons, List.foldl_cons, step_line port (detail_not_header line),
        scan_line_values, overlay_empty, ih, put_put, last_values_cons]

/-- The header of an established connection ends the open record and may begin the next one. -/
theorem step_established {header : Header} (established : header.established = true) (scan : Scan) :
    scan.step reading port header.text =
      ⟨if header.wellFormed reading port then some (header.queues reading) else none,
        scan.records ++ scan.record.toList⟩ := by
  rw [Scan.step, if_pos ((established_iff header).mpr established), open_record_header]
  rfl

theorem fold_established {connection : Connection reading}
    (established : connection.header.established = true) (scan : Scan) :
    connection.lines.foldl (Scan.step reading port) scan =
      ⟨if connection.counted port then some connection.record else none,
        scan.records ++ scan.record.toList⟩ := by
  rw [Connection.lines, List.foldl_cons, step_established port established, fold_details]
  simp only [Connection.counted, established, Bool.true_and]
  split
  · rfl
  · rfl

/-- The header of another connection is read as a line of the open record. -/
theorem fold_other {connection : Connection reading}
    (other : connection.header.established = false) (scan : Scan) :
    connection.lines.foldl (Scan.step reading port) scan = scan.put connection.leaks := by
  have plain : ¬['E', 'S', 'T', 'A', 'B', ' '] <+: connection.header.text := by
    rw [established_iff, other]
    decide
  rw [Connection.lines, List.foldl_cons, step_line port plain, fold_details, put_put,
    Connection.leaks]

/-! ## Runs -/

/-- The connections behind an open record, up to the next one that is established. -/
def following : List (Connection reading) :=
  connections.takeWhile fun other => !other.header.established

/-- The record of an established connection, with what the ones that follow leave in it. -/
def leakedRecord (entry : Connection reading × List (Connection reading)) : Record :=
  overlay (lastValues Connection.leaks entry.2) entry.1.record

def leakedRecords : List Record :=
  ((withFollowing connections).filter fun entry => entry.1.counted port).map leakedRecord

theorem leaked_records_established {connection : Connection reading}
    (established : connection.header.established = true) :
    leakedRecords port (connection :: connections) =
      (if connection.counted port then [leakedRecord (connection, following connections)] else []) ++
        leakedRecords port connections := by
  simp only [leakedRecords, withFollowing, established, if_true, List.filter_cons, following]
  split
  · rfl
  · rfl

theorem run_records (scan : Scan) :
    ((connections.flatMap Connection.lines).foldl (Scan.step reading port) scan).finish.records =
      (scan.put (lastValues Connection.leaks (following connections))).finish.records ++
        leakedRecords port connections := by
  induction connections generalizing scan with
  | nil => simp [following, last_values_nil, put_empty, leakedRecords, withFollowing]
  | cons connection rest ih =>
      rw [List.flatMap_cons, List.foldl_append]
      cases established : connection.header.established with
      | true =>
          have nothing : following (connection :: rest) = [] := by simp [following, established]
          rw [fold_established port established, ih, nothing, last_values_nil, put_empty,
            leaked_records_established port rest established]
          by_cases counts : connection.counted port = true
          · simp [counts, Scan.put, Scan.finish, leakedRecord]
          · simp [counts, Scan.put, Scan.finish]
      | false =>
          have more : following (connection :: rest) = connection :: following rest := by
            simp [following, established]
          have same : leakedRecords port (connection :: rest) = leakedRecords port rest := by
            simp [leakedRecords, withFollowing, established]
          rw [fold_other port established, ih, put_put, more, same, last_values_cons]

/-- The records that are read are those of the counted connections, with what follows over them. -/
theorem records_read :
    socketRecords reading port (splitLines (output connections)) =
      leakedRecords port connections := by
  rw [socketRecords, output_lines, run_records]
  rfl

theorem counted_following : counted port connections =
    ((withFollowing connections).filter fun entry => entry.1.counted port).map Prod.fst := by
  induction connections with
  | nil => rfl
  | cons connection rest ih =>
      rw [counted] at ih ⊢
      cases established : connection.header.established with
      | true =>
          rw [withFollowing, if_pos established, List.filter_cons, List.filter_cons, ih]
          split
          · rfl
          · rfl
      | false =>
          have other : connection.counted port = false := by
            rw [Connection.counted, established, Bool.false_and]
          simp only [withFollowing, established, Bool.false_eq_true, if_false, List.filter_cons,
            other, ih]

/-- The records are the ones that are meant exactly when nothing leaks. -/
theorem records_iff :
    socketRecords reading port (splitLines (output connections)) =
      (counted port connections).map Connection.record ↔ NothingLeaks port connections := by
  rw [records_read, counted_following, List.map_map, leakedRecords, List.map_inj_left]
  simp only [List.mem_filter, leakedRecord, Function.comp_apply, overlay_hidden_iff, NothingLeaks,
    and_imp]

theorem record_values_meant (value : Value) :
    recordValues ((counted port connections).map Connection.record) value =
      if value = .rdpRetransEvents then 0 else expected port connections value := by
  cases value <;> simp [recordValues, averaged, summed, sumOf, expected, mean, total,
    Function.comp_def]

theorem expected_nothing (nothing : counted port connections = []) (value : Value) :
    expected port connections value = 0 := by
  cases value <;> simp [expected, mean, total, nothing]

/-- From the records that are meant come the values that are meant, but for one. -/
theorem values_read (records : socketRecords reading port (splitLines (output connections)) =
      (counted port connections).map Connection.record) (value : Value) :
    rdpSocketValues reading port (some (output connections)) value =
      if value = .rdpRetransEvents then 0 else expected port connections value := by
  simp only [rdpSocketValues, records, List.isEmpty_iff, List.map_eq_nil_iff]
  split
  · rename_i nothing
    simp [expected_nothing port connections nothing]
  · exact record_values_meant port connections value

/-- The counters are complete exactly when nothing leaks and nothing is retransmitted. -/
theorem socket_counters_iff : Complete port connections ↔
    NothingLeaks port connections ∧ total port connections .retransEvents = 0 := by
  constructor
  · intro complete
    have read := values_read port connections complete.records .rdpRetransEvents
    rw [complete.values] at read
    exact ⟨(records_iff port connections).mp complete.records, read⟩
  · intro condition
    have records := (records_iff port connections).mpr condition.1
    refine ⟨records, ?_⟩
    funext value
    rw [values_read port connections records]
    split
    · rename_i events
      rw [events]
      exact condition.2.symm
    · rfl

/-! ## Outputs that are read wrong -/

def asciiReading : Reading := ⟨fun _ => false, fun _ => none⟩

/-- A connection on port 3389 with one item behind its header. -/
def sampleConnection (state : Text) (plain : PlainWord state) (info : Info) :
    Connection asciiReading where
  header := {
    state
    columns := "0 0 10.0.0.1:3389 10.0.0.2:50000".toList
    plain
    oneLine := one_line_of_all (by decide +kernel) }
  details := [{
    items := [⟨['\t', ' '], .known info, by decide, by decide⟩]
    trailing := []
    blank := by decide }]

def established (info : Info) : Connection asciiReading :=
  sampleConnection ['E', 'S', 'T', 'A', 'B'] (plain_word_of_all (by decide) (by decide)) info

def closeWait (info : Info) : Connection asciiReading :=
  sampleConnection ['C', 'L', 'O', 'S', 'E', '-', 'W', 'A', 'I', 'T']
    (plain_word_of_all (by decide) (by decide)) info

theorem counters_quiet : Complete 3389 [established (.bytesSent 7)] := by
  apply (socket_counters_iff 3389 [established (.bytesSent 7)]).mpr
  constructor
  · intro entry listed _ key value found
    have alone : withFollowing [established (.bytesSent 7)] = [(established (.bytesSent 7), [])] :=
      rfl
    rw [alone, List.mem_singleton] at listed
    rw [listed, last_values_nil] at found
    contradiction
  · decide +kernel

theorem counters_incomplete : ¬Complete 3389 [established (.retrans 0 3)] ∧
    ¬Complete 3389 [established (.bytesSent 7), closeWait (.bytesSent 5)] := by
  constructor
  · intro complete
    have read := values_read 3389 _ complete.records .rdpRetransEvents
    rw [complete.values] at read
    exact absurd read (by decide +kernel)
  · intro complete
    have hidden := (records_iff 3389 _).mp complete.records
    have sent := hidden _ (List.mem_cons_self ..) (by decide +kernel) .sent 5 (by decide +kernel)
    exact absurd sent (by decide +kernel)

end XrdpConsole.SocketStats
