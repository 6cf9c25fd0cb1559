import XrdpConsole.ProxyRelay

/-!
# What the proxy delivers

The bytes of each direction stay together over every run. The relay ends sooner than its
docstring says: the data of a selector key is gone after the first event was handled, a
send that would block is taken for a closed socket, and at the end of a file nothing waits
for the output buffer.
-/

namespace XrdpConsole.ProxyDelivery

open XrdpConsole.Library
open XrdpConsole.ProxyRelay

set_option autoImplicit false

/-! ## The two parts of a turn -/

/-- The bytes of a read, whatever becomes of them. -/
def afterReceiving (before : Relay) (key : SelectorKey) (data : List Byte) : Relay :=
  { before with
    received := Function.update before.received key.fileobj (before.received key.fileobj ++ data) }

inductive ReadStep (before : Relay) (key : SelectorKey) : RecvAnswer → Relay → Prop where
  | nothing : ReadStep before key .wouldBlock before
  | failed : ReadStep before key .failed (finish before .socketError)
  | ended : ReadStep before key (.bytes []) (finish before (.endOfFile key.fileobj))
  | lost (data : List Byte) : data ≠ [] → key.data = none →
      ReadStep before key (.bytes data) (finish (afterReceiving before key data) .keyError)
  | overflow (data : List Byte) (destination : Endpoint) : data ≠ [] →
      key.data = some destination →
      maxBufferBytes < (before.pending destination).length + data.length →
      ReadStep before key (.bytes data) (finish (afterReceiving before key data) .bufferFull)
  | appended (data : List Byte) (destination : Endpoint) : data ≠ [] →
      key.data = some destination →
      (before.pending destination).length + data.length ≤ maxBufferBytes →
      ReadStep before key (.bytes data)
        { afterReceiving before key data with
          pending := Function.update before.pending destination
            (before.pending destination ++ data) }

theorem read_ready_step (before : Relay) (key : SelectorKey) (recv : RecvAnswer) :
    ReadStep before key recv (readReady before key recv) := by
  unfold readReady
  split
  · exact .nothing
  · exact .failed
  · exact .ended
  · rename_i byte rest
    simp only []
    split
    · rename_i none_attached
      exact .lost (byte :: rest) (by simp) none_attached
    · rename_i destination attached
      split
      · rename_i full
        exact .overflow (byte :: rest) destination (by simp) attached full
      · rename_i fits
        exact .appended (byte :: rest) destination (by simp) attached (Nat.le_of_not_lt fits)

inductive WriteStep (before : Relay) (key : SelectorKey) : SendAnswer → Relay → Prop where
  | empty (answer : SendAnswer) : before.pending key.fileobj = [] →
      WriteStep before key answer before
  | failed : before.pending key.fileobj ≠ [] →
      WriteStep before key .failed (finish before .socketError)
  | blocked (answer : SendAnswer) : before.pending key.fileobj ≠ [] →
      answer = .wouldBlock ∨ answer = .sent 0 →
      WriteStep before key answer (finish before .nothingSent)
  | sent (count : Nat) : before.pending key.fileobj ≠ [] → count ≠ 0 →
      WriteStep before key (.sent count)
        { before with
          pending := Function.update before.pending key.fileobj
            ((before.pending key.fileobj).drop count)
          accepted := Function.update before.accepted key.fileobj
            (before.accepted key.fileobj ++ (before.pending key.fileobj).take count) }

theorem write_ready_step (before : Relay) (key : SelectorKey) (send : SendAnswer) :
    WriteStep before key send (writeReady before key send) := by
  simp only [writeReady]
  split
  · rename_i empty
    exact .empty send (by simpa using empty)
  · rename_i some_output
    have output : before.pending key.fileobj ≠ [] := by simpa using some_output
    split
    · exact .failed output
    · exact .blocked .wouldBlock output (.inl rfl)
    · split
      · rename_i zero
        subst zero
        exact .blocked (.sent 0) output (.inr rfl)
      · rename_i count positive
        exact .sent count output positive

/-- The parts of a turn, where the event names them. -/
def Reads (before : Relay) (key : SelectorKey) (mask : EventMask) (recv : RecvAnswer)
    (after : Relay) : Prop :=
  mask.read = true ∧ ReadStep before key recv after ∨ mask.read = false ∧ after = before

def Writes (before : Relay) (key : SelectorKey) (mask : EventMask) (send : SendAnswer)
    (after : Relay) : Prop :=
  mask.write = true ∧ WriteStep before key send after ∨ mask.write = false ∧ after = before

inductive HandleStep (before : Relay) (key : SelectorKey) (mask : EventMask) (recv : RecvAnswer)
    (send : SendAnswer) : Relay → Prop where
  | readEnds (after : Relay) : mask.read = true → ReadStep before key recv after →
      after.outcome ≠ none → HandleStep before key mask recv send after
  | writeEnds (middle after : Relay) : Reads before key mask recv middle →
      middle.outcome = none → mask.write = true → WriteStep middle key send after →
      after.outcome ≠ none → HandleStep before key mask recv send after
  | done (middle final : Relay) : Reads before key mask recv middle → middle.outcome = none →
      Writes middle key mask send final → final.outcome = none →
      HandleStep before key mask recv send
        (updateInterest (updateInterest final .client) .backend)

theorem handle_event_step {before : Relay} (running : before.outcome = none) (key : SelectorKey)
    (mask : EventMask) (recv : RecvAnswer) (send : SendAnswer) :
    HandleStep before key mask recv send (handleEvent before key mask recv send) := by
  have reads : Reads before key mask recv
      (if mask.read then readReady before key recv else before) := by
    cases reading : mask.read with
    | true => exact .inl ⟨reading, read_ready_step before key recv⟩
    | false => exact .inr ⟨reading, rfl⟩
  simp only [handleEvent]
  generalize (if mask.read then readReady before key recv else before) = middle at reads ⊢
  have writes : Writes middle key mask send
      (if mask.write then writeReady middle key send else middle) := by
    cases writing : mask.write with
    | true => exact .inl ⟨writing, write_ready_step middle key send⟩
    | false => exact .inr ⟨writing, rfl⟩
  generalize (if mask.write then writeReady middle key send else middle) = final at writes ⊢
  split
  · rename_i ended
    have over_now : middle.outcome ≠ none := by
      intro still
      simp [still] at ended
    rcases reads with ⟨reading, step⟩ | ⟨-, rfl⟩
    · exact .readEnds middle reading step over_now
    · exact absurd running over_now
  · rename_i goes_on
    have still : middle.outcome = none := by simpa using goes_on
    split
    · rename_i ended
      have over_now : final.outcome ≠ none := by
        intro running
        simp [running] at ended
      rcases writes with ⟨writing, step⟩ | ⟨-, rfl⟩
      · exact .writeEnds middle final reads still writing step over_now
      · exact absurd still over_now
    · rename_i goes_on
      exact .done middle final reads still writes (by simpa using goes_on)

@[simp] theorem finish_outcome (self : Relay) (outcome : Outcome) :
    (finish self outcome).outcome = some outcome := rfl

/-! ## The streams -/

/-- What holds of a relay that has not ended, at any point of a turn. -/
structure Flowing (mm : Relay) : Prop where
  running : mm.outcome = none
  opened : ∀ sock, mm.closed sock = false
  streams : ∀ sock, mm.received sock = mm.accepted sock.other ++ mm.pending sock.other
  bounded : ∀ sock, (mm.pending sock).length ≤ maxBufferBytes
  registered : ∀ sock, ∃ key, mm.registered sock = some key ∧ key.fileobj = sock ∧
    (key.data = none ∨ key.data = some sock.other)
  keys : ∀ item ∈ mm.events, item.1.data = none ∨ item.1.data = some item.1.fileobj.other

/-- Each socket waits for reading, and for writing exactly while it has output. -/
def Interested (mm : Relay) : Prop :=
  ∀ sock, ∃ key, mm.registered sock = some key ∧ key.events.read = true ∧
    (key.events.write = true ↔ mm.pending sock ≠ [])

section Turns

variable {before after : Relay} {key : SelectorKey}

theorem read_flowing (flowing : Flowing before) {recv : RecvAnswer}
    (attached : key.data = none ∨ key.data = some key.fileobj.other)
    (step : ReadStep before key recv after) (running : after.outcome = none) : Flowing after := by
  cases step with
  | nothing => exact flowing
  | appended data destination _ names fits =>
      obtain rfl : destination = key.fileobj.other := by
        rcases attached with none_attached | opposite
        · rw [names] at none_attached
          exact absurd none_attached (by simp)
        · exact Option.some.inj (names.symm.trans opposite)
      refine ⟨flowing.running, flowing.opened, ?_, ?_, flowing.registered, flowing.keys⟩
      · intro sock
        simp only [afterReceiving]
        by_cases same : sock = key.fileobj
        · subst same
          rw [Function.update_self, Function.update_self, flowing.streams, List.append_assoc]
        · obtain rfl := Endpoint.eq_other same
          simp [flowing.streams, Function.update_of_ne]
      · intro sock
        simp only []
        by_cases same : sock = key.fileobj.other
        · subst same
          rw [Function.update_self, List.length_append]
          exact fits
        · rw [Function.update_of_ne same]
          exact flowing.bounded sock
  | _ => simp at running

theorem write_flowing (flowing : Flowing before) {send : SendAnswer}
    (step : WriteStep before key send after) (running : after.outcome = none) : Flowing after := by
  cases step with
  | empty => exact flowing
  | sent count _ _ =>
      refine ⟨flowing.running, flowing.opened, ?_, ?_, flowing.registered, flowing.keys⟩
      · intro sock
        simp only []
        by_cases same : sock.other = key.fileobj
        · rw [same, Function.update_self, Function.update_self, List.append_assoc,
            List.take_append_drop, ← same]
          exact flowing.streams sock
        · rw [Function.update_of_ne same, Function.update_of_ne same]
          exact flowing.streams sock
      · intro sock
        simp only []
        by_cases same : sock = key.fileobj
        · subst same
          rw [Function.update_self, List.length_drop]
          have bound := flowing.bounded key.fileobj
          omega
        · rw [Function.update_of_ne same]
          exact flowing.bounded sock
  | _ => simp at running

theorem update_interest_registered (flowing : Flowing before) (sock : Endpoint) :
    ∃ key, before.registered sock = some key ∧
      updateInterest before sock = { before with
        registered := Function.update before.registered sock (some
          { key with events := { read := true, write := !(before.pending sock).isEmpty }
                     data := none }) } := by
  obtain ⟨key, found, -⟩ := flowing.registered sock
  exact ⟨key, found, by simp only [updateInterest, found]⟩

theorem update_interest_flowing (flowing : Flowing before) (sock : Endpoint) :
    Flowing (updateInterest before sock) := by
  obtain ⟨key, found, after⟩ := update_interest_registered flowing sock
  rw [after]
  refine ⟨flowing.running, flowing.opened, flowing.streams, flowing.bounded, ?_, flowing.keys⟩
  intro other
  by_cases same : other = sock
  · subst same
    obtain ⟨again, foundAgain, fileobj, -⟩ := flowing.registered other
    obtain rfl := Option.some.inj (found.symm.trans foundAgain)
    exact ⟨_, Function.update_self .., fileobj, .inl rfl⟩
  · obtain ⟨kept, foundKept, fileobj, attached⟩ := flowing.registered other
    exact ⟨kept, (Function.update_of_ne same ..).trans foundKept, fileobj, attached⟩

/-- After both updates the interest of both sockets follows their output. -/
theorem update_interests (flowing : Flowing before) :
    Flowing (updateInterest (updateInterest before .client) .backend) ∧
      Interested (updateInterest (updateInterest before .client) .backend) := by
  have flowingClient := update_interest_flowing flowing .client
  refine ⟨update_interest_flowing flowingClient .backend, ?_⟩
  obtain ⟨key, -, after⟩ := update_interest_registered flowing .client
  obtain ⟨keyBackend, -, afterBackend⟩ := update_interest_registered flowingClient .backend
  rw [afterBackend, after]
  intro sock
  cases sock with
  | client => exact ⟨_, rfl, rfl, by simp⟩
  | backend => exact ⟨_, rfl, rfl, by simp⟩

theorem reads_flowing {mask : EventMask} {recv : RecvAnswer} (flowing : Flowing before)
    (attached : key.data = none ∨ key.data = some key.fileobj.other)
    (reads : Reads before key mask recv after) (running : after.outcome = none) : Flowing after := by
  rcases reads with ⟨-, step⟩ | ⟨-, rfl⟩
  · exact read_flowing flowing attached step running
  · exact flowing

theorem writes_flowing {mask : EventMask} {send : SendAnswer} (flowing : Flowing before)
    (writes : Writes before key mask send after) (running : after.outcome = none) :
    Flowing after := by
  rcases writes with ⟨-, step⟩ | ⟨-, rfl⟩
  · exact write_flowing flowing step running
  · exact flowing

theorem handle_flowing {mask : EventMask} {recv : RecvAnswer} {send : SendAnswer}
    (flowing : Flowing before) (attached : key.data = none ∨ key.data = some key.fileobj.other)
    (step : HandleStep before key mask recv send after) (running : after.outcome = none) :
    Flowing after ∧ Interested after := by
  cases step with
  | readEnds _ _ _ ended => exact absurd running ended
  | writeEnds _ _ _ _ _ _ ended => exact absurd running ended
  | done middle final reads still writes goes_on =>
      apply update_interests
      exact writes_flowing (reads_flowing flowing attached reads still) writes goes_on

end Turns

section Runs

variable {before after : Relay} {action : Action}

theorem collect_flowing (flowing : Flowing before) (ready : List (Endpoint × EventMask)) :
    Flowing (collect before ready) := by
  refine ⟨flowing.running, flowing.opened, flowing.streams, flowing.bounded, flowing.registered, ?_⟩
  intro item member
  obtain ⟨⟨sock, mask⟩, -, found⟩ := List.mem_filterMap.mp member
  obtain ⟨key, registered, rfl⟩ := Option.map_eq_some_iff.mp found
  obtain ⟨again, foundAgain, rfl, attached⟩ := flowing.registered sock
  obtain rfl := Option.some.inj (registered.symm.trans foundAgain)
  exact attached

/-- A turn takes the next event of the batch off it first. -/
theorem handle_turn {recv : RecvAnswer} {send : SendAnswer} (flowing : Flowing before)
    (possible : Possible before (.handle recv send)) :
    ∃ item rest, before.events = item :: rest ∧ Flowing { before with events := rest } ∧
      (item.1.data = none ∨ item.1.data = some item.1.fileobj.other) ∧
      HandleStep { before with events := rest } item.1 item.2 recv send
        (turn before (.handle recv send)) := by
  obtain ⟨-, item, head, -⟩ := possible
  cases batch : before.events with
  | nil => simp [batch] at head
  | cons item rest =>
      have popped : Flowing { before with events := rest } :=
        ⟨flowing.running, flowing.opened, flowing.streams, flowing.bounded, flowing.registered,
          fun other member => flowing.keys other (batch ▸ List.mem_cons_of_mem item member)⟩
      have attached := flowing.keys item (by rw [batch]; exact List.mem_cons_self ..)
      refine ⟨item, rest, rfl, popped, attached, ?_⟩
      simp only [turn, batch]
      exact handle_event_step popped.running item.1 item.2 recv send

theorem step_flowing (flowing : Flowing before ∧ Interested before)
    (stepped : relaying.step before action after) (running : after.outcome = none) :
    Flowing after ∧ Interested after := by
  obtain ⟨possible, rfl⟩ := stepped
  cases action with
  | select ready => exact ⟨collect_flowing flowing.1 ready, flowing.2⟩
  | handle recv send =>
      obtain ⟨item, rest, -, popped, attached, step⟩ := handle_turn flowing.1 possible
      exact handle_flowing popped attached step running

theorem start_flowing : Flowing startRelay ∧ Interested startRelay := by
  constructor
  · exact ⟨rfl, fun _ => rfl, fun _ => rfl, fun _ => by simp [startRelay],
      fun sock => ⟨_, rfl, rfl, .inr rfl⟩, by simp [startRelay]⟩
  · exact fun sock => ⟨_, rfl, rfl, by simp [startRelay]⟩

/-- The relay goes on from running states only. -/
theorem step_running (stepped : relaying.step before action after) : before.outcome = none := by
  obtain ⟨possible, -⟩ := stepped
  cases action with
  | select ready => exact possible.1
  | handle recv send => exact possible.1

theorem reachable_flowing {mm : Relay} (reachable : relaying.Reachable mm)
    (running : mm.outcome = none) : Flowing mm ∧ Interested mm := by
  have holds : mm.outcome = none → Flowing mm ∧ Interested mm := by
    apply System.reachable_invariant (fun mm => mm.outcome = none → Flowing mm ∧ Interested mm) _ _
      reachable
    · rintro start rfl _
      exact start_flowing
    · intro before action after holds stepped running
      exact step_flowing (holds (step_running stepped)) stepped running
  exact holds running

/-- Nothing of either direction is lost, doubled or crossed, no buffer is too long, and a
socket waits for writing exactly while it has output. -/
structure StreamsWhole (mm : Relay) : Prop where
  streams : ∀ source, mm.accepted source.other ++ mm.pending source.other = mm.received source
  bounded : ∀ sock, (mm.pending sock).length ≤ maxBufferBytes
  interested : ∀ sock, ∃ key, mm.registered sock = some key ∧
    (key.events.write = true ↔ mm.pending sock ≠ [])

/-- In every run the streams are whole until the relay ends, at every head of the loop and
after every event of a batch. -/
theorem relay_keeps_streams {mm : Relay} (reachable : relaying.Reachable mm)
    (running : mm.outcome = none) : StreamsWhole mm := by
  obtain ⟨flowing, interested⟩ := reachable_flowing reachable running
  refine ⟨fun source => (flowing.streams source).symm, flowing.bounded, fun sock => ?_⟩
  obtain ⟨key, registered, -, waits⟩ := interested sock
  exact ⟨key, registered, waits⟩

end Runs

/-! ## A small run -/

def runActions (start : Relay) (actions : List Action) : Relay := actions.foldl turn start

def readable : EventMask := { read := true, write := false }

def writable : EventMask := { read := false, write := true }

theorem run_of_actions {actions : List Action}
    (possible : System.AllMeet turn Possible startRelay actions) :
    relaying.Run startRelay actions (runActions startRelay actions) := by
  apply System.run_guarded _ possible
  intro state action permitted
  exact ⟨permitted, rfl⟩

/-- The client sends two bytes, of which the backend takes one. -/
def partlySent : List Action :=
  [.select [(.client, readable)], .handle (.bytes [1, 2]) .wouldBlock,
    .select [(.backend, writable)], .handle .wouldBlock (.sent 1)]

theorem relay_keeps_streams_partly_sent : StreamsWhole (runActions startRelay partlySent) := by
  apply relay_keeps_streams
  · exact ⟨startRelay, partlySent, rfl, run_of_actions (by decide)⟩
  · rfl

end XrdpConsole.ProxyDelivery
