import XrdpConsole.ProxyDelivery

/-!
# When the proxy ends

A turn of the relay goes on, or ends for one of the reasons the source names, exactly where
the key of a read that has bytes still carries its destination and no send would block. The
first is only so for the batches that are selected before any event was handled. What has
been received from a peer that closes is delivered if the output buffer is empty then.
-/

namespace XrdpConsole.ProxyLifetime

open XrdpConsole.Library
open XrdpConsole.ProxyRelay
open XrdpConsole.ProxyDelivery

set_option autoImplicit false

/-! ## The conditions -/

/-- The reading part of a turn does not end the relay for one of the reasons the source
names. -/
def ReadGoesOn (mm : Relay) (item : SelectorKey × EventMask) (recv : RecvAnswer) : Prop :=
  item.2.read = false ∨ recv = .wouldBlock ∨ recv.data ≠ [] ∧
    (mm.pending item.1.fileobj.other).length + recv.data.length ≤ maxBufferBytes

/-- A read that has bytes still has a destination, and a send does not report that it would
block, nor that it took nothing. -/
structure UndisturbedTurn (mm : Relay) (item : SelectorKey × EventMask) (recv : RecvAnswer)
    (send : SendAnswer) : Prop where
  attached : item.2.read = true → recv.data ≠ [] → item.1.data ≠ none
  sends : item.2.write = true → ReadGoesOn mm item recv → mm.pending item.1.fileobj ≠ [] →
    send ≠ .wouldBlock ∧ send ≠ .sent 0

instance (mm : Relay) (item : SelectorKey × EventMask) (recv : RecvAnswer) :
    Decidable (ReadGoesOn mm item recv) := inferInstanceAs (Decidable (_ ∨ _))

instance (mm : Relay) (item : SelectorKey × EventMask) (recv : RecvAnswer) (send : SendAnswer) :
    Decidable (UndisturbedTurn mm item recv send) :=
  decidable_of_iff
    ((item.2.read = true → recv.data ≠ [] → item.1.data ≠ none) ∧
      (item.2.write = true → ReadGoesOn mm item recv → mm.pending item.1.fileobj ≠ [] →
        send ≠ .wouldBlock ∧ send ≠ .sent 0))
    ⟨fun ⟨attached, sends⟩ => ⟨attached, sends⟩, fun ⟨attached, sends⟩ => ⟨attached, sends⟩⟩

def Undisturbed (mm : Relay) : Action → Prop
  | .select _ => True
  | .handle recv send => ∀ item ∈ mm.events.head?, UndisturbedTurn mm item recv send

/-- The ends that the source names. -/
inductive AllowedEnd (pending : Endpoint → List Byte) (item : SelectorKey × EventMask)
    (recv : RecvAnswer) (send : SendAnswer) : Option Outcome → Prop where
  | goesOn : AllowedEnd pending item recv send none
  | endOfFile : item.2.read = true → recv = .bytes [] →
      AllowedEnd pending item recv send (some (.endOfFile item.1.fileobj))
  | recvFailed : item.2.read = true → recv = .failed →
      AllowedEnd pending item recv send (some .socketError)
  | sendFailed : item.2.write = true → send = .failed →
      AllowedEnd pending item recv send (some .socketError)
  | bufferFull : item.2.read = true →
      maxBufferBytes < (pending item.1.fileobj.other).length + recv.data.length →
      AllowedEnd pending item recv send (some .bufferFull)

/-- The bytes of a read are appended to the buffer of the opposite socket, and the relay
ends for the reasons the source names only. -/
structure TurnGoesOn (mm : Relay) (item : SelectorKey × EventMask) (recv : RecvAnswer)
    (send : SendAnswer) (after : Relay) : Prop where
  appended : item.2.read = true → recv.data ≠ [] → after.outcome ≠ some .bufferFull →
    after.pending item.1.fileobj.other = mm.pending item.1.fileobj.other ++ recv.data
  ends : AllowedEnd mm.pending item recv send after.outcome

def KeepsGoing (mm : Relay) : Action → Prop
  | .select _ => True
  | .handle recv send => ∀ item ∈ mm.events.head?,
      TurnGoesOn mm item recv send (turn mm (.handle recv send))

/-! ## One turn -/

section Turns

variable {before after : Relay} {item : SelectorKey × EventMask} {recv : RecvAnswer}
  {send : SendAnswer}

@[simp] theorem finish_pending (self : Relay) (outcome : Outcome) :
    (finish self outcome).pending = self.pending := rfl

@[simp] theorem finish_accepted (self : Relay) (outcome : Outcome) :
    (finish self outcome).accepted = self.accepted := rfl

@[simp] theorem finish_received (self : Relay) (outcome : Outcome) :
    (finish self outcome).received = self.received := rfl

/-- What has been read where the relay goes on after reading. -/
structure ReadOn (before : Relay) (item : SelectorKey × EventMask) (recv : RecvAnswer)
    (after : Relay) : Prop where
  goesOn : ReadGoesOn before item recv
  attached : item.2.read = true → recv.data ≠ [] → item.1.data ≠ none
  appended : item.2.read = true →
    after.pending item.1.fileobj.other = before.pending item.1.fileobj.other ++ recv.data
  own : after.pending item.1.fileobj = before.pending item.1.fileobj

theorem reads_on (attached : item.1.data = none ∨ item.1.data = some item.1.fileobj.other)
    (reads : Reads before item.1 item.2 recv after) (running : after.outcome = none) :
    ReadOn before item recv after := by
  rcases reads with ⟨reading, step⟩ | ⟨idle, rfl⟩
  · cases step with
    | nothing => exact ⟨.inr (.inl rfl), by simp [RecvAnswer.data], by simp [RecvAnswer.data], rfl⟩
    | appended data destination some_data names fits =>
        obtain rfl : destination = item.1.fileobj.other := by
          rcases attached with none_attached | opposite
          · rw [names] at none_attached
            exact absurd none_attached (by simp)
          · exact Option.some.inj (names.symm.trans opposite)
        refine ⟨.inr (.inr ⟨some_data, fits⟩), fun _ _ => by simp [names], fun _ => ?_, ?_⟩
        · exact Function.update_self ..
        · exact Function.update_of_ne (Endpoint.ne_other _) ..
    | _ => simp at running
  · exact ⟨.inl idle, fun reading => absurd reading (by simp [idle]),
      fun reading => absurd reading (by simp [idle]), rfl⟩

theorem writes_other {middle : Relay} {key : SelectorKey} {mask : EventMask}
    (writes : Writes middle key mask send after) :
    after.pending key.fileobj.other = middle.pending key.fileobj.other := by
  rcases writes with ⟨-, step⟩ | ⟨-, rfl⟩
  · cases step with
    | sent count _ _ => exact Function.update_of_ne (Endpoint.other_ne _) ..
    | _ => rfl
  · rfl

theorem update_interest_pending (self : Relay) (sock : Endpoint) :
    (updateInterest self sock).pending = self.pending ∧
      (updateInterest self sock).outcome = self.outcome := by
  unfold updateInterest
  split <;> exact ⟨rfl, rfl⟩

/-- A turn goes on, or ends as it may, exactly where nothing disturbs it. -/
theorem turn_goes_on_iff (running : before.outcome = none)
    (attached : item.1.data = none ∨ item.1.data = some item.1.fileobj.other)
    (step : HandleStep before item.1 item.2 recv send after) :
    TurnGoesOn before item recv send after ↔ UndisturbedTurn before item recv send := by
  cases step with
  | readEnds _ reading step ended =>
      cases step with
      | nothing => exact absurd running ended
      | failed =>
          refine iff_of_true ⟨?_, .recvFailed reading rfl⟩ ⟨?_, ?_⟩
          · simp [RecvAnswer.data]
          · simp [RecvAnswer.data]
          · simp [ReadGoesOn, reading, RecvAnswer.data]
      | ended =>
          refine iff_of_true ⟨?_, .endOfFile reading rfl⟩ ⟨?_, ?_⟩
          · simp [RecvAnswer.data]
          · simp [RecvAnswer.data]
          · simp [ReadGoesOn, reading, RecvAnswer.data]
      | lost data some_data none_attached =>
          apply iff_of_false
          · intro goes_on
            have ends := goes_on.ends
            cases ends
          · intro undisturbed
            exact undisturbed.attached reading some_data none_attached
      | overflow data destination some_data names full =>
          obtain rfl : destination = item.1.fileobj.other :=
            Option.some.inj (names.symm.trans (attached.resolve_left (by simp [names])))
          refine iff_of_true ⟨?_, .bufferFull reading full⟩ ⟨?_, ?_⟩
          · exact fun _ _ other => absurd rfl other
          · simp [names]
          · intro _ goes_on
            rcases goes_on with idle | blocked | ⟨-, fits⟩
            · exact absurd (reading.symm.trans idle) (by simp)
            · simp at blocked
            · exact absurd full (Nat.not_lt.mpr fits)
      | appended => exact absurd running ended
  | writeEnds middle _ reads still writing step ended =>
      have on := reads_on attached reads still
      cases step with
      | empty => exact absurd still ended
      | failed some_output =>
          refine iff_of_true ⟨?_, .sendFailed writing rfl⟩ ⟨on.attached, by simp⟩
          exact fun reading _ _ => on.appended reading
      | blocked _ some_output would =>
          apply iff_of_false
          · intro goes_on
            have ends := goes_on.ends
            cases ends
          · intro undisturbed
            rw [on.own] at some_output
            have sends := undisturbed.sends writing on.goesOn some_output
            exact would.elim sends.1 sends.2
      | sent => exact absurd still ended
  | done middle final reads still writes goes_on =>
      have on := reads_on attached reads still
      obtain ⟨pendingClient, outcomeClient⟩ := update_interest_pending final .client
      obtain ⟨pending, outcome⟩ := update_interest_pending (updateInterest final .client) .backend
      refine iff_of_true ⟨?_, ?_⟩ ⟨on.attached, ?_⟩
      · intro reading _ _
        rw [pending, pendingClient, writes_other writes]
        exact on.appended reading
      · rw [outcome, outcomeClient, goes_on]
        exact .goesOn
      · intro writing _ some_output
        rcases writes with ⟨-, step⟩ | ⟨idle, -⟩
        · cases step with
          | empty _ none_left =>
              rw [on.own] at none_left
              exact absurd none_left some_output
          | sent count _ positive => exact ⟨by simp, by simpa using positive⟩
          | _ => simp at goes_on
        · exact absurd (writing.symm.trans idle) (by simp)

end Turns

/-! ## Every run -/

theorem keeps_going_iff {mm : Relay} {action : Action} (flowing : Flowing mm)
    (possible : Possible mm action) : KeepsGoing mm action ↔ Undisturbed mm action := by
  cases action with
  | select ready => exact Iff.rfl
  | handle recv send =>
      obtain ⟨item, rest, batch, popped, attached, step⟩ := handle_turn flowing possible
      have turned := turn_goes_on_iff popped.running attached step
      simp only [KeepsGoing, Undisturbed, batch, List.head?_cons, Option.mem_def,
        Option.some.injEq, forall_eq']
      constructor
      · intro goes_on
        obtain ⟨undisturbed, sends⟩ := turned.mp ⟨goes_on.appended, goes_on.ends⟩
        exact ⟨undisturbed, sends⟩
      · intro undisturbed
        obtain ⟨appended, ends⟩ := turned.mpr ⟨undisturbed.attached, undisturbed.sends⟩
        exact ⟨appended, ends⟩

theorem restricted_flowing {guard : Relay → Action → Prop} {mm : Relay}
    (reachable : (relaying.restrict guard).Reachable mm) (running : mm.outcome = none) :
    Flowing mm := by
  obtain ⟨start, actions, initial, ran⟩ := reachable
  exact (reachable_flowing ⟨start, actions, initial, System.run_of_restrict ran⟩ running).1

theorem run_guard_iff {guard other : Relay → Action → Prop}
    (same : ∀ mm action, Flowing mm → Possible mm action → guard mm action → other mm action)
    {actions : List Action} {final : Relay}
    (ran : (relaying.restrict guard).Run startRelay actions final) :
    (relaying.restrict other).Run startRelay actions final := by
  generalize start : startRelay = first at ran
  induction ran with
  | stay => exact .stay first
  | @next before after actions action ran stepped ih =>
      obtain ⟨guarded, possible⟩ := stepped
      have flowing := restricted_flowing ⟨first, actions, start.symm, ran⟩ (step_running possible)
      exact .next ih ⟨same before action flowing possible.1 guarded, possible⟩

/-- In a run of any length every turn appends what it read and ends the relay for a reason
the source names only, exactly where every turn is undisturbed. -/
theorem relay_keeps_going_iff (actions : List Action) (final : Relay) :
    (relaying.restrict KeepsGoing).Run startRelay actions final ↔
      (relaying.restrict Undisturbed).Run startRelay actions final := by
  constructor
  · apply run_guard_iff
    intro mm action flowing possible goes_on
    exact (keeps_going_iff flowing possible).mp goes_on
  · apply run_guard_iff
    intro mm action flowing possible undisturbed
    exact (keeps_going_iff flowing possible).mpr undisturbed

/-- The second read of the client comes in a batch that was selected after the first one was
handled. -/
def secondRead : List Action :=
  [.select [(.client, readable)], .handle (.bytes [1]) .wouldBlock,
    .select [(.client, readable)], .handle (.bytes [2]) .wouldBlock]

/-- The backend is ready for the output, but its socket is full again by the time of the
send. -/
def sendBlocks : List Action :=
  [.select [(.client, readable)], .handle (.bytes [1]) .wouldBlock,
    .select [(.backend, writable)], .handle .wouldBlock .wouldBlock]

/-- No socket error, end of file or full buffer is needed for the relay to end. -/
theorem relay_ends_early :
    relaying.Run startRelay secondRead (runActions startRelay secondRead) ∧
      (runActions startRelay secondRead).outcome = some .keyError ∧
      (runActions startRelay secondRead).pending .backend = [1] ∧
    relaying.Run startRelay sendBlocks (runActions startRelay sendBlocks) ∧
      (runActions startRelay sendBlocks).outcome = some .nothingSent ∧
      (runActions startRelay sendBlocks).closed .backend = true :=
  ⟨run_of_actions (by decide), rfl, rfl, run_of_actions (by decide), rfl, rfl⟩

/-! ## The destination of a read -/

def isHandle : Action → Bool
  | .select _ => false
  | .handle _ _ => true

theorem updated_data {mm : Relay} (flowing : Flowing mm) (sock : Endpoint) :
    ∃ key, (updateInterest (updateInterest mm .client) .backend).registered sock = some key ∧
      key.data = none := by
  obtain ⟨key, -, after⟩ := update_interest_registered flowing .client
  obtain ⟨keyBackend, -, afterBackend⟩ :=
    update_interest_registered (update_interest_flowing flowing .client) .backend
  rw [afterBackend, after]
  cases sock with
  | client => exact ⟨_, rfl, rfl⟩
  | backend => exact ⟨_, rfl, rfl⟩

/-- The registrations carry a destination until the first event has been handled. -/
theorem registered_data {actions : List Action} {mm : Relay}
    (ran : relaying.Run startRelay actions mm) (running : mm.outcome = none) (sock : Endpoint) :
    ∃ key, mm.registered sock = some key ∧ (key.data = none ↔ actions.any isHandle = true) := by
  generalize start : startRelay = first at ran
  induction ran with
  | stay =>
      subst start
      exact ⟨_, rfl, by simp⟩
  | @next before after actions action ran stepped ih =>
      have earlier := ih (step_running stepped)
      have flowing := (reachable_flowing ⟨first, actions, start.symm, ran⟩ (step_running stepped)).1
      obtain ⟨possible, rfl⟩ := stepped
      cases action with
      | select ready =>
          obtain ⟨key, registered, detached⟩ := earlier
          exact ⟨key, registered, by simpa [isHandle] using detached⟩
      | handle recv send =>
          obtain ⟨item, rest, -, popped, attached, step⟩ := handle_turn flowing possible
          generalize turn before (.handle recv send) = after at step running ⊢
          cases step with
          | readEnds _ _ _ ended => exact absurd running ended
          | writeEnds _ _ _ _ _ _ ended => exact absurd running ended
          | done middle final reads still writes goes_on =>
              obtain ⟨key, registered, detached⟩ :=
                updated_data (writes_flowing (reads_flowing popped attached reads still) writes
                  goes_on) sock
              exact ⟨key, registered, by simp [detached, isHandle]⟩

/-- The keys of a batch carry a destination exactly where no event was handled before the
batch was selected. -/
theorem selected_data {actions : List Action} {mm : Relay}
    (ran : relaying.Run startRelay actions mm) (running : mm.outcome = none)
    (ready : List (Endpoint × EventMask)) :
    ∀ item ∈ (collect mm ready).events, item.1.data = none ↔ actions.any isHandle = true := by
  intro item member
  obtain ⟨⟨sock, mask⟩, -, found⟩ := List.mem_filterMap.mp member
  obtain ⟨key, registered, rfl⟩ := Option.map_eq_some_iff.mp found
  obtain ⟨again, registeredAgain, detached⟩ := registered_data ran running sock
  obtain rfl := Option.some.inj (registered.symm.trans registeredAgain)
  exact detached

/-! ## Delivery before the end -/

/-- At the end of a file there is no output left for the other socket. -/
def EndsEmpty (mm : Relay) : Action → Prop
  | .select _ => True
  | .handle recv _ => ∀ item ∈ mm.events.head?, item.2.read = true → recv = .bytes [] →
      mm.pending item.1.fileobj.other = []

def DeliversFirst (mm : Relay) (action : Action) : Prop :=
  Undisturbed mm action ∧ EndsEmpty mm action

instance (mm : Relay) : ∀ action, Decidable (DeliversFirst mm action)
  | .select _ => .isTrue ⟨trivial, trivial⟩
  | .handle _ _ => inferInstanceAs (Decidable ((∀ item ∈ mm.events.head?, _) ∧ ∀ item ∈ _, _))

/-- A relay that has ended did so for a socket error, for its limit, or with all bytes of the
peer that closed accepted by the other one. -/
def EndedDelivered (mm : Relay) : Prop :=
  ∃ outcome, mm.outcome = some outcome ∧ (outcome = .socketError ∨ outcome = .bufferFull ∨
    ∃ source, outcome = .endOfFile source ∧ mm.accepted source.other = mm.received source)

theorem turn_ends_delivered {before after : Relay} {item : SelectorKey × EventMask}
    {recv : RecvAnswer} {send : SendAnswer} (flowing : Flowing before)
    (attached : item.1.data = none ∨ item.1.data = some item.1.fileobj.other)
    (undisturbed : UndisturbedTurn before item recv send)
    (empty : item.2.read = true → recv = .bytes [] → before.pending item.1.fileobj.other = [])
    (step : HandleStep before item.1 item.2 recv send after) (stopped : after.outcome ≠ none) :
    EndedDelivered after := by
  cases step with
  | readEnds _ reading step ended =>
      cases step with
      | nothing => exact absurd flowing.running ended
      | failed => exact ⟨.socketError, rfl, .inl rfl⟩
      | ended =>
          refine ⟨_, rfl, .inr (.inr ⟨item.1.fileobj, rfl, ?_⟩)⟩
          rw [finish_accepted, finish_received, flowing.streams, empty reading rfl, List.append_nil]
      | lost data some_data none_attached =>
          exact absurd none_attached (undisturbed.attached reading some_data)
      | overflow => exact ⟨.bufferFull, rfl, .inr (.inl rfl)⟩
      | appended => exact absurd flowing.running ended
  | writeEnds middle _ reads still writing step ended =>
      have on := reads_on attached reads still
      cases step with
      | empty => exact absurd still ended
      | failed => exact ⟨.socketError, rfl, .inl rfl⟩
      | blocked _ some_output would =>
          rw [on.own] at some_output
          have sends := undisturbed.sends writing on.goesOn some_output
          exact (would.elim sends.1 sends.2).elim
      | sent => exact absurd still ended
  | done middle final reads still writes goes_on =>
      have updated := update_interests
        (writes_flowing (reads_flowing flowing attached reads still) writes goes_on)
      exact absurd updated.1.running stopped

/-- A relay that has ended took its last step from a running state. -/
theorem ends_delivered {mm : Relay} (reachable : (relaying.restrict DeliversFirst).Reachable mm)
    (stopped : mm.outcome ≠ none) : EndedDelivered mm := by
  obtain ⟨start, actions, rfl, ran⟩ := reachable
  cases ran with
  | stay => exact absurd rfl stopped
  | @next before after actions action ran stepped =>
      obtain ⟨⟨undisturbed, empty⟩, possible, rfl⟩ := stepped
      have running := step_running ⟨possible, rfl⟩
      have flowing := restricted_flowing ⟨startRelay, actions, rfl, ran⟩ running
      cases action with
      | select ready => exact absurd running stopped
      | handle recv send =>
          obtain ⟨item, rest, batch, popped, attached, step⟩ := handle_turn flowing possible
          have head : item ∈ before.events.head? := by simp [batch]
          have alone := undisturbed item head
          exact turn_ends_delivered popped attached ⟨alone.attached, alone.sends⟩
            (empty item head) step stopped

theorem restricted_open {guard : Relay → Action → Prop} {mm : Relay}
    (reachable : (relaying.restrict guard).Reachable mm) {sock : Endpoint}
    (closed : mm.closed sock = true) : mm.outcome ≠ none := by
  intro running
  have opened := (restricted_flowing reachable running).opened sock
  exact absurd (closed.symm.trans opened) (by simp)

/-- A socket is closed with everything handed to it that was received from its peer, where
each file ends with empty output, unless the relay ended for a socket error, for its limit,
or because the peer on that socket closed first. -/
theorem closed_with_everything {mm : Relay} {source : Endpoint}
    (reachable : (relaying.restrict DeliversFirst).Reachable mm)
    (closed : mm.closed source.other = true) (noError : mm.outcome ≠ some .socketError)
    (noLimit : mm.outcome ≠ some .bufferFull)
    (reading : mm.outcome ≠ some (.endOfFile source.other)) :
    mm.accepted source.other = mm.received source := by
  obtain ⟨outcome, ended, kind⟩ := ends_delivered reachable (restricted_open reachable closed)
  rcases kind with rfl | rfl | ⟨closing, rfl, delivered⟩
  · exact absurd ended noError
  · exact absurd ended noLimit
  · obtain rfl : closing = source := by
      by_contra different
      rw [Endpoint.eq_other different] at ended
      exact reading ended
    exact delivered

/-- A file that ends with output left is cut off there. -/
theorem end_cuts_output {mm : Relay} {item : SelectorKey × EventMask} {send : SendAnswer}
    (flowing : Flowing mm) (head : item ∈ mm.events.head?) (reads : item.2.read = true)
    (left : mm.pending item.1.fileobj.other ≠ []) :
    (turn mm (.handle (.bytes []) send)).closed item.1.fileobj.other = true ∧
      (turn mm (.handle (.bytes []) send)).accepted item.1.fileobj.other ≠
        (turn mm (.handle (.bytes []) send)).received item.1.fileobj := by
  obtain ⟨rest, batch⟩ := List.head?_eq_some_iff.mp head
  have ended : turn mm (.handle (.bytes []) send) =
      finish { mm with events := rest } (.endOfFile item.1.fileobj) := by
    simp [turn, batch, handleEvent, reads, readReady]
  rw [ended, finish_accepted, finish_received]
  refine ⟨?_, ?_⟩
  · cases item.1.fileobj <;> rfl
  · intro delivered
    have whole := flowing.streams item.1.fileobj
    rw [← delivered] at whole
    exact left (List.self_eq_append_right.mp whole)

/-- The client sends a byte, the backend takes it, the client closes. -/
def takenThenClosed : List Action :=
  [.select [(.client, readable)], .handle (.bytes [1]) .wouldBlock,
    .select [(.backend, writable)], .handle .wouldBlock (.sent 1),
    .select [(.client, readable)], .handle (.bytes []) .wouldBlock]

/-- The client closes while the backend is slow. -/
def closedThenTaken : List Action :=
  [.select [(.client, readable)], .handle (.bytes [1]) .wouldBlock,
    .select [(.client, readable)], .handle (.bytes []) .wouldBlock]

theorem run_delivering {actions : List Action}
    (met : System.AllMeet turn (fun mm action => DeliversFirst mm action ∧ Possible mm action)
      startRelay actions) :
    (relaying.restrict DeliversFirst).Run startRelay actions (runActions startRelay actions) := by
  apply System.run_guarded _ met
  intro mm action permitted
  exact ⟨permitted.1, permitted.2, rfl⟩

theorem closed_with_everything_taken :
    (runActions startRelay takenThenClosed).accepted .backend =
      (runActions startRelay takenThenClosed).received .client := by
  apply @closed_with_everything (runActions startRelay takenThenClosed) .client
  · exact ⟨startRelay, takenThenClosed, rfl, run_delivering (by decide)⟩
  all_goals decide

theorem closed_with_output_left :
    relaying.Run startRelay closedThenTaken (runActions startRelay closedThenTaken) ∧
      (runActions startRelay closedThenTaken).outcome = some (.endOfFile .client) ∧
      (runActions startRelay closedThenTaken).closed .backend = true ∧
      (runActions startRelay closedThenTaken).received .client = [1] ∧
      (runActions startRelay closedThenTaken).accepted .backend = [] :=
  ⟨run_of_actions (by decide), rfl, rfl, rfl, rfl⟩

end XrdpConsole.ProxyLifetime
