import XrdpConsole.VncEvents
import XrdpConsole.VncParserInvariant

/-!
# The conversation with the VNC server

The module beside what its server has been asked and has answered. A server answers the
requests it has received with one update, which may take any time to arrive. While output
is not suppressed some request is waiting for its update, or an update is being parsed.
-/

namespace XrdpConsole.VncRequests

open XrdpConsole.Library
open XrdpConsole.Library.Program
open XrdpConsole.VncState
open XrdpConsole.VncLayout
open XrdpConsole.VncFramebuffer
open XrdpConsole.VncModule
open XrdpConsole.VncSession
open XrdpConsole.VncNegotiation
open XrdpConsole.VncExchange
open XrdpConsole.VncEvents
open XrdpConsole.VncParserInvariant

set_option autoImplicit false

/-! ## What the two parties know of each other -/

/-- `requested` counts the FramebufferUpdateRequests that the server has not answered, and
`flying` the requests that each update on its way answers. `replies` counts the replies to
come, `inForce` is the layout last announced, and `updated` holds once an update has been
consumed. -/
structure Conversation where
  v : Vnc
  requested : Nat
  flying : List Nat
  replies : Nat
  inForce : VncScreenLayout
  updated : Bool

def updateRequests (sent : List (List Byte)) : Nat :=
  sent.countP fun message => message.head? = some 3

def sizeRequests (sent : List (List Byte)) : Nat :=
  sent.countP fun message => message.head? = some 251

def isReply (rect : DesktopRect) : Bool := rect.extended && rect.x = 1

/-- A reply announces its layout where the resize has succeeded. -/
def announces (rect : DesktopRect) : Bool := !isReply rect || rect.y = 0

def lastAnnounced (layout : VncScreenLayout) (rects : List DesktopRect) : VncScreenLayout :=
  rects.foldl (fun layout rect => if announces rect then rect.layout else layout) layout

/-- An event of the session, or the server's answer to the requests received so far. -/
inductive Move where
  | event (event : Event) (answers : ServerAnswers)
  | answer (received : Nat)

def arrivesAt (v : Vnc) : Event → Bool
  | .poll => arrives v
  | _ => false

def announcedAt (v : Vnc) : Event → List DesktopRect
  | .poll => announced v
  | _ => []

/-- An event that consumes the rest of an update. -/
def completes (before : Vnc) (event : Event) (after : Vnc) : Bool :=
  (arrivesAt before event || before.framebufferParseState ≠ .waitMessageType) &&
    after.framebufferParseState = .waitMessageType

/-- A request is answered when its update begins to arrive. -/
def advance (before : Conversation) (event : Event) (after : Vnc) : Conversation :=
  let sent := (negotiation before.v).sent
  let sentAfter := (negotiation after).sent
  let rects := announcedAt before.v event
  { v := after
    requested := before.requested + (updateRequests sentAfter - updateRequests sent)
    flying := if arrivesAt before.v event then before.flying.tail else before.flying
    replies := before.replies - rects.countP isReply + (sizeRequests sentAfter - sizeRequests sent)
    inForce := lastAnnounced before.inForce rects
    updated := before.updated || completes before.v event after }

/-- The negotiation begins with a request, as the last thing of `lib_mod_connect`. -/
def startNegotiation (answers : ServerAnswers) : VncM Unit := do
  setResizeSupported .unknown
  Program.update (setResizeStatus .waitingForFirstUpdate)
  sendUpdateRequestForResizeStatus answers

def Started (c : Conversation) : Prop :=
  ∃ answers fresh, Connected fresh ∧ Returns (startNegotiation answers) fresh () c.v ∧
    c = { v := c.v
          requested :=
            updateRequests (negotiation c.v).sent - updateRequests (negotiation fresh).sent
          flying := []
          replies := 0
          inForce := c.v.serverLayout
          updated := false }

/-- The updates that arrive may also be ones that no request has asked for. -/
def conversation : System Conversation Move where
  initial := Started
  step before move after :=
    match move with
    | .event event answers =>
        GoesOn answers event before.v after.v ∧ after = advance before event after.v
    | .answer received => 0 < received ∧ received ≤ before.requested ∧
        after = { before with
          requested := before.requested - received
          flying := before.flying ++ [received] }

/-! ## The update requests of an event -/

section Requests

variable {p q : Negotiation}

@[simp] theorem update_requests_append (sent later : List (List Byte)) :
    updateRequests (sent ++ later) = updateRequests sent + updateRequests later :=
  List.countP_append ..

theorem update_requests_send (incremental x y cx cy : Int) :
    updateRequests (p.send (framebufferUpdateRequest incremental x y cx cy)).sent =
      updateRequests p.sent + 1 := by
  simp [Negotiation.send, updateRequests, update_request_head]

/-- The output stays suppressed or not, and a request is made if it is not. -/
def Asks (p q : Negotiation) : Prop :=
  q.suppressOutput = p.suppressOutput ∧ updateRequests p.sent ≤ updateRequests q.sent ∧
    (q.suppressOutput = 0 → updateRequests p.sent < updateRequests q.sent)

theorem asks_next : Asks p p.requestNext := by
  unfold Negotiation.requestNext
  split
  · refine ⟨rfl, ?_, fun _ => ?_⟩
    · rw [Negotiation.updateRequest, update_requests_send]
      exact Nat.le_succ _
    · rw [Negotiation.updateRequest, update_requests_send]
      exact Nat.lt_succ_self _
  · rename_i hidden
    exact ⟨rfl, Nat.le_refl _, fun visible => absurd visible hidden⟩

theorem asks_for_status : Asks p p.requestForStatus := by
  unfold Negotiation.requestForStatus
  split
  · refine ⟨rfl, ?_, fun _ => ?_⟩
    · rw [update_requests_send]
      exact Nat.le_succ _
    · rw [update_requests_send]
      exact Nat.lt_succ_self _
  split
  · refine ⟨rfl, ?_, fun _ => ?_⟩
    · rw [Negotiation.updateRequest, update_requests_send]
      exact Nat.le_succ _
    · rw [Negotiation.updateRequest, update_requests_send]
      exact Nat.lt_succ_self _
  · rename_i hidden
    exact ⟨rfl, Nat.le_refl _, fun visible => absurd visible hidden⟩

/-- Requests that are made later count as well. -/
theorem asks_after {middle : Negotiation} (suppress : middle.suppressOutput = p.suppressOutput)
    (sent : updateRequests p.sent ≤ updateRequests middle.sent) (asks : Asks middle q) :
    Asks p q := by
  obtain ⟨same, more, visible⟩ := asks
  refine ⟨same.trans suppress, Nat.le_trans sent more, fun shown => ?_⟩
  exact Nat.lt_of_le_of_lt sent (visible shown)

theorem resized_sent (resized : Resized p q) :
    q.suppressOutput = p.suppressOutput ∧ updateRequests p.sent ≤ updateRequests q.sent := by
  cases resized with
  | alike => exact ⟨rfl, Nat.le_refl _⟩
  | asked => exact ⟨rfl, by simp [askResize]⟩

theorem asks_first {answers : ServerAnswers} {rects : List DesktopRect}
    (first : FirstUpdate answers p rects q) : Asks p q := by
  cases first with
  | supported rect q _ resized =>
      obtain ⟨suppress, sent⟩ := resized_sent resized
      exact asks_after suppress sent asks_for_status
  | unsent => exact asks_after rfl (Nat.le_refl _) asks_for_status
  | unsupported => exact asks_after rfl (Nat.le_refl _) asks_for_status

theorem asks_confirm (rects : List DesktopRect) : Asks p (confirmUpdate p rects) := by
  unfold confirmUpdate
  split
  · apply asks_after _ _ asks_for_status
    · unfold confirmed
      split <;> rfl
    · unfold confirmed
      split <;> exact Nat.le_refl _
  · exact asks_for_status

theorem asks_steady (rects : List DesktopRect) : Asks p (p.steady rects).requestNext := by
  obtain ⟨client, server, layouts⟩ := @steady_layouts p rects
  rw [layouts]
  exact asks_after rfl (Nat.le_refl _) asks_next

/-- After a poll an update is being parsed, or a request has been made where one was due, or
nothing has begun or ended. -/
structure Polled (p : Negotiation) (starts : Bool) (q : Negotiation) : Prop where
  suppress : q.suppressOutput = p.suppressOutput
  sent : updateRequests p.sent ≤ updateRequests q.sent
  flows : q.parseState ≠ .waitMessageType ∨
    (q.suppressOutput = 0 → updateRequests p.sent < updateRequests q.sent) ∨
    starts = false ∧ q.parseState = p.parseState

theorem polled_of_asks {starts : Bool} (asks : Asks p q) : Polled p starts q :=
  ⟨asks.1, asks.2.1, .inr (.inl asks.2.2)⟩

theorem poll_flows {answers : ServerAnswers} {starts : Bool} {rects : List DesktopRect}
    (step : PollStep answers p starts rects q) : Polled p starts q := by
  cases step with
  | idle => exact ⟨rfl, Nat.le_refl _, .inr (.inr ⟨rfl, rfl⟩)⟩
  | begins _ => exact ⟨rfl, Nat.le_refl _, .inl (by simp)⟩
  | goesOn _ _ _ progress =>
      rcases progress with ⟨state, busy, rfl⟩ | rfl
      · obtain ⟨client, server, layouts⟩ := @steady_layouts p rects
        rw [layouts]
        exact ⟨rfl, Nat.le_refl _, .inl busy⟩
      · exact polled_of_asks (asks_steady rects)
  | steady => exact polled_of_asks (asks_steady rects)
  | first _ _ _ first => exact polled_of_asks (asks_first first)
  | confirm => exact polled_of_asks (asks_confirm rects)

/-- A call of the host leaves the parser alone, and makes a request where it shows output that
was suppressed. -/
theorem host_flows {before : Vnc} {event : Event} (step : HostStep before event q) :
    q.parseState = before.framebufferParseState ∧
      updateRequests (negotiation before).sent ≤ updateRequests q.sent ∧
      (q.suppressOutput = 0 → before.suppressOutput = 0 ∨
        updateRequests (negotiation before).sent < updateRequests q.sent) := by
  cases step with
  | input msg param1 param2 param3 param4 after adds =>
      obtain ⟨messages, -, reached⟩ := adds
      rw [reached]
      exact ⟨rfl, by simp, fun visible => .inl visible⟩
  | hidden suppress hides => exact ⟨rfl, Nat.le_refl _, fun visible => absurd visible hides⟩
  | shown =>
      refine ⟨rfl, ?_, fun _ => .inr ?_⟩
      · rw [Negotiation.updateRequest, update_requests_send]
        exact Nat.le_succ _
      · rw [Negotiation.updateRequest, update_requests_send]
        exact Nat.lt_succ_self _
  | resized width height monitors q resized =>
      obtain ⟨suppress, sent⟩ := resized_sent resized
      have state : q.parseState = before.framebufferParseState := by cases resized <;> rfl
      split
      · obtain ⟨same, more, -⟩ := @asks_for_status q
        refine ⟨?_, Nat.le_trans sent more, fun visible => .inl ?_⟩
        · rw [← state]
          unfold Negotiation.requestForStatus
          split
          · rfl
          split <;> rfl
        · exact (same.trans suppress).symm.trans visible
      · exact ⟨state, sent, fun visible => .inl (suppress.symm.trans visible)⟩
  | refused => exact ⟨rfl, Nat.le_refl _, fun visible => .inl visible⟩

end Requests

/-! ## The pipeline never stalls -/

/-- Some request waits for its update, sent or not. -/
def Unanswered (c : Conversation) : Prop := 0 < c.requested + c.flying.sum

def Flows (c : Conversation) : Prop :=
  c.v.suppressOutput = 0 → Unanswered c ∨ c.v.framebufferParseState ≠ .waitMessageType

theorem flows_answer {c : Conversation} {received : Nat} (flows : Flows c)
    (asked : received ≤ c.requested) :
    Flows { c with requested := c.requested - received, flying := c.flying ++ [received] } := by
  intro visible
  apply (flows visible).imp_left
  intro unanswered
  simp only [Unanswered, List.sum_append, List.sum_singleton] at unanswered ⊢
  omega

theorem flows_poll {before : Conversation} {after : Vnc} {answers : ServerAnswers}
    (flows : Flows before) (goes : GoesOn answers .poll before.v after) :
    Flows (advance before .poll after) := by
  have returned : Returns (transCheckWaitObjs answers) before.v () after := by
    rcases goes with returned | ⟨host, -⟩
    · exact returned
    · exact absurd rfl host
  have polled := poll_flows (ensures_returns (poll_step answers before.v) rfl returned)
  intro visible
  have suppress : before.v.suppressOutput = 0 := polled.suppress.symm.trans visible
  rcases polled.flows with parsing | asked | ⟨waiting, same⟩
  · exact .inr parsing
  · have more := asked visible
    refine .inl ?_
    simp only [Unanswered, advance]
    omega
  · apply (flows suppress).imp
    · intro unanswered
      simp only [Unanswered, advance, arrivesAt, waiting] at unanswered ⊢
      simp only [Bool.false_eq_true, if_false]
      omega
    · exact fun parsing => fun here => parsing (same.symm.trans here)

theorem flows_host {before : Conversation} {event : Event} {after : Vnc} {answers : ServerAnswers}
    (flows : Flows before) (host : event ≠ .poll) (goes : GoesOn answers event before.v after) :
    Flows (advance before event after) := by
  obtain ⟨state, sent, shows⟩ := host_flows (host_step answers host goes)
  have idle : arrivesAt before.v event = false := by
    cases event with
    | poll => exact absurd rfl host
    | _ => rfl
  intro visible
  rcases shows visible with suppress | asked
  · apply (flows suppress).imp
    · intro unanswered
      simp only [Unanswered, advance, idle] at unanswered ⊢
      simp only [Bool.false_eq_true, if_false]
      omega
    · exact fun parsing => fun here => parsing (state.symm.trans here)
  · refine .inl ?_
    simp only [Unanswered, advance]
    omega

/-- The negotiation a module starts with, after its first request. -/
def startOf (p : Negotiation) : Negotiation :=
  ({ p with resizeSupported := .unknown, resizeStatus := .waitingForFirstUpdate } :
    Negotiation).send (framebufferUpdateRequest 0 0 0 1 1)

theorem start_negotiation {answers : ServerAnswers} {fresh v : Vnc}
    (returned : Returns (startNegotiation answers) fresh () v) :
    negotiation v = startOf (negotiation fresh) := by
  obtain ⟨_, middle, ran, rest⟩ := (returns_bind _ _ _ _ _).mp returned
  obtain rfl := (returns_update _ _ _ _).mp ran
  obtain ⟨_, middle, ran, rest⟩ := (returns_bind _ _ _ _ _).mp rest
  obtain rfl := (returns_update _ _ _ _).mp ran
  exact ensures_returns (request_status answers _) rfl rest

theorem flows_start {c : Conversation} (started : Started c) : Flows c := by
  obtain ⟨answers, fresh, -, returned, conversed⟩ := started
  intro _
  rw [conversed]
  refine .inl ?_
  simp only [Unanswered, List.sum_nil]
  rw [start_negotiation returned, startOf, update_requests_send]
  change 0 < updateRequests (negotiation fresh).sent + 1 - updateRequests (negotiation fresh).sent + 0
  omega

/-- In every state that a conversation reaches with its output shown, some request waits for
its update or an update is being parsed. -/
theorem pipeline_never_stalls {c : Conversation} (reachable : conversation.Reachable c)
    (visible : c.v.suppressOutput = 0) :
    Unanswered c ∨ c.v.framebufferParseState ≠ .waitMessageType := by
  have flows : Flows c := by
    apply System.reachable_invariant Flows _ _ reachable
    · exact fun start started => flows_start started
    · intro before move after flows stepped
      cases move with
      | answer received =>
          obtain ⟨-, asked, rfl⟩ := stepped
          exact flows_answer flows asked
      | event event answers =>
          obtain ⟨goes, advanced⟩ := stepped
          rw [advanced]
          by_cases poll : event = .poll
          · subst poll
            exact flows_poll flows goes
          · exact flows_host flows poll goes
  exact flows visible

/-! ## Small conversations -/

def converse (c : Conversation) : Move → Conversation
  | .event event answers => advance c event (runEvent answers event c.v).2
  | .answer received =>
      { c with
        requested := c.requested - received
        flying := c.flying ++ [received] }

def Meets (c : Conversation) : Move → Prop
  | .event event answers => (runEvent answers event c.v).1.isOk = true
  | .answer received => 0 < received ∧ received ≤ c.requested

instance (c : Conversation) : ∀ move, Decidable (Meets c move)
  | .event _ _ => inferInstanceAs (Decidable (_ = true))
  | .answer _ => inferInstanceAs (Decidable (_ ∧ _))

theorem meets_step {c : Conversation} {move : Move} (meets : Meets c move) :
    conversation.step c move (converse c move) := by
  cases move with
  | answer received => exact ⟨meets.1, meets.2, rfl⟩
  | event event answers =>
      refine ⟨.inl ?_, rfl⟩
      have returned : (runEvent answers event c.v).1.isOk = true := meets
      cases ran : runEvent answers event c.v with
      | mk outcome after =>
          rw [ran] at returned
          cases outcome with
          | ok value => exact ran.trans (by simp [converse, advance, ran])
          | error error => exact absurd returned (by simp [Except.isOk, Except.toBool])

/-- A module connected at 4 × 4 pixels, with its first request sent. -/
def started (sock : List (List Byte)) : Conversation where
  v := (startNegotiation willing (connected sock)).2
  requested := 1
  flying := []
  replies := 0
  inForce := initSingleScreenLayout 4 4
  updated := false

theorem started_initial (sock : List (List Byte)) : Started (started sock) :=
  ⟨willing, connected sock, ⟨rfl, rfl, rfl, rfl, by simp [connected], by simp [connected], rfl, rfl⟩,
    rfl, rfl⟩

/-- An empty first update, after which the output is hidden and shown again. -/
def shownAgain : List Move :=
  [.answer 1, .event .poll willing, .event (.suppressOutput 1) willing, .answer 1,
    .event (.suppressOutput 0) willing]

theorem pipeline_never_stalls_shown_again :
    Unanswered (shownAgain.foldl converse (started [[0], [0, 0, 0]])) ∨
      (shownAgain.foldl converse (started [[0], [0, 0, 0]])).v.framebufferParseState ≠
        .waitMessageType := by
  apply pipeline_never_stalls
  · refine ⟨_, shownAgain, started_initial [[0], [0, 0, 0]], ?_⟩
    exact System.run_guarded (fun _ _ meets => meets_step meets) (by decide +kernel)
  · decide +kernel

end XrdpConsole.VncRequests
