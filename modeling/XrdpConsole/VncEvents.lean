import XrdpConsole.VncExchange

/-!
# One event of the negotiation

Every success of a poll is one of the cases of `PollStep`, and every call of the host one of
`HostStep`. What holds along a session is derived from these.
-/

namespace XrdpConsole.VncEvents

open XrdpConsole.Library
open XrdpConsole.Library.Program
open XrdpConsole.VncState
open XrdpConsole.VncLayout
open XrdpConsole.VncFramebuffer
open XrdpConsole.VncIncremental
open XrdpConsole.VncModule
open XrdpConsole.VncSession
open XrdpConsole.VncNegotiation
open XrdpConsole.VncExchange

set_option autoImplicit false

section Events

variable (answers : ServerAnswers) {p : Negotiation}

/-! ## The incremental parser -/

/-- The parser goes on with the update, or has finished it. -/
def InUpdate (p q : Negotiation) : Prop :=
  (∃ state, state ≠ .waitMessageType ∧ q = { p with parseState := state }) ∨
    q = { p.requestNext with parseState := .waitMessageType }

theorem awaits {state : VncFramebufferParseState} (headerSize : Nat) :
    Ensures (fun v => negotiation v = p) (VncIncremental.await state headerSize)
      (fun _ v => negotiation v = { p with parseState := state }) AnyError := by
  apply at_update
  rintro v rfl
  rfl

theorem goes_on {state : VncFramebufferParseState} (headerSize : Nat)
    (busy : state ≠ .waitMessageType) :
    Ensures (fun v => negotiation v = p) (VncIncremental.await state headerSize)
      (fun _ v => InUpdate p (negotiation v)) AnyError := by
  apply ensures_conclude (awaits headerSize)
  exact fun _ v here => .inl ⟨state, busy, here⟩

theorem finishes_update :
    Ensures (fun v => negotiation v = p) (finishUpdate answers)
      (fun _ v => InUpdate p (negotiation v)) AnyError := by
  apply holds_any
  intro bytes
  apply ensures_bind (holds_call bytes rfl)
  intro _
  apply ensures_bind (holds_request_next answers bytes)
  intro _
  apply ensures_conclude (ensures_begin (fun _ holds => holds.1) (awaits 1))
  exact fun _ v here => .inr here

theorem finishes_rect :
    Ensures (fun v => negotiation v = p) (finishRect answers)
      (fun _ v => InUpdate p (negotiation v)) AnyError := by
  apply at_read
  intro v _
  apply ensures_bind (at_update (q := p) ?_)
  · intro _
    apply ensures_ite
    · exact fun _ => goes_on 12 (by decide)
    · exact fun _ => finishes_update answers
  · rintro v rfl
    rfl

theorem schedules_raw :
    Ensures (fun v => negotiation v = p) scheduleRaw (fun _ v => InUpdate p (negotiation v))
      AnyError := by
  apply at_read
  intro v _
  apply ensures_ite
  · exact fun _ => ensures_stop trivial
  intro _
  apply ensures_ite
  · exact fun _ => ensures_stop trivial
  · exact fun _ => goes_on _ (by decide)

theorem header_data (data : List Byte) :
    Ensures (fun v => negotiation v = p) (updateHeaderData answers data)
      (fun _ v => InUpdate p (negotiation v)) AnyError := by
  apply ensures_bind (at_update (q := p) ?_)
  · intro _
    apply holds_any
    intro bytes
    apply ensures_bind (holds_call bytes rfl)
    intro _
    apply forget_bytes
    apply ensures_ite
    · exact fun _ => finishes_update answers
    · exact fun _ => goes_on 12 (by decide)
  · rintro v rfl
    rfl

theorem raw_data (data : List Byte) :
    Ensures (fun v => negotiation v = p) (rawData answers data)
      (fun _ v => InUpdate p (negotiation v)) AnyError := by
  apply at_read
  intro v _
  apply ensures_ite
  · exact fun _ => ensures_stop trivial
  intro _
  apply holds_any
  intro bytes
  apply ensures_bind (holds_call bytes rfl)
  intro _
  apply forget_bytes
  apply ensures_bind (at_update (q := p) ?_)
  · intro _
    apply ensures_ite
    · exact fun _ => schedules_raw
    · exact fun _ => finishes_rect answers
  · rintro v rfl
    rfl

/-- A rectangle that is read at once is finished at once. -/
theorem whole_rect {program : VncM Unit} {q : Negotiation} {payload rest : List Byte}
    (reads : Ensures (Holds p payload) program (fun _ => Holds q rest) AnyError) :
    Ensures (Holds p payload)
      (do
        program
        finishRect answers)
      (fun _ v => InUpdate q (negotiation v)) AnyError := by
  apply ensures_bind reads
  exact fun _ => forget_bytes (finishes_rect answers)

theorem rect_header_data (data payload : List Byte) :
    Ensures (Holds p payload) (rectHeaderData answers data)
      (fun _ v => InUpdate (p.steady (desktopRect data payload).toList) (negotiation v))
      AnyError := by
  apply ensures_through (fun _ => Holds p payload)
  · exact holds_update (fun v here => here) fun _ => rfl
  · intro _
    apply ensures_ite
    · exact fun _ => ensures_stop trivial
    intro _
    unfold desktopRect
    generalize inUint32Be data 8 = encoding
    apply ensures_ite
    · rintro rfl
      apply ensures_through (fun _ => Holds p payload)
      · exact holds_update (fun v here => here) fun _ => rfl
      · intro _
        apply forget_bytes
        apply ensures_ite
        · exact fun _ => finishes_rect answers
        · exact fun _ => schedules_raw
    intro _
    apply ensures_ite
    · rintro rfl
      exact whole_rect answers (reads_copy payload _ _ _ _)
    intro _
    apply ensures_ite
    · rintro rfl
      exact whole_rect answers (reads_cursor payload _ _ _ _)
    intro _
    apply ensures_ite
    · rintro rfl
      exact whole_rect answers (holds_desktop_size answers payload _ _)
    intro _
    apply ensures_ite
    · rintro rfl
      exact whole_rect answers (holds_extended_size answers payload _ _ _ _)
    · intro _
      apply ensures_bind (holds_call payload rfl)
      exact fun _ => ensures_stop trivial

/-! ## Polls -/

/-- The data received is a part of an update that has begun. -/
def MidUpdate (p : Negotiation) : Prop :=
  p.incrementalFramebuffer = true ∧ p.parseState ≠ .waitMessageType

instance (p : Negotiation) : Decidable (MidUpdate p) := inferInstanceAs (Decidable (_ ∧ _))

/-- The message type of an update is received. -/
def arrivesIn (p : Negotiation) (data : List Byte) : Bool :=
  !decide (MidUpdate p) && inUint8 data 0 = rfbS2cFramebufferUpdate

/-- The desktop rectangles that are read after `data`, of the bytes that follow. -/
def announcedIn (p : Negotiation) (data rest : List Byte) : List DesktopRect :=
  if MidUpdate p then
    if p.parseState = .waitRectHeader then (desktopRect data rest).toList else []
  else if p.incrementalFramebuffer = true ∧ p.resizeStatus = .done ∧ data.length = 1 ∧
      inUint8 data 0 = rfbS2cFramebufferUpdate then
    []
  else if inUint8 data 0 = rfbS2cFramebufferUpdate then
    updateRects p.serverBpp rest
  else
    []

inductive PollStep (p : Negotiation) : Bool → List DesktopRect → Negotiation → Prop where
  | idle : PollStep p false [] p
  | begins : p.resizeStatus = .done →
      PollStep p true [] { p with parseState := .waitUpdateHeader }
  | goesOn (rects : List DesktopRect) (q : Negotiation) : MidUpdate p →
      InUpdate (p.steady rects) q → PollStep p false rects q
  | steady (rects : List DesktopRect) : p.resizeStatus = .done →
      PollStep p true rects (p.steady rects).requestNext
  | first (rects : List DesktopRect) (q : Negotiation) : p.resizeStatus = .waitingForFirstUpdate →
      FirstUpdate answers p rects q → PollStep p true rects q
  | confirm (rects : List DesktopRect) : p.resizeStatus = .waitingForResizeConfirm →
      PollStep p true rects (confirmUpdate p rects)

theorem idle_palette (bytes : List Byte) :
    Ensures (Holds p bytes) libPaletteUpdate (fun _ v => negotiation v = p) AnyError := by
  apply ensures_bind (reads_bytes bytes 5)
  intro header
  apply ensures_given
  intro _
  apply ensures_ite
  · exact fun _ => ensures_stop trivial
  intro _
  apply ensures_bind (reads_bytes _ _)
  intro body
  apply ensures_given
  intro _
  apply ensures_through (fun _ => Holds p _)
  · exact holds_update (fun v here => here) fun _ => rfl
  intro _
  apply ensures_bind (holds_call _ rfl)
  intro _
  apply holds_read
  intro v _
  apply ensures_bind (holds_call _ rfl)
  intro _
  apply ensures_conclude (holds_call _ rfl)
  exact fun _ v holds => holds.1

theorem idle_clip (bytes : List Byte) :
    Ensures (Holds p bytes) (vncClipProcessRfbData answers) (fun _ v => negotiation v = p)
      AnyError := by
  apply ensures_bind (reads_bytes bytes 7)
  intro header
  apply ensures_given
  intro _
  apply holds_read
  intro v _
  apply ensures_ite
  · intro _
    apply ensures_conclude (reads_skip _ _)
    exact fun _ v holds => holds.1
  intro _
  split
  · exact ensures_stop trivial
  apply ensures_bind (reads_bytes _ _)
  intro data
  apply ensures_given
  intro _
  apply ensures_conclude (holds_call _ rfl)
  exact fun _ v holds => holds.1

/-- A message that the blocking parsers handle. -/
theorem message_step (data rest : List Byte) (between : ¬MidUpdate p)
    (blocking : ¬(p.incrementalFramebuffer = true ∧ p.resizeStatus = .done ∧ data.length = 1 ∧
      inUint8 data 0 = rfbS2cFramebufferUpdate)) :
    Ensures (Holds p rest) (libModProcessMessage answers data)
      (fun _ v => PollStep answers p (arrivesIn p data) (announcedIn p data rest) (negotiation v))
      AnyError := by
  refine holds_read fun v here => ?_
  subst here
  unfold arrivesIn announcedIn
  rw [if_neg between, if_neg blocking]
  by_cases update : inUint8 data 0 = rfbS2cFramebufferUpdate
  · simp only [update, between, decide_false, decide_true, Bool.not_false, Bool.and_true, if_true]
    cases status : v.resizeStatus with
    | waitingForFirstUpdate =>
        apply ensures_conclude (first_update answers rest)
        exact fun _ _ first => .first _ _ status first
    | waitingForResizeConfirm =>
        apply ensures_conclude (confirm_update answers rest)
        intro _ _ here
        rw [here]
        exact .confirm _ status
    | done =>
        apply ensures_conclude (holds_update_steady answers rest)
        intro _ _ here
        rw [here]
        exact .steady _ status
  · simp only [update, decide_false, Bool.and_false, if_false]
    have idle : ∀ {program : VncM Unit},
        Ensures (Holds (negotiation v) rest) program (fun _ w => negotiation w = negotiation v)
          AnyError →
        Ensures (Holds (negotiation v) rest) program
          (fun _ w => PollStep answers (negotiation v) false [] (negotiation w)) AnyError := by
      intro program kept
      apply ensures_conclude kept
      intro _ w here
      rw [here]
      exact .idle
    apply ensures_ite
    · exact fun _ => idle (idle_palette rest)
    intro _
    apply ensures_ite
    · exact fun _ => idle (ensures_conclude (holds_call rest rfl) fun _ _ holds => holds.1)
    intro _
    apply ensures_ite
    · exact fun _ => idle (idle_clip answers rest)
    · exact fun _ => idle (ensures_conclude (holds_call rest rfl) fun _ _ holds => holds.1)

theorem mid_update_data (v : Vnc) (data rest : List Byte) (mid : MidUpdate (negotiation v)) :
    Ensures (Holds (negotiation v) rest) (libFramebufferIncrementalData answers data)
      (fun _ w => PollStep answers (negotiation v) (arrivesIn (negotiation v) data)
        (announcedIn (negotiation v) data rest) (negotiation w)) AnyError := by
  apply holds_read
  intro w same
  have state : w.framebufferParseState = v.framebufferParseState :=
    congrArg Negotiation.parseState same
  have arrives : arrivesIn (negotiation v) data = false := by simp [arrivesIn, mid]
  rw [state, arrives]
  unfold announcedIn
  rw [if_pos mid]
  cases parse : v.framebufferParseState with
  | waitMessageType => exact absurd parse mid.2
  | waitUpdateHeader =>
      rw [if_neg (by simp [negotiation, parse])]
      apply ensures_conclude (forget_bytes (header_data answers data))
      exact fun _ _ reached => .goesOn [] _ mid reached
  | waitRectHeader =>
      rw [if_pos (show (negotiation v).parseState = .waitRectHeader from parse)]
      apply ensures_conclude (rect_header_data answers data rest)
      exact fun _ _ reached => .goesOn _ _ mid reached
  | waitRawData =>
      rw [if_neg (by simp [negotiation, parse])]
      apply ensures_conclude (forget_bytes (raw_data answers data))
      exact fun _ _ reached => .goesOn [] _ mid reached

theorem process_data (v : Vnc) (data rest : List Byte) :
    Ensures (Holds (negotiation v) rest) (processData answers v data)
      (fun _ w => PollStep answers (negotiation v) (arrivesIn (negotiation v) data)
        (announcedIn (negotiation v) data rest) (negotiation w)) AnyError := by
  apply ensures_ite
  · exact fun mid => mid_update_data answers v data rest mid
  intro between
  apply ensures_ite
  · intro steady
    apply forget_bytes
    apply ensures_conclude (awaits 3)
    intro _ w here
    have waits : (negotiation v).incrementalFramebuffer = true ∧
        (negotiation v).resizeStatus = .done ∧ data.length = 1 ∧
        inUint8 data 0 = rfbS2cFramebufferUpdate := steady
    rw [here, arrivesIn, announcedIn, if_neg (show ¬MidUpdate (negotiation v) from between),
      if_pos waits]
    have arrives : (!decide (MidUpdate (negotiation v)) &&
        decide (inUint8 data 0 = rfbS2cFramebufferUpdate)) = true := by
      simp [steady.2.2.2, show ¬MidUpdate (negotiation v) from between]
    rw [arrives]
    exact .begins steady.2.1
  · exact fun blocking => message_step answers data rest between blocking

/-- The data received so far, and the socket after it. -/
def received (v : Vnc) : List Byte × List (List Byte) :=
  let toRead := (v.trans.headerSize + 2 ^ 32 - v.trans.inData.length) % 2 ^ 32
  let taken := if toRead > 0 then takeChunk toRead v.trans.sock else ([], v.trans.sock)
  (v.trans.inData ++ taken.1, taken.2)

/-- What a poll hands to `lib_data_in`, and the bytes that follow on the socket. -/
def takesIn (v : Vnc) : Option (List Byte × List Byte) :=
  if transCanRecv v.trans.sock = true ∧ (received v).1.length = v.trans.headerSize then
    some ((received v).1, (received v).2.flatten)
  else
    none

/-- A poll takes in the message type of an update. -/
def arrives (v : Vnc) : Bool :=
  match takesIn v with
  | some (data, _) => arrivesIn (negotiation v) data
  | none => false

/-- The desktop rectangles a poll reads. -/
def announced (v : Vnc) : List DesktopRect :=
  match takesIn v with
  | some (data, rest) => announcedIn (negotiation v) data rest
  | none => []

theorem data_in_step {p : Negotiation} (data rest : List Byte) :
    Ensures (fun v => Holds p rest v ∧ v.trans.inData = data) (libDataIn answers)
      (fun _ v => PollStep answers p (arrivesIn p data) (announcedIn p data rest) (negotiation v))
      AnyError := by
  apply ensures_through (fun _ v => Holds p rest v ∧ v.trans.inData = data)
  · exact ensures_update fun v received => received
  intro _
  apply ensures_read_bind
  rintro v ⟨⟨rfl, content⟩, rfl⟩
  have start : ∀ state, state = v → Holds (negotiation v) rest state := by
    rintro _ rfl
    exact ⟨rfl, content⟩
  apply ensures_begin start
  apply ensures_bind (process_data answers v _ rest)
  intro _
  exact ensures_update fun _ step => step

theorem receive_step (before : Vnc) (readable : transCanRecv before.trans.sock = true) :
    Ensures (fun v => v = before) (transReceive answers)
      (fun _ v => PollStep answers (negotiation before) (arrives before) (announced before)
        (negotiation v)) AnyError := by
  apply ensures_read_bind
  rintro v rfl
  apply ensures_ite
  · intro _
    apply ensures_through (fun _ _ => True)
    · exact ensures_update fun _ _ => trivial
    · exact fun _ => ensures_stop trivial
  intro _
  apply ensures_through (fun _ w => Holds (negotiation v) (received v).2.flatten w ∧
    w.trans.inData = (received v).1 ∧ w.trans.headerSize = v.trans.headerSize)
  · apply ensures_only_if
    · intro some
      apply ensures_read_bind
      rintro w rfl
      apply ensures_ite
      · intro _
        apply ensures_through (fun _ _ => True)
        · exact ensures_update fun _ _ => trivial
        · exact fun _ => ensures_stop trivial
      · intro _
        apply ensures_update
        rintro u rfl
        have taken : (received u).1 = u.trans.inData ++ (takeChunk ((u.trans.headerSize + 2 ^ 32 -
            u.trans.inData.length) % 2 ^ 32) u.trans.sock).1 := by
          simp only [received, some, if_true]
        have left : (received u).2 = (takeChunk ((u.trans.headerSize + 2 ^ 32 -
            u.trans.inData.length) % 2 ^ 32) u.trans.sock).2 := by
          simp only [received, some, if_true]
        rw [taken, left]
        exact ⟨⟨rfl, rfl⟩, rfl, rfl⟩
    · rintro none w rfl
      have taken : received w = (w.trans.inData, w.trans.sock) := by
        simp only [received]
        rw [if_neg none, List.append_nil]
      rw [taken]
      exact ⟨⟨rfl, rfl⟩, rfl, rfl⟩
  intro _
  apply ensures_read_bind
  rintro w ⟨holds, data, size⟩
  apply ensures_only_if
  · intro complete
    have taken : takesIn v = some ((received v).1, (received v).2.flatten) := by
      rw [data] at complete
      exact if_pos ⟨readable, complete⟩
    simp only [arrives, announced, taken]
    apply ensures_always
    have start : ∀ state, state = w → Holds (negotiation v) (received v).2.flatten state ∧
        state.trans.inData = (received v).1 := fun _ same => same ▸ ⟨holds, data⟩
    exact ensures_begin start (data_in_step answers _ _)
  · rintro incomplete _ rfl
    have taken : takesIn v = none := by
      rw [data] at incomplete
      exact if_neg fun both => incomplete both.2
    simp only [arrives, announced, taken, holds.1]
    exact .idle

theorem poll_step (before : Vnc) :
    Ensures (fun v => v = before) (transCheckWaitObjs answers)
      (fun _ v => PollStep answers (negotiation before) (arrives before) (announced before)
        (negotiation v)) AnyError := by
  apply ensures_read_bind
  rintro v rfl
  apply ensures_ite
  · exact fun _ => ensures_stop trivial
  intro _
  apply ensures_through (fun _ w => PollStep answers (negotiation v) (arrives v) (announced v)
    (negotiation w))
  · apply ensures_ite
    · exact receive_step answers v
    · intro nothing
      apply ensures_update
      rintro w rfl
      have none_taken : takesIn w = none := by simp [takesIn, nothing]
      simp only [arrives, announced, none_taken]
      exact .idle
  · intro _
    apply ensures_only_if
    · intro _
      apply ensures_through (fun _ _ => True)
      · exact ensures_update fun _ _ => trivial
      · exact fun _ => ensures_stop trivial
    · exact fun _ _ step => step

/-! ## Calls of the host -/

/-- Messages that are no SetDesktopSize are sent, and nothing else changes. -/
def Adds (before after : Vnc) : Prop :=
  ∃ messages : List (List Byte), (∀ message ∈ messages, message.head? ≠ some 251) ∧
    negotiation after =
      { negotiation before with sent := (negotiation before).sent ++ messages }

theorem adds_of_same {before after : Vnc} (same : negotiation after = negotiation before) :
    Adds before after := ⟨[], by simp, by rw [same, List.append_nil]⟩

theorem adds_refl (v : Vnc) : Adds v v := adds_of_same rfl

theorem adds_trans (first second third : Vnc) (left : Adds first second)
    (right : Adds second third) : Adds first third := by
  obtain ⟨messages, plain, reached⟩ := left
  obtain ⟨later, plainLater, final⟩ := right
  refine ⟨messages ++ later, ?_, ?_⟩
  · intro message member
    exact (List.mem_append.mp member).elim (plain message) (plainLater message)
  · rw [final, reached, List.append_assoc]

theorem adds_send {message : List Byte} (plain : message.head? ≠ some 251) :
    Relates Adds (libSendCopy answers message) := by
  intro before
  have outcome := send_copy_sent answers message before
  generalize libSendCopy answers message before = result at outcome
  cases outcome with
  | sent =>
      refine ⟨[message], by simpa using plain, ?_⟩
      rw [negotiation_send]
      rfl
  | unsent _ _ _ _ same => exact adds_of_same same

theorem key_event_plain (down : Bool) (key : Int) :
    (keyEventMessage down key).head? ≠ some 251 := by
  rw [show (keyEventMessage down key).head? = some 4 from rfl]
  decide

theorem pointer_event_plain (rest : List Byte) :
    (outUint8 rfbC2sPointerEvent ++ rest).head? ≠ some 251 := by
  rw [show (outUint8 rfbC2sPointerEvent ++ rest).head? = some 5 from rfl]
  decide

theorem update_request_head (incremental x y cx cy : Int) :
    (framebufferUpdateRequest incremental x y cx cy).head? = some 3 := rfl

theorem update_request_plain (incremental x y cx cy : Int) :
    (framebufferUpdateRequest incremental x y cx cy).head? ≠ some 251 := by
  rw [update_request_head]
  decide

theorem adds_key_event (down : Bool) (key : Int) : Relates Adds (keyEvent answers down key) := by
  apply relates_bind adds_trans (relates_read adds_refl _)
  intro v
  apply relates_bind adds_trans
  · apply relates_only_if adds_refl
    apply relates_bind adds_trans (relates_attempt (adds_send answers (key_event_plain _ _)))
    exact fun _ => relates_pure adds_refl ()
  · intro _
    apply relates_always adds_trans (adds_send answers (key_event_plain down key))
    intro state
    apply adds_of_same
    split <;> rfl

theorem adds_mouse_event (msg param1 param2 : Int) :
    Relates Adds (mouseEvent answers msg param1 param2) := by
  refine relates_bind adds_trans (relates_update ?_) fun _ => ?_
  · exact fun _ => adds_of_same rfl
  apply relates_bind adds_trans (relates_read adds_refl _)
  intro state
  simp only [List.append_assoc]
  exact adds_send answers (pointer_event_plain _)

theorem adds_call {made : ServerCall} (silent : sentMessage made = none) :
    Relates Adds (call made) := by
  apply relates_update
  intro v
  apply adds_of_same
  simp [negotiation, silent]

theorem adds_channel_event (param1 param2 : Int) (param3 : Option (List Byte)) (param4 : Int) :
    Relates Adds (channelEvent answers param1 param2 param3 param4) := by
  apply relates_bind adds_trans (relates_read adds_refl _)
  intro clipChanid
  cases param3 with
  | none => exact relates_stop adds_refl _
  | some data =>
      apply relates_ite (relates_stop adds_refl _)
      apply relates_only_if adds_refl
      apply relates_bind adds_trans (adds_call rfl)
      exact fun _ => relates_only_if adds_refl (relates_stop adds_refl _)

theorem adds_mod_event (msg param1 param2 : Int) (param3 : Option (List Byte)) (param4 : Int) :
    Relates Adds (libModEvent answers msg param1 param2 param3 param4) := by
  apply relates_bind adds_trans (relates_read adds_refl _)
  intro v
  apply relates_ite (adds_channel_event answers param1 param2 param3 param4)
  apply relates_ite
  · exact relates_only_if adds_refl (adds_key_event answers _ _)
  apply relates_ite
  · exact adds_mouse_event answers msg param1 param2
  · exact relates_only_if adds_refl (adds_send answers (update_request_plain _ _ _ _ _))

/-- The layout that `init_client_layout` makes of a request. -/
def requestedLayout (multimonConfigured : Bool) (width height : Int) (monitors : List MonitorInfo) :
    VncScreenLayout :=
  if multimonConfigured = false ∨ monitors.length < 1 then
    initSingleScreenLayout width height
  else
    { totalWidth := width
      totalHeight := height
      s := monitors.zipIdx.map fun (monitor, i) =>
        { id := i
          x := monitor.left
          y := monitor.top
          width := monitor.right - monitor.left + 1
          height := monitor.bottom - monitor.top + 1
          flags := 0 } }

/-- The session goes on after an event: the host ignores the errors of its calls as long as
the connection is not at fault. -/
def GoesOn (event : Event) (before after : Vnc) : Prop :=
  Returns (runEvent answers event) before () after ∨
    event ≠ .poll ∧ ∃ error, runEvent answers event before = (.error error, after) ∧
      error ≠ .transDown ∧ error ≠ .sendFailed

inductive HostStep (before : Vnc) : Event → Negotiation → Prop where
  | input (msg param1 param2 : Int) (param3 : Option (List Byte)) (param4 : Int) (after : Vnc) :
      Adds before after →
      HostStep before (.modEvent msg param1 param2 param3 param4) (negotiation after)
  | hidden (suppress : Int) : suppress ≠ 0 →
      HostStep before (.suppressOutput suppress)
        { negotiation before with suppressOutput := suppress }
  | shown : HostStep before (.suppressOutput 0)
      (({ negotiation before with suppressOutput := 0 } : Negotiation).send
        ((negotiation before).updateRequest 0))
  | resized (width height : Int) (monitors : List MonitorInfo) (q : Negotiation) :
      Resized { negotiation before with
        clientLayout := requestedLayout before.multimonConfigured width height monitors } q →
      HostStep before (.monitorResize width height monitors)
        (if q.resizeStatus = .waitingForResizeConfirm then q.requestForStatus else q)
  | refused (width height : Int) (monitors : List MonitorInfo) :
      vncScreenLayoutsEqual before.serverLayout
        (requestedLayout before.multimonConfigured width height monitors) = false →
      before.resizeSupported ≠ .supported →
      HostStep before (.monitorResize width height monitors)
        { negotiation before with
          clientLayout := requestedLayout before.multimonConfigured width height monitors }

theorem init_client_layout (before : Vnc) (width height : Int) (monitors : List MonitorInfo) :
    initClientLayout width height monitors before = (.ok (), { before with
      clientLayout := requestedLayout before.multimonConfigured width height monitors }) := by
  simp only [initClientLayout, Program.update, requestedLayout]
  split <;> rfl

theorem request_stops {before after : Vnc} {error : VncError}
    (stopped : sendUpdateRequestForResizeStatus answers before = (.error error, after)) :
    error = .transDown ∨ error = .sendFailed := by
  have sends : ∀ message, Ensures (fun _ => True) (libSendCopy answers message) (fun _ _ => True)
      (fun error => error = .transDown ∨ error = .sendFailed) := by
    intro message start _
    have outcome := send_copy_sent answers message start
    generalize libSendCopy answers message start = result at outcome ⊢
    cases outcome with
    | sent => trivial
    | unsent _ _ kind => exact kind
  have ensured : Ensures (fun _ => True) (sendUpdateRequestForResizeStatus answers)
      (fun _ _ => True) (fun error => error = .transDown ∨ error = .sendFailed) := by
    apply ensures_through (fun _ _ => True)
    · exact ensures_read fun _ _ => trivial
    intro v
    apply ensures_ite
    · exact fun _ => sends _
    · exact fun _ => ensures_only_if (fun _ => sends _) fun _ _ _ => trivial
  exact ensures_stops ensured trivial stopped

theorem suppress_output_step {suppress : Int} {before after : Vnc}
    (goes : GoesOn answers (.suppressOutput suppress) before after) :
    HostStep before (.suppressOutput suppress) (negotiation after) := by
  have unfolded : runEvent answers (.suppressOutput suppress) before =
      (onlyIf (suppress = 0) (libSendCopy answers ((negotiation before).updateRequest 0)))
        { before with suppressOutput := suppress } := rfl
  unfold GoesOn Returns at goes
  rw [unfolded] at goes
  by_cases shown : suppress = 0
  · subst shown
    rw [only_if_true rfl] at goes
    have outcome := send_copy_sent answers ((negotiation before).updateRequest 0)
      { before with suppressOutput := 0 }
    generalize libSendCopy answers _ _ = result at outcome goes
    cases outcome with
    | sent =>
        rcases goes with returned | ⟨-, error, stopped, -⟩
        · obtain rfl := (Prod.mk.inj returned).2
          rw [negotiation_send]
          exact .shown
        · exact nomatch stopped
    | unsent error final kind =>
        rcases goes with returned | ⟨-, other, stopped, notDown, notFailed⟩
        · exact nomatch returned
        · obtain rfl := Except.error.inj (Prod.mk.inj stopped).1
          exact (kind.elim notDown notFailed).elim
  · rw [only_if_false shown] at goes
    rcases goes with returned | ⟨-, error, stopped, -⟩
    · obtain rfl := (Prod.mk.inj returned).2
      exact .hidden suppress shown
    · exact nomatch stopped

/-- The rest of a resize, once the client's layout is recorded. -/
def resizeAsked : VncM Unit := do
  resizeServerToClientLayout answers
  let status ← Program.read Vnc.resizeStatus
  if status = .waitingForResizeConfirm then
    sendUpdateRequestForResizeStatus answers
  else
    pure ()

theorem resize_asked_returns {before after : Vnc}
    (returned : Returns (resizeAsked answers) before () after) :
    ∃ q, Resized (negotiation before) q ∧ negotiation after =
      if q.resizeStatus = .waitingForResizeConfirm then q.requestForStatus else q := by
  obtain ⟨_, middle, resized, ran⟩ := (returns_bind _ _ _ _ _).mp returned
  have outcome := resize_server_outcome answers before
  rw [show resizeServerToClientLayout answers before = _ from resized] at outcome
  cases outcome with
  | resized _ step =>
      refine ⟨negotiation middle, step, ?_⟩
      obtain ⟨_, _, read, ran⟩ := (returns_bind _ _ _ _ _).mp ran
      obtain ⟨rfl, rfl⟩ := (returns_read _ _ _ _).mp read
      split at ran
      · rename_i waiting
        rw [if_pos (show (negotiation middle).resizeStatus = _ from waiting)]
        exact ensures_returns (request_status answers (negotiation middle)) rfl ran
      · rename_i settled
        rw [if_neg (show ¬(negotiation middle).resizeStatus = _ from settled)]
        obtain ⟨-, rfl⟩ := (returns_pure _ _ _ _).mp ran
        rfl

theorem resize_asked_stops {before after : Vnc} {error : VncError}
    (stopped : resizeAsked answers before = (.error error, after)) (notDown : error ≠ .transDown)
    (notFailed : error ≠ .sendFailed) :
    vncScreenLayoutsEqual before.serverLayout before.clientLayout = false ∧
      before.resizeSupported ≠ .supported ∧ after = before := by
  have sending : ¬(error = .transDown ∨ error = .sendFailed) := by
    rintro (rfl | rfl)
    · exact notDown rfl
    · exact notFailed rfl
  rcases (stops_bind _ _ _ _ _).mp stopped with refused | ⟨_, middle, -, ran⟩
  · have outcome := resize_server_outcome answers before
    rw [refused] at outcome
    cases outcome with
    | refused different unsupported => exact ⟨different, unsupported, rfl⟩
    | unsent _ _ kind => exact absurd kind sending
  · rcases (stops_bind _ _ _ _ _).mp ran with read | ⟨_, _, read, ran⟩
    · exact nomatch read
    · split at ran
      · exact absurd (request_stops answers ran) sending
      · exact nomatch ran

theorem monitor_resize_step {width height : Int} {monitors : List MonitorInfo} {before after : Vnc}
    (goes : GoesOn answers (.monitorResize width height monitors) before after) :
    HostStep before (.monitorResize width height monitors) (negotiation after) := by
  have unfolded : runEvent answers (.monitorResize width height monitors) before =
      resizeAsked answers { before with
        clientLayout := requestedLayout before.multimonConfigured width height monitors } := by
    simp only [runEvent, libModServerMonitorResize, resizeAsked, bind, Program.bind,
      init_client_layout]
    generalize resizeServerToClientLayout answers _ = result
    rcases result with ⟨_ | _, middle⟩
    · rfl
    by_cases waiting : middle.resizeStatus = .waitingForResizeConfirm
    · simp only [Program.read, waiting, if_true, Program.bind]
      generalize sendUpdateRequestForResizeStatus answers middle = result
      rcases result with ⟨_ | _, final⟩ <;> rfl
    · simp only [Program.read, waiting, if_false]
      rfl
  unfold GoesOn Returns at goes
  rw [unfolded] at goes
  rcases goes with returned | ⟨-, error, stopped, notDown, notFailed⟩
  · obtain ⟨q, step, reached⟩ := resize_asked_returns answers returned
    rw [reached]
    exact .resized width height monitors q step
  · obtain ⟨different, unsupported, rfl⟩ := resize_asked_stops answers stopped notDown notFailed
    exact .refused width height monitors different unsupported

theorem host_step {event : Event} {before after : Vnc} (host : event ≠ .poll)
    (goes : GoesOn answers event before after) : HostStep before event (negotiation after) := by
  cases event with
  | poll => exact absurd rfl host
  | modEvent msg param1 param2 param3 param4 =>
      have adds := adds_mod_event answers msg param1 param2 param3 param4 before
      apply HostStep.input
      rcases goes with returned | ⟨-, error, stopped, -⟩
      · rwa [show libModEvent answers msg param1 param2 param3 param4 before = _ from returned]
          at adds
      · rwa [show libModEvent answers msg param1 param2 param3 param4 before = _ from stopped]
          at adds
  | suppressOutput suppress => exact suppress_output_step answers goes
  | monitorResize width height monitors => exact monitor_resize_step answers goes

end Events

end XrdpConsole.VncEvents
