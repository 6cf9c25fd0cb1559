import XrdpConsole.VncNegotiation

/-!
# One update of the negotiation

What is sent, what the two layouts become and how the resize status moves on when an update
has been read: in the steady state, as the first update, and while a confirmation is waited
for.
-/

namespace XrdpConsole.VncExchange

open XrdpConsole.Library
open XrdpConsole.Library.Program
open XrdpConsole.VncState
open XrdpConsole.VncLayout
open XrdpConsole.VncFramebuffer
open XrdpConsole.VncIncremental
open XrdpConsole.VncModule
open XrdpConsole.VncSession
open XrdpConsole.VncAgreement
open XrdpConsole.VncPolling
open XrdpConsole.VncNegotiation

set_option autoImplicit false

/-! ## Sending -/

section Sending

variable (answers : ServerAnswers)

def setDesktopSizeMessage (layout : VncScreenLayout) : List Byte :=
  outUint8 251 ++ outUint8 0 ++ outUint16Be layout.totalWidth ++ outUint16Be layout.totalHeight ++
    outUint8 layout.s.length ++ outUint8 0 ++ layout.s.flatMap outScreen

/-- A message is sent, or the connection is at fault and nothing has changed. -/
inductive Sent (message : List Byte) (before : Vnc) : Except VncError Unit × Vnc → Prop where
  | sent : Sent message before (.ok (), { before with calls := before.calls ++ [.sendCopy message] })
  | unsent (error : VncError) (after : Vnc) : error = .transDown ∨ error = .sendFailed →
      after.trans.up = false ∨ answers.transSend message = false →
      negotiation after = negotiation before → Sent message before (.error error, after)

theorem send_copy_sent (message : List Byte) (before : Vnc) :
    Sent answers message before (libSendCopy answers message before) := by
  have unfolded : libSendCopy answers message before =
      if before.trans.up = false then
        (.error .transDown, before)
      else if answers.transSendWaiting = false then
        (.error .sendFailed, { before with trans := { before.trans with up := false } })
      else if answers.transSend message = false then
        (.error .sendFailed, before)
      else
        (.ok (), { before with calls := before.calls ++ [.sendCopy message] }) := by
    simp only [libSendCopy]
    change (if _ then _ else _ : VncM Unit) before = _
    split
    · rfl
    split
    · rfl
    split <;> rfl
  rw [unfolded]
  split
  · rename_i down
    exact .unsent .transDown before (.inl rfl) (.inl down) rfl
  split
  · exact .unsent .sendFailed _ (.inr rfl) (.inl rfl) rfl
  split
  · rename_i refused
    exact .unsent .sendFailed before (.inr rfl) (.inr refused) rfl
  · exact .sent

variable {p : Negotiation}

@[simp] theorem negotiation_send (v : Vnc) (message : List Byte) :
    negotiation { v with calls := v.calls ++ [.sendCopy message] } = (negotiation v).send message := by
  simp [negotiation, Negotiation.send, sentMessage]

theorem holds_send (bytes message : List Byte) :
    Ensures (Holds p bytes) (libSendCopy answers message) (fun _ => Holds (p.send message) bytes)
      AnyError := by
  apply ensures_of_returns
  rintro start value final ⟨here, content⟩ ran
  have outcome := send_copy_sent answers message start
  rw [show libSendCopy answers message start = (.ok value, final) from ran] at outcome
  cases outcome with
  | sent => exact ⟨by rw [negotiation_send, here], content⟩

/-- A program that starts by looking at the state may take it for the negotiation. -/
theorem holds_read {Part Value : Type} {part : Vnc → Part} {next : Part → VncM Value}
    {after : Value → Vnc → Prop} {bytes : List Byte}
    (tail : ∀ v, negotiation v = p → Ensures (Holds p bytes) (next (part v)) after AnyError) :
    Ensures (Holds p bytes) (Program.read part >>= next) after AnyError := by
  apply ensures_read_bind
  intro v holds
  have start : ∀ state, state = v → Holds p bytes state := fun _ same => same ▸ holds
  exact ensures_begin start (tail v holds.1)

/-- Where the bytes to come do not matter. -/
theorem holds_any {Value : Type} {program : VncM Value} {after : Value → Vnc → Prop}
    (each : ∀ bytes, Ensures (Holds p bytes) program after AnyError) :
    Ensures (fun v => negotiation v = p) program after AnyError :=
  fun v here => each _ v ⟨here, rfl⟩

theorem forget_bytes {Value : Type} {program : VncM Value} {after : Value → Vnc → Prop}
    {bytes : List Byte} (ensured : Ensures (fun v => negotiation v = p) program after AnyError) :
    Ensures (Holds p bytes) program after AnyError :=
  fun v holds => ensured v holds.1

theorem at_start {Value : Type} {program : VncM Value} {after : Value → Vnc → Prop} {v : Vnc}
    (here : negotiation v = p)
    (ensured : Ensures (fun state => negotiation state = p) program after AnyError) :
    Ensures (fun state => state = v) program after AnyError := by
  rintro state rfl
  exact ensured state here

theorem at_read {Part Value : Type} {part : Vnc → Part} {next : Part → VncM Value}
    {after : Value → Vnc → Prop}
    (tail : ∀ v, negotiation v = p →
      Ensures (fun v => negotiation v = p) (next (part v)) after AnyError) :
    Ensures (fun v => negotiation v = p) (Program.read part >>= next) after AnyError :=
  fun v here => tail v here v here

theorem holds_request_next (bytes : List Byte) :
    Ensures (Holds p bytes) (requestNextUpdate answers) (fun _ => Holds p.requestNext bytes)
      AnyError := by
  apply holds_read
  rintro v rfl
  apply holds_read
  intro w same
  have layout : w.serverLayout = v.serverLayout := congrArg Negotiation.serverLayout same
  rw [layout]
  unfold Negotiation.requestNext
  split
  · rename_i visible
    rw [only_if_true (show v.suppressOutput = 0 from visible)]
    exact holds_send answers bytes _
  · rename_i hidden
    rw [only_if_false (show ¬v.suppressOutput = 0 from hidden)]
    exact ensures_pure fun _ holds => holds

theorem holds_request_for_status (bytes : List Byte) :
    Ensures (Holds p bytes) (sendUpdateRequestForResizeStatus answers)
      (fun _ => Holds p.requestForStatus bytes) AnyError := by
  apply holds_read
  rintro v rfl
  unfold Negotiation.requestForStatus
  by_cases negotiating : v.resizeStatus ≠ .done
  · rw [if_pos (show (id v).resizeStatus ≠ .done from negotiating),
      if_pos (show (negotiation v).resizeStatus ≠ .done from negotiating)]
    exact holds_send answers bytes _
  · rw [if_neg (show ¬(id v).resizeStatus ≠ .done from negotiating),
      if_neg (show ¬(negotiation v).resizeStatus ≠ .done from negotiating)]
    by_cases visible : v.suppressOutput = 0
    · rw [only_if_true (show (id v).suppressOutput = 0 from visible),
        if_pos (show (negotiation v).suppressOutput = 0 from visible)]
      exact holds_send answers bytes _
    · rw [only_if_false (show ¬(id v).suppressOutput = 0 from visible),
        if_neg (show ¬(negotiation v).suppressOutput = 0 from visible)]
      exact ensures_pure fun _ holds => holds

/-! ## Following the server -/

theorem holds_update {bytes : List Byte} {change : Vnc → Vnc} {q : Negotiation}
    (changed : ∀ v, negotiation v = p → negotiation (change v) = q)
    (unread : ∀ v, (change v).trans.sock = v.trans.sock) :
    Ensures (Holds p bytes) (Program.update change) (fun _ => Holds q bytes) AnyError := by
  apply ensures_update
  rintro v ⟨here, content⟩
  exact ⟨changed v here, by rw [unread, content]⟩

theorem holds_resize_client (bytes : List Byte) (updateInProgress : Bool) :
    Ensures (Holds p bytes) (resizeClientToServer answers updateInProgress)
      (fun _ => Holds { p with clientLayout := p.serverLayout } bytes) AnyError := by
  apply holds_read
  rintro v rfl
  apply ensures_ite
  · exact fun _ => ensures_stop trivial
  intro _
  cases accepted : answers.clientMonitorResize v.serverLayout.totalWidth
      v.serverLayout.totalHeight (clientMons v.serverLayout) with
  | false =>
      apply ensures_of_returns
      intro start value final _ ran
      cases updateInProgress <;> exact nomatch ran
  | true =>
      apply ensures_of_returns
      rintro start value final ⟨here, content⟩ ran
      have layout : v.serverLayout = start.serverLayout :=
        congrArg Negotiation.serverLayout here.symm
      rw [← here]
      cases updateInProgress with
      | false =>
          obtain rfl := (Prod.mk.inj ran).2
          exact ⟨by simp [negotiation, sentMessage, layout], content⟩
      | true =>
          obtain rfl := (Prod.mk.inj ran).2
          exact ⟨by simp [negotiation, sentMessage, layout], content⟩

theorem holds_set_server (bytes : List Byte) (layout : VncScreenLayout) :
    Ensures (Holds p bytes) (setServerLayout layout)
      (fun _ => Holds { p with serverLayout := layout } bytes) AnyError := by
  apply holds_update
  · rintro v rfl
    rfl
  · exact fun _ => rfl

theorem holds_desktop_size (bytes : List Byte) (cx cy : Nat) :
    Ensures (Holds p bytes) (desktopSizeRect answers cx cy)
      (fun _ => Holds (p.follow (initSingleScreenLayout cx cy)) bytes) AnyError := by
  apply ensures_bind (holds_set_server bytes _)
  exact fun _ => holds_resize_client answers bytes true

theorem holds_extended_size (bytes : List Byte) (x y cx cy : Nat) :
    Ensures (Holds p bytes) (extendedDesktopSizeRect answers x cx cy)
      (fun _ => Holds
        (p.steadyRect
          { extended := true, x := x, y := y, layout := extendedLayout cx cy bytes })
        (bytes.drop (extendedSize bytes))) AnyError := by
  apply ensures_bind (reads_extended bytes)
  intro screens
  apply ensures_given
  rintro rfl
  apply holds_read
  rintro v rfl
  unfold Negotiation.steadyRect
  by_cases ignored : x = 1 ∨ vncScreenLayoutsEqual v.serverLayout (extendedLayout cx cy bytes) = true
  · rw [only_if_false, if_pos ⟨rfl, ignored⟩]
    · exact ensures_pure fun _ holds => holds
    · rintro ⟨different, changed⟩
      exact ignored.elim different fun same => absurd (same.symm.trans changed) (by decide)
  · rw [only_if_true, if_neg]
    · apply ensures_bind (holds_set_server _ _)
      exact fun _ => holds_resize_client answers _ true
    · exact fun both => ignored both.2
    · obtain ⟨different, changed⟩ := not_or.mp ignored
      exact ⟨different, Bool.eq_false_of_not_eq_true changed⟩

/-! ## The rectangles in the steady state -/

theorem steady_append (rects later : List DesktopRect) :
    p.steady (rects ++ later) = (p.steady rects).steady later := List.foldl_append ..

/-- Desktop rectangles change the two layouts only. -/
theorem steady_layouts (rects : List DesktopRect) :
    ∃ client server, p.steady rects = { p with clientLayout := client, serverLayout := server } := by
  induction rects generalizing p with
  | nil => exact ⟨_, _, rfl⟩
  | cons rect rects ih =>
      obtain ⟨client, server, after⟩ := @ih (p.steadyRect rect)
      change (p.steadyRect rect).steady rects = _ at after
      rw [show p.steady (rect :: rects) = (p.steadyRect rect).steady rects from rfl, after]
      unfold Negotiation.steadyRect
      split <;> exact ⟨_, _, rfl⟩

theorem steady_settings (rects : List DesktopRect) :
    (p.steady rects).serverBpp = p.serverBpp := by
  obtain ⟨client, server, after⟩ := @steady_layouts p rects
  rw [after]

theorem reads_raw (bytes : List Byte) (x y cx cy : Nat) :
    Ensures (Holds p bytes) (rawRect x y cx cy)
      (fun _ => Holds p (bytes.drop (cx * cy * getBytesPerPixel p.serverBpp))) AnyError := by
  apply holds_read
  rintro v rfl
  apply ensures_bind (reads_bytes bytes _)
  intro data
  apply ensures_given
  intro _
  exact holds_call _ rfl

theorem reads_copy (bytes : List Byte) (x y cx cy : Nat) :
    Ensures (Holds p bytes) (copyRect x y cx cy) (fun _ => Holds p (bytes.drop 4)) AnyError := by
  apply ensures_bind (reads_bytes bytes 4)
  intro source
  apply ensures_given
  intro _
  exact holds_call _ rfl

theorem to_int32_nat {size : Nat} (positive : 0 ≤ toInt32 size) :
    (toInt32 size).toNat = size % 2 ^ 32 := by
  simp only [toInt32] at positive ⊢
  omega

theorem reads_cursor (bytes : List Byte) (x y cx cy : Nat) :
    Ensures (Holds p bytes) (cursorPayload x y cx cy)
      (fun _ => Holds p (bytes.drop
        ((cx * cy * getBytesPerPixel p.serverBpp + (cx + 7) / 8 * cy) % 2 ^ 32))) AnyError := by
  apply holds_read
  rintro v rfl
  apply holds_read
  rintro w -
  apply ensures_bind (reads_bytes bytes _)
  intro payload
  apply ensures_given
  rintro ⟨positive, -⟩
  rw [← Int.natCast_add] at positive ⊢
  rw [to_int32_nat positive]
  exact holds_call _ rfl

/-- The desktop rectangle of a header, if it is one, is what a rectangle changes. -/
theorem holds_rect (header payload : List Byte) :
    Ensures (Holds p payload)
      (framebufferRect answers (inUint16Be header 0) (inUint16Be header 2) (inUint16Be header 4)
        (inUint16Be header 6) (inUint32Be header 8))
      (fun _ => Holds (p.steady (desktopRect header payload).toList)
        (payload.drop (payloadSize p.serverBpp (inUint16Be header 4) (inUint16Be header 6)
          (inUint32Be header 8) payload))) AnyError := by
  apply ensures_ite
  · exact fun _ => ensures_stop trivial
  intro _
  unfold payloadSize desktopRect
  generalize inUint32Be header 8 = encoding
  apply ensures_ite
  · rintro rfl
    exact reads_raw payload _ _ _ _
  intro notRaw
  apply ensures_ite
  · rintro rfl
    exact reads_copy payload _ _ _ _
  intro notCopy
  apply ensures_ite
  · rintro rfl
    exact reads_cursor payload _ _ _ _
  intro notCursor
  apply ensures_ite
  · rintro rfl
    exact holds_desktop_size answers payload _ _
  intro notDesktop
  apply ensures_ite
  · rintro rfl
    exact holds_extended_size answers payload _ _ _ _
  · intro notExtended
    rw [if_neg notRaw, if_neg notCopy, if_neg notCursor, if_neg notExtended]
    simp only [notDesktop, notExtended, if_false]
    exact holds_call payload rfl

theorem holds_rects (remaining : Nat) (bytes : List Byte) :
    Ensures (Holds p bytes) (libFramebufferRects answers remaining)
      (fun _ v => negotiation v = p.steady (desktopRects p.serverBpp remaining bytes)) AnyError := by
  induction remaining generalizing p bytes with
  | zero => exact ensures_pure fun _ holds => holds.1
  | succ remaining ih =>
      apply ensures_bind
      · apply ensures_bind (reads_bytes bytes 12)
        intro header
        apply ensures_given
        rintro ⟨-, rfl⟩
        exact holds_rect answers _ _
      intro _
      apply ensures_conclude (ih _)
      intro _ v here
      rw [here, steady_settings, desktopRects, steady_append]
      rfl

theorem holds_update_steady (bytes : List Byte) :
    Ensures (Holds p bytes) (libFramebufferUpdate answers)
      (fun _ v => negotiation v = (p.steady (updateRects p.serverBpp bytes)).requestNext)
      AnyError := by
  apply ensures_bind (reads_bytes bytes 3)
  intro header
  apply ensures_given
  rintro ⟨-, rfl⟩
  apply ensures_bind (holds_call _ rfl)
  intro _
  apply ensures_bind (holds_rects answers _ _)
  intro _
  apply holds_any
  intro rest
  apply ensures_bind (holds_call rest rfl)
  intro _
  apply ensures_conclude (holds_request_next answers rest)
  exact fun _ v holds => holds.1

/-! ## The negotiation of a size -/

def resizeMessage (p : Negotiation) : List Byte :=
  setDesktopSizeMessage (adoptScreenId p.clientLayout p.serverLayout)

/-- The server is asked for the client's layout. -/
def askResize (p : Negotiation) : Negotiation :=
  { p with
    clientLayout := adoptScreenId p.clientLayout p.serverLayout
    resizeStatus := .waitingForResizeConfirm
    sent := p.sent ++ [resizeMessage p] }

/-- As `askResize`, with the message lost. -/
def unsentResize (p : Negotiation) : Negotiation :=
  { p with
    clientLayout := adoptScreenId p.clientLayout p.serverLayout
    resizeStatus := .waitingForResizeConfirm }

inductive Resized (p : Negotiation) : Negotiation → Prop where
  | alike : vncScreenLayoutsEqual p.serverLayout p.clientLayout = true →
      Resized p { p with resizeStatus := .done }
  | asked : vncScreenLayoutsEqual p.serverLayout p.clientLayout = false →
      p.resizeSupported = .supported → Resized p (askResize p)

inductive ResizeOutcome (before : Vnc) : Except VncError Unit × Vnc → Prop where
  | resized (after : Vnc) : Resized (negotiation before) (negotiation after) →
      ResizeOutcome before (.ok (), after)
  | refused : vncScreenLayoutsEqual before.serverLayout before.clientLayout = false →
      before.resizeSupported ≠ .supported →
      ResizeOutcome before (.error .resizeNotPossible, before)
  | unsent (error : VncError) (after : Vnc) : error = .transDown ∨ error = .sendFailed →
      after.trans.up = false ∨ answers.transSend (resizeMessage (negotiation before)) = false →
      negotiation after = unsentResize (negotiation before) →
      ResizeOutcome before (.error error, after)

theorem resize_server_outcome (before : Vnc) :
    ResizeOutcome answers before (resizeServerToClientLayout answers before) := by
  have unfolded : resizeServerToClientLayout answers before =
      if vncScreenLayoutsEqual before.serverLayout before.clientLayout = true then
        (.ok (), setResizeStatus .done before)
      else if before.resizeSupported ≠ .supported then
        (.error .resizeNotPossible, before)
      else
        always
          (libSendCopy answers (setDesktopSizeMessage
            (adoptScreenId before.clientLayout before.serverLayout)))
          (setResizeStatus .waitingForResizeConfirm)
          { before with clientLayout := adoptScreenId before.clientLayout before.serverLayout } := by
    simp only [resizeServerToClientLayout]
    change (if _ then _ else _ : VncM Unit) before = _
    split
    · rfl
    split <;> rfl
  rw [unfolded]
  split
  · rename_i same
    exact .resized _ (.alike same)
  rename_i different
  have changed := Bool.eq_false_of_not_eq_true different
  split
  · rename_i unsupported
    exact .refused changed unsupported
  rename_i supported
  have outcome := send_copy_sent answers
    (setDesktopSizeMessage (adoptScreenId before.clientLayout before.serverLayout))
    { before with clientLayout := adoptScreenId before.clientLayout before.serverLayout }
  unfold always
  generalize libSendCopy answers _ _ = result at outcome ⊢
  cases outcome with
  | sent =>
      have asked := Resized.asked (p := negotiation before) changed (not_not.mp supported)
      refine .resized _ ?_
      simpa [negotiation, askResize, resizeMessage, setResizeStatus, sentMessage] using asked
  | unsent error after kind fault same =>
      refine .unsent error _ kind ?_ ?_
      · exact fault
      · exact congrArg (fun q : Negotiation =>
          { q with resizeStatus := .waitingForResizeConfirm }) same

/-- The first update says whether the server can be resized. -/
def discovered (p : Negotiation) (layout : VncScreenLayout) : Negotiation :=
  { p with
    resizeSupported := .supported
    serverLayout := layout
    clientLayout := adoptScreenId p.clientLayout layout }

def unsupported (p : Negotiation) : Negotiation :=
  { p with
    resizeSupported := .notSupported
    clientLayout := p.serverLayout
    resizeStatus := .done }

inductive FirstUpdate (p : Negotiation) (rects : List DesktopRect) : Negotiation → Prop where
  | supported (rect : DesktopRect) (q : Negotiation) :
      firstMatch rectIsInitialGeometry rects = some rect →
      Resized (discovered p rect.layout) q → FirstUpdate p rects q.requestForStatus
  | unsent (rect : DesktopRect) : firstMatch rectIsInitialGeometry rects = some rect →
      answers.transSend (resizeMessage (discovered p rect.layout)) = false →
      FirstUpdate p rects (unsentResize (discovered p rect.layout)).requestForStatus
  | unsupported : firstMatch rectIsInitialGeometry rects = none →
      FirstUpdate p rects (unsupported p).requestForStatus

theorem reads_find (isMatch : Nat → Bool) (bytes : List Byte) :
    Ensures (Holds p bytes) (findMatchingExtendedRect isMatch)
      (fun result v =>
        result = (firstMatch isMatch (updateRects p.serverBpp bytes)).map DesktopRect.matching ∧
          negotiation v = p) AnyError := by
  apply ensures_bind (reads_bytes bytes 3)
  intro header
  apply ensures_given
  rintro ⟨-, rfl⟩
  apply ensures_conclude (reads_matching isMatch _ none _)
  rintro result v ⟨rfl, here⟩
  exact ⟨by simp [updateRects], here⟩

theorem at_update {change : Vnc → Vnc} {q : Negotiation}
    (changed : ∀ v, negotiation v = p → negotiation (change v) = q) :
    Ensures (fun v => negotiation v = p) (Program.update change) (fun _ v => negotiation v = q)
      AnyError := ensures_update changed

theorem negotiation_set_status (v : Vnc) (status : VncResizeStatus) :
    negotiation (setResizeStatus status v) = { negotiation v with resizeStatus := status } := rfl

theorem negotiation_set_server (v : Vnc) (layout : VncScreenLayout) :
    negotiation { v with serverLayout := layout } = { negotiation v with serverLayout := layout } :=
  rfl

theorem negotiation_set_client (v : Vnc) (layout : VncScreenLayout) :
    negotiation { v with clientLayout := layout } = { negotiation v with clientLayout := layout } :=
  rfl

theorem request_needs_connection :
    Ensures (fun v => v.trans.up = false ∧ v.resizeStatus = .waitingForResizeConfirm)
      (sendUpdateRequestForResizeStatus answers) (fun _ _ => False) AnyError := by
  apply ensures_of_returns
  rintro start value final ⟨down, negotiating⟩ ran
  simp [sendUpdateRequestForResizeStatus, libSendCopy, returns_bind, negotiating, down] at ran

theorem request_status (q : Negotiation) :
    Ensures (fun v => negotiation v = q) (sendUpdateRequestForResizeStatus answers)
      (fun _ v => negotiation v = q.requestForStatus) AnyError := by
  apply holds_any
  intro bytes
  apply ensures_conclude (holds_request_for_status answers bytes)
  exact fun _ v holds => holds.1

/-- The request ends the handling of an update. -/
theorem requested {q : Negotiation} {after : Negotiation → Prop} (ends : after q.requestForStatus) :
    Ensures (fun v => negotiation v = q) (sendUpdateRequestForResizeStatus answers)
      (fun _ v => after (negotiation v)) AnyError := by
  apply ensures_conclude (request_status answers q)
  intro _ v here
  rwa [here]

theorem first_update_supported {rects : List DesktopRect} {rect : DesktopRect}
    (first : firstMatch rectIsInitialGeometry rects = some rect) :
    Ensures
      (fun v => negotiation v =
        { p with resizeSupported := .supported, serverLayout := rect.layout })
      (do
        let client ← Program.read Vnc.clientLayout
        setClientLayout (adoptScreenId client rect.layout)
        let _ ← Program.attempt (resizeServerToClientLayout answers)
        sendUpdateRequestForResizeStatus answers)
      (fun _ v => FirstUpdate answers p rects (negotiation v)) AnyError := by
  apply ensures_read_bind
  intro v here
  have client : v.clientLayout = p.clientLayout := congrArg Negotiation.clientLayout here
  rw [client]
  apply at_start here
  apply ensures_bind (at_update (q := discovered p rect.layout) ?_)
  · intro _
    apply ensures_through fun _ state =>
      Resized (discovered p rect.layout) (negotiation state) ∨
        (state.trans.up = false ∧ state.resizeStatus = .waitingForResizeConfirm) ∨
        (answers.transSend (resizeMessage (discovered p rect.layout)) = false ∧
          negotiation state = unsentResize (discovered p rect.layout))
    · apply ensures_attempt
      intro state reached
      have outcome := resize_server_outcome answers state
      rw [← reached]
      generalize resizeServerToClientLayout answers state = result at outcome ⊢
      cases outcome with
      | resized after step => exact .inl step
      | refused _ unsupported =>
          have supported : state.resizeSupported = .supported :=
            congrArg Negotiation.resizeSupported reached
          exact absurd supported unsupported
      | unsent error after _ fault same =>
          rcases fault with down | refused
          · exact .inr (.inl ⟨down, congrArg Negotiation.resizeStatus same⟩)
          · exact .inr (.inr ⟨refused, same⟩)
    · intro _ state reached
      rcases reached with step | ⟨down, waiting⟩ | ⟨refused, unsent⟩
      · exact requested answers (.supported rect _ first step) state rfl
      · exact ensures_conclude (request_needs_connection answers)
          (fun _ _ impossible => impossible.elim) state ⟨down, waiting⟩
      · exact requested answers (.unsent rect first refused) state unsent
  · rintro state same
    rw [negotiation_set_client, same]
    rfl

theorem first_update (bytes : List Byte) :
    Ensures (Holds p bytes) (libFramebufferFirstUpdate answers)
      (fun _ v => FirstUpdate answers p (updateRects p.serverBpp bytes) (negotiation v))
      AnyError := by
  apply ensures_bind (reads_find rectIsInitialGeometry bytes)
  intro found
  apply ensures_given
  rintro rfl
  cases first : firstMatch rectIsInitialGeometry (updateRects p.serverBpp bytes) with
  | none =>
      simp only [Option.map_none]
      apply ensures_bind (at_update (q := { p with resizeSupported := .notSupported }) ?_)
      · intro _
        apply ensures_through (fun _ v => negotiation v = unsupported p)
        · apply ensures_always
          apply holds_any
          intro rest
          apply ensures_conclude (holds_resize_client answers rest false)
          rintro _ v ⟨here, -⟩
          rw [negotiation_set_status, here]
          rfl
        · intro _
          exact requested answers (.unsupported first)
      · rintro v rfl
        rfl
  | some rect =>
      simp only [Option.map_some]
      apply ensures_bind (at_update (q := { p with resizeSupported := .supported }) ?_)
      · intro _
        apply ensures_bind (at_update (q :=
          { p with resizeSupported := .supported, serverLayout := rect.layout }) ?_)
        · intro _
          exact first_update_supported answers first
        · rintro v here
          rw [negotiation_set_server, here]
          rfl
      · rintro v rfl
        rfl

/-- A reply ends the negotiation, whether or not the server has resized. -/
def confirmed (p : Negotiation) (rect : DesktopRect) : Negotiation :=
  if rect.y = 0 then
    { p with
      serverLayout := rect.layout
      resizeStatus := .done }
  else
    { p with
      clientLayout := p.serverLayout
      resizeStatus := .done }

def confirmUpdate (p : Negotiation) (rects : List DesktopRect) : Negotiation :=
  match firstMatch rectIsReplyToUs rects with
  | some rect => (confirmed p rect).requestForStatus
  | none => p.requestForStatus

theorem holds_resize_done (bytes : List Byte) :
    Ensures (Holds p bytes) (serverMonitorResizeDone answers) (fun _ => Holds p bytes) AnyError := by
  apply ensures_bind (holds_call bytes rfl)
  intro _
  apply ensures_only_if
  · exact fun _ => ensures_stop trivial
  · exact fun _ _ holds => holds

theorem confirm_update (bytes : List Byte) :
    Ensures (Holds p bytes) (libFramebufferWaitingForResizeConfirm answers)
      (fun _ v => negotiation v = confirmUpdate p (updateRects p.serverBpp bytes)) AnyError := by
  apply ensures_bind (reads_find rectIsReplyToUs bytes)
  intro found
  apply ensures_given
  rintro rfl
  unfold confirmUpdate
  cases first : firstMatch rectIsReplyToUs (updateRects p.serverBpp bytes) with
  | none => exact request_status answers p
  | some rect =>
      apply ensures_through (fun _ v => negotiation v = confirmed p rect)
      · apply ensures_always
        apply holds_any
        intro rest
        by_cases success : rect.y = 0
        · rw [show resizeConfirmed answers rect.matching = _ from if_pos success,
            show confirmed p rect = _ from if_pos success]
          apply ensures_bind (holds_set_server rest _)
          intro _
          apply ensures_conclude (holds_resize_done answers rest)
          rintro _ v ⟨here, -⟩
          rw [negotiation_set_status, here]
          rfl
        · rw [show resizeConfirmed answers rect.matching = _ from if_neg success,
            show confirmed p rect = _ from if_neg success]
          apply ensures_bind (holds_resize_client answers rest false)
          intro _
          apply ensures_conclude (holds_resize_done answers rest)
          rintro _ v ⟨here, -⟩
          rw [negotiation_set_status, here]
      · exact fun _ => request_status answers (confirmed p rect)

end Sending

end XrdpConsole.VncExchange
