import XrdpConsole.Library.Transition
import XrdpConsole.VncModule

/-!
# Sessions of the VNC module

A session is any sequence of polls of the VNC socket and of calls of the RDP
side, each with its own answers of the host, up to the first error. The parser
invariant says, for each state of the incremental parser, what it waits for and
how many update brackets are open; every function the session runs either
leaves the parser alone or moves it between states that satisfy it.
-/

namespace XrdpConsole.VncSession

open XrdpConsole.Library
open XrdpConsole.Library.Program
open XrdpConsole.VncState
open XrdpConsole.VncLayout
open XrdpConsole.VncFramebuffer
open XrdpConsole.VncIncremental
open XrdpConsole.VncModule

set_option autoImplicit false

inductive Event where
  | poll
  | modEvent (msg param1 param2 : Int) (param3 : Option (List Byte)) (param4 : Int)
  | suppressOutput (suppress : Int)
  | monitorResize (width height : Int) (monitors : List MonitorInfo)

def runEvent (answers : ServerAnswers) : Event → VncM Unit
  | .poll => transCheckWaitObjs answers
  | .modEvent msg param1 param2 param3 param4 =>
      libModEvent answers msg param1 param2 param3 param4
  | .suppressOutput suppress => libModSuppressOutput answers suppress
  | .monitorResize width height monitors => do
      let _ ← libModServerMonitorResize answers width height monitors
      pure ()

def bracketChange : ServerCall → Int
  | .beginUpdate => 1
  | .endUpdate => -1
  | _ => 0

def openUpdates (calls : List ServerCall) : Int := (calls.map bracketChange).sum

/-- What `lib_mod_connect` and `mod_init` leave behind: the transport has the
64 KiB input buffer of `trans_create`, the quantum has been clamped. -/
structure Connected (v : Vnc) : Prop where
  up : v.trans.up = true
  headerSize : v.trans.headerSize = 1
  inSize : v.trans.inSize = 8 * 8192
  inData : v.trans.inData = []
  serverBpp : v.serverBpp ∈ [8, 15, 16, 24, 32]
  quantum : 1024 ≤ v.framebufferReadQuantum ∧ v.framebufferReadQuantum ≤ 65536
  parseState : v.framebufferParseState = .waitMessageType
  noneOpen : openUpdates v.calls = 0

def session : System Vnc (Event × ServerAnswers) where
  initial v := Connected v ∧ v.incrementalFramebuffer = true
  step before label after := Returns (runEvent label.2 label.1) before () after

def runSession : List (Event × ServerAnswers) → Vnc → Option Vnc
  | [], v => some v
  | (event, answers) :: rest, v =>
      match runEvent answers event v with
      | (.ok (), after) => runSession rest after
      | (.error _, _) => none

theorem run_of_run_session {labels : List (Event × ServerAnswers)} {before after : Vnc}
    (ran : runSession labels before = some after) : session.Run before labels after := by
  induction labels generalizing before with
  | nil =>
      obtain rfl : before = after := by simpa [runSession] using ran
      exact .stay before
  | cons label rest ih =>
      simp only [runSession] at ran
      split at ran
      · rename_i middle stepped
        exact System.run_after stepped (ih ran)
      · contradiction

/-- The part of the module that the incremental parser depends on. -/
structure ParserView where
  serverBpp : Nat
  incrementalFramebuffer : Bool
  quantum : Nat
  state : VncFramebufferParseState
  rectsRemaining : Int
  x : Nat
  y : Nat
  cx : Nat
  cy : Nat
  rowBytes : Nat
  rowsDone : Nat
  headerSize : Nat
  inSize : Nat
  openUpdates : Int
  dataCallbacks : Nat

def parserView (v : Vnc) : ParserView where
  serverBpp := v.serverBpp
  incrementalFramebuffer := v.incrementalFramebuffer
  quantum := v.framebufferReadQuantum
  state := v.framebufferParseState
  rectsRemaining := v.framebufferRectsRemaining
  x := v.framebufferX
  y := v.framebufferY
  cx := v.framebufferCx
  cy := v.framebufferCy
  rowBytes := v.framebufferRawRowBytes
  rowsDone := v.framebufferRawRowsDone
  headerSize := v.trans.headerSize
  inSize := v.trans.inSize
  openUpdates := VncSession.openUpdates v.calls
  dataCallbacks := v.dataCallbacks

/-- The errors left when the three checks of the parser on its own state never
fail. -/
def Expected (error : VncError) : Prop :=
  error ≠ .invalidRawStrip ∧ error ≠ .invalidParserState ∧ error ≠ .nothingToSchedule

instance : DecidablePred Expected := fun _ => inferInstanceAs (Decidable (_ ∧ _))

/-! ## What leaves the parser alone -/

section Untouched

variable {Value : Type}

def Untouched (program : VncM Value) : Prop := Keeps parserView program Expected

theorem untouched_call {made : ServerCall} (noBracket : bracketChange made = 0) :
    Untouched (call made) := by
  refine keeps_update fun v => ?_
  simp [parserView, openUpdates, noBracket]

theorem untouched_set_trans_down : Untouched setTransDown := keeps_update fun _ => rfl

theorem untouched_force_read (size : Int) : Untouched (transForceReadS size) := by
  refine keeps_bind (keeps_read _) fun up => keeps_bind (keeps_read _) fun stream => ?_
  refine keeps_ite (keeps_stop (by decide)) (keeps_ite (keeps_stop (by decide)) ?_)
  cases readExact size.toNat stream with
  | none => exact keeps_bind untouched_set_trans_down fun _ => keeps_stop (by decide)
  | some complete => exact keeps_bind (keeps_update fun _ => rfl) fun _ => keeps_pure _

theorem untouched_read_extended : Untouched readExtendedDesktopSizeRect := by
  refine keeps_bind (untouched_force_read 4) fun header => ?_
  refine keeps_ite (keeps_stop (by decide)) ?_
  exact keeps_bind (untouched_force_read _) fun body => keeps_pure _

theorem untouched_set_client_layout (layout : VncScreenLayout) :
    Untouched (setClientLayout layout) := keeps_update fun _ => rfl

theorem untouched_set_server_layout (layout : VncScreenLayout) :
    Untouched (setServerLayout layout) := keeps_update fun _ => rfl

theorem untouched_cursor_payload (x y cx cy : Nat) : Untouched (cursorPayload x y cx cy) := by
  refine keeps_bind (keeps_read _) fun bpp => keeps_bind (keeps_read _) fun palette => ?_
  exact keeps_bind (untouched_force_read _) fun payload => untouched_call rfl

theorem untouched_skip_pieces (pieces bytes : Nat) : Untouched (skipTransPieces pieces bytes) := by
  induction pieces generalizing bytes with
  | zero => exact keeps_pure ()
  | succ pieces ih => exact keeps_only_if (keeps_bind (untouched_force_read _) fun _ => ih _)

theorem untouched_skip_encoding (cx cy encoding : Nat) :
    Untouched (skipEncoding cx cy encoding) := by
  refine keeps_bind (keeps_read _) fun bpp => ?_
  refine keeps_ite (untouched_skip_pieces _ _) (keeps_ite (untouched_skip_pieces _ _) ?_)
  refine keeps_ite (untouched_skip_pieces _ _) (keeps_ite (keeps_pure ()) (keeps_ite ?_ ?_))
  · exact keeps_bind untouched_read_extended fun _ => keeps_pure ()
  · exact untouched_call rfl

theorem untouched_find_rects (isMatch : Nat → Bool) (remaining : Nat)
    (found : Option MatchingRect) : Untouched (findMatchingRects isMatch remaining found) := by
  induction remaining generalizing found with
  | zero => exact keeps_pure _
  | succ remaining ih =>
      refine keeps_bind (untouched_force_read 12) fun header => ?_
      refine keeps_ite (keeps_stop (by decide)) (keeps_ite ?_ ?_)
      · exact keeps_bind untouched_read_extended fun screens => ih _
      · exact keeps_bind (untouched_skip_encoding _ _ _) fun _ => ih _

theorem untouched_find_extended (isMatch : Nat → Bool) :
    Untouched (findMatchingExtendedRect isMatch) :=
  keeps_bind (untouched_force_read 3) fun _ => untouched_find_rects isMatch _ none

variable (answers : ServerAnswers)

theorem untouched_send_copy (message : List Byte) : Untouched (libSendCopy answers message) := by
  refine keeps_bind (keeps_read _) fun up => ?_
  refine keeps_ite (keeps_stop (by decide)) (keeps_ite ?_ (keeps_ite (keeps_stop (by decide)) ?_))
  · exact keeps_bind untouched_set_trans_down fun _ => keeps_stop (by decide)
  · exact untouched_call rfl

/-- The bracket that a resize closes is open again when the resize is over. -/
theorem untouched_resize_client (updateInProgress : Bool) :
    Untouched (resizeClientToServer answers updateInProgress) := by
  refine keeps_bind (keeps_read _) fun sl => keeps_ite (keeps_stop (by decide)) ?_
  cases updateInProgress with
  | false =>
      simp only [only_if_false Bool.false_ne_true]
      refine keeps_bind (keeps_pure ()) fun _ => keeps_bind (untouched_call rfl) fun _ => ?_
      refine keeps_bind (keeps_only_if (untouched_set_client_layout sl)) fun _ => ?_
      exact keeps_bind (keeps_pure ()) fun _ => keeps_only_if (keeps_stop (by decide))
  | true =>
      intro start
      cases accepted : answers.clientMonitorResize sl.totalWidth sl.totalHeight (clientMons sl) with
      | true =>
          refine ⟨?_, fun _ stopped => nomatch stopped⟩
          change parserView { start with
            clientLayout := sl
            calls := start.calls ++ [_] ++ [_] ++ [_] } = _
          simp [parserView, openUpdates, bracketChange]
      | false =>
          constructor
          · change parserView { start with
              calls := start.calls ++ [_] ++ [_] ++ [_] } = _
            simp [parserView, openUpdates, bracketChange]
          · intro error stopped
            cases stopped
            decide

theorem untouched_copy_rect (x y cx cy : Nat) : Untouched (copyRect x y cx cy) :=
  keeps_bind (untouched_force_read 4) fun _ => untouched_call rfl

theorem untouched_desktop_size (cx cy : Nat) : Untouched (desktopSizeRect answers cx cy) :=
  keeps_bind (untouched_set_server_layout _) fun _ => untouched_resize_client answers true

theorem untouched_extended_size (x cx cy : Nat) :
    Untouched (extendedDesktopSizeRect answers x cx cy) := by
  refine keeps_bind untouched_read_extended fun screens => keeps_bind (keeps_read _) fun _ => ?_
  exact keeps_only_if (keeps_bind (untouched_set_server_layout _) fun _ =>
    untouched_resize_client answers true)

theorem untouched_resize_server : Untouched (resizeServerToClientLayout answers) := by
  refine keeps_bind (keeps_read _) fun server => keeps_bind (keeps_read _) fun client => ?_
  refine keeps_bind (keeps_read _) fun support => keeps_ite (keeps_update fun _ => rfl) ?_
  refine keeps_ite (keeps_stop (by decide)) ?_
  refine keeps_bind (untouched_set_client_layout _) fun _ => ?_
  exact keeps_always (untouched_send_copy answers _) fun _ => rfl

theorem untouched_update_request : Untouched (sendUpdateRequestForResizeStatus answers) := by
  refine keeps_bind (keeps_read _) fun v => keeps_ite (untouched_send_copy answers _) ?_
  exact keeps_only_if (untouched_send_copy answers _)

theorem untouched_request_next : Untouched (requestNextUpdate answers) :=
  keeps_bind (keeps_read _) fun _ => keeps_bind (keeps_read _) fun _ =>
    keeps_only_if (untouched_send_copy answers _)

theorem untouched_first_update : Untouched (libFramebufferFirstUpdate answers) := by
  refine keeps_bind (untouched_find_extended _) fun found => ?_
  cases found with
  | some found =>
      refine keeps_bind (keeps_update fun _ => rfl) fun _ => ?_
      refine keeps_bind (untouched_set_server_layout _) fun _ => keeps_bind (keeps_read _) ?_
      refine fun client => keeps_bind (untouched_set_client_layout _) fun _ => ?_
      exact keeps_bind (keeps_attempt (untouched_resize_server answers)) fun _ =>
        untouched_update_request answers
  | none =>
      refine keeps_bind (keeps_update fun _ => rfl) fun _ => ?_
      exact keeps_bind (keeps_always (untouched_resize_client answers false) fun _ => rfl) fun _ =>
        untouched_update_request answers

theorem untouched_resize_done : Untouched (serverMonitorResizeDone answers) :=
  keeps_bind (untouched_call rfl) fun _ => keeps_only_if (keeps_stop (by decide))

theorem untouched_resize_confirmed (found : MatchingRect) :
    Untouched (resizeConfirmed answers found) :=
  keeps_ite
    (keeps_bind (untouched_set_server_layout _) fun _ => untouched_resize_done answers)
    (keeps_bind (untouched_resize_client answers false) fun _ => untouched_resize_done answers)

theorem untouched_resize_confirm : Untouched (libFramebufferWaitingForResizeConfirm answers) := by
  refine keeps_bind (untouched_find_extended _) fun found => ?_
  cases found with
  | some found =>
      exact keeps_bind (keeps_always (untouched_resize_confirmed answers found) fun _ => rfl)
        fun _ => untouched_update_request answers
  | none => exact untouched_update_request answers

/-- The palette is handed over in a bracket of its own. -/
theorem untouched_palette_update : Untouched libPaletteUpdate := by
  refine keeps_bind (untouched_force_read 5) fun header => keeps_ite (keeps_stop (by decide)) ?_
  refine keeps_bind (untouched_force_read _) fun body => ?_
  refine fun start => ⟨?_, fun _ stopped => nomatch stopped⟩
  change parserView { start with
    palette := _
    calls := start.calls ++ [_] ++ [_] ++ [_] } = _
  simp [parserView, openUpdates, bracketChange]

theorem untouched_clip_data : Untouched (vncClipProcessRfbData answers) := by
  refine keeps_bind (untouched_force_read 7) fun header => keeps_bind (keeps_read _) ?_
  refine fun clipChanid => keeps_ite (untouched_skip_pieces _ _) ?_
  refine keeps_ite (keeps_stop (by decide)) ?_
  exact keeps_bind (untouched_force_read _) fun data => untouched_call rfl

theorem untouched_key_event (down : Bool) (key : Int) : Untouched (keyEvent answers down key) := by
  refine keeps_bind (keeps_read _) fun v => keeps_bind (keeps_only_if ?_) fun _ => ?_
  · exact keeps_bind (keeps_attempt (untouched_send_copy answers _)) fun _ => keeps_pure ()
  · refine keeps_always (untouched_send_copy answers _) fun state => ?_
    split <;> rfl

theorem untouched_channel_event (param1 param2 : Int) (param3 : Option (List Byte))
    (param4 : Int) : Untouched (channelEvent answers param1 param2 param3 param4) := by
  refine keeps_bind (keeps_read _) fun clipChanid => ?_
  cases param3 with
  | none => exact keeps_stop (by decide)
  | some data =>
      refine keeps_ite (keeps_stop (by decide)) (keeps_only_if ?_)
      exact keeps_bind (untouched_call rfl) fun _ => keeps_only_if (keeps_stop (by decide))

theorem untouched_mod_event (msg param1 param2 : Int) (param3 : Option (List Byte))
    (param4 : Int) : Untouched (libModEvent answers msg param1 param2 param3 param4) := by
  refine keeps_bind (keeps_read _) fun v => keeps_ite (untouched_channel_event _ _ _ _ _) ?_
  refine keeps_ite (keeps_only_if (untouched_key_event answers _ _)) (keeps_ite ?_ ?_)
  · refine keeps_bind (keeps_update fun _ => rfl) fun _ => keeps_bind (keeps_read _) fun _ => ?_
    exact untouched_send_copy answers _
  · exact keeps_only_if (untouched_send_copy answers _)

theorem untouched_suppress_output (suppress : Int) :
    Untouched (libModSuppressOutput answers suppress) := by
  refine keeps_bind (keeps_update fun _ => rfl) fun _ => keeps_bind (keeps_read _) fun v => ?_
  exact keeps_only_if (untouched_send_copy answers _)

theorem untouched_init_client (width height : Int) (monitors : List MonitorInfo) :
    Untouched (initClientLayout width height monitors) := by
  refine keeps_update fun v => ?_
  split <;> rfl

theorem untouched_monitor_resize (width height : Int) (monitors : List MonitorInfo) :
    Untouched (libModServerMonitorResize answers width height monitors) := by
  refine keeps_bind (untouched_init_client _ _ _) fun _ => ?_
  refine keeps_bind (untouched_resize_server answers) fun _ => keeps_bind (keeps_read _) ?_
  refine fun status => keeps_ite ?_ (keeps_pure false)
  exact keeps_bind (untouched_update_request answers) fun _ => keeps_pure true

/-- Whatever the RDP side asks for leaves the parser where it is. -/
theorem untouched_unless_poll {event : Event} (notPoll : event ≠ .poll) :
    Untouched (runEvent answers event) := by
  cases event with
  | poll => exact absurd rfl notPoll
  | modEvent => exact untouched_mod_event _ _ _ _ _ _
  | suppressOutput => exact untouched_suppress_output _ _
  | monitorResize =>
      exact keeps_bind (untouched_monitor_resize _ _ _ _) fun _ => keeps_pure ()

end Untouched

end XrdpConsole.VncSession
