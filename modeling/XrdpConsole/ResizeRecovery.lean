import XrdpConsole.GfxProtocol
import XrdpConsole.MmFrames

/-!
# Recovery from a failed resize

Output is suppressed from the first state of a resize on and comes back with the
last one only. A resize that fails in between is cleared by the queue with the
suppression still in place.
-/

namespace XrdpConsole.ResizeRecovery

open XrdpConsole.Library
open XrdpConsole.Region
open XrdpConsole.MmState
open XrdpConsole.PlanarSend
open XrdpConsole.ResizeMachine
open XrdpConsole.MmSession
open XrdpConsole.MmFrames
open XrdpConsole.GfxProtocol

set_option autoImplicit false

variable {R : Type} [Pixman R]

def Suppressed (self : Mm R) : Prop :=
  self.wm.clientInfo.suppressOutputMask .dynamicResize = true

/-- Usable as in the state `start`, in which the resize began. -/
structure Recovered (start after : Mm R) : Prop where
  output : ¬Suppressed after
  encoder : start.encoder.isSome = true → after.encoder.isSome = true
  surfaces : after.egfxUp = true → ∀ surfaceId ∈ currentSurfaces after,
    (receiveAll emptyReceiver after.egfx.sent).exists_surface surfaceId = true

/-- Once the encoder has been deleted and until the resize is complete, output is
suppressed. -/
def SuppressedInResize (self : Mm R) : Prop :=
  ∀ resize, self.resizeData = some resize → resize.state ≠ .encoderDelete →
    resize.state ≠ .complete → Suppressed self

omit [Pixman R] in
theorem suppressed_advance {before : Mm R} {resize : DisplayControlMonitorLayoutData}
    (active : before.resizeData = some resize) (kept : SuppressedInResize before)
    {state : DisplayResizeState} (follows : Follows resize.state state) : Suppressed before := by
  apply kept resize active
  · intro deleting
    rw [deleting] at follows
    cases follows with
    | failed _ other => exact other rfl
  · intro complete
    rw [complete] at follows
    cases follows with
    | failed _ _ _ other => exact other rfl

omit [Pixman R] in
theorem resize_step_suppressed {before after : Mm R} {resize : DisplayControlMonitorLayoutData}
    (active : before.resizeData = some resize) (kept : SuppressedInResize before)
    (step : ResizeStep before resize after) : SuppressedInResize after := by
  cases step with
  | waiting => exact kept
  | suppressed output state _ _ =>
      intro later _ _ _
      simp [Suppressed, withOutput, advanceResizeStateMachine, xrdpRdpSuppressOutput]
  | advanced output state follows =>
      have suppressed := suppressed_advance active kept follows
      intro later _ _ _
      exact suppressed
  | synced output state processed _ =>
      intro later _ _ _
      exact kept resize active (by simp [processed]) (by simp [processed])
  | resized output moved _ =>
      intro later same _ other
      simp only [withOutput, advanceResizeStateMachine, xrdpRdpSuppressOutput, resizeScreen,
        active, Option.map_some, Option.some.injEq] at same
      exact absurd (by rw [← same]) other

omit [Pixman R] in
theorem ready_step_suppressed {before after : Mm R} {answers : ResizeAnswers}
    (kept : SuppressedInResize before) (step : ReadyStep before answers after) : SuppressedInResize after := by
  cases step with
  | idle => exact kept
  | started description src rest _ _ _ =>
      intro later same other
      obtain rfl : _ = later := by simpa using same
      exact absurd rfl other
  | dropped head rest _ _ => exact kept
  | cleared resize _ _ =>
      intro later same
      simp at same
  | stepped resize after _ active moved =>
      exact @resize_step_suppressed R { before with resizeReady := false } after resize active kept
        moved

omit [Pixman R] in
theorem suppressed_same {before after : Mm R} (kept : SuppressedInResize before)
    (resize : after.resizeData = before.resizeData)
    (mask : Suppressed before → Suppressed after) : SuppressedInResize after := by
  intro active same deleted complete
  exact mask (kept active (resize ▸ same) deleted complete)

omit [Pixman R] in
theorem suppressed_output {before after : Mm R} (kept : SuppressedInResize before)
    (only : OutputOnly before after) : SuppressedInResize after := by
  rw [OutputOnly] at only
  rw [only]
  exact kept

omit [Pixman R] in
theorem suppressed_answer {before : Mm R} (kept : SuppressedInResize before)
    {waiting next : DisplayResizeState} (deleted : waiting ≠ .encoderDelete)
    (complete : waiting ≠ .complete)
    (active : before.resizeData.map (·.state) = some waiting) :
    SuppressedInResize (advanceResizeStateMachine before next) := by
  obtain ⟨resize, same, state⟩ := Option.map_eq_some_iff.mp active
  have suppressed : Suppressed before := by
    apply kept resize same
    · rwa [state]
    · rwa [state]
  intro _ _ _ _
  exact suppressed

theorem caps_suppressed {before : Mm R} (kept : SuppressedInResize before)
    (best : Option (Int × Int)) (framesInFlight : Option Int) :
    SuppressedInResize (xrdpMmEgfxCapsAdvertise before best framesInFlight) := by
  cases best with
  | none => exact kept
  | some codec =>
      have confirmed := @suppressed_output R { before with egfxUp := true } _ kept
        (output_only_confirm before codec framesInFlight)
      simp only [xrdpMmEgfxCapsAdvertise, xrdpMmEgfxInvalidateWmScreen]
      split
      · exact confirmed
      · exact confirmed

omit [Pixman R] in
theorem error_step_suppressed {before after : Mm R} {resize : DisplayControlMonitorLayoutData}
    (failed : resize.state = .error) (suppressed : Suppressed before)
    (step : ResizeStep { before with resizeReady := false } resize after) : Suppressed after := by
  cases step with
  | waiting => exact suppressed
  | suppressed output state deleting => simp [failed] at deleting
  | advanced output state follows =>
      rw [failed] at follows
      cases follows with
      | failed _ _ _ _ other => exact absurd rfl other
  | synced output state processed => simp [failed] at processed
  | resized output moved creating => simp [failed] at creating

theorem event_suppressed {before : Mm R} (kept : SuppressedInResize before) (event : Event) :
    SuppressedInResize (runEvent before event) := by
  cases event with
  | beginUpdate => exact kept
  | paint paint =>
      simp only [runEvent, serverPaint]
      split
      · exact kept
      · exact kept
  | endUpdate =>
      simp only [runEvent, serverEndUpdate, addDirtyRegionToPlanarList]
      split
      · exact kept
      · split
        · split
          · exact kept
          · exact kept
        · exact kept
  | clientSuppressOutput suppress =>
      apply suppressed_same kept rfl
      intro suppressed
      simpa [runEvent, Suppressed, xrdpRdpSuppressOutput] using suppressed
  | coreSuppressOutput suppress =>
      apply suppressed_same kept rfl
      intro suppressed
      simpa [runEvent, Suppressed, xrdpRdpSuppressOutput] using suppressed
  | capsAdvertise best framesInFlight => exact caps_suppressed kept best framesInFlight
  | frameAck suspend frameId =>
      exact suppressed_output kept (output_only_frame_ack before suspend frameId)
  | resizeRequest src description => exact kept
  | resizeReady answers => exact ready_step_suppressed kept (check_resize_ready_step before answers)
  | monitorResizeDone =>
      simp only [runEvent, serverMonitorResizeDone]
      split
      · rename_i waiting
        apply suppressed_answer kept _ _ waiting <;> simp
      · exact kept
  | upAndRunning =>
      simp only [runEvent, xrdpMmUpAndRunning]
      split
      · rename_i waiting
        apply suppressed_answer kept _ _ waiting <;> simp
      · exact kept
  | draw now =>
      rcases check_screen_dirty_frame before now with same | ⟨output, same⟩
      · rw [runEvent, same]
        exact kept
      · rw [runEvent, same]
        exact kept
  | encDone => exact suppressed_output kept (output_only_enc_done before)
  | workerTakes allocs => exact kept
  | workerStep => exact kept

theorem reachable_suppressed {self : Mm R} (reachable : session.Reachable self) :
    SuppressedInResize self := by
  apply System.reachable_invariant SuppressedInResize _ _ reachable
  · intro start initial resize active
    have started : Started start := initial
    rw [started.resizeData] at active
    exact absurd active (by simp)
  · intro before event after kept stepped
    rw [← stepped.2]
    exact event_suppressed kept event

/-- However far the resize had come, the state in which the queue has cleared it is not
recovered: output stays suppressed. -/
theorem failed_resize_not_recovered {before : Mm R} {resize : DisplayControlMonitorLayoutData}
    (reachable : session.Reachable before) (active : before.resizeData = some resize)
    (failed : resize.state = .error) {answers : ResizeAnswers}
    (cleared : (runEvent before (.resizeReady answers)).resizeData = none) (start : Mm R) :
    ¬Recovered start (runEvent before (.resizeReady answers)) := by
  intro recovered
  apply recovered.output
  have suppressed : Suppressed before :=
    reachable_suppressed reachable resize active (by simp [failed]) (by simp [failed])
  generalize after_def : runEvent before (.resizeReady answers) = after at cleared ⊢
  have step : ReadyStep before answers after := after_def ▸ check_resize_ready_step before answers
  cases step with
  | idle => exact suppressed
  | started => simp at cleared
  | dropped => exact suppressed
  | cleared => exact suppressed
  | stepped other after _ same moved =>
      obtain rfl : resize = other := by simpa [active] using same
      exact error_step_suppressed failed suppressed moved

/-- A resize that the module refuses, up to the state in which it has failed. -/
def failedResize : List Event :=
  [.capsAdvertise (some (1, 0)) (some 2),
    .resizeRequest .fromClient (pixelSizes 2),
    .resizeReady resizeWorks,
    .resizeReady resizeWorks,
    .resizeReady resizeWorks,
    .resizeReady { resizeWorks with moduleResize := .failed }]

theorem failed_resize_reachable :
    session.Reachable (runEvents (startedSession 1 false) failedResize) := by
  refine ⟨_, failedResize, started_session 1 false, run_of_events ?_⟩
  simp only [failedResize, AllMeet, Permitted]
  decide

theorem failed_resize_not_recovered_module :
    ¬Recovered (runEvents (startedSession 1 false) (failedResize.take 3))
      (runEvent (runEvents (startedSession 1 false) failedResize) (.resizeReady resizeWorks)) :=
  failed_resize_not_recovered failed_resize_reachable rfl rfl rfl _

/-- Nothing of what the resize took away is given back: the output, the encoder and the
surface. -/
theorem refused_resize_unusable :
    (runEvent (runEvents (startedSession 1 false) failedResize)
        (.resizeReady resizeWorks)).resizeData = none ∧
      ¬Recovered (runEvents (startedSession 1 false) (failedResize.take 3))
        (runEvent (runEvents (startedSession 1 false) failedResize) (.resizeReady resizeWorks)) := by
  constructor
  · rfl
  · intro recovered
    have encoder := recovered.encoder rfl
    exact absurd encoder (by decide)

end XrdpConsole.ResizeRecovery
