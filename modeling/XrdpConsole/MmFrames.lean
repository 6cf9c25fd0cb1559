import XrdpConsole.DrawSteps
import XrdpConsole.MmSession

/-!
# What each event leaves alone

Sends, draws, completions, acknowledgements and the encoder thread change the
output side of the connection manager only; the states of the resize machine have
one lemma each for what they do to the rest.
-/

namespace XrdpConsole.MmFrames

open XrdpConsole.Library
open XrdpConsole.Region
open XrdpConsole.MmState
open XrdpConsole.PlanarSend
open XrdpConsole.PlanarWorker
open XrdpConsole.ResizeMachine
open XrdpConsole.DrawSteps
open XrdpConsole.MmSession

set_option autoImplicit false

variable {R : Type}

/-- The fields the output side may change. -/
structure Output where
  egfx : Egfx
  encoder : Option Encoder
  vncGfxAsyncPending : Bool
  nextAddress : Nat
  freed : List Nat
  allocResults : List Bool

def outputOf (self : Mm R) : Output where
  egfx := self.egfx
  encoder := self.encoder
  vncGfxAsyncPending := self.vncGfxAsyncPending
  nextAddress := self.nextAddress
  freed := self.freed
  allocResults := self.allocResults

def withOutput (self : Mm R) (output : Output) : Mm R :=
  { self with
    egfx := output.egfx
    encoder := output.encoder
    vncGfxAsyncPending := output.vncGfxAsyncPending
    nextAddress := output.nextAddress
    freed := output.freed
    allocResults := output.allocResults }

def OutputOnly (before after : Mm R) : Prop := after = withOutput before (outputOf after)

theorem output_only_refl (self : Mm R) : OutputOnly self self := rfl

theorem output_only_trans {before middle after : Mm R} (first : OutputOnly before middle)
    (second : OutputOnly middle after) : OutputOnly before after := by
  rw [OutputOnly] at first second ⊢
  rw [second, first]
  rfl

theorem output_only_sends {before after : Mm R} {pdus : List GfxPdu}
    (sent : SendsOnly before after pdus) : OutputOnly before after := by
  obtain ⟨messages, results, rfl, -⟩ := sent
  rfl

theorem output_only_each (self : Mm R) (pdus : List GfxPdu) :
    OutputOnly self (sendEach self pdus) := output_only_sends (sends_only_each self pdus)

theorem output_only_send (self : Mm R) (pdu : GfxPdu) :
    OutputOnly self (xrdpEgfxSend self pdu).2 := output_only_sends (sends_only_send self pdu)

theorem output_only_encoder (self : Mm R) (encoder : Option Encoder) :
    OutputOnly self { self with encoder } := rfl

theorem output_only_step {before after : Mm R} {bitmap : Bitmap} {rects : List Rect}
    {surfaceId x y : Int} (step : SendStep before bitmap rects surfaceId x y after) :
    OutputOnly before after := by
  cases step with
  | refused => rfl
  | queued => rfl
  | framed sent committed _ _ sends =>
      exact output_only_trans (output_only_sends sends) (output_only_encoder sent _)

/-- The messages of a completion. -/
def completionPdus (encDone : EncDone) : List GfxPdu :=
  donePdus encDone ++
    if encDone.last = true ∧ (encDone.continuation = true ∨ 0 < encDone.compPadData.length) then
      [.endFrame encDone.frameId]
    else []

theorem finish_frame_effect (self : Mm R) (encDone : EncDone) :
    ∃ sent frameId, SendsOnly self sent
        (if encDone.continuation = true ∨ 0 < encDone.compPadData.length then
          [.endFrame encDone.frameId] else []) ∧
      finishFrame self encDone = { sent with encoder := withFrameId self.encoder frameId } := by
  have ended := sends_only_send self (.endFrame encDone.frameId)
  have same := sends_only_encoder ended
  simp only [finishFrame]
  by_cases some_data : encDone.continuation = true ∨ 0 < encDone.compPadData.length
  · rw [if_pos some_data, if_pos some_data]
    by_cases committed : ((xrdpEgfxSend self (.endFrame encDone.frameId)).1 &&
        (xrdpEgfxSend self (.endFrame encDone.frameId)).2.vncGfxBackpressure) = true
    · refine ⟨_, some encDone.frameId, ended, ?_⟩
      rw [if_pos committed, withFrameId, same]
    · refine ⟨_, none, ended, ?_⟩
      rw [if_neg committed, withFrameId, ← same]
  · rw [if_neg some_data, if_neg some_data]
    exact ⟨self, none, sends_only_refl self, rfl⟩

/-- A completion sends its messages; the last one of a job releases it. -/
theorem process_done_effect (self : Mm R) (encDone : EncDone) :
    ∃ sent frameId, SendsOnly self sent (completionPdus encDone) ∧
      xrdpMmProcessVncPlanarDone self encDone =
        { sent with
          encoder := withFrameId self.encoder frameId
          vncGfxAsyncPending := self.vncGfxAsyncPending && !encDone.last
          freed := if encDone.last then self.freed ++ [encDone.enc.address] else self.freed } := by
  have sent := sends_only_each self (donePdus encDone)
  obtain ⟨messages, results, same, -⟩ := id sent
  simp only [xrdpMmProcessVncPlanarDone, completionPdus]
  cases last : encDone.last with
  | false =>
      refine ⟨sendEach self (donePdus encDone), none, ?_, ?_⟩
      · simpa using sent
      · rw [same]
        simp [withFrameId]
  | true =>
      obtain ⟨finished, frameId, sentEnd, after⟩ :=
        finish_frame_effect (sendEach self (donePdus encDone)) encDone
      refine ⟨finished, frameId, ?_, ?_⟩
      · simpa using sends_only_trans sent sentEnd
      · rw [if_pos rfl, releaseJob, after]
        obtain ⟨messagesEnd, resultsEnd, rfl, -⟩ := sentEnd
        rw [same]
        simp

theorem output_only_done (self : Mm R) (encDone : EncDone) :
    OutputOnly self (xrdpMmProcessVncPlanarDone self encDone) := by
  obtain ⟨sent, frameId, sends, after⟩ := process_done_effect self encDone
  rw [after]
  exact output_only_trans (output_only_sends sends) rfl

theorem output_only_enc_done (self : Mm R) : OutputOnly self (xrdpMmProcessEncDone self) := by
  unfold xrdpMmProcessEncDone
  split
  · exact output_only_refl self
  · split
    · exact output_only_refl self
    · exact output_only_trans (output_only_encoder self _) (output_only_done _ _)

theorem output_only_frame_ack (self : Mm R) (suspend : Bool) (frameId : Int) :
    OutputOnly self (xrdpMmEgfxFrameAck self suspend frameId) := by
  unfold xrdpMmEgfxFrameAck
  split
  · exact output_only_refl self
  · exact output_only_encoder self _

theorem output_only_confirm (self : Mm R) (codec : Int × Int) (framesInFlight : Option Int) :
    OutputOnly { self with egfxUp := true } (confirmCaps self codec framesInFlight) := by
  obtain ⟨output, confirmed⟩ : ∃ output, sendEach self [.capsConfirm codec.1 codec.2,
      .resetGraphics self.wm.screen.width self.wm.screen.height
        self.wm.clientInfo.displaySizes.minfo] = withOutput self output :=
    ⟨_, output_only_each self _⟩
  simp only [confirmCaps]
  rw [confirmed]
  have created := output_only_each { withOutput self output with egfxUp := true }
    (createSurfacesPdus { withOutput self output with egfxUp := true })
  exact output_only_trans created (output_only_encoder _ (xrdpEncoderCreate framesInFlight))

/-- A draw either leaves the state alone or throws the dirty region away. -/
theorem check_screen_dirty_frame [Pixman R] (self : Mm R) (now : Int) :
    (checkScreenDirty self now).2 = self ∨ ∃ output, (checkScreenDirty self now).2 =
      { withOutput self output with
        wm.screenDirtyRegion := none
        wm.lastScreenDrawTime := now } := by
  unfold checkScreenDirty
  split
  · exact .inl rfl
  · rename_i region _
    split
    · right
      have drawn : OutputOnly self (xrdpMmDrawDirty self region).2 :=
        draw_dirty_preserves (OutputOnly self)
          (fun _ _ _ _ _ kept step => output_only_trans kept (output_only_step step))
          (output_only_refl self)
      refine ⟨outputOf (xrdpMmDrawDirty self region).2, ?_⟩
      simp only []
      rw [← drawn]
    · exact .inl rfl

/-! ## The resize machine -/

/-- The states that follow one another without a change to the rest. -/
inductive Follows : DisplayResizeState → DisplayResizeState → Prop where
  | reset : Follows .egfxResetGraphics .serverMonitorResize
  | processing : Follows .serverMonitorResize .serverMonitorMessageProcessing
  | processed : Follows .serverMonitorResize .serverMonitorMessageProcessed
  | coreReset : Follows .xrdpCoreReset .xrdpCoreResetProcessing
  | created : Follows .xrdpCoreResetProcessed .encoderCreate
  | failed (state : DisplayResizeState) : state ≠ .encoderDelete →
      state ≠ .serverMonitorMessageProcessed → state ≠ .complete → state ≠ .error →
      Follows state .error

/-- What a round of the machine does outside the output side. -/
inductive ResizeStep (before : Mm R) (resize : DisplayControlMonitorLayoutData) : Mm R → Prop where
  | waiting : ResizeStep before resize before
  | suppressed (output : Output) (state : DisplayResizeState) :
      resize.state = .encoderDelete → state = .egfxResetGraphics ∨ state = .serverMonitorResize →
      ResizeStep before resize (withOutput (advanceResizeStateMachine
        (xrdpRdpSuppressOutput before true .dynamicResize) state) output)
  | advanced (output : Output) (state : DisplayResizeState) : Follows resize.state state →
      ResizeStep before resize (withOutput (advanceResizeStateMachine before state) output)
  | synced (output : Output) (state : DisplayResizeState) :
      resize.state = .serverMonitorMessageProcessed →
      state = .xrdpCoreReset ∨ state = .encoderCreate →
      ResizeStep before resize (withOutput (advanceResizeStateMachine
        (syncDynamicMonitorData before resize.description) state) output)
  | resized (output : Output) (moved : Bool) : resize.state = .encoderCreate →
      ResizeStep before resize (withOutput (advanceResizeStateMachine
        (xrdpRdpSuppressOutput (resizeScreen before resize.description moved) false
          .dynamicResize) .complete) output)

theorem advanced_after {before middle : Mm R} {resize : DisplayControlMonitorLayoutData}
    (kept : OutputOnly before middle) (state : DisplayResizeState)
    (follows : Follows resize.state state) :
    ResizeStep before resize (advanceResizeStateMachine middle state) := by
  have step := @ResizeStep.advanced R before resize (outputOf middle) state follows
  rw [kept]
  exact step

theorem reset_graphics_step (self : Mm R) (resize : DisplayControlMonitorLayoutData)
    (resetting : resize.state = .egfxResetGraphics) :
    ResizeStep self resize (egfxResetGraphics self resize.description) := by
  have sent := output_only_trans (output_only_each self (deleteSurfacesPdus self))
    (output_only_send (xrdpMmEgfxDeleteSurfaces self) (.resetGraphics
      resize.description.sessionWidth resize.description.sessionHeight resize.description.minfo))
  simp only [egfxResetGraphics]
  split
  · exact advanced_after sent _ (resetting ▸ .reset)
  · exact advanced_after sent _ (resetting ▸ .failed _ (by simp) (by simp) (by simp) (by simp))

theorem output_only_recreate (self : Mm R) (framesInFlight : Option Int) :
    OutputOnly self (recreateOutput self framesInFlight) := by
  unfold recreateOutput
  simp only []
  split
  · exact output_only_trans (output_only_each self _) (output_only_encoder _ _)
  · exact output_only_encoder self _

theorem encoder_create_step (self : Mm R) (resize : DisplayControlMonitorLayoutData)
    (answers : ResizeAnswers) (creating : resize.state = .encoderCreate) :
    ResizeStep self resize (encoderCreate self resize.description answers) := by
  have created := output_only_recreate self answers.framesInFlight
  simp only [encoderCreate]
  generalize recreateOutput self answers.framesInFlight = middle at created ⊢
  split
  · rw [created]
    exact .resized _ answers.bitmapMoved creating
  · exact advanced_after created _ (creating ▸ .failed _ (by simp) (by simp) (by simp) (by simp))

theorem process_resize_step (self : Mm R) (resize : DisplayControlMonitorLayoutData)
    (answers : ResizeAnswers) :
    ResizeStep self resize (processDisplayControlMonitorLayoutData self resize answers) := by
  have unchanged := output_only_refl self
  unfold processDisplayControlMonitorLayoutData
  split
  · exact .waiting
  · split
    · rename_i deleting
      have after : (if self.egfxUp then DisplayResizeState.egfxResetGraphics
          else .serverMonitorResize) = .egfxResetGraphics ∨
          (if self.egfxUp then DisplayResizeState.egfxResetGraphics else .serverMonitorResize) =
            .serverMonitorResize := by split <;> simp
      exact @ResizeStep.suppressed R self resize (outputOf (encoderDelete self)) _ deleting after
    · exact reset_graphics_step self resize ‹_›
    · rename_i resizing
      cases answers.moduleResize with
      | failed =>
          exact advanced_after unchanged _
            (resizing ▸ .failed _ (by simp) (by simp) (by simp) (by simp))
      | inProgress => exact advanced_after unchanged _ (resizing ▸ .processing)
      | done => exact advanced_after unchanged _ (resizing ▸ .processed)
    · rename_i processed
      have after : (if self.egfxUp then DisplayResizeState.encoderCreate else .xrdpCoreReset) =
            .xrdpCoreReset ∨
          (if self.egfxUp then DisplayResizeState.encoderCreate else .xrdpCoreReset) =
            .encoderCreate := by split <;> simp
      exact @ResizeStep.synced R self resize (outputOf self) _ processed after
    · rename_i resetting
      unfold xrdpCoreReset
      split
      · exact advanced_after unchanged _ (resetting ▸ .coreReset)
      · exact advanced_after unchanged _
          (resetting ▸ .failed _ (by simp) (by simp) (by simp) (by simp))
    · rename_i processed
      unfold xrdpCoreResetProcessed
      split
      · exact advanced_after unchanged _ (processed ▸ .created)
      · exact advanced_after unchanged _
          (processed ▸ .failed _ (by simp) (by simp) (by simp) (by simp))
    · exact encoder_create_step self resize answers ‹_›
    · exact .waiting

/-- A look at the queue gets as far as the resize that is under way. -/
def Processes (self : Mm R) (answers : ResizeAnswers) : Prop :=
  self.resizeReady = true ∧ answers.canResize = true ∧ self.modHandle = true

instance (self : Mm R) (answers : ResizeAnswers) : Decidable (Processes self answers) :=
  inferInstanceAs (Decidable (_ ∧ _ ∧ _))

/-- What a look at the resize queue does. -/
inductive ReadyStep (before : Mm R) (answers : ResizeAnswers) : Mm R → Prop where
  | idle (resizeReady : Bool) : ReadyStep before answers { before with resizeReady }
  | started (description : DisplaySizeDescription) (src : ResizeQueueSource)
      (rest : List ResizeQueueItem) : before.resizeData = none →
      before.resizeQueue = { src, description } :: rest → HasSize description →
      ReadyStep before answers { before with
        resizeData := some { description, state := .encoderDelete }
        resizeReady := true
        resizeQueue := rest }
  | dropped (head : ResizeQueueItem) (rest : List ResizeQueueItem) : before.resizeData = none →
      before.resizeQueue = head :: rest →
      ReadyStep before answers { before with resizeReady := true, resizeQueue := rest }
  | cleared (resize : DisplayControlMonitorLayoutData) : before.resizeData = some resize →
      resize.state = .complete ∨ resize.state = .error →
      ReadyStep before answers { before with resizeReady := true, resizeData := none }
  | stepped (resize : DisplayControlMonitorLayoutData) (after : Mm R) :
      Processes before answers → before.resizeData = some resize →
      ResizeStep { before with resizeReady := false } resize after →
      ReadyStep before answers after

theorem check_resize_ready_step (self : Mm R) (answers : ResizeAnswers) :
    ReadyStep self answers (checkResizeReady self answers) := by
  unfold checkResizeReady
  split
  · rename_i ready
    unfold dynamicMonitorProcessQueue
    split
    · exact .idle false
    · rename_i can_resize
      split
      · rename_i none_active
        split
        · exact .idle false
        · rename_i head rest queued
          simp only [startResize]
          split
          · rename_i accepted
            exact .started head.description head.src rest none_active queued
              (by simp only [HasSize]; omega)
          · exact .dropped head rest none_active queued
      · rename_i resize active
        split
        · exact .cleared resize active ‹_›
        · by_cases module : self.modHandle = true
          · exact .stepped resize _ ⟨ready, by simpa using can_resize, module⟩ active
              (process_resize_step _ resize answers)
          · rw [processDisplayControlMonitorLayoutData, if_pos (by simpa using module)]
            exact .idle false
  · exact .idle self.resizeReady

end XrdpConsole.MmFrames
