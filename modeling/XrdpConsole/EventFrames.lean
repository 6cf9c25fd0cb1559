import XrdpConsole.AsyncPending

/-!
# Frames and jobs of single events

Only draws schedule jobs, and only draws and completions send frames. The start of the
frame of a job goes out with its first completion.
-/

namespace XrdpConsole.EventFrames

open XrdpConsole.Library
open XrdpConsole.Region
open XrdpConsole.MmState
open XrdpConsole.PlanarSend
open XrdpConsole.PlanarWorker
open XrdpConsole.ResizeMachine
open XrdpConsole.DrawSteps
open XrdpConsole.MmSession
open XrdpConsole.MmFrames
open XrdpConsole.JobCompletions
open XrdpConsole.WorkerTrace
open XrdpConsole.PlanarPipeline
open XrdpConsole.AsyncPending

set_option autoImplicit false

variable {R : Type}

/-! ## Starts of frames -/

def isStart : GfxPdu → Bool
  | .startFrame .. => true
  | _ => false

def startedFrames (mm : Mm R) : Nat := mm.egfx.sent.countP isStart

def scheduledJobs (mm : Mm R) : Nat := (mm.encoder.map (·.fifoToProc.length)).getD 0

/-- The start of a frame is sent, or a job is scheduled. -/
def StartsFrame (before after : Mm R) : Prop :=
  startedFrames before < startedFrames after ∨ scheduledJobs before < scheduledJobs after

instance (before after : Mm R) : Decidable (StartsFrame before after) :=
  inferInstanceAs (Decidable (_ ∨ _))

/-- The start of a frame is sent with this completion. -/
def OpensFrame (encDone : EncDone) : Prop :=
  encDone.continuation = false ∧ 0 < encDone.compPadData.length

/-- A job is on its way whose frame has not been started. -/
def FrameToCome (encoder : Encoder) : Prop :=
  encoder.fifoToProc ≠ [] ∨ ∃ encDone ∈ upcoming encoder, OpensFrame encDone

/-! ## Jobs on their way -/

theorem frame_to_come_same {before after : Encoder} (same : SameQueues before after)
    (coming : FrameToCome after) : FrameToCome before := by
  rwa [FrameToCome, same.queue, same_queues_upcoming same] at coming

theorem idle_none_coming {encoder : Encoder} (idle : Idle encoder) : ¬FrameToCome encoder := by
  simp [FrameToCome, idle.queue, idle.coming]

theorem created_none_coming {framesInFlight : Option (Option Int)} {encoder : Encoder}
    (created : Option.bind framesInFlight xrdpEncoderCreate = some encoder) :
    ¬FrameToCome encoder := by
  obtain ⟨frames, -, made⟩ := Option.bind_eq_some_iff.mp created
  exact idle_none_coming (created_idle made)

theorem pop_frame_to_come {encoder : Encoder} {encDone : EncDone} {rest : List EncDone}
    (processed : encoder.fifoProcessed = encDone :: rest)
    (coming : FrameToCome { encoder with fifoProcessed := rest }) : FrameToCome encoder := by
  rcases coming with queued | ⟨done, member, opens⟩
  · exact .inl queued
  · refine .inr ⟨done, ?_, opens⟩
    rw [upcoming, processed, List.cons_append]
    exact List.mem_cons_of_mem _ member

theorem take_frame_to_come {encoder : Encoder} {allocs : List Bool}
    (coming : FrameToCome (procEncMsg encoder allocs)) : FrameToCome encoder := by
  unfold procEncMsg at coming
  split at coming
  · rename_i queued
    exact .inl (by simp [queued])
  · exact coming

theorem step_frame_to_come {encoder : Encoder}
    (coming : FrameToCome (PlanarWorker.workerStep encoder)) : FrameToCome encoder := by
  rwa [FrameToCome, queue_step, upcoming_step] at coming

/-- What no event changes. -/
structure SameSettings (before after : Mm R) : Prop where
  isVnc : after.isVnc = before.isVnc
  backpressure : after.vncGfxBackpressure = before.vncGfxBackpressure
  asyncPlanar : after.vncGfxAsyncPlanar = before.vncGfxAsyncPlanar

theorem same_settings_output {before after : Mm R} (kept : OutputOnly before after) :
    SameSettings before after := by
  rw [kept]
  exact ⟨rfl, rfl, rfl⟩

/-! ## Messages outside of frames -/

def inFrame : GfxPdu → Bool
  | .startFrame .. => true
  | .wireToSurface1 .. => true
  | .endFrame .. => true
  | _ => false

/-- All that is sent is outside of frames. -/
def OutsideFrames (before after : Mm R) : Prop :=
  ∃ sent, after.egfx.sent = before.egfx.sent ++ sent ∧ ∀ pdu ∈ sent, inFrame pdu = false

theorem outside_same {before after : Mm R} (same : after.egfx = before.egfx) :
    OutsideFrames before after := ⟨[], by rw [same, List.append_nil], by simp⟩

theorem outside_trans {before middle after : Mm R} (first : OutsideFrames before middle)
    (second : OutsideFrames middle after) : OutsideFrames before after := by
  obtain ⟨sent, same, outside⟩ := first
  obtain ⟨later, sameLater, outsideLater⟩ := second
  refine ⟨sent ++ later, by rw [sameLater, same, List.append_assoc], ?_⟩
  intro pdu member
  rcases List.mem_append.mp member with earlier | later
  · exact outside pdu earlier
  · exact outsideLater pdu later

theorem outside_send (self : Mm R) {pdu : GfxPdu} (outside : inFrame pdu = false) :
    OutsideFrames self (xrdpEgfxSend self pdu).2 := by
  unfold xrdpEgfxSend
  cases self.egfx.sendResults.headD true with
  | true => exact ⟨[pdu], rfl, by simpa using outside⟩
  | false => exact ⟨[], (List.append_nil _).symm, by simp⟩

theorem outside_each (self : Mm R) {pdus : List GfxPdu}
    (outside : ∀ pdu ∈ pdus, inFrame pdu = false) : OutsideFrames self (sendEach self pdus) := by
  induction pdus generalizing self with
  | nil => exact outside_same rfl
  | cons pdu rest ih =>
      have later := ih (xrdpEgfxSend self pdu).2
        fun other member => outside other (List.mem_cons_of_mem pdu member)
      exact outside_trans (outside_send self (outside pdu (List.mem_cons_self ..))) later

theorem outside_started {before after : Mm R} (outside : OutsideFrames before after) :
    startedFrames after = startedFrames before := by
  obtain ⟨sent, same, outside⟩ := outside
  have none_started : sent.countP isStart = 0 := by
    rw [List.countP_eq_zero]
    intro pdu member
    have found := outside pdu member
    cases pdu with
    | startFrame frameId timestamp => exact absurd found (by simp [inFrame])
    | _ => simp [isStart]
  rw [startedFrames, same, List.countP_append, none_started, startedFrames, Nat.add_zero]

/-! ## The resize machine -/

theorem create_surfaces_outside (self : Mm R) :
    ∀ pdu ∈ createSurfacesPdus self, inFrame pdu = false := by
  intro pdu member
  unfold createSurfacesPdus createSurfacePdus at member
  split at member
  · simp only [List.mem_cons, List.not_mem_nil, or_false] at member
    rcases member with rfl | rfl <;> rfl
  · obtain ⟨item, -, made⟩ := List.mem_flatMap.mp member
    simp only [List.mem_cons, List.not_mem_nil, or_false] at made
    rcases made with rfl | rfl <;> rfl

theorem delete_surfaces_outside (self : Mm R) :
    ∀ pdu ∈ deleteSurfacesPdus self, inFrame pdu = false := by
  intro pdu member
  unfold deleteSurfacesPdus at member
  split at member
  · rw [List.mem_singleton.mp member]
    rfl
  · obtain ⟨index, -, rfl⟩ := List.mem_map.mp member
    rfl

theorem process_resize_outside (self : Mm R) (resize : DisplayControlMonitorLayoutData)
    (answers : ResizeAnswers) :
    OutsideFrames self (processDisplayControlMonitorLayoutData self resize answers) := by
  unfold processDisplayControlMonitorLayoutData
  split
  · exact outside_same rfl
  · split
    · exact outside_same rfl
    · have deleted := outside_each self (delete_surfaces_outside self)
      have reset := @outside_send R (xrdpMmEgfxDeleteSurfaces self)
        (.resetGraphics resize.description.sessionWidth resize.description.sessionHeight
          resize.description.minfo) rfl
      simp only [egfxResetGraphics]
      split
      · exact outside_trans deleted reset
      · exact outside_trans deleted reset
    · cases answers.moduleResize <;> exact outside_same rfl
    · exact outside_same rfl
    · unfold xrdpCoreReset
      split <;> exact outside_same rfl
    · unfold xrdpCoreResetProcessed
      split <;> exact outside_same rfl
    · have created : OutsideFrames self (recreateOutput self answers.framesInFlight) := by
        simp only [recreateOutput]
        split
        · exact outside_each self (create_surfaces_outside self)
        · exact outside_same rfl
      simp only [encoderCreate]
      split
      · exact created
      · exact created
    · exact outside_same rfl

theorem resize_ready_outside (self : Mm R) (answers : ResizeAnswers) :
    OutsideFrames self (checkResizeReady self answers) := by
  unfold checkResizeReady
  split
  · unfold dynamicMonitorProcessQueue
    split
    · exact outside_same rfl
    · split
      · split
        · exact outside_same rfl
        · simp only [startResize]
          split <;> exact outside_same rfl
      · split
        · exact outside_same rfl
        · exact process_resize_outside { self with resizeReady := false } _ answers
  · exact outside_same rfl

theorem resize_ready_settings (self : Mm R) (answers : ResizeAnswers) :
    SameSettings self (checkResizeReady self answers) := by
  have step := check_resize_ready_step self answers
  generalize checkResizeReady self answers = after at step ⊢
  cases step with
  | stepped resize after _ _ stepped => cases stepped <;> exact ⟨rfl, rfl, rfl⟩
  | _ => exact ⟨rfl, rfl, rfl⟩

/-! ## The limit of an encoder -/

def limitOf (encoder : Option Encoder) : Option Int := encoder.map (·.framesInFlight)

theorem with_frame_id_limit (encoder : Option Encoder) (frameId : Option Int) :
    limitOf (withFrameId encoder frameId) = limitOf encoder := by
  cases frameId with
  | none => rfl
  | some frameId => simp [limitOf, withFrameId, Function.comp_def]

theorem created_limit {framesInFlight : Option Int} {encoder : Encoder}
    (created : xrdpEncoderCreate framesInFlight = some encoder) : 0 < encoder.framesInFlight := by
  obtain ⟨frames, -, rfl⟩ := Option.map_eq_some_iff.mp created
  simp only []
  omega

section Limits

variable [Pixman R]

/-- An encoder keeps its limit until it is replaced. -/
theorem event_limit (mm : Mm R) (event : Event) :
    limitOf (runEvent mm event).encoder = limitOf mm.encoder ∨
      ∃ framesInFlight, (runEvent mm event).encoder =
        Option.bind framesInFlight xrdpEncoderCreate := by
  have effect := event_effect mm event
  generalize runEvent mm event = after at effect ⊢
  cases effect with
  | quiet _ _ _ _ _ _ encoder => exact .inl (congrArg limitOf encoder)
  | acknowledged suspend frameId =>
      left
      simp only [xrdpMmEgfxFrameAck]
      split
      · rfl
      · rename_i encoder present
        simp only [limitOf, present, Option.map_some, xrdpMmUpdateModuleFrameAck]
        split <;> rfl
  | replaced _ _ framesInFlight _ _ encoder => exact .inr ⟨framesInFlight, encoder⟩
  | drawn now =>
      left
      apply check_dirty_preserves fun after : Mm R => limitOf after.encoder = limitOf mm.encoder
      · exact fun _ _ same => same
      · intro middle after _ _ _ _ _ _ same step
        cases step with
        | refused allocResults => exact same
        | queued allocResults encoder total _ present =>
            rw [← same, present]
            rfl
        | framed sent committed =>
            exact (with_frame_id_limit middle.encoder committed).trans same
      · rfl
  | handled =>
      left
      have step := enc_done_step mm
      generalize xrdpMmProcessEncDone mm = after at step ⊢
      cases step with
      | idle => rfl
      | handled encoder encDone rest sent frameId present _ _ =>
          rw [present]
          exact with_frame_id_limit _ frameId
  | taken allocs =>
      left
      simp only [limitOf, Option.map_map]
      apply Option.map_congr
      intro encoder _
      simp only [Function.comp_apply, procEncMsg]
      split <;> rfl
  | stepped =>
      left
      simp only [limitOf, Option.map_map]
      apply Option.map_congr
      intro encoder _
      simp only [Function.comp_apply, PlanarWorker.workerStep]
      split <;> rfl

def LimitPositive (mm : Mm R) : Prop :=
  ∀ encoder, mm.encoder = some encoder → 0 < encoder.framesInFlight

theorem limit_positive_event {mm : Mm R} (positive : LimitPositive mm) (event : Event) :
    LimitPositive (runEvent mm event) := by
  intro encoder present
  rcases event_limit mm event with same | ⟨framesInFlight, created⟩
  · rw [present] at same
    obtain ⟨before, presentBefore, limit⟩ := Option.map_eq_some_iff.mp same.symm
    have bound := positive before presentBefore
    simp only at limit
    omega
  · rw [present] at created
    obtain ⟨frames, -, made⟩ := Option.bind_eq_some_iff.mp created.symm
    exact created_limit made

end Limits

section Events

variable [Pixman R] {mm : Mm R} {encoder : Encoder}

/-! ## What events leave alone -/

theorem draw_settings (mm : Mm R) (now : Int) : SameSettings mm (checkScreenDirty mm now).2 := by
  apply check_dirty_preserves (SameSettings mm)
  · exact fun _ _ same => ⟨same.isVnc, same.backpressure, same.asyncPlanar⟩
  · intro middle after _ _ _ _ _ _ same step
    have next := same_settings_output (output_only_step step)
    exact ⟨next.isVnc.trans same.isVnc, next.backpressure.trans same.backpressure,
      next.asyncPlanar.trans same.asyncPlanar⟩
  · exact ⟨rfl, rfl, rfl⟩

theorem caps_advertise_settings (mm : Mm R) (best : Option (Int × Int))
    (framesInFlight : Option Int) :
    SameSettings mm (xrdpMmEgfxCapsAdvertise mm best framesInFlight) := by
  cases best with
  | none => exact ⟨rfl, rfl, rfl⟩
  | some codec =>
      have confirmed := same_settings_output (output_only_confirm mm codec framesInFlight)
      simp only [xrdpMmEgfxCapsAdvertise, xrdpMmEgfxInvalidateWmScreen]
      split <;> exact ⟨confirmed.isVnc, confirmed.backpressure, confirmed.asyncPlanar⟩

theorem event_settings (mm : Mm R) (event : Event) : SameSettings mm (runEvent mm event) := by
  cases event with
  | paint paint =>
      simp only [runEvent, serverPaint]
      split <;> exact ⟨rfl, rfl, rfl⟩
  | endUpdate =>
      simp only [runEvent, serverEndUpdate, addDirtyRegionToPlanarList]
      split
      · exact ⟨rfl, rfl, rfl⟩
      · split
        · split <;> exact ⟨rfl, rfl, rfl⟩
        · exact ⟨rfl, rfl, rfl⟩
  | capsAdvertise best framesInFlight => exact caps_advertise_settings mm best framesInFlight
  | frameAck suspend frameId =>
      exact same_settings_output (output_only_frame_ack mm suspend frameId)
  | resizeReady answers => exact resize_ready_settings mm answers
  | monitorResizeDone =>
      simp only [runEvent, serverMonitorResizeDone]
      split <;> exact ⟨rfl, rfl, rfl⟩
  | upAndRunning =>
      simp only [runEvent, xrdpMmUpAndRunning]
      split <;> exact ⟨rfl, rfl, rfl⟩
  | draw now => exact draw_settings mm now
  | encDone => exact same_settings_output (output_only_enc_done mm)
  | _ => exact ⟨rfl, rfl, rfl⟩

omit [Pixman R] in
theorem frame_ack_encoder (present : mm.encoder = some encoder) (suspend : Bool) (frameId : Int) :
    ∃ after, (xrdpMmEgfxFrameAck mm suspend frameId).encoder = some after ∧
      SameQueues encoder after ∧ after.gfxAckOff = suspend ∧
      after.framesInFlight = encoder.framesInFlight ∧
      after.frameIdServer = encoder.frameIdServer ∧
      after.frameIdClient = (acknowledgeFrame encoder suspend frameId).frameIdClient := by
  refine ⟨xrdpMmUpdateModuleFrameAck (acknowledgeFrame encoder suspend frameId), ?_, ?_⟩
  · simp [xrdpMmEgfxFrameAck, present]
  · unfold xrdpMmUpdateModuleFrameAck
    split <;> exact ⟨⟨rfl, rfl, rfl⟩, rfl, rfl, rfl, rfl⟩

theorem caps_advertise_outside (mm : Mm R) (best : Option (Int × Int))
    (framesInFlight : Option Int) :
    OutsideFrames mm (xrdpMmEgfxCapsAdvertise mm best framesInFlight) := by
  cases best with
  | none => exact outside_same rfl
  | some codec =>
      have confirmed : OutsideFrames mm (confirmCaps mm codec framesInFlight) := by
        simp only [confirmCaps, xrdpMmEgfxCreateSurfaces]
        generalize sent_def : sendEach mm _ = sent
        have opened : OutsideFrames mm sent := by
          rw [← sent_def]
          apply outside_each
          simp [inFrame]
        exact outside_trans opened
          (outside_each { sent with egfxUp := true } (create_surfaces_outside _))
      simp only [xrdpMmEgfxCapsAdvertise, xrdpMmEgfxInvalidateWmScreen]
      split <;> exact confirmed

/-- Only draws and completions send frames. -/
theorem event_outside (mm : Mm R) {event : Event} (undrawn : ∀ now, event ≠ .draw now)
    (unhandled : event ≠ .encDone) : OutsideFrames mm (runEvent mm event) := by
  cases event with
  | paint paint =>
      simp only [runEvent, serverPaint]
      split <;> exact outside_same rfl
  | endUpdate =>
      simp only [runEvent, serverEndUpdate, addDirtyRegionToPlanarList]
      split
      · exact outside_same rfl
      · split
        · split <;> exact outside_same rfl
        · exact outside_same rfl
  | capsAdvertise best framesInFlight => exact caps_advertise_outside mm best framesInFlight
  | frameAck suspend frameId =>
      apply outside_same
      simp only [runEvent, xrdpMmEgfxFrameAck]
      split <;> rfl
  | resizeReady answers => exact resize_ready_outside mm answers
  | monitorResizeDone =>
      simp only [runEvent, serverMonitorResizeDone]
      split <;> exact outside_same rfl
  | upAndRunning =>
      simp only [runEvent, xrdpMmUpAndRunning]
      split <;> exact outside_same rfl
  | draw now => exact absurd rfl (undrawn now)
  | encDone => exact absurd rfl unhandled
  | _ => exact outside_same rfl

/-! ## Draws of jobs -/

theorem draw_path {before : Mm R}
    (path : ∀ encoder, before.encoder = some encoder → FrameToCome encoder →
      before.vncGfxAsyncPlanar = true) (now : Int) :
    ∀ encoder, (checkScreenDirty before now).2.encoder = some encoder → FrameToCome encoder →
      (checkScreenDirty before now).2.vncGfxAsyncPlanar = true := by
  apply check_dirty_preserves fun after : Mm R => ∀ encoder, after.encoder = some encoder →
    FrameToCome encoder → after.vncGfxAsyncPlanar = true
  · exact fun _ _ kept => kept
  · intro middle after _ _ _ _ _ _ kept step encoder present coming
    have settings := same_settings_output (output_only_step step)
    rw [settings.asyncPlanar]
    cases step with
    | refused allocResults => exact kept encoder present coming
    | queued _ _ _ asynchronous => exact asynchronous.1
    | framed sent committed _ _ _ =>
        have queues := with_frame_id_kept middle.encoder committed
        rw [show withFrameId middle.encoder committed = some encoder from present] at queues
        generalize same : middle.encoder = earlier at queues
        cases queues with
        | present queues => exact kept _ same (frame_to_come_same queues coming)
  · exact path

theorem draw_present {mm : Mm R} {now : Int} {after : Encoder}
    (present : (checkScreenDirty mm now).2.encoder = some after) :
    ∃ before, mm.encoder = some before := by
  have kept : (checkScreenDirty mm now).2.encoder.isSome = mm.encoder.isSome := by
    apply check_dirty_preserves fun final : Mm R => final.encoder.isSome = mm.encoder.isSome
    · exact fun _ _ same => same
    · intro middle final _ _ _ _ _ _ same step
      cases step with
      | refused allocResults => exact same
      | queued allocResults encoder total _ here =>
          rw [← same, here]
          rfl
      | framed sent committed _ _ _ =>
          rw [← same]
          cases committed <;> simp [withFrameId]
    · rfl
  rw [present] at kept
  exact Option.isSome_iff_exists.mp kept.symm

theorem draw_encoder (mm : Mm R) (now : Int) :
    (checkScreenDirty mm now).2.encoder = mm.encoder ∨
      ∃ region, mm.wm.screenDirtyRegion = some region ∧ DrawDue mm region now ∧
        (checkScreenDirty mm now).2.encoder = ((drawCalls mm region).foldl sendCall mm).encoder := by
  unfold checkScreenDirty
  split
  · exact .inl rfl
  · rename_i region dirty
    split
    · rename_i due
      right
      refine ⟨region, dirty, due, ?_⟩
      simp only [draw_dirty_calls]
    · exact .inl rfl

/-! ## Frames that events start -/

/-- Only draws schedule jobs. -/
theorem event_schedules (mm : Mm R) {event : Event} (undrawn : ∀ now, event ≠ .draw now) :
    scheduledJobs (runEvent mm event) ≤ scheduledJobs mm := by
  have effect := event_effect mm event
  generalize runEvent mm event = after at effect ⊢
  cases effect with
  | quiet _ _ _ _ _ _ same => rw [scheduledJobs, same, scheduledJobs]
  | acknowledged suspend frameId =>
      cases present : mm.encoder with
      | none => simp [scheduledJobs, xrdpMmEgfxFrameAck, present]
      | some encoder =>
          obtain ⟨other, presentAfter, queues, -⟩ := frame_ack_encoder present suspend frameId
          simp [scheduledJobs, presentAfter, present, queues.queue]
  | replaced _ _ framesInFlight _ _ created =>
      cases present : after.encoder with
      | none => simp [scheduledJobs, present]
      | some encoder =>
          have idle := created_none_coming (created.symm.trans present)
          simp only [FrameToCome, not_or, not_not] at idle
          simp [scheduledJobs, present, idle.1]
  | drawn now => exact absurd rfl (undrawn now)
  | handled =>
      have step := enc_done_step mm
      generalize xrdpMmProcessEncDone mm = after at step ⊢
      cases step with
      | idle _ => exact Nat.le_refl _
      | handled encoder encDone rest sent frameId present _ _ =>
          have queues := with_frame_id_kept (some { encoder with fifoProcessed := rest }) frameId
          simp only [scheduledJobs, afterCompletion, present]
          generalize withFrameId (some { encoder with fifoProcessed := rest }) frameId = final
            at queues
          cases queues with
          | present same => simp [same.queue]
  | taken allocs =>
      cases present : mm.encoder with
      | none => simp [scheduledJobs, present]
      | some encoder =>
          simp only [scheduledJobs, present, Option.map_some, Option.getD_some, procEncMsg]
          split
          · simp [*]
          · exact Nat.le_refl _
  | stepped =>
      cases present : mm.encoder with
      | none => simp [scheduledJobs, present]
      | some encoder =>
          simp [scheduledJobs, present, queue_step]

omit [Pixman R] in
theorem send_started (self : Mm R) {pdu : GfxPdu} (other : isStart pdu = false) :
    startedFrames (xrdpEgfxSend self pdu).2 = startedFrames self := by
  unfold xrdpEgfxSend startedFrames
  cases self.egfx.sendResults.headD true with
  | true => simp [List.countP_append, other]
  | false => rfl

omit [Pixman R] in
theorem send_each_started (self : Mm R) {pdus : List GfxPdu}
    (others : ∀ pdu ∈ pdus, isStart pdu = false) :
    startedFrames (sendEach self pdus) = startedFrames self := by
  induction pdus generalizing self with
  | nil => rfl
  | cons pdu rest ih =>
      have later := ih (xrdpEgfxSend self pdu).2
        fun other member => others other (List.mem_cons_of_mem pdu member)
      exact later.trans (send_started self (others pdu (List.mem_cons_self ..)))

omit [Pixman R] in
theorem planar_done_started (self : Mm R) {encDone : EncDone} (continues : ¬OpensFrame encDone) :
    startedFrames (xrdpMmProcessVncPlanarDone self encDone) = startedFrames self := by
  have others : ∀ pdu ∈ donePdus encDone, isStart pdu = false := by
    intro pdu member
    simp only [donePdus, List.mem_append] at member
    rcases member with starts | tile
    · split at starts
      · rename_i opens
        exact absurd ⟨by simpa using opens.1, opens.2⟩ continues
      · exact absurd starts List.not_mem_nil
    · split at tile
      · rw [List.mem_singleton.mp tile]
        rfl
      · exact absurd tile List.not_mem_nil
  have drawn := send_each_started self others
  have ended := @send_started R (sendEach self (donePdus encDone)) (.endFrame encDone.frameId) rfl
  unfold xrdpMmProcessVncPlanarDone
  simp only []
  split
  · unfold finishFrame
    split
    · simp only []
      split
      · exact ended.trans drawn
      · exact ended.trans drawn
    · exact drawn
  · exact drawn

/-- The start of a frame is sent with the first completion of a job alone. -/
theorem completion_starts (starts : StartsFrame mm (runEvent mm .encDone)) :
    ∃ encoder, mm.encoder = some encoder ∧ FrameToCome encoder := by
  have unscheduled := @event_schedules R _ mm .encDone (by simp)
  have started := starts.resolve_right (by omega)
  simp only [runEvent, xrdpMmProcessEncDone] at started
  cases present : mm.encoder with
  | none =>
      simp only [present] at started
      exact absurd started (Nat.lt_irrefl _)
  | some encoder =>
      simp only [present] at started
      cases processed : encoder.fifoProcessed with
      | nil =>
          simp only [processed] at started
          exact absurd started (Nat.lt_irrefl _)
      | cons encDone rest =>
          simp only [processed] at started
          refine ⟨encoder, rfl, .inr ⟨encDone, by simp [upcoming, processed], ?_⟩⟩
          by_contra continues
          rw [planar_done_started _ continues] at started
          exact Nat.lt_irrefl _ started

/-! ## The completion that opens a frame -/

/-- A job that is taken while there is memory has a completion that opens its frame. -/
theorem taken_opens {job : EncVncPlanar} (scheduled : Scheduled job) :
    ∃ encDone ∈ completions (processEncVncPlanar job []), OpensFrame encDone := by
  have completed := worker_completed scheduled []
  generalize completions (processEncVncPlanar job []) = dones at completed ⊢
  cases completed with
  | broken count failed => exact absurd rfl failed
  | lost count failed => exact absurd trivial failed
  | whole =>
      cases plan : jobPlan job with
      | nil => exact absurd plan (only_final_nonempty (job_plan_final scheduled))
      | cons tile rest =>
          have shape := job_plan_tiles tile (by rw [plan]; exact List.mem_cons_self ..)
          refine ⟨tile true, List.mem_cons_self .., by simp [shape.continuation], ?_⟩
          exact List.length_pos_iff.mpr (shape.data true)

/-- The completion that opens the frame of a job comes before all others. -/
theorem next_opens {job : EncVncPlanar} {handled : List EncDone} (scheduled : Scheduled job)
    (stage : Stage (fun _ => True) job handled encoder) {encDone : EncDone} {rest : List EncDone}
    (processed : encoder.fifoProcessed = encDone :: rest) (coming : FrameToCome encoder) :
    OpensFrame encDone := by
  have taken := stage_taken_queue stage processed
  obtain ⟨allocs, -, whole⟩ := stage_completions stage processed
  obtain ⟨done, member, opens⟩ := coming.resolve_left (fun queued => queued taken)
  rw [upcoming, processed, List.cons_append] at member
  rcases List.mem_cons.mp member with rfl | later
  · exact opens
  · obtain ⟨between, after, same⟩ := List.append_of_mem later
    have continues := (worker_delivery scheduled allocs).continuation
      (handled ++ encDone :: between) done after (by rw [whole, same]; simp)
    rw [opens.1] at continues
    simp at continues

theorem opening_starts (works : mm.egfx.sendResults = []) (present : mm.encoder = some encoder)
    {encDone : EncDone} {rest : List EncDone} (processed : encoder.fifoProcessed = encDone :: rest)
    (opens : OpensFrame encDone) : StartsFrame mm (runEvent mm .encDone) := by
  have step := enc_done_step mm
  simp only [runEvent]
  generalize xrdpMmProcessEncDone mm = after at step ⊢
  cases step with
  | idle nothing =>
      rw [nothing encoder present] at processed
      exact absurd processed (by simp)
  | handled other done later sent frameId same popped sends =>
      obtain rfl := Option.some.inj (present.symm.trans same)
      obtain ⟨rfl, rfl⟩ := List.cons.inj (processed.symm.trans popped)
      obtain ⟨messages, results, rfl, whole⟩ := sends
      obtain ⟨rfl, -⟩ := whole works
      left
      simp only [startedFrames, afterCompletion, List.countP_append, completionPdus, donePdus,
        opens.1, opens.2, Bool.not_false, and_self, if_true, List.cons_append,
        List.countP_cons_of_pos (show isStart (.startFrame _ _) = true from rfl)]
      omega

end Events

end XrdpConsole.EventFrames
