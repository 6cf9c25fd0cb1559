import Mathlib.Data.List.Dedup
import XrdpConsole.PlanarPipeline

/-!
# The pending flag

`vnc_gfx_async_pending` says that one job is on its way, as long as the encoder is
not taken away from under it, and the last completion of the job is not handled
before the thread is out of it. A resize and a second advertisement of capabilities
do the one without a look at the flag; nothing prevents the other.
-/

namespace XrdpConsole.AsyncPending

open XrdpConsole.Library
open XrdpConsole.Region
open XrdpConsole.MmState
open XrdpConsole.PlanarSend
open XrdpConsole.PlanarWorker
open XrdpConsole.ResizeMachine
open XrdpConsole.DrawSteps
open XrdpConsole.DrawCalls
open XrdpConsole.MmSession
open XrdpConsole.MmFrames
open XrdpConsole.WorkerTrace
open XrdpConsole.JobCompletions
open XrdpConsole.PlanarPipeline

set_option autoImplicit false

variable {R : Type} [Pixman R]

/-! ## The condition -/

/-- The step deletes or replaces the encoder. -/
def ReplacesEncoder (self : Mm R) : Event → Prop
  | .capsAdvertise _ _ => True
  | .resizeReady answers =>
      self.resizeReady = true ∧ answers.canResize = true ∧ self.modHandle = true ∧
        ∃ resize, self.resizeData = some resize ∧
          (resize.state = .encoderDelete ∨ resize.state = .encoderCreate)
  | _ => False

/-- The encoder is deleted or replaced only while no job is pending, and the encoder
thread can allocate the completion it sends after a failed allocation. -/
def KeepsJob (self : Mm R) (event : Event) : Prop :=
  (ReplacesEncoder self event → self.vncGfxAsyncPending = false) ∧
    ∀ allocs, event = .workerTakes allocs → AllocsRecover allocs

/-! ## Jobs on their way -/

/-- The job of the call of `process_enc_vnc_planar` that the encoder thread is inside. -/
def callJob (encoder : Encoder) : Option Nat := encoder.worker.head?.map actionAddress

def inHand (encoder : Encoder) : List Nat :=
  (callJob encoder).toList ++ (encoder.fifoProcessed.filter (·.last)).map (·.enc.address)

/-- The jobs that are queued, being processed or waiting for their last completion to be
handled. A job whose last completion waits while the thread is still inside the call for
it is one job. -/
def outstanding (encoder : Encoder) : Nat :=
  encoder.fifoToProc.length + (inHand encoder).dedup.length

def outstandingJobs (self : Mm R) : Nat := (self.encoder.map outstanding).getD 0

/-- A last completion is handled while the encoder thread is inside the call for its
job. -/
def HandledEarly (self : Mm R) : Event → Prop
  | .encDone => ∃ encoder done rest, self.encoder = some encoder ∧
      encoder.fifoProcessed = done :: rest ∧ done.last = true ∧
      callJob encoder = some done.enc.address
  | _ => False

/-- The encoder of a pending job is kept, and its last completion is not handled early. -/
def TracksJob (self : Mm R) (event : Event) : Prop :=
  KeepsJob self event ∧ ¬HandledEarly self event

/-! ## Draws and completions -/

/-- What a draw does to the job on its way: nothing, or it queues the first one. -/
def DrawKeeps (allowed : List Bool → Prop) (flight : Flight) (before after : Mm R) : Prop :=
  (Tracked allowed after flight ∧ after.vncGfxAsyncPending = before.vncGfxAsyncPending) ∨
    ∃ later, Tracked allowed after (some later)

omit [Pixman R] in
theorem draw_keeps_wm {allowed : List Bool → Prop} {flight : Flight} {before after : Mm R}
    (keeps : DrawKeeps allowed flight before after) (wm : Wm R) :
    DrawKeeps allowed flight before { after with wm } := by
  rcases keeps with ⟨same, flag⟩ | ⟨later, queued⟩
  · exact .inl ⟨tracked_same same rfl rfl, flag⟩
  · exact .inr ⟨later, tracked_same queued rfl rfl⟩

theorem check_dirty_preserves {before : Mm R} (holds : Mm R → Prop)
    (painted : ∀ mm wm, holds mm → holds { mm with wm })
    (preserved : ∀ middle after bitmap rects surfaceId x y, (∀ rect ∈ rects, rect.Solid) →
      holds middle → SendStep middle bitmap rects surfaceId x y after → holds after)
    (initially : holds before) (now : Int) : holds (checkScreenDirty before now).2 := by
  unfold checkScreenDirty
  split
  · exact initially
  · split
    · rename_i region _ due
      apply painted
      apply draw_dirty_preserves holds
      · intro middle call after member _ kept step
        exact preserved _ _ _ _ _ _ _ (draw_calls_solid due.1 member).2 kept step
      · exact initially
    · exact initially

theorem draw_tracked {allowed : List Bool → Prop} {flight : Flight} {before : Mm R}
    (tracked : Tracked allowed before flight) (now : Int) :
    DrawKeeps allowed flight before (checkScreenDirty before now).2 := by
  apply check_dirty_preserves (DrawKeeps allowed flight before)
  · exact fun _ wm keeps => draw_keeps_wm keeps wm
  · intro middle after _ _ _ _ _ solid kept step
    rcases kept with ⟨kept, flag⟩ | ⟨later, kept⟩
    · rcases tracked_send kept solid step with ⟨same, sameFlag⟩ | ⟨-, job, -, -, -, queued⟩
      · exact .inl ⟨same, sameFlag.trans flag⟩
      · exact .inr ⟨_, queued⟩
    · rcases tracked_send kept solid step with ⟨same, -⟩ | ⟨none_before, -⟩
      · exact .inr ⟨later, same⟩
      · exact absurd none_before (by simp)
  · exact .inl ⟨tracked, rfl⟩

omit [Pixman R] in
theorem enc_done_tracked {allowed : List Bool → Prop} {flight : Flight} {before : Mm R}
    (tracked : Tracked allowed before flight) :
    ∃ later, Tracked allowed (xrdpMmProcessEncDone before) later ∧
      (later = none → (xrdpMmProcessEncDone before).vncGfxAsyncPending = false ∨
        flight = none ∧ (xrdpMmProcessEncDone before).vncGfxAsyncPending =
          before.vncGfxAsyncPending) := by
  have step := enc_done_step before
  generalize xrdpMmProcessEncDone before = after at step ⊢
  cases step with
  | idle => exact ⟨flight, tracked, fun same => .inr ⟨same, rfl⟩⟩
  | handled encoder encDone rest sent frameId present processed sends =>
      obtain ⟨job, handled, later, allocs, rfl, -, -, -, -, after⟩ :=
        tracked_done tracked sent frameId present processed
      refine ⟨_, after, ?_⟩
      cases last : encDone.last with
      | true => simp [afterCompletion, last]
      | false => simp

/-! ## Steps that replace the encoder -/

omit [Pixman R] in
theorem send_each_pending (self : Mm R) (pdus : List GfxPdu) :
    (sendEach self pdus).vncGfxAsyncPending = self.vncGfxAsyncPending ∧
      (sendEach self pdus).encoder = self.encoder := by
  obtain ⟨messages, results, same, -⟩ := sends_only_each self pdus
  rw [same]
  exact ⟨rfl, rfl⟩

theorem caps_advertise_pending (self : Mm R) (best : Option (Int × Int))
    (framesInFlight : Option Int) :
    (xrdpMmEgfxCapsAdvertise self best framesInFlight).vncGfxAsyncPending =
        self.vncGfxAsyncPending ∧
      (xrdpMmEgfxCapsAdvertise self best framesInFlight).encoder =
        xrdpEncoderCreate framesInFlight := by
  cases best with
  | none => exact ⟨rfl, rfl⟩
  | some codec =>
      have confirmed : (confirmCaps self codec framesInFlight).vncGfxAsyncPending =
          self.vncGfxAsyncPending := by
        simp only [confirmCaps, xrdpMmEgfxCreateSurfaces]
        rw [(send_each_pending _ _).1]
        exact (send_each_pending _ _).1
      simp only [xrdpMmEgfxCapsAdvertise, xrdpMmEgfxInvalidateWmScreen]
      split
      · exact ⟨confirmed, rfl⟩
      · exact ⟨confirmed, rfl⟩

/-- What a round of the resize machine does to the encoder. -/
inductive EncoderStep (before : Mm R) (resize : DisplayControlMonitorLayoutData) (after : Mm R) :
    Prop where
  | kept : after.encoder = before.encoder → EncoderStep before resize after
  | replaced (framesInFlight : Option (Option Int)) :
      resize.state = .encoderDelete ∨ resize.state = .encoderCreate →
      after.encoder = framesInFlight.bind xrdpEncoderCreate → EncoderStep before resize after

omit [Pixman R] in
theorem process_resize_pending (self : Mm R) (resize : DisplayControlMonitorLayoutData)
    (answers : ResizeAnswers) :
    (processDisplayControlMonitorLayoutData self resize answers).vncGfxAsyncPending =
        self.vncGfxAsyncPending ∧
      EncoderStep self resize (processDisplayControlMonitorLayoutData self resize answers) := by
  unfold processDisplayControlMonitorLayoutData
  split
  · exact ⟨rfl, .kept rfl⟩
  · split
    · exact ⟨rfl, .replaced none (.inl ‹_›) rfl⟩
    · simp only [egfxResetGraphics]
      obtain ⟨messages, results, same, -⟩ := sends_only_send (xrdpMmEgfxDeleteSurfaces self)
        (.resetGraphics resize.description.sessionWidth resize.description.sessionHeight
          resize.description.minfo)
      have deleted := send_each_pending self (deleteSurfacesPdus self)
      rw [same]
      split
      · exact ⟨deleted.1, .kept deleted.2⟩
      · exact ⟨deleted.1, .kept deleted.2⟩
    · cases answers.moduleResize <;> exact ⟨rfl, .kept rfl⟩
    · exact ⟨rfl, .kept rfl⟩
    · unfold xrdpCoreReset
      split <;> exact ⟨rfl, .kept rfl⟩
    · unfold xrdpCoreResetProcessed
      split <;> exact ⟨rfl, .kept rfl⟩
    · rename_i creating
      have created : (recreateOutput self answers.framesInFlight).vncGfxAsyncPending =
          self.vncGfxAsyncPending := by
        simp only [recreateOutput]
        split
        · exact (send_each_pending self _).1
        · rfl
      simp only [encoderCreate]
      split
      · exact ⟨created, .replaced (some answers.framesInFlight) (.inr creating) rfl⟩
      · exact ⟨created, .replaced (some answers.framesInFlight) (.inr creating) rfl⟩
    · exact ⟨rfl, .kept rfl⟩

omit [Pixman R] in
theorem resize_ready_pending (self : Mm R) (answers : ResizeAnswers) :
    (checkResizeReady self answers).vncGfxAsyncPending = self.vncGfxAsyncPending ∧
      ((checkResizeReady self answers).encoder = self.encoder ∨
        ReplacesEncoder self (.resizeReady answers) ∧ ∃ framesInFlight,
          (checkResizeReady self answers).encoder =
            Option.bind framesInFlight xrdpEncoderCreate) := by
  unfold checkResizeReady
  split
  · rename_i ready
    unfold dynamicMonitorProcessQueue
    split
    · exact ⟨rfl, .inl rfl⟩
    · rename_i can_resize
      split
      · split
        · exact ⟨rfl, .inl rfl⟩
        · simp only [startResize]
          split <;> exact ⟨rfl, .inl rfl⟩
      · rename_i resize active
        split
        · exact ⟨rfl, .inl rfl⟩
        · obtain ⟨pending, step⟩ :=
            process_resize_pending { self with resizeReady := false } resize answers
          refine ⟨pending, ?_⟩
          by_cases module : self.modHandle = true
          · cases step with
            | kept same => exact .inl same
            | replaced framesInFlight state same =>
                exact .inr ⟨⟨ready, by simpa using can_resize, module, resize, active, state⟩,
                  framesInFlight, same⟩
          · left
            simp [processDisplayControlMonitorLayoutData, module]
  · exact ⟨rfl, .inl rfl⟩

/-! ## Every event -/

/-- What an event does to the flag and to the encoder. -/
inductive EventEffect (before : Mm R) : Event → Mm R → Prop where
  | quiet (event : Event) (after : Mm R) :
      (∀ suspend frameId, event ≠ .frameAck suspend frameId) → (∀ now, event ≠ .draw now) →
      event ≠ .encDone →
      after.vncGfxAsyncPending = before.vncGfxAsyncPending →
      after.encoder = before.encoder → EventEffect before event after
  | acknowledged (suspend : Bool) (frameId : Int) : EventEffect before (.frameAck suspend frameId)
      (xrdpMmEgfxFrameAck before suspend frameId)
  | replaced (event : Event) (after : Mm R) (framesInFlight : Option (Option Int)) :
      ReplacesEncoder before event → after.vncGfxAsyncPending = before.vncGfxAsyncPending →
      after.encoder = framesInFlight.bind xrdpEncoderCreate → EventEffect before event after
  | drawn (now : Int) : EventEffect before (.draw now) (checkScreenDirty before now).2
  | handled : EventEffect before .encDone (xrdpMmProcessEncDone before)
  | taken (allocs : List Bool) : EventEffect before (.workerTakes allocs)
      { before with encoder := before.encoder.map (procEncMsg · allocs) }
  | stepped : EventEffect before .workerStep
      { before with encoder := before.encoder.map PlanarWorker.workerStep }

theorem event_effect (before : Mm R) (event : Event) :
    EventEffect before event (runEvent before event) := by
  cases event with
  | beginUpdate => exact .quiet _ _ (by simp) (by simp) (by simp) rfl rfl
  | paint paint =>
      simp only [runEvent, serverPaint]
      split
      · exact .quiet _ _ (by simp) (by simp) (by simp) rfl rfl
      · exact .quiet _ _ (by simp) (by simp) (by simp) rfl rfl
  | endUpdate =>
      simp only [runEvent, serverEndUpdate, addDirtyRegionToPlanarList]
      split
      · exact .quiet _ _ (by simp) (by simp) (by simp) rfl rfl
      · split
        · split
          · exact .quiet _ _ (by simp) (by simp) (by simp) rfl rfl
          · exact .quiet _ _ (by simp) (by simp) (by simp) rfl rfl
        · exact .quiet _ _ (by simp) (by simp) (by simp) rfl rfl
  | clientSuppressOutput suppress => exact .quiet _ _ (by simp) (by simp) (by simp) rfl rfl
  | coreSuppressOutput suppress => exact .quiet _ _ (by simp) (by simp) (by simp) rfl rfl
  | capsAdvertise best framesInFlight =>
      obtain ⟨pending, encoder⟩ := caps_advertise_pending before best framesInFlight
      exact .replaced _ _ (some framesInFlight) trivial pending encoder
  | frameAck suspend frameId => exact .acknowledged suspend frameId
  | resizeRequest src description => exact .quiet _ _ (by simp) (by simp) (by simp) rfl rfl
  | resizeReady answers =>
      obtain ⟨pending, same | ⟨replaces, framesInFlight, encoder⟩⟩ :=
        resize_ready_pending before answers
      · exact .quiet _ _ (by simp) (by simp) (by simp) pending same
      · exact .replaced _ _ framesInFlight replaces pending encoder
  | monitorResizeDone =>
      simp only [runEvent, serverMonitorResizeDone]
      split
      · exact .quiet _ _ (by simp) (by simp) (by simp) rfl rfl
      · exact .quiet _ _ (by simp) (by simp) (by simp) rfl rfl
  | upAndRunning =>
      simp only [runEvent, xrdpMmUpAndRunning]
      split
      · exact .quiet _ _ (by simp) (by simp) (by simp) rfl rfl
      · exact .quiet _ _ (by simp) (by simp) (by simp) rfl rfl
  | draw now => exact .drawn now
  | encDone => exact .handled
  | workerTakes allocs => exact .taken allocs
  | workerStep => exact .stepped

omit [Pixman R] in
theorem frame_ack_pending (self : Mm R) (suspend : Bool) (frameId : Int) :
    (xrdpMmEgfxFrameAck self suspend frameId).vncGfxAsyncPending = self.vncGfxAsyncPending := by
  simp only [xrdpMmEgfxFrameAck]
  split <;> rfl

/-- No more than one job is ever on its way. The flag is clear when none is, unless the
encoder of a pending job was replaced. -/
theorem event_tracked {allowed : List Bool → Prop} {flight : Flight} {before : Mm R} {event : Event}
    (tracked : Tracked allowed before flight)
    (permitted : ∀ allocs, event = .workerTakes allocs → allowed allocs) :
    ∃ later, Tracked allowed (runEvent before event) later ∧
      ((flight = none → before.vncGfxAsyncPending = false) →
        (ReplacesEncoder before event → before.vncGfxAsyncPending = false) →
        later = none → (runEvent before event).vncGfxAsyncPending = false) := by
  have effect := event_effect before event
  generalize runEvent before event = after at effect ⊢
  cases effect with
  | quiet _ _ _ _ _ pending encoder =>
      refine ⟨flight, tracked_same tracked pending encoder, ?_⟩
      intro exact _ none_later
      rw [pending, exact none_later]
  | acknowledged suspend frameId =>
      have pending := frame_ack_pending before suspend frameId
      refine ⟨flight, tracked_kept tracked pending (frame_ack_kept before suspend frameId), ?_⟩
      intro exact _ none_later
      rw [pending, exact none_later]
  | replaced _ _ framesInFlight replaces pending encoder =>
      refine ⟨none, .free ?_, fun _ idle _ => pending.trans (idle replaces)⟩
      intro created present
      obtain ⟨frames, rfl, same⟩ := Option.bind_eq_some_iff.mp (encoder.symm.trans present)
      exact created_idle same
  | drawn now =>
      rcases draw_tracked tracked now with ⟨same, flag⟩ | ⟨later, queued⟩
      · exact ⟨flight, same, fun exact _ none_later => flag.trans (exact none_later)⟩
      · exact ⟨some later, queued, fun _ _ none_later => absurd none_later (by simp)⟩
  | handled =>
      obtain ⟨later, after, flag⟩ := enc_done_tracked tracked
      refine ⟨later, after, fun exact _ none_later => ?_⟩
      rcases flag none_later with clear | ⟨none_before, same⟩
      · exact clear
      · exact same.trans (exact none_before)
  | taken allocs =>
      refine ⟨flight, tracked_takes tracked (permitted allocs rfl), fun exact _ none_later => ?_⟩
      exact exact none_later
  | stepped =>
      refine ⟨flight, tracked_worker tracked, fun exact _ none_later => ?_⟩
      exact exact none_later

/-! ## The flag can be cleared -/

def work (encoder : Encoder) : Nat :=
  2 * encoder.worker.length + encoder.fifoProcessed.length +
    (encoder.fifoToProc.map fun job => 2 * (processEncVncPlanar job []).length + 1).sum

def remainingWork (self : Mm R) : Nat := (self.encoder.map work).getD 0

theorem work_same {before after : Encoder} (same : SameQueues before after) :
    work after = work before := by
  rw [work, work, same.queue, same.processed, same.worker]

theorem work_step {encoder : Encoder} (working : encoder.worker ≠ []) :
    work (PlanarWorker.workerStep encoder) < work encoder := by
  unfold PlanarWorker.workerStep
  split
  · exact absurd ‹_› working
  · rename_i same
    simp only [work, same, List.length_cons]
    omega
  · rename_i same
    simp only [work, same, List.length_cons, List.length_append, List.length_nil]
    omega

omit [Pixman R] in
theorem enc_done_work {before : Mm R} {encoder : Encoder} {encDone : EncDone} {rest : List EncDone}
    (present : before.encoder = some encoder)
    (processed : encoder.fifoProcessed = encDone :: rest) :
    remainingWork (xrdpMmProcessEncDone before) < remainingWork before := by
  have step := enc_done_step before
  generalize xrdpMmProcessEncDone before = after at step ⊢
  cases step with
  | idle none_processed =>
      rw [none_processed encoder present] at processed
      exact absurd processed (by simp)
  | handled other done later sent frameId same processedSame sends =>
      obtain rfl : encoder = other := Option.some.inj (present.symm.trans same)
      have kept := with_frame_id_kept (some { encoder with fifoProcessed := later }) frameId
      simp only [remainingWork, present, afterCompletion]
      generalize withFrameId (some { encoder with fifoProcessed := later }) frameId = final
        at kept ⊢
      cases kept with
      | present queues =>
          have popped := work_same queues
          simp only [Option.map_some, Option.getD_some, popped]
          simp only [work, processedSame, List.length_cons]
          omega

omit [Pixman R] in
theorem stage_waiting {job : EncVncPlanar} {handled : List EncDone} {encoder : Encoder}
    (scheduled : Scheduled job) (stage : Stage AllocsRecover job handled encoder)
    (others : ∀ done ∈ handled, done.last = false) (none_coming : upcoming encoder = []) :
    encoder.fifoToProc = [job] := by
  cases stage with
  | queued _ queue _ => exact queue
  | taken allocs recovers _ whole =>
      obtain ⟨before, final, same, last, -⟩ := worker_final scheduled recovers
      rw [← whole, none_coming, List.append_nil] at same
      have found := others final (by simp [same])
      rw [last] at found
      exact absurd found (by simp)

/-- A step of the encoder thread, for which there is memory, or the handling of a
completion. -/
def ThreadEvent : Event → Prop
  | .encDone => True
  | .workerTakes allocs => allocs = []
  | .workerStep => True
  | _ => False

omit [Pixman R] in
theorem thread_permitted {before : Mm R} {event : Event} (byThread : ThreadEvent event) :
    KeepsJob before event ∧ Permitted before event := by
  cases event with
  | encDone => exact ⟨⟨False.elim, by simp⟩, trivial⟩
  | workerStep => exact ⟨⟨False.elim, by simp⟩, trivial⟩
  | workerTakes allocs =>
      refine ⟨⟨False.elim, ?_⟩, trivial⟩
      intro others same
      obtain rfl := Event.workerTakes.inj same
      rw [show allocs = [] from byThread]
      trivial
  | _ => exact absurd byThread id

theorem busy_progress {mm : Mm R} {flight : EncVncPlanar × List EncDone}
    (tracked : Tracked AllocsRecover mm (some flight)) :
    ∃ event, ThreadEvent event ∧ remainingWork (runEvent mm event) < remainingWork mm := by
  cases tracked with
  | busy encoder job handled _ present scheduled stage others =>
      cases processed : encoder.fifoProcessed with
      | cons encDone rest => exact ⟨.encDone, trivial, enc_done_work present processed⟩
      | nil =>
          cases working : encoder.worker with
          | cons action rest =>
              refine ⟨.workerStep, trivial, ?_⟩
              simp only [runEvent, remainingWork, present, Option.map_some, Option.getD_some]
              exact work_step (by simp [working])
          | nil =>
              have queue := stage_waiting scheduled stage others
                (by simp [upcoming, processed, working, completions])
              refine ⟨.workerTakes [], rfl, ?_⟩
              simp only [runEvent, remainingWork, present, Option.map_some, Option.getD_some,
                procEncMsg, working, queue]
              simp [work, processed, working, queue]

/-- A job is on its way exactly while the flag is set. -/
def FlagTracked (mm : Mm R) : Prop :=
  ∃ flight, Tracked AllocsRecover mm flight ∧ (flight = none → mm.vncGfxAsyncPending = false)

theorem flag_tracked_event {before : Mm R} {event : Event} (keeps : KeepsJob before event)
    (tracked : FlagTracked before) : FlagTracked (runEvent before event) := by
  obtain ⟨flight, tracked, exact⟩ := tracked
  obtain ⟨later, after, flag⟩ := event_tracked tracked keeps.2
  exact ⟨later, after, flag exact keeps.1⟩

/-- From every state in which the flag is set, the encoder thread and the handling of its
completions alone can clear it, whatever else the steps are asked to meet meanwhile. -/
theorem pending_can_clear {guard : Mm R → Event → Prop}
    (met : ∀ mm event, mm.vncGfxAsyncPending = true → ThreadEvent event → guard mm event)
    {mm : Mm R} (tracked : FlagTracked mm) :
    ∃ events after, (∀ event ∈ events, ThreadEvent event) ∧
      (session.restrict guard).Run mm events after ∧ after.vncGfxAsyncPending = false := by
  generalize bound : remainingWork mm = fuel
  induction fuel using Nat.strongRecOn generalizing mm with
  | ind fuel ih =>
      obtain ⟨flight, found, exact⟩ := id tracked
      cases flight with
      | none => exact ⟨[], mm, by simp, .stay mm, exact rfl⟩
      | some flight =>
          obtain ⟨event, byThread, less⟩ := busy_progress found
          obtain ⟨keeps, permitted⟩ := @thread_permitted R mm event byThread
          obtain ⟨events, after, allByThread, ran, cleared⟩ :=
            ih _ (bound ▸ less) (flag_tracked_event keeps tracked) rfl
          have stepped : (session.restrict guard).step mm event (runEvent mm event) :=
            ⟨met mm event (tracked_pending found) byThread, permitted, rfl⟩
          refine ⟨event :: events, after, ?_, System.run_after stepped ran, cleared⟩
          intro other member
          rcases List.mem_cons.mp member with rfl | later
          · exact byThread
          · exact allByThread other later

/-! ## The call of the encoder thread -/

/-- The jobs of the thread's remaining actions and of the completions it has queued. -/
def threadJobs (encoder : Encoder) : List Nat :=
  encoder.worker.map actionAddress ++ encoder.fifoProcessed.map (·.enc.address)

/-- While no job is pending or the pending one waits to be taken, the thread is outside of
any call. All it has done and has left to do is about one job. -/
structure OneCall (pending : Bool) (encoder : Encoder) : Prop where
  free : pending = false → encoder.worker = []
  waiting : encoder.fifoToProc ≠ [] → encoder.worker = []
  own : ∃ job, ∀ address ∈ threadJobs encoder, address = job

def CallTracked (mm : Mm R) : Prop :=
  ∀ encoder, mm.encoder = some encoder → OneCall mm.vncGfxAsyncPending encoder

theorem one_call_same {pending : Bool} {before after : Encoder} (call : OneCall pending before)
    (same : SameQueues before after) : OneCall pending after := by
  constructor
  · rw [same.worker]
    exact call.free
  · rw [same.queue, same.worker]
    exact call.waiting
  · rw [threadJobs, same.worker, same.processed]
    exact call.own

omit [Pixman R] in
theorem call_tracked_kept {before after : Mm R} (tracked : CallTracked before)
    (pending : after.vncGfxAsyncPending = before.vncGfxAsyncPending)
    (kept : EncoderKept before.encoder after.encoder) : CallTracked after := by
  intro encoder present
  rw [present] at kept
  generalize same : before.encoder = earlier at kept
  cases kept with
  | present queues =>
      rw [pending]
      exact one_call_same (tracked _ same) queues

theorem created_one_call {framesInFlight : Option Int} {encoder : Encoder}
    (created : xrdpEncoderCreate framesInFlight = some encoder) (pending : Bool) :
    OneCall pending encoder := by
  obtain ⟨frames, -, rfl⟩ := Option.map_eq_some_iff.mp created
  exact ⟨fun _ => rfl, fun _ => rfl, 0, by simp [threadJobs]⟩

omit [Pixman R] in
theorem send_call_tracked {before after : Mm R} {bitmap : Bitmap} {rects : List Rect}
    {surfaceId x y : Int} (tracked : CallTracked before)
    (step : SendStep before bitmap rects surfaceId x y after) : CallTracked after := by
  cases step with
  | refused allocResults => exact tracked
  | queued allocResults encoder total _ present idle_flag =>
      intro after same
      obtain rfl := Option.some.inj same
      have call := tracked encoder present
      exact ⟨fun set => absurd set (by simp [queueJob]), fun _ => call.free idle_flag, call.own⟩
  | framed sent committed _ _ sends =>
      obtain ⟨messages, results, rfl, -⟩ := sends
      exact call_tracked_kept tracked rfl (with_frame_id_kept before.encoder committed)

theorem call_left {pending : Bool} {encoder : Encoder} (call : OneCall pending encoder)
    {encDone : EncDone} {rest : List EncDone} (processed : encoder.fifoProcessed = encDone :: rest)
    (left : callJob encoder ≠ some encDone.enc.address) : encoder.worker = [] := by
  obtain ⟨job, own⟩ := call.own
  cases working : encoder.worker with
  | nil => rfl
  | cons action actions =>
      have acting := own (actionAddress action) (by simp [threadJobs, working])
      have done := own encDone.enc.address (by simp [threadJobs, processed])
      rw [callJob, working, List.head?_cons, Option.map_some, acting, done] at left
      exact absurd rfl left

omit [Pixman R] in
theorem done_call_tracked {before : Mm R} (tracked : CallTracked before)
    (in_time : ¬HandledEarly before .encDone) : CallTracked (xrdpMmProcessEncDone before) := by
  have step := enc_done_step before
  generalize xrdpMmProcessEncDone before = after at step ⊢
  cases step with
  | idle _ => exact tracked
  | handled encoder encDone rest sent frameId present processed sends =>
      have call := tracked encoder present
      have popped : OneCall (before.vncGfxAsyncPending && !encDone.last)
          { encoder with fifoProcessed := rest } := by
        constructor
        · intro clear
          cases last : encDone.last with
          | true =>
              apply call_left call processed
              intro inside
              exact in_time ⟨encoder, encDone, rest, present, processed, last, inside⟩
          | false => exact call.free (by simpa [last] using clear)
        · exact call.waiting
        · obtain ⟨job, own⟩ := call.own
          refine ⟨job, fun address member => own address ?_⟩
          simp only [threadJobs, processed, List.map_cons, List.mem_append, List.mem_cons] at member ⊢
          tauto
      intro after same
      have queues := with_frame_id_kept (some { encoder with fifoProcessed := rest }) frameId
      rw [show withFrameId _ frameId = some after from same] at queues
      cases queues with
      | present kept => exact one_call_same popped kept

omit [Pixman R] in
/-- A job is taken only while its flag is set, with no completion of another one queued. -/
theorem takes_call_tracked {before : Mm R} {allowed : List Bool → Prop} {flight : Flight}
    (tracked : Tracked allowed before flight) (calls : CallTracked before) (allocs : List Bool) :
    CallTracked { before with encoder := before.encoder.map (procEncMsg · allocs) } := by
  intro after same
  obtain ⟨encoder, present, rfl⟩ := Option.map_eq_some_iff.mp same
  have call := calls encoder present
  simp only [procEncMsg]
  split
  · rename_i job rest outside queued
    cases tracked with
    | free idle =>
        have empty := (idle encoder present).queue
        rw [queued] at empty
        exact absurd empty (by simp)
    | busy other only handled busy_flag otherPresent _ stage =>
        obtain rfl := Option.some.inj (present.symm.trans otherPresent)
        cases stage with
        | queued _ queue none_coming =>
            obtain ⟨rfl, rfl⟩ := List.cons.inj (queued.symm.trans queue)
            have none_processed : encoder.fifoProcessed = [] := by
              simpa [upcoming, outside, completions] using none_coming
            refine ⟨fun clear => ?_, fun waiting => absurd rfl waiting, job.address, ?_⟩
            · rw [show before.vncGfxAsyncPending = false from clear] at busy_flag
              exact absurd busy_flag (by simp)
            · intro address member
              simp only [threadJobs, none_processed, List.map_nil, List.append_nil,
                List.mem_map] at member
              obtain ⟨action, acted, rfl⟩ := member
              exact worker_own_actions job allocs action acted
        | taken _ _ queue =>
            rw [queued] at queue
            exact absurd queue (by simp)
  · exact call

theorem step_one_call {pending : Bool} {encoder : Encoder} (call : OneCall pending encoder) :
    OneCall pending (PlanarWorker.workerStep encoder) := by
  unfold PlanarWorker.workerStep
  split
  · exact call
  · rename_i address block rest working
    have busy : encoder.worker ≠ [] := by simp [working]
    obtain ⟨job, own⟩ := call.own
    refine ⟨fun clear => absurd (call.free clear) busy,
      fun queued => absurd (call.waiting queued) busy, job, ?_⟩
    intro other member
    apply own other
    simp only [threadJobs, working, List.map_cons, List.mem_append, List.mem_cons] at member ⊢
    tauto
  · rename_i done rest working
    have busy : encoder.worker ≠ [] := by simp [working]
    obtain ⟨job, own⟩ := call.own
    refine ⟨fun clear => absurd (call.free clear) busy,
      fun queued => absurd (call.waiting queued) busy, job, ?_⟩
    intro other member
    apply own other
    simp only [threadJobs, working, List.map_cons, List.map_append, List.map_nil,
      List.mem_append, List.mem_cons, actionAddress, List.not_mem_nil, or_false] at member ⊢
    tauto

theorem event_call_tracked {before : Mm R} {event : Event} (flag : FlagTracked before)
    (calls : CallTracked before) (in_time : ¬HandledEarly before event) :
    CallTracked (runEvent before event) := by
  have effect := event_effect before event
  generalize runEvent before event = after at effect ⊢
  cases effect with
  | quiet _ _ _ _ _ pending encoder =>
      exact call_tracked_kept calls pending (encoder ▸ encoder_kept_refl before.encoder)
  | acknowledged suspend frameId =>
      exact call_tracked_kept calls (frame_ack_pending before suspend frameId)
        (frame_ack_kept before suspend frameId)
  | replaced _ _ framesInFlight _ _ encoder =>
      intro created present
      obtain ⟨frames, rfl, same⟩ := Option.bind_eq_some_iff.mp (encoder.symm.trans present)
      exact created_one_call same _
  | drawn now =>
      apply check_dirty_preserves CallTracked
      · exact fun _ _ kept => kept
      · exact fun _ _ _ _ _ _ _ _ kept step => send_call_tracked kept step
      · exact calls
  | handled => exact done_call_tracked calls in_time
  | taken allocs =>
      obtain ⟨flight, tracked, -⟩ := flag
      exact takes_call_tracked tracked calls allocs
  | stepped =>
      intro after same
      obtain ⟨encoder, present, rfl⟩ := Option.map_eq_some_iff.mp same
      exact step_one_call (calls encoder present)

/-! ## Counting jobs -/

theorem in_hand_one {encoder : Encoder} {pending : Bool} (call : OneCall pending encoder)
    (some_job : inHand encoder ≠ []) : (inHand encoder).dedup.length = 1 := by
  obtain ⟨job, own⟩ := call.own
  have same : ∀ address ∈ inHand encoder, address = job := by
    intro address member
    apply own address
    simp only [inHand, callJob, threadJobs, List.mem_append, Option.mem_toList, List.mem_map,
      List.mem_filter, Option.map_eq_some_iff] at member ⊢
    rcases member with ⟨action, first, rfl⟩ | ⟨done, ⟨queued, -⟩, rfl⟩
    · exact .inl ⟨action, List.mem_of_mem_head? first, rfl⟩
    · exact .inr ⟨done, queued, rfl⟩
  rw [List.eq_replicate_of_mem same, List.replicate_dedup (by simpa using some_job)]
  rfl

omit [Pixman R] in
theorem tracked_outstanding {mm : Mm R} (tracked : FlagTracked mm) (calls : CallTracked mm) :
    outstandingJobs mm = if mm.vncGfxAsyncPending then 1 else 0 := by
  obtain ⟨flight, tracked, exact⟩ := tracked
  cases tracked with
  | free idle =>
      rw [exact rfl, outstandingJobs]
      cases present : mm.encoder with
      | none => rfl
      | some encoder =>
          have nothing := idle encoder present
          have outside := (calls encoder present).free (exact rfl)
          have none_processed : encoder.fifoProcessed = [] := by
            simpa [upcoming, outside, completions] using nothing.coming
          simp [outstanding, inHand, callJob, nothing.queue, outside, none_processed]
  | busy encoder job handled busy_flag present scheduled stage others =>
      have call := calls encoder present
      rw [busy_flag, outstandingJobs, present]
      cases stage with
      | queued _ queue none_coming =>
          have outside := call.waiting (by simp [queue])
          have none_processed : encoder.fifoProcessed = [] := by
            simpa [upcoming, outside, completions] using none_coming
          simp [outstanding, inHand, callJob, queue, outside, none_processed]
      | taken allocs recovers queue whole =>
          have final := worker_final scheduled recovers
          rw [← whole] at final
          have one := only_final_filter final others
          have some_job : inHand encoder ≠ [] := by
            cases working : encoder.worker with
            | nil =>
                have processed : upcoming encoder = encoder.fifoProcessed := by
                  simp [upcoming, working, completions]
                rw [processed] at one
                have positive := List.ne_nil_of_length_pos (one ▸ Nat.one_pos)
                simpa [inHand, callJob, working] using positive
            | cons action rest => simp [inHand, callJob, working]
          simp [outstanding, queue, in_hand_one call some_job]

omit [Pixman R] in
theorem started_tracked (allowed : List Bool → Prop) {start : Mm R} (started : Started start) :
    Tracked allowed start none := by
  apply Tracked.free
  intro encoder present
  obtain ⟨queue, processed, worker⟩ := started.encoder encoder present
  refine ⟨queue, ?_⟩
  rw [upcoming, processed, worker]
  rfl

theorem reachable_tracked {self : Mm R}
    (reachable : (session.restrict TracksJob).Reachable self) :
    FlagTracked self ∧ CallTracked self := by
  apply System.reachable_invariant (fun mm => FlagTracked mm ∧ CallTracked mm) _ _ reachable
  · intro start initial
    have started : Started start := initial
    refine ⟨⟨none, started_tracked AllocsRecover started, fun _ => started.asyncPending⟩, ?_⟩
    intro encoder present
    obtain ⟨-, processed, worker⟩ := started.encoder encoder present
    exact ⟨fun _ => worker, fun _ => worker, 0, by simp [threadJobs, processed, worker]⟩
  · intro before event after tracked stepped
    obtain ⟨keeps, -, rfl⟩ := stepped
    exact ⟨flag_tracked_event keeps.1 tracked.1,
      event_call_tracked tracked.1 tracked.2 keeps.2⟩

/-- In every state of every session the encoder is idle while the flag is clear. -/
theorem reachable_idle {self : Mm R} (reachable : session.Reachable self)
    (clear : self.vncGfxAsyncPending = false) {encoder : Encoder}
    (present : self.encoder = some encoder) : Idle encoder := by
  have tracked : ∃ flight, Tracked (fun _ => True) self flight := by
    apply System.reachable_invariant (fun mm => ∃ flight, Tracked (fun _ => True) mm flight) _ _
      reachable
    · intro start initial
      exact ⟨none, started_tracked _ initial⟩
    · intro before event after tracked stepped
      obtain ⟨flight, tracked⟩ := tracked
      obtain ⟨-, rfl⟩ := stepped
      obtain ⟨later, after, -⟩ := event_tracked tracked fun _ _ => trivial
      exact ⟨later, after⟩
  obtain ⟨flight, tracked⟩ := tracked
  cases tracked with
  | free idle => exact idle encoder present
  | busy _ _ _ busy_flag =>
      rw [clear] at busy_flag
      exact absurd busy_flag (by simp)

/-- The flag is set exactly when one job is outstanding, and the encoder thread and its
completions can always clear it. -/
structure PendingExact (mm : Mm R) : Prop where
  exact : mm.vncGfxAsyncPending = true ↔ outstandingJobs mm = 1
  none_else : mm.vncGfxAsyncPending = false → outstandingJobs mm = 0
  clears : ∃ events after, (∀ event ∈ events, ThreadEvent event) ∧
    session.Run mm events after ∧ after.vncGfxAsyncPending = false

/-- In every run that keeps the encoder of a pending job and handles its last completion
after the call for it, the flag tracks the job. -/
theorem pending_tracks_job {self : Mm R}
    (reachable : (session.restrict TracksJob).Reachable self) : PendingExact self := by
  obtain ⟨tracked, calls⟩ := reachable_tracked reachable
  have count := tracked_outstanding tracked calls
  constructor
  · rw [count]
    cases self.vncGfxAsyncPending <;> simp
  · intro idle_flag
    rw [count, idle_flag]
    rfl
  · obtain ⟨events, after, byThread, ran, cleared⟩ :=
      pending_can_clear (fun _ _ _ _ => trivial) tracked
    exact ⟨events, after, byThread, System.run_of_restrict ran, cleared⟩

def firstDraw : List Event := [.capsAdvertise (some (1, 0)) (some 2), .draw 100]

theorem pending_tracks_first_draw : PendingExact (runEvents (startedSession 1 true) firstDraw) := by
  apply pending_tracks_job
  refine ⟨_, firstDraw, started_session 1 true, restricted_run_of_events ?_ ?_⟩
  · exact ⟨trivial, trivial, trivial⟩
  · exact ⟨⟨⟨fun _ => rfl, by simp⟩, id⟩, ⟨⟨False.elim, by simp⟩, id⟩, trivial⟩

/-- A resize begins while the job is pending: its encoder is deleted, and nothing can clear
the flag any more. -/
def resizeWhilePending : List Event :=
  firstDraw ++ [.resizeRequest .fromClient (pixelSizes 2), .resizeReady resizeWorks,
    .resizeReady resizeWorks]

theorem encoder_deleted_while_pending :
    session.Reachable (runEvents (startedSession 1 true) resizeWhilePending) ∧
      ¬PendingExact (runEvents (startedSession 1 true) resizeWhilePending) := by
  constructor
  · refine ⟨_, resizeWhilePending, started_session 1 true, run_of_events ?_⟩
    exact ⟨trivial, trivial, fun _ => by decide, trivial, trivial, trivial⟩
  · intro tracked
    have none_left : outstandingJobs (runEvents (startedSession 1 true) resizeWhilePending) = 0 := by
      decide +kernel
    have flag : (runEvents (startedSession 1 true) resizeWhilePending).vncGfxAsyncPending = true := by
      decide +kernel
    have one := tracked.exact.mp flag
    omega

/-! ## Last completions that are handled early -/

/-- Where a last completion is handled early, the flag is clear while its job is still being
processed. -/
theorem early_last_untracked {before : Mm R}
    (reachable : (session.restrict TracksJob).Reachable before)
    (early : HandledEarly before .encDone) :
    (runEvent before .encDone).vncGfxAsyncPending = false ∧
      outstandingJobs (runEvent before .encDone) = 1 := by
  obtain ⟨⟨flight, tracked, -⟩, calls⟩ := reachable_tracked reachable
  obtain ⟨encoder, encDone, rest, present, processed, last, inside⟩ := early
  have step := enc_done_step before
  simp only [runEvent]
  generalize xrdpMmProcessEncDone before = after at step ⊢
  cases step with
  | idle nothing =>
      rw [nothing encoder present] at processed
      exact absurd processed (by simp)
  | handled other done later sent frameId same popped sends =>
      obtain rfl := Option.some.inj (present.symm.trans same)
      obtain ⟨rfl, rfl⟩ := List.cons.inj (processed.symm.trans popped)
      obtain ⟨job, handled, -, allocs, -, -, -, -, -, after⟩ :=
        tracked_done tracked sent frameId present processed
      rw [if_pos last] at after
      refine ⟨by simp [afterCompletion, last], ?_⟩
      have queues := with_frame_id_kept (some { encoder with fifoProcessed := rest }) frameId
      generalize found : withFrameId (some { encoder with fifoProcessed := rest }) frameId = final
        at queues
      cases queues with
      | present kept =>
          cases after with
          | free idle =>
              have nothing := idle _ found
              have none_processed := (List.append_eq_nil_iff.mp nothing.coming).1
              have call := congrArg (fun worker => (worker.head?.map actionAddress)) kept.worker
              have stays : callJob _ = some encDone.enc.address := call.trans inside
              simp only [outstandingJobs, afterCompletion, found, Option.map_some, Option.getD_some,
                outstanding, nothing.queue, inHand, none_processed, stays]
              rfl

end XrdpConsole.AsyncPending
