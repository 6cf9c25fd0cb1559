import XrdpConsole.AsyncPending
import XrdpConsole.PlanarSnapshot

/-!
# The asynchronous path sends the synchronous frame

A scheduled job comes out of the encoder thread as one frame: the messages the
synchronous path would have sent when the job was scheduled, whatever is painted
before the last of them is sent.
-/

namespace XrdpConsole.PlanarAsync

open XrdpConsole.Library
open XrdpConsole.Region
open XrdpConsole.MmState
open XrdpConsole.PlanarSend
open XrdpConsole.PlanarWorker
open XrdpConsole.ResizeMachine
open XrdpConsole.DrawSteps
open XrdpConsole.DrawCalls
open XrdpConsole.MmSession
open XrdpConsole.MmFrames
open XrdpConsole.WorkerTrace
open XrdpConsole.JobCompletions
open XrdpConsole.PlanarPipeline
open XrdpConsole.PlanarSnapshot
open XrdpConsole.AsyncPending

set_option autoImplicit false

variable {R : Type} [Pixman R]

/-! ## The messages of a job -/

theorem tile_pdus {job : EncVncPlanar} {tile : Bool → EncDone} (shape : IsTile job tile)
    (first : Bool) :
    completionPdus (tile first) =
      (if first then [.startFrame job.frameId 0] else []) ++ tileWire (tile true) ::
        if (tile true).last then [.endFrame job.frameId] else [] := by
  have some_data : 0 < (tile first).compPadData.length :=
    List.length_pos_iff.mpr (shape.data first)
  have wire := shape.wire first
  simp only [tileWire] at wire
  simp only [completionPdus, donePdus, some_data, shape.continuation, shape.frameId,
    shape.last first, if_true, or_true, and_true, Bool.not_not, tileWire]
  rw [wire]
  simp

theorem middle_pdus {job : EncVncPlanar} {plan : List (Bool → EncDone)}
    (shapes : ∀ tile ∈ plan, IsTile job tile) (others : ∀ tile ∈ plan, (tile true).last = false)
    (first : Bool) :
    (markDones first plan).flatMap completionPdus =
      (if first && !plan.isEmpty then [.startFrame job.frameId 0] else []) ++
        plan.map fun tile => tileWire (tile true) := by
  induction plan generalizing first with
  | nil => cases first <;> rfl
  | cons tile rest ih =>
      have head := tile_pdus (shapes tile (List.mem_cons_self ..)) first
      rw [others tile (List.mem_cons_self ..)] at head
      have later := ih (fun other member => shapes other (List.mem_cons_of_mem tile member))
        (fun other member => others other (List.mem_cons_of_mem tile member)) false
      rw [markDones, List.flatMap_cons, head, later]
      cases first <;> simp

/-- The completions of a whole job are one frame. -/
theorem whole_job_pdus {job : EncVncPlanar} (scheduled : Scheduled job) :
    (markDones true (jobPlan job)).flatMap completionPdus =
      .startFrame job.frameId 0 :: (jobPlan job).map (fun tile => tileWire (tile true)) ++
        [.endFrame job.frameId] := by
  have shapes := @job_plan_tiles job
  obtain ⟨before, final, same, last, others⟩ := job_plan_final scheduled
  rw [same] at shapes ⊢
  have earlier := @middle_pdus job before
    (fun tile member => shapes tile (by simp [member])) (by simpa using others) true
  have finally_sent := tile_pdus (shapes final (by simp)) (true && before.isEmpty)
  rw [mark_dones_append, List.flatMap_append, earlier, markDones, markDones, List.flatMap_cons,
    finally_sent, last]
  cases before <;> simp

/-! ## The steps meanwhile -/

/-- Capabilities are not advertised again and no resize step works on the encoder or the
surfaces; the encoder thread has memory. -/
def Undisturbed (self : Mm R) : Event → Prop
  | .capsAdvertise _ _ => False
  | .resizeReady _ => ∀ resize, self.resizeData = some resize →
      resize.state ≠ .encoderDelete ∧ resize.state ≠ .egfxResetGraphics ∧
        resize.state ≠ .encoderCreate
  | .workerTakes allocs => allocs = []
  | _ => True

/-- The steps from the scheduling of a job to its last completion. -/
def Meanwhile (self : Mm R) (event : Event) : Prop :=
  self.vncGfxAsyncPending = true ∧ Undisturbed self event

omit [Pixman R] in
theorem thread_undisturbed {self : Mm R} {event : Event} (byThread : ThreadEvent event) :
    Undisturbed self event := by
  cases event with
  | encDone => trivial
  | workerStep => trivial
  | workerTakes allocs => exact byThread
  | _ => exact absurd byThread id

/-- What the steps leave alone that have nothing to do with the job. -/
structure Quiet (before after : Mm R) : Prop where
  egfx : after.egfx = before.egfx
  pending : after.vncGfxAsyncPending = before.vncGfxAsyncPending
  encoder : EncoderKept before.encoder after.encoder
  asyncPlanar : after.vncGfxAsyncPlanar = before.vncGfxAsyncPlanar
  isVnc : after.isVnc = before.isVnc

omit [Pixman R] in
theorem quiet_refl (self : Mm R) : Quiet self self :=
  ⟨rfl, rfl, encoder_kept_refl self.encoder, rfl, rfl⟩

omit [Pixman R] in
theorem quiet_same {before after : Mm R} (output : outputOf after = outputOf before)
    (asyncPlanar : after.vncGfxAsyncPlanar = before.vncGfxAsyncPlanar)
    (isVnc : after.isVnc = before.isVnc) : Quiet before after := by
  simp only [outputOf, Output.mk.injEq] at output
  obtain ⟨egfx, encoder, pending, -, -, -⟩ := output
  exact ⟨egfx, pending, encoder ▸ encoder_kept_refl before.encoder, asyncPlanar, isVnc⟩

omit [Pixman R] in
theorem resize_ready_quiet {self : Mm R} (answers : ResizeAnswers)
    (elsewhere : ∀ resize, self.resizeData = some resize →
      resize.state ≠ .encoderDelete ∧ resize.state ≠ .egfxResetGraphics ∧
        resize.state ≠ .encoderCreate) : Quiet self (checkResizeReady self answers) := by
  unfold checkResizeReady
  split
  · unfold dynamicMonitorProcessQueue
    split
    · exact quiet_same rfl rfl rfl
    · split
      · split
        · exact quiet_same rfl rfl rfl
        · simp only [startResize]
          split <;> exact quiet_same rfl rfl rfl
      · rename_i resize active
        obtain ⟨deleting, resetting, creating⟩ := elsewhere resize active
        split
        · exact quiet_same rfl rfl rfl
        · unfold processDisplayControlMonitorLayoutData
          split
          · exact quiet_same rfl rfl rfl
          · split
            · exact absurd ‹_› deleting
            · exact absurd ‹_› resetting
            · cases answers.moduleResize <;> exact quiet_same rfl rfl rfl
            · exact quiet_same rfl rfl rfl
            · unfold xrdpCoreReset
              split <;> exact quiet_same rfl rfl rfl
            · unfold xrdpCoreResetProcessed
              split <;> exact quiet_same rfl rfl rfl
            · exact absurd ‹_› creating
            · exact quiet_same rfl rfl rfl
  · exact quiet_refl self

/-- No draw queues or sends anything while a job is on its way. -/
theorem draw_quiet {before : Mm R} {flight : EncVncPlanar × List EncDone}
    {allowed : List Bool → Prop} (tracked : Tracked allowed before (some flight))
    (asyncPlanar : before.vncGfxAsyncPlanar = true) (isVnc : before.isVnc = true) (now : Int) :
    Quiet before (checkScreenDirty before now).2 := by
  have busy := tracked_pending tracked
  unfold checkScreenDirty
  split
  · exact quiet_refl before
  · split
    · rename_i region _ due
      have drawn : Quiet before (xrdpMmDrawDirty before region).2 := by
        apply draw_dirty_preserves (Quiet before) _ (quiet_refl before)
        intro middle call after member _ quiet step
        cases step with
        | refused allocResults =>
            exact ⟨quiet.egfx, quiet.pending, quiet.encoder, quiet.asyncPlanar, quiet.isVnc⟩
        | queued allocResults encoder total _ _ idle_flag =>
            rw [quiet.pending, busy] at idle_flag
            exact absurd idle_flag (by simp)
        | framed sent committed synchronous =>
            apply absurd _ synchronous
            refine ⟨quiet.asyncPlanar.trans asyncPlanar, quiet.isVnc.trans isVnc, ?_⟩
            cases tracked with
            | busy encoder _ _ _ present =>
                have kept := quiet.encoder
                rw [present] at kept
                generalize middle.encoder = later at kept ⊢
                cases kept with
                | present => rfl
      exact ⟨drawn.egfx, drawn.pending, drawn.encoder, drawn.asyncPlanar, drawn.isVnc⟩
    · exact quiet_refl before

/-! ## The job on its way -/

/-- What has been sent since the job was scheduled are the messages of its handled
completions. -/
inductive InTransit (job : EncVncPlanar) (sentBefore : List GfxPdu) (mm : Mm R) : Prop where
  | onTheWay (handled : List EncDone) : Tracked (· = []) mm (some (job, handled)) →
      mm.vncGfxAsyncPlanar = true → mm.isVnc = true → mm.egfx.sendResults = [] →
      mm.egfx.sent = sentBefore ++ handled.flatMap completionPdus → InTransit job sentBefore mm
  | arrived : mm.vncGfxAsyncPending = false →
      mm.egfx.sent = sentBefore ++ (markDones true (jobPlan job)).flatMap completionPdus →
      InTransit job sentBefore mm

section Transit

variable {job : EncVncPlanar} {sentBefore : List GfxPdu} {before : Mm R}

omit [Pixman R] in
theorem transit_quiet {after : Mm R} (transit : InTransit job sentBefore before)
    (quiet : Quiet before after) : InTransit job sentBefore after := by
  cases transit with
  | onTheWay handled tracked asyncPlanar isVnc works sent =>
      exact .onTheWay handled (tracked_kept tracked quiet.pending quiet.encoder)
        (quiet.asyncPlanar.trans asyncPlanar) (quiet.isVnc.trans isVnc)
        (by rw [quiet.egfx, works]) (by rw [quiet.egfx, sent])
  | arrived clear sent => exact .arrived (quiet.pending.trans clear) (by rw [quiet.egfx, sent])

omit [Pixman R] in
theorem transit_done (transit : InTransit job sentBefore before)
    (busy : before.vncGfxAsyncPending = true) :
    InTransit job sentBefore (xrdpMmProcessEncDone before) := by
  cases transit with
  | arrived clear => simp [clear] at busy
  | onTheWay handled tracked asyncPlanar isVnc works sent =>
      have step := enc_done_step before
      generalize xrdpMmProcessEncDone before = after at step ⊢
      cases step with
      | idle => exact .onTheWay handled tracked asyncPlanar isVnc works sent
      | handled encoder encDone rest sending frameId present processed sends =>
          obtain rfl := sends_only_works sends works
          obtain ⟨same, others, later, allocs, flight, scheduled, permitted, whole, none_later,
            after⟩ := tracked_done tracked
              { before with egfx.sent := before.egfx.sent ++ completionPdus encDone } frameId
              present processed
          obtain ⟨rfl, rfl⟩ : job = same ∧ handled = others := by simpa using flight
          cases last : encDone.last with
          | true =>
              obtain rfl := permitted
              rw [none_later last, worker_whole scheduled] at whole
              apply InTransit.arrived
              · simp [afterCompletion, last]
              · rw [whole, afterCompletion, sent]
                simp
          | false =>
              rw [last] at after
              refine .onTheWay (handled ++ [encDone]) after asyncPlanar isVnc works ?_
              rw [afterCompletion, sent]
              simp

theorem transit_event {event : Event} (transit : InTransit job sentBefore before)
    (meanwhile : Meanwhile before event) : InTransit job sentBefore (runEvent before event) := by
  obtain ⟨busy, undisturbed⟩ := meanwhile
  cases event with
  | beginUpdate => exact transit_quiet transit (quiet_same rfl rfl rfl)
  | paint paint =>
      simp only [runEvent, serverPaint]
      split
      · exact transit
      · exact transit_quiet transit (quiet_same rfl rfl rfl)
  | endUpdate =>
      simp only [runEvent, serverEndUpdate, addDirtyRegionToPlanarList]
      split
      · exact transit
      · split
        · split
          · exact transit_quiet transit (quiet_same rfl rfl rfl)
          · exact transit_quiet transit (quiet_same rfl rfl rfl)
        · exact transit_quiet transit (quiet_same rfl rfl rfl)
  | clientSuppressOutput suppress => exact transit_quiet transit (quiet_same rfl rfl rfl)
  | coreSuppressOutput suppress => exact transit_quiet transit (quiet_same rfl rfl rfl)
  | capsAdvertise best framesInFlight => exact absurd undisturbed id
  | frameAck suspend frameId =>
      have kept := frame_ack_kept before suspend frameId
      apply transit_quiet transit
      simp only [runEvent, xrdpMmEgfxFrameAck] at kept ⊢
      split at kept
      · exact quiet_refl before
      · exact ⟨rfl, rfl, kept, rfl, rfl⟩
  | resizeRequest src description => exact transit_quiet transit (quiet_same rfl rfl rfl)
  | resizeReady answers => exact transit_quiet transit (resize_ready_quiet answers undisturbed)
  | monitorResizeDone =>
      simp only [runEvent, serverMonitorResizeDone]
      split
      · exact transit_quiet transit (quiet_same rfl rfl rfl)
      · exact transit
  | upAndRunning =>
      simp only [runEvent, xrdpMmUpAndRunning]
      split
      · exact transit_quiet transit (quiet_same rfl rfl rfl)
      · exact transit
  | draw now =>
      apply transit_quiet transit
      cases transit with
      | arrived clear => simp [clear] at busy
      | onTheWay handled tracked asyncPlanar isVnc => exact draw_quiet tracked asyncPlanar isVnc now
  | encDone => exact transit_done transit busy
  | workerTakes allocs =>
      cases transit with
      | arrived clear => simp [clear] at busy
      | onTheWay handled tracked asyncPlanar isVnc works sent =>
          exact .onTheWay handled (tracked_takes tracked undisturbed) asyncPlanar isVnc works sent
  | workerStep =>
      cases transit with
      | arrived clear => simp [clear] at busy
      | onTheWay handled tracked asyncPlanar isVnc works sent =>
          exact .onTheWay handled (tracked_worker tracked) asyncPlanar isVnc works sent

end Transit

/-! ## Scheduling -/

/-- The size of the pixels of the rectangles. -/
def totalBytes : List Rect → Int
  | [] => 0
  | rect :: rest => (rect.right - rect.left) * (rect.bottom - rect.top) * 4 + totalBytes rest

theorem total_bytes_nonneg {rects : List Rect} (solid : ∀ rect ∈ rects, rect.Solid) :
    0 ≤ totalBytes rects := by
  induction rects with
  | nil => exact Int.le_refl 0
  | cons rect rest ih =>
      have head := solid rect (List.mem_cons_self ..)
      have later := ih fun other member => solid other (List.mem_cons_of_mem rect member)
      simp only [Rect.Solid] at head
      have area : 0 ≤ (rect.right - rect.left) * (rect.bottom - rect.top) :=
        Int.mul_nonneg (by omega) (by omega)
      rw [totalBytes]
      omega

theorem snapshot_fits {rects : List Rect} (solid : ∀ rect ∈ rects, rect.Solid) {total : Int}
    (fits : total + totalBytes rects ≤ intMax) :
    snapshotBytes rects total = some (total + totalBytes rects) := by
  induction rects generalizing total with
  | nil => simp [snapshotBytes, totalBytes]
  | cons rect rest ih =>
      have head := solid rect (List.mem_cons_self ..)
      have others := fun other (member : other ∈ rest) =>
        solid other (List.mem_cons_of_mem rect member)
      have later := total_bytes_nonneg others
      simp only [Rect.Solid] at head
      rw [totalBytes] at fits
      simp only [snapshotBytes]
      rw [if_neg (by omega), if_neg (by omega), ih others (by omega), totalBytes, Int.add_assoc]

omit [Pixman R] in
theorem schedule_queues {self : Mm R} {encoder : Encoder} {bitmap : Bitmap} {rects : List Rect}
    {surfaceId x y : Int} (present : self.encoder = some encoder)
    (clear : self.vncGfxAsyncPending = false) (available : self.allocResults = [])
    (solid : rects ≠ [] ∧ ∀ rect ∈ rects, rect.Solid) (fits : totalBytes rects ≤ intMax) :
    xrdpMmEgfxSchedulePlanarRects self bitmap rects surfaceId x y =
      (true, queueJob self encoder (planarJob self encoder bitmap rects surfaceId x y)) := by
  have measured := @snapshot_fits rects solid.2 0 (by omega)
  have positive := (snapshot_bytes_positive solid.2 measured).2 solid.1
  have count := List.length_pos_iff.mpr solid.1
  simp only [xrdpMmEgfxSchedulePlanarRects, present]
  rw [if_neg (by simp [clear, solid.1]), measured]
  simp only []
  rw [if_neg (by omega)]
  simp [gNew, available, queueJob]

omit [Pixman R] in
theorem synchronous_sends {self : Mm R} {bitmap : Bitmap} {rects : List Rect} {surfaceId x y : Int}
    (works : self.egfx.sendResults = []) (some_rect : rects ≠ []) :
    (xrdpMmEgfxSendPlanarRects { self with vncGfxAsyncPlanar := false } bitmap rects surfaceId x
        y).2.egfx.sent = self.egfx.sent ++ planarFramePdus self bitmap rects surfaceId x y := by
  have count := List.length_pos_iff.mpr some_rect
  obtain ⟨sent, committed, after, sends, -⟩ :=
    send_planar_frame_step { self with vncGfxAsyncPlanar := false } bitmap rects surfaceId x y
  rw [xrdpMmEgfxSendPlanarRects, if_neg (by omega), if_neg (by simp), after,
    sends_only_works sends works]
  rfl

/-- While a job scheduled in a state of a session is on its way, nothing but its own
frame is sent, and when the flag is clear again the frame is what the synchronous path
would have sent. The encoder thread can always get there. -/
theorem asynchronous_frame_same {before after : Mm R} {bitmap : Bitmap} {rects : List Rect}
    {surfaceId x y : Int} {events : List Event}
    (reachable : session.Reachable before) (asynchronous : Asynchronous before)
    (clear : before.vncGfxAsyncPending = false) (works : before.egfx.sendResults = [])
    (available : before.allocResults = []) (some_rect : rects ≠ [])
    (solid : ∀ rect ∈ rects, rect.Solid) (fits : totalBytes rects ≤ intMax)
    (ran : (session.restrict Meanwhile).Run
      (xrdpMmEgfxSchedulePlanarRects before bitmap rects surfaceId x y).2 events after) :
    (after.vncGfxAsyncPending = false → after.egfx.sent =
      (xrdpMmEgfxSendPlanarRects { before with vncGfxAsyncPlanar := false } bitmap rects surfaceId
        x y).2.egfx.sent) ∧
    ∃ later final, (session.restrict Meanwhile).Run after later final ∧
      final.vncGfxAsyncPending = false := by
  obtain ⟨encoder, present⟩ := Option.isSome_iff_exists.mp asynchronous.2.2
  have idle := reachable_idle reachable clear present
  have scheduled := planar_job_scheduled before encoder bitmap surfaceId x y ⟨some_rect, solid⟩
  generalize jobSame : planarJob before encoder bitmap rects surfaceId x y = job at scheduled
  have frameId : job.frameId = planarFrameId before := by
    simp [← jobSame, planarJob, planarFrameId, present, asynchronous.2.1]
  rw [schedule_queues present clear available ⟨some_rect, solid⟩ fits, jobSame] at ran
  have transit : InTransit job before.egfx.sent after := by
    apply System.run_preserves (InTransit job before.egfx.sent) _ ran
    · have tracked : Tracked (· = []) (queueJob before encoder job) (some (job, [])) :=
        .busy _ job [] rfl rfl scheduled (queue_idle idle _ job) (by simp)
      exact .onTheWay [] tracked asynchronous.1 asynchronous.2.1 works (by simp [queueJob])
    · intro middle event next transit stepped
      obtain ⟨meanwhile, -, rfl⟩ := stepped
      exact transit_event transit meanwhile
  cases transit with
  | arrived cleared sent =>
      constructor
      · intro _
        rw [sent, synchronous_sends works some_rect, whole_job_pdus scheduled, frameId, ← jobSame,
          planar_job_wires before encoder bitmap surfaceId x y solid]
        rfl
      · exact ⟨[], after, .stay after, cleared⟩
  | onTheWay handled tracked =>
      constructor
      · intro cleared
        rw [tracked_pending tracked] at cleared
        exact absurd cleared (by simp)
      · have flag : FlagTracked after :=
          ⟨_, tracked_mono (fun _ same => same ▸ trivial) tracked, by simp⟩
        obtain ⟨later, final, -, ranLater, cleared⟩ := @pending_can_clear R _ Meanwhile
          (fun mm event busy byThread => ⟨busy, thread_undisturbed byThread⟩) after flag
        exact ⟨later, final, ranLater, cleared⟩

theorem worker_steps_meanwhile {start : Mm R} (busy : start.vncGfxAsyncPending = true)
    (steps : Nat) :
    (session.restrict Meanwhile).Run start (List.replicate steps .workerStep)
        (runEvents start (List.replicate steps .workerStep)) ∧
      (runEvents start (List.replicate steps .workerStep)).vncGfxAsyncPending = true := by
  induction steps generalizing start with
  | zero => exact ⟨.stay start, busy⟩
  | succ steps ih =>
      obtain ⟨ran, still⟩ := @ih (runEvent start .workerStep) busy
      exact ⟨System.run_after ⟨⟨busy, trivial⟩, trivial, rfl⟩ ran, still⟩

/-- One monitor of two pixels. -/
def rowSizes : DisplaySizeDescription where
  minfo := [{ left := 0, top := 0, right := 1, bottom := 0 }]
  minfoWm := [{ left := 0, top := 0, right := 1, bottom := 0 }]
  sessionWidth := 2
  sessionHeight := 1

def rowSession : Mm BoxList :=
  { startedSession 2 true with wm.clientInfo.displaySizes := rowSizes }

theorem row_session : Started rowSession := by
  obtain ⟨screen, clean, painter, encoder, sent, egfxUp, asyncPending, resizeData, resizeQueue⟩ :=
    started_session 2 true
  exact ⟨screen, clean, painter, encoder, sent, egfxUp, asyncPending, resizeData, resizeQueue⟩

def confirmedSession : Mm BoxList := runEvents rowSession [.capsAdvertise (some (1, 0)) (some 2)]

def twoPixels : List Rect := [pixelRow 1, { left := 1, top := 0, right := 2, bottom := 1 }]

def scheduledSession : Mm BoxList :=
  (xrdpMmEgfxSchedulePlanarRects confirmedSession confirmedSession.wm.screen twoPixels 0 0 0).2

/-- The screen is painted before the encoder thread takes the job. -/
def takenSession : Mm BoxList := runEvents scheduledSession (paintRow 2 ++ [.workerTakes []])

def compressedSession : Mm BoxList := runEvents takenSession (List.replicate 39 .workerStep)

def arrivedSession : Mm BoxList := runEvents compressedSession [.encDone, .encDone]

theorem asynchronous_frame_same_repainted :
    arrivedSession.wm.screen.data 0 ≠ confirmedSession.wm.screen.data 0 ∧
      arrivedSession.egfx.sent =
        (xrdpMmEgfxSendPlanarRects { confirmedSession with vncGfxAsyncPlanar := false }
          confirmedSession.wm.screen twoPixels 0 0 0).2.egfx.sent := by
  have reachable : session.Reachable confirmedSession :=
    ⟨_, _, row_session, run_of_events ⟨trivial, trivial⟩⟩
  have busy : scheduledSession.vncGfxAsyncPending = true := by decide +kernel
  have taken : (session.restrict Meanwhile).Run scheduledSession (paintRow 2 ++ [.workerTakes []])
      takenSession := by
    apply restricted_run_of_events
    · have unpainted : scheduledSession.painter = none :=
        Option.isNone_iff_eq_none.mp (by decide +kernel)
      exact ⟨unpainted, trivial, trivial, trivial, trivial⟩
    · exact ⟨⟨busy, trivial⟩, ⟨by decide +kernel, trivial⟩, ⟨by decide +kernel, trivial⟩,
        ⟨by decide +kernel, rfl⟩, trivial⟩
  have worked := @worker_steps_meanwhile BoxList _ takenSession (by decide +kernel) 39
  have arrived : (session.restrict Meanwhile).Run compressedSession [.encDone, .encDone]
      arrivedSession := by
    apply restricted_run_of_events
    · exact ⟨trivial, trivial, trivial⟩
    · exact ⟨⟨worked.2, trivial⟩, ⟨by decide +kernel, trivial⟩, trivial⟩
  have ran := System.run_append (System.run_append taken worked.1) arrived
  refine ⟨by decide +kernel, ?_⟩
  exact (asynchronous_frame_same reachable (by decide +kernel) (by decide +kernel)
    (by decide +kernel) (by decide +kernel) (by simp [twoPixels]) (by decide) (by decide) ran).1
    (by decide +kernel)

end XrdpConsole.PlanarAsync
