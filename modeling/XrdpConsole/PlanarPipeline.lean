import XrdpConsole.JobCompletions
import XrdpConsole.MmFrames

/-!
# One job on its way through the encoder

From the queue of jobs through the encoder thread to the queue of completions. At
any time either nothing is on the way or one job is, and its completions come out
in the order in which the thread made them.
-/

namespace XrdpConsole.PlanarPipeline

open XrdpConsole.Library
open XrdpConsole.Region
open XrdpConsole.MmState
open XrdpConsole.PlanarSend
open XrdpConsole.PlanarWorker
open XrdpConsole.ResizeMachine
open XrdpConsole.DrawSteps
open XrdpConsole.MmSession
open XrdpConsole.MmFrames
open XrdpConsole.WorkerTrace
open XrdpConsole.JobCompletions

set_option autoImplicit false

variable {R : Type}

/-- The completions that are queued and those the thread has left to make. -/
def upcoming (encoder : Encoder) : List EncDone :=
  encoder.fifoProcessed ++ completions encoder.worker

structure Idle (encoder : Encoder) : Prop where
  queue : encoder.fifoToProc = []
  coming : upcoming encoder = []

/-- How far a job has come: queued, or taken with the completions `handled` already off
the queue. -/
inductive Stage (allowed : List Bool → Prop) (job : EncVncPlanar) (handled : List EncDone)
    (encoder : Encoder) : Prop where
  | queued : handled = [] → encoder.fifoToProc = [job] → upcoming encoder = [] →
      Stage allowed job handled encoder
  | taken (allocs : List Bool) : allowed allocs → encoder.fifoToProc = [] →
      handled ++ upcoming encoder = completions (processEncVncPlanar job allocs) →
      Stage allowed job handled encoder

/-- The three queues are the same. -/
structure SameQueues (before after : Encoder) : Prop where
  queue : after.fifoToProc = before.fifoToProc
  processed : after.fifoProcessed = before.fifoProcessed
  worker : after.worker = before.worker

theorem same_queues_refl (encoder : Encoder) : SameQueues encoder encoder := ⟨rfl, rfl, rfl⟩

theorem same_queues_upcoming {before after : Encoder} (same : SameQueues before after) :
    upcoming after = upcoming before := by
  rw [upcoming, upcoming, same.processed, same.worker]

theorem idle_same {before after : Encoder} (idle : Idle before) (same : SameQueues before after) :
    Idle after := ⟨same.queue.trans idle.queue, (same_queues_upcoming same).trans idle.coming⟩

theorem stage_same {allowed : List Bool → Prop} {job : EncVncPlanar} {handled : List EncDone}
    {before after : Encoder} (stage : Stage allowed job handled before)
    (same : SameQueues before after) : Stage allowed job handled after := by
  have coming := same_queues_upcoming same
  cases stage with
  | queued fresh queue none_coming =>
      exact .queued fresh (same.queue.trans queue) (coming.trans none_coming)
  | taken allocs permitted queue whole =>
      exact .taken allocs permitted (same.queue.trans queue) (coming ▸ whole)

/-! ## The encoder thread -/

theorem upcoming_step (encoder : Encoder) :
    upcoming (PlanarWorker.workerStep encoder) = upcoming encoder := by
  unfold PlanarWorker.workerStep
  split
  · rfl
  · rename_i working
    simp [upcoming, completions, working, List.filterMap_cons, completion]
  · rename_i working
    simp [upcoming, completions, working, completion]

theorem queue_step (encoder : Encoder) :
    (PlanarWorker.workerStep encoder).fifoToProc = encoder.fifoToProc := by
  unfold PlanarWorker.workerStep
  split <;> rfl

theorem idle_step {encoder : Encoder} (idle : Idle encoder) :
    Idle (PlanarWorker.workerStep encoder) :=
  ⟨(queue_step encoder).trans idle.queue, (upcoming_step encoder).trans idle.coming⟩

theorem idle_take {encoder : Encoder} (idle : Idle encoder) (allocs : List Bool) :
    Idle (procEncMsg encoder allocs) := by
  simp only [procEncMsg, idle.queue]
  split
  · simp_all
  · exact idle

section Stages

variable {allowed : List Bool → Prop} {job : EncVncPlanar} {handled : List EncDone}

theorem stage_step {encoder : Encoder} (stage : Stage allowed job handled encoder) :
    Stage allowed job handled (PlanarWorker.workerStep encoder) := by
  cases stage with
  | queued fresh queue none_coming =>
      exact .queued fresh ((queue_step encoder).trans queue)
        ((upcoming_step encoder).trans none_coming)
  | taken allocs permitted queue whole =>
      exact .taken allocs permitted ((queue_step encoder).trans queue)
        ((upcoming_step encoder).symm ▸ whole)

theorem stage_take {encoder : Encoder} (stage : Stage allowed job handled encoder)
    {allocs : List Bool} (permitted : allowed allocs) :
    Stage allowed job handled (procEncMsg encoder allocs) := by
  cases stage with
  | queued fresh queue none_coming =>
      simp only [procEncMsg, queue]
      cases working : encoder.worker with
      | nil =>
          have none_processed : encoder.fifoProcessed = [] := by
            simpa [upcoming, working, completions] using none_coming
          apply Stage.taken allocs permitted rfl
          rw [fresh, upcoming, none_processed]
          rfl
      | cons action rest => exact .queued fresh queue none_coming
  | taken others earlier queue whole =>
      have stays : procEncMsg encoder allocs = encoder := by
        simp only [procEncMsg, queue]
        split
        · simp_all
        · rfl
      rw [stays]
      exact .taken others earlier queue whole

theorem stage_pop {encoder : Encoder} (stage : Stage allowed job handled encoder)
    {encDone : EncDone} {rest : List EncDone} (processed : encoder.fifoProcessed = encDone :: rest) :
    Stage allowed job (handled ++ [encDone]) { encoder with fifoProcessed := rest } := by
  cases stage with
  | queued _ _ none_coming => simp [upcoming, processed] at none_coming
  | taken allocs permitted queue whole =>
      apply Stage.taken allocs permitted
      · exact queue
      · rw [← whole, upcoming, upcoming, processed]
        simp

theorem stage_taken_queue {encoder : Encoder} (stage : Stage allowed job handled encoder)
    {encDone : EncDone} {rest : List EncDone} (processed : encoder.fifoProcessed = encDone :: rest) :
    encoder.fifoToProc = [] := by
  cases stage with
  | queued _ _ none_coming => simp [upcoming, processed] at none_coming
  | taken _ _ queue _ => exact queue

/-- The completions of the job, of which those handled are the first. -/
theorem stage_completions {encoder : Encoder} (stage : Stage allowed job handled encoder)
    {encDone : EncDone} {rest : List EncDone} (processed : encoder.fifoProcessed = encDone :: rest) :
    ∃ allocs, allowed allocs ∧ completions (processEncVncPlanar job allocs) =
      handled ++ encDone :: (rest ++ completions encoder.worker) := by
  cases stage with
  | queued _ _ none_coming => simp [upcoming, processed] at none_coming
  | taken allocs permitted _ whole =>
      refine ⟨allocs, permitted, ?_⟩
      rw [← whole, upcoming, processed]
      rfl

theorem stage_mono {other : List Bool → Prop} (weaker : ∀ allocs, allowed allocs → other allocs)
    {encoder : Encoder} (stage : Stage allowed job handled encoder) :
    Stage other job handled encoder := by
  cases stage with
  | queued fresh queue none_coming => exact .queued fresh queue none_coming
  | taken allocs permitted queue whole => exact .taken allocs (weaker allocs permitted) queue whole

end Stages

/-! ## The queue of jobs -/

theorem queue_idle {encoder : Encoder} (idle : Idle encoder) (allowed : List Bool → Prop)
    (job : EncVncPlanar) :
    Stage allowed job [] { encoder with fifoToProc := encoder.fifoToProc ++ [job] } := by
  apply Stage.queued rfl
  · simp [idle.queue]
  · exact idle.coming

/-! ## Completions -/

/-- The state after a completion: `sent` is the one its messages leave, `rest` the
completions that are left. -/
def afterCompletion (before sent : Mm R) (encoder : Encoder) (rest : List EncDone)
    (encDone : EncDone) (frameId : Option Int) : Mm R :=
  { sent with
    encoder := withFrameId (some { encoder with fifoProcessed := rest }) frameId
    vncGfxAsyncPending := before.vncGfxAsyncPending && !encDone.last
    freed := if encDone.last then before.freed ++ [encDone.enc.address] else before.freed }

/-- A round of the loop over the completions. -/
inductive DoneStep (before : Mm R) : Mm R → Prop where
  | idle : (∀ encoder, before.encoder = some encoder → encoder.fifoProcessed = []) →
      DoneStep before before
  | handled (encoder : Encoder) (encDone : EncDone) (rest : List EncDone) (sent : Mm R)
      (frameId : Option Int) : before.encoder = some encoder →
      encoder.fifoProcessed = encDone :: rest →
      SendsOnly before sent (completionPdus encDone) →
      DoneStep before (afterCompletion before sent encoder rest encDone frameId)

theorem enc_done_step (self : Mm R) : DoneStep self (xrdpMmProcessEncDone self) := by
  unfold xrdpMmProcessEncDone
  cases present : self.encoder with
  | none => exact .idle (by simp [present])
  | some encoder =>
      simp only []
      cases processed : encoder.fifoProcessed with
      | nil =>
          apply DoneStep.idle
          intro other same
          obtain rfl : encoder = other := Option.some.inj (present.symm.trans same)
          exact processed
      | cons encDone rest =>
          obtain ⟨sent, frameId, sends, effect⟩ := process_done_effect
            { self with encoder := some { encoder with fifoProcessed := rest } } encDone
          obtain ⟨messages, results, rfl, whole⟩ := sends
          simp only []
          rw [effect]
          exact .handled encoder encDone rest { self with egfx :=
              { self.egfx with sent := self.egfx.sent ++ messages, sendResults := results } }
            frameId present processed ⟨messages, results, rfl, whole⟩

/-! ## What leaves the queues alone -/

inductive EncoderKept : Option Encoder → Option Encoder → Prop where
  | absent : EncoderKept none none
  | present {before after : Encoder} : SameQueues before after →
      EncoderKept (some before) (some after)

theorem encoder_kept_refl (encoder : Option Encoder) : EncoderKept encoder encoder := by
  cases encoder with
  | none => exact .absent
  | some encoder => exact .present (same_queues_refl encoder)

theorem with_frame_id_kept (encoder : Option Encoder) (frameId : Option Int) :
    EncoderKept encoder (withFrameId encoder frameId) := by
  cases frameId with
  | none => exact encoder_kept_refl encoder
  | some frameId =>
      cases encoder with
      | none => exact .absent
      | some encoder => exact .present ⟨rfl, rfl, rfl⟩

theorem module_frame_ack_queues (encoder : Encoder) :
    SameQueues encoder (xrdpMmUpdateModuleFrameAck encoder) := by
  unfold xrdpMmUpdateModuleFrameAck
  split <;> exact ⟨rfl, rfl, rfl⟩

theorem frame_ack_kept (self : Mm R) (suspend : Bool) (frameId : Int) :
    EncoderKept self.encoder (xrdpMmEgfxFrameAck self suspend frameId).encoder := by
  unfold xrdpMmEgfxFrameAck
  cases present : self.encoder with
  | none =>
      simp only [present]
      exact .absent
  | some encoder =>
      obtain ⟨queue, processed, worker⟩ :=
        module_frame_ack_queues (acknowledgeFrame encoder suspend frameId)
      exact .present ⟨queue, processed, worker⟩

/-! ## One job at most -/

/-- The job that is on its way, and its completions that have been handled. -/
abbrev Flight := Option (EncVncPlanar × List EncDone)

inductive Tracked (allowed : List Bool → Prop) (mm : Mm R) : Flight → Prop where
  | free : (∀ encoder, mm.encoder = some encoder → Idle encoder) → Tracked allowed mm none
  | busy (encoder : Encoder) (job : EncVncPlanar) (handled : List EncDone) :
      mm.vncGfxAsyncPending = true → mm.encoder = some encoder → Scheduled job →
      Stage allowed job handled encoder → (∀ done ∈ handled, done.last = false) →
      Tracked allowed mm (some (job, handled))

section Tracking

variable {allowed : List Bool → Prop} {flight : Flight}

theorem tracked_pending {mm : Mm R} {later : EncVncPlanar × List EncDone}
    (tracked : Tracked allowed mm (some later)) : mm.vncGfxAsyncPending = true := by
  cases tracked with
  | busy _ _ _ busy_flag => exact busy_flag

theorem tracked_mono {other : List Bool → Prop} (weaker : ∀ allocs, allowed allocs → other allocs)
    {mm : Mm R} (tracked : Tracked allowed mm flight) : Tracked other mm flight := by
  cases tracked with
  | free idle => exact .free idle
  | busy encoder job handled busy_flag present scheduled stage others =>
      exact .busy encoder job handled busy_flag present scheduled (stage_mono weaker stage) others

theorem tracked_kept {before after : Mm R} (tracked : Tracked allowed before flight)
    (pending : after.vncGfxAsyncPending = before.vncGfxAsyncPending)
    (kept : EncoderKept before.encoder after.encoder) : Tracked allowed after flight := by
  cases tracked with
  | free idle =>
      apply Tracked.free
      intro encoder present
      rw [present] at kept
      generalize same : before.encoder = earlier at kept
      cases kept with
      | present queues => exact idle_same (idle _ same) queues
  | busy encoder job handled busy_flag present scheduled stage others =>
      rw [present] at kept
      generalize same : after.encoder = later at kept
      cases kept with
      | present queues =>
          exact .busy _ job handled (pending.trans busy_flag) same scheduled
            (stage_same stage queues) others

theorem tracked_same {before after : Mm R} (tracked : Tracked allowed before flight)
    (pending : after.vncGfxAsyncPending = before.vncGfxAsyncPending)
    (encoder : after.encoder = before.encoder) : Tracked allowed after flight :=
  tracked_kept tracked pending (encoder ▸ encoder_kept_refl before.encoder)

/-- An encoder that has just been created has nothing to do. -/
theorem created_idle {framesInFlight : Option Int} {encoder : Encoder}
    (created : xrdpEncoderCreate framesInFlight = some encoder) : Idle encoder := by
  obtain ⟨frames, -, rfl⟩ := Option.map_eq_some_iff.mp created
  exact ⟨rfl, rfl⟩

/-- A job that is queued while none is on its way. -/
theorem tracked_queued {before : Mm R} {encoder : Encoder} (idle : Idle encoder)
    (allocResults : List Bool) (bitmap : Bitmap) {rects : List Rect} (surfaceId x y : Int)
    (some_rect : rects ≠ []) (solid : ∀ rect ∈ rects, rect.Solid) :
    Tracked allowed
      (queueJob { before with allocResults } encoder
        (planarJob before encoder bitmap rects surfaceId x y))
      (some (planarJob before encoder bitmap rects surfaceId x y, [])) :=
  .busy _ _ [] rfl rfl (planar_job_scheduled before encoder bitmap surfaceId x y ⟨some_rect, solid⟩)
    (queue_idle idle allowed _) (by simp)

/-- A call queues a job only where none is on its way. -/
theorem tracked_send {before after : Mm R} {bitmap : Bitmap} {rects : List Rect}
    {surfaceId x y : Int} (tracked : Tracked allowed before flight)
    (solid : ∀ rect ∈ rects, rect.Solid)
    (step : SendStep before bitmap rects surfaceId x y after) :
    Tracked allowed after flight ∧ after.vncGfxAsyncPending = before.vncGfxAsyncPending ∨
      flight = none ∧ ∃ job, job.surfaceId = surfaceId ∧ after.egfx = before.egfx ∧
        after.vncGfxAsyncPending = true ∧ Tracked allowed after (some (job, [])) := by
  cases step with
  | refused allocResults => exact .inl ⟨tracked_same tracked rfl rfl, rfl⟩
  | queued allocResults encoder total _ present idle_flag some_rect _ _ =>
      cases tracked with
      | free idle =>
          exact .inr ⟨rfl, _, rfl, rfl, rfl, tracked_queued (idle encoder present) allocResults
            bitmap surfaceId x y some_rect solid⟩
      | busy _ _ _ busy_flag =>
          rw [idle_flag] at busy_flag
          exact absurd busy_flag (by simp)
  | framed sent committed _ _ sends =>
      obtain ⟨messages, results, rfl, -⟩ := sends
      exact .inl ⟨tracked_kept tracked rfl (with_frame_id_kept before.encoder committed), rfl⟩

theorem tracked_takes {before : Mm R} (tracked : Tracked allowed before flight)
    {allocs : List Bool} (permitted : allowed allocs) :
    Tracked allowed { before with encoder := before.encoder.map (procEncMsg · allocs) } flight := by
  cases tracked with
  | free idle =>
      refine .free ?_
      intro after same
      obtain ⟨encoder, present, rfl⟩ := Option.map_eq_some_iff.mp same
      exact idle_take (idle encoder present) allocs
  | busy encoder job handled busy_flag present scheduled stage others =>
      exact .busy _ job handled busy_flag (by rw [present]; rfl) scheduled
        (stage_take stage permitted) others

theorem tracked_worker {before : Mm R} (tracked : Tracked allowed before flight) :
    Tracked allowed { before with encoder := before.encoder.map PlanarWorker.workerStep } flight := by
  cases tracked with
  | free idle =>
      refine .free ?_
      intro after same
      obtain ⟨encoder, present, rfl⟩ := Option.map_eq_some_iff.mp same
      exact idle_step (idle encoder present)
  | busy encoder job handled busy_flag present scheduled stage others =>
      exact .busy _ job handled busy_flag (by rw [present]; rfl) scheduled (stage_step stage) others

/-- A handled completion is the next one of the job on its way, and ends its way where it
is the last one. -/
theorem tracked_done {before : Mm R} (tracked : Tracked allowed before flight) (sent : Mm R)
    {encoder : Encoder} {encDone : EncDone} {rest : List EncDone} (frameId : Option Int)
    (present : before.encoder = some encoder)
    (processed : encoder.fifoProcessed = encDone :: rest) :
    ∃ job handled later allocs, flight = some (job, handled) ∧ Scheduled job ∧ allowed allocs ∧
      completions (processEncVncPlanar job allocs) = handled ++ encDone :: later ∧
      (encDone.last = true → later = []) ∧
      Tracked allowed (afterCompletion before sent encoder rest encDone frameId)
        (if encDone.last then none else some (job, handled ++ [encDone])) := by
  have queues : EncoderKept (some { encoder with fifoProcessed := rest })
      (afterCompletion before sent encoder rest encDone frameId).encoder :=
    with_frame_id_kept (some { encoder with fifoProcessed := rest }) frameId
  cases tracked with
  | free idle =>
      have none_coming := (idle encoder present).coming
      simp [upcoming, processed] at none_coming
  | busy other job handled busy_flag same scheduled stage others =>
      obtain rfl : encoder = other := Option.some.inj (present.symm.trans same)
      obtain ⟨allocs, permitted, whole⟩ := stage_completions stage processed
      have none_later := (worker_delivery scheduled allocs).last handled encDone _ whole
      have popped := stage_pop stage processed
      have queue := stage_taken_queue stage processed
      refine ⟨job, handled, _, allocs, rfl, scheduled, permitted, whole, none_later, ?_⟩
      generalize sameAfter :
        (afterCompletion before sent encoder rest encDone frameId).encoder = final at queues
      cases queues with
      | present queues =>
          cases last : encDone.last with
          | true =>
              refine .free ?_
              intro found foundSame
              obtain rfl := Option.some.inj (sameAfter.symm.trans foundSame)
              have idle : Idle { encoder with fifoProcessed := rest } := ⟨queue, none_later last⟩
              exact idle_same idle queues
          | false =>
              refine .busy _ job (handled ++ [encDone]) ?_ sameAfter scheduled
                (stage_same popped queues) ?_
              · rw [afterCompletion, busy_flag, last]
                rfl
              · intro done member
                rcases List.mem_append.mp member with earlier | now
                · exact others done earlier
                · rw [List.mem_singleton.mp now]
                  exact last

end Tracking

end XrdpConsole.PlanarPipeline
