import XrdpConsole.EventFrames

/-!
# Frame numbers and acknowledgements

With backpressure every planar frame of an encoder has a number of its own, which is
committed once the end of the frame was sent: by the synchronous path right away, by
the completions of a job when the last of them is handled. Acknowledgements move the
other counter, whatever id the client names.
-/

namespace XrdpConsole.FrameNumbers

open XrdpConsole.Library
open XrdpConsole.Region
open XrdpConsole.VncState
open XrdpConsole.MmState
open XrdpConsole.PlanarSend
open XrdpConsole.PlanarWorker
open XrdpConsole.ResizeMachine
open XrdpConsole.DrawSteps
open XrdpConsole.DrawCalls
open XrdpConsole.MmSession
open XrdpConsole.MmFrames
open XrdpConsole.JobCompletions
open XrdpConsole.PlanarPipeline
open XrdpConsole.AsyncPending
open XrdpConsole.EventFrames

set_option autoImplicit false

variable {R : Type}

/-! ## Ended frames -/

def endFrameId : GfxPdu → Option Int
  | .endFrame frameId => some frameId
  | _ => none

/-- The ids of the frames whose end was sent, in order. -/
def endedFrames (self : Mm R) : List Int := self.egfx.sent.filterMap endFrameId

theorem send_ended (self : Mm R) (pdu : GfxPdu) :
    endedFrames (xrdpEgfxSend self pdu).2 =
      endedFrames self ++ if (xrdpEgfxSend self pdu).1 then [pdu].filterMap endFrameId else [] := by
  unfold xrdpEgfxSend endedFrames
  by_cases sent : self.egfx.sendResults.headD true = true
  · simp only [sent, if_true, List.filterMap_append]
  · simp only [sent, if_false, Bool.false_eq_true, List.append_nil]

theorem send_ended_none (self : Mm R) {pdu : GfxPdu} (open_frame : endFrameId pdu = none) :
    endedFrames (xrdpEgfxSend self pdu).2 = endedFrames self := by
  rw [send_ended]
  simp [open_frame]

theorem send_each_ended (self : Mm R) {pdus : List GfxPdu}
    (open_frame : ∀ pdu ∈ pdus, endFrameId pdu = none) :
    endedFrames (sendEach self pdus) = endedFrames self := by
  induction pdus generalizing self with
  | nil => rfl
  | cons pdu rest ih =>
      have later := ih (xrdpEgfxSend self pdu).2
        fun other member => open_frame other (List.mem_cons_of_mem pdu member)
      exact later.trans (send_ended_none self (open_frame pdu (List.mem_cons_self ..)))

theorem send_all_ended (self : Mm R) {pdus : List GfxPdu}
    (open_frame : ∀ pdu ∈ pdus, endFrameId pdu = none) :
    endedFrames (sendAll self pdus).2 = endedFrames self := by
  induction pdus generalizing self with
  | nil => rfl
  | cons pdu rest ih =>
      have first := send_ended_none self (open_frame pdu (List.mem_cons_self ..))
      rw [sendAll]
      split
      · have later := ih (xrdpEgfxSend self pdu).2
          fun other member => open_frame other (List.mem_cons_of_mem pdu member)
        exact later.trans first
      · exact first

theorem rect_tiles_open (bitmap : Bitmap) (rect : Rect) (surfaceId x y : Int) :
    ∀ pdu ∈ planarRectTiles bitmap rect surfaceId x y, endFrameId pdu = none := by
  intro pdu member
  simp only [planarRectTiles] at member
  split at member
  · exact absurd member List.not_mem_nil
  · simp only [List.mem_flatMap] at member
    obtain ⟨yindex, -, xindex, -, tile⟩ := member
    split at tile
    · exact absurd tile List.not_mem_nil
    · rw [List.mem_singleton.mp tile]
      rfl

theorem rect_list_ended (self : Mm R) (bitmap : Bitmap) (surfaceId x y : Int) (rects : List Rect) :
    endedFrames (sendPlanarRectList self bitmap surfaceId x y rects).2 = endedFrames self := by
  induction rects generalizing self with
  | nil => rfl
  | cons rect rest ih =>
      have first := send_all_ended self (rect_tiles_open bitmap rect surfaceId x y)
      rw [sendPlanarRectList]
      split
      · exact (ih _).trans first
      · exact first

/-- A frame either stays without an end, or it is ended and its id committed. -/
inductive FrameEnds (before : Mm R) (frameId : Int) (after : Mm R) : Prop where
  | without : after.encoder = before.encoder → endedFrames after = endedFrames before →
      FrameEnds before frameId after
  | ended : after.encoder = withFrameId before.encoder (some frameId) →
      endedFrames after = endedFrames before ++ [frameId] → FrameEnds before frameId after

theorem planar_frame_ends {self : Mm R} (isVnc : self.isVnc = true)
    (backpressure : self.vncGfxBackpressure = true) (bitmap : Bitmap) (rects : List Rect)
    (surfaceId x y : Int) :
    FrameEnds self (planarFrameId self) (sendPlanarFrame self bitmap rects surfaceId x y).2 := by
  have started := sends_only_send self (.startFrame (planarFrameId self) 0)
  have startedSame := @send_ended_none R self (.startFrame (planarFrameId self) 0) rfl
  unfold sendPlanarFrame
  simp only []
  generalize xrdpEgfxSend self (.startFrame (planarFrameId self) 0) = start at started startedSame ⊢
  have drawn := sends_only_trans started
    (sends_only_rect_list start.2 bitmap surfaceId x y rects).1
  have drawnSame := (rect_list_ended start.2 bitmap surfaceId x y rects).trans startedSame
  generalize sendPlanarRectList start.2 bitmap surfaceId x y rects = tiles at drawn drawnSame ⊢
  have ended := sends_only_trans drawn (sends_only_send tiles.2 (.endFrame (planarFrameId self)))
  have endedSame := send_ended tiles.2 (.endFrame (planarFrameId self))
  generalize xrdpEgfxSend tiles.2 (.endFrame (planarFrameId self)) = final at ended endedSame ⊢
  split
  · exact .without (sends_only_encoder started) startedSame
  · split
    · exact .without (sends_only_encoder drawn) drawnSame
    · split
      · rename_i failed
        refine .without (sends_only_encoder ended) ?_
        rw [endedSame, drawnSame]
        simp_all
      · rename_i worked
        obtain ⟨messages, results, same, -⟩ := id ended
        have commits : (final.2.isVnc && final.2.vncGfxBackpressure) = true := by
          rw [same]
          simp [isVnc, backpressure]
        rw [commitFrameId, if_pos commits]
        apply FrameEnds.ended
        · simp only [sends_only_encoder ended]
          rfl
        · have finished : final.1 = true := by simpa using worked
          rw [finished, drawnSame] at endedSame
          exact endedSame

theorem done_pdus_open (encDone : EncDone) : ∀ pdu ∈ donePdus encDone, endFrameId pdu = none := by
  intro pdu member
  simp only [donePdus, List.mem_append] at member
  rcases member with starts | tile
  · split at starts
    · rw [List.mem_singleton.mp starts]
      rfl
    · exact absurd starts List.not_mem_nil
  · split at tile
    · rw [List.mem_singleton.mp tile]
      rfl
    · exact absurd tile List.not_mem_nil

/-- What comes before the end of a frame makes no difference. -/
theorem frame_ends_after {before middle after : Mm R} {frameId : Int}
    (encoder : middle.encoder = before.encoder) (ended : endedFrames middle = endedFrames before)
    (ends : FrameEnds middle frameId after) : FrameEnds before frameId after := by
  cases ends with
  | without same none_ended => exact .without (same.trans encoder) (none_ended.trans ended)
  | ended commits finished => exact .ended (encoder ▸ commits) (ended ▸ finished)

theorem finish_frame_ends {self : Mm R} (backpressure : self.vncGfxBackpressure = true)
    (encDone : EncDone) : FrameEnds self encDone.frameId (finishFrame self encDone) := by
  have ended := sends_only_send self (.endFrame encDone.frameId)
  have endedSame := send_ended self (.endFrame encDone.frameId)
  unfold finishFrame
  split
  · simp only []
    generalize xrdpEgfxSend self (.endFrame encDone.frameId) = final at ended endedSame ⊢
    have commits : final.2.vncGfxBackpressure = true := by
      obtain ⟨messages, results, same, -⟩ := ended
      rw [same]
      exact backpressure
    rw [commits, Bool.and_true]
    split
    · rename_i finished
      rw [finished] at endedSame
      apply FrameEnds.ended
      · simp only [sends_only_encoder ended]
        rfl
      · exact endedSame
    · rename_i failed
      apply FrameEnds.without
      · exact sends_only_encoder ended
      · rw [endedSame, if_neg failed, List.append_nil]
  · exact .without rfl rfl

/-- Only the last completion of a job ends its frame. -/
theorem planar_done_ends {self : Mm R} (backpressure : self.vncGfxBackpressure = true)
    (encDone : EncDone) :
    FrameEnds self encDone.frameId (xrdpMmProcessVncPlanarDone self encDone) ∧
      (encDone.last = false → (xrdpMmProcessVncPlanarDone self encDone).encoder = self.encoder ∧
        endedFrames (xrdpMmProcessVncPlanarDone self encDone) = endedFrames self) := by
  have drawn := sends_only_each self (donePdus encDone)
  have encoder := sends_only_encoder drawn
  have ended := send_each_ended self (done_pdus_open encDone)
  have commits : (sendEach self (donePdus encDone)).vncGfxBackpressure = true := by
    obtain ⟨messages, results, same, -⟩ := drawn
    rw [same]
    exact backpressure
  unfold xrdpMmProcessVncPlanarDone
  cases last : encDone.last with
  | false => exact ⟨.without encoder ended, fun _ => ⟨encoder, ended⟩⟩
  | true =>
      refine ⟨?_, by simp⟩
      have finished := frame_ends_after encoder ended (finish_frame_ends commits encDone)
      cases finished with
      | without same none_ended => exact .without same none_ended
      | ended committed whole => exact .ended committed whole

/-! ## The invariant -/

def frameCounters (encoder : Encoder) : Int × Int := (encoder.frameIdClient, encoder.frameIdServer)

/-- The ids of the first frames of an encoder. -/
def firstFrameIds (count : Nat) : List Int := (List.range count).map fun index : Nat => index + 1

theorem first_frame_ids_succ (count : Nat) :
    firstFrameIds (count + 1) = firstFrameIds count ++ [(count : Int) + 1] := by
  simp [firstFrameIds, List.range_succ]

/-- `count` frames were ended since those in `earlier`, of which the client has
acknowledged those up to `client`. A job on its way has the next number, and no other
frame comes before it. -/
structure Numbered (earlier : List Int) (mm : Mm R) (flight : Flight) (client : Int) (count : Nat) :
    Prop where
  isVnc : mm.isVnc = true
  backpressure : mm.vncGfxBackpressure = true
  counters : mm.encoder.map frameCounters = some (client, (count : Int))
  ended : endedFrames mm = earlier ++ firstFrameIds count
  acknowledged : 0 ≤ client ∧ client ≤ count
  coming : ∀ job handled, flight = some (job, handled) →
    mm.vncGfxAsyncPlanar = true ∧ job.frameId = count + 1

section Numbers

variable {earlier : List Int} {before after : Mm R} {flight : Flight} {client : Int} {count : Nat}

theorem numbered_encoder (numbered : Numbered earlier before flight client count) :
    ∃ encoder, before.encoder = some encoder ∧ encoder.frameIdClient = client ∧
      encoder.frameIdServer = count := by
  obtain ⟨encoder, present, same⟩ := Option.map_eq_some_iff.mp numbered.counters
  simp only [frameCounters, Prod.mk.injEq] at same
  exact ⟨encoder, present, same⟩

/-- Nothing is ended or acknowledged. -/
theorem numbered_kept (numbered : Numbered earlier before flight client count)
    (settings : SameSettings before after)
    (counters : after.encoder.map frameCounters = before.encoder.map frameCounters)
    (ended : endedFrames after = endedFrames before) :
    Numbered earlier after flight client count where
  isVnc := settings.isVnc.trans numbered.isVnc
  backpressure := settings.backpressure.trans numbered.backpressure
  counters := counters.trans numbered.counters
  ended := ended.trans numbered.ended
  acknowledged := numbered.acknowledged
  coming job handled busy := by
    rw [settings.asyncPlanar]
    exact numbered.coming job handled busy

theorem numbered_free (numbered : Numbered earlier before flight client count) :
    Numbered earlier before none client count :=
  { numbered with coming := by simp }

/-- The frame with the next number comes to its end, or stays without one. -/
theorem numbered_ends (numbered : Numbered earlier before flight client count)
    (settings : SameSettings before after) (ends : FrameEnds before (count + 1) after) :
    ∃ later, Numbered earlier after none client later := by
  cases ends with
  | without encoder ended =>
      have same := numbered_kept (numbered_free numbered) settings (by rw [encoder]) ended
      exact ⟨count, same⟩
  | ended encoder ended =>
      obtain ⟨committed, present, acknowledged, -⟩ := numbered_encoder numbered
      refine ⟨count + 1, settings.isVnc.trans numbered.isVnc,
        settings.backpressure.trans numbered.backpressure, ?_, ?_, ?_, by simp⟩
      · rw [encoder, present]
        simp [withFrameId, frameCounters, acknowledged]
      · rw [ended, numbered.ended, first_frame_ids_succ, List.append_assoc]
      · have bounds := numbered.acknowledged
        omega

end Numbers

/-! ## Draws -/

/-- One encoder's count, with what is on its way. -/
def Counting (earlier : List Int) (client : Int) (mm : Mm R) : Prop :=
  ∃ flight count, Tracked (fun _ => True) mm flight ∧ Numbered earlier mm flight client count

theorem counting_same {earlier : List Int} {client : Int} {before after : Mm R}
    (counting : Counting earlier client before) (egfx : after.egfx = before.egfx)
    (encoder : after.encoder = before.encoder)
    (pending : after.vncGfxAsyncPending = before.vncGfxAsyncPending)
    (settings : SameSettings before after) : Counting earlier client after := by
  obtain ⟨flight, count, tracked, numbered⟩ := counting
  refine ⟨flight, count, tracked_same tracked pending encoder, ?_⟩
  apply numbered_kept numbered settings
  · rw [encoder]
  · rw [endedFrames, egfx, endedFrames]

section Draws

variable [Pixman R] {earlier : List Int} {client : Int}

omit [Pixman R] in
/-- A synchronous frame takes the next number. No job is on its way then. -/
theorem synchronous_call_counts {mm : Mm R} {flight : Flight} {count : Nat} {call : PlanarCall}
    (numbered : Numbered earlier mm flight client count) (synchronous : ¬Asynchronous mm)
    (some_rect : call.rects ≠ []) :
    flight = none ∧ FrameEnds mm (count + 1) (sendCall mm call) := by
  obtain ⟨encoder, present, -, server⟩ := numbered_encoder numbered
  constructor
  · cases flight with
    | none => rfl
    | some job =>
        have path := (numbered.coming job.1 job.2 rfl).1
        exact absurd ⟨path, numbered.isVnc, by simp [present]⟩ synchronous
  · have ends := planar_frame_ends numbered.isVnc numbered.backpressure mm.wm.screen call.rects
      call.surfaceId call.x call.y
    have next : planarFrameId mm = count + 1 := by
      simp [planarFrameId, present, numbered.isVnc, numbered.backpressure, server]
    rw [send_call_frame synchronous some_rect]
    exact next ▸ ends

omit [Pixman R] in
theorem send_call_counting {mm : Mm R} {call : PlanarCall} (counting : Counting earlier client mm)
    (solid : call.rects ≠ [] ∧ ∀ rect ∈ call.rects, rect.Solid) :
    Counting earlier client (sendCall mm call) := by
  obtain ⟨flight, count, tracked, numbered⟩ := id counting
  obtain ⟨encoder, present, -, server⟩ := numbered_encoder numbered
  have step : SendStep mm mm.wm.screen call.rects call.surfaceId call.x call.y (sendCall mm call) :=
    send_planar_rects_step mm mm.wm.screen call.rects call.surfaceId call.x call.y
  have settings := same_settings_output (output_only_step step)
  have synchronously := fun synchronous =>
    @synchronous_call_counts R earlier client mm flight count call numbered synchronous solid.1
  generalize sendCall mm call = after at step settings synchronously ⊢
  cases step with
  | refused allocResults => exact counting_same counting rfl rfl rfl settings
  | queued allocResults other total asynchronous same idle_flag _ _ _ =>
      obtain rfl : encoder = other := Option.some.inj (present.symm.trans same)
      cases tracked with
      | free idle =>
          have queued := numbered_kept numbered settings (by rw [present]; rfl) rfl
          refine ⟨_, count, tracked_queued (idle encoder present) allocResults mm.wm.screen
            call.surfaceId call.x call.y solid.1 solid.2, { queued with coming := ?_ }⟩
          intro job handled busy
          simp only [Option.some.injEq, Prod.mk.injEq] at busy
          obtain ⟨rfl, -⟩ := busy
          refine ⟨asynchronous.1, ?_⟩
          simp [planarJob, numbered.backpressure, server]
      | busy _ _ _ busy_flag =>
          rw [idle_flag] at busy_flag
          exact absurd busy_flag (by simp)
  | framed sent committed synchronous _ sends =>
      obtain ⟨rfl, ends⟩ := synchronously synchronous
      obtain ⟨later, numberedAfter⟩ := numbered_ends numbered settings ends
      refine ⟨none, later, ?_, numberedAfter⟩
      obtain ⟨messages, results, rfl, -⟩ := sends
      exact tracked_kept tracked rfl (with_frame_id_kept mm.encoder committed)

theorem draw_counting {mm : Mm R} (counting : Counting earlier client mm) (now : Int) :
    Counting earlier client (checkScreenDirty mm now).2 := by
  unfold checkScreenDirty
  split
  · exact counting
  · split
    · rename_i region _ due
      have drawn : Counting earlier client (xrdpMmDrawDirty mm region).2 := by
        rw [draw_dirty_calls]
        apply List.foldlRecOn (drawCalls mm region) sendCall counting
        intro middle kept call member
        exact send_call_counting kept (draw_calls_solid due.1 member)
      exact counting_same drawn rfl rfl rfl ⟨rfl, rfl, rfl⟩
    · exact counting

end Draws

/-! ## Completions and acknowledgements -/

section Events

variable {earlier : List Int} {client : Int}

theorem enc_done_counting {mm : Mm R} (counting : Counting earlier client mm) :
    Counting earlier client (xrdpMmProcessEncDone mm) := by
  obtain ⟨flight, count, tracked, numbered⟩ := id counting
  obtain ⟨encoder, present, -, -⟩ := numbered_encoder numbered
  cases processed : encoder.fifoProcessed with
  | nil =>
      have waits : xrdpMmProcessEncDone mm = mm := by
        simp only [xrdpMmProcessEncDone, present, processed]
      rw [waits]
      exact counting
  | cons encDone rest =>
      simp only [xrdpMmProcessEncDone, present, processed]
      generalize popped_def : { mm with encoder := some { encoder with fifoProcessed := rest } } =
        popped
      have numberedPopped : Numbered earlier popped flight client count := by
        subst popped_def
        exact numbered_kept numbered ⟨rfl, rfl, rfl⟩ (by rw [present]; rfl) rfl
      obtain ⟨ends, stays⟩ := planar_done_ends numberedPopped.backpressure encDone
      have settings := same_settings_output (output_only_done popped encDone)
      obtain ⟨sent, frameId, -, effect⟩ := process_done_effect popped encDone
      obtain ⟨job, handled, later, allocs, rfl, scheduled, -, whole, none_later, after⟩ :=
        tracked_done tracked sent frameId present processed
      have own := (worker_delivery scheduled allocs).own encDone (by rw [whole]; simp)
      rw [own.2, (numbered.coming job handled rfl).2] at ends
      have trackedAfter : Tracked (fun _ => True) (xrdpMmProcessVncPlanarDone popped encDone)
          (if encDone.last then none else some (job, handled ++ [encDone])) := by
        rw [effect]
        subst popped_def
        exact after
      generalize xrdpMmProcessVncPlanarDone popped encDone = final at *
      cases last : encDone.last with
      | true =>
          rw [last, if_pos rfl] at trackedAfter
          obtain ⟨counted, numberedAfter⟩ := numbered_ends numberedPopped settings ends
          exact ⟨none, counted, trackedAfter, numberedAfter⟩
      | false =>
          rw [last, if_neg (by simp)] at trackedAfter
          obtain ⟨encoderSame, endedSame⟩ := stays last
          have kept := numbered_kept numberedPopped settings (by rw [encoderSame]) endedSame
          refine ⟨some (job, handled ++ [encDone]), count, trackedAfter, { kept with coming := ?_ }⟩
          intro other others busy
          simp only [Option.some.injEq, Prod.mk.injEq] at busy
          obtain ⟨rfl, -⟩ := busy
          exact kept.coming job handled rfl

theorem module_frame_ack_counters (encoder : Encoder) :
    frameCounters (xrdpMmUpdateModuleFrameAck encoder) = frameCounters encoder := by
  unfold xrdpMmUpdateModuleFrameAck
  split <;> rfl

/-- Whatever the client names, its counter moves up and not past the server's. -/
theorem acknowledge_bounds (encoder : Encoder) (suspend : Bool) (frameId : Int)
    (behind : encoder.frameIdClient ≤ encoder.frameIdServer) :
    encoder.frameIdClient ≤ (acknowledgeFrame encoder suspend frameId).frameIdClient ∧
      (acknowledgeFrame encoder suspend frameId).frameIdClient ≤ encoder.frameIdServer := by
  simp only [acknowledgeFrame]
  split
  · exact ⟨behind, Int.le_refl _⟩
  · omega

theorem frame_ack_counting {mm : Mm R} (counting : Counting earlier client mm) (suspend : Bool)
    (frameId : Int) :
    ∃ later, client ≤ later ∧ Counting earlier later (xrdpMmEgfxFrameAck mm suspend frameId) := by
  obtain ⟨flight, count, tracked, numbered⟩ := counting
  obtain ⟨encoder, present, acknowledged, server⟩ := numbered_encoder numbered
  have kept := frame_ack_kept mm suspend frameId
  have settings := same_settings_output (output_only_frame_ack mm suspend frameId)
  have bounds := numbered.acknowledged
  obtain ⟨forward, behind⟩ := acknowledge_bounds encoder suspend frameId (by omega)
  have after : (xrdpMmEgfxFrameAck mm suspend frameId).encoder =
      some (xrdpMmUpdateModuleFrameAck (acknowledgeFrame encoder suspend frameId)) := by
    simp [xrdpMmEgfxFrameAck, present]
  have pending : (xrdpMmEgfxFrameAck mm suspend frameId).vncGfxAsyncPending =
      mm.vncGfxAsyncPending := by simp [xrdpMmEgfxFrameAck, present]
  have ended : endedFrames (xrdpMmEgfxFrameAck mm suspend frameId) = endedFrames mm := by
    simp [xrdpMmEgfxFrameAck, present, endedFrames]
  generalize xrdpMmEgfxFrameAck mm suspend frameId = final at *
  refine ⟨(acknowledgeFrame encoder suspend frameId).frameIdClient, by omega, flight, count,
    tracked_kept tracked pending kept, ?_⟩
  constructor
  · exact settings.isVnc.trans numbered.isVnc
  · exact settings.backpressure.trans numbered.backpressure
  · rw [after, Option.map_some, module_frame_ack_counters]
    simp [frameCounters, acknowledgeFrame, server]
  · exact ended.trans numbered.ended
  · omega
  · rw [settings.asyncPlanar]
    exact numbered.coming

theorem outside_ended {before after : Mm R} (outside : OutsideFrames before after) :
    endedFrames after = endedFrames before := by
  obtain ⟨sent, same, outside⟩ := outside
  have none_ended : sent.filterMap endFrameId = [] := by
    rw [List.filterMap_eq_nil_iff]
    intro pdu member
    have found := outside pdu member
    cases pdu with
    | endFrame frameId => exact absurd found (by simp [inFrame])
    | _ => rfl
  rw [endedFrames, same, List.filterMap_append, none_ended, List.append_nil, endedFrames]

/-! ## Every event -/

theorem counting_worker {mm : Mm R} (counting : Counting earlier client mm)
    {work : Encoder → Encoder} (counters : ∀ encoder, frameCounters (work encoder) = frameCounters encoder)
    (tracks : ∀ flight, Tracked (fun _ => True) mm flight →
      Tracked (fun _ => True) { mm with encoder := mm.encoder.map work } flight) :
    Counting earlier client { mm with encoder := mm.encoder.map work } := by
  obtain ⟨flight, count, tracked, numbered⟩ := counting
  refine ⟨flight, count, tracks flight tracked, numbered_kept numbered ⟨rfl, rfl, rfl⟩ ?_ rfl⟩
  simp only [Option.map_map]
  apply Option.map_congr
  intro encoder _
  exact counters encoder

variable [Pixman R]

/-- Every event that leaves the encoder in place leaves the count in order. -/
theorem counting_event {mm : Mm R} {event : Event} (counting : Counting earlier client mm)
    (keeps : ¬ReplacesEncoder mm event) :
    ∃ later, client ≤ later ∧ Counting earlier later (runEvent mm event) := by
  have settings := event_settings mm event
  have outside := @event_outside R _ mm event
  have effect := event_effect mm event
  generalize runEvent mm event = after at settings outside effect ⊢
  cases effect with
  | quiet _ _ _ undrawn unhandled pending encoder =>
      obtain ⟨flight, count, tracked, numbered⟩ := counting
      refine ⟨client, Int.le_refl client, flight, count, tracked_same tracked pending encoder, ?_⟩
      exact numbered_kept numbered settings (by rw [encoder])
        (outside_ended (outside undrawn unhandled))
  | acknowledged suspend frameId => exact frame_ack_counting counting suspend frameId
  | replaced _ _ framesInFlight replaces => exact absurd replaces keeps
  | drawn now => exact ⟨client, Int.le_refl client, draw_counting counting now⟩
  | handled => exact ⟨client, Int.le_refl client, enc_done_counting counting⟩
  | taken allocs =>
      refine ⟨client, Int.le_refl client, ?_⟩
      apply counting_worker counting
      · intro encoder
        unfold procEncMsg
        split <;> rfl
      · exact fun _ tracked => tracked_takes tracked trivial
  | stepped =>
      refine ⟨client, Int.le_refl client, ?_⟩
      apply counting_worker counting
      · intro encoder
        unfold PlanarWorker.workerStep
        split <;> rfl
      · exact fun _ tracked => tracked_worker tracked

/-! ## The lifetime of an encoder -/

/-- Runs that keep the encoder they start with. -/
def lifetime : System (Mm R) Event := session.restrict fun mm event => ¬ReplacesEncoder mm event

/-- Since `start` the frames with the first numbers were ended, up to the one the server
counts as the last; the client has acknowledged no more than those. -/
def FramesNumbered (start mm : Mm R) : Prop :=
  ∃ encoder, ∃ count : Nat, mm.encoder = some encoder ∧ encoder.frameIdServer = count ∧
    endedFrames mm = endedFrames start ++ firstFrameIds count ∧
    0 ≤ encoder.frameIdClient ∧ encoder.frameIdClient ≤ encoder.frameIdServer

/-- What the client has acknowledged is not taken back. -/
def AcknowledgesMore (before after : Mm R) : Prop :=
  ∀ encoder, before.encoder = some encoder →
    ∃ later, after.encoder = some later ∧ encoder.frameIdClient ≤ later.frameIdClient

omit [Pixman R] in
theorem counting_numbered {start mm : Mm R}
    (counting : Counting (endedFrames start) client mm) : FramesNumbered start mm := by
  obtain ⟨flight, count, -, numbered⟩ := counting
  obtain ⟨encoder, present, acknowledged, server⟩ := numbered_encoder numbered
  have bounds := numbered.acknowledged
  exact ⟨encoder, count, present, server, numbered.ended, by omega, by omega⟩

theorem counting_run {mm final : Mm R} {events : List Event} (ran : lifetime.Run mm events final)
    (counting : Counting earlier client mm) :
    ∃ later, client ≤ later ∧ Counting earlier later final := by
  induction ran with
  | stay => exact ⟨client, Int.le_refl client, counting⟩
  | next _ stepped ih =>
      obtain ⟨keeps, -, rfl⟩ := stepped
      obtain ⟨middle, further, countingMiddle⟩ := ih
      obtain ⟨later, furtherStill, countingLater⟩ := counting_event countingMiddle keeps
      exact ⟨later, Int.le_trans further furtherStill, countingLater⟩

omit [Pixman R] in
theorem created_counting {start : Mm R} (isVnc : start.isVnc = true)
    (backpressure : start.vncGfxBackpressure = true) {framesInFlight : Int}
    (created : start.encoder = xrdpEncoderCreate (some framesInFlight)) :
    Counting (endedFrames start) 0 start := by
  refine ⟨none, 0, .free fun encoder present => created_idle (created.symm.trans present), ?_⟩
  exact ⟨isVnc, backpressure, by rw [created]; rfl, by simp [firstFrameIds], by simp, by simp⟩

/-- From the creation of an encoder on its frames are numbered without a gap, and the
acknowledged number follows behind and never falls. -/
theorem frames_numbered_in_order {start middle final : Mm R} {events later : List Event}
    (isVnc : start.isVnc = true) (backpressure : start.vncGfxBackpressure = true)
    {framesInFlight : Int} (created : start.encoder = xrdpEncoderCreate (some framesInFlight))
    (ran : lifetime.Run start events middle) (further : lifetime.Run middle later final) :
    FramesNumbered start middle ∧ FramesNumbered start final ∧ AcknowledgesMore middle final := by
  obtain ⟨client, -, counting⟩ := counting_run ran (created_counting isVnc backpressure created)
  obtain ⟨clientLater, more, countingLater⟩ := counting_run further counting
  refine ⟨counting_numbered counting, counting_numbered countingLater, ?_⟩
  intro encoder present
  obtain ⟨_, _, -, numbered⟩ := counting
  obtain ⟨_, _, -, numberedLater⟩ := countingLater
  obtain ⟨same, presentSame, acknowledged, -⟩ := numbered_encoder numbered
  obtain ⟨final, presentLater, acknowledgedLater, -⟩ := numbered_encoder numberedLater
  obtain rfl := Option.some.inj (present.symm.trans presentSame)
  exact ⟨final, presentLater, by omega⟩

end Events

/-- A frame is sent and acknowledged, and another one is sent. -/
def acknowledgedOnce : List Event := [.draw 100, .frameAck false 1]

def drawnAgain : List Event := paintRow 1 ++ [.draw 200, .frameAck false (-1)]

theorem frames_numbered_drawn_again :
    let start := runEvents (throttledSession 1 false) [.capsAdvertise (some (1, 0)) (some 2)]
    let middle := runEvents start acknowledgedOnce
    FramesNumbered start middle ∧ FramesNumbered start (runEvents middle drawnAgain) ∧
      AcknowledgesMore middle (runEvents middle drawnAgain) := by
  apply frames_numbered_in_order
  · rfl
  · rfl
  · exact rfl
  · exact restricted_run_of_events ⟨trivial, trivial, trivial⟩ ⟨id, id, trivial⟩
  · apply restricted_run_of_events
    · exact ⟨rfl, trivial, trivial, trivial, trivial, trivial⟩
    · exact ⟨id, id, id, id, id, trivial⟩

end XrdpConsole.FrameNumbers
