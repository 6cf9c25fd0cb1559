import XrdpConsole.FrameNumbers

/-!
# Frames and free slots

`xrdp_mm_vnc_gfx_frame_slot_available` is asked once for a whole draw. The synchronous
path sends a frame for each monitor the dirty region touches. The asynchronous path
schedules one job at most, so one free slot is enough for it; but the start of the frame
is sent with the first completion, which does not ask again, and acknowledgements that
begin in between may leave it without the slot.
-/

namespace XrdpConsole.Backpressure

open XrdpConsole.Library
open XrdpConsole.Region
open XrdpConsole.VncState
open XrdpConsole.MmState
open XrdpConsole.PlanarSend
open XrdpConsole.PlanarWorker
open XrdpConsole.ResizeMachine
open XrdpConsole.DrawSteps
open XrdpConsole.DrawCalls
open XrdpConsole.MmSession
open XrdpConsole.MmFrames
open XrdpConsole.JobCompletions
open XrdpConsole.WorkerTrace
open XrdpConsole.PlanarPipeline
open XrdpConsole.AsyncPending
open XrdpConsole.FrameNumbers
open XrdpConsole.EventFrames

set_option autoImplicit false

variable {R : Type}

/-! ## Slots -/

/-- How many more frames may be in flight. -/
def freeSlots (encoder : Encoder) : Int :=
  encoder.framesInFlight - (encoder.frameIdServer - encoder.frameIdClient)

def SlotFree (mm : Mm R) : Prop :=
  ∃ encoder, mm.encoder = some encoder ∧
    encoder.frameIdServer - encoder.frameIdClient < encoder.framesInFlight

/-- Each frame that an event starts is started while a slot is free. A draw may start one
with each of its calls. -/
def StartsInSlots [Pixman R] (mm : Mm R) : Event → Prop
  | .draw now => ∀ region, mm.wm.screenDirtyRegion = some region → DrawDue mm region now →
      ∀ earlier call rest, drawCalls mm region = earlier ++ call :: rest →
        StartsFrame (earlier.foldl sendCall mm) (sendCall (earlier.foldl sendCall mm) call) →
        SlotFree (earlier.foldl sendCall mm)
  | event => StartsFrame mm (runEvent mm event) → SlotFree mm

/-! ## Runs with acknowledgements -/

def Acknowledges (mm : Mm R) : Event → Prop
  | .frameAck _ frameId => 0 < frameId ∧ mm.encoder.isSome = true
  | _ => False

/-- Whether the present encoder has received a positive acknowledgement. -/
def recordAck (mm : Mm R) (event : Event) (acknowledged : Prop) : Prop :=
  ¬ReplacesEncoder mm event ∧ (acknowledged ∨ Acknowledges mm event)

/-- Backpressure is on, and the client has not turned acknowledgements off. -/
structure Throttled (mm : Mm R) (acknowledged : Prop) (encoder : Encoder) : Prop where
  isVnc : mm.isVnc = true
  backpressure : mm.vncGfxBackpressure = true
  present : mm.encoder = some encoder
  acks : encoder.gfxAckOff = false
  acknowledged : acknowledged ∨ 0 < encoder.frameIdClient

section Runs

variable [Pixman R]

def watched : System (Mm R × Prop) Event := session.observed False recordAck

/-- With this acknowledgement a slot is free: it is for all frames, or for one that is
recent enough. -/
def LeavesSlot (encoder : Encoder) (frameId : Int) : Prop :=
  frameId < 0 ∨ encoder.frameIdServer < frameId ∨
    encoder.frameIdServer - max frameId encoder.frameIdClient < encoder.framesInFlight

/-- A throttled draw asks for no more frames than there are slots. The check of the slot is
enough for the one job of the asynchronous path, where it is made. An acknowledgement that
throttles while a job is on its way leaves a slot for the frame of the job. -/
def FindsSlots (state : Mm R × Prop) : Event → Prop
  | .draw now => ∀ encoder region, Throttled state.1 state.2 encoder →
      state.1.wm.screenDirtyRegion = some region → DrawDue state.1 region now →
      if Asynchronous state.1 then
        state.1.wm.clientInfo.gfx = true ∧ 0 < encoder.frameIdClient ∨
          state.1.vncGfxAsyncPending = true ∨ 0 < freeSlots encoder
      else
        ((drawCalls state.1 region).length : Int) ≤ max (freeSlots encoder) 0
  | .frameAck false frameId => ∀ encoder, state.1.isVnc = true →
      state.1.vncGfxBackpressure = true → state.1.encoder = some encoder →
      FrameToCome encoder → state.2 ∨ 0 < frameId ∨ 0 < encoder.frameIdClient →
      LeavesSlot encoder frameId
  | _ => True

end Runs

/-! ## One call -/

section Calls

variable {mm : Mm R} {call : PlanarCall} {encoder : Encoder}

/-- What a synchronous draw with numbered frames relies on. -/
structure Synchronous (mm : Mm R) (encoder : Encoder) : Prop where
  isVnc : mm.isVnc = true
  backpressure : mm.vncGfxBackpressure = true
  path : ¬Asynchronous mm
  present : mm.encoder = some encoder

theorem synchronous_after (synchronous : Synchronous mm encoder) {later : Encoder}
    (present : (sendCall mm call).encoder = some later) : Synchronous (sendCall mm call) later := by
  have settings : SameSettings mm (sendCall mm call) :=
    same_settings_output (output_only_step (send_planar_rects_step mm mm.wm.screen call.rects
      call.surfaceId call.x call.y))
  refine ⟨settings.isVnc.trans synchronous.isVnc,
    settings.backpressure.trans synchronous.backpressure, ?_, present⟩
  intro asynchronous
  apply synchronous.path
  exact ⟨settings.asyncPlanar ▸ asynchronous.1, synchronous.isVnc, by simp [synchronous.present]⟩

theorem frame_pdus_end (mm : Mm R) (screen : Bitmap) (rects : List Rect) (surfaceId x y : Int) :
    (planarFramePdus mm screen rects surfaceId x y).filterMap endFrameId = [planarFrameId mm] := by
  have tiles_open : (rects.flatMap fun rect => planarRectTiles screen rect surfaceId x y).filterMap
      endFrameId = [] := by
    rw [List.filterMap_eq_nil_iff]
    intro pdu member
    obtain ⟨rect, -, tile⟩ := List.mem_flatMap.mp member
    exact rect_tiles_open screen rect surfaceId x y pdu tile
  rw [planarFramePdus, List.filterMap_append, List.filterMap_cons_none rfl, tiles_open]
  rfl

/-- A synchronous frame takes at most one slot, and takes it where every send works. -/
theorem synchronous_call_slots (synchronous : Synchronous mm encoder) (some_rect : call.rects ≠ []) :
    ∃ later, Synchronous (sendCall mm call) later ∧ freeSlots encoder - 1 ≤ freeSlots later ∧
      (mm.egfx.sendResults = [] → freeSlots later = freeSlots encoder - 1 ∧
        (sendCall mm call).egfx.sendResults = [] ∧ StartsFrame mm (sendCall mm call)) := by
  have ends := planar_frame_ends synchronous.isVnc synchronous.backpressure mm.wm.screen call.rects
    call.surfaceId call.x call.y
  rw [← send_call_frame synchronous.path some_rect] at ends
  have sends := fun works => send_call_synchronous synchronous.path works some_rect
  cases ends with
  | without same none_ended =>
      have present := same.trans synchronous.present
      refine ⟨encoder, synchronous_after synchronous present, by omega, fun works => ?_⟩
      obtain ⟨committed, after⟩ := sends works
      rw [endedFrames, after, List.filterMap_append, frame_pdus_end, endedFrames] at none_ended
      simp at none_ended
  | ended committed _ =>
      have next : planarFrameId mm = encoder.frameIdServer + 1 := by
        simp [planarFrameId, synchronous.present, synchronous.isVnc, synchronous.backpressure]
      rw [synchronous.present, next] at committed
      have taken : freeSlots { encoder with frameIdServer := encoder.frameIdServer + 1 } =
          freeSlots encoder - 1 := by
        simp only [freeSlots]
        omega
      refine ⟨_, synchronous_after synchronous committed, Int.le_of_eq taken.symm, fun works => ?_⟩
      obtain ⟨frameId, after⟩ := sends works
      refine ⟨taken, by rw [after]; exact works, .inl ?_⟩
      rw [startedFrames, after, startedFrames, List.countP_append, planarFramePdus,
        List.cons_append, List.countP_cons_of_pos rfl]
      omega

theorem synchronous_calls_slots {calls : List PlanarCall} (synchronous : Synchronous mm encoder)
    (some_rects : ∀ call ∈ calls, call.rects ≠ []) :
    ∃ later, Synchronous (calls.foldl sendCall mm) later ∧
      freeSlots encoder - calls.length ≤ freeSlots later ∧
      (mm.egfx.sendResults = [] → freeSlots later = freeSlots encoder - calls.length ∧
        (calls.foldl sendCall mm).egfx.sendResults = []) := by
  induction calls generalizing mm encoder with
  | nil => exact ⟨encoder, synchronous, by simp, fun works => ⟨by simp, works⟩⟩
  | cons call calls ih =>
      obtain ⟨middle, again, less, exactly⟩ :=
        synchronous_call_slots synchronous (some_rects call (List.mem_cons_self ..))
      obtain ⟨later, last, lessLater, exactlyLater⟩ :=
        ih again fun other member => some_rects other (List.mem_cons_of_mem call member)
      rw [List.foldl_cons, List.length_cons]
      push_cast
      refine ⟨later, last, by omega, fun works => ?_⟩
      obtain ⟨one, worksMiddle, -⟩ := exactly works
      obtain ⟨others, worksLater⟩ := exactlyLater worksMiddle
      exact ⟨by omega, worksLater⟩

/-- An asynchronous call takes no slot yet, and does nothing while a job is pending. -/
theorem asynchronous_call_slots (asynchronous : Asynchronous mm) (present : mm.encoder = some encoder) :
    (∃ fifoToProc, (sendCall mm call).encoder = some { encoder with fifoToProc }) ∧
      Asynchronous (sendCall mm call) ∧
      (mm.vncGfxAsyncPending = true → (sendCall mm call).vncGfxAsyncPending = true ∧
        (sendCall mm call).encoder = mm.encoder ∧ ¬StartsFrame mm (sendCall mm call)) := by
  have step : SendStep mm mm.wm.screen call.rects call.surfaceId call.x call.y (sendCall mm call) :=
    send_planar_rects_step mm mm.wm.screen call.rects call.surfaceId call.x call.y
  generalize sendCall mm call = after at step ⊢
  cases step with
  | refused allocResults =>
      refine ⟨⟨encoder.fifoToProc, present⟩, asynchronous, fun pending => ⟨pending, rfl, ?_⟩⟩
      simp [StartsFrame, startedFrames, scheduledJobs]
  | queued allocResults other total _ same idle_flag _ _ _ =>
      obtain rfl : encoder = other := Option.some.inj (present.symm.trans same)
      refine ⟨⟨_, rfl⟩, ⟨asynchronous.1, asynchronous.2.1, rfl⟩, fun pending => ?_⟩
      rw [idle_flag] at pending
      exact absurd pending (by simp)
  | framed sent committed synchronous => exact absurd asynchronous synchronous

theorem asynchronous_calls_slots {calls : List PlanarCall} (asynchronous : Asynchronous mm)
    (present : mm.encoder = some encoder) :
    (∃ fifoToProc, (calls.foldl sendCall mm).encoder = some { encoder with fifoToProc }) ∧
      Asynchronous (calls.foldl sendCall mm) ∧
      (mm.vncGfxAsyncPending = true → (calls.foldl sendCall mm).vncGfxAsyncPending = true ∧
        (calls.foldl sendCall mm).encoder = mm.encoder) := by
  induction calls generalizing mm encoder with
  | nil => exact ⟨⟨encoder.fifoToProc, present⟩, asynchronous, fun pending => ⟨pending, rfl⟩⟩
  | cons call calls ih =>
      obtain ⟨⟨queue, presentMiddle⟩, again, stays⟩ :=
        @asynchronous_call_slots R mm call encoder asynchronous present
      obtain ⟨later, still, staysLater⟩ := ih again presentMiddle
      refine ⟨later, still, fun pending => ?_⟩
      obtain ⟨pendingMiddle, same, -⟩ := stays pending
      obtain ⟨pendingLater, sameLater⟩ := staysLater pendingMiddle
      exact ⟨pendingLater, sameLater.trans same⟩

end Calls

/-! ## Draws -/

section Runs

variable [Pixman R] {mm : Mm R} {acknowledged : Prop} {encoder : Encoder} {region : R} {now : Int}

theorem draw_due_slot (positive : LimitPositive mm) (throttled : Throttled mm acknowledged encoder)
    (gfx : mm.wm.clientInfo.gfx = true) (counted : 0 < encoder.frameIdClient)
    (due : DrawDue mm region now) (asyncPlanar : mm.vncGfxAsyncPlanar = true) :
    0 < freeSlots encoder ∧ mm.vncGfxAsyncPending = false := by
  have available := due.2.1
  have limit := positive encoder throttled.present
  unfold xrdpMmVncGfxFrameSlotAvailable at available
  simp only [throttled.isVnc, gfx, asyncPlanar, throttled.backpressure, throttled.present,
    throttled.acks] at available
  cases pending : mm.vncGfxAsyncPending with
  | true => simp [pending] at available
  | false =>
      simp only [pending] at available
      simp [show ¬encoder.framesInFlight ≤ 0 by omega, show ¬encoder.frameIdClient ≤ 0 by omega]
        at available
      refine ⟨?_, rfl⟩
      simp only [freeSlots]
      omega

theorem draw_finds_slots (positive : LimitPositive mm)
    (throttled : Throttled mm acknowledged encoder)
    (finds : FindsSlots (mm, acknowledged) (.draw now)) : StartsInSlots mm (.draw now) := by
  intro region dirty due earlier call rest calls starts
  have found := finds encoder region throttled dirty due
  have slots_free : ∀ later : Encoder, 0 < freeSlots later →
      later.frameIdServer - later.frameIdClient < later.framesInFlight := by
    intro later free
    simp only [freeSlots] at free
    omega
  split at found
  · rename_i asynchronous
    obtain ⟨⟨queue, presentLater⟩, again, stays⟩ :=
      @asynchronous_calls_slots R mm encoder earlier asynchronous throttled.present
    have idle : mm.vncGfxAsyncPending ≠ true := by
      intro pending
      obtain ⟨-, -, turned_away⟩ := @asynchronous_call_slots R (earlier.foldl sendCall mm) call _
        again presentLater
      exact (turned_away (stays pending).1).2.2 starts
    have free : 0 < freeSlots encoder := by
      rcases found with ⟨gfx, counted⟩ | pending | free
      · exact (draw_due_slot positive throttled gfx counted due asynchronous.1).1
      · exact absurd pending idle
      · exact free
    exact ⟨_, presentLater, slots_free { encoder with fifoToProc := queue } free⟩
  · rename_i synchronous
    have some_rects : ∀ other ∈ earlier, other.rects ≠ [] := by
      intro other member
      have drawn : other ∈ drawCalls mm region := calls ▸ List.mem_append_left _ member
      exact (draw_calls_solid due.1 drawn).1
    obtain ⟨later, after, less, -⟩ := synchronous_calls_slots
      ⟨throttled.isVnc, throttled.backpressure, synchronous, throttled.present⟩ some_rects
    refine ⟨later, after.present, slots_free later ?_⟩
    rw [calls, List.length_append, List.length_cons] at found
    push_cast at found
    omega

/-! ## Jobs on their way -/

/-- A job is scheduled by the asynchronous path only, with a slot where the session is
throttled, and keeps the slot until its frame is started. -/
structure JobsHeld (state : Mm R × Prop) : Prop where
  positive : LimitPositive state.1
  tracked : ∃ flight, Tracked (fun _ => True) state.1 flight
  path : ∀ encoder, state.1.encoder = some encoder → FrameToCome encoder →
    state.1.vncGfxAsyncPlanar = true
  slot : ∀ encoder, Throttled state.1 state.2 encoder → FrameToCome encoder →
    0 < freeSlots encoder

omit [Pixman R] in
/-- A session that is throttled after a step that leaves the settings was so before, unless
the step was the first acknowledgement. -/
theorem throttled_before {before after : Mm R} {event : Event} {acknowledged : Prop}
    {encoder : Encoder} (settings : SameSettings before after)
    (silent : ¬Acknowledges before event)
    (throttled : Throttled after (recordAck before event acknowledged) encoder)
    {earlier : Encoder} (present : before.encoder = some earlier)
    (acks : encoder.gfxAckOff = earlier.gfxAckOff)
    (client : encoder.frameIdClient = earlier.frameIdClient) :
    Throttled before acknowledged earlier where
  isVnc := settings.isVnc ▸ throttled.isVnc
  backpressure := settings.backpressure ▸ throttled.backpressure
  present := present
  acks := acks ▸ throttled.acks
  acknowledged := by
    rcases throttled.acknowledged with ⟨-, given⟩ | counted
    · exact .inl (given.resolve_right silent)
    · exact .inr (client ▸ counted)

theorem frame_ack_slot {acknowledged : Prop} (positive : LimitPositive mm) {suspend : Bool}
    {frameId : Int} (finds : FindsSlots (mm, acknowledged) (.frameAck suspend frameId))
    {after : Encoder}
    (throttled : Throttled (xrdpMmEgfxFrameAck mm suspend frameId)
      (recordAck mm (.frameAck suspend frameId) acknowledged) after)
    (coming : FrameToCome after) : 0 < freeSlots after := by
  have settings := same_settings_output (output_only_frame_ack mm suspend frameId)
  cases present : mm.encoder with
  | none =>
      have same := throttled.present
      simp [xrdpMmEgfxFrameAck, present] at same
  | some encoder =>
      have limit := positive encoder present
      obtain ⟨other, presentAfter, queues, acks, limitSame, server, client⟩ :=
        frame_ack_encoder present suspend frameId
      obtain rfl := Option.some.inj (presentAfter.symm.trans throttled.present)
      obtain rfl : suspend = false := acks.symm.trans throttled.acks
      simp only [acknowledgeFrame, Bool.false_eq_true, false_and, if_false] at client
      simp only [freeSlots, limitSame, server]
      split at client
      · omega
      · rename_i inside
        have known : acknowledged ∨ 0 < frameId ∨ 0 < encoder.frameIdClient := by
          rcases throttled.acknowledged with ⟨-, earlier | ⟨named, -⟩⟩ | counted
          · exact .inl earlier
          · exact .inr (.inl named)
          · exact .inr (by omega)
        have leaves := finds encoder (settings.isVnc ▸ throttled.isVnc)
          (settings.backpressure ▸ throttled.backpressure) present
          (frame_to_come_same queues coming) known
        rcases leaves with negative | beyond | free
        · omega
        · omega
        · omega

/-! ### Draws of jobs -/

theorem draw_slot {state : Mm R × Prop} (held : JobsHeld state)
    (finds : FindsSlots state (.draw now)) {after : Encoder}
    (throttled : Throttled (checkScreenDirty state.1 now).2
      (recordAck state.1 (.draw now) state.2) after) (coming : FrameToCome after) :
    0 < freeSlots after := by
  have settings := draw_settings state.1 now
  have path := draw_path held.path now after throttled.present coming
  obtain ⟨encoder, before⟩ := draw_present throttled.present
  rcases draw_encoder state.1 now with same | ⟨region, dirty, due, drawn⟩
  · have present := same.symm.trans throttled.present
    exact held.slot after (throttled_before settings id throttled present rfl rfl) coming
  · have asynchronous : Asynchronous state.1 :=
      ⟨settings.asyncPlanar ▸ path, settings.isVnc ▸ throttled.isVnc, by simp [before]⟩
    obtain ⟨⟨queue, same⟩, -, stays⟩ := @asynchronous_calls_slots R state.1 encoder
      (drawCalls state.1 region) asynchronous before
    obtain rfl := Option.some.inj ((drawn.trans same).symm.trans throttled.present)
    have earlier : Throttled state.1 state.2 encoder :=
      throttled_before settings id throttled before rfl rfl
    have found := finds encoder region earlier dirty due
    rw [if_pos asynchronous] at found
    rcases found with ⟨gfx, counted⟩ | pending | free
    · exact (draw_due_slot held.positive earlier gfx counted due asynchronous.1).1
    · have kept := (stays pending).2
      rw [before, same] at kept
      rw [Option.some.inj kept] at coming
      exact held.slot encoder earlier coming
    · exact free

/-! ### Completions of jobs -/

omit [Pixman R] in
theorem enc_done_slot {state : Mm R × Prop} (held : JobsHeld state) {after : Encoder}
    (throttled : Throttled (xrdpMmProcessEncDone state.1)
      (recordAck state.1 .encDone state.2) after) (coming : FrameToCome after) :
    0 < freeSlots after := by
  have settings := same_settings_output (output_only_enc_done state.1)
  obtain ⟨flight, tracked⟩ := held.tracked
  cases before : state.1.encoder with
  | none =>
      have present := throttled.present
      simp [xrdpMmProcessEncDone, before] at present
  | some encoder =>
      cases processed : encoder.fifoProcessed with
      | nil =>
          have waits : xrdpMmProcessEncDone state.1 = state.1 := by
            simp only [xrdpMmProcessEncDone, before, processed]
          rw [waits] at throttled settings
          exact held.slot after (throttled_before settings id throttled throttled.present rfl rfl)
            coming
      | cons encDone rest =>
          generalize popped_def :
            { state.1 with encoder := some { encoder with fifoProcessed := rest } } = popped
          have handled : xrdpMmProcessEncDone state.1 = xrdpMmProcessVncPlanarDone popped encDone := by
            subst popped_def
            simp only [xrdpMmProcessEncDone, before, processed]
          obtain ⟨sent, frameId, -, effect⟩ := process_done_effect popped encDone
          obtain ⟨job, earlier, later, allocs, -, -, -, -, -, trackedAfter⟩ :=
            tracked_done tracked sent frameId before processed
          have backpressure : popped.vncGfxBackpressure = true := by
            subst popped_def
            exact settings.backpressure ▸ throttled.backpressure
          have stays := (planar_done_ends backpressure encDone).2
          cases last : encDone.last with
          | true =>
              -- the last completion leaves nothing on the way
              rw [if_pos last] at trackedAfter
              have same := congrArg (·.encoder) effect
              simp only [← handled, throttled.present] at same
              subst popped_def
              cases trackedAfter with
              | free idle => exact absurd coming (idle_none_coming (idle after same.symm))
          | false =>
              have same := (stays last).1
              rw [← handled, throttled.present] at same
              subst popped_def
              obtain rfl := Option.some.inj same
              have kept : Throttled state.1 state.2 encoder :=
                throttled_before settings id throttled before rfl rfl
              exact held.slot encoder kept (pop_frame_to_come processed coming)

/-! ### The encoder thread -/

/-- What the encoder thread leaves alone. -/
structure SameCounters (before after : Encoder) : Prop where
  acks : after.gfxAckOff = before.gfxAckOff
  client : after.frameIdClient = before.frameIdClient
  slots : freeSlots after = freeSlots before

theorem taken_counters (encoder : Encoder) (allocs : List Bool) :
    SameCounters encoder (procEncMsg encoder allocs) := by
  unfold procEncMsg
  split <;> exact ⟨rfl, rfl, rfl⟩

theorem stepped_counters (encoder : Encoder) :
    SameCounters encoder (PlanarWorker.workerStep encoder) := by
  unfold PlanarWorker.workerStep
  split <;> exact ⟨rfl, rfl, rfl⟩

omit [Pixman R] in
theorem changed_held {state : Mm R × Prop} (held : JobsHeld state) {event : Event} {after : Mm R}
    (settings : SameSettings state.1 after) (silent : ¬Acknowledges state.1 event)
    {change : Encoder → Encoder} (counters : ∀ encoder, SameCounters encoder (change encoder))
    (before : ∀ encoder, FrameToCome (change encoder) → FrameToCome encoder)
    (changed : after.encoder = state.1.encoder.map change) :
    (∀ encoder, after.encoder = some encoder → FrameToCome encoder →
      state.1.vncGfxAsyncPlanar = true) ∧
      ∀ encoder, Throttled after (recordAck state.1 event state.2) encoder →
        FrameToCome encoder → 0 < freeSlots encoder := by
  constructor
  · intro encoder present coming
    obtain ⟨earlier, found, rfl⟩ := Option.map_eq_some_iff.mp (changed.symm.trans present)
    exact held.path earlier found (before earlier coming)
  · intro encoder throttled coming
    obtain ⟨earlier, found, rfl⟩ := Option.map_eq_some_iff.mp (changed.symm.trans throttled.present)
    have same := counters earlier
    rw [same.slots]
    exact held.slot earlier (throttled_before settings silent throttled found same.acks same.client)
      (before earlier coming)

/-! ### Every event -/

theorem held_event {state : Mm R × Prop} {event : Event} (held : JobsHeld state)
    (finds : FindsSlots state event) :
    JobsHeld (runEvent state.1 event, recordAck state.1 event state.2) := by
  obtain ⟨flight, tracked⟩ := held.tracked
  obtain ⟨later, trackedAfter, -⟩ := event_tracked tracked fun _ _ => trivial
  have settings := event_settings state.1 event
  suffices kept : (∀ encoder, (runEvent state.1 event).encoder = some encoder →
      FrameToCome encoder → state.1.vncGfxAsyncPlanar = true) ∧
      ∀ encoder, Throttled (runEvent state.1 event) (recordAck state.1 event state.2) encoder →
        FrameToCome encoder → 0 < freeSlots encoder by
    refine ⟨limit_positive_event held.positive event, ⟨later, trackedAfter⟩, ?_, kept.2⟩
    rw [settings.asyncPlanar]
    exact kept.1
  have effect := event_effect state.1 event
  generalize runEvent state.1 event = after at effect settings ⊢
  cases effect with
  | quiet _ _ other _ _ _ same =>
      have silent : ¬Acknowledges state.1 event := by
        cases event with
        | frameAck suspend frameId => exact absurd rfl (other suspend frameId)
        | _ => exact id
      exact changed_held held settings silent (fun _ => ⟨rfl, rfl, rfl⟩) (fun _ => id)
        (same.trans Option.map_id'.symm)
  | acknowledged suspend frameId =>
      refine ⟨fun encoder present coming => ?_, fun encoder => frame_ack_slot held.positive finds⟩
      cases before : state.1.encoder with
      | none => simp [xrdpMmEgfxFrameAck, before] at present
      | some earlier =>
          obtain ⟨other, presentAfter, queues, -⟩ := frame_ack_encoder before suspend frameId
          obtain rfl := Option.some.inj (presentAfter.symm.trans present)
          exact held.path earlier before (frame_to_come_same queues coming)
  | replaced _ _ framesInFlight _ _ created =>
      refine ⟨fun encoder present coming => ?_, fun encoder throttled coming => ?_⟩
      · exact absurd coming (created_none_coming (created.symm.trans present))
      · exact absurd coming (created_none_coming (created.symm.trans throttled.present))
  | drawn now =>
      refine ⟨fun encoder present coming => ?_, fun encoder => draw_slot held finds⟩
      exact settings.asyncPlanar ▸ draw_path held.path now encoder present coming
  | handled =>
      refine ⟨fun encoder present coming => ?_, fun encoder => enc_done_slot held⟩
      have step := enc_done_step state.1
      generalize xrdpMmProcessEncDone state.1 = after at step present
      cases step with
      | idle _ => exact held.path encoder present coming
      | handled earlier encDone rest sent frameId before processed _ =>
          have queues := with_frame_id_kept (some { earlier with fifoProcessed := rest }) frameId
          rw [show withFrameId _ frameId = some encoder from present] at queues
          cases queues with
          | present same =>
              exact held.path earlier before
                (pop_frame_to_come processed (frame_to_come_same same coming))
  | taken allocs =>
      exact changed_held held settings id (fun encoder => taken_counters encoder allocs)
        (fun _ => take_frame_to_come) rfl
  | stepped =>
      exact changed_held held settings id stepped_counters (fun _ => step_frame_to_come) rfl

omit [Pixman R] in
theorem created_held {start : Mm R} {framesInFlight : Option Int}
    (created : start.encoder = xrdpEncoderCreate framesInFlight) : JobsHeld (start, False) := by
  have idle : ∀ encoder, start.encoder = some encoder → Idle encoder :=
    fun encoder present => created_idle (created.symm.trans present)
  refine ⟨fun encoder present => created_limit (created.symm.trans present), ⟨none, .free idle⟩,
    fun encoder present coming => ?_, fun encoder throttled coming => ?_⟩
  · exact absurd coming (idle_none_coming (idle encoder present))
  · exact absurd coming (idle_none_coming (idle encoder throttled.present))

/-- In every run in which throttled draws ask for no more frames than there are slots, and
acknowledgements leave a slot for the job on its way, no frame is started without a slot. -/
theorem frames_respect_slots {start : Mm R} {framesInFlight : Option Int} {events : List Event}
    {event : Event} (created : start.encoder = xrdpEncoderCreate framesInFlight)
    (ran : (watched.restrict FindsSlots).Run (start, False) events (mm, acknowledged))
    (throttled : Throttled mm acknowledged encoder)
    (finds : FindsSlots (mm, acknowledged) event) : StartsInSlots mm event := by
  have held : JobsHeld (mm, acknowledged) := by
    apply System.run_preserves JobsHeld _ ran (created_held created)
    intro before event after held stepped
    obtain ⟨after, history⟩ := after
    obtain ⟨finds, ⟨-, same⟩, recorded⟩ := stepped
    simp only at same recorded
    subst same recorded
    exact held_event held finds
  have nothing : (∀ now, event ≠ .draw now) → event ≠ .encDone →
      ¬StartsFrame mm (runEvent mm event) := by
    intro undrawn unhandled starts
    have schedules := event_schedules mm undrawn
    have started := outside_started (event_outside mm undrawn unhandled)
    rcases starts with more | more <;> omega
  cases event with
  | draw now => exact draw_finds_slots held.positive throttled finds
  | encDone =>
      intro starts
      obtain ⟨other, present, coming⟩ := completion_starts starts
      obtain rfl := Option.some.inj (throttled.present.symm.trans present)
      have free := held.slot encoder throttled coming
      refine ⟨encoder, present, ?_⟩
      simp only [freeSlots] at free
      omega
  | _ => exact fun starts => absurd starts (nothing (by simp) (by simp))

theorem finds_slots_computed
    (enough : mm.encoder.all (fun encoder => mm.wm.screenDirtyRegion.all fun region =>
      decide (¬Asynchronous mm ∧ ((drawCalls mm region).length : Int) ≤ max (freeSlots encoder) 0)) =
        true) : FindsSlots (mm, acknowledged) (.draw now) := by
  intro encoder region throttled dirty due
  have slots := (Option.all_eq_true _ _).mp ((Option.all_eq_true _ _).mp enough encoder
    throttled.present) region dirty
  obtain ⟨synchronous, fits⟩ := of_decide_eq_true slots
  rw [if_neg synchronous]
  exact fits

/-- The condition is also needed: where every send works, a synchronous draw with more
calls than slots starts a frame without one. -/
theorem draw_out_of_slots (works : mm.egfx.sendResults = [])
    (throttled : Throttled mm acknowledged encoder) (dirty : mm.wm.screenDirtyRegion = some region)
    (due : DrawDue mm region now) (synchronous : ¬Asynchronous mm)
    (more : max (freeSlots encoder) 0 < ((drawCalls mm region).length : Int)) :
    ¬StartsInSlots mm (.draw now) := by
  intro inSlots
  generalize all_slots : (max (freeSlots encoder) 0).toNat = slots
  have count : slots < (drawCalls mm region).length := by omega
  have split : drawCalls mm region = (drawCalls mm region).take slots ++
      (drawCalls mm region)[slots] :: (drawCalls mm region).drop (slots + 1) := by
    rw [← List.drop_eq_getElem_cons count, List.take_append_drop]
  have some_rects : ∀ call ∈ drawCalls mm region, call.rects ≠ [] :=
    fun call member => (draw_calls_solid due.1 member).1
  obtain ⟨later, after, -, exactly⟩ := synchronous_calls_slots
    ⟨throttled.isVnc, throttled.backpressure, synchronous, throttled.present⟩
    fun call member => some_rects call (List.mem_of_mem_take member)
  obtain ⟨taken, worksLater⟩ := exactly works
  obtain ⟨_, -, -, starting⟩ :=
    synchronous_call_slots after (some_rects _ (List.getElem_mem count))
  obtain ⟨final, present, free⟩ :=
    inSlots region dirty due _ _ _ split (starting worksLater).2.2
  obtain rfl := Option.some.inj (after.present.symm.trans present)
  rw [List.length_take] at taken
  simp only [freeSlots] at taken all_slots
  omega

/-! ## Jobs without a slot -/

/-- While a frame is to come and no completion waits, the encoder thread has a step to take,
which leaves the counters and brings the completion nearer. -/
theorem thread_goes_on {flight : Flight} (tracked : Tracked (fun _ => True) mm flight)
    (present : mm.encoder = some encoder) (coming : FrameToCome encoder)
    (none_waits : encoder.fifoProcessed = []) :
    ∃ event later, ThreadEvent event ∧ runEvent mm event = { mm with encoder := some later } ∧
      SameCounters encoder later ∧ FrameToCome later ∧
      Tracked (fun _ => True) (runEvent mm event) flight ∧
      remainingWork (runEvent mm event) < remainingWork mm := by
  cases working : encoder.worker with
  | cons action rest =>
      have stepped : runEvent mm .workerStep =
          { mm with encoder := some (PlanarWorker.workerStep encoder) } := by
        simp [runEvent, present]
      refine ⟨.workerStep, _, trivial, stepped, stepped_counters encoder, ?_, tracked_worker tracked,
        ?_⟩
      · rwa [FrameToCome, queue_step, upcoming_step]
      · rw [stepped]
        simp only [remainingWork, present, Option.map_some, Option.getD_some]
        exact work_step (by simp [working])
  | nil =>
      have none_coming : upcoming encoder = [] := by
        simp [upcoming, none_waits, working, completions]
      obtain ⟨job, scheduled, queue⟩ : ∃ job, Scheduled job ∧ encoder.fifoToProc = [job] := by
        cases tracked with
        | free idle => exact absurd coming (idle_none_coming (idle encoder present))
        | busy other job handled busy_flag same scheduled stage others =>
            obtain rfl := Option.some.inj (present.symm.trans same)
            cases stage with
            | queued _ queue _ => exact ⟨job, scheduled, queue⟩
            | taken _ _ empty _ => simp [FrameToCome, none_coming, empty] at coming
      have takes : procEncMsg encoder [] =
          { encoder with fifoToProc := [], worker := processEncVncPlanar job [] } := by
        simp only [procEncMsg, working, queue]
      have taking : runEvent mm (.workerTakes []) =
          { mm with encoder := some (procEncMsg encoder []) } := by
        simp [runEvent, present]
      refine ⟨.workerTakes [], _, rfl, taking, taken_counters encoder [], ?_,
        tracked_takes tracked trivial, ?_⟩
      · rw [takes]
        right
        simpa [upcoming, none_waits] using taken_opens scheduled
      · rw [taking, takes]
        simp [remainingWork, present, work, none_waits, working, queue]

/-- Where the frame of a job on its way has no slot, the encoder thread comes to the
completion that starts it. -/
theorem completion_out_of_slots (works : mm.egfx.sendResults = []) {flight : Flight}
    (tracked : Tracked (fun _ => True) mm flight) (throttled : Throttled mm acknowledged encoder)
    (coming : FrameToCome encoder) (taken : freeSlots encoder ≤ 0) :
    ∃ events later, (∀ event ∈ events, ThreadEvent event) ∧
      Throttled (runEvents mm events) acknowledged later ∧
      ¬StartsInSlots (runEvents mm events) .encDone := by
  generalize bound : remainingWork mm = fuel
  induction fuel using Nat.strongRecOn generalizing mm encoder with
  | ind fuel ih =>
      have present := throttled.present
      cases processed : encoder.fifoProcessed with
      | cons encDone rest =>
          refine ⟨[], encoder, by simp, throttled, fun inSlots => ?_⟩
          have opens : OpensFrame encDone := by
            cases tracked with
            | free idle => exact absurd coming (idle_none_coming (idle encoder present))
            | busy other job handled busy_flag same scheduled stage others =>
                obtain rfl := Option.some.inj (present.symm.trans same)
                exact next_opens scheduled stage processed coming
          obtain ⟨held, presentHeld, free⟩ :=
            inSlots (opening_starts works present processed opens)
          obtain rfl := Option.some.inj (present.symm.trans presentHeld)
          simp only [freeSlots] at taken
          omega
      | nil =>
          obtain ⟨event, later, byThread, same, counters, stillComing, stillTracked, less⟩ :=
            thread_goes_on tracked present coming processed
          have stillThrottled : Throttled (runEvent mm event) acknowledged later := by
            rw [same]
            exact ⟨throttled.isVnc, throttled.backpressure, rfl, counters.acks.trans throttled.acks,
              counters.client ▸ throttled.acknowledged⟩
          obtain ⟨events, final, allByThread, throttledLater, starts⟩ :=
            ih (remainingWork (runEvent mm event)) (bound ▸ less) (by rw [same]; exact works)
              stillTracked stillThrottled stillComing (by rw [counters.slots]; exact taken) rfl
          refine ⟨event :: events, final, ?_, throttledLater, starts⟩
          intro other member
          rcases List.mem_cons.mp member with rfl | further
          · exact byThread
          · exact allByThread other further

/-- The condition on acknowledgements is also needed: after one that leaves no slot for the
job on its way, the encoder thread comes to the completion that starts the frame. -/
theorem acknowledged_out_of_slots (works : mm.egfx.sendResults = [])
    (held : JobsHeld (mm, acknowledged)) {frameId : Int}
    (short : ¬FindsSlots (mm, acknowledged) (.frameAck false frameId)) :
    ∃ events later, (∀ event ∈ events, ThreadEvent event) ∧
      Throttled (runEvents (runEvent mm (.frameAck false frameId)) events)
        (recordAck mm (.frameAck false frameId) acknowledged) later ∧
      ¬StartsInSlots (runEvents (runEvent mm (.frameAck false frameId)) events) .encDone := by
  simp only [FindsSlots, not_forall] at short
  obtain ⟨encoder, isVnc, backpressure, present, coming, known, slotless⟩ := short
  simp only [LeavesSlot, not_or] at slotless
  obtain ⟨named, behind, full⟩ := slotless
  obtain ⟨flight, tracked⟩ := held.tracked
  obtain ⟨after, presentAfter, queues, acks, limit, server, client⟩ :=
    frame_ack_encoder present false frameId
  have settings := event_settings mm (.frameAck false frameId)
  simp only [acknowledgeFrame, Bool.false_eq_true, false_and, if_false] at client
  rw [if_neg (by omega)] at client
  apply completion_out_of_slots
  · rw [runEvent, xrdpMmEgfxFrameAck, present]
    exact works
  · exact tracked_kept tracked (frame_ack_pending mm false frameId) (frame_ack_kept mm false frameId)
  · refine ⟨settings.isVnc.trans isVnc, settings.backpressure.trans backpressure, presentAfter,
      acks, ?_⟩
    rcases known with earlier | positive | counted
    · exact .inl ⟨id, .inl earlier⟩
    · exact .inl ⟨id, .inr ⟨positive, by simp [present]⟩⟩
    · exact .inr (by omega)
  · rwa [FrameToCome, queues.queue, same_queues_upcoming queues]
  · simp only [freeSlots]
    omega

end Runs

/-! ## Two monitors and one slot -/

/-- Two monitors are drawn, and the client acknowledges the first of the two frames. -/
def firstAcknowledged : List Event :=
  [.capsAdvertise (some (1, 0)) (some 2), .draw 100, .frameAck false 1] ++ paintRow 2

def bothAcknowledged : List Event :=
  [.capsAdvertise (some (1, 0)) (some 2), .draw 100, .frameAck false 2] ++ paintRow 2

def twoFramesSent (frameIdClient : Int) : Encoder :=
  { idleEncoder with frameIdClient, frameIdServer := 2, frameIdServerSent := 2 }

/-- The second frame of the next draw has no slot. -/
theorem second_monitor_without_slot :
    ∃ (start mm : Mm BoxList) (acknowledged : Prop) (encoder : Encoder) (events : List Event),
      Started start ∧ start.encoder = xrdpEncoderCreate (some 2) ∧
        watched.Run (start, False) events (mm, acknowledged) ∧
        Throttled mm acknowledged encoder ∧ ¬StartsInSlots mm (.draw 200) := by
  have ran : (session.restrict fun _ _ => ∀ _ : Prop, True).Run (throttledSession 2 false)
      firstAcknowledged (runEvents (throttledSession 2 false) firstAcknowledged) :=
    restricted_run_of_events ⟨trivial, trivial, trivial, rfl, trivial, trivial, trivial⟩
      ⟨fun _ => trivial, fun _ => trivial, fun _ => trivial, fun _ => trivial, fun _ => trivial,
        fun _ => trivial, trivial⟩
  obtain ⟨acknowledged, watchedRun⟩ :=
    @System.observed_run _ _ _ _ False recordAck (fun _ _ => True) _ _ _ ran False
  have throttled : Throttled (runEvents (throttledSession 2 false) firstAcknowledged) acknowledged
      (twoFramesSent 1) := ⟨rfl, rfl, by decide +kernel, rfl, .inr (by decide)⟩
  refine ⟨_, _, acknowledged, twoFramesSent 1, _, throttled_session 2 false, rfl,
    System.run_of_restrict watchedRun, throttled, ?_⟩
  have dirty : (runEvents (throttledSession 2 false) firstAcknowledged).wm.screenDirtyRegion.any
      (fun region => decide (
        DrawDue (runEvents (throttledSession 2 false) firstAcknowledged) region 200 ∧
        ¬Asynchronous (runEvents (throttledSession 2 false) firstAcknowledged) ∧
        (drawCalls (runEvents (throttledSession 2 false) firstAcknowledged) region).length = 2)) =
      true := by decide +kernel
  obtain ⟨region, found, drawn⟩ := (Option.any_eq_true _ _).mp dirty
  obtain ⟨due, synchronous, count⟩ := of_decide_eq_true drawn
  apply draw_out_of_slots _ throttled found due synchronous
  · rw [count]
    decide
  · decide +kernel

/-- Where the client has acknowledged both frames, each of the next two finds a slot. -/
theorem frames_respect_slots_acknowledged :
    StartsInSlots (runEvents (throttledSession 2 false) bothAcknowledged) (.draw 200) := by
  have both : (runEvents (throttledSession 2 false)
      [.capsAdvertise (some (1, 0)) (some 2), .draw 100]).encoder.all (fun encoder => decide
        (encoder.frameIdServer - max 2 encoder.frameIdClient < encoder.framesInFlight)) = true := by
    decide +kernel
  have ran : (session.restrict fun mm event => ∀ acknowledged, FindsSlots (mm, acknowledged) event).Run
      (throttledSession 2 false) bothAcknowledged
      (runEvents (throttledSession 2 false) bothAcknowledged) := by
    apply restricted_run_of_events
    · exact ⟨trivial, trivial, trivial, rfl, trivial, trivial, trivial⟩
    · refine ⟨fun _ => trivial, fun _ => finds_slots_computed (by decide +kernel), ?_,
        fun _ => trivial, fun _ => trivial, fun _ => trivial, trivial⟩
      intro _ encoder _ _ present _ _
      exact .inr (.inr (of_decide_eq_true ((Option.all_eq_true _ _).mp both encoder present)))
  obtain ⟨acknowledged, watchedRun⟩ :=
    @System.observed_run _ _ _ _ False recordAck FindsSlots _ _ _ ran False
  have throttled : Throttled (runEvents (throttledSession 2 false) bothAcknowledged) acknowledged
      (twoFramesSent 2) := ⟨rfl, rfl, by decide +kernel, rfl, .inr (by decide)⟩
  have created : (throttledSession 2 false).encoder = xrdpEncoderCreate (some 2) := rfl
  exact frames_respect_slots created watchedRun throttled
    (finds_slots_computed (by decide +kernel))

end XrdpConsole.Backpressure
