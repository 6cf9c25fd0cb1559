import XrdpConsole.AsyncPending
import XrdpConsole.GfxProtocol

/-!
# The graphics stream of a session

Whatever comes in between, the messages of draws, completions, resizes and
capabilities form one well formed stream, as long as nothing is drawn while the
surfaces are gone and capabilities are confirmed only where none exist.
-/

namespace XrdpConsole.GfxStream

open XrdpConsole.Library
open XrdpConsole.Region
open XrdpConsole.MmState
open XrdpConsole.PlanarSend
open XrdpConsole.PlanarWorker
open XrdpConsole.ResizeMachine
open XrdpConsole.DrawSteps
open XrdpConsole.DrawCalls
open XrdpConsole.MmSession
open XrdpConsole.MmFrames
open XrdpConsole.WorkerTrace
open XrdpConsole.JobCompletions
open XrdpConsole.PlanarPipeline
open XrdpConsole.AsyncPending
open XrdpConsole.GfxProtocol

set_option autoImplicit false

variable {R : Type} [Pixman R]

/-! ## The condition -/

/-- From the deletion of the surfaces, or the place where it would be, until they are
created again. -/
def recreates : DisplayResizeState → Bool
  | .serverMonitorResize => true
  | .serverMonitorMessageProcessing => true
  | .serverMonitorMessageProcessed => true
  | .xrdpCoreReset => true
  | .xrdpCoreResetProcessing => true
  | .xrdpCoreResetProcessed => true
  | .encoderCreate => true
  | _ => false

def Recreating (self : Mm R) : Prop :=
  ∃ resize, self.resizeData = some resize ∧ recreates resize.state = true

/-- The draw makes calls, and not only such as the scheduler turns away. -/
def Draws (self : Mm R) (now : Int) : Prop :=
  ∃ region, self.wm.screenDirtyRegion = some region ∧ DrawDue self region now ∧
    drawCalls self region ≠ [] ∧ ¬(Asynchronous self ∧ self.vncGfxAsyncPending = true)

/-- The round of the resize machine that deletes the surfaces. -/
def DeletesSurfaces (self : Mm R) (answers : ResizeAnswers) : Prop :=
  self.resizeReady = true ∧ answers.canResize = true ∧ self.modHandle = true ∧
    self.resizeData.map (·.state) = some .egfxResetGraphics

instance (self : Mm R) (answers : ResizeAnswers) : Decidable (DeletesSurfaces self answers) :=
  inferInstanceAs (Decidable (_ ∧ _ ∧ _ ∧ _))

/-- Capabilities are confirmed while no surface exists and no resize is about to create
some; surfaces are deleted while they exist and no job is on its way; a draw comes while
they exist and, where it sends its frame itself, while no other one is open. -/
def InOrder (self : Mm R) : Event → Prop
  | .capsAdvertise (some _) _ => SurfacesGone self ∧ ¬Recreating self
  | .resizeReady answers => DeletesSurfaces self answers → ¬SurfacesGone self ∧
      ∀ encoder, self.encoder = some encoder → Idle encoder
  | .draw now => Draws self now → ¬SurfacesGone self ∧
      (¬Asynchronous self → (receiverOf self).openFrame = none)
  | _ => True

/-! ## Messages of each kind -/

omit [Pixman R] in
theorem receiver_of_sent {before after : Mm R} {pdus : List GfxPdu}
    (sent : after.egfx.sent = before.egfx.sent ++ pdus) :
    receiverOf after = receiveAll (receiverOf before) pdus := by
  rw [receiverOf, sent, receive_all_append]
  rfl

omit [Pixman R] in
theorem delete_surfaces_pdus (self : Mm R) :
    deleteSurfacesPdus self = (currentSurfaces self).map .deleteSurface := by
  unfold deleteSurfacesPdus currentSurfaces
  split
  · rfl
  · rw [List.map_map]
    rfl

theorem create_surface_changes (surfaceId left top width height : Int) (receiver : Receiver)
    (fresh : receiver.exists_surface surfaceId = false) :
    Changes receiver (createSurfacePdus surfaceId left top width height) receiver.openFrame
      fun other => receiver.exists_surface other = true ∨ other = surfaceId := by
  refine ⟨⟨fresh, trivial, trivial⟩, rfl, ?_⟩
  intro other
  simp only [receiveAll, createSurfacePdus, List.foldl_cons, List.foldl_nil, receive,
    Function.update_apply]
  by_cases same : other = surfaceId <;> simp [same]

theorem zip_idx_surfaces {Item : Type} (items : List Item) :
    (items.zipIdx.map fun item : Item × Nat => (item.2 : Int)) =
      (List.range items.length).map fun index : Nat => (index : Int) := by
  have indices : items.zipIdx.map Prod.snd = List.range items.length := by
    rw [List.zipIdx_map_snd, List.range_eq_range']
  rw [← indices, List.map_map]
  rfl

omit [Pixman R] in
/-- Where no surface exists, those of the current sizes can be created. -/
theorem create_surfaces_changes (self : Mm R) {receiver : Receiver}
    (gone : ∀ surfaceId, receiver.exists_surface surfaceId = false) :
    Changes receiver (createSurfacesPdus self) receiver.openFrame (· ∈ currentSurfaces self) := by
  have distinct := current_surfaces_distinct self
  unfold createSurfacesPdus
  unfold currentSurfaces at distinct ⊢
  split
  · apply changes_same (create_surface_changes self.egfx.surfaceId 0 0 self.wm.screen.width
      self.wm.screen.height receiver (gone _))
    simp [gone]
  · rename_i some_monitor
    rw [if_neg some_monitor, DisplaySizeDescription.monitorCount,
      ← zip_idx_surfaces self.wm.clientInfo.displaySizes.minfoWm] at distinct
    rw [DisplaySizeDescription.monitorCount,
      ← zip_idx_surfaces self.wm.clientInfo.displaySizes.minfoWm]
    apply changes_same (creates_changes distinct _ receiver fun _ _ => gone _)
    · simp [gone]
    · intro item before fresh
      exact create_surface_changes item.2 _ _ _ _ before fresh

theorem planar_rect_tiles_wire {bitmap : Bitmap} {rect : Rect} {surfaceId x y : Int} {pdu : GfxPdu}
    (member : pdu ∈ planarRectTiles bitmap rect surfaceId x y) :
    ∃ codecId pixelFormat area data,
      pdu = .wireToSurface1 surfaceId codecId pixelFormat area data := by
  simp only [planarRectTiles] at member
  split at member
  · simp at member
  · obtain ⟨yindex, -, inRow⟩ := List.mem_flatMap.mp member
    obtain ⟨xindex, -, inTile⟩ := List.mem_flatMap.mp inRow
    split at inTile
    · simp at inTile
    · exact ⟨_, _, _, _, List.mem_singleton.mp inTile⟩

omit [Pixman R] in
theorem planar_frame_changes (self : Mm R) (bitmap : Bitmap) (rects : List Rect)
    {surfaceId : Int} (x y : Int) {receiver : Receiver} (free : receiver.openFrame = none)
    (existing : receiver.exists_surface surfaceId = true) :
    Changes receiver (planarFramePdus self bitmap rects surfaceId x y) none
      (receiver.exists_surface · = true) := by
  apply frame_changes (planarFrameId self) free existing
  intro pdu member
  obtain ⟨rect, -, inRect⟩ := List.mem_flatMap.mp member
  exact planar_rect_tiles_wire inRect

/-! ## The frame of a job -/

/-- The frame that is open once the completions `handled` of the job are. -/
def frameAfter (job : EncVncPlanar) (handled : List EncDone) : Option Int :=
  if handled.isEmpty then none else some job.frameId

theorem completion_changes {job : EncVncPlanar} {handled later : List EncDone} {encDone : EncDone}
    (delivery : Delivery job (handled ++ encDone :: later)) {receiver : Receiver}
    (existing : receiver.exists_surface job.surfaceId = true)
    (frame : receiver.openFrame = frameAfter job handled) :
    Changes receiver (completionPdus encDone) (if encDone.last then none else some job.frameId)
      (receiver.exists_surface · = true) := by
  have continuation := delivery.continuation handled encDone later rfl
  have data := delivery.data encDone (by simp)
  obtain ⟨enc, frameId⟩ := delivery.own encDone (by simp)
  have ends : ∀ before : Receiver, before.openFrame = some job.frameId →
      Changes before (if encDone.last then [.endFrame encDone.frameId] else [])
        (if encDone.last then none else some job.frameId) (before.exists_surface · = true) := by
    intro before opened
    cases encDone.last with
    | true => exact ⟨⟨frameId ▸ opened, trivial⟩, rfl, fun _ => Iff.rfl⟩
    | false => exact ⟨trivial, opened, fun _ => Iff.rfl⟩
  cases some_data : encDone.compPadData with
  | nil =>
      have last : encDone.last = true := by
        by_contra other
        exact data (by simpa using other) some_data
      cases handled with
      | nil =>
          have nothing : completionPdus encDone = [] := by
            simp [completionPdus, donePdus, some_data, continuation]
          rw [nothing, last]
          exact ⟨trivial, frame, fun _ => Iff.rfl⟩
      | cons first handled =>
          have only_end : completionPdus encDone =
              if encDone.last then [.endFrame encDone.frameId] else [] := by
            simp [completionPdus, donePdus, some_data, continuation]
          rw [only_end]
          exact ends receiver frame
  | cons byte bytes =>
      have tile : ∀ before : Receiver, before.openFrame = some job.frameId →
          before.exists_surface = receiver.exists_surface →
          Changes before (tileWire encDone :: if encDone.last then [.endFrame encDone.frameId] else [])
            (if encDone.last then none else some job.frameId)
            (receiver.exists_surface · = true) := by
        intro before opened same
        apply changes_cons
        · refine ⟨by rw [opened]; rfl, ?_⟩
          rw [same, enc]
          exact existing
        · rw [← same]
          exact ends before opened
      cases handled with
      | nil =>
          have whole : completionPdus encDone = .startFrame encDone.frameId 0 ::
              tileWire encDone :: if encDone.last then [.endFrame encDone.frameId] else [] := by
            simp [completionPdus, donePdus, some_data, continuation, tileWire]
          rw [whole]
          apply changes_cons
          · exact frame
          · exact tile (receive receiver (.startFrame encDone.frameId 0)) (congrArg some frameId) rfl
      | cons first handled =>
          have whole : completionPdus encDone =
              tileWire encDone :: if encDone.last then [.endFrame encDone.frameId] else [] := by
            simp [completionPdus, donePdus, some_data, continuation, tileWire]
          rw [whole]
          exact tile receiver frame rfl

/-! ## The invariant -/

/-- What holds of the stream while `flight` is on its way. Where the encoder of a pending
job was replaced, none is and the frame of the job may stay open. -/
structure Ordered (mm : Mm R) (flight : Flight) : Prop where
  works : mm.egfx.sendResults = []
  stream : WellFormedStream mm.egfx.sent
  surfaces : SurfacesGone mm ∨ ∀ surfaceId,
    (receiverOf mm).exists_surface surfaceId = true ↔ surfaceId ∈ currentSurfaces mm
  down : mm.egfxUp = false → SurfacesGone mm
  recreating : Recreating mm → SurfacesGone mm
  free : flight = none → mm.vncGfxAsyncPending = false → (receiverOf mm).openFrame = none
  busy : ∀ job handled, flight = some (job, handled) →
    (receiverOf mm).openFrame = frameAfter job handled ∧
      (receiverOf mm).exists_surface job.surfaceId = true ∧
      mm.vncGfxAsyncPlanar = true ∧ mm.isVnc = true

def InStream (mm : Mm R) : Prop :=
  ∃ flight, Tracked (fun _ => True) mm flight ∧ Ordered mm flight

/-- Nothing is sent, and surfaces are neither looked for elsewhere nor about to be created
where there are some. -/
structure Silent (before after : Mm R) : Prop where
  egfx : after.egfx = before.egfx
  egfxUp : after.egfxUp = before.egfxUp
  surfaces : currentSurfaces after = currentSurfaces before ∨ SurfacesGone before
  pending : after.vncGfxAsyncPending = before.vncGfxAsyncPending
  asyncPlanar : after.vncGfxAsyncPlanar = before.vncGfxAsyncPlanar
  isVnc : after.isVnc = before.isVnc
  recreating : Recreating after → SurfacesGone before

section Stream

variable {before after : Mm R} {flight : Flight}

omit [Pixman R] in
theorem ordered_silent (ordered : Ordered before flight) (silent : Silent before after) :
    Ordered after flight := by
  have receiver : receiverOf after = receiverOf before := by rw [receiverOf, silent.egfx, receiverOf]
  have gone : SurfacesGone before → SurfacesGone after := by
    intro none_left surfaceId
    rw [receiver]
    exact none_left surfaceId
  constructor
  · rw [silent.egfx]
    exact ordered.works
  · rw [silent.egfx]
    exact ordered.stream
  · rcases ordered.surfaces with none_left | all
    · exact .inl (gone none_left)
    · rcases silent.surfaces with same | none_left
      · right
        rw [receiver, same]
        exact all
      · exact .inl (gone none_left)
  · intro down
    exact gone (ordered.down (silent.egfxUp ▸ down))
  · intro recreating
    exact gone (silent.recreating recreating)
  · intro none_left clear
    rw [receiver]
    exact ordered.free none_left (silent.pending ▸ clear)
  · rw [receiver, silent.asyncPlanar, silent.isVnc]
    exact ordered.busy

omit [Pixman R] in
theorem stream_silent (inStream : InStream before) (silent : Silent before after)
    (kept : EncoderKept before.encoder after.encoder) : InStream after := by
  obtain ⟨flight, tracked, ordered⟩ := inStream
  exact ⟨flight, tracked_kept tracked silent.pending kept, ordered_silent ordered silent⟩

omit [Pixman R] in
theorem stream_same (inStream : InStream before) (silent : Silent before after)
    (encoder : after.encoder = before.encoder) : InStream after :=
  stream_silent inStream silent (encoder ▸ encoder_kept_refl before.encoder)

omit [Pixman R] in
/-- Where the encoder has nothing to do, nothing is on its way. -/
theorem ordered_idle {allowed : List Bool → Prop} (tracked : Tracked allowed before flight)
    (ordered : Ordered before flight) : Ordered before none := by
  refine { ordered with free := ?_, busy := ?_ }
  · intro _ clear
    cases flight with
    | none => exact ordered.free rfl clear
    | some flight =>
        rw [tracked_pending tracked] at clear
        exact absurd clear (by simp)
  · intro job handled busy
    exact absurd busy (by simp)

omit [Pixman R] in
theorem stream_replaced (inStream : InStream before) (silent : Silent before after)
    (idle : ∀ encoder, after.encoder = some encoder → Idle encoder) : InStream after := by
  obtain ⟨flight, tracked, ordered⟩ := inStream
  exact ⟨none, .free idle, ordered_silent (ordered_idle tracked ordered) silent⟩

end Stream

/-! ## Draws -/

/-- The scheduler turns calls away, or they find the surfaces and no frame in their way. -/
def MayDraw (self : Mm R) : Prop :=
  Asynchronous self ∧ self.vncGfxAsyncPending = true ∨
    ¬SurfacesGone self ∧ (¬Asynchronous self → (receiverOf self).openFrame = none)

theorem draw_call_current {self : Mm R} {region : R} {call : PlanarCall}
    (member : call ∈ drawCalls self region) : call.surfaceId ∈ currentSurfaces self := by
  unfold drawCalls at member
  unfold currentSurfaces
  split at member
  · rename_i no_monitor
    rw [if_pos no_monitor, List.mem_singleton.mp member]
    exact List.mem_singleton.mpr rfl
  · rename_i some_monitor
    obtain ⟨index, mi, found, -, rfl⟩ := mem_monitor_calls.mp member
    rw [if_neg some_monitor, Nat.zero_add]
    apply List.mem_map.mpr
    refine ⟨index, List.mem_range.mpr ?_, rfl⟩
    exact (List.getElem?_eq_some_iff.mp found).1

section DrawStream

variable {before after : Mm R} {bitmap : Bitmap} {rects : List Rect} {surfaceId x y : Int}

omit [Pixman R] in
theorem framed_stream {flight : Flight} {sent : Mm R} (tracked : Tracked (fun _ => True) before flight)
    (ordered : Ordered before flight) (may : MayDraw before)
    (current : surfaceId ∈ currentSurfaces before) (synchronous : ¬Asynchronous before)
    (sends : SendsOnly before sent (planarFramePdus before bitmap rects surfaceId x y))
    (committed : Option Int) :
    InStream { sent with encoder := withFrameId before.encoder committed } ∧
      MayDraw { sent with encoder := withFrameId before.encoder committed } := by
  have none_flying : flight = none := by
    cases tracked with
    | free => rfl
    | busy encoder job handled _ present =>
        obtain ⟨-, -, asyncPlanar, isVnc⟩ := ordered.busy job handled rfl
        exact absurd ⟨asyncPlanar, isVnc, by simp [present]⟩ synchronous
  obtain ⟨some_surface, free⟩ : ¬SurfacesGone before ∧
      (¬Asynchronous before → (receiverOf before).openFrame = none) := by
    rcases may with ⟨asynchronous, -⟩ | drawable
    · exact absurd asynchronous synchronous
    · exact drawable
  have all := ordered.surfaces.resolve_left some_surface
  rw [sends_only_works sends ordered.works]
  have changes := planar_frame_changes before bitmap rects x y (free synchronous)
    ((all surfaceId).mpr current)
  generalize planarFramePdus before bitmap rects surfaceId x y = pdus at changes
  subst none_flying
  have same : ∀ encoder, receiverOf { before with
      egfx.sent := before.egfx.sent ++ pdus, encoder := encoder } =
        receiveAll (receiverOf before) pdus := fun _ => receiver_of_sent rfl
  have still : ∀ encoder, ¬SurfacesGone { before with
      egfx.sent := before.egfx.sent ++ pdus, encoder := encoder } := by
    intro encoder gone
    have there := (all surfaceId).mpr current
    have here := gone surfaceId
    rw [same] at here
    rw [← changes.surfaces surfaceId, here] at there
    exact absurd there (by simp)
  refine ⟨⟨none, tracked_kept tracked rfl (with_frame_id_kept before.encoder committed), ?_⟩, ?_⟩
  · constructor
    · exact ordered.works
    · exact well_formed_append ordered.stream changes.accepted
    · right
      intro other
      rw [same, changes.surfaces other]
      exact all other
    · intro down
      exact absurd (ordered.down down) some_surface
    · intro recreating
      exact absurd (ordered.recreating recreating) some_surface
    · intro _ _
      rw [same]
      exact changes.frame
    · intro job handled busy
      exact absurd busy (by simp)
  · right
    refine ⟨still _, fun _ => ?_⟩
    rw [same]
    exact changes.frame

omit [Pixman R] in
theorem queued_stream {job : EncVncPlanar}
    (tracked : Tracked (fun _ => True) after (some (job, [])))
    (ordered : Ordered before none) (clear : before.vncGfxAsyncPending = false)
    (some_surface : ¬SurfacesGone before) (asynchronous : Asynchronous before)
    (current : job.surfaceId ∈ currentSurfaces before)
    (silent : Silent { before with vncGfxAsyncPending := true } after) : InStream after := by
  have all := ordered.surfaces.resolve_left some_surface
  have pending : Ordered { before with vncGfxAsyncPending := true } (some (job, [])) := by
    refine { ordered with free := ?_, busy := ?_ }
    · intro none_flying
      exact absurd none_flying (by simp)
    · intro other handled same
      obtain ⟨rfl, rfl⟩ := Prod.mk.inj (Option.some.inj same)
      exact ⟨ordered.free rfl clear, (all _).mpr current, asynchronous.1, asynchronous.2.1⟩
  exact ⟨_, tracked, ordered_silent pending silent⟩

omit [Pixman R] in
theorem send_step_stream (inStream : InStream before) (may : MayDraw before)
    (solid : ∀ rect ∈ rects, rect.Solid) (current : surfaceId ∈ currentSurfaces before)
    (step : SendStep before bitmap rects surfaceId x y after) :
    InStream after ∧ MayDraw after ∧ currentSurfaces after = currentSurfaces before := by
  obtain ⟨flight, tracked, ordered⟩ := inStream
  have sent := tracked_send tracked solid step
  cases step with
  | refused allocResults =>
      refine ⟨⟨flight, tracked_same tracked rfl rfl, ?_⟩, may, rfl⟩
      exact ordered_silent ordered ⟨rfl, rfl, .inl rfl, rfl, rfl, rfl, ordered.recreating⟩
  | queued allocResults encoder total asynchronous present clear some_rect measured positive =>
      have some_surface : ¬SurfacesGone before := by
        rcases may with ⟨-, pending⟩ | drawable
        · rw [clear] at pending
          exact absurd pending (by simp)
        · exact drawable.1
      rcases sent with ⟨-, pending⟩ | ⟨rfl, job, rfl, -, -, queued⟩
      · exact absurd (pending.trans clear) (by simp [queueJob])
      · refine ⟨queued_stream queued ordered clear some_surface asynchronous current ?_,
          .inl ⟨⟨asynchronous.1, asynchronous.2.1, rfl⟩, rfl⟩, rfl⟩
        exact ⟨rfl, rfl, .inl rfl, rfl, rfl, rfl, fun recreating => ordered.recreating recreating⟩
  | framed sent committed synchronous some_rect sends =>
      obtain ⟨inStream, drawable⟩ :=
        framed_stream tracked ordered may current synchronous sends committed
      refine ⟨inStream, drawable, ?_⟩
      obtain ⟨messages, results, rfl, -⟩ := sends
      rfl

end DrawStream

theorem draw_stream {before : Mm R} (inStream : InStream before) {now : Int}
    (in_order : InOrder before (.draw now)) : InStream (checkScreenDirty before now).2 := by
  unfold checkScreenDirty
  split
  · exact inStream
  · rename_i region dirty
    split
    · rename_i due
      have drawn : InStream (xrdpMmDrawDirty before region).2 := by
        by_cases none_to_do : drawCalls before region = []
        · rw [draw_dirty_calls, none_to_do]
          exact inStream
        · have may : MayDraw before := by
            by_cases refused : Asynchronous before ∧ before.vncGfxAsyncPending = true
            · exact .inl refused
            · exact .inr (in_order ⟨region, dirty, due, none_to_do, refused⟩)
          have all := @draw_dirty_preserves R _ before region (fun mm => InStream mm ∧
            MayDraw mm ∧ currentSurfaces mm = currentSurfaces before) ?_ ⟨inStream, may, rfl⟩
          · exact all.1
          · intro middle call after member _ ⟨stream, drawable, same⟩ step
            have solid := (draw_calls_solid due.1 member).2
            have current := draw_call_current member
            rw [← same] at current
            obtain ⟨streamAfter, drawableAfter, sameAfter⟩ :=
              send_step_stream stream drawable solid current step
            exact ⟨streamAfter, drawableAfter, sameAfter.trans same⟩
      obtain ⟨flight, tracked, ordered⟩ := drawn
      refine ⟨flight, tracked_same tracked rfl rfl, ?_⟩
      exact ordered_silent ordered ⟨rfl, rfl, .inl rfl, rfl, rfl, rfl, ordered.recreating⟩
    · exact inStream

/-! ## Completions -/

omit [Pixman R] in
theorem enc_done_stream {before : Mm R} (inStream : InStream before) :
    InStream (xrdpMmProcessEncDone before) := by
  obtain ⟨flight, tracked, ordered⟩ := inStream
  have step := enc_done_step before
  generalize xrdpMmProcessEncDone before = after at step ⊢
  cases step with
  | idle => exact ⟨flight, tracked, ordered⟩
  | handled encoder encDone rest sent frameId present processed sends =>
      obtain ⟨job, handled, later, allocs, rfl, scheduled, -, whole, -, trackedAfter⟩ :=
        tracked_done tracked sent frameId present processed
      have delivery := worker_delivery scheduled allocs
      rw [whole] at delivery
      obtain ⟨frame, existing, asyncPlanar, isVnc⟩ := ordered.busy job handled rfl
      have changes := completion_changes delivery existing frame
      refine ⟨_, trackedAfter, ?_⟩
      rw [sends_only_works sends ordered.works]
      generalize completionPdus encDone = pdus at changes
      generalize after_def : afterCompletion before
        { before with egfx.sent := before.egfx.sent ++ pdus } encoder rest encDone frameId = after
      have receiver : receiverOf after = receiveAll (receiverOf before) pdus := by
        rw [← after_def]
        exact receiver_of_sent rfl
      have same : ∀ surfaceId, (receiverOf after).exists_surface surfaceId =
          (receiverOf before).exists_surface surfaceId := by
        intro surfaceId
        rw [receiver, Bool.eq_iff_iff, changes.surfaces]
      have gone : SurfacesGone before → SurfacesGone after := by
        intro none_left surfaceId
        rw [same]
        exact none_left surfaceId
      constructor
      · rw [← after_def]
        exact ordered.works
      · rw [← after_def]
        exact well_formed_append ordered.stream changes.accepted
      · rcases ordered.surfaces with none_left | all
        · exact .inl (gone none_left)
        · right
          intro surfaceId
          rw [same, all, ← after_def]
          exact Iff.rfl
      · intro down
        apply gone
        rw [← after_def] at down
        exact ordered.down down
      · intro recreating
        apply gone
        rw [← after_def] at recreating
        exact ordered.recreating recreating
      · intro none_flying _
        rw [receiver, changes.frame]
        cases last : encDone.last with
        | true => rfl
        | false => simp [last] at none_flying
      · intro other others busy
        cases last : encDone.last with
        | true => simp [last] at busy
        | false =>
            simp only [last, Bool.false_eq_true, if_false, Option.some.injEq, Prod.mk.injEq] at busy
            obtain ⟨rfl, rfl⟩ := busy
            refine ⟨?_, (same _).trans existing, ?_, ?_⟩
            · rw [receiver, changes.frame, last, frameAfter]
              simp
            · rw [← after_def]
              exact asyncPlanar
            · rw [← after_def]
              exact isVnc

/-! ## Surfaces -/

omit [Pixman R] in
theorem send_each_works {self : Mm R} (works : self.egfx.sendResults = []) (pdus : List GfxPdu) :
    sendEach self pdus = { self with egfx.sent := self.egfx.sent ++ pdus } :=
  sends_only_works (sends_only_each self pdus) works

omit [Pixman R] in
/-- Surfaces are deleted or created between jobs: either none is left or those of the
current sizes are there. -/
theorem surfaces_stream {before after : Mm R} (inStream : InStream before) {pdus : List GfxPdu}
    {existing : Int → Prop}
    (changes : Changes (receiverOf before) pdus (receiverOf before).openFrame existing)
    (sent : after.egfx = { before.egfx with sent := before.egfx.sent ++ pdus })
    (surfaces : (∀ surfaceId, ¬existing surfaceId) ∨ after.egfxUp = true ∧ ¬Recreating after ∧
      ∀ surfaceId, existing surfaceId ↔ surfaceId ∈ currentSurfaces after)
    (pending : after.vncGfxAsyncPending = before.vncGfxAsyncPending)
    (idle : ∀ encoder, after.encoder = some encoder → Idle encoder) : InStream after := by
  obtain ⟨flight, tracked, ordered⟩ := inStream
  have receiver : receiverOf after = receiveAll (receiverOf before) pdus :=
    receiver_of_sent (by rw [sent])
  have gone : (∀ surfaceId, ¬existing surfaceId) → SurfacesGone after := by
    intro none_left surfaceId
    rw [receiver, Bool.eq_false_iff, Ne, changes.surfaces]
    exact none_left surfaceId
  refine ⟨none, .free idle, ?_⟩
  constructor
  · rw [sent]
    exact ordered.works
  · rw [sent]
    exact well_formed_append ordered.stream changes.accepted
  · rcases surfaces with none_left | ⟨-, -, all⟩
    · exact .inl (gone none_left)
    · right
      intro surfaceId
      rw [receiver, changes.surfaces]
      exact all surfaceId
  · intro down
    rcases surfaces with none_left | ⟨up, -, -⟩
    · exact gone none_left
    · rw [up] at down
      exact absurd down (by simp)
  · intro recreating
    rcases surfaces with none_left | ⟨-, settled, -⟩
    · exact gone none_left
    · exact absurd recreating settled
  · intro _ clear
    rw [receiver, changes.frame]
    exact (ordered_idle tracked ordered).free rfl (pending ▸ clear)
  · intro job handled busy
    exact absurd busy (by simp)

/-- Messages that neither open a frame nor touch a surface. -/
theorem inert_changes (receiver : Receiver) {pdus : List GfxPdu}
    (inert : ∀ pdu ∈ pdus, (∃ version flags, pdu = .capsConfirm version flags) ∨
      ∃ width height monitors, pdu = .resetGraphics width height monitors) :
    Changes receiver pdus receiver.openFrame (receiver.exists_surface · = true) := by
  induction pdus with
  | nil => exact changes_nil receiver
  | cons pdu rest ih =>
      have later := ih fun other member => inert other (List.mem_cons_of_mem pdu member)
      rcases inert pdu (List.mem_cons_self ..) with ⟨version, flags, rfl⟩ |
        ⟨width, height, monitors, rfl⟩
      · exact ⟨⟨trivial, later.accepted⟩, later.frame, later.surfaces⟩
      · exact ⟨⟨trivial, later.accepted⟩, later.frame, later.surfaces⟩

omit [Pixman R] in
theorem reset_graphics_stream {before : Mm R} (inStream : InStream before)
    (some_surface : ¬SurfacesGone before)
    (idle : ∀ encoder, before.encoder = some encoder → Idle encoder)
    (description : DisplaySizeDescription) : InStream (egfxResetGraphics before description) := by
  obtain ⟨flight, tracked, ordered⟩ := id inStream
  have all := ordered.surfaces.resolve_left some_surface
  have deletes := deletes_changes (current_surfaces_distinct before) (receiverOf before)
    fun surfaceId member => (all surfaceId).mpr member
  rw [← delete_surfaces_pdus] at deletes
  have resets := @inert_changes (receiveAll (receiverOf before) (deleteSurfacesPdus before))
    [.resetGraphics description.sessionWidth description.sessionHeight description.minfo]
    (by simp)
  have changes := changes_append deletes resets
  rw [deletes.frame] at changes
  have deleted := send_each_works ordered.works (deleteSurfacesPdus before)
  have reset := @send_succeeds R (xrdpMmEgfxDeleteSurfaces before) (by
    rw [xrdpMmEgfxDeleteSurfaces, deleted]
    exact ordered.works) (.resetGraphics description.sessionWidth description.sessionHeight
      description.minfo)
  simp only [egfxResetGraphics, reset, if_true]
  rw [xrdpMmEgfxDeleteSurfaces, deleted]
  apply surfaces_stream inStream changes
  · simp [advanceResizeStateMachine]
  · left
    intro surfaceId
    rw [deletes.surfaces, all]
    tauto
  · rfl
  · exact idle

omit [Pixman R] in
theorem settled_advance {self : Mm R} {state : DisplayResizeState} (ended : recreates state = false) :
    ¬Recreating (advanceResizeStateMachine self state) := by
  rintro ⟨resize, active, recreating⟩
  obtain ⟨before, -, rfl⟩ := Option.map_eq_some_iff.mp active
  rw [ended] at recreating
  exact absurd recreating (by simp)

omit [Pixman R] in
/-- The new surfaces and the new encoder end the resize, one way or the other. -/
theorem encoder_create_stream {before : Mm R} (inStream : InStream before)
    (gone : SurfacesGone before) (description : DisplaySizeDescription) (answers : ResizeAnswers) :
    InStream (encoderCreate before description answers) := by
  obtain ⟨flight, tracked, ordered⟩ := id inStream
  have changes := create_surfaces_changes before gone
  have created := send_each_works ordered.works (createSurfacesPdus before)
  have idle : ∀ encoder, xrdpEncoderCreate answers.framesInFlight = some encoder → Idle encoder :=
    fun _ => created_idle
  simp only [encoderCreate, recreateOutput, xrdpMmEgfxCreateSurfaces]
  cases up : before.egfxUp with
  | true =>
      simp only [if_true, created]
      split
      · apply surfaces_stream inStream changes
        · rfl
        · exact .inr ⟨up, settled_advance rfl, fun _ => Iff.rfl⟩
        · rfl
        · exact idle
      · apply surfaces_stream inStream changes
        · rfl
        · exact .inr ⟨up, settled_advance rfl, fun _ => Iff.rfl⟩
        · rfl
        · exact idle
  | false =>
      simp only [Bool.false_eq_true, if_false]
      split
      · apply stream_replaced inStream _ idle
        exact ⟨rfl, rfl, .inl rfl, rfl, rfl, rfl, fun _ => gone⟩
      · apply stream_replaced inStream _ idle
        exact ⟨rfl, rfl, .inl rfl, rfl, rfl, rfl, fun _ => gone⟩

omit [Pixman R] in
theorem process_resize_stream {before : Mm R} {resize : DisplayControlMonitorLayoutData}
    (inStream : InStream before) (active : before.resizeData = some resize)
    {answers : ResizeAnswers}
    (deletes : before.modHandle = true → resize.state = .egfxResetGraphics → ¬SurfacesGone before ∧
      ∀ encoder, before.encoder = some encoder → Idle encoder) :
    InStream (processDisplayControlMonitorLayoutData before resize answers) := by
  obtain ⟨flight, tracked, ordered⟩ := id inStream
  have recreating : recreates resize.state = true → SurfacesGone before := fun state =>
    ordered.recreating ⟨resize, active, state⟩
  have advanced : recreates resize.state = true → ∀ state,
      InStream (advanceResizeStateMachine before state) := by
    intro state next
    exact stream_same inStream ⟨rfl, rfl, .inl rfl, rfl, rfl, rfl, fun _ => recreating state⟩ rfl
  unfold processDisplayControlMonitorLayoutData
  split
  · exact inStream
  · rename_i module
    split
    · simp only [encoderDelete]
      apply stream_replaced inStream
      · refine ⟨rfl, rfl, .inl rfl, rfl, rfl, rfl, fun begun => ?_⟩
        cases up : before.egfxUp with
        | false => exact ordered.down up
        | true =>
            have settled := @settled_advance R
              (xrdpEncoderDelete (xrdpRdpSuppressOutput before true .dynamicResize))
              .egfxResetGraphics rfl
            simp only [xrdpEncoderDelete, xrdpRdpSuppressOutput, up, if_true] at begun
            exact absurd begun settled
      · intro encoder present
        exact absurd present (by simp [xrdpEncoderDelete, advanceResizeStateMachine])
    · rename_i resetting
      obtain ⟨some_surface, idle⟩ := deletes (by simpa using module) resetting
      exact reset_graphics_stream inStream some_surface idle resize.description
    · rename_i resizing
      cases answers.moduleResize <;> exact advanced (by rw [resizing]; rfl) _
    · rename_i processed
      have gone := recreating (by rw [processed]; rfl)
      exact stream_same inStream ⟨rfl, rfl, .inr gone, rfl, rfl, rfl, fun _ => gone⟩ rfl
    · rename_i resetting
      unfold xrdpCoreReset
      split <;> exact advanced (by rw [resetting]; rfl) _
    · rename_i processed
      unfold xrdpCoreResetProcessed
      split <;> exact advanced (by rw [processed]; rfl) _
    · rename_i creating
      exact encoder_create_stream inStream (recreating (by rw [creating]; rfl)) _ _
    · exact inStream

omit [Pixman R] in
theorem resize_ready_stream {before : Mm R} (inStream : InStream before) {answers : ResizeAnswers}
    (in_order : DeletesSurfaces before answers → ¬SurfacesGone before ∧
      ∀ encoder, before.encoder = some encoder → Idle encoder) :
    InStream (checkResizeReady before answers) := by
  obtain ⟨flight, tracked, ordered⟩ := id inStream
  have quiet : ∀ resizeReady, InStream { before with resizeReady } := by
    intro resizeReady
    exact stream_same inStream ⟨rfl, rfl, .inl rfl, rfl, rfl, rfl, ordered.recreating⟩ rfl
  unfold checkResizeReady
  split
  · rename_i ready
    unfold dynamicMonitorProcessQueue
    split
    · exact quiet false
    · rename_i can_resize
      split
      · rename_i none_active
        split
        · exact quiet false
        · simp only [startResize]
          split
          · refine stream_same inStream ⟨rfl, rfl, .inl rfl, rfl, rfl, rfl, ?_⟩ rfl
            rintro ⟨resize, active, recreating⟩
            obtain rfl := Option.some.inj active
            exact absurd recreating (by simp [recreates])
          · exact stream_same inStream ⟨rfl, rfl, .inl rfl, rfl, rfl, rfl, ordered.recreating⟩ rfl
      · rename_i resize active
        split
        · refine stream_same inStream ⟨rfl, rfl, .inl rfl, rfl, rfl, rfl, ?_⟩ rfl
          rintro ⟨other, none_active, -⟩
          exact absurd none_active (by simp)
        · apply process_resize_stream (quiet false) active
          intro module resetting
          refine in_order ⟨ready, by simpa using can_resize, module, ?_⟩
          rw [active, Option.map_some, resetting]
  · exact inStream

omit [Pixman R] in
theorem confirm_caps_stream {before : Mm R} (inStream : InStream before) (gone : SurfacesGone before)
    (settled : ¬Recreating before) (codec : Int × Int) (framesInFlight : Option Int) :
    InStream (confirmCaps before codec framesInFlight) := by
  obtain ⟨flight, tracked, ordered⟩ := id inStream
  have confirms := @inert_changes (receiverOf before) [.capsConfirm codec.1 codec.2,
    .resetGraphics before.wm.screen.width before.wm.screen.height
      before.wm.clientInfo.displaySizes.minfo] (by simp)
  have creates := @create_surfaces_changes R before (receiveAll (receiverOf before)
    [.capsConfirm codec.1 codec.2, .resetGraphics before.wm.screen.width before.wm.screen.height
      before.wm.clientInfo.displaySizes.minfo]) gone
  have changes := changes_append confirms creates
  rw [confirms.frame] at changes
  simp only [confirmCaps, xrdpMmEgfxCreateSurfaces]
  rw [send_each_works ordered.works, send_each_works (by exact ordered.works)]
  apply surfaces_stream inStream changes
  · simp only [List.append_assoc]
    rfl
  · exact .inr ⟨rfl, settled, fun _ => Iff.rfl⟩
  · rfl
  · exact fun _ => created_idle

theorem caps_advertise_stream {before : Mm R} (inStream : InStream before)
    {best : Option (Int × Int)} {framesInFlight : Option Int}
    (in_order : InOrder before (.capsAdvertise best framesInFlight)) :
    InStream (xrdpMmEgfxCapsAdvertise before best framesInFlight) := by
  cases best with
  | none =>
      obtain ⟨flight, tracked, ordered⟩ := id inStream
      apply stream_replaced inStream
      · exact ⟨rfl, rfl, .inl rfl, rfl, rfl, rfl, ordered.recreating⟩
      · exact fun _ => created_idle
  | some codec =>
      have confirmed := confirm_caps_stream inStream in_order.1 in_order.2 codec framesInFlight
      obtain ⟨flight, tracked, ordered⟩ := id confirmed
      simp only [xrdpMmEgfxCapsAdvertise, xrdpMmEgfxInvalidateWmScreen]
      split
      · exact stream_same confirmed
          ⟨rfl, rfl, .inl rfl, rfl, rfl, rfl, ordered.recreating⟩ rfl
      · exact confirmed

/-! ## Whole runs -/

theorem event_stream {before : Mm R} {event : Event} (inStream : InStream before)
    (in_order : InOrder before event) : InStream (runEvent before event) := by
  obtain ⟨flight, tracked, ordered⟩ := id inStream
  have quiet : ∀ after : Mm R, after.egfx = before.egfx → after.egfxUp = before.egfxUp →
      after.wm.clientInfo.displaySizes = before.wm.clientInfo.displaySizes →
      after.vncGfxAsyncPending = before.vncGfxAsyncPending →
      after.vncGfxAsyncPlanar = before.vncGfxAsyncPlanar → after.isVnc = before.isVnc →
      (Recreating after → Recreating before) → Silent before after := by
    intro after egfx up sizes pending asyncPlanar isVnc recreating
    refine ⟨egfx, up, .inl ?_, pending, asyncPlanar, isVnc, fun now =>
      ordered.recreating (recreating now)⟩
    rw [currentSurfaces, sizes, egfx, currentSurfaces]
  cases event with
  | beginUpdate => exact stream_same inStream (quiet _ rfl rfl rfl rfl rfl rfl id) rfl
  | paint paint =>
      simp only [runEvent, serverPaint]
      split
      · exact inStream
      · exact stream_same inStream (quiet _ rfl rfl rfl rfl rfl rfl id) rfl
  | endUpdate =>
      simp only [runEvent, serverEndUpdate, addDirtyRegionToPlanarList]
      split
      · exact inStream
      · split
        · split
          · exact stream_same inStream (quiet _ rfl rfl rfl rfl rfl rfl id) rfl
          · exact stream_same inStream (quiet _ rfl rfl rfl rfl rfl rfl id) rfl
        · exact stream_same inStream (quiet _ rfl rfl rfl rfl rfl rfl id) rfl
  | clientSuppressOutput suppress =>
      exact stream_same inStream (quiet _ rfl rfl rfl rfl rfl rfl id) rfl
  | coreSuppressOutput suppress =>
      exact stream_same inStream (quiet _ rfl rfl rfl rfl rfl rfl id) rfl
  | capsAdvertise best framesInFlight => exact caps_advertise_stream inStream in_order
  | frameAck suspend frameId =>
      have kept := frame_ack_kept before suspend frameId
      have only : xrdpMmEgfxFrameAck before suspend frameId =
          { before with encoder := (xrdpMmEgfxFrameAck before suspend frameId).encoder } := by
        simp only [xrdpMmEgfxFrameAck]
        split
        · rfl
        · rfl
      simp only [runEvent]
      rw [only]
      exact stream_silent inStream (quiet _ rfl rfl rfl rfl rfl rfl id) kept
  | resizeRequest src description =>
      exact stream_same inStream (quiet _ rfl rfl rfl rfl rfl rfl id) rfl
  | resizeReady answers => exact resize_ready_stream inStream in_order
  | monitorResizeDone =>
      simp only [runEvent, serverMonitorResizeDone]
      split
      · rename_i waiting
        refine stream_same inStream (quiet _ rfl rfl rfl rfl rfl rfl fun _ => ?_) rfl
        obtain ⟨resize, active, state⟩ := Option.map_eq_some_iff.mp waiting
        exact ⟨resize, active, by rw [state]; rfl⟩
      · exact inStream
  | upAndRunning =>
      simp only [runEvent, xrdpMmUpAndRunning]
      split
      · rename_i waiting
        refine stream_same inStream (quiet _ rfl rfl rfl rfl rfl rfl fun _ => ?_) rfl
        obtain ⟨resize, active, state⟩ := Option.map_eq_some_iff.mp waiting
        exact ⟨resize, active, by rw [state]; rfl⟩
      · exact inStream
  | draw now => exact draw_stream inStream in_order
  | encDone => exact enc_done_stream inStream
  | workerTakes allocs =>
      refine ⟨flight, tracked_takes tracked trivial, ?_⟩
      exact ordered_silent ordered (quiet _ rfl rfl rfl rfl rfl rfl id)
  | workerStep =>
      refine ⟨flight, tracked_worker tracked, ?_⟩
      exact ordered_silent ordered (quiet _ rfl rfl rfl rfl rfl rfl id)

omit [Pixman R] in
theorem started_stream {start : Mm R} (started : Started start)
    (works : start.egfx.sendResults = []) : InStream start := by
  have receiver : receiverOf start = emptyReceiver := by
    rw [receiverOf, started.sent]
    rfl
  have gone : SurfacesGone start := by
    intro surfaceId
    rw [receiver]
    rfl
  refine ⟨none, started_tracked _ started, works, ?_, .inl gone, fun _ => gone, fun _ => gone, ?_, ?_⟩
  · rw [started.sent]
    trivial
  · intro _ _
    rw [receiver]
    rfl
  · intro job handled busy
    exact absurd busy (by simp)

/-- In every run whose steps come in order, the messages form a well formed stream. -/
theorem stream_well_formed {start after : Mm R} {events : List Event} (started : Started start)
    (works : start.egfx.sendResults = [])
    (ran : (session.restrict InOrder).Run start events after) : WellFormedStream after.egfx.sent := by
  have inStream : InStream after := by
    apply System.run_preserves InStream _ ran (started_stream started works)
    intro before event later streamed stepped
    obtain ⟨in_order, -, rfl⟩ := stepped
    exact event_stream streamed in_order
  obtain ⟨flight, tracked, ordered⟩ := inStream
  exact ordered.stream

/-- Graphics come up, the whole screen is drawn, and then the desktop grows. -/
def grownDesktop : List Event :=
  [.capsAdvertise (some (1, 0)) (some 2), .draw 100, .resizeRequest .fromClient (pixelSizes 2)] ++
    List.replicate 6 (.resizeReady resizeWorks)

omit [Pixman R] in
theorem surface_exists {self : Mm R} {surfaceId : Int}
    (existing : (receiverOf self).exists_surface surfaceId = true) : ¬SurfacesGone self := by
  intro gone
  rw [gone surfaceId] at existing
  exact absurd existing (by simp)

theorem stream_well_formed_grown :
    WellFormedStream (runEvents (startedSession 1 false) grownDesktop).egfx.sent := by
  apply stream_well_formed (started_session 1 false) rfl (restricted_run_of_events _ _)
  · exact ⟨trivial, trivial, fun _ => by decide, trivial, trivial, trivial, trivial, trivial, trivial,
      trivial⟩
  · refine ⟨⟨fun _ => rfl, ?_⟩, fun _ => ⟨?_, fun _ => ?_⟩, trivial, fun other => ?_,
      fun other => ?_, fun _ => ⟨?_, ?_⟩, fun other => ?_, fun other => ?_, fun other => ?_, trivial⟩
    · rintro ⟨resize, active, -⟩
      exact absurd active (by simp [startedSession, pixelSession])
    · refine @surface_exists _ _ 0 ?_
      decide +kernel
    · decide +kernel
    · exact absurd other (by decide +kernel)
    · exact absurd other (by decide +kernel)
    · refine @surface_exists _ _ 0 ?_
      decide +kernel
    · have deleted : (runEvents (startedSession 1 false) (grownDesktop.take 5)).encoder = none := by
        decide +kernel
      intro encoder present
      exact absurd (deleted.symm.trans present) (by simp)
    · exact absurd other (by decide +kernel)
    · exact absurd other (by decide +kernel)
    · exact absurd other (by decide +kernel)

/-- The same, but with the draw while the surfaces are gone. -/
def drawnInResize : List Event :=
  [.capsAdvertise (some (1, 0)) (some 2), .resizeRequest .fromClient (pixelSizes 2)] ++
    List.replicate 3 (.resizeReady resizeWorks) ++ [.draw 100]

theorem draw_without_surface :
    session.Reachable (runEvents (startedSession 1 false) drawnInResize) ∧
      ¬WellFormedStream (runEvents (startedSession 1 false) drawnInResize).egfx.sent := by
  constructor
  · refine ⟨_, drawnInResize, started_session 1 false, run_of_events ?_⟩
    exact ⟨trivial, fun _ => by decide, trivial, trivial, trivial, trivial, trivial⟩
  · unfold WellFormedStream
    decide +kernel

end XrdpConsole.GfxStream
