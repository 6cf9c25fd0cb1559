import XrdpConsole.PlanarSend

/-!
# What a draw can do

Every call of `xrdp_mm_egfx_send_planar_rects` is refused, queues one job or
sends one frame, and touches nothing but the graphics channel, the encoder and
the pending flag. A draw is a sequence of such calls, so what each of them
preserves holds after the draw.
-/

namespace XrdpConsole.DrawSteps

open XrdpConsole.Library
open XrdpConsole.Region
open XrdpConsole.VncState
open XrdpConsole.MmState
open XrdpConsole.PlanarSend

set_option autoImplicit false

variable {R : Type}

/-! ## Sends -/

theorem send_effect (self : Mm R) (pdu : GfxPdu) :
    ∃ results, (xrdpEgfxSend self pdu).2 =
      { self with egfx :=
        { self.egfx with
          sent := self.egfx.sent ++ if self.egfx.sendResults.headD true then [pdu] else []
          sendResults := results } } := by
  refine ⟨self.egfx.sendResults.tail, ?_⟩
  unfold xrdpEgfxSend
  by_cases sent : self.egfx.sendResults.headD true = true
  · simp only [sent, if_true]
  · simp only [sent, if_false, Bool.false_eq_true, List.append_nil]

theorem send_succeeds {self : Mm R} (works : self.egfx.sendResults = []) (pdu : GfxPdu) :
    xrdpEgfxSend self pdu = (true, { self with egfx.sent := self.egfx.sent ++ [pdu] }) := by
  simp [xrdpEgfxSend, works]

/-- What sends leave as it was, and what they add. -/
def SendsOnly (before after : Mm R) (pdus : List GfxPdu) : Prop :=
  ∃ sent results, after = { before with egfx :=
      { before.egfx with sent := before.egfx.sent ++ sent, sendResults := results } } ∧
    (before.egfx.sendResults = [] → sent = pdus ∧ results = [])

theorem sends_only_refl (self : Mm R) : SendsOnly self self [] := by
  refine ⟨[], self.egfx.sendResults, ?_, fun works => ⟨rfl, works⟩⟩
  simp

theorem sends_only_trans {before middle after : Mm R} {pdus later : List GfxPdu}
    (first : SendsOnly before middle pdus) (second : SendsOnly middle after later) :
    SendsOnly before after (pdus ++ later) := by
  obtain ⟨sent, results, rfl, whole⟩ := first
  obtain ⟨sentLater, resultsLater, rfl, wholeLater⟩ := second
  refine ⟨sent ++ sentLater, resultsLater, by simp, ?_⟩
  intro works
  obtain ⟨rfl, rfl⟩ := whole works
  obtain ⟨rfl, rfl⟩ := wholeLater rfl
  exact ⟨rfl, rfl⟩

theorem sends_only_send (self : Mm R) (pdu : GfxPdu) :
    SendsOnly self (xrdpEgfxSend self pdu).2 [pdu] := by
  obtain ⟨results, after⟩ := send_effect self pdu
  refine ⟨_, results, after, ?_⟩
  intro works
  rw [send_succeeds works] at after
  have same := congrArg (fun state => state.egfx.sendResults) after
  simp only [works] at same ⊢
  exact ⟨by simp, same.symm⟩

theorem sends_only_each (self : Mm R) (pdus : List GfxPdu) :
    SendsOnly self (sendEach self pdus) pdus := by
  induction pdus generalizing self with
  | nil => exact sends_only_refl self
  | cons pdu rest ih => exact sends_only_trans (sends_only_send self pdu) (ih _)

/-- A send that stops early after a failure still only sends. -/
theorem sends_only_all (self : Mm R) (pdus : List GfxPdu) :
    SendsOnly self (sendAll self pdus).2 pdus ∧
      (self.egfx.sendResults = [] → (sendAll self pdus).1 = true) := by
  induction pdus generalizing self with
  | nil => exact ⟨sends_only_refl self, fun _ => rfl⟩
  | cons pdu rest ih =>
      have first := sends_only_send self pdu
      obtain ⟨later, finished⟩ := ih (xrdpEgfxSend self pdu).2
      rw [sendAll]
      split
      · constructor
        · exact sends_only_trans first later
        · intro works
          apply finished
          simp [send_succeeds works, works]
      · rename_i failed
        constructor
        · obtain ⟨sent, results, after, whole⟩ := first
          refine ⟨sent, results, after, ?_⟩
          intro works
          simp [send_succeeds works] at failed
        · intro works
          simp [send_succeeds works] at failed

theorem sends_only_works {before after : Mm R} {pdus : List GfxPdu}
    (sent : SendsOnly before after pdus) (works : before.egfx.sendResults = []) :
    after = { before with egfx.sent := before.egfx.sent ++ pdus } := by
  obtain ⟨messages, results, rfl, whole⟩ := sent
  obtain ⟨rfl, rfl⟩ := whole works
  simp [← works]

/-! ## One call -/

/-- The messages of a synchronous frame. -/
def planarFramePdus (self : Mm R) (bitmap : Bitmap) (rects : List Rect) (surfaceId x y : Int) :
    List GfxPdu :=
  .startFrame (planarFrameId self) 0 ::
    (rects.flatMap fun rect => planarRectTiles bitmap rect surfaceId x y) ++
      [.endFrame (planarFrameId self)]

/-- Whether a call goes to the encoder thread. -/
def Asynchronous (self : Mm R) : Prop :=
  self.vncGfxAsyncPlanar = true ∧ self.isVnc = true ∧ self.encoder.isSome = true

instance (self : Mm R) : Decidable (Asynchronous self) :=
  inferInstanceAs (Decidable (_ ∧ _ ∧ _))

/-- The encoder after a synchronous frame: at most the committed id changed. -/
def withFrameId (encoder : Option Encoder) (frameIdServer : Option Int) : Option Encoder :=
  match frameIdServer with
  | none => encoder
  | some frameId => encoder.map ({ · with frameIdServer := frameId })

/-- What a call of `xrdp_mm_egfx_send_planar_rects` can do. -/
inductive SendStep (before : Mm R) (bitmap : Bitmap) (rects : List Rect) (surfaceId x y : Int) :
    Mm R → Prop where
  | refused (allocResults : List Bool) :
      SendStep before bitmap rects surfaceId x y { before with allocResults }
  | queued (allocResults : List Bool) (encoder : Encoder) (total : Int) :
      Asynchronous before → before.encoder = some encoder → before.vncGfxAsyncPending = false →
      rects ≠ [] → snapshotBytes rects 0 = some total → 0 < total →
      SendStep before bitmap rects surfaceId x y
        (queueJob { before with allocResults } encoder
          (planarJob before encoder bitmap rects surfaceId x y))
  | framed (sent : Mm R) (committed : Option Int) :
      ¬Asynchronous before → rects ≠ [] →
      SendsOnly before sent (planarFramePdus before bitmap rects surfaceId x y) →
      SendStep before bitmap rects surfaceId x y
        { sent with encoder := withFrameId before.encoder committed }

theorem sends_only_rect_list (self : Mm R) (bitmap : Bitmap) (surfaceId x y : Int)
    (rects : List Rect) :
    SendsOnly self (sendPlanarRectList self bitmap surfaceId x y rects).2
        (rects.flatMap fun rect => planarRectTiles bitmap rect surfaceId x y) ∧
      (self.egfx.sendResults = [] →
        (sendPlanarRectList self bitmap surfaceId x y rects).1 = true) := by
  induction rects generalizing self with
  | nil => exact ⟨sends_only_refl self, fun _ => rfl⟩
  | cons rect rest ih =>
      obtain ⟨first, finished⟩ := sends_only_all self (planarRectTiles bitmap rect surfaceId x y)
      obtain ⟨later, finishedLater⟩ :=
        ih (xrdpMmEgfxSendPlanarRectData self bitmap rect surfaceId x y).2
      rw [sendPlanarRectList]
      split
      · constructor
        · exact sends_only_trans first later
        · intro works
          apply finishedLater
          rw [xrdpMmEgfxSendPlanarRectData, sends_only_works first works]
          exact works
      · rename_i failed
        constructor
        · obtain ⟨sent, results, after, -⟩ := first
          refine ⟨sent, results, after, ?_⟩
          intro works
          exact absurd (finished works) failed
        · intro works
          exact absurd (finished works) failed

theorem sends_only_failed {before after : Mm R} {pdus : List GfxPdu}
    (sent : SendsOnly before after pdus) (fails : before.egfx.sendResults ≠ [])
    (other : List GfxPdu) : SendsOnly before after other := by
  obtain ⟨messages, results, same, -⟩ := sent
  exact ⟨messages, results, same, fun works => absurd works fails⟩

theorem sends_only_encoder {before after : Mm R} {pdus : List GfxPdu}
    (sent : SendsOnly before after pdus) : after.encoder = before.encoder := by
  obtain ⟨_, _, rfl, -⟩ := sent
  rfl

theorem commit_frame_id (self : Mm R) (frameId : Int) :
    ∃ committed, commitFrameId self frameId =
      { self with encoder := withFrameId self.encoder committed } := by
  unfold commitFrameId
  split
  · exact ⟨some frameId, rfl⟩
  · exact ⟨none, rfl⟩

theorem send_planar_frame_step (self : Mm R) (bitmap : Bitmap) (rects : List Rect)
    (surfaceId x y : Int) :
    ∃ sent committed, (sendPlanarFrame self bitmap rects surfaceId x y).2 =
        { sent with encoder := withFrameId self.encoder committed } ∧
      SendsOnly self sent (planarFramePdus self bitmap rects surfaceId x y) ∧
      (self.egfx.sendResults = [] → (sendPlanarFrame self bitmap rects surfaceId x y).1 = true) := by
  have started := sends_only_send self (.startFrame (planarFrameId self) 0)
  obtain ⟨drawn, finished⟩ := sends_only_rect_list
    (xrdpEgfxSend self (.startFrame (planarFrameId self) 0)).2 bitmap surfaceId x y rects
  have both := sends_only_trans started drawn
  have ended := sends_only_trans both (sends_only_send _ (.endFrame (planarFrameId self)))
  unfold sendPlanarFrame
  simp only []
  split
  · rename_i failed
    have fails : self.egfx.sendResults ≠ [] := by
      intro works
      simp [send_succeeds works] at failed
    refine ⟨_, none, ?_, sends_only_failed started fails _, fun works => absurd works fails⟩
    rw [withFrameId, ← sends_only_encoder started]
  · rename_i worked
    split
    · rename_i failed
      have fails : self.egfx.sendResults ≠ [] := by
        intro works
        have starts := send_succeeds works (GfxPdu.startFrame (planarFrameId self) 0)
        rw [starts] at finished failed
        simp [finished works] at failed
      refine ⟨_, none, ?_, sends_only_failed both fails _, fun works => absurd works fails⟩
      rw [withFrameId, ← sends_only_encoder both]
    · split
      · rename_i failed
        have fails : self.egfx.sendResults ≠ [] := by
          intro works
          have middle := sends_only_works both works
          rw [middle] at failed
          simp [xrdpEgfxSend, works] at failed
        refine ⟨_, none, ?_, sends_only_failed ended fails _, fun works => absurd works fails⟩
        rw [withFrameId, ← sends_only_encoder ended]
      · obtain ⟨committed, same⟩ := commit_frame_id
          (xrdpEgfxSend (sendPlanarRectList
            (xrdpEgfxSend self (.startFrame (planarFrameId self) 0)).2 bitmap surfaceId x y
              rects).2 (.endFrame (planarFrameId self))).2 (planarFrameId self)
        refine ⟨_, committed, ?_, ended, fun _ => rfl⟩
        rw [same, sends_only_encoder ended]

theorem schedule_step {self : Mm R} {bitmap : Bitmap} {rects : List Rect} {surfaceId x y : Int}
    (asynchronous : Asynchronous self) (some_rect : rects ≠ []) :
    SendStep self bitmap rects surfaceId x y
      (xrdpMmEgfxSchedulePlanarRects self bitmap rects surfaceId x y).2 := by
  obtain ⟨encoder, present⟩ := Option.isSome_iff_exists.mp asynchronous.2.2
  have unchanged : SendStep self bitmap rects surfaceId x y self := .refused self.allocResults
  simp only [xrdpMmEgfxSchedulePlanarRects, present]
  split
  · exact unchanged
  · rename_i free
    split
    · exact unchanged
    · rename_i total measured
      split
      · exact unchanged
      · split
        · exact .refused _
        · split
          · exact .refused _
          · have idle : self.vncGfxAsyncPending = false := by simpa using (not_or.mp free).2
            exact .queued _ encoder total asynchronous present idle some_rect measured (by omega)

theorem send_planar_rects_step (self : Mm R) (bitmap : Bitmap) (rects : List Rect)
    (surfaceId x y : Int) :
    SendStep self bitmap rects surfaceId x y
      (xrdpMmEgfxSendPlanarRects self bitmap rects surfaceId x y).2 := by
  unfold xrdpMmEgfxSendPlanarRects
  split
  · exact .refused self.allocResults
  · rename_i some_rect
    have nonempty : rects ≠ [] := by
      intro empty
      simp [empty] at some_rect
    split
    · rename_i asynchronous
      exact schedule_step (by simpa [Asynchronous, and_assoc] using asynchronous) nonempty
    · rename_i synchronous
      obtain ⟨sent, committed, after, sends, -⟩ :=
        send_planar_frame_step self bitmap rects surfaceId x y
      rw [after]
      apply SendStep.framed sent committed _ nonempty sends
      simpa [Asynchronous, and_assoc] using synchronous

/-- No call changes the screen or the limit on rectangles. -/
theorem send_step_frame {before after : Mm R} {bitmap : Bitmap} {rects : List Rect}
    {surfaceId x y : Int} (step : SendStep before bitmap rects surfaceId x y after) :
    after.wm = before.wm ∧ after.vncGfxMaxDirtyRects = before.vncGfxMaxDirtyRects ∧
      after.egfx.surfaceId = before.egfx.surfaceId := by
  cases step with
  | refused => exact ⟨rfl, rfl, rfl⟩
  | queued => exact ⟨rfl, rfl, rfl⟩
  | framed sent committed synchronous nonempty sends =>
      obtain ⟨messages, results, rfl, -⟩ := sends
      exact ⟨rfl, rfl, rfl⟩

/-! ## Whole draws -/

section Draws

variable [Pixman R]

/-- The calls a draw makes, which only depend on what it does not change. -/
structure PlanarCall where
  rects : List Rect
  surfaceId : Int
  x : Int
  y : Int

def monitorCalls (region : R) (maxDirtyRects : Nat) : Nat → List MonitorInfo → List PlanarCall
  | _, [] => []
  | index, mi :: rest =>
      if xrdpRegionNotEmpty (monitorRegion region mi) then
        { rects := planarRegionRects (monitorRegion region mi) maxDirtyRects
          surfaceId := index, x := mi.left, y := mi.top } ::
          monitorCalls region maxDirtyRects (index + 1) rest
      else
        monitorCalls region maxDirtyRects (index + 1) rest

def drawCalls (self : Mm R) (region : R) : List PlanarCall :=
  if self.wm.clientInfo.displaySizes.monitorCount < 1 then
    [{ rects := planarRegionRects region self.vncGfxMaxDirtyRects
       surfaceId := self.egfx.surfaceId, x := 0, y := 0 }]
  else
    monitorCalls region self.vncGfxMaxDirtyRects 0 self.wm.clientInfo.displaySizes.minfoWm

def sendCall (self : Mm R) (call : PlanarCall) : Mm R :=
  (xrdpMmEgfxSendPlanarRects self self.wm.screen call.rects call.surfaceId call.x call.y).2

theorem draw_monitors_calls (region : R) (rv : Bool) (self : Mm R) (index : Nat)
    (monitors : List MonitorInfo) :
    (drawMonitors region rv self index monitors).2 =
      (monitorCalls region self.vncGfxMaxDirtyRects index monitors).foldl sendCall self := by
  induction monitors generalizing rv self index with
  | nil => rfl
  | cons mi rest ih =>
      rw [drawMonitors, monitorCalls]
      split
      · rw [ih, List.foldl_cons]
        have frame := send_step_frame (send_planar_rects_step self self.wm.screen
          (planarRegionRects (monitorRegion region mi) self.vncGfxMaxDirtyRects) index mi.left mi.top)
        rw [xrdpMmEgfxSendPlanarRegion, frame.2.1]
        rfl
      · exact ih rv self (index + 1)

theorem draw_dirty_calls (self : Mm R) (region : R) :
    (xrdpMmDrawDirty self region).2 = (drawCalls self region).foldl sendCall self := by
  unfold xrdpMmDrawDirty drawCalls
  split
  · rfl
  · exact draw_monitors_calls region true self 0 _

/-- What every call preserves holds after the draw. -/
theorem draw_dirty_preserves {self : Mm R} {region : R} (holds : Mm R → Prop)
    (preserved : ∀ before call after, call ∈ drawCalls self region → before.wm = self.wm →
      holds before →
      SendStep before before.wm.screen call.rects call.surfaceId call.x call.y after → holds after)
    (initially : holds self) : holds (xrdpMmDrawDirty self region).2 := by
  rw [draw_dirty_calls]
  have loop : ∀ calls : List PlanarCall,
      (∀ call ∈ calls, call ∈ drawCalls self region) → ∀ before : Mm R,
      before.wm = self.wm → holds before → holds (calls.foldl sendCall before) := by
    intro calls
    induction calls with
    | nil => exact fun _ before _ start => start
    | cons call calls ih =>
        intro members before same start
        have step := send_planar_rects_step before before.wm.screen call.rects call.surfaceId
          call.x call.y
        apply ih (fun other member => members other (List.mem_cons_of_mem call member))
        · exact (send_step_frame step).1.trans same
        · exact preserved before call _ (members call (List.mem_cons_self ..)) same start step
  exact loop _ (fun _ member => member) self rfl initially

end Draws

end XrdpConsole.DrawSteps
