import XrdpConsole.DrawSteps
import XrdpConsole.PlanarTiles

/-!
# The calls of a draw

Which monitors a draw sends something for and which rectangles, and what the
channel and the encoder hold after it: all calls are sent as frames when the
synchronous path is taken, and at most one becomes a job when it is not.
-/

namespace XrdpConsole.DrawCalls

open XrdpConsole.Library
open XrdpConsole.Region
open XrdpConsole.VncState
open XrdpConsole.MmState
open XrdpConsole.PlanarSend
open XrdpConsole.PlanarTiles
open XrdpConsole.DrawSteps

set_option autoImplicit false

variable {R : Type}

section Regions

variable [Pixman R]

/-! ## Rectangles of a region -/

theorem collect_rects (region : R) (left index : Nat) :
    collectRects region left index = ((Pixman.rectangles region).drop index).take left := by
  induction left generalizing index with
  | zero => simp [collectRects]
  | succ left ih =>
      rw [collectRects, xrdpRegionGetRect]
      cases found : (Pixman.rectangles region)[index]? with
      | none =>
          have short : (Pixman.rectangles region).length ≤ index := by simpa using found
          simp [List.drop_of_length_le short]
      | some rect =>
          obtain ⟨bound, rfl⟩ := List.getElem?_eq_some_iff.mp found
          rw [List.drop_eq_getElem_cons bound, List.take_succ_cons, ih]

/-- Either all the boxes of the region or its bounds. -/
theorem planar_region_rects (region : R) (maxDirtyRects : Nat)
    (some_pixel : xrdpRegionNotEmpty region = true) :
    planarRegionRects region maxDirtyRects = [xrdpRegionGetBounds region] ∨
      planarRegionRects region maxDirtyRects = Pixman.rectangles region := by
  unfold planarRegionRects
  simp only [collect_rects, List.drop_zero]
  by_cases unlimited : maxDirtyRects < 1
  · exact .inl (if_pos unlimited)
  · rw [if_neg unlimited]
    have boxes : Pixman.rectangles region ≠ [] := by
      rwa [← Pixman.not_empty_rectangles]
    have count : 0 < (Pixman.rectangles region).length := List.length_pos_iff.mpr boxes
    rw [if_neg (by simp only [List.length_take]; omega)]
    by_cases extra :
        (xrdpRegionGetRect region ((Pixman.rectangles region).take maxDirtyRects).length).isSome
    · exact .inl (if_pos extra)
    · right
      rw [if_neg extra]
      apply List.take_of_length_le
      simp only [xrdpRegionGetRect, List.length_take, Option.isSome_iff_ne_none, ne_eq, not_not,
        List.getElem?_eq_none_iff] at extra
      omega

theorem planar_region_rects_cover {region : R} {maxDirtyRects : Nat} {x y : Int}
    (covered : Covered region x y) :
    ∃ rect ∈ planarRegionRects region maxDirtyRects, rect.Covers x y := by
  have some_pixel := (not_empty_covers region).mpr ⟨x, y, covered⟩
  rcases planar_region_rects region maxDirtyRects some_pixel with bounds | boxes
  · rw [bounds]
    exact ⟨_, List.mem_singleton.mpr rfl, covered_bounds covered⟩
  · rw [boxes]
    exact covered

theorem planar_region_rects_solid {region : R} {maxDirtyRects : Nat}
    (some_pixel : xrdpRegionNotEmpty region = true) :
    planarRegionRects region maxDirtyRects ≠ [] ∧
      ∀ rect ∈ planarRegionRects region maxDirtyRects, rect.Solid := by
  obtain ⟨x, y, covered⟩ := (not_empty_covers region).mp some_pixel
  obtain ⟨rect, member, -⟩ := @planar_region_rects_cover _ _ region maxDirtyRects x y covered
  constructor
  · intro empty
    rw [empty] at member
    exact List.not_mem_nil member
  · intro other otherMember
    rcases planar_region_rects region maxDirtyRects some_pixel with bounds | boxes
    · rw [bounds, List.mem_singleton] at otherMember
      rw [otherMember]
      exact Rect.solid_of_covers (covered_bounds covered)
    · rw [boxes] at otherMember
      exact Pixman.rectangles_solid region other otherMember

theorem planar_region_rects_inside {region : R} {maxDirtyRects : Nat} {outer : Rect}
    (some_pixel : xrdpRegionNotEmpty region = true)
    (within : ∀ x y, Covered region x y → outer.Covers x y) :
    ∀ rect ∈ planarRegionRects region maxDirtyRects, rect.Inside outer := by
  intro rect member
  rcases planar_region_rects region maxDirtyRects some_pixel with bounds | boxes
  · rw [bounds, List.mem_singleton] at member
    rw [member]
    exact bounds_inside within some_pixel
  · rw [boxes] at member
    exact rectangles_inside within member

@[simp] theorem covered_monitor_region (region : R) (mi : MonitorInfo) (x y : Int) :
    Covered (monitorRegion region mi) x y ↔
      Covered region x y ∧ (monitorRect mi).Covers x y := by
  rw [monitorRegion, covered_intersect_rect, covered_add_rects]
  simp only [covered_create, false_or]
  rfl

/-! ## The list of calls -/

theorem mem_monitor_calls {region : R} {maxDirtyRects index : Nat} {monitors : List MonitorInfo}
    {call : PlanarCall} :
    call ∈ monitorCalls region maxDirtyRects index monitors ↔
      ∃ offset mi, monitors[offset]? = some mi ∧
        xrdpRegionNotEmpty (monitorRegion region mi) = true ∧
        call = { rects := planarRegionRects (monitorRegion region mi) maxDirtyRects
                 surfaceId := ((index + offset : Nat) : Int), x := mi.left, y := mi.top } := by
  induction monitors generalizing index with
  | nil => simp [monitorCalls]
  | cons mi rest ih =>
      have split : (∃ offset other, (mi :: rest)[offset]? = some other ∧
          xrdpRegionNotEmpty (monitorRegion region other) = true ∧
          call = { rects := planarRegionRects (monitorRegion region other) maxDirtyRects
                   surfaceId := ((index + offset : Nat) : Int), x := other.left, y := other.top }) ↔
          (xrdpRegionNotEmpty (monitorRegion region mi) = true ∧
            call = { rects := planarRegionRects (monitorRegion region mi) maxDirtyRects
                     surfaceId := (index : Int), x := mi.left, y := mi.top }) ∨
          call ∈ monitorCalls region maxDirtyRects (index + 1) rest := by
        rw [ih]
        constructor
        · rintro ⟨offset, other, found, touched, same⟩
          cases offset with
          | zero =>
              obtain rfl : mi = other := by simpa using found
              exact .inl ⟨touched, same⟩
          | succ offset =>
              refine .inr ⟨offset, other, by simpa using found, touched, ?_⟩
              rw [same, Nat.add_assoc, Nat.add_comm 1 offset]
        · rintro (⟨touched, same⟩ | ⟨offset, other, found, touched, same⟩)
          · exact ⟨0, mi, rfl, touched, same⟩
          · refine ⟨offset + 1, other, by simpa using found, touched, ?_⟩
            rw [same, Nat.add_assoc, Nat.add_comm 1 offset]
      rw [split, monitorCalls]
      by_cases touched : xrdpRegionNotEmpty (monitorRegion region mi) = true
      · rw [if_pos touched, List.mem_cons]
        simp [touched]
      · rw [if_neg touched]
        simp [touched]

/-- What every call of a draw has in common. -/
theorem draw_calls_solid {self : Mm R} {region : R}
    (some_pixel : xrdpRegionNotEmpty region = true) {call : PlanarCall}
    (member : call ∈ drawCalls self region) :
    call.rects ≠ [] ∧ ∀ rect ∈ call.rects, rect.Solid := by
  unfold drawCalls at member
  split at member
  · rw [List.mem_singleton.mp member]
    exact planar_region_rects_solid some_pixel
  · obtain ⟨offset, mi, -, touched, rfl⟩ := mem_monitor_calls.mp member
    exact planar_region_rects_solid touched

end Regions

/-! ## Synchronous draws -/

def isTile : GfxPdu → Bool
  | .wireToSurface1 .. => true
  | _ => false

/-- The tiles of the rectangles of one call. -/
def callTiles (screen : Bitmap) (call : PlanarCall) : List GfxPdu :=
  call.rects.flatMap fun rect => planarRectTiles screen rect call.surfaceId call.x call.y

theorem call_tiles (screen : Bitmap) {call : PlanarCall} (solid : ∀ rect ∈ call.rects, rect.Solid) :
    callTiles screen call = call.rects.flatMap fun rect =>
      (tileRects rect).map (tilePdu screen call.surfaceId call.x call.y) :=
  flat_map_congr fun rect member =>
    planar_rect_tiles (solid rect member) screen call.surfaceId call.x call.y

theorem call_tiles_filter (screen : Bitmap) {call : PlanarCall}
    (solid : ∀ rect ∈ call.rects, rect.Solid) :
    (callTiles screen call).filter isTile = callTiles screen call := by
  rw [call_tiles screen solid, List.filter_eq_self]
  intro pdu member
  obtain ⟨rect, -, tiles⟩ := List.mem_flatMap.mp member
  obtain ⟨tile, -, rfl⟩ := List.mem_map.mp tiles
  rfl

theorem frame_pdus_filter (self : Mm R) (screen : Bitmap) {call : PlanarCall}
    (solid : ∀ rect ∈ call.rects, rect.Solid) :
    (planarFramePdus self screen call.rects call.surfaceId call.x call.y).filter isTile =
      callTiles screen call := by
  rw [planarFramePdus, List.filter_append, List.filter_cons_of_neg (by simp [isTile])]
  change (callTiles screen call).filter isTile ++ [] = callTiles screen call
  rw [List.append_nil, call_tiles_filter screen solid]

theorem with_frame_id_present (encoder : Option Encoder) (frameId : Option Int) :
    (withFrameId encoder frameId).isSome = encoder.isSome := by
  cases frameId <;> simp [withFrameId]

/-- A call that the encoder thread does not get. -/
theorem send_call_frame {self : Mm R} {call : PlanarCall} (synchronous : ¬Asynchronous self)
    (some_rect : call.rects ≠ []) :
    sendCall self call = (sendPlanarFrame self self.wm.screen call.rects call.surfaceId call.x
      call.y).2 := by
  have count : ¬call.rects.length < 1 := by
    have positive := List.length_pos_iff.mpr some_rect
    omega
  have other : ¬(self.vncGfxAsyncPlanar && self.isVnc && self.encoder.isSome) = true := by
    simpa [Asynchronous, and_assoc] using synchronous
  rw [sendCall, xrdpMmEgfxSendPlanarRects, if_neg count, if_neg other]

/-- A frame of the synchronous path when every send works. -/
theorem send_call_synchronous {self : Mm R} {call : PlanarCall} (synchronous : ¬Asynchronous self)
    (works : self.egfx.sendResults = []) (some_rect : call.rects ≠ []) :
    ∃ committed, sendCall self call =
      { self with
        egfx.sent := self.egfx.sent ++
          planarFramePdus self self.wm.screen call.rects call.surfaceId call.x call.y
        encoder := withFrameId self.encoder committed } := by
  obtain ⟨sent, committed, after, sends, -⟩ := send_planar_frame_step self self.wm.screen
    call.rects call.surfaceId call.x call.y
  refine ⟨committed, ?_⟩
  rw [send_call_frame synchronous some_rect, after, sends_only_works sends works]

/-- All calls of a synchronous draw are sent: the tiles that follow what was sent
before are those of the calls, in order. -/
theorem send_calls_synchronous {self : Mm R} {calls : List PlanarCall}
    (synchronous : ¬Asynchronous self) (works : self.egfx.sendResults = [])
    (solid : ∀ call ∈ calls, call.rects ≠ [] ∧ ∀ rect ∈ call.rects, rect.Solid) :
    ∃ (sent : List GfxPdu) (frameIds : List (Option Int)), calls.foldl sendCall self =
        { self with
          egfx.sent := self.egfx.sent ++ sent
          encoder := frameIds.foldl withFrameId self.encoder } ∧
      sent.filter isTile = calls.flatMap (callTiles self.wm.screen) := by
  induction calls generalizing self with
  | nil => exact ⟨[], [], by simp, rfl⟩
  | cons call calls ih =>
      have head := solid call (List.mem_cons_self ..)
      obtain ⟨committed, first⟩ := send_call_synchronous synchronous works head.1
      have again : ¬Asynchronous (sendCall self call) := by
        rw [first]
        simpa [Asynchronous, with_frame_id_present] using synchronous
      obtain ⟨sent, frameIds, rest, tiles⟩ := ih again (by rw [first]; exact works)
        fun other member => solid other (List.mem_cons_of_mem call member)
      refine ⟨planarFramePdus self self.wm.screen call.rects call.surfaceId call.x call.y ++ sent,
        committed :: frameIds, ?_, ?_⟩
      · rw [List.foldl_cons, rest, first]
        simp
      · rw [List.filter_append, frame_pdus_filter self self.wm.screen head.2, tiles, first]
        rfl

/-! ## Asynchronous draws -/

theorem snapshot_bytes_positive {rects : List Rect} {total result : Int}
    (solid : ∀ rect ∈ rects, rect.Solid) (measured : snapshotBytes rects total = some result) :
    total ≤ result ∧ (rects ≠ [] → total < result) := by
  induction rects generalizing total with
  | nil =>
      obtain rfl : total = result := by simpa [snapshotBytes] using measured
      exact ⟨Int.le_refl total, fun empty => absurd rfl empty⟩
  | cons rect rest ih =>
      have head : rect.Solid := solid rect (List.mem_cons_self ..)
      simp only [Rect.Solid] at head
      have area : 0 < (rect.right - rect.left) * (rect.bottom - rect.top) :=
        Int.mul_pos (by omega) (by omega)
      simp only [snapshotBytes] at measured
      rw [if_neg (by omega)] at measured
      split at measured
      · simp at measured
      · have later := ih (fun other member => solid other (List.mem_cons_of_mem rect member))
          measured
        constructor
        · omega
        · intro _
          omega

/-- A call that finds no job pending queues one unless its snapshot is too large. -/
theorem send_call_asynchronous {self : Mm R} {call : PlanarCall} {encoder : Encoder}
    (asynchronous : Asynchronous self) (present : self.encoder = some encoder)
    (available : self.allocResults = []) (solid : call.rects ≠ [] ∧ ∀ rect ∈ call.rects, rect.Solid) :
    sendCall self call =
      if self.vncGfxAsyncPending = false ∧ (snapshotBytes call.rects 0).isSome then
        queueJob self encoder
          (planarJob self encoder self.wm.screen call.rects call.surfaceId call.x call.y)
      else
        self := by
  have count : ¬call.rects.length < 1 := by
    have positive := List.length_pos_iff.mpr solid.1
    omega
  have path : (self.vncGfxAsyncPlanar && self.isVnc && self.encoder.isSome) = true := by
    simpa [Asynchronous, and_assoc] using asynchronous
  rw [sendCall, xrdpMmEgfxSendPlanarRects, if_neg count, if_pos path]
  simp only [xrdpMmEgfxSchedulePlanarRects, present]
  by_cases pending : self.vncGfxAsyncPending = true
  · simp [pending]
  · rw [if_neg (by simp [pending, count])]
    cases measured : snapshotBytes call.rects 0 with
    | none => simp
    | some total =>
        have positive := (snapshot_bytes_positive solid.2 measured).2 solid.1
        simp [pending, gNew, available, queueJob, show ¬total < 1 by omega]

theorem send_calls_pending {self : Mm R} {calls : List PlanarCall} {encoder : Encoder}
    (asynchronous : Asynchronous self) (present : self.encoder = some encoder)
    (available : self.allocResults = []) (pending : self.vncGfxAsyncPending = true)
    (solid : ∀ call ∈ calls, call.rects ≠ [] ∧ ∀ rect ∈ call.rects, rect.Solid) :
    calls.foldl sendCall self = self := by
  induction calls with
  | nil => rfl
  | cons call calls ih =>
      rw [List.foldl_cons, send_call_asynchronous asynchronous present available
        (solid call (List.mem_cons_self ..)), if_neg (by simp [pending])]
      exact ih fun other member => solid other (List.mem_cons_of_mem call member)

/-- Of the calls of an asynchronous draw, the first whose snapshot is not too large
becomes a job. -/
theorem send_calls_asynchronous {self : Mm R} {calls : List PlanarCall} {encoder : Encoder}
    (asynchronous : Asynchronous self) (present : self.encoder = some encoder)
    (available : self.allocResults = []) (idle : self.vncGfxAsyncPending = false)
    (solid : ∀ call ∈ calls, call.rects ≠ [] ∧ ∀ rect ∈ call.rects, rect.Solid) :
    calls.foldl sendCall self =
      match calls.find? fun call => (snapshotBytes call.rects 0).isSome with
      | none => self
      | some call => queueJob self encoder
          (planarJob self encoder self.wm.screen call.rects call.surfaceId call.x call.y) := by
  induction calls with
  | nil => rfl
  | cons call calls ih =>
      have head := solid call (List.mem_cons_self ..)
      have rest := fun other (member : other ∈ calls) =>
        solid other (List.mem_cons_of_mem call member)
      rw [List.foldl_cons, send_call_asynchronous asynchronous present available head,
        List.find?_cons]
      cases fits : (snapshotBytes call.rects 0).isSome with
      | true =>
          simp only [idle, and_self, if_true]
          exact send_calls_pending ⟨asynchronous.1, asynchronous.2.1, rfl⟩ rfl available rfl rest
      | false =>
          simp only [Bool.false_eq_true, and_false, if_false]
          exact ih rest

end XrdpConsole.DrawCalls
