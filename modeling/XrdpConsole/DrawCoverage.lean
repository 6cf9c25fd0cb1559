import XrdpConsole.DrawCalls

/-!
# Dirty pixels over one draw

A draw throws the dirty region away, so every dirty pixel has to be sent or be in
a queued job by then. The synchronous path does that; the scheduler takes at most
one job, and calls it refuses are lost.
-/

namespace XrdpConsole.DrawCoverage

open XrdpConsole.Library
open XrdpConsole.Region
open XrdpConsole.VncState
open XrdpConsole.MmState
open XrdpConsole.PlanarSend
open XrdpConsole.PlanarTiles
open XrdpConsole.DrawSteps
open XrdpConsole.DrawCalls

set_option autoImplicit false

variable {R : Type} [Pixman R]

/-- The pixel belongs on a surface with the given origin: that of a monitor, or the
only one where there is no monitor list. -/
inductive Target (self : Mm R) : Int → Int → Int → Int → Int → Prop where
  | whole (x y : Int) : self.wm.clientInfo.displaySizes.monitorCount < 1 →
      Target self self.egfx.surfaceId 0 0 x y
  | monitor (index : Nat) (mi : MonitorInfo) (x y : Int) :
      self.wm.clientInfo.displaySizes.minfoWm[index]? = some mi →
      (monitorRect mi).Covers x y → Target self index mi.left mi.top x y

def newPdus (before after : Mm R) : List GfxPdu :=
  after.egfx.sent.drop before.egfx.sent.length

def queuedJobs (self : Mm R) : List EncVncPlanar := (self.encoder.map (·.fifoToProc)).getD []

def newJobs (before after : Mm R) : List EncVncPlanar :=
  (queuedJobs after).drop (queuedJobs before).length

def jobRect (rect : EncVncPlanarRect) : Rect where
  left := rect.left
  top := rect.top
  right := rect.left + rect.width
  bottom := rect.top + rect.height

/-- A rectangle with the pixel was sent for the surface, or is in a new job for it. -/
def Delivered (before after : Mm R) (surfaceId originX originY x y : Int) : Prop :=
  (∃ rect data, .wireToSurface1 surfaceId codecidPlanar pixelFormatXrgb8888 rect data ∈
      newPdus before after ∧ rect.Covers (x - originX) (y - originY)) ∨
    ∃ job ∈ newJobs before after, job.surfaceId = surfaceId ∧ job.originX = originX ∧
      job.originY = originY ∧ ∃ rect ∈ job.rects, (jobRect rect).Covers x y

def StillDirty (after : Mm R) (x y : Int) : Prop :=
  ∃ region, after.wm.screenDirtyRegion = some region ∧ Covered region x y

def NoPixelLost (before : Mm R) (region : R) (after : Mm R) : Prop :=
  ∀ surfaceId originX originY x y, Target before surfaceId originX originY x y →
    Covered region x y → Delivered before after surfaceId originX originY x y ∨
      StillDirty after x y

/-- The draw is synchronous, or touches no surface, or touches one only, with no job
pending and a snapshot that is not too large. -/
def OneJobSuffices (self : Mm R) (region : R) : Prop :=
  ¬Asynchronous self ∨ drawCalls self region = [] ∨
    self.vncGfxAsyncPending = false ∧
      ∃ call, drawCalls self region = [call] ∧ (snapshotBytes call.rects 0).isSome

/-! ## Pixels and calls -/

theorem target_call {self : Mm R} {region : R} {surfaceId originX originY x y : Int}
    (target : Target self surfaceId originX originY x y) (covered : Covered region x y) :
    ∃ call ∈ drawCalls self region, call.surfaceId = surfaceId ∧ call.x = originX ∧
      call.y = originY ∧ ∃ rect ∈ call.rects, rect.Covers x y := by
  cases target with
  | whole _ _ none_listed =>
      rw [drawCalls, if_pos none_listed]
      exact ⟨_, List.mem_singleton.mpr rfl, rfl, rfl, rfl, planar_region_rects_cover covered⟩
  | monitor index mi _ _ listed inside =>
      have both : Covered (monitorRegion region mi) x y :=
        (covered_monitor_region region mi x y).mpr ⟨covered, inside⟩
      have some_monitor : ¬self.wm.clientInfo.displaySizes.monitorCount < 1 := by
        obtain ⟨bound, -⟩ := List.getElem?_eq_some_iff.mp listed
        simp only [DisplaySizeDescription.monitorCount]
        omega
      rw [drawCalls, if_neg some_monitor]
      refine ⟨_, mem_monitor_calls.mpr ⟨index, mi, listed,
        (not_empty_covers _).mpr ⟨x, y, both⟩, rfl⟩, ?_, rfl, rfl, planar_region_rects_cover both⟩
      simp

theorem call_target {self : Mm R} {region : R} (some_pixel : xrdpRegionNotEmpty region = true)
    {call : PlanarCall} (member : call ∈ drawCalls self region) :
    ∃ x y, Target self call.surfaceId call.x call.y x y ∧ Covered region x y := by
  unfold drawCalls at member
  split at member
  · rename_i none_listed
    obtain ⟨x, y, covered⟩ := (not_empty_covers region).mp some_pixel
    rw [List.mem_singleton.mp member]
    exact ⟨x, y, .whole x y none_listed, covered⟩
  · obtain ⟨index, mi, listed, touched, rfl⟩ := mem_monitor_calls.mp member
    obtain ⟨x, y, both⟩ := (not_empty_covers _).mp touched
    obtain ⟨covered, inside⟩ := (covered_monitor_region region mi x y).mp both
    refine ⟨x, y, ?_, covered⟩
    simpa using Target.monitor index mi x y listed inside

theorem monitor_calls_ascending (region : R) (maxDirtyRects index : Nat)
    (monitors : List MonitorInfo) :
    (monitorCalls region maxDirtyRects index monitors).Pairwise
      fun call later => call.surfaceId < later.surfaceId := by
  induction monitors generalizing index with
  | nil => exact List.Pairwise.nil
  | cons mi rest ih =>
      rw [monitorCalls]
      split
      · apply List.Pairwise.cons _ (ih (index + 1))
        intro later member
        obtain ⟨offset, other, -, -, rfl⟩ := mem_monitor_calls.mp member
        simp only
        omega
      · exact ih (index + 1)

theorem draw_calls_ascending (self : Mm R) (region : R) :
    (drawCalls self region).Pairwise fun call later => call.surfaceId < later.surfaceId := by
  unfold drawCalls
  split
  · exact List.pairwise_singleton _ _
  · exact monitor_calls_ascending region _ 0 _

omit [Pixman R] in
theorem job_rect_of_rect {bitmap : Bitmap} {rects : List Rect} {offset : Int} {rect : Rect}
    (member : rect ∈ rects) {x y : Int} (covered : rect.Covers x y) :
    ∃ entry ∈ (snapshotRects bitmap rects offset).1, (jobRect entry).Covers x y := by
  induction rects generalizing offset with
  | nil => exact absurd member List.not_mem_nil
  | cons first rest ih =>
      simp only [snapshotRects]
      rcases List.mem_cons.mp member with rfl | later
      · split
        all_goals
          refine ⟨_, List.mem_cons_self .., ?_⟩
          simp only [Rect.Covers, jobRect] at *
          omega
      · split
        all_goals
          obtain ⟨entry, entryMember, entryCovers⟩ := ih later
          exact ⟨entry, List.mem_cons_of_mem _ entryMember, entryCovers⟩

/-! ## What a draw leaves behind -/

/-- The state after a draw that was due. -/
theorem check_screen_dirty_due {self : Mm R} {region : R} {now : Int}
    (dirty : self.wm.screenDirtyRegion = some region) (due : DrawDue self region now) :
    (checkScreenDirty self now).2 =
      { (drawCalls self region).foldl sendCall self with
        wm.screenDirtyRegion := none
        wm.lastScreenDrawTime := now } := by
  simp only [checkScreenDirty, dirty]
  rw [if_pos due, draw_dirty_calls]

theorem synchronous_keeps_pixels {self : Mm R} {region : R} {now : Int}
    (dirty : self.wm.screenDirtyRegion = some region) (due : DrawDue self region now)
    (works : self.egfx.sendResults = []) (synchronous : ¬Asynchronous self) :
    NoPixelLost self region (checkScreenDirty self now).2 := by
  intro surfaceId originX originY x y target covered
  have solid := fun call => @draw_calls_solid R _ self region due.1 call
  obtain ⟨sent, frameIds, after, tiles⟩ := send_calls_synchronous synchronous works solid
  obtain ⟨call, member, rfl, rfl, rfl, rect, rectMember, inside⟩ := target_call target covered
  obtain ⟨tile, tileMember, tileCovers⟩ := tile_rects_cover inside
  left
  left
  refine ⟨tile.relativeTo call.x call.y, tileBytes self.wm.screen tile, ?_, by simpa using tileCovers⟩
  have pdus : newPdus self (checkScreenDirty self now).2 = sent := by
    rw [newPdus, check_screen_dirty_due dirty due, after]
    exact List.drop_left
  have selected : tilePdu self.wm.screen call.surfaceId call.x call.y tile ∈
      sent.filter isTile := by
    rw [tiles]
    apply List.mem_flatMap.mpr
    refine ⟨call, member, ?_⟩
    rw [call_tiles _ (solid call member).2]
    exact List.mem_flatMap.mpr ⟨rect, rectMember, List.mem_map_of_mem tileMember⟩
  rw [pdus]
  exact (List.mem_filter.mp selected).1

/-- An asynchronous draw sends nothing itself, and queues a job for at most one
call. -/
theorem asynchronous_delivers {self : Mm R} {region : R} {now : Int} {encoder : Encoder}
    (dirty : self.wm.screenDirtyRegion = some region) (due : DrawDue self region now)
    (available : self.allocResults = []) (asynchronous : Asynchronous self)
    (present : self.encoder = some encoder) :
    newPdus self (checkScreenDirty self now).2 = [] ∧
      newJobs self (checkScreenDirty self now).2 =
        if self.vncGfxAsyncPending = true then [] else
          ((drawCalls self region).find? fun call =>
              (snapshotBytes call.rects 0).isSome).toList.map fun call =>
            planarJob self encoder self.wm.screen call.rects call.surfaceId call.x call.y := by
  have solid := fun call => @draw_calls_solid R _ self region due.1 call
  rw [newPdus, newJobs, check_screen_dirty_due dirty due]
  by_cases pending : self.vncGfxAsyncPending = true
  · rw [send_calls_pending asynchronous present available pending solid, if_pos pending]
    simp [queuedJobs]
  · rw [send_calls_asynchronous asynchronous present available (by simpa using pending) solid,
      if_neg pending]
    cases (drawCalls self region).find? fun call => (snapshotBytes call.rects 0).isSome with
    | none => simp [queuedJobs]
    | some call => simp [queuedJobs, queueJob, present]

theorem asynchronous_keeps_pixels_iff {self : Mm R} {region : R} {now : Int}
    (dirty : self.wm.screenDirtyRegion = some region) (due : DrawDue self region now)
    (available : self.allocResults = []) (asynchronous : Asynchronous self) :
    NoPixelLost self region (checkScreenDirty self now).2 ↔
      drawCalls self region = [] ∨ self.vncGfxAsyncPending = false ∧
        ∃ call, drawCalls self region = [call] ∧ (snapshotBytes call.rects 0).isSome := by
  obtain ⟨encoder, present⟩ := Option.isSome_iff_exists.mp asynchronous.2.2
  obtain ⟨noPdus, jobs⟩ := asynchronous_delivers dirty due available asynchronous present
  have cleaned : ∀ x y, ¬StillDirty (checkScreenDirty self now).2 x y := by
    rintro x y ⟨left, kept, -⟩
    rw [check_screen_dirty_due dirty due] at kept
    simp at kept
  constructor
  · intro kept
    -- every call needs a job for its surface, and there is one job at most
    have served : ∀ call ∈ drawCalls self region,
        ∃ job ∈ newJobs self (checkScreenDirty self now).2, job.surfaceId = call.surfaceId := by
      intro call member
      obtain ⟨x, y, target, covered⟩ := call_target due.1 member
      rcases kept _ _ _ x y target covered with (sent | queued) | dirtyStill
      · obtain ⟨rect, data, member, -⟩ := sent
        rw [noPdus] at member
        exact absurd member List.not_mem_nil
      · obtain ⟨job, jobMember, same, -⟩ := queued
        exact ⟨job, jobMember, same⟩
      · exact absurd dirtyStill (cleaned x y)
    by_cases none_touched : drawCalls self region = []
    · exact .inl none_touched
    · right
      obtain ⟨first, firstMember⟩ := List.exists_mem_of_ne_nil _ none_touched
      by_cases pending : self.vncGfxAsyncPending = true
      · obtain ⟨job, member, -⟩ := served first firstMember
        rw [jobs, if_pos pending] at member
        exact absurd member List.not_mem_nil
      · refine ⟨by simpa using pending, ?_⟩
        rw [jobs, if_neg pending] at served
        cases found : (drawCalls self region).find? fun call =>
            (snapshotBytes call.rects 0).isSome with
        | none =>
            rw [found] at served
            obtain ⟨job, member, -⟩ := served first firstMember
            exact absurd member List.not_mem_nil
        | some chosen =>
            rw [found] at served
            have same : ∀ call ∈ drawCalls self region, call.surfaceId = chosen.surfaceId := by
              intro call member
              obtain ⟨job, jobMember, same⟩ := served call member
              rw [← same, List.mem_singleton.mp jobMember]
              rfl
            have fits := List.find?_some found
            have member := List.mem_of_find?_eq_some found
            have ascending := draw_calls_ascending self region
            refine ⟨chosen, ?_, fits⟩
            generalize drawCalls self region = calls at same member ascending
            rcases calls with _ | ⟨call, _ | ⟨next, rest⟩⟩
            · exact absurd member List.not_mem_nil
            · rw [List.mem_singleton.mp member]
            · have less := (List.pairwise_cons.mp ascending).1 next (List.mem_cons_self ..)
              have callSame := same call (by simp)
              have nextSame := same next (by simp)
              omega
  · rintro (none_touched | ⟨idle, call, single, fits⟩)
    · intro surfaceId originX originY x y target covered
      obtain ⟨call, member, -⟩ := target_call target covered
      rw [none_touched] at member
      exact absurd member List.not_mem_nil
    · intro surfaceId originX originY x y target covered
      obtain ⟨other, member, rfl, rfl, rfl, rect, rectMember, inside⟩ := target_call target covered
      rw [single] at member jobs
      obtain rfl := List.mem_singleton.mp member
      left
      right
      refine ⟨planarJob self encoder self.wm.screen other.rects other.surfaceId other.x other.y,
        ?_, rfl, rfl, rfl, job_rect_of_rect rectMember inside⟩
      rw [jobs, if_neg (by simp [idle])]
      simp [fits]

/-- A draw loses no dirty pixel exactly when it does not need more than the one job
the scheduler takes. -/
theorem draw_keeps_pixels_iff {self : Mm R} {region : R} {now : Int}
    (dirty : self.wm.screenDirtyRegion = some region) (due : DrawDue self region now)
    (works : self.egfx.sendResults = []) (available : self.allocResults = []) :
    NoPixelLost self region (checkScreenDirty self now).2 ↔ OneJobSuffices self region := by
  by_cases asynchronous : Asynchronous self
  · rw [asynchronous_keeps_pixels_iff dirty due available asynchronous, OneJobSuffices]
    simp [asynchronous]
  · constructor
    · intro _
      exact .inl asynchronous
    · intro _
      exact synchronous_keeps_pixels dirty due works asynchronous

/-- The session with its whole screen dirty. -/
def dirtySession (count : Nat) (asyncPlanar : Bool) : Mm BoxList :=
  { pixelSession count asyncPlanar with
    wm.screenDirtyRegion := some (BoxList.initRect (pixelRow count)) }

theorem draw_keeps_pixels_synchronous :
    NoPixelLost (dirtySession 2 false) (BoxList.initRect (pixelRow 2))
      (checkScreenDirty (dirtySession 2 false) 100).2 :=
  (@draw_keeps_pixels_iff _ _ (dirtySession 2 false) _ 100 rfl (by decide) rfl rfl).mpr
    (.inl (by decide))

/-- With two monitors and the asynchronous path the second one gets nothing. -/
theorem second_monitor_lost :
    DrawDue (dirtySession 2 true) (BoxList.initRect (pixelRow 2)) 100 ∧
      ¬NoPixelLost (dirtySession 2 true) (BoxList.initRect (pixelRow 2))
        (checkScreenDirty (dirtySession 2 true) 100).2 := by
  constructor
  · decide
  · intro kept
    have target : Target (dirtySession 2 true) 1 1 0 1 0 :=
      .monitor 1 { left := 1, top := 0, right := 1, bottom := 0 } 1 0 rfl (by decide)
    have covered : Covered (BoxList.initRect (pixelRow 2)) 1 0 :=
      ⟨pixelRow 2, by decide, by decide⟩
    have noPdus : newPdus (dirtySession 2 true) (checkScreenDirty (dirtySession 2 true) 100).2 =
        [] := rfl
    have surfaces : (newJobs (dirtySession 2 true)
        (checkScreenDirty (dirtySession 2 true) 100).2).map (·.surfaceId) = [0] := rfl
    rcases kept 1 1 0 1 0 target covered with (sent | queued) | dirtyStill
    · obtain ⟨rect, data, member, -⟩ := sent
      rw [noPdus] at member
      exact absurd member List.not_mem_nil
    · obtain ⟨job, member, same, -⟩ := queued
      have listed := List.mem_map_of_mem (f := fun job : EncVncPlanar => job.surfaceId) member
      rw [surfaces, same] at listed
      exact absurd listed (by decide)
    · obtain ⟨region, left, -⟩ := dirtyStill
      exact absurd left (by simp [show (checkScreenDirty (dirtySession 2 true)
        100).2.wm.screenDirtyRegion = none from rfl])

end XrdpConsole.DrawCoverage
